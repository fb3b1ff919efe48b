import FtpControl.Startup

/-!
This module contains the program. It starts a server from the configuration in the working directory
and the environment, and serves one client on its standard streams; its log goes to standard error.
-/

namespace FtpControl.Program

def environment : IO (List (String × String)) := do
  let raw ← IO.FS.readBinFile "/proc/self/environ"
  let entries := (raw.toList.splitOn 0).filterMap Text.Utf8.decode?
  return entries.filterMap fun entry =>
    match entry.toList.span (· != '=') with
    | (name, _ :: value) => some (String.ofList name, String.ofList value)
    | _ => none

def configurationFiles : IO FileTree := do
  let path := ServerConfig.defaultPath
  let candidates := path :: (Config.withExtension? path).toList
  let files ← candidates.filterMapM fun (path : String) => do
    try
      let content ← IO.FS.readBinFile path
      return some (FileTree.components path, content.toList)
    catch _ =>
      return none
  return { files }

def print (filter : Log.Filter) (r : Record) : IO Unit := do
  if filter.shows r then
    IO.eprintln s!"[{r.level.name} {r.target}] {r.text}"

def carryOut (filter : Log.Filter) (log : ServerLog) (effect : Listener.Effect) : IO Unit := do
  match effect with
  | .happened _ _ (.flushed bytes) =>
    let output ← IO.getStdout
    output.write ⟨bytes.toArray⟩
    output.flush
  | _ => pure ()
  (effect.record? log).forM (print filter)

def nextStimulus (users : Accounts) (conn : Connection) : IO Listener.Stimulus := do
  match conn.session.phase, conn.session.calls with
  | .checking _, call :: past =>
    return .settled conn.serial past.length (users.backend past call)
  | .ended _, _ | .crashed, _ =>
    return if conn.vacated then .reported conn.serial else .vacated conn.serial
  | _, _ =>
    let bytes ← (← IO.getStdin).read 4096
    return .received conn.serial <|
      if bytes.isEmpty then Session.lastingEnd else bytes.toList.map Input.byte

partial def serve (filter : Log.Filter) (users : Accounts) (serial : Nat) (l : Listener) :
    IO Unit := do
  match l.find? serial with
  | none => return
  | some conn =>
    let (l, effects) := l.step (← nextStimulus users conn)
    effects.forM (carryOut filter l.log)
    serve filter users serial l

def run : IO UInt32 := do
  let env ← environment
  let filter := Startup.filter env
  let launch := Startup.run {} (← configurationFiles) env
  launch.records.forM (print filter)
  match launch.outcome with
  | .listening l =>
    let (served, effects) := l.step (.connected "127.0.0.1:0" { name := "control" })
    effects.forM (carryOut filter l.log)
    serve filter launch.users l.started served
    return 0
  | outcome => return (Startup.exitCode? outcome).elim 0 UInt8.toUInt32

end FtpControl.Program

def main : IO UInt32 :=
  FtpControl.Program.run
