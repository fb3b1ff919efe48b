import FtpControl.Config.Load
import FtpControl.Listener
import FtpControl.Log.Filter

/-!
This module contains the start of a server: loading its configuration, binding its address, and the
records and the exit code of a start that fails.
-/

namespace FtpControl.Startup

def log : ServerLog :=
  ⟨"rax_ftp_core"⟩

structure Launch where
  records : List Record
  outcome : Listener.Outcome
  users : Accounts := {}

def Launch.after (record : Record) (l : Launch) : Launch :=
  { l with records := record :: l.records }

def listen (host : Host) (c : ServerConfig) : Launch :=
  let (records, outcome) := Listener.bind host c c.sessionSettings ⟨c.logTarget⟩
  let said := match outcome with
    | .listening l => [l.opening]
    | .failed e => [log.record ⟨.error, e.message⟩]
    | .crashed => []
  { records := records ++ said, outcome, users := c.users }

def run (host : Host) (tree : FileTree) (env : List (String × String)) : Launch :=
  Launch.after (log.record ⟨.info, "Launching FTP server..."⟩) <|
    match ServerConfig.load tree env ServerConfig.defaultPath with
    | .error .noRoom => { records := [], outcome := .crashed }
    | .error e =>
      let e := ServerError.config e
      { records := [log.record ⟨.error, e.message⟩], outcome := .failed e }
    | .ok c =>
      if c.users.isEmpty then
        (listen host c).after
          (log.record ⟨.warn, "No users configured; every login will be rejected"⟩)
      else
        listen host c

/-- The exit code of a program whose server did not start. -/
def exitCode? : Listener.Outcome → Option UInt8
  | .listening _ => none
  | .failed _ => some 1
  | .crashed => some 101

def filterVariable : String := "RUST_LOG"

def filter (env : List (String × String)) : Log.Filter :=
  (env.lookup filterVariable).elim .default .parse

def shown (env : List (String × String)) (l : Launch) : List Record :=
  l.records.filter (filter env).shows

end FtpControl.Startup
