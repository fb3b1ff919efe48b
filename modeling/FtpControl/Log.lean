import FtpControl.Text.Blank

/-!
This module contains log records and the two kinds of logs that issue them: the log of the server
and the log of one connection, whose records name the session and its peer.
-/

namespace FtpControl

inductive Level where
  | error
  | warn
  | info
  | debug
  deriving Repr, DecidableEq

def Level.name : Level → String
  | error => "ERROR"
  | warn => "WARN"
  | info => "INFO"
  | debug => "DEBUG"

structure Record where
  level : Level
  target : String
  text : String
  deriving Repr, DecidableEq

structure Note where
  level : Level
  text : String
  deriving Repr, DecidableEq

namespace Note

/-- The line without the password that it may carry. -/
def maskPassword (line : String) : String :=
  match Text.words line with
  | verb :: _ => if verb.toUpper = "PASS" then s!"{verb} ****" else line
  | [] => line

def connectionEstablished : Note :=
  ⟨.info, "Connection established"⟩

def command (line : String) : Note :=
  ⟨.info, s!"<- {maskPassword line}"⟩

def reply (encoded : String) : Note :=
  ⟨.debug, s!"-> {Text.trimEnd encoded}"⟩

end Note

structure ServerLog where
  target : String := "rax_ftp"
  deriving Repr, DecidableEq

def ServerLog.record (log : ServerLog) (note : Note) : Record :=
  ⟨note.level, log.target, note.text⟩

structure ConnectionLog where
  target : String
  session : UInt64
  peer : String
  deriving Repr, DecidableEq

def ConnectionLog.heading (log : ConnectionLog) : String :=
  s!"[#{log.session} {log.peer}] "

def ConnectionLog.record (log : ConnectionLog) (note : Note) : Record :=
  ⟨note.level, log.target, log.heading ++ note.text⟩

def ServerLog.forConnection (log : ServerLog) (session : UInt64) (peer : String) : ConnectionLog :=
  ⟨log.target, session, peer⟩

end FtpControl
