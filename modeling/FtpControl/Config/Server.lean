import FtpControl.Config.Convert
import FtpControl.Session

/-!
This module contains the configuration of a server, its built-in values and the rules that a usable
one keeps.
-/

namespace FtpControl

structure ServerConfig where
  bindAddress : String := "127.0.0.1"
  controlPort : UInt16 := 2121
  welcomeMessage : String := "Welcome to RAX FTP Server"
  maxClients : UInt64 := 10
  maxCommandLength : UInt64 := 512
  authTimeoutSecs : UInt64 := 0
  logTarget : String := "rax_ftp"
  users : Accounts := {}

namespace ServerConfig

def minCommandLength : UInt64 := 16

def problem? (c : ServerConfig) : Option String :=
  if c.controlPort = 0 then some "Control port cannot be 0"
  else if c.maxClients = 0 then some "max_clients must be greater than 0"
  else if c.maxCommandLength < minCommandLength then
    some s!"max_command_length must be at least {minCommandLength}"
  else if c.welcomeMessage.toList.any fun ch => ch == '\r' || ch == '\n' then
    some "welcome_message must be a single line"
  else if c.logTarget = "" then some "log_target cannot be empty"
  else none

def validate (c : ServerConfig) : Except Config.Error Unit :=
  match c.problem? with
  | some text => .error (.message text)
  | none => .ok ()

def controlSocket (c : ServerConfig) : String :=
  s!"{c.bindAddress}:{c.controlPort}"

def authTimeout (c : ServerConfig) : Option Duration :=
  if c.authTimeoutSecs = 0 then none else some (.ofSeconds c.authTimeoutSecs.toNat)

def sessionSettings (c : ServerConfig) : SessionSettings where
  welcome := c.welcomeMessage
  maxCommandLength := c.maxCommandLength.toNat
  auth := ⟨c.authTimeout⟩
  registry := .withLogin

end ServerConfig

end FtpControl
