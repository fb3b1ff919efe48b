import FtpControl.Config.Convert

/-!
This module contains what a server needs of the machine that it runs on, and the errors that keep it
from running.
-/

namespace FtpControl

structure Host where
  refusal? : String → Option String := fun _ => none
  localAddress : String → Except String String := .ok

inductive ServerError where
  | bind (address : String) (reason : String)
  | config (error : Config.Error)
  | io (reason : String)
  deriving Repr, DecidableEq

def ServerError.message : ServerError → String
  | bind address reason => s!"failed to bind to {address}: {reason}"
  | config error => s!"configuration error: {error.text}"
  | io reason => s!"I/O error: {reason}"

end FtpControl
