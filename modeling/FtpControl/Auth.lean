import FtpControl.Duration
import FtpControl.Text.Quoted

/-!
This module contains credential checks. The backend that knows the passwords is outside this
library: a check is a call to it, and the only things known about a call are what it asks and what
came of it.
-/

namespace FtpControl

structure Call where
  user : String
  password : String
  deriving Repr, DecidableEq

inductive Verdict where
  | granted
  | denied
  | crashed (message : Option String)
  | silent
  deriving Repr, DecidableEq

inductive AuthError where
  | timedOut (limit : Duration)
  | backendFailed (reason : String)
  deriving Repr, DecidableEq

def AuthError.message : AuthError → String
  | timedOut limit => s!"driver did not answer within {limit.text}"
  | backendFailed reason => s!"driver task failed: {reason}"

abbrev Answer := Except AuthError Bool

/-- A backend: its verdict on a call, when the calls before it are given, newest first. -/
abbrev Backend := List Call → Call → Verdict

namespace Backend

def ofFunction (f : Call → Verdict) : Backend :=
  fun _ call => f call

end Backend

structure Authenticator where
  timeout : Option Duration := none
  deriving Repr, DecidableEq

namespace Authenticator

-- A task that broke down, in the words of the task runner. `N` is the task's number.
def crashReason : Option String → String
  | some message => s!"task N panicked with message {Text.Quoted.quote message}"
  | none => "task N panicked"

def conclude (auth : Authenticator) : Verdict → Option Answer
  | .granted => some (.ok true)
  | .denied => some (.ok false)
  | .crashed message => some (.error (.backendFailed (crashReason message)))
  | .silent => auth.timeout.map fun limit => .error (.timedOut limit)

def consult (auth : Authenticator) (backend : Backend) (past : List Call) (call : Call) :
    Option Answer :=
  auth.conclude (backend past call)

def describe (auth : Authenticator) : String :=
  match auth.timeout with
  | none => "Authenticator \x7b timeout: None, .. \x7d"
  | some limit => s!"Authenticator \x7b timeout: Some({limit.text}), .. \x7d"

end Authenticator

end FtpControl
