import FtpControl.Action
import FtpControl.Login
import FtpControl.Reply

/-!
This module contains the handlers of commands and the three that every server has: the two login
commands and the one for verbs that nobody registered.
-/

namespace FtpControl

structure Response where
  reply : Reply
  closes : Bool := false
  deriving Repr, DecidableEq

namespace Response

def ofText (code : ReplyCode) (text : String) : Response :=
  ⟨⟨code, text⟩, false⟩

def refusal (text : String) : Response :=
  ofText .syntaxError text

end Response

/-- What a handler does with its arguments in a given state. -/
abbrev Conduct := List String → SessionState → Action (SessionState × Response)

structure Handler where
  minArgs : Nat := 0
  conduct : Conduct

namespace Handler

def user : Handler where
  minArgs := 1
  conduct args st :=
    if st.isLoggedIn then
      .done (st, .refusal "Already logged in")
    else
      .argument args 0 fun name =>
        .done (st.begin name, .ofText .needPassword "User name ok, password required")

def accept (name : String) (st : SessionState) : Action (SessionState × Response) :=
  .note ⟨.info, s!"User {name} logged in"⟩
    (.done (st.complete.1, .ofText .loggedIn "Password ok, continue"))

def turnAway (name : String) (st : SessionState) : Action (SessionState × Response) :=
  .note ⟨.info, s!"Login rejected for {name}"⟩
    (.done (st.reject, .ofText .notLoggedIn "Incorrect password, not logged in"))

def settle (name : String) (st : SessionState) : Answer → Action (SessionState × Response)
  | .ok true => accept name st
  | .ok false => turnAway name st
  | .error e =>
    .note ⟨.warn, s!"Authentication for {name} failed: {e.message}"⟩ (turnAway name st)

def pass : Handler where
  minArgs := 1
  conduct args st :=
    match st.login with
    | .loggedIn _ => .done (st, .refusal "Already logged in")
    | .anonymous => .done (st, .refusal "Bad sequence of commands, send USER first")
    | .pending name =>
      .argument args 0 fun password => .check ⟨name, password⟩ (settle name st)

def unknown : Handler where
  conduct _ st := .done (st, .refusal "Command not found")

end Handler

end FtpControl
