/-!
This module contains the replies of a control connection: the registered codes, their default texts
and the line that carries a reply over the wire.
-/

namespace FtpControl

inductive ReplyCode where
  | serviceReady
  | closingControl
  | loggedIn
  | needPassword
  | serviceUnavailable
  | syntaxError
  | notLoggedIn
  deriving Repr, DecidableEq

namespace ReplyCode

def number : ReplyCode → Nat
  | serviceReady => 220
  | closingControl => 221
  | loggedIn => 230
  | needPassword => 331
  | serviceUnavailable => 421
  | syntaxError => 500
  | notLoggedIn => 530

def ofNumber? : Nat → Option ReplyCode
  | 220 => some serviceReady
  | 221 => some closingControl
  | 230 => some loggedIn
  | 331 => some needPassword
  | 421 => some serviceUnavailable
  | 500 => some syntaxError
  | 530 => some notLoggedIn
  | _ => none

def defaultText : ReplyCode → String
  | serviceReady => "Service ready"
  | closingControl => "Service closing control connection"
  | loggedIn => "Password ok, continue"
  | needPassword => "User name ok, password required"
  | serviceUnavailable => "Service not available, closing control connection"
  | syntaxError => "Syntax error, command unrecognized"
  | notLoggedIn => "Incorrect password, not logged in"

@[simp]
theorem ofNumber?_number (code : ReplyCode) : ofNumber? code.number = some code := by
  cases code <;> rfl

theorem number_of_ofNumber? {n : Nat} {code : ReplyCode} (h : ofNumber? n = some code) :
    code.number = n := by
  unfold ofNumber? at h
  split at h <;> first | cases h; rfl | contradiction

end ReplyCode

def flatten (text : String) : String :=
  text.map fun c => if c = '\r' ∨ c = '\n' then ' ' else c

/-- The line for a number and a text. A number that is not registered gets the generic refusal. -/
def formatLine (number : Nat) (text : String) : String :=
  match ReplyCode.ofNumber? number with
  | some code => s!"{code.number} {flatten text}\r\n"
  | none => s!"{ReplyCode.syntaxError.number} {ReplyCode.syntaxError.defaultText}\r\n"

structure Reply where
  code : ReplyCode
  text : String
  deriving Repr, DecidableEq

namespace Reply

def ofCode (code : ReplyCode) : Reply :=
  ⟨code, code.defaultText⟩

def ofNumber (number : Nat) (text : String) : Reply :=
  match ReplyCode.ofNumber? number with
  | some code => ⟨code, text⟩
  | none => ofCode .syntaxError

def encode (reply : Reply) : String :=
  formatLine reply.code.number reply.text

theorem encode_eq (reply : Reply) :
    reply.encode = s!"{reply.code.number} {flatten reply.text}" ++ "\r\n" := by
  unfold encode formatLine
  rw [ReplyCode.ofNumber?_number]
  rfl

end Reply

end FtpControl
