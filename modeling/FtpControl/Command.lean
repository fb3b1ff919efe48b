import FtpControl.Text.Blank

/-!
This module contains command lines: a verb and its arguments, separated by blanks. The reader of a
line is told how many arguments each verb needs, so that a short line is told apart before anyone
looks for an argument.
-/

namespace FtpControl

structure Command where
  verb : String
  args : List String
  deriving Repr, DecidableEq

inductive Request where
  | blank
  | incomplete (verb : String) (required given : Nat)
  | complete (command : Command)
  deriving Repr, DecidableEq

namespace Request

/-- Read a line, when `arity` says how many arguments a verb needs. -/
def parse (arity : String → Nat) (line : String) : Request :=
  match Text.words (Text.stripLineEnding line) with
  | [] => .blank
  | token :: args =>
    let verb := token.toUpper
    if args.length < arity verb then
      .incomplete verb (arity verb) args.length
    else
      .complete ⟨verb, args⟩

end Request

end FtpControl
