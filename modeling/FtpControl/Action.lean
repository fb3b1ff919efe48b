import FtpControl.Event

/-!
This module contains actions: what the handler of a command does until it has a result. An action
is a finite tree. It branches where it asks the backend, because what comes next depends on the
answer, and it may stop for ever where it reaches for an argument that is not there.
-/

namespace FtpControl

inductive Action (α : Type) where
  | done (result : α)
  | note (note : Note) (next : Action α)
  | check (call : Call) (next : Answer → Action α)
  | crash

namespace Action

def argument (args : List String) (i : Nat) (next : String → Action α) : Action α :=
  match args[i]? with
  | some arg => next arg
  | none => crash

def bind (f : α → Action β) : Action α → Action β
  | done result => f result
  | note n next => note n (bind f next)
  | check call next => check call fun answer => bind f (next answer)
  | crash => crash

inductive Stop (α : Type) where
  | done (result : α)
  | waiting (next : Answer → Action α)
  | crashed

/-- The answers that calls get at once, when the calls before them are given, newest first. -/
abbrev Oracle := List Call → Call → Option Answer

def Oracle.later : Oracle :=
  fun _ _ => none

structure Outcome (α : Type) where
  calls : List Call
  events : List Event
  stop : Stop α

def Outcome.after (event : Event) (o : Outcome α) : Outcome α :=
  { o with events := event :: o.events }

def run (oracle : Oracle) (past : List Call) : Action α → Outcome α
  | done result => ⟨past, [], .done result⟩
  | note n next => (run oracle past next).after (.noted n)
  | check call next =>
    match oracle past call with
    | some answer => (run oracle (call :: past) (next answer)).after (.called call)
    | none => ⟨call :: past, [.called call], .waiting next⟩
  | crash => ⟨past, [], .crashed⟩

end Action

end FtpControl
