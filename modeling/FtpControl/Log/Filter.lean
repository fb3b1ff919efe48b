import FtpControl.Log
import FtpControl.Text.Pattern

/-!
This module contains filters: which records of a log are shown. A filter is written as a list of
directives such as `info` or `target=debug`, separated by commas. Behind a slash there may be a
pattern for the texts of the records.
-/

namespace FtpControl

def Level.rank : Level → Nat
  | error => 1
  | warn => 2
  | info => 3
  | debug => 4

namespace Log

structure Directive where
  target : Option String := none
  depth : Nat
  deriving Repr, DecidableEq

namespace Directive

def all : Nat := 5

def depth? (word : String) : Option Nat :=
  match word.toLower with
  | "off" => some 0
  | "error" => some Level.error.rank
  | "warn" => some Level.warn.rank
  | "info" => some Level.info.rank
  | "debug" => some Level.debug.rank
  | "trace" => some all
  | _ => none

def parse? (s : List Char) : Option Directive :=
  match s.splitOn '=' with
  | [[]] => none
  | [word] =>
    let word := String.ofList word
    some <| match depth? word with
      | some depth => { depth }
      | none => { target := some word, depth := all }
  | [target, level] =>
    let level := Text.trim (String.ofList level)
    let depth := if level = "" then some all else depth? level
    depth.map fun depth => { target := some (String.ofList target), depth }
  | _ => none

def weight (d : Directive) : Nat :=
  d.target.elim 0 (·.utf8ByteSize)

def concerns (d : Directive) (r : Record) : Bool :=
  d.target.all fun target => target.toList.isPrefixOf r.target.toList

end Directive

structure Filter where
  directives : List Directive
  pattern : Option Text.Pattern := none
  deriving Repr, DecidableEq

namespace Filter

def default : Filter where
  directives := [{ depth := Level.error.rank }]

-- Add a directive. It takes the place of an earlier one for the same target.
def insert (known : List Directive) (d : Directive) : List Directive :=
  if known.any (·.target = d.target) then
    known.map fun old => if old.target = d.target then d else old
  else
    known ++ [d]

def directives? (cs : List Char) : Option (List Directive) :=
  let listed := (cs.splitOn ',').filterMap fun d =>
    Directive.parse? (Text.trim (String.ofList d)).toList
  if listed.isEmpty then none else some (listed.foldl insert [])

-- Read a filter. With more than one slash it asks for nothing.
def parse (s : String) : Filter :=
  match s.toList.splitOn '/' with
  | [cs] => { directives := (directives? cs).getD default.directives }
  | [cs, pattern] =>
    { directives := (directives? cs).getD default.directives
      pattern := Text.Pattern.parse? (String.ofList pattern) }
  | _ => default

/-- The directive that counts: the one with the greater weight, and of two equals the later one. -/
def prefer (best : Option Directive) (d : Directive) : Option Directive :=
  match best with
  | some b => if d.weight < b.weight then best else some d
  | none => some d

def shows (filter : Filter) (r : Record) : Bool :=
  match (filter.directives.filter (·.concerns r)).foldl prefer none with
  | some d => r.level.rank ≤ d.depth && filter.pattern.all (·.occursIn r.text)
  | none => false

end Filter

end Log

end FtpControl
