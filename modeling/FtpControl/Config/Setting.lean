import FtpControl.Binary64
import FtpControl.Text.Quoted

/-!
This module contains settings: the values that configuration sources provide, and how the values of
one source are laid over those of another.
-/

namespace FtpControl.Config

inductive Source where
  | file (path : String)
  | environment
  deriving Repr, DecidableEq

def Source.text : Source → String
  | file path => path
  | environment => "the environment"

inductive Scalar where
  | boolean (b : Bool)
  | integer (n : Int)
  | float (x : Binary64)
  | string (s : String)
  deriving Repr, DecidableEq

inductive Setting where
  -- A place of an array that nothing was put into.
  | nothing
  | scalar (source : Option Source) (x : Scalar)
  | array (source : Option Source) (items : List Setting)
  | table (source : Option Source) (entries : List (String × Setting))
  deriving Repr

abbrev Settings := List (String × Setting)

namespace Settings

def insert (t : Settings) (key : String) (v : Setting) : Settings :=
  if (t.lookup key).isSome then
    t.map fun entry => if entry.1 = key then (key, v) else entry
  else
    t ++ [(key, v)]

end Settings

namespace Setting

def asTable : Setting → Option Source × Settings
  | table source entries => (source, entries)
  | _ => (none, [])

def asArray : Setting → Option Source × List Setting
  | array source items => (source, items)
  | _ => (none, [])

mutual

/--
Lay `v` over what a table has under a key. A table is laid over it key by key; anything else takes
its place.
-/
def layOver (key : String) (v : Setting) (t : Settings) : Settings :=
  match v with
  | table _ entries => t.insert key (layAll entries ((t.lookup key).getD (table none [])))
  | v => t.insert key v

def layAll (entries : List (String × Setting)) (target : Setting) : Setting :=
  match entries with
  | [] => target
  | (key, v) :: rest => layAll rest (table target.asTable.1 (layOver key v target.asTable.2))

end

inductive Step where
  | child (key : String)
  | index (n : Nat)
  deriving Repr, DecidableEq

def maxItems : Nat := 0xFFFFFFF

def Step.hasRoom : Step → Bool
  | child _ => true
  | index n => n < maxItems

def pad (items : List Setting) (n : Nat) : List Setting :=
  items ++ List.replicate (n + 1 - items.length) nothing

-- Put `v` in the place that steps lead to. Values on the way that do not fit are replaced.
def place (v : Setting) : List Step → Setting → Setting
  | [], _ => v
  | [.child key], target => table target.asTable.1 (layOver key v target.asTable.2)
  | .child key :: rest, target =>
    let (source, t) := target.asTable
    table source (t.insert key (place v rest ((t.lookup key).getD nothing)))
  | .index n :: rest, target =>
    let (source, items) := target.asArray
    array source ((pad items n).modify n (place v rest))

end Setting

structure Path where
  key : String
  steps : List Setting.Step := []
  deriving Repr, DecidableEq

namespace Path

def isName (c : Char) : Bool :=
  c.isAlphanum || c == '_' || c == '-' || c == ' '

def maxIndex : Nat := 0x7FFFFFFFFFFFFFFF

-- Read `.name` or `[index]`, with the rest. Only zero may have a minus sign.
def step? : List Char → Option (Setting.Step × List Char)
  | '.' :: cs =>
    match cs.takeWhile isName with
    | [] => none
    | name => some (.child (String.ofList name), cs.dropWhile isName)
  | '[' :: cs =>
    let isSpace (c : Char) : Bool := c == ' ' || c == '\t'
    let (negative, cs) := match cs.dropWhile isSpace with
      | '-' :: cs => (true, cs)
      | cs => (false, cs)
    let digits := cs.takeWhile Char.isDigit
    let n := digits.foldl (fun n c => n * 10 + (c.toNat - '0'.toNat)) 0
    match digits, (cs.dropWhile Char.isDigit).dropWhile isSpace with
    | _ :: _, ']' :: cs =>
      if n ≤ (if negative then 0 else maxIndex) then some (.index n, cs) else none
    | _, _ => none
  | _ => none

def steps? : Nat → List Char → Option (List Setting.Step)
  | _, [] => some []
  | 0, _ => none
  | n + 1, cs => do
    let (step, cs) ← step? cs
    return step :: (← steps? n cs)

def parse? (s : String) : Option Path :=
  let cs := s.toList
  match cs.takeWhile isName with
  | [] => none
  | name => (steps? cs.length (cs.dropWhile isName)).map (⟨String.ofList name, ·⟩)

def ofKey (s : String) : Path :=
  (parse? s).getD ⟨s, []⟩

def hasRoom (path : Path) : Bool :=
  path.steps.all (·.hasRoom)

end Path

namespace Settings

def set (t : Settings) (path : Path) (v : Setting) : Settings :=
  match path.steps with
  | [] => Setting.layOver path.key v t
  | steps => t.insert path.key (v.place steps ((t.lookup path.key).getD .nothing))

def collect (t : Settings) (entries : List (String × Setting)) : Settings :=
  entries.foldl (fun t (key, v) => t.set (Path.ofKey key) v) t

end Settings

end FtpControl.Config
