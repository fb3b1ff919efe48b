import FtpControl.Text.Blank

/-!
This module contains patterns that may occur in a text. A pattern is matched by going through the
text once, with the set of all that may still have to come behind the characters seen so far.
-/

namespace FtpControl.Text

inductive CharSet where
  | range (low high : Nat)
  | blank
  | union (a b : CharSet)
  | other (a : CharSet)
  deriving Repr, DecidableEq

namespace CharSet

def admits (c : Char) : CharSet → Bool
  | range low high => low ≤ c.toNat && c.toNat ≤ high
  | blank => isBlank c
  | union a b => a.admits c || b.admits c
  | other a => !a.admits c

def between (low high : Char) : CharSet :=
  range low.toNat high.toNat

def single (c : Char) : CharSet :=
  between c c

def digit : CharSet :=
  between '0' '9'

def word : CharSet :=
  union (union (between 'a' 'z') (between 'A' 'Z')) (union digit (single '_'))

def caseStep : Nat := 32

def anyCase : CharSet → CharSet
  | range low high =>
    let capitals := range (max low 'a'.toNat - caseStep) (min high 'z'.toNat - caseStep)
    let smalls := range (max low 'A'.toNat + caseStep) (min high 'Z'.toNat + caseStep)
    union (range low high) (union capitals smalls)
  | blank => blank
  | union a b => union a.anyCase b.anyCase
  | other a => other a.anyCase

end CharSet

inductive Pattern where
  | empty
  | one (set : CharSet)
  | start
  | finish
  | edge (expected : Bool)
  | seq (p q : Pattern)
  | either (p q : Pattern)
  | many (p : Pattern)
  deriving Repr, DecidableEq

namespace Pattern

structure Place where
  before : Option Char
  after : Option Char

def Place.isEdge (place : Place) : Bool :=
  place.before.any CharSet.word.admits != place.after.any CharSet.word.admits

def fits (place : Place) : Pattern → Bool
  | empty => true
  | one _ => false
  | start => place.before.isNone
  | finish => place.after.isNone
  | edge expected => place.isEdge == expected
  | seq p q => p.fits place && q.fits place
  | either p q => p.fits place || q.fits place
  | many _ => true

def andThen : Pattern → Pattern → Pattern
  | empty, q => q
  | p, q => seq p q

def rests (place : Place) (c : Char) : Pattern → List Pattern
  | one set => if set.admits c then [empty] else []
  | seq p q =>
    let behind := (p.rests place c).map (·.andThen q)
    if p.fits place then behind ++ q.rests place c else behind
  | either p q => p.rests place c ++ q.rests place c
  | many p => (p.rests place c).map (·.andThen (many p))
  | empty | start | finish | edge _ => []

/-- Whether one of several patterns matches from here on, or `p` does from a later place on. -/
def search (p : Pattern) (before : Option Char) (active : List Pattern) : List Char → Bool
  | [] => active.any (·.fits ⟨before, none⟩)
  | c :: cs =>
    let place : Place := ⟨before, some c⟩
    active.any (·.fits place)
      || search p (some c) (p :: active.flatMap (·.rests place c)).eraseDups cs

def occursIn (p : Pattern) (text : String) : Bool :=
  p.search none [p] text.toList

def times (p : Pattern) (least : Nat) (most : Option Nat) : Pattern :=
  let more := match most with
    | none => many p
    | some most => Nat.repeat (fun q => either empty (p.andThen q)) (most - least) empty
  Nat.repeat p.andThen least more

def anyCase : Pattern → Pattern
  | one set => one set.anyCase
  | seq p q => seq p.anyCase q.anyCase
  | either p q => either p.anyCase q.anyCase
  | many p => many p.anyCase
  | p => p

/-! ### Reading patterns -/

inductive Symbol where
  | item (p : Pattern)
  | times (least : Nat) (most : Option Nat)
  | bar
  | opening
  | closing
  deriving Repr, DecidableEq

def maxTimes : Nat := 1000

def number? (cs : List Char) : Option (Nat × List Char) :=
  let digits := cs.takeWhile Char.isDigit
  let n := digits.foldl (fun n c => n * 10 + (c.toNat - '0'.toNat)) 0
  if digits.isEmpty || n > maxTimes then none else some (n, cs.dropWhile Char.isDigit)

def repetition? (cs : List Char) : Option (Symbol × List Char) :=
  match number? cs with
  | none =>
    match cs with
    | ',' :: cs =>
      match number? cs with
      | some (most, '}' :: cs) => some (.times 0 (some most), cs)
      | _ => none
    | _ => none
  | some (n, '}' :: cs) => some (.times n (some n), cs)
  | some (n, ',' :: '}' :: cs) => some (.times n none, cs)
  | some (least, ',' :: cs) =>
    match number? cs with
    | some (most, '}' :: cs) => if least ≤ most then some (.times least (some most), cs) else none
    | _ => none
  | _ => none

def escapedSet? : Char → Option CharSet
  | 'd' => some .digit
  | 'D' => some (.other .digit)
  | 'w' => some .word
  | 'W' => some (.other .word)
  | 's' => some .blank
  | 'S' => some (.other .blank)
  | _ => none

def escapedChar? : Char → Option Char
  | 'n' => some '\n'
  | 'r' => some '\r'
  | 't' => some '\t'
  | 'a' => some '\x07'
  | 'f' => some '\x0c'
  | 'v' => some '\x0b'
  | c => if c.isAlphanum || c == '<' || c == '>' || 0x80 ≤ c.toNat then none else some c

def member? : List Char → Option (Char × List Char)
  | '\\' :: c :: cs => (escapedChar? c).map (·, cs)
  | '\\' :: [] | [] => none
  | c :: cs => some (c, cs)

def isJoint : List Char → Bool
  | '&' :: '&' :: _ | '-' :: '-' :: _ | '~' :: '~' :: _ => true
  | _ => false

-- Read the rest of a set in brackets; `set` are the members so far. Each member takes a character,
-- so the length of the text is fuel enough.
def members? (set : Option CharSet) : Nat → List Char → Option (CharSet × List Char)
  | 0, _ => none
  | n + 1, cs =>
    let join (a : CharSet) : CharSet := set.elim a (.union · a)
    match set, cs with
    | some set, ']' :: cs => some (set, cs)
    | _, '[' :: _ => none
    | _, '\\' :: c :: rest =>
      match escapedSet? c with
      | some a => members? (join a) n rest
      | none => range join n cs
    | _, cs => if isJoint cs then none else range join n cs
where
  range (join : CharSet → CharSet) (n : Nat) (cs : List Char) : Option (CharSet × List Char) := do
    let (low, rest) ← member? cs
    match rest with
    | '-' :: ']' :: _ => members? (join (.single low)) n rest
    | '-' :: behind =>
      if isJoint rest then none
      else
        let (high, rest) ← member? behind
        if low ≤ high then members? (join (.between low high)) n rest else none
    | _ => members? (join (.single low)) n rest

-- A question mark behind a repetition makes no difference to what matches.
def dropLazy : List Char → List Char
  | '?' :: cs => cs
  | cs => cs

def symbol? : List Char → Option (Symbol × List Char)
  | '.' :: cs => some (.item (one (.other (.single '\n'))), cs)
  | '^' :: cs => some (.item start, cs)
  | '$' :: cs => some (.item finish, cs)
  | '|' :: cs => some (.bar, cs)
  | '(' :: '?' :: ':' :: cs => some (.opening, cs)
  | '(' :: '?' :: _ => none
  | '(' :: cs => some (.opening, cs)
  | ')' :: cs => some (.closing, cs)
  | '*' :: cs => some (.times 0 none, dropLazy cs)
  | '+' :: cs => some (.times 1 none, dropLazy cs)
  | '?' :: cs => some (.times 0 (some 1), dropLazy cs)
  | '{' :: cs => (repetition? cs).map fun (s, cs) => (s, dropLazy cs)
  | '[' :: '^' :: cs => bracketed .other cs
  | '[' :: cs => bracketed id cs
  | '\\' :: 'b' :: cs => some (.item (edge true), cs)
  | '\\' :: 'B' :: cs => some (.item (edge false), cs)
  | '\\' :: 'A' :: cs => some (.item start, cs)
  | '\\' :: 'z' :: cs => some (.item finish, cs)
  | '\\' :: c :: cs =>
    let set := (escapedSet? c).or ((escapedChar? c).map .single)
    set.map fun a => (.item (one a), cs)
  | '\\' :: [] | [] => none
  | c :: cs => some (.item (one (.single c)), cs)
where
  bracketed (f : CharSet → CharSet) (cs : List Char) : Option (Symbol × List Char) :=
    (members? none (cs.length + 1) cs).map fun (set, cs) => (.item (one (f set)), cs)

def symbols? : Nat → List Char → Option (List Symbol)
  | _, [] => some []
  | 0, _ => none
  | n + 1, cs => do
    let (s, cs) ← symbol? cs
    return s :: (← symbols? n cs)

structure Part where
  earlier : Option Pattern := none
  items : List Pattern := []

def Part.pattern (part : Part) : Pattern :=
  let last := part.items.foldl (fun q p => p.andThen q) empty
  part.earlier.elim last (either · last)

def ofSymbols? (outer : List Part) (part : Part) : List Symbol → Option Pattern
  | [] => if outer.isEmpty then some part.pattern else none
  | .item p :: rest => ofSymbols? outer { part with items := p :: part.items } rest
  | .times least most :: rest =>
    match part.items with
    | [] => none
    | p :: items => ofSymbols? outer { part with items := p.times least most :: items } rest
  | .bar :: rest => ofSymbols? outer { earlier := some part.pattern } rest
  | .opening :: rest => ofSymbols? (part :: outer) {} rest
  | .closing :: rest =>
    match outer with
    | [] => none
    | around :: outer =>
      ofSymbols? outer { around with items := part.pattern :: around.items } rest

def parse? (s : String) : Option Pattern :=
  let read (cs : List Char) : Option Pattern := do ofSymbols? [] {} (← symbols? cs.length cs)
  match s.toList with
  | '(' :: '?' :: 'i' :: ')' :: cs => (read cs).map anyCase
  | cs => read cs

end Pattern

end FtpControl.Text
