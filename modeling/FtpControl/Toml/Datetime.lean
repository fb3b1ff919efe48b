/-!
This module contains dates and times as TOML writes them.
-/

namespace FtpControl.Toml

structure Date where
  year : Nat
  month : Nat
  day : Nat
  deriving Repr, DecidableEq

structure Time where
  hour : Nat
  minute : Nat
  second : Nat
  nanos : Nat
  deriving Repr, DecidableEq

inductive Offset where
  | utc
  | custom (west : Bool) (hours minutes : Nat)
  deriving Repr, DecidableEq

structure Datetime where
  date : Option Date
  time : Option Time
  offset : Option Offset
  deriving Repr, DecidableEq

namespace Datetime

def pad (width n : Nat) : String :=
  let digits := toString n
  String.ofList (List.replicate (width - digits.length) '0') ++ digits

def Date.text (d : Date) : String :=
  s!"{pad 4 d.year}-{pad 2 d.month}-{pad 2 d.day}"

def fraction (nanos : Nat) : String :=
  if nanos = 0 then ""
  else "." ++ String.ofList ((pad 9 nanos).toList.reverse.dropWhile (· == '0')).reverse

def Time.text (t : Time) : String :=
  s!"{pad 2 t.hour}:{pad 2 t.minute}:{pad 2 t.second}{fraction t.nanos}"

def Offset.text : Offset → String
  | .utc => "Z"
  | .custom west hours minutes =>
    let sign := if west && hours != 0 then "-" else "+"
    s!"{sign}{pad 2 hours}:{pad 2 minutes}"

def text (d : Datetime) : String :=
  let between := if d.date.isSome && d.time.isSome then "T" else ""
  d.date.elim "" Date.text ++ between ++ d.time.elim "" Time.text ++ d.offset.elim "" Offset.text

def digit? (c : Char) : Option Nat :=
  if c.isDigit then some (c.toNat - '0'.toNat) else none

def two? (a b : Char) : Option Nat := do
  return (← digit? a) * 10 + (← digit? b)

def date? : List Char → Option (Date × List Char)
  | a :: b :: c :: d :: '-' :: e :: f :: '-' :: g :: h :: cs => do
    let date : Date := ⟨(← two? a b) * 100 + (← two? c d), ← two? e f, ← two? g h⟩
    guard (1 ≤ date.month ∧ date.month ≤ 12 ∧ 1 ≤ date.day ∧ date.day ≤ 31)
    return (date, cs)
  | _ => none

/-- A fraction of a second, if there is one. Digits behind the ninth do not count. -/
def nanos? : List Char → Option (Nat × List Char)
  | '.' :: cs =>
    match cs.takeWhile Char.isDigit with
    | [] => none
    | digits =>
      let nine := (digits ++ List.replicate 9 '0').take 9
      some (nine.foldl (fun n c => n * 10 + (c.toNat - '0'.toNat)) 0, cs.dropWhile Char.isDigit)
  | cs => some (0, cs)

def time? : List Char → Option (Time × List Char)
  | a :: b :: ':' :: c :: d :: ':' :: e :: f :: cs => do
    let (nanos, cs) ← nanos? cs
    let time := ⟨← two? a b, ← two? c d, ← two? e f, nanos⟩
    if time.hour ≤ 24 ∧ time.minute ≤ 59 ∧ time.second ≤ 59 then some (time, cs) else none
  | _ => none

def offset? : List Char → Option (Option Offset)
  | [] => some none
  | [c] => if c = 'Z' ∨ c = 'z' then some (some .utc) else none
  | [sign, a, b, ':', c, d] => do
    guard (sign = '+' ∨ sign = '-')
    return some (.custom (sign = '-') (← two? a b) (← two? c d))
  | _ => none

def parse? (cs : List Char) : Option Datetime :=
  if cs[2]? = some ':' then
    match time? cs with
    | some (time, []) => some ⟨none, some time, none⟩
    | _ => none
  else do
    let (date, cs) ← date? cs
    match cs with
    | [] => return ⟨some date, none, none⟩
    | c :: cs =>
      guard (c = 'T' ∨ c = 't' ∨ c = ' ')
      let (time, cs) ← time? cs
      return ⟨some date, some time, ← offset? cs⟩

end Datetime

end FtpControl.Toml
