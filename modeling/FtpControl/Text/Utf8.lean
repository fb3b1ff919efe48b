/-!
This module contains the decoding of bytes that need not be valid UTF-8. Decoding goes byte by byte
through a small automaton, which makes it total and local: what a byte does depends only on the
character that is under way. Every maximal ill-formed piece becomes one replacement character.
-/

namespace FtpControl.Text.Utf8

def replacement : Char := '\uFFFD'

structure Range where
  low : UInt8
  high : UInt8
  not_ascii : 0x80 ≤ low := by decide
  deriving Repr, DecidableEq

namespace Range

def contains (r : Range) (b : UInt8) : Bool :=
  r.low ≤ b && b ≤ r.high

def any : Range where
  low := 0x80
  high := 0xBF

theorem contains_eq_false_of_ascii {r : Range} {b : UInt8} (h : b < 0x80) :
    r.contains b = false := by
  have := r.not_ascii
  simp only [contains, Bool.and_eq_false_iff, decide_eq_false_iff_not, UInt8.le_iff_toNat_le,
    UInt8.lt_iff_toNat_lt] at *
  omega

end Range

inductive State where
  | start
  -- The bytes so far give `bits`; a byte in `next` comes now and one in each range of `later`.
  | inside (bits : Nat) (next : Range) (later : List Range)
  deriving Repr, DecidableEq

/--
What a byte means between two characters. The ranges of the second byte exclude overlong forms,
surrogates and numbers above U+10FFFF.
-/
def lead (b : UInt8) : State × List Char :=
  let n := b.toNat
  if n < 0x80 then (.start, [Char.ofNat n])
  else if 0xC2 ≤ n && n ≤ 0xDF then (.inside (n % 0x20) .any [], [])
  else if n == 0xE0 then (.inside 0 { low := 0xA0, high := 0xBF } [.any], [])
  else if n == 0xED then (.inside 0xD { low := 0x80, high := 0x9F } [.any], [])
  else if 0xE1 ≤ n && n ≤ 0xEF then (.inside (n % 0x10) .any [.any], [])
  else if n == 0xF0 then (.inside 0 { low := 0x90, high := 0xBF } [.any, .any], [])
  else if n == 0xF4 then (.inside 4 { low := 0x80, high := 0x8F } [.any, .any], [])
  else if 0xF1 ≤ n && n ≤ 0xF3 then (.inside (n % 0x08) .any [.any, .any], [])
  else (.start, [replacement])

def step : State → UInt8 → State × List Char
  | .start, b => lead b
  | .inside bits next later, b =>
    if next.contains b then
      let bits := bits * 0x40 + b.toNat % 0x40
      match later with
      | [] => (.start, [Char.ofNat bits])
      | next :: later => (.inside bits next later, [])
    else
      let (state, cs) := lead b
      (state, replacement :: cs)

def finish : State → List Char
  | .start => []
  | .inside .. => [replacement]

def decodeFrom (state : State) : List UInt8 → List Char
  | [] => finish state
  | b :: bytes => (step state b).2 ++ decodeFrom (step state b).1 bytes

def decode (bytes : List UInt8) : List Char :=
  decodeFrom .start bytes

def decodeString (bytes : List UInt8) : String :=
  String.ofList (decode bytes)

-- The text of `bytes`, if they are UTF-8: encoding it gives them back.
def decode? (bytes : List UInt8) : Option String :=
  let cs := decode bytes
  if cs.flatMap String.utf8EncodeChar = bytes then some (String.ofList cs) else none

def encodeString (s : String) : List UInt8 :=
  s.toList.flatMap String.utf8EncodeChar

theorem step_lf (state : State) : step state 0x0A = (.start, finish state ++ ['\n']) := by
  cases state with
  | start => rfl
  | inside bits next later =>
    simp only [step, Range.contains_eq_false_of_ascii (show (0x0A : UInt8) < 0x80 by decide)]
    rfl

end FtpControl.Text.Utf8
