/-!
This module contains the floating-point numbers of 64 bits as far as configuration files need them:
the number nearest to a decimal, the natural number nearest to a number, and the shortest decimal
that stands for a number. All arithmetic is exact.
-/

namespace FtpControl

inductive Binary64 where
  | nan
  | infinite (negative : Bool)
  -- The number `significand · 2 ^ exponent`, with a significand below `2 ^ 53`.
  | finite (negative : Bool) (significand : Nat) (exponent : Int)
  deriving Repr, DecidableEq

namespace Binary64

def fullSignificand : Nat := 0x10000000000000

def minExponent : Int := -1074

def maxExponent : Int := 971

def roundHalfEven (p q : Nat) : Nat :=
  let r := 2 * (p % q)
  if r < q then p / q
  else if q < r then p / q + 1
  else p / q + p / q % 2

def roundHalfUp (p q : Nat) : Nat :=
  (2 * p + q) / (2 * q)

def scale (p q b : Nat) (e : Int) : Nat × Nat :=
  (p * Nat.pow b e.toNat, q * Nat.pow b (-e).toNat)

def ofFraction (negative : Bool) (p q : Nat) : Binary64 :=
  let guess : Int := (p.log2 : Int) - q.log2 - 52
  let (n, d) := scale p q 2 (-guess)
  let e := max minExponent (if n / d < fullSignificand then guess - 1 else guess)
  let (n, d) := scale p q 2 (-e)
  let m := roundHalfEven n d
  let (m, e) := if m = 2 * fullSignificand then (fullSignificand, e + 1) else (m, e)
  if maxExponent < e then infinite negative else finite negative m e

-- The number nearest to `digits · 10 ^ exponent`. Decimals far outside the range are settled by
-- the place of their first digit.
def ofDecimal (negative : Bool) (digits : Nat) (exponent : Int) : Binary64 :=
  let top := exponent + (toString digits).length
  if digits = 0 ∨ top < -400 then finite negative 0 minExponent
  else if 400 < top then infinite negative
  else
    let (p, q) := scale digits 1 10 exponent
    ofFraction negative p q

def toNat (limit : Nat) : Binary64 → Nat
  | nan => 0
  | infinite negative => if negative then 0 else limit
  | finite negative m e =>
    if negative then 0
    else
      let (p, q) := scale m 1 2 e
      min limit (roundHalfUp p q)

def firstPlace (p q : Nat) : Int :=
  let e : Int := ((toString p).length : Int) - (toString q).length
  let (n, d) := scale p q 10 (-e)
  if d ≤ n then e else e - 1

structure Decimal where
  digits : Nat
  place : Int
  deriving Repr, DecidableEq

-- What reads back as `m · 2 ^ e`, in quarters of `2 ^ e`: two ends, which count if `m` is even.
def neighbourhood (m : Nat) (e : Int) : Nat × Nat :=
  let low := if m = fullSignificand ∧ minExponent < e then 4 * m - 1 else 4 * m - 2
  (low, 4 * m + 2)

def onGrid? (m : Nat) (e place : Int) (ends : Nat × Nat) : Option Nat :=
  let inside (n : Nat) : Bool :=
    -- Compare `4 · n · 10 ^ place` with the ends times `2 ^ e`.
    let (x, d) := scale (4 * n) 1 10 place
    let (low, d') := scale ends.1 1 2 e
    let (high, _) := scale ends.2 1 2 e
    if m % 2 = 0 then low * d ≤ x * d' && x * d' ≤ high * d
    else low * d < x * d' && x * d' < high * d
  let (p, q) := scale m 1 2 e
  let (p, q) := scale p q 10 (-place)
  let below := p / q
  let above := below + 1
  let takeAbove : Bool := q ≤ 2 * (p % q)
  match inside below, inside above with
  | true, true => some (if takeAbove then above else below)
  | true, false => some below
  | false, true => some above
  | false, false => none

/--
The shortest decimal that reads back as `m · 2 ^ e`, and of those the nearest. The grids are tried
from the coarsest on, which is one place above the first digit.
-/
def shortest (m : Nat) (e : Int) : Decimal :=
  let (p, q) := scale m 1 2 e
  let first := firstPlace p q
  let ends := neighbourhood m e
  let candidate (n : Nat) : Option Decimal :=
    let place := first + 1 - n
    (onGrid? m e place ends).map (⟨·, place⟩)
  ((List.range 18).findSome? candidate).getD ⟨m, e⟩

def Decimal.text (d : Decimal) : String :=
  let digits := toString d.digits
  match d.place with
  | .ofNat n => digits ++ String.ofList (List.replicate n '0')
  | .negSucc n =>
    let padded := List.replicate (n + 2 - digits.length) '0' ++ digits.toList
    let whole := padded.length - (n + 1)
    String.ofList (padded.take whole) ++ "." ++ String.ofList (padded.drop whole)

def text : Binary64 → String
  | nan => "NaN"
  | infinite negative => if negative then "-inf" else "inf"
  | finite negative m e =>
    let sign := if negative then "-" else ""
    if m = 0 then sign ++ "0" else sign ++ (shortest m e).text

end Binary64

end FtpControl
