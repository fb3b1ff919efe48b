/-!
This module contains spans of time and their text.
-/

namespace FtpControl

structure Duration where
  nanos : Nat
  deriving Repr, DecidableEq

namespace Duration

def ofSeconds (n : Nat) : Duration :=
  ⟨n * 1000000000⟩

def ofMillis (n : Nat) : Duration :=
  ⟨n * 1000000⟩

def maxSeconds : Nat := 0xFFFFFFFFFFFFFFFF

/-- Seconds and nanoseconds together, unless they are too many. The latter may exceed a second. -/
def ofParts? (seconds nanos : Nat) : Option Duration :=
  if seconds + nanos / 1000000000 ≤ maxSeconds then some ⟨seconds * 1000000000 + nanos⟩ else none

def fraction (n scale : Nat) : String :=
  if n = 0 then ""
  else
    let digits := ((toString (scale + n)).toList.drop 1).reverse.dropWhile (· == '0')
    "." ++ String.ofList digits.reverse

def inUnit (d : Duration) (scale : Nat) (unit : String) : String :=
  s!"{d.nanos / scale}{fraction (d.nanos % scale) scale}{unit}"

def text (d : Duration) : String :=
  if 1000000000 ≤ d.nanos then d.inUnit 1000000000 "s"
  else if 1000000 ≤ d.nanos then d.inUnit 1000000 "ms"
  else if 1000 ≤ d.nanos then d.inUnit 1000 "µs"
  else d.inUnit 1 "ns"

end Duration

end FtpControl
