import FtpControl.Toml.Token
import FtpControl.Toml.Value

/-!
This module contains the numbers of TOML documents. A number can span several tokens, because a
point and a plus sign are tokens of their own.
-/

namespace FtpControl.Toml.Number

structure Run where
  isFirst : Bool := true
  zeroFirst : Bool := false
  underscore : Bool := false

/--
The digits at the start of a word, without the single underscores between them, and what comes
behind them. A zero may stand in front of other digits only if `zeros` says so.
-/
def digits? (base : Nat) (zeros : Bool) (cs : List Char) : Option (List Nat × List Char) :=
  go {} [] cs
where
  stop (run : Run) (read : List Nat) (cs : List Char) : Option (List Nat × List Char) :=
    if run.isFirst || run.underscore then none else some (read.reverse, cs)
  go (run : Run) (read : List Nat) : List Char → Option (List Nat × List Char)
    | [] => stop run read []
    | c :: cs =>
      match Token.digit? base c with
      | some n =>
        if run.isFirst && c == '0' then
          go { isFirst := false, zeroFirst := true } (n :: read) cs
        else if !run.isFirst && run.zeroFirst && !zeros then none
        else go { isFirst := false, zeroFirst := run.zeroFirst } (n :: read) cs
      | none =>
        if c = '_' then
          if run.isFirst then none
          else if run.underscore then stop run read (c :: cs)
          else go { run with underscore := true } read cs
        else stop run read (c :: cs)

def ofDigits (base : Nat) (digits : List Nat) : Nat :=
  digits.foldl (fun n d => n * base + d) 0

def splitSign : List Char → Bool × List Char
  | '-' :: cs => (true, cs)
  | cs => (false, cs)

-- An integer of 64 bits. A sign and the ban on leading zeros go with base ten only.
def integer? (base : Nat) (cs : List Char) : Option Value := do
  let (negative, cs) := if base = 10 then splitSign cs else (false, cs)
  match ← digits? base (base ≠ 10) cs with
  | (digits, []) =>
    let n : Int := ofDigits base digits
    let n := if negative then -n else n
    if -0x8000000000000000 ≤ n ∧ n < 0x8000000000000000 then some (.integer n) else none
  | _ => none

def exponent? (cs : List Char) (ts : List Token) : Option (Int × List Token) := do
  let whole (digits : Option (List Nat × List Char)) : Option Nat := do
    match ← digits with
    | (digits, []) => some (ofDigits 10 digits)
    | _ => none
  match cs with
  | [] =>
    let ts := match ts with
      | .plus :: ts => ts
      | ts => ts
    match ts with
    | .bare word :: ts => return (← whole (digits? 10 true word.toList), ts)
    | _ => none
  | cs =>
    let (negative, cs) := splitSign cs
    let n ← whole (digits? 10 true cs)
    return (if negative then -n else n, ts)

def float? (word : List Char) (after : Option (List Char)) (ts : List Token) :
    Option (Value × List Token) := do
  let (negative, word) := splitSign word
  let (whole, rest) ← digits? 10 false word
  let (fraction, rest) ← match after with
    | none => some ([], rest)
    | some after => if rest = [] then digits? 10 true after else none
  let (exponent, ts) ← match rest with
    | [] => some (0, ts)
    | c :: cs => if c = 'e' ∨ c = 'E' then exponent? cs ts else none
  let digits := ofDigits 10 (whole ++ fraction)
  match Binary64.ofDecimal negative digits (exponent - fraction.length) with
  | .infinite _ => none
  | x => some (.float x, ts)

def special? : List Char → Option Binary64
  | ['i', 'n', 'f'] => some (.infinite false)
  | ['-', 'i', 'n', 'f'] => some (.infinite true)
  | ['n', 'a', 'n'] => some .nan
  | ['-', 'n', 'a', 'n'] => some .nan
  | _ => none

def parse? (word : List Char) (ts : List Token) : Option (Value × List Token) :=
  match word with
  | '0' :: 'x' :: cs => (integer? 16 cs).map (·, ts)
  | '0' :: 'o' :: cs => (integer? 8 cs).map (·, ts)
  | '0' :: 'b' :: cs => (integer? 2 cs).map (·, ts)
  | word =>
    if word.contains 'e' || word.contains 'E' then float? word none ts
    else
      match ts with
      | .dot :: .bare after :: ts => float? word (some after.toList) ts
      | .dot :: _ => none
      | ts =>
        match special? word with
        | some x => some (.float x, ts)
        | none => (integer? 10 word).map (·, ts)

end FtpControl.Toml.Number
