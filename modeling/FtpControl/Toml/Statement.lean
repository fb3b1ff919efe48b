import FtpControl.Toml.Number

/-!
This module contains the lines of TOML documents: headers, and keys with their values.
-/

namespace FtpControl.Toml

abbrev Key := List String

inductive Statement where
  | header (key : Key) (grows : Bool)
  | entry (key : Key) (value : Value)
  deriving Repr

namespace Table

-- Write a value under a dotted key. On its way are only tables that such keys have made, and
-- tables that are not there yet. Whether the last part of the key is there already does not matter
-- here.
def addDotted? (t : Table) : Key → Value → Option Table
  | [], _ => none
  | [key], v => some (t ++ [(key, v)])
  | key :: rest, v =>
    match t.lookup key with
    | none => do return t ++ [(key, .table .dotted (← addDotted? [] rest v))]
    | some (.table .dotted sub) => do
      return t.replace key (.table .dotted (← addDotted? sub rest v))
    | some _ => none

end Table

namespace Statement

def skipBlanks : List Token → List Token
  | .blank _ :: ts => skipBlanks ts
  | ts => ts

def skipLines : List Token → Option (List Token)
  | .blank _ :: ts => skipLines ts
  | .newline :: ts => skipLines ts
  | .comment :: .newline :: ts => skipLines ts
  | [.comment] => some []
  | .comment :: _ => none
  | ts => some ts

def lineEnd (ts : List Token) : Option (List Token) :=
  match skipBlanks ts with
  | [] => some []
  | .newline :: ts => some ts
  | [.comment] => some []
  | .comment :: .newline :: ts => some ts
  | _ => none

def keyPart : List Token → Option (String × List Token)
  | .bare word :: ts => some (word, ts)
  | .quoted s false :: ts => some (s, ts)
  | _ => none

def key (ts : List Token) : Option (Key × List Token) :=
  go ts.length ts
where
  go : Nat → List Token → Option (Key × List Token)
    | 0, _ => none
    | n + 1, ts => do
      let (part, ts) ← keyPart ts
      match skipBlanks ts with
      | .dot :: ts =>
        let (rest, ts) ← go n (skipBlanks ts)
        return (part :: rest, ts)
      | ts => return ([part], ts)

-- What is written for a date or a time, whose first word has been read. Its parts are not checked.
def datetimeText (word : String) (ts : List Token) : Option (String × List Token) :=
  let (text, ts) := match ts with
    | .blank " " :: .bare hour :: ts => (word ++ " " ++ hour, ts)
    | ts => (word, ts)
  match ts with
  | .colon :: .bare minute :: .colon :: .bare second :: ts =>
    let text := text ++ ":" ++ minute ++ ":" ++ second
    let part (mark : Token) (sign : String) : String × List Token → Option (String × List Token)
      | (text, m :: .bare word :: ts) =>
        if m = mark then some (text ++ sign ++ word, ts) else some (text, m :: .bare word :: ts)
      | (text, m :: ts) => if m = mark then none else some (text, m :: ts)
      | (text, []) => some (text, [])
    part .dot "." (text, ts) >>= part .plus "+" >>= part .colon ":"
  | .colon :: _ => none
  | ts => some (text, ts)

def datetime (word : String) (ts : List Token) : Option (Value × List Token) := do
  let (text, ts) ← datetimeText word ts
  return (.datetime text, ts)

def startsDate (word : List Char) : Bool :=
  let hasExponent (e : Char) : Bool := (word.zip (word.drop 1)).contains (e, '-')
  word.contains 'T' || word.contains 't'
    || ((word.drop 1).contains '-' && !hasExponent 'e' && !hasExponent 'E')

def bareValue (word : String) (ts : List Token) : Option (Value × List Token) :=
  let cs := word.toList
  if word = "true" then some (.boolean true, ts)
  else if word = "false" then some (.boolean false, ts)
  else if word = "inf" ∨ word = "nan" ∨ cs.head?.any (fun c => c == '-' || c.isDigit) then
    if startsDate cs then datetime word ts
    else
      match ts with
      | .colon :: _ => datetime word ts
      | ts => Number.parse? cs ts
  else none

mutual

/-- A value. The fuel bounds the nesting and the length of lists; the number of tokens is enough. -/
def value : Nat → List Token → Option (Value × List Token)
  | 0, _ => none
  | n + 1, ts =>
    match ts with
    | .quoted s _ :: ts => some (.string s, ts)
    | .bare word :: ts => bareValue word ts
    | .plus :: .bare word :: ts => Number.parse? word.toList ts
    | .openBrace :: ts =>
      match skipBlanks ts with
      | .closeBrace :: ts => some (.table .inline [], ts)
      | ts => entries n [] ts
    | .openBracket :: ts => items n [] ts
    | _ => none

def entries : Nat → Table → List Token → Option (Value × List Token)
  | 0, _, _ => none
  | n + 1, read, ts => do
    let (path, ts) ← key ts
    match skipBlanks ts with
    | .equals :: ts =>
      let (v, ts) ← value n (skipBlanks ts)
      let read ← read.addDotted? path v
      match skipBlanks ts with
      | .closeBrace :: ts => return (.table .inline read, ts)
      | .comma :: ts => entries n read (skipBlanks ts)
      | _ => none
    | _ => none

def items : Nat → List Value → List Token → Option (Value × List Token)
  | 0, _, _ => none
  | n + 1, read, ts => do
    match ← skipLines ts with
    | .closeBracket :: ts => return (.array false read.reverse, ts)
    | ts =>
      let (v, ts) ← value n ts
      match ← skipLines ts with
      | .comma :: ts => items n (v :: read) ts
      | .closeBracket :: ts => return (.array false (v :: read).reverse, ts)
      | _ => none

end

def headerKey (grows : Bool) (ts : List Token) : Option (Key × List Token) := do
  let (path, ts) ← key (skipBlanks ts)
  match grows, ts with
  | false, .closeBracket :: ts => return (path, ts)
  | true, .closeBracket :: .closeBracket :: ts => return (path, ts)
  | _, _ => none

def line (ts : List Token) : Option (Statement × List Token) := do
  match ts with
  | .openBracket :: .openBracket :: ts =>
    let (path, ts) ← headerKey true ts
    return (.header path true, ← lineEnd ts)
  | .openBracket :: ts =>
    let (path, ts) ← headerKey false ts
    return (.header path false, ← lineEnd ts)
  | ts =>
    let (path, ts) ← key ts
    match skipBlanks ts with
    | .equals :: ts =>
      let (v, ts) ← value ts.length (skipBlanks ts)
      return (.entry path v, ← lineEnd ts)
    | _ => none

def parse? (ts : List Token) : Option (List Statement) :=
  go (ts.length + 1) ts
where
  go : Nat → List Token → Option (List Statement)
    | 0, _ => none
    | n + 1, ts => do
      match ← skipLines ts with
      | [] => return []
      | ts =>
        let (statement, ts) ← line ts
        return statement :: (← go n ts)

end Statement

end FtpControl.Toml
