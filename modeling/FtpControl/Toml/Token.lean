/-!
This module contains the tokens of TOML documents. Text is read after every CR LF has been replaced
by LF.
-/

namespace FtpControl.Toml

inductive Token where
  | blank (s : String)
  | newline
  | comment
  | equals
  | dot
  | comma
  | colon
  | plus
  | openBrace
  | closeBrace
  | openBracket
  | closeBracket
  | bare (word : String)
  | quoted (s : String) (multiline : Bool)
  deriving Repr, DecidableEq

namespace Token

def isBare (c : Char) : Bool :=
  c.isAlphanum || c == '-' || c == '_'

def isBlank (c : Char) : Bool :=
  c == ' ' || c == '\t'

def isText (c : Char) : Bool :=
  c == '\t' || (0x20 ≤ c.toNat && c.toNat != 0x7F)

def isComment (c : Char) : Bool :=
  c == '\t' || 0x20 ≤ c.toNat

def digit? (base : Nat) (c : Char) : Option Nat :=
  let n :=
    if '0' ≤ c ∧ c ≤ '9' then c.toNat - '0'.toNat
    else if 'a' ≤ c ∧ c ≤ 'f' then c.toNat - 'a'.toNat + 10
    else if 'A' ≤ c ∧ c ≤ 'F' then c.toNat - 'A'.toNat + 10
    else base
  if n < base then some n else none

def unicode? (cs : List Char) : Option Char := do
  let n ← cs.foldlM (fun n c => (digit? 16 c).map (n * 16 + ·)) 0
  if h : n.isValidChar then some (Char.ofNatAux n h) else none

def escape? : Char → Option Char
  | '"' => some '"'
  | '\\' => some '\\'
  | 'b' => some '\x08'
  | 'f' => some '\x0c'
  | 'n' => some '\n'
  | 'r' => some '\r'
  | 't' => some '\t'
  | _ => none

inductive Mode where
  | text
  | lineEnd
  | margin
  deriving Repr, DecidableEq

/-- The end of a text in triple quotes: up to two more quotes belong to the text. -/
def closeTriple (quote : Char) (read : List Char) : List Char → String × List Char
  | c :: d :: cs =>
    if c = quote ∧ d = quote then (String.ofList (d :: c :: read).reverse, cs)
    else if c = quote then (String.ofList (c :: read).reverse, d :: cs)
    else (String.ofList read.reverse, c :: d :: cs)
  | [c] =>
    if c = quote then (String.ofList (c :: read).reverse, []) else (String.ofList read.reverse, [c])
  | [] => (String.ofList read.reverse, [])

def literal (read : List Char) : List Char → Option (String × List Char)
  | [] => none
  | c :: cs =>
    if c = '\'' then some (String.ofList read.reverse, cs)
    else if isText c then literal (c :: read) cs
    else none

def tripleLiteral (read : List Char) : List Char → Option (String × List Char)
  | '\'' :: '\'' :: '\'' :: cs => some (closeTriple '\'' read cs)
  | c :: cs => if c = '\n' ∨ isText c then tripleLiteral (c :: read) cs else none
  | [] => none

def basic (read : List Char) : List Char → Option (String × List Char)
  | [] => none
  | '"' :: cs => some (String.ofList read.reverse, cs)
  | '\\' :: 'u' :: a :: b :: c :: d :: cs =>
    match unicode? [a, b, c, d] with
    | some x => basic (x :: read) cs
    | none => none
  | '\\' :: 'U' :: a :: b :: c :: d :: e :: f :: g :: h :: cs =>
    match unicode? [a, b, c, d, e, f, g, h] with
    | some x => basic (x :: read) cs
    | none => none
  | '\\' :: c :: cs =>
    match escape? c with
    | some x => basic (x :: read) cs
    | none => none
  | c :: cs => if isText c && c != '\\' then basic (c :: read) cs else none

def tripleBasic (mode : Mode) (read : List Char) : List Char → Option (String × List Char)
  | [] => none
  | c :: cs =>
    match mode with
    | .lineEnd =>
      if isBlank c then tripleBasic .lineEnd read cs
      else if c = '\n' then tripleBasic .margin read cs
      else none
    | .margin =>
      if isBlank c ∨ c = '\n' then tripleBasic .margin read cs else chars read c cs
    | .text => chars read c cs
where
  chars (read : List Char) (c : Char) (cs : List Char) : Option (String × List Char) :=
    match c, cs with
    | '"', '"' :: '"' :: cs => some (closeTriple '"' read cs)
    | '\\', '\n' :: cs => tripleBasic .margin read cs
    | '\\', 'u' :: a :: b :: c :: d :: cs =>
      match unicode? [a, b, c, d] with
      | some x => tripleBasic .text (x :: read) cs
      | none => none
    | '\\', 'U' :: a :: b :: c :: d :: e :: f :: g :: h :: cs =>
      match unicode? [a, b, c, d, e, f, g, h] with
      | some x => tripleBasic .text (x :: read) cs
      | none => none
    | '\\', c :: cs =>
      if isBlank c then tripleBasic .lineEnd read cs
      else
        match escape? c with
        | some x => tripleBasic .text (x :: read) cs
        | none => none
    | c, cs => if (c = '\n' ∨ isText c) ∧ c ≠ '\\' then tripleBasic .text (c :: read) cs else none

def dropNewline : List Char → List Char
  | '\n' :: cs => cs
  | cs => cs

def next : List Char → Option (Token × List Char)
  | [] => none
  | '\n' :: cs => some (newline, cs)
  | '#' :: cs => some (comment, cs.dropWhile isComment)
  | '=' :: cs => some (equals, cs)
  | '.' :: cs => some (dot, cs)
  | ',' :: cs => some (comma, cs)
  | ':' :: cs => some (colon, cs)
  | '+' :: cs => some (plus, cs)
  | '{' :: cs => some (openBrace, cs)
  | '}' :: cs => some (closeBrace, cs)
  | '[' :: cs => some (openBracket, cs)
  | ']' :: cs => some (closeBracket, cs)
  | '\'' :: '\'' :: '\'' :: cs =>
    (tripleLiteral [] (dropNewline cs)).map fun (s, cs) => (quoted s true, cs)
  | '\'' :: cs => (literal [] cs).map fun (s, cs) => (quoted s false, cs)
  | '"' :: '"' :: '"' :: cs =>
    (tripleBasic .text [] (dropNewline cs)).map fun (s, cs) => (quoted s true, cs)
  | '"' :: cs => (basic [] cs).map fun (s, cs) => (quoted s false, cs)
  | c :: cs =>
    if isBlank c then
      some (blank (String.ofList (c :: cs.takeWhile isBlank)), cs.dropWhile isBlank)
    else if isBare c then
      some (bare (String.ofList (c :: cs.takeWhile isBare)), cs.dropWhile isBare)
    else none

def scan (cs : List Char) : Option (List Token) :=
  go cs.length cs
where
  go : Nat → List Char → Option (List Token)
    | _, [] => some []
    | 0, _ => none
    | n + 1, cs =>
      match next cs with
      | some (token, cs) => (go n cs).map (token :: ·)
      | none => none

end Token

def foldLineEnds : List Char → List Char
  | '\r' :: '\n' :: cs => '\n' :: foldLineEnds cs
  | c :: cs => c :: foldLineEnds cs
  | [] => []

end FtpControl.Toml
