import FtpControl.Accounts
import FtpControl.Config.Setting

/-!
This module contains the conversion of settings to the types that a server needs, and the ways in
which a configuration can be wrong.
-/

namespace FtpControl.Config

inductive Found where
  | integer (n : Int)
  | string (s : String)
  | sequence
  | map
  | nothing
  deriving Repr, DecidableEq

def Found.text : Found → String
  | integer n => s!"integer 64 bit `{n}`"
  | string s => s!"string {Text.Quoted.quote s}"
  | sequence => "sequence"
  | map => "map"
  | nothing => "unit value"

inductive Wanted where
  | integer
  | unsigned
  | string
  deriving Repr, DecidableEq

def Wanted.text : Wanted → String
  | integer => "an integer"
  | unsigned => "an unsigned 64 bit or less integer"
  | string => "a string"

structure Mismatch where
  found : Found
  wanted : Wanted
  source : Option Source
  deriving Repr, DecidableEq

inductive Error where
  | fileParse
  | type (key : String) (mismatch : Mismatch)
  | noRoom
  | message (text : String)
  deriving Repr, DecidableEq

def Error.text : Error → String
  | fileParse => "the file is not a TOML document"
  | type key m =>
    let origin := m.source.elim "" fun source => s!" in {source.text}"
    s!"invalid type: {m.found.text}, expected {m.wanted.text} for key `{key}`{origin}"
  | noRoom => "there is no room for an array"
  | message text => text

def maxNumber : Nat := 0xFFFFFFFFFFFFFFFF

def decimal? (s : String) : Option Nat :=
  let digits := match s.toList with
    | '+' :: cs => cs
    | cs => cs
  if !digits.isEmpty && digits.all Char.isDigit then
    let n := digits.foldl (fun n c => n * 10 + (c.toNat - '0'.toNat)) 0
    if n ≤ maxNumber then some n else none
  else none

def number? (s : String) : Option Nat :=
  let word := s.toLower
  if word = "true" ∨ word = "on" ∨ word = "yes" then some 1
  else if word = "false" ∨ word = "off" ∨ word = "no" then some 0
  else decimal? s

namespace Setting

/-- A number from 0 to `maxNumber`. Fractions are rounded, and greater ones become `maxNumber`. -/
def toNat : Setting → Except Mismatch Nat
  | nothing => .error ⟨.nothing, .integer, none⟩
  | array source _ => .error ⟨.sequence, .integer, source⟩
  | table source _ => .error ⟨.map, .integer, source⟩
  | scalar source x =>
    match x with
    | .boolean b => .ok b.toNat
    | .float x => .ok (x.toNat maxNumber)
    | .integer n => if 0 ≤ n then .ok n.toNat else .error ⟨.integer n, .unsigned, source⟩
    | .string s =>
      match number? s with
      | some n => .ok n
      | none => .error ⟨.string s, .integer, source⟩

def toText : Setting → Except Mismatch String
  | nothing => .error ⟨.nothing, .string, none⟩
  | array source _ => .error ⟨.sequence, .string, source⟩
  | table source _ => .error ⟨.map, .string, source⟩
  | scalar _ x =>
    .ok <| match x with
    | .boolean b => toString b
    | .float x => x.text
    | .integer n => toString n
    | .string s => s

def describe : Setting → String
  | nothing => "unit value"
  | array .. => "sequence"
  | table .. => "map"
  | scalar _ (.boolean b) => s!"boolean `{b}`"
  | scalar _ (.integer n) => s!"integer `{n}`"
  | scalar _ (.string s) => s!"string {Text.Quoted.quote s}"
  | scalar _ (.float x) =>
    let shown := x.text
    let isFinite := match x with
      | .finite .. => true
      | _ => false
    let point := if isFinite && !shown.toList.contains '.' then ".0" else ""
    s!"floating point `{shown}{point}`"

end Setting

def userKey (user : String) : String :=
  if user.isEmpty || user.toList.head? = some '[' then "users" ++ user else "users." ++ user

namespace Settings

def get (t : Settings) (key : String) (convert : Setting → Except Mismatch α) : Except Error α :=
  (convert ((t.lookup key).getD .nothing)).mapError (.type key)

def accounts (t : Settings) : Except Error Accounts :=
  match t.lookup "users" with
  | none => .ok {}
  | some (.table _ entries) => do
    let users ← entries.mapM fun (user, v) => do
      return (user, ← v.toText.mapError (.type (userKey user)))
    return .ofList users
  | some v => .error (.message s!"invalid type: {v.describe}, expected a map")

end Settings

end FtpControl.Config
