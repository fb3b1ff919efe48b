import FtpControl.Binary64

/-!
This module contains the values of TOML documents.
-/

namespace FtpControl.Toml

/-- How a table came about. It decides which later lines may add to it. -/
inductive Origin where
  | inline
  | dotted
  -- On the way of a longer header; a header of its own may still come.
  | implied
  | headed
  deriving Repr, DecidableEq

inductive Value where
  | string (s : String)
  | integer (n : Int)
  | float (x : Binary64)
  | boolean (b : Bool)
  -- A date, a time or both: a text that may be wrong as long as it is only written.
  | datetime (text : String)
  | array (grows : Bool) (items : List Value)
  | table (origin : Origin) (entries : List (String × Value))
  deriving Repr

abbrev Table := List (String × Value)

namespace Table

def replace (t : Table) (key : String) (v : Value) : Table :=
  t.map fun entry => if entry.1 = key then (key, v) else entry

def add? (t : Table) (key : String) (v : Value) : Option Table :=
  match t.lookup key with
  | some _ => none
  | none => some (t ++ [(key, v)])

def union? (t : Table) (new : Table) : Option Table :=
  new.foldlM (fun t (key, v) => add? t key v) t

end Table

end FtpControl.Toml
