import FtpControl.Toml.Meaning
import FtpControl.Toml.Statement

/-!
This module contains whole TOML documents. The lines up to the next header are one section, and the
sections build the table of the document one after the other.
-/

namespace FtpControl.Toml

structure Section where
  key : Key := []
  grows : Bool := false
  entries : Table := []

namespace Section

def ofStatements? (s : Section) : List Statement → Option (List Section)
  | [] => some [s]
  | .header key grows :: rest => do return s :: (← ofStatements? { key, grows } rest)
  | .entry key v :: rest => do
    ofStatements? { s with entries := ← s.entries.addDotted? key v } rest

def value? (s : Section) : Option Value :=
  (Value.table .headed s.entries).meaning?

-- Add a key that a header names. It holds a table or a list, so it cannot be the first key of a
-- table if that would make it a date.
def open? (t : Table) (key : String) (v : Value) : Option Table :=
  if t.isEmpty && key = dateKey then none else t.add? key v

-- Add the section to a table. The way to its place leads through tables that headers have made,
-- and through the last table of a list that grows.
def addTo? (s : Section) : Key → Table → Option Table
  | [], t => do t.union? (← Table.meaning? s.entries)
  | [key], t =>
    match t.lookup key with
    | none => do
      let v ← s.value?
      open? t key (if s.grows then .array true [v] else v)
    | some (.table .implied old) =>
      if s.grows then none
      else do
        let both ← Table.union? old (← Table.meaning? s.entries)
        return t.replace key (.table .headed both)
    | some (.array true items) =>
      if s.grows then do return t.replace key (.array true (items ++ [← s.value?])) else none
    | some _ => none
  | key :: rest, t =>
    match t.lookup key with
    | none => do open? t key (.table .implied (← s.addTo? rest []))
    | some (.table .implied sub) => do return t.replace key (.table .implied (← s.addTo? rest sub))
    | some (.table .headed sub) => do return t.replace key (.table .headed (← s.addTo? rest sub))
    | some (.array true items) =>
      match items.getLast? with
      | some (.table origin sub) => do
        let last := .table origin (← s.addTo? rest sub)
        return t.replace key (.array true (items.dropLast ++ [last]))
      | _ => none
    | some _ => none

end Section

namespace Document

/--
The table of a document, section by section; the first one has no header. A document that is a date
as a whole has an empty table, whatever else stands in it.
-/
def build? : List Section → Option Table
  | [] => some []
  | top :: rest =>
    if top.entries.isDate then top.entries.date?.map fun _ => []
    else (top :: rest).foldlM (fun t s => s.addTo? s.key t) []

def parse? (text : String) : Option Table := do
  let cs := match foldLineEnds text.toList with
    | '\uFEFF' :: cs => cs
    | cs => cs
  build? (← Section.ofStatements? {} (← Statement.parse? (← Token.scan cs)))

end Document

end FtpControl.Toml
