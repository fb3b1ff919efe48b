import FtpControl.Toml.Datetime
import FtpControl.Toml.Value

/-!
This module contains the step from values as they are written to the values that they stand for. It
refuses tables that name a key twice and dates that are none, and it turns tables that spell a date
into that date. What stands in such a table behind the date is never looked at.
-/

namespace FtpControl.Toml

/-- The key that makes a table a date if it comes first. The other keys of such a table are void. -/
def dateKey : String := "$__toml_private_datetime"

namespace Table

def isDate : Table → Bool
  | (key, _) :: _ => key = dateKey
  | [] => false

end Table

def Value.date? (text : String) : Option Value :=
  (Datetime.parse? text.toList).map fun d => .datetime d.text

-- The date of a table that claims to be one: its first value has to spell it in a string.
def Table.date? : Table → Option Value
  | (_, .string s) :: _ => Value.date? s
  | _ => none

mutual

def Value.meaning? : Value → Option Value
  | .datetime text => Value.date? text
  | .array grows items => do return .array grows (← Value.meanings? items)
  | .table origin entries =>
    if Table.isDate entries then Table.date? entries
    else do return .table origin (← Table.meaning? entries)
  | v => some v

def Value.meanings? : List Value → Option (List Value)
  | [] => some []
  | v :: vs => do return (← Value.meaning? v) :: (← Value.meanings? vs)

def Table.meaning? : List (String × Value) → Option (List (String × Value))
  | [] => some []
  | (key, v) :: rest => do
    let v ← Value.meaning? v
    let rest ← Table.meaning? rest
    if (rest.lookup key).isSome then none else some ((key, v) :: rest)

end

end FtpControl.Toml
