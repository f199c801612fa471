import Playfield.Toml.Value

/-! Reading settings out of TOML values. Each reader gives nothing if the value has another type. -/
namespace Playfield.Toml

namespace Value

def string? : Value → Option String
  | .string s => some s
  | _ => none

def boolean? : Value → Option Bool
  | .boolean b => some b
  | _ => none

def integer? (low high : Int) : Value → Option Int
  | .integer n => if low ≤ n ∧ n ≤ high then some n else none
  | _ => none

/-- A number; whole ones are numbers too. -/
def float? : Value → Option Float
  | .float x => some x
  | .integer n => some (.ofInt n)
  | _ => none

/-- The items of an array, if all of them can be read. -/
def list? {α : Type} (item? : Value → Option α) : Value → Option (List α)
  | .array items _ => items.mapM item?
  | _ => none

def isEmpty : Value → Bool
  | .array items _ => items.isEmpty
  | .table members _ => members.isEmpty
  | _ => false

/-- One of finitely many named values: its name, or a table with nothing but an empty value under the
name. -/
def named? {α : Type} (name : α → String) (values : List α) : Value → Option α
  | .string s => values.find? (name · == s)
  | .table [(s, value)] _ => if value.isEmpty then values.find? (name · == s) else none
  | _ => none

/-- The fields of a record. A record is a table, or an array with the fields `names` in order. A moment
counts as a record that lacks every field. -/
def fields? (names : List String) : Value → Option (String → Option Value)
  | .table members _ => some (Members.get? members)
  | .array items _ => some fun name => items[names.idxOf name]?
  | .moment => some fun _ => none
  | _ => none

end Value

def required {α : Type} (field : Option Value) (read? : Value → Option α) : Option α := field.bind read?

def defaulting {α : Type} (field : Option Value) (read? : Value → Option α) (value : α) : Option α :=
  match field with
  | none => some value
  | some v => read? v

end Playfield.Toml
