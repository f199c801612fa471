import Playfield.Bounds
import Playfield.Json.Draft

/-! Codecs: how the values of a type are written as JSON and read back. A decoder works on drafts and
reports the first fault in the order of the text. A fault is either a place where the text is not
JSON, or JSON that does not fit the type. -/
namespace Playfield.Json

inductive Fault where
  /-- The text is not JSON, or holds a token without a value. -/
  | malformed
  /-- The document is JSON but does not fit. -/
  | mismatch
deriving DecidableEq, Repr

structure Codec (α : Type) where
  encode : α → Json
  decode : Draft → Except Fault α

namespace Codec

def ofJson {α : Type} (c : Codec α) (j : Json) : Except Fault α := c.decode (.ofJson j)

/-- Decodes a text, which nothing may follow. -/
def ofText {α : Type} (c : Codec α) (s : String) : Except Fault α :=
  let (draft, ends) := Draft.ofText s.toList
  match c.decode draft with
  | .ok a => if ends then .ok a else .error .malformed
  | .error fault => .error fault

/-- The fault of a value that was not expected. A scalar is read first, so a bad one is malformed;
an array or object is refused at its first character. -/
def unexpected : Draft → Fault
  | .unusable | .broken => .malformed
  | _ => .mismatch

def string : Codec String where
  encode := .string
  decode
    | .string s => .ok s
    | d => .error (unexpected d)

def bool : Codec Bool where
  encode := .bool
  decode
    | .bool b => .ok b
    | d => .error (unexpected d)

/-- Doubles; whole numbers are rounded to the nearest. -/
def float : Codec Float where
  encode := .ofFloat
  decode
    | .real x => .ok x
    | .int n => .ok (.ofInt n)
    | d => .error (unexpected d)

/-- Whole numbers that `read?` accepts. -/
def integer {α : Type} (write : α → Int) (read? : Int → Option α) : Codec α where
  encode a := .int (write a)
  decode
    | .int n => (read? n).elim (.error .mismatch) .ok
    | d => .error (unexpected d)

/-- Whole numbers from `low` to `high`. -/
def bounded (low high : Int) : Codec Int :=
  integer id fun n => if low ≤ n ∧ n ≤ high then some n else none

def uint32 : Codec UInt32 :=
  integer (fun n => (n.toNat : Int)) fun n =>
    if 0 ≤ n ∧ n < Bounds.word32 then some (.ofNat n.toNat) else none

def uint64 : Codec UInt64 :=
  integer (fun n => (n.toNat : Int)) fun n =>
    if 0 ≤ n ∧ n < Bounds.word64 then some (.ofNat n.toNat) else none

def nat64 : Codec Nat :=
  integer (fun n => (n : Int)) fun n => if 0 ≤ n ∧ n < Bounds.word64 then some n.toNat else none

def int64 : Codec Int := bounded Bounds.leastInt64 Bounds.greatestInt64

/-- A codec for the values of `α` that `check` makes from values of `β`. -/
def refine {α β : Type} (c : Codec β) (write : α → β) (check : β → Option α) : Codec α where
  encode a := c.encode (write a)
  decode d := do
    match check (← c.decode d) with
    | some a => .ok a
    | none => .error .mismatch

/-- A value that may be absent, which is written as null. -/
def option {α : Type} (c : Codec α) : Codec (Option α) where
  encode a := a.elim .null c.encode
  decode
    | .null => .ok none
    | d => (c.decode d).map some

def decodeItems {α : Type} (decode : Draft → Except Fault α) : List Draft → Except Fault (List α)
  | [] => .ok []
  | d :: rest => do return (← decode d) :: (← decodeItems decode rest)

def list {α : Type} (c : Codec α) : Codec (List α) where
  encode items := .array (items.map c.encode)
  decode
    | .array items closed => do
      let found ← decodeItems c.decode items
      if closed then .ok found else .error .malformed
    | d => .error (unexpected d)

/-- One of finitely many named values: its name, or an object whose only member has that name and
the value null. -/
def named {α : Type} (name : α → String) (values : List α) : Codec α where
  encode a := .string (name a)
  decode
    | .string s => find s
    | .object [(some s, value)] closed => do
      let a ← find s
      match value with
      | .null => if closed then .ok a else .error .malformed
      | d => .error (unexpected d)
    | .object ((some s, value) :: _) _ => do
      let _ ← find s
      match value with
      | .null => .error .malformed
      | d => .error (unexpected d)
    | _ => .error .malformed
where
  find (s : String) : Except Fault α :=
    (values.find? (name · == s)).elim (.error .mismatch) .ok

end Codec
end Playfield.Json
