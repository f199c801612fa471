import Playfield.Json.Codec

/-! Records. A record is read from an object with one member per field, in any order and with other
members ignored, or from an array with the fields in their order. -/
namespace Playfield.Json

structure Field (α : Type) where
  name : String
  codec : Codec α
  /-- The value when an object lacks the member. -/
  absent : Option α
  /-- The value when an array ends before the item. -/
  cut : Option α
  written : α → Bool

namespace Field

def required {α : Type} (name : String) (codec : Codec α) : Field α :=
  ⟨name, codec, none, none, fun _ => true⟩

/-- A field that an object may lack. -/
def optional {α : Type} (name : String) (codec : Codec α) : Field (Option α) :=
  ⟨name, codec.option, some none, none, fun _ => true⟩

/-- A field with a value of its own when objects or arrays lack it. -/
def defaulting {α : Type} (name : String) (codec : Codec α) (value : α) : Field α :=
  ⟨name, codec, some value, some value, fun _ => true⟩

end Field

/-- The fields of a record, whose values form a tuple of type `ρ`. -/
inductive Fields : Type → Type 1 where
  | done : Fields Unit
  | field {α ρ : Type} (field : Field α) (rest : Fields ρ) : Fields (α × ρ)

namespace Fields

def Slots : {ρ : Type} → Fields ρ → Type
  | _, .done => Unit
  | _, .field (α := α) _ rest => Option α × rest.Slots

def noSlots : {ρ : Type} → (fs : Fields ρ) → fs.Slots
  | _, .done => ()
  | _, .field _ rest => (none, rest.noSlots)

/-- Decodes the member `name` into its slot. A field may be filled only once, and a member that
belongs to no field must only be JSON. -/
def fill : {ρ : Type} → (fs : Fields ρ) → fs.Slots → String → Draft → Except Fault fs.Slots
  | _, .done, slots, _, d => if d.intact then .ok slots else .error .malformed
  | _, .field f rest, slots, name, d =>
    if f.name = name then
      if slots.1.isSome then .error .mismatch
      else (f.codec.decode d).map fun a => (some a, slots.2)
    else (rest.fill slots.2 name d).map fun others => (slots.1, others)

def fillAll {ρ : Type} (fs : Fields ρ) (slots : fs.Slots) :
    List (Option String × Draft) → Except Fault fs.Slots
  | [] => .ok slots
  | (none, _) :: _ => .error .malformed
  | (some name, d) :: rest => do fs.fillAll (← fs.fill slots name d) rest

/-- The tuple of a filled record; a field that is missing must have a value for that case. -/
def finish : {ρ : Type} → (fs : Fields ρ) → fs.Slots → Except Fault ρ
  | _, .done, _ => .ok ()
  | _, .field f rest, slots =>
    match slots.1.or f.absent with
    | some a => (rest.finish slots.2).map fun others => (a, others)
    | none => .error .mismatch

/-- Decodes the items of an array as the fields in their order. A fault in an item comes before the
end of the array. -/
def decodeItems : {ρ : Type} → Fields ρ → List Draft → Bool → Except Fault ρ
  | _, .done, items, closed => if items.isEmpty && closed then .ok () else .error .malformed
  | _, .field f rest, item :: items, closed => do
    let a ← f.codec.decode item
    return (a, ← rest.decodeItems items closed)
  | _, .field f rest, [], closed =>
    if closed then
      match f.cut with
      | some a => (rest.decodeItems [] true).map fun others => (a, others)
      | none => .error .mismatch
    else .error .malformed

def decode {ρ : Type} (fs : Fields ρ) : Draft → Except Fault ρ
  | .object members closed => do
    let slots ← fs.fillAll fs.noSlots members
    if closed then fs.finish slots else .error .malformed
  | .array items closed => fs.decodeItems items closed
  | d => .error (Codec.unexpected d)

def encode : {ρ : Type} → Fields ρ → ρ → List (String × Json)
  | _, .done, _ => []
  | _, .field f rest, (a, others) =>
    let tail := rest.encode others
    if f.written a then (f.name, f.codec.encode a) :: tail else tail

def names : {ρ : Type} → Fields ρ → List String
  | _, .done => []
  | _, .field f rest => f.name :: rest.names

end Fields

/-- The codec of a record type whose values correspond to the tuples of `fs`. -/
def Codec.record {α ρ : Type} (fs : Fields ρ) (toTuple : α → ρ) (ofTuple : ρ → α) : Codec α where
  encode a := .object (fs.encode (toTuple a))
  decode d := (fs.decode d).map ofTuple

end Playfield.Json
