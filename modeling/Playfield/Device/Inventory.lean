import Std.Data.ExtTreeMap
import Playfield.Request

/-! The inventory of named devices, by kind and then by name. -/
namespace Playfield

structure Inventory where
  kinds : Std.ExtTreeMap Kind (Std.ExtTreeMap String Device)
deriving DecidableEq

namespace Inventory

def empty : Inventory := ⟨∅⟩

def ofKind (i : Inventory) (kind : Kind) : Std.ExtTreeMap String Device := i.kinds.getD kind ∅

/-- Inserts a device under its kind and name, and gives the device that it replaces. -/
def register (i : Inventory) (device : Device) : Option Device × Inventory :=
  let named := i.ofKind device.kind
  (named[device.name]?, ⟨i.kinds.insert device.kind (named.insert device.name device)⟩)

/-- The device with a name, in whatever case. -/
def get? (i : Inventory) (kind : Kind) (name : String) : Option Device :=
  (i.ofKind kind)[normalize name]?

/-- The first device of a kind, by name, that has the number `number`. -/
def findByNumber? (i : Inventory) (kind : Kind) (number : String) : Option Device :=
  (i.ofKind kind).values.find? (·.number = number)

/-- Every device, by kind and then by name. -/
def toList (i : Inventory) : List Device := i.kinds.values.flatMap (·.values)

def query (i : Inventory) (q : DeviceQuery) : List Device :=
  (((i.kinds.toList.filter fun entry => q.kind.all (· = entry.1)).flatMap (·.2.values)).filter
    fun d => q.tag.all d.hasTag).filter fun d => q.number.all (d.number = ·)

/-- The devices of a kind with a tag, by name. -/
def tagged (i : Inventory) (kind : Kind) (tag : String) : List Device :=
  i.query ⟨some kind, some tag, none⟩

def size (i : Inventory) : Nat := (i.kinds.values.map (·.size)).foldr (· + ·) 0

def isEmpty (i : Inventory) : Bool := i.size = 0

end Inventory
end Playfield
