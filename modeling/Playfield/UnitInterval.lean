import Playfield.Decimal.Layout

/-! Fractions of full power. The drive power of a coil and the brightness of a light are numbers from
0 to 1, and fades interpolate between two brightnesses. -/
namespace Playfield

/-- Arithmetic in which brightness can be reckoned. -/
class Scalar (α : Type) extends Add α, Sub α, Mul α, LE α, LT α where
  zero : α
  one : α
  /-- The part that `elapsed` is of `duration`. -/
  ratio (elapsed duration : Nat) : α
  decidableLE : DecidableLE α
  decidableLT : DecidableLT α

attribute [reducible, instance] Scalar.decidableLE Scalar.decidableLT

instance : Scalar Float where
  zero := 0.0
  one := 1.0
  ratio elapsed duration := elapsed.toUInt64.toFloat / duration.toUInt64.toFloat
  decidableLE := inferInstance
  decidableLT := inferInstance

namespace Scalar

variable {α : Type} [Scalar α]

/-- The point of [0, 1] nearest to `x`. -/
def clamp (x : α) : α := if x < zero then zero else if one < x then one else x

/-- The point `progress` of the way from `start` to `target`. From 1 on it is exactly `target`, and
up to 0 exactly `start`. -/
def lerp (start target progress : α) : α :=
  if one ≤ progress then target
  else if progress ≤ zero then start
  else clamp (start + (target - start) * progress)

end Scalar

/-- Whether a double is a number from 0 to 1. -/
def isUnit (x : Float) : Bool := x.isFinite && 0.0 ≤ x && x ≤ 1.0

/-- A fraction of full drive power. -/
structure Power where
  value : Float
deriving DecidableEq, Repr

/-- A fraction of full light output, reckoned in the scalars `α`. -/
structure Brightness (α : Type := Float) where
  value : α
deriving DecidableEq, Repr

namespace Power

def zero : Power := ⟨0.0⟩

def ofFloat? (value : Float) : Option Power := if isUnit value then some ⟨value⟩ else none

instance : ToString Power := ⟨fun p => Decimal.render .text p.value⟩

end Power

namespace Brightness

def ofFloat? (value : Float) : Option Brightness := if isUnit value then some ⟨value⟩ else none

instance : ToString Brightness := ⟨fun b => Decimal.render .text b.value⟩

variable {α : Type} [Scalar α]

def off : Brightness α := ⟨Scalar.zero⟩

def lerp (start target : Brightness α) (progress : α) : Brightness α :=
  ⟨Scalar.lerp start.value target.value progress⟩

end Brightness
end Playfield
