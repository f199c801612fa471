import Playfield.Number
import Playfield.UnitInterval

/-! Light channels and their linear fades. A fade is stored as its ends, and the brightness at any
moment is computed from them. -/
namespace Playfield

structure Fade (α : Type := Float) where
  start : Brightness α
  target : Brightness α
  startTime : UInt64
  durationMs : UInt32
deriving DecidableEq, Repr

namespace Fade

variable {α : Type}

/-- The milliseconds since the start of the fade; none before the start. -/
def elapsed (f : Fade α) (now : UInt64) : Nat := now.toNat - f.startTime.toNat

def isComplete (f : Fade α) (now : UInt64) : Bool := f.durationMs.toNat ≤ f.elapsed now

/-- The brightness at `now`: the target once the fade is complete, and the start until it begins. -/
def sample [Scalar α] (f : Fade α) (now : UInt64) : Brightness α :=
  if f.isComplete now then f.target
  else f.start.lerp f.target (Scalar.ratio (f.elapsed now) f.durationMs.toNat)

end Fade

/-- One dimmable output: the brightness it was left at, and the fade that it follows. -/
structure LightChannel (α : Type := Float) where
  number : LightNumber
  brightness : Brightness α
  fade : Option (Fade α)
deriving DecidableEq, Repr

namespace LightChannel

variable {α : Type} [Scalar α]

/-- A channel that has never been driven. -/
def off (number : LightNumber) : LightChannel α := ⟨number, .off, none⟩

def brightnessAt (c : LightChannel α) (now : UInt64) : Brightness α :=
  c.fade.elim c.brightness (·.sample now)

def activeFade (c : LightChannel α) (now : UInt64) : Option (Fade α) :=
  c.fade.filter fun f => !f.isComplete now

/-- Starts a fade from the brightness at `now`, in place of any other. A fade without duration
applies its target at once. -/
def startFade (c : LightChannel α) (target : Brightness α) (durationMs : UInt32) (now : UInt64) :
    LightChannel α :=
  if durationMs = 0 then { c with brightness := target, fade := none }
  else
    let start := c.brightnessAt now
    { c with brightness := start, fade := some ⟨start, target, now, durationMs⟩ }

/-- Replaces a complete fade by its target. -/
def settle (c : LightChannel α) (now : UInt64) : LightChannel α :=
  match c.fade.filter (·.isComplete now) with
  | some f => { c with brightness := f.target, fade := none }
  | none => c

end LightChannel

inductive Color where
  | red
  | green
  | blue
deriving DecidableEq, Repr

namespace Color

def all : List Color := [.red, .green, .blue]

def suffix : Color → String
  | .red => "r"
  | .green => "g"
  | .blue => "b"

/-- The channel that carries this component of `light`: the number of the light, a colon and the
letter of the component. -/
def channelOf (color : Color) (light : LightNumber) : LightNumber where
  text := light.text ++ (":" ++ color.suffix)
  not_blank := by
    have h : (":" ++ color.suffix).toList.all Text.isBlankChar = false := by
      cases color <;> decide
    rw [Text.isBlank, String.toList_append, List.all_append, h, Bool.and_false]

end Color
end Playfield
