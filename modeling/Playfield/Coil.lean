import Playfield.Number
import Playfield.UnitInterval

/-! Coils: solenoids that are fired by a pulse and may be held afterwards. -/
namespace Playfield

structure Coil where
  number : CoilNumber
  enabled : Bool
  pulseMs : UInt32
  pulsePower : Power
  holdPower : Power
deriving DecidableEq, Repr

namespace Coil

/-- A coil that has never been commanded. -/
def disabled (number : CoilNumber) : Coil := ⟨number, false, 0, .zero, .zero⟩

/-- The coil after a pulse, which always leaves it disabled. -/
def recordPulse (c : Coil) (pulseMs : UInt32) (pulsePower : Power) : Coil :=
  { c with enabled := false, pulseMs, pulsePower, holdPower := .zero }

/-- The coil after an enable; a later enable replaces the parameters of an earlier one. -/
def recordEnable (c : Coil) (pulseMs : UInt32) (pulsePower holdPower : Power) : Coil :=
  { c with enabled := true, pulseMs, pulsePower, holdPower }

/-- The coil after a disable, which keeps the parameters of the last pulse. -/
def recordDisable (c : Coil) : Coil := { c with enabled := false, holdPower := .zero }

end Coil

inductive ActuationKind where
  | pulse
  /-- Fire, then hold. -/
  | enable
  | disable
deriving DecidableEq, Repr

namespace ActuationKind

def word : ActuationKind → String
  | .pulse => "pulse"
  | .enable => "enable"
  | .disable => "disable"

def all : List ActuationKind := [.pulse, .enable, .disable]

end ActuationKind

/-- One call to the driver of a coil. Its kind is explicit: an enable without power is an enable. -/
structure Actuation where
  kind : ActuationKind
  coil : CoilNumber
  pulseMs : UInt32
  pulsePower : Power
  holdPower : Power
deriving DecidableEq, Repr

namespace Actuation

def pulse (coil : CoilNumber) (pulseMs : UInt32) (pulsePower : Power) : Actuation :=
  ⟨.pulse, coil, pulseMs, pulsePower, .zero⟩

def enable (coil : CoilNumber) (pulseMs : UInt32) (pulsePower holdPower : Power) : Actuation :=
  ⟨.enable, coil, pulseMs, pulsePower, holdPower⟩

def disable (coil : CoilNumber) : Actuation := ⟨.disable, coil, 0, .zero, .zero⟩

def isDisable (a : Actuation) : Bool := a.kind = .disable

/-- Whether the actuation asks the hardware to keep holding. -/
def holds (a : Actuation) : Bool := 0.0 < a.holdPower.value

def text (a : Actuation) : String :=
  a.kind.word ++ "(" ++ a.coil.text ++ ", " ++ toString a.pulseMs ++ "ms, " ++ toString a.pulsePower
    ++ ", " ++ toString a.holdPower ++ ")"

end Actuation
end Playfield
