import Playfield.Coil

/-! Hardware rules: a switch that fires a coil by itself when it becomes active. -/
namespace Playfield

/-- The switch and the coil of a rule, which identify it. -/
structure RuleKey where
  switch : SwitchNumber
  coil : CoilNumber
deriving DecidableEq, Repr

def RuleKey.text (k : RuleKey) : String := k.switch.text ++ "/" ++ k.coil.text

/-- A rule that fires a coil. There is at most one for a switch and a coil. -/
structure HardwareRule where
  switch : SwitchNumber
  coil : CoilNumber
  pulseMs : UInt32
  pulsePower : Power
  holdPower : Power
deriving DecidableEq, Repr

namespace HardwareRule

def key (r : HardwareRule) : RuleKey := ⟨r.switch, r.coil⟩

/-- Whether the rule fires on a transition to `isActive`: releases fire nothing. -/
def firesOn (_ : HardwareRule) (isActive : Bool) : Bool := isActive

def actuation (r : HardwareRule) : Actuation := .enable r.coil r.pulseMs r.pulsePower r.holdPower

end HardwareRule
end Playfield
