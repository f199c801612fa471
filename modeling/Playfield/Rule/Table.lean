import Std.Data.ExtTreeMap
import Playfield.Error
import Playfield.Rule

/-! The table of hardware rules, by switch and then by coil. -/
namespace Playfield

/-- The configured rules. A switch without rules has no entry. -/
structure RuleTable where
  switches : Std.ExtTreeMap SwitchNumber (Std.ExtTreeMap CoilNumber HardwareRule)
deriving DecidableEq

namespace RuleTable

def empty : RuleTable := ⟨∅⟩

def ofSwitch (t : RuleTable) (switch : SwitchNumber) : Std.ExtTreeMap CoilNumber HardwareRule :=
  t.switches.getD switch ∅

def get? (t : RuleTable) (key : RuleKey) : Option HardwareRule := (t.ofSwitch key.switch)[key.coil]?

/-- Inserts a rule, and gives the rule that it replaces. -/
def configure (t : RuleTable) (rule : HardwareRule) : Option HardwareRule × RuleTable :=
  let coils := t.ofSwitch rule.switch
  (coils[rule.coil]?, ⟨t.switches.insert rule.switch (coils.insert rule.coil rule)⟩)

/-- Removes a rule and gives it, if there is one. A switch without rules loses its entry in any case. -/
def remove (t : RuleTable) (key : RuleKey) : Except Missing HardwareRule × RuleTable :=
  let switches := t.switches.modify key.switch (·.erase key.coil)
  ((t.get? key).elim (.error ⟨"HardwareRule", key.text⟩) .ok,
    ⟨if (switches[key.switch]?).any (·.isEmpty) then switches.erase key.switch else switches⟩)

/-- The rules to fire when `switch` turns to `isActive`, in the order of their coils. -/
def evaluate (t : RuleTable) (switch : SwitchNumber) (isActive : Bool) : List HardwareRule :=
  (t.ofSwitch switch).values.filter (·.firesOn isActive)

/-- Every rule, by switch and then by coil. -/
def toList (t : RuleTable) : List HardwareRule := t.switches.values.flatMap (·.values)

def size (t : RuleTable) : Nat := (t.switches.values.map (·.size)).foldr (· + ·) 0

def isEmpty (t : RuleTable) : Bool := t.size = 0

end RuleTable
end Playfield
