import Std.Data.ExtTreeMap
import Playfield.Lock
import Playfield.Switch

/-! The switch registry: the last known state of every switch, each behind a lock of its own. A report
holds the lock of its switch until its change is published, so the changes of one switch come out in
the order of its reports. -/
namespace Playfield

structure SwitchSlot where
  switch : Switch
  lock : Lock
deriving DecidableEq, Repr

structure SwitchRegistry where
  slots : Std.ExtTreeMap SwitchNumber SwitchSlot
deriving DecidableEq

namespace SwitchRegistry

def empty : SwitchRegistry := ⟨∅⟩

/-- The slot of a switch; a switch that has none yet is inactive and free. -/
def slot (r : SwitchRegistry) (switch : SwitchNumber) : SwitchSlot :=
  r.slots.getD switch ⟨.inactive switch, .free⟩

def switch (r : SwitchRegistry) (number : SwitchNumber) : Switch := (r.slot number).switch

def isHeldBy (r : SwitchRegistry) (switch : SwitchNumber) (task : TaskId) : Bool :=
  (r.slot switch).lock.holder = some task

def setSlot (r : SwitchRegistry) (switch : SwitchNumber) (slot : SwitchSlot) : SwitchRegistry :=
  ⟨r.slots.insert switch slot⟩

def setSwitch (r : SwitchRegistry) (switch : Switch) : SwitchRegistry :=
  r.setSlot switch.number { r.slot switch.number with switch }

def touch (r : SwitchRegistry) (switch : SwitchNumber) : SwitchRegistry :=
  r.setSlot switch (r.slot switch)

/-- Asks for the lock of a switch on behalf of a task. The switch is known from then on. -/
def request (r : SwitchRegistry) (switch : SwitchNumber) (task : TaskId) : SwitchRegistry :=
  r.setSlot switch { r.slot switch with lock := (r.slot switch).lock.request task }

def release (r : SwitchRegistry) (switch : SwitchNumber) : SwitchRegistry :=
  r.setSlot switch { r.slot switch with lock := (r.slot switch).lock.release }

def leave (r : SwitchRegistry) (switch : SwitchNumber) (task : TaskId) : SwitchRegistry :=
  r.setSlot switch { r.slot switch with lock := (r.slot switch).lock.leave task }

/-- Every known switch, in order. -/
def known (r : SwitchRegistry) : List SwitchNumber := r.slots.keys

end SwitchRegistry
end Playfield
