import Playfield.Proofs.Lock
import Playfield.Proofs.Map
import Playfield.Switch.Registry

/-! What the operations of a switch registry do to the state and to the lock of each switch. -/
namespace Playfield.SwitchRegistry

variable (r : SwitchRegistry) (s n : SwitchNumber) (t : TaskId)

def lock (r : SwitchRegistry) (n : SwitchNumber) : Lock := (r.slot n).lock

/-- Every switch is kept under its own number. -/
def Numbered (r : SwitchRegistry) : Prop := ∀ n, (r.switch n).number = n

theorem slot_setSlot (x : SwitchSlot) :
    (r.setSlot s x).slot n = if s = n then x else r.slot n := by
  unfold setSlot slot
  rw [Map.getD_insert]

@[simp] theorem slot_touch : (r.touch s).slot n = r.slot n := by
  by_cases h : s = n <;> simp [touch, slot_setSlot, h]

@[simp] theorem switch_request : (r.request s t).switch n = r.switch n := by
  by_cases h : s = n <;> simp [request, switch, slot_setSlot, h]

@[simp] theorem switch_release : (r.release s).switch n = r.switch n := by
  by_cases h : s = n <;> simp [release, switch, slot_setSlot, h]

@[simp] theorem switch_leave : (r.leave s t).switch n = r.switch n := by
  by_cases h : s = n <;> simp [leave, switch, slot_setSlot, h]

@[simp] theorem switch_setSwitch (x : Switch) :
    (r.setSwitch x).switch n = if x.number = n then x else r.switch n := by
  by_cases h : x.number = n <;> simp [setSwitch, switch, slot_setSlot, h]

@[simp] theorem lock_request :
    (r.request s t).lock n = if s = n then (r.lock n).request t else r.lock n := by
  by_cases h : s = n <;> simp [request, lock, slot_setSlot, h]

@[simp] theorem lock_release :
    (r.release s).lock n = if s = n then (r.lock n).release else r.lock n := by
  by_cases h : s = n <;> simp [release, lock, slot_setSlot, h]

@[simp] theorem lock_leave :
    (r.leave s t).lock n = if s = n then (r.lock n).leave t else r.lock n := by
  by_cases h : s = n <;> simp [leave, lock, slot_setSlot, h]

@[simp] theorem lock_setSwitch (x : Switch) : (r.setSwitch x).lock n = r.lock n := by
  by_cases h : x.number = n <;> simp [setSwitch, lock, slot_setSlot, h]

@[simp] theorem switch_empty : empty.switch n = .inactive n := rfl

@[simp] theorem lock_empty : empty.lock n = .free := rfl

theorem mem_setSlot (x : SwitchSlot) : n ∈ (r.setSlot s x).slots ↔ s = n ∨ n ∈ r.slots := by
  simp [setSlot]

@[simp] theorem mem_touch : n ∈ (r.touch s).slots ↔ s = n ∨ n ∈ r.slots := mem_setSlot ..

@[simp] theorem mem_request : n ∈ (r.request s t).slots ↔ s = n ∨ n ∈ r.slots := mem_setSlot ..

@[simp] theorem mem_release : n ∈ (r.release s).slots ↔ s = n ∨ n ∈ r.slots := mem_setSlot ..

@[simp] theorem mem_leave : n ∈ (r.leave s t).slots ↔ s = n ∨ n ∈ r.slots := mem_setSlot ..

@[simp] theorem mem_setSwitch (x : Switch) : n ∈ (r.setSwitch x).slots ↔ x.number = n ∨ n ∈ r.slots :=
  mem_setSlot ..

variable {r s n t}

theorem isHeldBy_iff : r.isHeldBy n t = true ↔ (r.lock n).holder = some t := by
  simp [isHeldBy, lock]

theorem mem_known : n ∈ r.known ↔ n ∈ r.slots := Std.ExtTreeMap.mem_keys

/-- The known switches are listed in order, each once. -/
theorem pairwise_known : r.known.Pairwise fun a b => compare a b = .lt := Std.ExtTreeMap.ordered_keys

end Playfield.SwitchRegistry
