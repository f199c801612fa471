import Playfield.Coil.Bank
import Playfield.Proofs.Board
import Playfield.Proofs.Lock

/-! What the operations of a coil bank do to the commanded state and to the lock of each coil, and what
the journal tells about the actuations that were sent to the board. -/
namespace Playfield

namespace CoilBank

variable (b : CoilBank) (c n : CoilNumber) (t : TaskId)

def lock (b : CoilBank) (n : CoilNumber) : Lock := (b.slot n).lock

/-- Records a state under a given number. -/
def put (b : CoilBank) (c : CoilNumber) (k : Coil) : CoilBank :=
  b.setSlot c { b.slot c with coil := k }

/-- Every coil is kept under its own number. -/
def Numbered (b : CoilBank) : Prop := ∀ n, (b.coil n).number = n

theorem slot_setSlot (s : CoilSlot) : (b.setSlot c s).slot n = if c = n then s else b.slot n := by
  unfold setSlot slot
  rw [Map.getD_insert]

@[simp] theorem coil_request : (b.request c t).coil n = b.coil n := by
  by_cases h : c = n <;> simp [request, coil, slot_setSlot, h]

@[simp] theorem coil_release : (b.release c).coil n = b.coil n := by
  by_cases h : c = n <;> simp [release, coil, slot_setSlot, h]

@[simp] theorem coil_leave : (b.leave c t).coil n = b.coil n := by
  by_cases h : c = n <;> simp [leave, coil, slot_setSlot, h]

@[simp] theorem coil_put (k : Coil) : (b.put c k).coil n = if c = n then k else b.coil n := by
  by_cases h : c = n <;> simp [put, coil, slot_setSlot, h]

@[simp] theorem lock_request :
    (b.request c t).lock n = if c = n then (b.lock n).request t else b.lock n := by
  by_cases h : c = n <;> simp [request, lock, slot_setSlot, h]

@[simp] theorem lock_release :
    (b.release c).lock n = if c = n then (b.lock n).release else b.lock n := by
  by_cases h : c = n <;> simp [release, lock, slot_setSlot, h]

@[simp] theorem lock_leave :
    (b.leave c t).lock n = if c = n then (b.lock n).leave t else b.lock n := by
  by_cases h : c = n <;> simp [leave, lock, slot_setSlot, h]

@[simp] theorem lock_put (k : Coil) : (b.put c k).lock n = b.lock n := by
  by_cases h : c = n <;> simp [put, lock, slot_setSlot, h]

theorem mem_setSlot (s : CoilSlot) : n ∈ (b.setSlot c s).slots ↔ c = n ∨ n ∈ b.slots := by
  simp [setSlot]

@[simp] theorem mem_request : n ∈ (b.request c t).slots ↔ c = n ∨ n ∈ b.slots := mem_setSlot ..

@[simp] theorem mem_release : n ∈ (b.release c).slots ↔ c = n ∨ n ∈ b.slots := mem_setSlot ..

@[simp] theorem mem_leave : n ∈ (b.leave c t).slots ↔ c = n ∨ n ∈ b.slots := mem_setSlot ..

@[simp] theorem mem_put (k : Coil) : n ∈ (b.put c k).slots ↔ c = n ∨ n ∈ b.slots := mem_setSlot ..

variable {b c n t}

theorem slot_of_not_mem (h : n ∉ b.slots) : b.slot n = ⟨.disabled n, .free⟩ :=
  Std.ExtTreeMap.getD_eq_fallback h

theorem coil_of_not_mem (h : n ∉ b.slots) : b.coil n = .disabled n := by
  simp [coil, slot_of_not_mem h]

theorem mem_of_holder (h : (b.lock n).holder = some t) : n ∈ b.slots := by
  by_contra hn
  simp [lock, slot_of_not_mem hn, Lock.free] at h

theorem isHeldBy_iff : b.isHeldBy n t = true ↔ (b.lock n).holder = some t := by
  simp [isHeldBy, lock]

theorem setCoil_eq_put {k : Coil} (h : k.number = n) : b.setCoil k = b.put n k := by
  subst h
  rfl

/-- Recording what is recorded already changes nothing. -/
theorem put_coil (h : n ∈ b.slots) : b.put n (b.coil n) = b := by
  unfold put setSlot
  congr 1
  apply Std.ExtTreeMap.ext_getElem?
  intro m
  rw [Map.getElem?_insert]
  by_cases hm : n = m
  · subst hm
    simp [coil, slot, Std.ExtTreeMap.getD_eq_getD_getElem?, Std.ExtTreeMap.getElem?_eq_some_getElem h]
  · simp [hm]

theorem mem_known : n ∈ b.known ↔ n ∈ b.slots := Std.ExtTreeMap.mem_keys

/-- The known coils are listed in order, each once. -/
theorem pairwise_known : b.known.Pairwise fun c d => compare c d = .lt := Std.ExtTreeMap.ordered_keys

end CoilBank

/-- An actuation that was sent to the board, with who asked for it and why it was refused, if it was. -/
structure Attempt where
  cause : Cause
  actuation : Actuation
  fault : Option BoardFault
deriving DecidableEq, Repr

namespace Attempt

def coil (a : Attempt) : CoilNumber := a.actuation.coil

def isAccepted (a : Attempt) : Bool := a.fault.isNone

end Attempt

def Entry.attempt? : Entry → Option Attempt
  | .attempted cause actuation fault => some ⟨cause, actuation, fault⟩
  | .published _ | .noted _ => none

namespace Journal

/-- Every actuation that was sent to the board, oldest first. -/
def attempts (j : Journal) : List Attempt := j.filterMap Entry.attempt?

/-- Those that the board carried out. -/
def accepted (j : Journal) : List Attempt := j.attempts.filter (·.isAccepted)

@[simp] theorem attempts_nil : attempts [] = [] := rfl

@[simp] theorem attempts_append (j j' : Journal) :
    attempts (j ++ j') = attempts j ++ attempts j' := by
  simp [attempts]

@[simp] theorem attempts_attempted (cause : Cause) (a : Actuation) (fault : Option BoardFault)
    (j : Journal) : attempts (.attempted cause a fault :: j) = ⟨cause, a, fault⟩ :: attempts j := rfl

@[simp] theorem attempts_noted (notice : Notice) (j : Journal) :
    attempts (.noted notice :: j) = attempts j := rfl

@[simp] theorem attempts_notices (notices : List Notice) :
    attempts (notices.map Entry.noted) = [] := by
  induction notices with
  | nil => rfl
  | cons notice notices ih => exact (attempts_noted notice _).trans ih

@[simp] theorem attempts_published (event : ChangeEvent) (j : Journal) :
    attempts (.published event :: j) = attempts j := rfl

end Journal

namespace CoilPanel

variable {p : CoilPanel} {cause : Cause} {a : Actuation}

def refuse (p : CoilPanel) (cause : Cause) (a : Actuation) (fault : BoardFault) : CoilPanel :=
  { p with journal := p.journal ++ [.attempted cause a (some fault)] }

def accept (p : CoilPanel) (cause : Cause) (a : Actuation) : CoilPanel :=
  { p with board := p.board.accept a, journal := p.journal ++ [.attempted cause a none] }

theorem send_of_fault {fault : BoardFault} (h : p.board.fault? a.coil = some fault) :
    p.send cause a = (.error (.unavailable fault.unavailable), p.refuse cause a fault) := by
  simp [send, Board.drive_of_fault h, refuse]

theorem send_of_no_fault (h : p.board.fault? a.coil = none) :
    p.send cause a = (.ok (), p.accept cause a) := by
  simp [send, Board.drive_of_no_fault h, accept]

end CoilPanel
end Playfield
