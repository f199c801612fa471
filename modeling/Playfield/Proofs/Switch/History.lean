import Mathlib.Data.List.Induction
import Playfield.Notice
import Playfield.Switch

/-! The history of a switch. A report is refused, repeats the state or changes it; the changes alternate and
come in the order of their timestamps, and a switch shows the last of them. -/
namespace Playfield

/-- What a switch turned to, and when. -/
abbrev Flip := Bool × UInt64

def ChangeEvent.flip (e : ChangeEvent) : Flip := (e.isActive, e.timestamp)

def Entry.event? : Entry → Option ChangeEvent
  | .published event => some event
  | .attempted .. | .noted _ => none

namespace Journal

/-- Every change that was published, oldest first. -/
def published (j : Journal) : List ChangeEvent := j.filterMap Entry.event?

/-- The published changes of one switch. -/
def changesOf (j : Journal) (s : SwitchNumber) : List ChangeEvent :=
  j.published.filter fun e => decide (e.switch = s)

@[simp] theorem published_nil : published [] = [] := rfl

@[simp] theorem published_append (j j' : Journal) :
    published (j ++ j') = published j ++ published j' := by
  simp [published]

@[simp] theorem published_attempted (cause : Cause) (a : Actuation) (fault : Option BoardFault)
    (j : Journal) : published (.attempted cause a fault :: j) = published j := rfl

@[simp] theorem published_noted (notice : Notice) (j : Journal) :
    published (.noted notice :: j) = published j := rfl

@[simp] theorem published_notices (notices : List Notice) :
    published (notices.map Entry.noted) = [] := by
  induction notices with
  | nil => rfl
  | cons notice notices ih => exact (published_noted notice _).trans ih

@[simp] theorem published_published (event : ChangeEvent) (j : Journal) :
    published (.published event :: j) = event :: published j := rfl

theorem changesOf_congr {j j' : Journal} (h : j'.published = j.published) (s : SwitchNumber) :
    j'.changesOf s = j.changesOf s := by
  rw [changesOf, changesOf, h]

end Journal

namespace Switch

/-- A report of the moment `timestamp` is not older than the last accepted one. -/
def IsTimely (x : Switch) (timestamp : UInt64) : Prop :=
  ∀ last, x.lastReportedAt = some last → last ≤ timestamp

/-- A switch that was reported in its present state. -/
def repeated (x : Switch) (timestamp : UInt64) : Switch := { x with lastReportedAt := some timestamp }

/-- A switch that has changed. -/
def changed (x : Switch) (flip : Flip) : Switch :=
  { x with isActive := flip.1, lastChangedAt := some flip.2, lastReportedAt := some flip.2 }

/-- What a report comes to. -/
inductive Reported (x : Switch) (flip : Flip) : Except StaleReport (Bool × Switch) → Prop
  | stale {last} : x.lastReportedAt = some last → flip.2 < last →
      Reported x flip (.error ⟨x.number, flip.2, last⟩)
  | repeats : x.IsTimely flip.2 → x.isActive = flip.1 → Reported x flip (.ok (false, x.repeated flip.2))
  | changes : x.IsTimely flip.2 → x.isActive = !flip.1 → Reported x flip (.ok (true, x.changed flip))

theorem report_reported (x : Switch) (flip : Flip) : x.Reported flip (x.report flip.1 flip.2) := by
  cases hf : x.lastReportedAt.filter (flip.2 < ·) with
  | some last =>
      obtain ⟨hl, ht⟩ := Option.filter_eq_some_iff.mp hf
      rw [report, hf]
      exact .stale hl (of_decide_eq_true ht)
  | none =>
      have htimely : x.IsTimely flip.2 := by
        intro last hl
        rw [hl, Option.filter_some, ite_eq_right_iff] at hf
        by_contra hlt
        cases hf (decide_eq_true (UInt64.not_le.mp hlt))
      by_cases ha : x.isActive = flip.1
      · rw [report, hf]
        dsimp only
        rw [if_pos ha]
        exact .repeats htimely ha
      · rw [report, hf]
        dsimp only
        rw [if_neg ha]
        exact .changes htimely (Bool.eq_not_of_ne ha)

theorem Reported.number {x y : Switch} {flip : Flip} {changed : Bool}
    (h : x.Reported flip (.ok (changed, y))) : y.number = x.number := by
  cases h <;> rfl

/-- The flips of a switch alternate from the first activation on and come in the order of time, and the
switch shows the last of them. -/
structure Tells (x : Switch) (flips : List Flip) : Prop where
  alternating : ∀ i flip, flips[i]? = some flip → flip.1 = decide (i % 2 = 0)
  ordered : flips.Pairwise (·.2 ≤ ·.2)
  isActive : x.isActive = flips.getLast?.any (·.1)
  lastChangedAt : x.lastChangedAt = flips.getLast?.map (·.2)
  reported : ∀ c, x.lastChangedAt = some c → ∃ r, x.lastReportedAt = some r ∧ c ≤ r

theorem tells_inactive (n : SwitchNumber) : (inactive n).Tells [] where
  alternating := by
    intro i flip h
    cases h
  ordered := .nil
  isActive := rfl
  lastChangedAt := rfl
  reported := by
    intro c h
    cases h

namespace Tells

variable {x : Switch} {flips : List Flip} (h : x.Tells flips) {flip : Flip}

include h

theorem repeated {timestamp : UInt64} (ht : x.IsTimely timestamp) :
    (x.repeated timestamp).Tells flips where
  alternating := h.alternating
  ordered := h.ordered
  isActive := h.isActive
  lastChangedAt := h.lastChangedAt
  reported := by
    intro c hc
    obtain ⟨r, hr, hle⟩ := h.reported c hc
    exact ⟨timestamp, rfl, UInt64.le_trans hle (ht r hr)⟩

/-- Whether a switch is active tells how many flips it has taken. -/
theorem parity : x.isActive = !decide (flips.length % 2 = 0) := by
  rw [h.isActive]
  cases flips using List.reverseRecOn with
  | nil => rfl
  | append_singleton flips last _ =>
      have hl := h.alternating flips.length last (by simp)
      rw [List.getLast?_concat, Option.any_some, hl, List.length_append,
        List.length_singleton, Nat.add_mod]
      rcases Nat.mod_two_eq_zero_or_one flips.length with he | he <;> simp [he]

theorem le_of_mem (ht : x.IsTimely flip.2) {earlier : Flip} (hm : earlier ∈ flips) :
    earlier.2 ≤ flip.2 := by
  cases flips using List.reverseRecOn with
  | nil => cases hm
  | append_singleton flips last _ =>
      obtain ⟨r, hr, hle⟩ := h.reported last.2 (by rw [h.lastChangedAt]; simp)
      have hlast : last.2 ≤ flip.2 := UInt64.le_trans hle (ht r hr)
      rcases List.mem_append.mp hm with hm | hm
      · exact UInt64.le_trans ((List.pairwise_append.mp h.ordered).2.2 _ hm last (by simp)) hlast
      · rw [List.mem_singleton.mp hm]
        exact hlast

theorem changed (ht : x.IsTimely flip.2) (ha : x.isActive = !flip.1) :
    (x.changed flip).Tells (flips ++ [flip]) where
  alternating := by
    intro i later hi
    rw [List.getElem?_append] at hi
    split at hi
    · exact h.alternating i later hi
    · next hlt =>
      have hlen : i = flips.length := by
        have hone := (List.getElem?_eq_some_iff.mp hi).1
        rw [List.length_singleton] at hone
        omega
      rw [hlen, Nat.sub_self, List.getElem?_cons_zero] at hi
      cases hi
      rw [hlen, ← Bool.not_inj_iff, ← ha]
      exact h.parity
  ordered := by
    refine List.pairwise_append.mpr ⟨h.ordered, List.pairwise_singleton _ _, ?_⟩
    intro earlier he later hl
    rw [List.mem_singleton.mp hl]
    exact h.le_of_mem ht he
  isActive := by simp [Switch.changed]
  lastChangedAt := by simp [Switch.changed]
  reported := by
    intro c hc
    cases hc
    exact ⟨flip.2, rfl, UInt64.le_refl _⟩

end Tells
end Switch
end Playfield
