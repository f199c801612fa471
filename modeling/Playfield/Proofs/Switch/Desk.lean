import Mathlib.Logic.Function.Basic
import Playfield.Proofs.Lock
import Playfield.Proofs.Switch.History

/-! One switch with everybody who has to do with it. Its desk is the switch, its lock, what was published
about it and what each task is there for; the moves at the desk are what reports and queries do. As long
as nobody goes away with a change that is not published, the switch shows what was published. -/
namespace Playfield

/-- What a task is at a switch for. -/
inductive Errand where
  /-- It has asked for the lock. -/
  | asks
  /-- It has changed the switch, and keeps the lock until the change is published. -/
  | changes (flip : Flip)
deriving DecidableEq, Repr

structure SwitchDesk where
  switch : Switch
  lock : Lock
  events : List ChangeEvent
  errands : TaskId → Option Errand

namespace SwitchDesk

def flips (y : SwitchDesk) : List Flip := y.events.map (·.flip)

def atRest (n : SwitchNumber) : SwitchDesk := ⟨.inactive n, .free, [], fun _ => none⟩

inductive Move (y : SwitchDesk) : SwitchDesk → Prop
  | arrives {t} : y.errands t = none →
      Move y { y with
        lock := y.lock.request t, errands := Function.update y.errands t (some .asks) }
  /-- A task has read the switch, was refused, or does not want to wait any longer. -/
  | leaves {t} : y.errands t = some .asks →
      Move y { y with lock := y.lock.leave t, errands := Function.update y.errands t none }
  | repeats {t timestamp} : y.errands t = some .asks → y.lock.holder = some t →
      y.switch.IsTimely timestamp →
      Move y { y with
        switch := y.switch.repeated timestamp
        lock := y.lock.release
        errands := Function.update y.errands t none }
  | changes {t flip} : y.errands t = some .asks → y.lock.holder = some t →
      y.switch.IsTimely flip.2 → y.switch.isActive = !flip.1 →
      Move y { y with
        switch := y.switch.changed flip
        errands := Function.update y.errands t (some (.changes flip)) }
  | publishes {t event} : y.errands t = some (.changes event.flip) →
      Move y { y with
        lock := y.lock.release
        events := y.events ++ [event]
        errands := Function.update y.errands t none }

/-- A task goes away though it has changed the switch and has not published that. -/
inductive Loss (y : SwitchDesk) (t : TaskId) : SwitchDesk → Prop
  | mk {flip} : y.errands t = some (.changes flip) →
      Loss y t { y with lock := y.lock.leave t, errands := Function.update y.errands t none }

/-- Exactly the tasks with an errand are at the lock, and whoever has a change to publish holds it. -/
structure Manned (y : SwitchDesk) : Prop where
  serves : y.lock.Serves fun t => y.errands t ≠ none
  keeps : ∀ t flip, y.errands t = some (.changes flip) → y.lock.holder = some t

/-- The switch shows what was published, and a change that is still to be published. -/
structure Candid (y : SwitchDesk) : Prop where
  settled : (∀ t flip, y.errands t ≠ some (.changes flip)) → y.switch.Tells y.flips
  pending : ∀ t flip, y.errands t = some (.changes flip) → y.switch.Tells (y.flips ++ [flip])

theorem manned_atRest (n : SwitchNumber) : (atRest n).Manned where
  serves := Lock.serves_free.congr fun _ => by simp [atRest]
  keeps := by
    intro t flip h
    cases h

theorem candid_atRest (n : SwitchNumber) : (atRest n).Candid where
  settled := fun _ => Switch.tells_inactive n
  pending := by
    intro t flip h
    cases h

theorem Move.congr {y z z' : SwitchDesk} (h : y.Move z) (hz : z' = z) : y.Move z' := hz ▸ h

theorem Move.number {y z : SwitchDesk} (h : y.Move z) : z.switch.number = y.switch.number := by
  cases h <;> rfl

theorem Loss.number {y z : SwitchDesk} {t : TaskId} (h : y.Loss t z) :
    z.switch.number = y.switch.number := by
  cases h
  rfl

theorem Loss.errand {y z : SwitchDesk} {t : TaskId} (h : y.Loss t z) :
    ∃ flip, y.errands t = some (.changes flip) := by
  cases h with
  | mk ht => exact ⟨_, ht⟩

theorem flips_concat (y : SwitchDesk) (event : ChangeEvent) :
    (y.events ++ [event]).map (·.flip) = y.flips ++ [event.flip] := by
  rw [List.map_append]
  rfl

/-- Which errand a task is on after another one has taken its place. -/
theorem of_update {y : SwitchDesk} {t u : TaskId} {e : Option Errand} {flip : Flip}
    (he : e ≠ some (.changes flip))
    (h : Function.update y.errands t e u = some (.changes flip)) :
    u ≠ t ∧ y.errands u = some (.changes flip) := by
  by_cases hu : u = t
  · rw [hu, Function.update_self] at h
    exact absurd h he
  · rw [Function.update_of_ne hu] at h
    exact ⟨hu, h⟩

theorem asked_update (y : SwitchDesk) {t : TaskId} {e : Errand} (v : TaskId) :
    Function.update y.errands t (some e) v ≠ none ↔ v = t ∨ y.errands v ≠ none := by
  by_cases hv : v = t <;> simp [hv, Function.update_of_ne]

theorem asked_remove (y : SwitchDesk) {t : TaskId} (v : TaskId) :
    Function.update y.errands t none v ≠ none ↔ v ≠ t ∧ y.errands v ≠ none := by
  by_cases hv : v = t <;> simp [hv, Function.update_of_ne]

namespace Manned

variable {y z : SwitchDesk} (h : y.Manned) {t u : TaskId} {flip : Flip}

include h

/-- Only the holder of the lock has a change to publish. -/
theorem eq_of_holder (ht : y.lock.holder = some t) (hu : y.errands u = some (.changes flip)) :
    u = t :=
  Option.some.inj ((h.keeps u flip hu).symm.trans ht)

/-- While somebody who asks holds the lock, no change is on its way. -/
theorem no_change (ht : y.lock.holder = some t) (ha : y.errands t = some .asks) :
    y.errands u ≠ some (.changes flip) := by
  intro hu
  cases h.eq_of_holder ht hu
  cases ha.symm.trans hu

theorem leave :
    Manned { y with lock := y.lock.leave t, errands := Function.update y.errands t none } where
  serves := h.serves.leave y.asked_remove
  keeps := by
    intro u flip hu
    obtain ⟨hne, hu⟩ := of_update (by simp) hu
    exact Lock.holder_leave (h.keeps u flip hu) hne.symm

theorem release (ht : y.lock.holder = some t) {x : Switch} {events : List ChangeEvent} :
    Manned ⟨x, y.lock.release, events, Function.update y.errands t none⟩ := by
  rw [← Lock.leave_of_holder ht]
  exact ⟨h.leave.serves, h.leave.keeps⟩

theorem move (hm : y.Move z) : z.Manned := by
  cases hm with
  | arrives ht =>
      refine ⟨h.serves.request (fun hn => hn ht) y.asked_update, ?_⟩
      intro u flip hu
      obtain ⟨-, hu⟩ := of_update (by simp) hu
      exact Lock.holder_request (h.keeps u flip hu)
  | leaves ht => exact h.leave
  | repeats ht hh => exact h.release hh
  | @changes t flip ht hh =>
      refine ⟨h.serves.congr fun u => ?_, ?_⟩
      · rw [y.asked_update]
        refine or_iff_right_of_imp ?_
        rintro rfl
        simp [ht]
      · intro u flip' hu
        dsimp only at hu
        by_cases hut : u = t
        · rw [hut]
          exact hh
        · rw [Function.update_of_ne hut] at hu
          exact h.keeps u flip' hu
  | publishes ht => exact h.release (h.keeps _ _ ht)

theorem loss (hl : y.Loss t z) : z.Manned := by
  cases hl
  exact h.leave

end Manned

namespace Candid

variable {y z : SwitchDesk} (h : y.Candid) {t : TaskId}

include h

theorem tells_of_holder (hm : y.Manned) (ht : y.lock.holder = some t)
    (ha : y.errands t = some .asks) : y.switch.Tells y.flips :=
  h.settled fun _ _ => hm.no_change ht ha

/-- What was published alternates and is in order, also while there is a change to be published. -/
theorem tells_some : ∃ (x : Switch) (flips : List Flip), x.Tells (y.flips ++ flips) := by
  by_cases hp : ∃ t flip, y.errands t = some (.changes flip)
  · obtain ⟨t, flip, ht⟩ := hp
    exact ⟨_, _, h.pending t flip ht⟩
  · refine ⟨y.switch, [], ?_⟩
    rw [List.append_nil]
    exact h.settled fun t flip ht => hp ⟨t, flip, ht⟩

/-- Somebody without a change to publish comes or goes. -/
theorem update {lock : Lock} {e : Option Errand} (he : ∀ flip, e ≠ some (.changes flip))
    (ht : ∀ flip, y.errands t ≠ some (.changes flip)) :
    Candid { y with lock, errands := Function.update y.errands t e } where
  settled := by
    intro hn
    refine h.settled fun u flip hu => ?_
    by_cases hut : u = t
    · exact ht flip (hut ▸ hu)
    · refine hn u flip ?_
      dsimp only
      rwa [Function.update_of_ne hut]
  pending := by
    intro u flip hu
    exact h.pending u flip (of_update (he flip) hu).2

theorem move (hm : y.Manned) (hz : y.Move z) : z.Candid := by
  cases hz with
  | arrives ht => exact h.update (by simp) (by simp [ht])
  | leaves ht => exact h.update (by simp) (by simp [ht])
  | repeats ht hh htimely =>
      refine ⟨fun _ => (h.tells_of_holder hm hh ht).repeated htimely, ?_⟩
      intro u flip hu
      exact absurd (of_update (by simp) hu).2 (hm.no_change hh ht)
  | @changes t flip ht hh htimely hflip =>
      have htells := (h.tells_of_holder hm hh ht).changed htimely hflip
      refine ⟨fun hn => absurd (Function.update_self t _ y.errands) (hn t flip), ?_⟩
      intro u flip' hu
      dsimp only at hu
      by_cases hut : u = t
      · subst hut
        rw [Function.update_self] at hu
        cases hu
        exact htells
      · rw [Function.update_of_ne hut] at hu
        exact absurd hu (hm.no_change hh ht)
  | @publishes t event ht =>
      refine ⟨fun _ => ?_, ?_⟩
      · rw [flips, flips_concat]
        exact h.pending t _ ht
      · intro u flip hu
        obtain ⟨hne, hu⟩ := of_update (by simp) hu
        exact absurd (hm.eq_of_holder (hm.keeps _ _ ht) hu) hne

end Candid
end SwitchDesk
end Playfield
