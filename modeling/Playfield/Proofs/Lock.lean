import Mathlib.Data.List.Nodup
import Playfield.Lock

/-! A lock seen as one queue: its holder, and behind the holder the others in the order of arrival.
Requests come in at the end, and the lock is handed on at the front. -/
namespace Playfield.Lock

/-- Everybody at the lock, the holder first. -/
def queue (l : Lock) : List TaskId := l.holder.toList ++ l.line

/-- Nobody waits for a lock that is free. -/
def Tidy (l : Lock) : Prop := l.holder = none → l.line = []

theorem tidy_free : Lock.free.Tidy := fun _ => rfl

theorem queue_of_holder {l : Lock} {t : TaskId} (h : l.holder = some t) :
    l.queue = t :: l.line := by
  simp [queue, h]

theorem tidy_request (l : Lock) (t : TaskId) : (l.request t).Tidy := by
  intro hn
  cases hh : l.holder with
  | none => simp [Lock.request, hh] at hn
  | some u => simp [Lock.request, hh] at hn

theorem Tidy.queue_request {l : Lock} (h : l.Tidy) (t : TaskId) :
    (l.request t).queue = l.queue ++ [t] := by
  cases hh : l.holder with
  | none => simp [Lock.request, queue, hh, h hh]
  | some u => simp [Lock.request, queue, hh]

theorem tidy_release (l : Lock) : l.release.Tidy := by
  intro hn
  cases hl : l.line with
  | nil => simp [release, hl]
  | cons t rest => simp [release, hl] at hn

@[simp] theorem queue_release (l : Lock) : l.release.queue = l.line := by
  cases hl : l.line <;> simp [release, queue, hl]

theorem Tidy.leave {l : Lock} (h : l.Tidy) (t : TaskId) : (l.leave t).Tidy := by
  unfold Lock.leave
  split
  · exact tidy_release l
  · intro hn
    simp only [h hn, List.erase_nil]

theorem queue_leave (l : Lock) (t : TaskId) : (l.leave t).queue = l.queue.erase t := by
  unfold Lock.leave
  split
  · next hh => rw [queue_release, queue_of_holder hh, List.erase_cons_head]
  · next hh =>
    cases hl : l.holder with
    | none => simp [queue, hl]
    | some u =>
      have hut : u ≠ t := fun e => hh (by rw [hl, e])
      simp [queue, hl, hut]

theorem leave_of_holder {l : Lock} {t : TaskId} (h : l.holder = some t) : l.leave t = l.release := by
  simp [Lock.leave, h]

theorem holder_leave {l : Lock} {t u : TaskId} (h : l.holder = some u) (ht : t ≠ u) :
    (l.leave t).holder = some u := by
  have hn : l.holder ≠ some t := fun e => ht (Option.some.inj (e.symm.trans h))
  rw [Lock.leave, if_neg hn, h]

theorem holder_request {l : Lock} {t u : TaskId} (h : l.holder = some u) :
    (l.request t).holder = some u := by
  simp [Lock.request, h]

/-- The lock goes to a task that is already in line, or nobody is left. -/
theorem holder_release_mem {l : Lock} {t : TaskId} (h : l.release.holder = some t) : t ∈ l.line := by
  simpa [release] using List.mem_of_mem_head? h

/-- The lock is queued for by exactly the tasks that have asked for it, each in one place. -/
structure Serves (l : Lock) (asked : TaskId → Prop) : Prop where
  tidy : l.Tidy
  nodup : l.queue.Nodup
  mem_queue : ∀ t, t ∈ l.queue ↔ asked t

theorem serves_free : free.Serves fun _ => False where
  tidy := tidy_free
  nodup := List.nodup_nil
  mem_queue := by
    intro t
    simp [queue, free]

namespace Serves

variable {l : Lock} {asked asked' : TaskId → Prop} {t : TaskId} (h : l.Serves asked)

include h

theorem congr (ha : ∀ u, asked' u ↔ asked u) : l.Serves asked' :=
  ⟨h.tidy, h.nodup, fun u => (h.mem_queue u).trans (ha u).symm⟩

theorem request (ht : ¬asked t) (ha : ∀ u, asked' u ↔ u = t ∨ asked u) :
    (l.request t).Serves asked' where
  tidy := tidy_request l t
  nodup := by
    rw [h.tidy.queue_request, List.nodup_append]
    refine ⟨h.nodup, List.nodup_singleton t, ?_⟩
    intro u hu v hv huv
    rw [List.mem_singleton] at hv
    subst huv hv
    exact ht ((h.mem_queue _).mp hu)
  mem_queue := by
    intro u
    rw [h.tidy.queue_request, List.mem_append, List.mem_singleton, h.mem_queue, ha]
    exact or_comm

theorem leave (ha : ∀ u, asked' u ↔ u ≠ t ∧ asked u) : (l.leave t).Serves asked' where
  tidy := h.tidy.leave t
  nodup := by
    rw [queue_leave]
    exact h.nodup.erase t
  mem_queue := by
    intro u
    rw [queue_leave, h.nodup.mem_erase_iff, h.mem_queue, ha]

theorem of_holder (ht : l.holder = some t) : asked t :=
  (h.mem_queue t).mp (by simp [queue_of_holder ht])

/-- While somebody has asked for the lock, somebody holds it. -/
theorem exists_holder (ht : asked t) : ∃ u, l.holder = some u := by
  cases hl : l.holder with
  | some u => exact ⟨u, rfl⟩
  | none =>
    have hq : t ∈ l.queue := (h.mem_queue t).mpr ht
    rw [queue, hl, h.tidy hl] at hq
    cases hq

end Serves

section Rename

/-- The lock with other identities in the place of the tasks'. -/
def rename (r : TaskId → TaskId) (l : Lock) : Lock := ⟨l.holder.map r, l.line.map r⟩

variable {r : TaskId → TaskId} {l : Lock} {t : TaskId}

theorem isHeld_rename : (l.rename r).isHeld = l.isHeld := by
  simp [isHeld, rename]

theorem rename_request : (l.request t).rename r = (l.rename r).request (r t) := by
  cases hl : l.holder <;> simp [request, rename, hl]

theorem rename_release : l.release.rename r = (l.rename r).release := by
  simp [release, rename, List.head?_map, List.map_tail]

theorem holder_rename (h : ∀ u ∈ l.queue, r u = r t → u = t) :
    (l.rename r).holder = some (r t) ↔ l.holder = some t := by
  rw [rename, Option.map_eq_some_iff]
  constructor
  · rintro ⟨u, hu, hr⟩
    rw [hu, h u (by simp [queue_of_holder hu]) hr]
  · exact fun ht => ⟨t, ht, rfl⟩

theorem map_erase {line : List TaskId} (h : ∀ u ∈ line, r u = r t → u = t) :
    (line.erase t).map r = (line.map r).erase (r t) := by
  induction line with
  | nil => rfl
  | cons u line ih =>
    obtain ⟨hu, hline⟩ := List.forall_mem_cons.mp h
    by_cases he : u = t
    · subst he
      simp
    · have hr : r u ≠ r t := fun hr => he (hu hr)
      simp [he, hr, ih hline]

/-- A task leaves the lock under its other identity, if nobody else there has the same. -/
theorem rename_leave (h : ∀ u ∈ l.queue, r u = r t → u = t) :
    (l.leave t).rename r = (l.rename r).leave (r t) := by
  by_cases hh : l.holder = some t
  · rw [leave_of_holder hh, rename_release, leave_of_holder ((holder_rename h).mpr hh)]
  · rw [leave, if_neg hh, leave, if_neg (mt (holder_rename h).mp hh)]
    have hline : ∀ u ∈ l.line, r u = r t → u = t := fun u hu => h u (List.mem_append_right _ hu)
    simp only [rename, map_erase hline]

end Rename
end Playfield.Lock
