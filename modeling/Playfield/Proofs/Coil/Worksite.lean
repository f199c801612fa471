import Mathlib.Logic.Function.Basic
import Mathlib.Logic.Relation
import Playfield.Proofs.Coil.Job

/-! Many tasks at one coil panel. A worksite is the panel and the job that each task has in hand, whatever
else the tasks are about; its moves are what any mix of commands, sweeps, reports and queries does to the
coils. The locks are in order after every move: each is queued for by exactly the tasks that have asked
for it, and a coil that cools down is kept by its task. -/
namespace Playfield

structure Worksite where
  panel : CoilPanel
  jobs : TaskId → Option (CoilJob × CoilStage)

/-- What a task has in hand after a step of its job. -/
def CoilJob.inHand (job : CoilJob) (stage : CoilStage) :
    Progress CoilStage CoilJob.Result → Option (CoilJob × CoilStage)
  | .blocked => some (job, stage)
  | .next stage => some (job, stage)
  | .finished _ => none

namespace Worksite

def atRest (policy : CommandPolicy) (config : BoardConfig) : Worksite where
  panel := ⟨.empty policy, .ofConfig config, []⟩
  jobs _ := none

inductive Move (y : Worksite) : Worksite → Prop
  | takesUp {t job} : y.jobs t = none →
      Move y ⟨y.panel, Function.update y.jobs t (some (job, .start))⟩
  | works {t job stage progress p} (now : Nat) : y.jobs t = some (job, stage) →
      job.step t now stage y.panel = (progress, p) →
      Move y ⟨p, Function.update y.jobs t (job.inHand stage progress)⟩
  | drops {t job stage} : y.jobs t = some (job, stage) →
      Move y ⟨job.abandon t stage y.panel, Function.update y.jobs t none⟩
  | switches (online : Bool) :
      Move y ⟨{ y.panel with board := y.panel.board.setOnline online }, y.jobs⟩
  /-- The journal gets entries that are about no actuation. -/
  | notes {j} : Journal.attempts j = y.panel.journal.attempts →
      Move y ⟨{ y.panel with journal := j }, y.jobs⟩

/-- The worksites that any number of moves may lead to. -/
def Reaches : Worksite → Worksite → Prop := Relation.ReflTransGen Move

structure Orderly (y : Worksite) : Prop where
  numbered : y.panel.bank.Numbered
  tidy : ∀ c, (y.panel.bank.lock c).Tidy
  nodup : ∀ c, (y.panel.bank.lock c).queue.Nodup
  mem_queue : ∀ c t, t ∈ (y.panel.bank.lock c).queue ↔
    ∃ job stage, y.jobs t = some (job, stage) ∧ job.coil = c ∧ stage ≠ .start
  cooling : ∀ t job d, y.jobs t = some (job, .cooling d) →
    (y.panel.bank.lock job.coil).holder = some t

theorem orderly_atRest (policy : CommandPolicy) (config : BoardConfig) :
    (atRest policy config).Orderly where
  numbered := fun _ => rfl
  tidy := fun _ => Lock.tidy_free
  nodup := fun _ => List.nodup_nil
  mem_queue := by
    intro c t
    constructor
    · intro h
      cases h
    · rintro ⟨job, stage, h, -⟩
      cases h
  cooling := by
    intro t job d h
    cases h

namespace Orderly

variable {y : Worksite} (h : y.Orderly) {t : TaskId} {job : CoilJob} {stage : CoilStage}
  {p : CoilPanel}

include h

/-- What one task does keeps the locks in order, if it takes care of its own place in the queues and leaves
the places of the others as they are. -/
theorem update {u : Option (CoilJob × CoilStage)} (hn : p.bank.Numbered)
    (htidy : ∀ c, (p.bank.lock c).Tidy) (hnodup : ∀ c, (p.bank.lock c).queue.Nodup)
    (hself : ∀ c, t ∈ (p.bank.lock c).queue ↔
      ∃ job stage, u = some (job, stage) ∧ job.coil = c ∧ stage ≠ .start)
    (hcool : ∀ job d, u = some (job, .cooling d) → (p.bank.lock job.coil).holder = some t)
    (hothers : ∀ c s, s ≠ t →
      (s ∈ (p.bank.lock c).queue ↔ s ∈ (y.panel.bank.lock c).queue) ∧
        ((y.panel.bank.lock c).holder = some s → (p.bank.lock c).holder = some s)) :
    Orderly ⟨p, Function.update y.jobs t u⟩ := by
  refine ⟨hn, htidy, hnodup, ?_, ?_⟩
  · intro c s
    dsimp only
    by_cases hs : s = t
    · subst hs
      rw [Function.update_self]
      exact hself c
    · rw [Function.update_of_ne hs, ← h.mem_queue c s]
      exact (hothers c s hs).1
  · intro s job d hs
    dsimp only at hs ⊢
    by_cases hst : s = t
    · subst hst
      rw [Function.update_self] at hs
      exact hcool job d hs
    · rw [Function.update_of_ne hst] at hs
      exact (hothers job.coil s hst).2 (h.cooling s job d hs)

/-- Before a task has asked for a lock, what it has in hand does not count. -/
theorem idle {u : Option (CoilJob × CoilStage)} (hn : p.bank.Numbered)
    (hl : ∀ c, p.bank.lock c = y.panel.bank.lock c)
    (ht : ∀ x ∈ y.jobs t, x.2 = .start) (hu : ∀ x ∈ u, x.2 = .start) :
    Orderly ⟨p, Function.update y.jobs t u⟩ := by
  refine h.update hn (fun c => hl c ▸ h.tidy c) (fun c => hl c ▸ h.nodup c) ?_ ?_ ?_
  · intro c
    rw [hl c, h.mem_queue c t]
    constructor
    · rintro ⟨job, stage, hj, -, hne⟩
      exact absurd (ht _ hj) hne
    · rintro ⟨job, stage, hj, -, hne⟩
      exact absurd (hu _ hj) hne
  · intro job d hd
    cases hu _ hd
  · intro c s _
    rw [hl c]
    exact ⟨Iff.rfl, id⟩

theorem stays {stage' : CoilStage} (hn : p.bank.Numbered)
    (hl : ∀ c, p.bank.lock c = y.panel.bank.lock c) (ht : y.jobs t = some (job, stage))
    (hs : stage ≠ .start) (hs' : stage' ≠ .start)
    (hc : ∀ d, stage' = .cooling d → (y.panel.bank.lock job.coil).holder = some t) :
    Orderly ⟨p, Function.update y.jobs t (some (job, stage'))⟩ := by
  refine h.update hn (fun c => hl c ▸ h.tidy c) (fun c => hl c ▸ h.nodup c) ?_ ?_ ?_
  · intro c
    rw [hl c, h.mem_queue c t, ht]
    constructor
    · rintro ⟨j, g, hj, hcoil, -⟩
      cases hj
      exact ⟨_, _, rfl, hcoil, hs'⟩
    · rintro ⟨j, g, hj, hcoil, -⟩
      cases hj
      exact ⟨_, _, rfl, hcoil, hs⟩
  · intro j d hj
    cases hj
    rw [hl]
    exact hc d rfl
  · intro c s _
    rw [hl c]
    exact ⟨Iff.rfl, id⟩

/-- A task that asks for the lock of its coil is put at the end of the queue. -/
theorem arrives (hn : p.bank.Numbered)
    (hl : ∀ c, p.bank.lock c =
      if job.coil = c then (y.panel.bank.lock c).request t else y.panel.bank.lock c)
    (ht : y.jobs t = some (job, .start)) :
    Orderly ⟨p, Function.update y.jobs t (some (job, .inLine))⟩ := by
  have hout (c : CoilNumber) : t ∉ (y.panel.bank.lock c).queue := by
    rw [h.mem_queue]
    rintro ⟨j, g, hj, -, hne⟩
    cases ht.symm.trans hj
    exact hne rfl
  refine h.update hn ?_ ?_ ?_ ?_ ?_
  · intro c
    rw [hl c]
    split
    · exact Lock.tidy_request _ _
    · exact h.tidy c
  · intro c
    rw [hl c]
    split
    · rw [(h.tidy c).queue_request, List.nodup_append]
      exact ⟨h.nodup c, List.nodup_singleton t, fun a ha b hb hab =>
        hout c (List.mem_singleton.mp hb ▸ hab ▸ ha)⟩
    · exact h.nodup c
  · intro c
    rw [hl c]
    by_cases hc : job.coil = c
    · rw [if_pos hc, (h.tidy c).queue_request]
      simp [hc]
    · rw [if_neg hc]
      simp [hc, hout c]
  · intro j d hj
    cases hj
  · intro c s hst
    rw [hl c]
    split
    · rw [(h.tidy c).queue_request]
      exact ⟨by simp [hst], Lock.holder_request⟩
    · exact ⟨Iff.rfl, id⟩

/-- A task that leaves the lock of its coil has nothing in hand. -/
theorem departs (hn : p.bank.Numbered)
    (hl : ∀ c, p.bank.lock c =
      if job.coil = c then (y.panel.bank.lock c).leave t else y.panel.bank.lock c)
    (ht : y.jobs t = some (job, stage)) :
    Orderly ⟨p, Function.update y.jobs t none⟩ := by
  refine h.update hn ?_ ?_ ?_ ?_ ?_
  · intro c
    rw [hl c]
    split
    · exact (h.tidy c).leave t
    · exact h.tidy c
  · intro c
    rw [hl c]
    split
    · rw [Lock.queue_leave]
      exact (h.nodup c).erase t
    · exact h.nodup c
  · intro c
    have hout : t ∉ (p.bank.lock c).queue := by
      rw [hl c]
      split
      · rw [Lock.queue_leave]
        exact (h.nodup c).not_mem_erase
      · next hc =>
        rw [h.mem_queue]
        rintro ⟨j, g, hj, hcoil, -⟩
        cases ht.symm.trans hj
        exact hc hcoil
    simp [hout]
  · intro j d hj
    cases hj
  · intro c s hst
    rw [hl c]
    split
    · rw [Lock.queue_leave, List.mem_erase_of_ne hst]
      exact ⟨Iff.rfl, fun hh => Lock.holder_leave hh (Ne.symm hst)⟩
    · exact ⟨Iff.rfl, id⟩

theorem of_holder {c : CoilNumber} (hh : (y.panel.bank.lock c).holder = some t) :
    ∃ job stage, y.jobs t = some (job, stage) ∧ job.coil = c ∧ stage ≠ .start :=
  (h.mem_queue c t).mp (by simp [Lock.queue_of_holder hh])

/-- While a task has to do with a coil, some task has the lock of the coil. -/
theorem exists_holder (hj : y.jobs t = some (job, stage)) (hs : stage ≠ .start) :
    ∃ u, (y.panel.bank.lock job.coil).holder = some u := by
  have hserves : (y.panel.bank.lock job.coil).Serves fun u => ∃ j g,
      y.jobs u = some (j, g) ∧ j.coil = job.coil ∧ g ≠ .start :=
    ⟨h.tidy _, h.nodup _, h.mem_queue _⟩
  exact hserves.exists_holder ⟨job, stage, hj, rfl, hs⟩

/-- While a task has to do with a coil, the coil has a slot. -/
theorem mem_slots (hj : y.jobs t = some (job, stage)) (hs : stage ≠ .start) :
    job.coil ∈ y.panel.bank.slots := by
  obtain ⟨u, hu⟩ := h.exists_holder hj hs
  exact CoilBank.mem_of_holder hu

/-- Those behind the holder of a lock have yet to act. -/
theorem inLine_of_mem_line {c : CoilNumber} {u : TaskId} (hu : u ∈ (y.panel.bank.lock c).line) :
    ∃ job, y.jobs u = some (job, .inLine) ∧ job.coil = c := by
  have hq : u ∈ (y.panel.bank.lock c).queue := List.mem_append_right _ hu
  obtain ⟨job, stage, hj, rfl, hs⟩ := (h.mem_queue c u).mp hq
  cases stage with
  | start => exact absurd rfl hs
  | inLine => exact ⟨job, hj, rfl⟩
  | cooling d =>
      have hnd := h.nodup job.coil
      rw [Lock.queue_of_holder (h.cooling u job d hj)] at hnd
      exact absurd hu (List.nodup_cons.mp hnd).1

theorem numbered_put {k : Coil} {c : CoilNumber} (hk : k.number = c) :
    (y.panel.bank.put c k).Numbered := by
  intro n
  rw [CoilBank.coil_put]
  split
  · next hc => rw [hk, hc]
  · exact h.numbered n

/-- A task that finishes hands the lock on, which it held. -/
theorem releases (hn : p.bank.Numbered)
    (hl : ∀ c, p.bank.lock c =
      if job.coil = c then (y.panel.bank.lock c).release else y.panel.bank.lock c)
    (hh : (y.panel.bank.lock job.coil).holder = some t) (ht : y.jobs t = some (job, stage)) :
    Orderly ⟨p, Function.update y.jobs t none⟩ := by
  refine h.departs hn (fun c => ?_) ht
  rw [hl c]
  split
  · next hc => rw [Lock.leave_of_holder (hc ▸ hh)]
  · rfl

theorem works {now : Nat} {progress : Progress CoilStage CoilJob.Result}
    (ht : y.jobs t = some (job, stage)) (hs : job.StepsTo t now y.panel stage progress p) :
    Orderly ⟨p, Function.update y.jobs t (job.inHand stage progress)⟩ := by
  have hstart {g : CoilStage} (hg : g = .start) : ∀ x ∈ some (job, g), x.2 = .start := by
    rintro _ ⟨⟩
    exact hg
  have hnone : ∀ x ∈ (none : Option (CoilJob × CoilStage)), x.2 = .start := by
    rintro _ ⟨⟩
  have hk : (job.record (y.panel.bank.coil job.coil)).number = job.coil :=
    (job.number_record _).trans (h.numbered job.coil)
  cases hs with
  | readUnknown => exact h.idle h.numbered (fun _ => rfl) (ht ▸ hstart rfl) hnone
  | refused => exact h.idle h.numbered (fun _ => rfl) (ht ▸ hstart rfl) hnone
  | linesUp =>
      exact h.arrives (fun n => by simpa using h.numbered n) (fun c => by simp) ht
  | waits =>
      exact h.stays h.numbered (fun _ => rfl) ht (by simp) (by simp) (fun d hd => by cases hd)
  | silent hh =>
      exact h.releases (fun n => by simpa [CoilPanel.release] using h.numbered n)
        (fun c => by simp [CoilPanel.release]) hh ht
  | denied hh =>
      exact h.releases (fun n => by simpa using h.numbered n) (fun c => by simp) hh ht
  | served hh =>
      refine h.releases (fun n => ?_) (fun c => by simp) hh ht
      rw [CoilBank.coil_release]
      exact h.numbered_put hk n
  | pulsed hh =>
      exact h.stays (h.numbered_put hk) (fun c => by simp) ht (by simp) (by simp) (fun _ _ => hh)
  | cools =>
      exact h.stays h.numbered (fun _ => rfl) ht (by simp) (by simp)
        (fun _ _ => h.cooling t job _ ht)
  | leftOn =>
      exact h.releases (fun n => by simpa using h.numbered n) (fun c => by simp)
        (h.cooling t job _ ht) ht
  | disabled =>
      exact h.releases (fun n => by simpa using h.numbered n) (fun c => by simp)
        (h.cooling t job _ ht) ht

theorem drops (ht : y.jobs t = some (job, stage)) :
    Orderly ⟨job.abandon t stage y.panel, Function.update y.jobs t none⟩ := by
  cases stage with
  | start =>
      refine h.idle h.numbered (fun _ => rfl) ?_ (by rintro _ ⟨⟩)
      rw [ht]
      rintro _ ⟨⟩
      rfl
  | inLine =>
      exact h.departs (fun n => by simpa [CoilJob.abandon] using h.numbered n)
        (fun c => by simp [CoilJob.abandon]) ht
  | cooling d =>
      exact h.departs (fun n => by simpa [CoilJob.abandon] using h.numbered n)
        (fun c => by simp [CoilJob.abandon]) ht

theorem move {z : Worksite} (hm : y.Move z) : z.Orderly := by
  cases hm with
  | takesUp ht =>
      refine h.idle h.numbered (fun _ => rfl) ?_ ?_
      · rw [ht]
        rintro _ ⟨⟩
      · rintro _ ⟨⟩
        rfl
  | works now ht hs => exact h.works ht (.of_step h.numbered hs)
  | drops ht => exact h.drops ht
  | switches online => exact ⟨h.numbered, h.tidy, h.nodup, h.mem_queue, h.cooling⟩
  | notes hj => exact ⟨h.numbered, h.tidy, h.nodup, h.mem_queue, h.cooling⟩

theorem reaches {z : Worksite} (hr : y.Reaches z) : z.Orderly := by
  induction hr with
  | refl => exact h
  | tail _ hm ih => exact ih.move hm

theorem config_move {z : Worksite} (hm : y.Move z) :
    z.panel.board.config = y.panel.board.config := by
  cases hm with
  | takesUp => rfl
  | works now ht hs => exact (CoilJob.StepsTo.of_step h.numbered hs).config
  | @drops t job stage => cases stage <;> rfl
  | switches online => rfl
  | notes => rfl

theorem config_reaches {z : Worksite} (hr : y.Reaches z) :
    z.panel.board.config = y.panel.board.config := by
  induction hr with
  | refl => rfl
  | tail hr hm ih => rw [(h.reaches hr).config_move hm, ih]

end Orderly
end Worksite
end Playfield
