import Playfield.Proofs.Coil.Crew

/-! When a command is refused. Where commands are not queued, a command is refused only because another
job, which has asked for the lock of its coil and is not done, holds that lock. A job that reads the
coil can be the one, but only between the moment at which it gets the lock and its next step. -/
namespace Playfield

namespace CoilJob.StepsTo

variable {job : CoilJob} {me : TaskId} {now : Nat} {p q : CoilPanel} {stage : CoilStage}
  {progress : Progress CoilStage Result} {c : CoilNumber}

theorem of_busy (h : job.StepsTo me now p stage (.finished (.error (.busy c))) q) :
    stage = .start ∧ job.coil = c ∧ p.bank.policy = .reject ∧ (p.bank.lock c).isHeld = true := by
  cases h with
  | refused _ hp hb => exact ⟨rfl, rfl, hp, hb⟩

/-- A read that holds the lock of its coil is done with its next step. -/
theorem read_done (h : job.StepsTo me now p .inLine progress q) (hread : job.isRead = true)
    (hh : (p.bank.lock job.coil).holder = some me) :
    progress = .finished (.ok (p.bank.coil job.coil)) := by
  obtain ⟨rfl, -⟩ := h.turn hh
  cases job with
  | read n => rfl
  | _ => cases hread

end CoilJob.StepsTo

namespace CoilJob

/-- A read never keeps its coil for a time. -/
theorem read_not_cooling {c : CoilNumber} {me : TaskId} {now : Nat} {stage stage' : CoilStage}
    {p q : CoilPanel} (h : (CoilJob.read c).step me now stage p = (.next stage', q)) :
    stage' = .inLine := by
  cases stage with
  | start =>
      simp only [step, enter] at h
      split at h
      · cases h
        rfl
      · cases h
  | inLine =>
      simp only [step] at h
      split at h
      · cases h
      · cases h
  | cooling d =>
      simp only [step, coolDown] at h
      split at h
      · split at h <;> cases h
      · cases h

end CoilJob

namespace Crew

variable (policy : CommandPolicy) (config : BoardConfig) {t : TaskId} {job : CoilJob}
  {stage : CoilStage}

theorem eq_finished_of_results {w : Crew} {p : CoilPanel}
    {progress : Progress CoilStage CoilJob.Result} {r : CoilJob.Result}
    (hnew : w.results[t]? = none) (h : (w.onward t job p progress).results[t]? = some r) :
    progress = .finished r := by
  cases progress with
  | blocked => cases hnew.symm.trans h
  | next stage => cases hnew.symm.trans h
  | finished r' => rw [Option.some.inj (results_onward_finished.symm.trans h)]

theorem stage_of_read {events : List (Event CoilJob Bool)}
    (h : (scene.run (atRest policy config) events).running[t]? = some (job, stage))
    (hread : job.isRead = true) : stage = .start ∨ stage = .inLine := by
  have hstep (j : CoilJob) (id : TaskId) (now : Nat) (task task' : CoilJob × CoilStage)
      (p q : CoilPanel) (hs : CoilJob.workings.step id now task p = (.next task', q)) :
      task'.1.isRead = true → task'.2 = .start ∨ task'.2 = .inLine := by
    intro hr
    simp only [CoilJob.workings] at hs
    rcases hg : task.1.step id now task.2 p with ⟨progress, r⟩
    rw [hg] at hs
    cases progress with
    | blocked => cases hs
    | finished r => cases hs
    | next stage =>
        cases hs
        rcases task with ⟨job, g⟩
        cases job with
        | read n => exact .inr (CoilJob.read_not_cooling hg)
        | _ => cases hr
  obtain ⟨-, -, hq⟩ := scene.run_origin
    (Q := fun _ task => task.1.isRead = true → task.2 = .start ∨ task.2 = .inLine)
    (fun _ _ => .inl rfl) (fun j id now task task' p q _ => hstep j id now task task' p q) _ events h
  exact hq hread

/-- A command is refused only because of another job that has started on its coil and is not done yet.
If that is a read, then its next step would be its last. -/
theorem busy_only_behind_another (events : List (Event CoilJob Bool)) (e : Event CoilJob Bool)
    {c : CoilNumber} (hnew : (scene.run (atRest policy config) events).results[t]? = none)
    (hbusy : (scene.run (atRest policy config) (events ++ [e])).results[t]? =
      some (.error (.busy c))) :
    let w := scene.run (atRest policy config) events
    e = .step t ∧ w.state.bank.policy = .reject ∧
      ∃ u job stage, u ≠ t ∧ w.running[u]? = some (job, stage) ∧ job.coil = c ∧ stage ≠ .start ∧
        (w.state.bank.lock c).holder = some u ∧
        (job.isRead = true → ∃ k, (w.step CoilJob.workings u).results[u]? = some (.ok k)) := by
  intro w
  have hg : (site w).Good := run_good policy config events
  rw [scene.run_append] at hbusy
  obtain ⟨rfl, ⟨job, stage⟩, hr, -⟩ := scene.finished_of_results hnew hbusy
  obtain ⟨progress, p, hst, hw⟩ := step_stepsTo hg.orderly.numbered hr
  have hres : (onward w t job p progress).results[t]? = some (.error (.busy c)) :=
    (congrArg (fun z : Crew => z.results[t]?) hw).symm.trans hbusy
  obtain rfl := eq_finished_of_results hnew hres
  obtain ⟨rfl, rfl, hp, hb⟩ := hst.of_busy
  obtain ⟨u, hu⟩ : ∃ u, (w.state.bank.lock job.coil).holder = some u := Option.isSome_iff_exists.mp hb
  obtain ⟨j, g, hj, hc, hne⟩ := hg.orderly.of_holder hu
  refine ⟨rfl, hp, u, j, g, ?_, hj, hc, hne, hu, ?_⟩
  · -- the task of the refused command has not asked for the lock
    rintro rfl
    cases hr.symm.trans hj
    exact hne rfl
  · intro hread
    obtain rfl | rfl := stage_of_read policy config hj hread
    · exact absurd rfl hne
    · obtain ⟨progress', p', hst', hw'⟩ := step_stepsTo hg.orderly.numbered hj
      obtain rfl := hst'.read_done hread (hc ▸ hu)
      rw [hw']
      exact ⟨_, results_onward_finished⟩

/-- A query asks for a coil that is pulsed; when the pulse ends it is handed the lock, and before its next
step the task 3 asks to disable the coil. -/
def handedToQuery (c : CoilNumber) : List (Event CoilJob Bool) :=
  [.call (.enable ⟨c, 10, ⟨1.0⟩, ⟨0.5⟩⟩), .step 0, .step 0, .call (.pulse ⟨c, 10, ⟨1.0⟩⟩), .step 1, .step 1,
    .call (.read c), .step 2, .pass 10, .step 1, .call (.disable c)]

/-- A read is enough for a refusal: the pulse is over, and besides the refused command only the query goes
on. -/
theorem busy_for_a_query :
    let run := scene.run (atRest .reject .default)
    let c : CoilNumber := ⟨"C1", by decide⟩
    (run (handedToQuery c)).running.toList =
        [(2, .read c, .inLine), (3, .disable c, .start)] ∧
      ((run (handedToQuery c)).state.bank.coil c).enabled = false ∧
      (run (handedToQuery c ++ [.step 3])).results[3]? = some (.error (.busy c)) := by
  intro run c
  refine ⟨?_, ?_, ?_⟩
  all_goals decide +kernel

end Crew
end Playfield
