import Mathlib.Algebra.GroupWithZero.Nat
import Mathlib.Algebra.Order.BigOperators.Group.Finset
import Mathlib.Algebra.Order.Monoid.Prod
import Playfield.Proofs.Platform.Waiting

/-! Calls come to an end. While a task is at work, some task can go on, if need be once time has passed, and
every step takes a task nearer to its end. So whatever goes on can be brought to an end by steps alone. -/
namespace Playfield

/-- How many steps a stage is from the end of its job, at most. -/
def CoilStage.left : CoilStage → ℕ
  | .start => 3
  | .inLine => 2
  | .cooling _ => 1

theorem CoilStage.left_pos (stage : CoilStage) : 0 < stage.left := by
  cases stage <;> simp [left]

namespace CoilJob

variable {job : CoilJob} {me : TaskId} {now : ℕ} {stage stage' : CoilStage} {p q : CoilPanel}

theorem left_step (hn : p.bank.Numbered) (h : job.step me now stage p = (.next stage', q)) :
    stage'.left < stage.left := by
  cases StepsTo.of_step hn h with
  | linesUp => simp [CoilStage.left]
  | pulsed => simp [CoilStage.left]

end CoilJob

namespace Task

/-- How far a task is from its end. How much there is to do for a call or a report shows only once it has
begun. -/
def toil : Task → ℕ ×ₗ ℕ
  | .start _ => toLex (2, 0)
  | .report _ .inLine => toLex (1, 0)
  | .report _ (.firing rules stage) => toLex (0, 4 * rules.length + stage.left)
  | .coil _ stage => toLex (0, stage.left)
  | .sweep s => toLex (0, 4 * s.targets.length + s.stage.left)
  | .readSwitch _ => toLex (0, 1)
  | .snapshot _ rest inLine => toLex (0, 2 * rest.length + if inLine then 1 else 2)

theorem toil_pos (task : Task) : 0 < task.toil := by
  change toLex (0, 0) < task.toil
  match task with
  | .start _ => exact Prod.Lex.toLex_lt_toLex.mpr (.inl (by decide))
  | .report _ .inLine => exact Prod.Lex.toLex_lt_toLex.mpr (.inl (by decide))
  | .report _ (.firing _ stage) =>
      exact Prod.Lex.toLex_lt_toLex.mpr (.inr ⟨rfl, Nat.add_pos_right _ stage.left_pos⟩)
  | .coil _ stage => exact Prod.Lex.toLex_lt_toLex.mpr (.inr ⟨rfl, stage.left_pos⟩)
  | .sweep s => exact Prod.Lex.toLex_lt_toLex.mpr (.inr ⟨rfl, Nat.add_pos_right _ s.stage.left_pos⟩)
  | .readSwitch _ => exact Prod.Lex.toLex_lt_toLex.mpr (.inr ⟨rfl, Nat.one_pos⟩)
  | .snapshot _ _ inLine =>
      refine Prod.Lex.toLex_lt_toLex.mpr (.inr ⟨rfl, Nat.add_pos_right _ ?_⟩)
      cases inLine <;> decide

variable {me : TaskId} {now : ℕ} {task task' : Task} {p q : Platform}

theorem toil_fresh {stage : ℕ} (hlt : stage < 2) (n : ℕ) : toLex (stage, n) < toLex (2, 0) :=
  Prod.Lex.toLex_lt_toLex.mpr (.inl hlt)

theorem toil_entered {call : Call} (h : Entered me p call (.next task, q)) :
    task.toil < (Task.start call).toil := by
  cases h with
  | commands => exact toil_fresh (by decide) _
  | sweeps => exact toil_fresh (by decide) _
  | resets => exact toil_fresh (by decide) _
  | surveys => exact toil_fresh (by decide) _
  | reports => exact toil_fresh (by decide) _
  | reads => exact toil_fresh (by decide) _

/-- Every step takes a task nearer to its end. -/
theorem toil_step (hn : p.panel.bank.Numbered) (h : task.step me now p = (.next task', q)) :
    task'.toil < task.toil := by
  have hless {m n : ℕ} (hmn : m < n) : (toLex (0, m) : ℕ ×ₗ ℕ) < toLex (0, n) :=
    Prod.Lex.toLex_lt_toLex.mpr (.inr ⟨rfl, hmn⟩)
  match task with
  | .start call =>
      have he := enter_entered call me p
      rw [show enter call me p = (.next task', q) from h] at he
      exact toil_entered he
  | .coil job stage =>
      rcases hs : job.step me now stage p.panel with ⟨progress, panel⟩
      simp only [step, coilStep, hs] at h
      cases progress with
      | blocked => cases h
      | finished r => cases h
      | next stage' =>
          cases h
          exact hless (CoilJob.left_step hn hs)
  | .sweep ⟨lights, [], stage, done, failure⟩ =>
      simp only [step, stepSweep, finishSweep] at h
      split at h <;> cases h
  | .sweep ⟨lights, target :: rest, stage, done, failure⟩ =>
      have hpos := stage.left_pos
      rcases hs : (CoilJob.disable target).step me now stage p.panel with ⟨progress, panel⟩
      simp only [step, stepSweep, coilStep, hs] at h
      cases progress with
      | blocked => cases h
      | next stage' =>
          cases h
          exact hless (Nat.add_lt_add_left (CoilJob.left_step hn hs) _)
      | finished r =>
          cases h
          cases r <;> exact hless (by simp only [advance, CoilStage.left, List.length_cons]; omega)
  | .report t .inLine =>
      cases applies_of_step h Progress.next_ne_blocked with
      | changes => exact Prod.Lex.toLex_lt_toLex.mpr (.inl Nat.one_pos)
  | .report t (.firing [] stage) => cases h
  | .report t (.firing (rule :: others) stage) =>
      have hpos := stage.left_pos
      rcases hs : (CoilJob.fire rule).step me now stage p.panel with ⟨progress, panel⟩
      simp only [step, stepReport, coilStep, hs] at h
      cases progress with
      | blocked => cases h
      | next stage' =>
          cases h
          exact hless (Nat.add_lt_add_left (CoilJob.left_step hn hs) _)
      | finished r =>
          cases r <;> cases h <;>
            exact hless (by simp only [CoilStage.left, List.length_cons]; omega)
  | .readSwitch n =>
      simp only [step] at h
      split at h <;> cases h
  | .snapshot found [] inLine => cases h
  | .snapshot found (n :: rest) false =>
      cases h
      exact hless (by simp)
  | .snapshot found (n :: rest) true =>
      simp only [step] at h
      split at h <;> cases h
      exact hless (by simp; omega)

end Task

namespace World

variable {w : World Platform Task Outcome} {t : TaskId} {task : Task}

/-- How far the tasks of a world are from their ends. -/
def toil (w : World Platform Task Outcome) : ℕ ×ₗ ℕ :=
  ∑ i ∈ Finset.range w.nextId, (w.running[i]?).elim 0 Task.toil

/-- A step brings the tasks nearer to their ends. -/
theorem toil_step (hs : w.Sound) (hn : w.state.panel.bank.Numbered) (hr : w.running[t]? = some task)
    (hb : (task.step t w.now w.state).1 ≠ .blocked) : (w.step Task.workings t).toil < w.toil := by
  have ht : t ∈ Finset.range w.nextId := Finset.mem_range.mpr (hs.running_lt t (mem_of_running hr))
  rcases hstep : task.step t w.now w.state with ⟨progress, p⟩
  rw [hstep] at hb
  cases progress with
  | blocked => exact absurd rfl hb
  | next task' =>
      rw [step_of_next hr hstep, toil, toil]
      refine Finset.sum_lt_sum (fun i _ => ?_) ⟨t, ht, ?_⟩
      · by_cases hi : t = i
        · subst hi
          simpa [Map.getElem?_insert, hr] using (Task.toil_step hn hstep).le
        · simp [Map.getElem?_insert, hi]
      · simpa [Map.getElem?_insert, hr] using Task.toil_step hn hstep
  | finished r =>
      rw [step_of_finished hr hstep, toil, toil]
      refine Finset.sum_lt_sum (fun i _ => ?_) ⟨t, ht, ?_⟩
      · by_cases hi : t = i
        · subst hi
          simpa [Map.getElem?_erase, hr] using task.toil_pos.le
        · simp [Map.getElem?_erase, hi]
      · simpa [Map.getElem?_erase, hr] using task.toil_pos

end World

namespace Platform

/-- Whatever goes on can be brought to an end without giving anything up. -/
theorem completes {w : World Platform Task Outcome} (hk : Kept w) (hg : w.worksite.Good) :
    ∃ more : List (Event Call Outside), (∀ e ∈ more, e.goesOn = true) ∧
      ∀ id : TaskId, (scene.run w more).running[id]? = none := by
  induction htoil : w.toil using WellFoundedLT.induction generalizing w with
  | ind toil ih =>
    subst htoil
    by_cases hidle : ∀ id : TaskId, w.running[id]? = none
    · exact ⟨[], by simp, hidle⟩
    · obtain ⟨id, hid⟩ := not_forall.mp hidle
      obtain ⟨task, hr⟩ := Option.ne_none_iff_exists'.mp hid
      obtain ⟨u, -, task', ms, hr', hb⟩ := World.leads_to_goes hk hg hr
      -- first time passes, then the task that can go on takes its step
      have hkept : Kept (scene.run w [.pass ms, .step u]) := (hk.next (.pass ms)).next (.step u)
      have hgood : (scene.run w [.pass ms, .step u]).worksite.Good := hg.reaches (run_reaches hk.sound _)
      have hless : (scene.run w [.pass ms, .step u]).toil < w.toil :=
        World.toil_step (w := { w with now := w.now + ms }) (hk.next (.pass ms)).sound
          hg.orderly.numbered hr' hb
      obtain ⟨more, hgo, hdone⟩ := ih _ hless hkept hgood rfl
      refine ⟨.pass ms :: .step u :: more, ?_, hdone⟩
      intro e he
      rcases List.mem_cons.mp he with rfl | he
      · rfl
      · rcases List.mem_cons.mp he with rfl | he
        · rfl
        · exact hgo e he

/-- A call that is not given up can always be brought to its result. -/
theorem call_completes {p : Platform} {events : List (Event Call Outside)}
    (hk : Kept (scene.run (.ofState p) events)) (hg : (scene.run (.ofState p) events).worksite.Good)
    {id : TaskId} {call : Call} (hc : (calls events)[id]? = some call) (hkept : .abandon id ∉ events) :
    ∃ more : List (Event Call Outside), (∀ e ∈ more, e.goesOn = true) ∧
      ∃ outcome, (scene.run (.ofState p) (events ++ more)).results[id]? = some outcome := by
  obtain ⟨more, hgo, hdone⟩ := completes hk hg
  refine ⟨more, hgo, ?_⟩
  have hlt := (List.getElem?_eq_some_iff.mp (Scene.getElem?_calls_append hc more)).1
  have habandon : .abandon id ∉ events ++ more := by
    intro ha
    rcases List.mem_append.mp ha with ha | ha
    · exact hkept ha
    · cases hgo _ ha
  rcases scene.running_or_results _ (events ++ more) hlt habandon with ⟨task, hr⟩ | hr
  · rw [Scene.run_append] at hr
    cases (hdone id).symm.trans hr
  · exact hr

end Platform
end Playfield
