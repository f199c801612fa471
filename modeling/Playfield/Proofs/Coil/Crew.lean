import Playfield.Proofs.Coil.Turn
import Playfield.Proofs.Run

/-! Jobs side by side at one coil panel. A crew is a world in which every call is a job on a coil; what all
moves of a worksite keep, its runs keep. -/
namespace Playfield

def CoilJob.workings : Workings CoilPanel (CoilJob × CoilStage) CoilJob.Result where
  step me now task p :=
    let (progress, p) := task.1.step me now task.2 p
    (progress.map (Prod.mk task.1) id, p)
  abandon me task p := task.1.abandon me task.2 p
  deadline? task := task.2.deadline?
  pause task p := task.1.pause task.2 p
  breadth p := p.bank.slots.size

abbrev Crew := World CoilPanel (CoilJob × CoilStage) CoilJob.Result

namespace Crew

/-- Jobs come in as calls, and from outside the board is taken online or offline. -/
def scene : Scene CoilPanel (CoilJob × CoilStage) CoilJob.Result CoilJob Bool where
  workings := CoilJob.workings
  enter job := (job, .start)
  outside online p := { p with board := p.board.setOnline online }

def atRest (policy : CommandPolicy) (config : BoardConfig) : Crew :=
  .ofState ⟨.empty policy, .ofConfig config, []⟩

def site (w : Crew) : Worksite := ⟨w.state, fun t => w.running[t]?⟩

/-- The crew after a step of the job of the task `t` that came to `progress`. -/
def onward (w : Crew) (t : TaskId) (job : CoilJob) (p : CoilPanel) :
    Progress CoilStage CoilJob.Result → Crew
  | .blocked => w
  | .next stage => { w with state := p, running := w.running.insert t (job, stage) }
  | .finished r =>
    { w with state := p, running := w.running.erase t, results := w.results.insert t r }

variable {w : Crew} {t : TaskId} {job : CoilJob} {stage : CoilStage}

section Onward

variable {p : CoilPanel} {progress : Progress CoilStage CoilJob.Result} {r : CoilJob.Result}
  {u : TaskId}

theorem onward_other (hu : u ≠ t) :
    (w.onward t job p progress).results[u]? = w.results[u]? ∧
      (w.onward t job p progress).running[u]? = w.running[u]? := by
  cases progress with
  | blocked => exact ⟨rfl, rfl⟩
  | next stage => exact ⟨rfl, (Map.getElem?_insert ..).trans (if_neg (Ne.symm hu))⟩
  | finished r =>
      exact ⟨(Map.getElem?_insert ..).trans (if_neg (Ne.symm hu)),
        (Map.getElem?_erase ..).trans (if_neg (Ne.symm hu))⟩

theorem running_onward_next : (w.onward t job p (.next stage)).running[t]? = some (job, stage) :=
  (Map.getElem?_insert ..).trans (if_pos rfl)

theorem running_onward_finished : (w.onward t job p (.finished r)).running[t]? = none :=
  (Map.getElem?_erase ..).trans (if_pos rfl)

theorem results_onward_finished : (w.onward t job p (.finished r)).results[t]? = some r :=
  (Map.getElem?_insert ..).trans (if_pos rfl)

theorem state_onward (h : job.StepsTo t w.now w.state stage progress p) :
    (w.onward t job p progress).state = p := by
  cases progress with
  | blocked => exact h.eq_of_blocked.symm
  | next stage' => rfl
  | finished r => rfl

end Onward

theorem step_eq (h : w.running[t]? = some (job, stage)) :
    w.step CoilJob.workings t =
      onward w t job (job.step t w.now stage w.state).2 (job.step t w.now stage w.state).1 := by
  rcases hs : job.step t w.now stage w.state with ⟨progress, p⟩
  have hk : CoilJob.workings.step t w.now (job, stage) w.state =
      (progress.map (Prod.mk job) id, p) := by simp [CoilJob.workings, hs]
  cases progress with
  | blocked => rw [World.step_of_blocked h hk, onward]
  | next g => rw [World.step_of_next h hk, onward]
  | finished r => rw [World.step_of_finished h hk, onward, id_eq]

theorem step_stepsTo (hn : w.state.bank.Numbered) (h : w.running[t]? = some (job, stage)) :
    ∃ progress p, job.StepsTo t w.now w.state stage progress p ∧
      w.step CoilJob.workings t = onward w t job p progress :=
  ⟨_, _, job.step_stepsTo t w.now hn stage, step_eq h⟩

theorem site_insert (p : CoilPanel) (task : CoilJob × CoilStage) :
    site { w with state := p, running := w.running.insert t task } =
      ⟨p, Function.update w.site.jobs t (some task)⟩ :=
  congrArg (Worksite.mk p) (World.running_insert w.running t task)

theorem site_erase (p : CoilPanel) (results : Std.ExtTreeMap TaskId CoilJob.Result) :
    site { w with state := p, running := w.running.erase t, results := results } =
      ⟨p, Function.update w.site.jobs t none⟩ :=
  congrArg (Worksite.mk p) (World.running_erase w.running t)

theorem reaches_step (t : TaskId) : w.site.Reaches (site (w.step CoilJob.workings t)) := by
  cases h : w.running[t]? with
  | none =>
      rw [World.step_of_none h]
      exact .refl
  | some task =>
      obtain ⟨job, stage⟩ := task
      rw [step_eq h]
      rcases hs : job.step t w.now stage w.state with ⟨progress, p⟩
      have hmove := Worksite.Move.works (y := w.site) w.now h hs
      cases progress with
      | blocked => exact .refl
      | next g =>
          rw [onward, site_insert]
          exact .single hmove
      | finished r =>
          rw [onward, site_erase]
          exact .single hmove

/-- The journal changes only with the step of a job. -/
theorem journal_cases (hn : w.state.bank.Numbered) (e : Event CoilJob Bool) :
    (scene.next w e).state.journal = w.state.journal ∨
      ∃ t job stage progress p, e = .step t ∧ w.running[t]? = some (job, stage) ∧
        job.StepsTo t w.now w.state stage progress p ∧
        scene.next w e = w.onward t job p progress := by
  cases e with
  | call | pass | outside => exact .inl rfl
  | abandon t =>
      refine .inl ?_
      change (w.abandon CoilJob.workings t).state.journal = _
      obtain ⟨-, hw⟩ | ⟨⟨job, stage⟩, -, hw⟩ := World.abandon_cases CoilJob.workings w t
      · rw [hw]
      · rw [hw]
        cases stage <;> rfl
  | step t =>
      cases hr : w.running[t]? with
      | none =>
          have hw : scene.next w (.step t) = w := World.step_of_none hr
          exact .inl (by rw [hw])
      | some task =>
          obtain ⟨job, stage⟩ := task
          obtain ⟨progress, p, hst, hw⟩ := step_stepsTo hn hr
          exact .inr ⟨t, job, stage, progress, p, rfl, hr, hst, hw⟩

/-- Whoever gets the lock of a coil next is not the one who hands it on. -/
theorem holder_release_ne {c : CoilNumber} (hg : w.site.Good)
    (hh : (w.state.bank.lock c).holder = some t) : (w.state.bank.lock c).release.holder ≠ some t := by
  intro hn
  have hnd := hg.orderly.nodup c
  have hq : (w.site.panel.bank.lock c).queue = t :: (w.state.bank.lock c).line :=
    Lock.queue_of_holder hh
  rw [hq] at hnd
  exact (List.nodup_cons.mp hnd).1 (Lock.holder_release_mem hn)

theorem next_reaches (h : w.Sound) (e : Event CoilJob Bool) :
    w.site.Reaches (site (scene.next w e)) := by
  cases e with
  | call job =>
      have hw : site (scene.next w (.call job)) =
          ⟨w.state, Function.update w.site.jobs w.nextId (some (job, .start))⟩ :=
        site_insert w.state (job, .start)
      rw [hw]
      exact .single (.takesUp h.running_next)
  | step t => exact reaches_step t
  | abandon t =>
      change w.site.Reaches (site (w.abandon CoilJob.workings t))
      obtain ⟨-, hw⟩ | ⟨task, hr, hw⟩ := World.abandon_cases CoilJob.workings w t
      · rw [hw]
        exact .refl
      · have hsite : site (w.abandon CoilJob.workings t) =
            ⟨task.1.abandon t task.2 w.state, Function.update w.site.jobs t none⟩ := by
          rw [hw, ← site_erase _ w.results]
          rfl
        rw [hsite]
        exact .single (.drops hr)
  | pass ms => exact .refl
  | outside online => exact .single (.switches online)

theorem run_reaches (h : w.Sound) (events : List (Event CoilJob Bool)) :
    w.site.Reaches (site (scene.run w events)) := by
  induction events generalizing w with
  | nil => exact .refl
  | cons e events ih => exact .trans (next_reaches h e) (ih (scene.next_sound h e))

variable (policy : CommandPolicy) (config : BoardConfig)

theorem call_of_running {events : List (Event CoilJob Bool)}
    (h : (scene.run (atRest policy config) events).running[t]? = some (job, stage)) :
    (calls events)[t]? = some job := by
  have hstep (j : CoilJob) (id : TaskId) (now : Nat) (task task' : CoilJob × CoilStage)
      (p q : CoilPanel) (hj : task.1 = j)
      (hs : CoilJob.workings.step id now task p = (.next task', q)) : task'.1 = j := by
    simp only [CoilJob.workings] at hs
    rcases hg : task.1.step id now task.2 p with ⟨progress, r⟩
    rw [hg] at hs
    cases progress with
    | blocked => cases hs
    | finished r => cases hs
    | next stage =>
        cases hs
        exact hj
  obtain ⟨j, hj, rfl⟩ := scene.run_origin (Q := fun j task => task.1 = j) (fun _ => rfl) hstep _ events h
  exact hj

theorem site_atRest : site (atRest policy config) = .atRest policy config := by
  simp [site, atRest, World.ofState, Worksite.atRest]

theorem run_good (events : List (Event CoilJob Bool)) :
    (site (scene.run (atRest policy config) events)).Good := by
  refine (Worksite.good_atRest policy config).reaches ?_
  rw [← site_atRest]
  exact run_reaches (World.sound_ofState _) events

theorem run_config (events : List (Event CoilJob Bool)) :
    (scene.run (atRest policy config) events).state.board.config = config := by
  refine (Worksite.orderly_atRest policy config).config_reaches (z := site _) ?_
  rw [← site_atRest]
  exact run_reaches (World.sound_ofState _) events

end Crew
end Playfield
