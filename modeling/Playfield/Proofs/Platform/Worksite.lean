import Playfield.Proofs.Platform.Coils

/-! A platform's run at its coil panel. Each event of a run amounts to moves of the worksite that the
platform is, and so every run keeps what all moves keep. -/
namespace Playfield

/-- The worksite of a platform: its coil panel, and the job that each of its tasks has in hand. -/
def World.worksite (w : World Platform Task Outcome) : Worksite where
  panel := w.state.panel
  jobs t := (w.running[t]?).bind Task.job?

namespace Worksite

variable {panel : CoilPanel} {jobs : TaskId → Option (CoilJob × CoilStage)} {t : TaskId}

theorem reaches_of_quiet {p q : Platform} (h : p.Quiet q) : Reaches ⟨p.panel, jobs⟩ ⟨q.panel, jobs⟩ := by
  obtain ⟨j, hj, hq⟩ := h
  rw [hq]
  exact .single (.notes hj)

/-- A task without a job in hand may take one up. -/
theorem reaches_of_fresh {u : Option (CoilJob × CoilStage)} (ht : jobs t = none)
    (hu : ∀ x ∈ u, x.2 = .start) : Reaches ⟨panel, jobs⟩ ⟨panel, Function.update jobs t u⟩ := by
  cases u with
  | none =>
      rw [← ht, Function.update_eq_self]
      exact .refl
  | some x =>
      obtain ⟨job, stage⟩ := x
      cases hu _ rfl
      exact .single (.takesUp ht)

/-- A task that has finished one job may take another one up. -/
theorem reaches_of_fresh_update {u v : Option (CoilJob × CoilStage)} (hv : v = none)
    (hu : ∀ x ∈ u, x.2 = .start) :
    Reaches ⟨panel, Function.update jobs t v⟩ ⟨panel, Function.update jobs t u⟩ := by
  have h : Reaches ⟨panel, Function.update jobs t v⟩
      ⟨panel, Function.update (Function.update jobs t v) t u⟩ :=
    reaches_of_fresh (by rw [Function.update_self, hv]) hu
  rwa [Function.update_idem] at h

end Worksite

namespace World

variable {w : World Platform Task Outcome} {id : TaskId} {task : Task} {p : Platform}

theorem jobs_of_running (h : w.running[id]? = some task) : w.worksite.jobs id = task.job? := by
  simp [worksite, h]

theorem jobs_update (running : TaskId → Option Task) (id : TaskId) (u : Option Task) :
    (fun t => (Function.update running id u t).bind Task.job?) =
      Function.update (fun t => (running t).bind Task.job?) id (u.bind Task.job?) :=
  Function.comp_update (fun u : Option Task => u.bind Task.job?) running id u

theorem worksite_insert (p : Platform) (task : Task) :
    World.worksite { w with state := p, running := w.running.insert id task } =
      ⟨p.panel, Function.update w.worksite.jobs id task.job?⟩ := by
  have h := congrArg (fun running t => (running t : Option Task).bind Task.job?)
    (running_insert w.running id task)
  exact congrArg (Worksite.mk p.panel) (h.trans (jobs_update ..))

theorem worksite_erase (p : Platform) (results : Std.ExtTreeMap TaskId Outcome) :
    World.worksite { w with state := p, running := w.running.erase id, results := results } =
      ⟨p.panel, Function.update w.worksite.jobs id none⟩ := by
  have h := congrArg (fun running t => (running t : Option Task).bind Task.job?)
    (running_erase w.running id)
  exact congrArg (Worksite.mk p.panel) (h.trans (jobs_update ..))

/-- What a task has in hand once its step has come to `progress`. -/
def inHand (progress : Progress Task Outcome) : Option (CoilJob × CoilStage) :=
  match progress with
  | .next task => task.job?
  | .blocked | .finished _ => none

theorem worksite_step (h : w.running[id]? = some task) {progress : Progress Task Outcome}
    (hs : task.step id w.now w.state = (progress, p)) (hp : progress ≠ .blocked) :
    (w.step Task.workings id).worksite = ⟨p.panel, Function.update w.worksite.jobs id (inHand progress)⟩ := by
  cases progress with
  | blocked => exact absurd rfl hp
  | next task' => rw [step_of_next h hs, worksite_insert, inHand]
  | finished r => rw [step_of_finished h hs, worksite_erase, inHand]

theorem reaches_of_quietStep (h : w.running[id]? = some task) (hj : task.job? = none) :
    w.worksite.Reaches (w.step Task.workings id).worksite := by
  rcases hs : task.step id w.now w.state with ⟨progress, p⟩
  have hq : Task.QuietStep w.state (task.step id w.now w.state) := Task.step_quietStep hj
  rw [hs] at hq
  by_cases hb : progress = .blocked
  · subst hb
    rw [step_of_blocked h hs]
    exact .refl
  · rw [worksite_step h hs hb]
    refine .trans (Worksite.reaches_of_quiet hq.quiet) (Worksite.reaches_of_fresh ?_ ?_)
    · exact (jobs_of_running h).trans hj
    · cases progress with
      | next task' => exact hq.fresh task' rfl
      | blocked => exact absurd rfl hb
      | finished r =>
          rintro _ ⟨⟩

theorem reaches_of_follows {job : CoilJob} {stage : CoilStage} (h : w.running[id]? = some task)
    (hj : task.job? = some (job, stage)) :
    w.worksite.Reaches (w.step Task.workings id).worksite := by
  rcases hs : task.step id w.now w.state with ⟨progress, p⟩
  rcases hw : job.step id w.now stage w.state.panel with ⟨progress', panel⟩
  obtain ⟨hf, hq⟩ : Task.Follows job (job.step id w.now stage w.state.panel).1
      (task.step id w.now w.state).1 ∧ _ := Task.step_follows hj
  rw [hs, hw] at hf
  rw [hs, hw] at hq
  have hmove := Worksite.Move.works (y := w.worksite) (t := id) w.now
    ((jobs_of_running h).trans hj) hw
  have hquiet : Worksite.Reaches
      ⟨panel, Function.update w.worksite.jobs id (job.inHand stage progress')⟩
      ⟨p.panel, Function.update w.worksite.jobs id (job.inHand stage progress')⟩ :=
    Worksite.reaches_of_quiet hq
  cases progress' with
  | blocked =>
      cases hf
      rw [step_of_blocked h hs]
      exact .refl
  | next g =>
      obtain ⟨task', hp, ht⟩ := hf
      dsimp only at hp
      subst hp
      rw [worksite_step h hs (by simp), inHand, ht]
      exact .head hmove hquiet
  | finished r =>
      by_cases hb : progress = .blocked
      · subst hb
        rw [step_of_blocked h hs]
        exact .refl
      · rw [worksite_step h hs hb]
        refine .trans (.head hmove hquiet) (Worksite.reaches_of_fresh_update rfl ?_)
        cases progress with
        | next task' => exact hf task' rfl
        | blocked => exact absurd rfl hb
        | finished r => rintro _ ⟨⟩

theorem reaches_step (id : TaskId) : w.worksite.Reaches (w.step Task.workings id).worksite := by
  cases h : w.running[id]? with
  | none =>
      rw [step_of_none h]
      exact .refl
  | some task =>
      cases hj : task.job? with
      | none => exact reaches_of_quietStep h hj
      | some x => exact reaches_of_follows h hj

theorem reaches_abandon (id : TaskId) :
    w.worksite.Reaches (w.abandon Task.workings id).worksite := by
  obtain ⟨-, hw⟩ | ⟨task, hr, hw⟩ := abandon_cases Task.workings w id
  · rw [hw]
    exact .refl
  · have hsite : (w.abandon Task.workings id).worksite =
        ⟨(task.abandon id w.state).panel, Function.update w.worksite.jobs id none⟩ := by
      rw [hw, ← worksite_erase (w := w) _ w.results]
      rfl
    rw [hsite, Task.panel_abandon]
    have hj := jobs_of_running hr
    cases ht : task.job? with
    | none =>
        rw [ht] at hj
        exact Worksite.reaches_of_fresh hj (by rintro _ ⟨⟩)
    | some x =>
        rw [ht] at hj
        exact .single (.drops hj)

theorem reaches_outside (e : Platform.Outside) :
    w.worksite.Reaches (World.worksite { w with state := Platform.outside e w.state }) := by
  obtain ⟨online, clock, stream, notices, -, hq⟩ := Platform.outside_eq e w.state
  rw [hq]
  refine .head (.switches online) (.single (.notes ?_))
  simp [worksite]

end World

namespace Platform

variable {w : World Platform Task Outcome}

theorem next_reaches (h : w.Sound) (e : Event Call Outside) :
    w.worksite.Reaches (scene.next w e).worksite := by
  cases e with
  | call call =>
      have hj : w.worksite.jobs w.nextId = none := by simp [World.worksite, h.running_next]
      have hw : (scene.next w (.call call)).worksite =
          ⟨w.state.panel, Function.update w.worksite.jobs w.nextId none⟩ :=
        World.worksite_insert w.state (.start call)
      rw [hw]
      exact Worksite.reaches_of_fresh hj (by rintro _ ⟨⟩)
  | step id => exact World.reaches_step id
  | abandon id => exact World.reaches_abandon id
  | pass ms => exact .refl
  | outside e => exact World.reaches_outside e

theorem run_reaches (h : w.Sound) (events : List (Event Call Outside)) :
    w.worksite.Reaches (scene.run w events).worksite := by
  induction events generalizing w with
  | nil => exact .refl
  | cons e events ih => exact .trans (next_reaches h e) (ih (scene.next_sound h e))

variable (config : PlatformConfig) (board : BoardConfig) (clock : Clock) (startedAt : Timestamp)

theorem worksite_atRest :
    (atRest config board clock startedAt).worksite = .atRest config.policy board := by
  simp [World.worksite, atRest, World.ofState, ofConfig, Worksite.atRest]

theorem reaches_run (events : List (Event Call Outside)) :
    (Worksite.atRest config.policy board).Reaches
      (scene.run (atRest config board clock startedAt) events).worksite := by
  rw [← worksite_atRest config board clock startedAt]
  exact run_reaches (World.sound_ofState _) events

theorem run_good (events : List (Event Call Outside)) :
    (scene.run (atRest config board clock startedAt) events).worksite.Good :=
  (Worksite.good_atRest config.policy board).reaches
    (reaches_run config board clock startedAt events)

theorem run_config (events : List (Event Call Outside)) :
    (scene.run (atRest config board clock startedAt) events).state.panel.board.config = board :=
  (Worksite.orderly_atRest config.policy board).config_reaches
    (reaches_run config board clock startedAt events)

end Platform
end Playfield
