import Playfield.Proofs.Platform.Changes
import Playfield.Proofs.Switch.Debounce

/-! Debounce on the platform. Whatever goes on, a switch shows exactly the reports whose tasks have got to it,
in the order in which they did, and every report is answered for what came before it there. -/
namespace Playfield

namespace Task

/-- The report about the switch `n` that the next step of a task applies. -/
def arrival? (n : SwitchNumber) (me : TaskId) (p : Platform) : Task → Option Flip
  | .report t .inLine => if t.switch = n ∧ p.switches.isHeldBy n me then some t.flip else none
  | _ => none

variable {me : TaskId} {now : Nat} {p q : Platform} {n : SwitchNumber} {t : Transition}

theorem arrival?_inLine (hh : p.switches.isHeldBy t.switch me = true) :
    (Task.report t .inLine).arrival? t.switch me p = some t.flip := by
  simp [arrival?, hh]

theorem switch_of_apart (h : p.Apart q) : q.switches.switch n = p.switches.switch n := by
  rw [SwitchRegistry.switch, h.slot, SwitchRegistry.switch]

/-- A report that gets to its switch does to it what the switch does with a report, and to no other. -/
theorem switch_applyReport (hn : p.switches.Numbered) : (applyReport t p).2.switches.switch n =
    if t.switch = n then ((p.switches.switch n).receive t.flip).2 else p.switches.switch n := by
  have hreported := (p.switches.switch t.switch).report_reported t.flip
  have hnumber {x : Switch} (hx : x.number = (p.switches.switch t.switch).number) : x.number = t.switch :=
    hx.trans (hn t.switch)
  simp only [Transition.flip] at hreported
  rw [applyReport]
  by_cases hs : t.switch = n
  · subst hs
    simp only [if_true, Switch.receive, Transition.flip]
    generalize (p.switches.switch t.switch).report t.isActive t.timestamp = result at hreported ⊢
    rcases result with stale | ⟨_ | _, x⟩
    · simp [finish, release, Platform.note]
    · simp [finish, release, Platform.note, hnumber hreported.number]
    · simp [fireRules, hnumber hreported.number]
  · rw [if_neg hs]
    generalize (p.switches.switch t.switch).report t.isActive t.timestamp = result at hreported ⊢
    rcases result with stale | ⟨_ | _, x⟩
    · simp [finish, release, Platform.note]
    · simp [finish, release, Platform.note, hnumber hreported.number, hs]
    · simp [fireRules, hnumber hreported.number, hs]

/-- What a report is answered. -/
def answer : Except StaleReport Bool → Outcome
  | .ok changed => .ok (.changed changed)
  | .error stale => .error (.stale stale)

/-- A report ends with the answer of its switch, at once unless there is a change to tell of. -/
theorem answer_applyReport (t : Transition) (p : Platform) :
    let result := ((p.switches.switch t.switch).receive t.flip).1
    (applyReport t p).1 = .finished (answer result) ∨
      result = .ok true ∧ ∃ task, (applyReport t p).1 = .next task := by
  simp only [applyReport, Switch.receive, Transition.flip]
  generalize (p.switches.switch t.switch).report t.isActive t.timestamp = result
  rcases result with stale | ⟨_ | _, x⟩
  · exact .inl rfl
  · exact .inl rfl
  · exact .inr ⟨rfl, _, rfl⟩

/-- Only a report that asks for its lock has something to apply. -/
theorem arrival?_eq_none {task : Task} (ht : ¬∃ t, task = .report t .inLine) : task.arrival? n me p = none := by
  match task, ht with
  | .report t .inLine, ht => exact absurd ⟨t, rfl⟩ ht
  | .report t (.firing rules stage), _ | .start call, _ | .coil job stage, _ | .sweep s, _
  | .readSwitch s, _ | .snapshot found rest inLine, _ => rfl

/-- A step does to each switch what the report does to it that it applies, if it applies one. -/
theorem switch_step (task : Task) (me : TaskId) (now : Nat) (hn : p.switches.Numbered) (n : SwitchNumber) :
    (task.step me now p).2.switches.switch n = (task.arrival? n me p).elim (p.switches.switch n) fun r =>
      ((p.switches.switch n).receive r).2 := by
  by_cases ht : ∃ t, task = .report t .inLine
  · obtain ⟨t, rfl⟩ := ht
    simp only [step, stepReport, arrival?]
    by_cases hh : p.switches.isHeldBy t.switch me = true
    · rw [if_pos hh, switch_applyReport hn]
      by_cases hs : t.switch = n
      · subst hs
        simp [hh]
      · simp [hs]
    · rw [if_neg hh, if_neg]
      · rfl
      · rintro ⟨rfl, hheld⟩
        exact hh hheld
  · -- No other step touches what a switch shows, though it may touch the locks.
    rw [arrival?_eq_none ht, Option.elim_none]
    have h := task.step_atSwitches me now p
    generalize task.step me now p = step at h ⊢
    obtain ⟨progress, q⟩ := step
    cases h with
    | apart h => exact switch_of_apart h
    | asks => exact SwitchRegistry.switch_request ..
    | reads => exact SwitchRegistry.switch_release ..
    | surveys => exact SwitchRegistry.switch_release ..
    | applies => exact absurd ⟨_, rfl⟩ ht
    | publishes => exact SwitchRegistry.switch_release ..

theorem arrival?_of_blocked {task : Task} (h : task.step me now p = (.blocked, q)) :
    task.arrival? n me p = none := by
  by_cases ht : ∃ t, task = .report t .inLine
  · obtain ⟨t, rfl⟩ := ht
    refine if_neg ?_
    rintro ⟨rfl, hh⟩
    simp only [step, stepReport, if_pos hh, applyReport] at h
    split at h
    · cases h
    · split at h <;> cases h
  · exact arrival?_eq_none ht

theorem report_of_firing {task : Task} {rules : List HardwareRule} {stage : CoilStage}
    (h : task.step me now p = (.next (.report t (.firing rules stage)), q)) :
    ∃ stage', task = .report t stage' := by
  match task with
  | .start call =>
      have hentered := enter_entered call me p
      rw [show enter call me p = _ from h] at hentered
      cases hentered
  | .coil job stage' => cases (coil_of_next h).choose_spec
  | .sweep s => cases (sweep_of_next h).choose_spec
  | .report t' stage' =>
      obtain ⟨stage'', ht⟩ := report_of_next h
      cases ht
      exact ⟨stage', rfl⟩
  | .readSwitch s =>
      simp only [step, finish] at h
      split at h <;> cases h
  | .snapshot found rest inLine =>
      obtain ⟨_, _, _, ht⟩ := snapshot_of_next h
      cases ht

theorem outcome_of_firing {rules : List HardwareRule} {stage : CoilStage} {outcome : Outcome}
    (h : (Task.report t (.firing rules stage)).step me now p = (.finished outcome, q)) :
    outcome = .ok (.changed true) := by
  cases rules with
  | nil =>
      cases h
      rfl
  | cons rule others =>
      simp only [step, stepReport] at h
      split at h <;> cases h

end Task

namespace Platform

/-- The report about the switch `n` that gets to the switch with an event. -/
def arrival? (n : SwitchNumber) (w : World Platform Task Outcome) (e : Event Call Outside)
    (_ : World Platform Task Outcome) : Option Flip :=
  match e with
  | .step id => (w.running[id]?).bind (Task.arrival? n id w.state)
  | .call _ | .abandon _ | .pass _ | .outside _ => none

theorem next_switch {w : World Platform Task Outcome} (hn : w.state.switches.Numbered)
    (e : Event Call Outside) (n : SwitchNumber) : (scene.next w e).state.switches.switch n =
      (arrival? n w e (scene.next w e)).elim (w.state.switches.switch n) fun r =>
        ((w.state.switches.switch n).receive r).2 := by
  cases e with
  | call call => rfl
  | pass ms => rfl
  | outside e => exact Task.switch_of_apart (apart_outside e w.state)
  | abandon id =>
      change (w.abandon Task.workings id).state.switches.switch n = _
      obtain ⟨-, hw⟩ | ⟨task, -, hw⟩ := World.abandon_cases Task.workings w id
      · rw [hw]
        rfl
      · rw [hw]
        exact Task.switch_abandon
  | step id =>
      change (w.step Task.workings id).state.switches.switch n = _
      cases hr : w.running[id]? with
      | none => simp [World.step_of_none hr, arrival?, hr]
      | some task =>
          have hstep := task.switch_step id w.now hn n
          simp only [arrival?, hr, Option.bind_some]
          rcases hs : task.step id w.now w.state with ⟨progress, p⟩
          rw [hs] at hstep
          cases progress with
          | blocked => rw [World.step_of_blocked hr hs, Task.arrival?_of_blocked hs, Option.elim_none]
          | next task' =>
              rw [World.step_of_next hr hs]
              exact hstep
          | finished r =>
              rw [World.step_of_finished hr hs]
              exact hstep

section Run

variable (config : PlatformConfig) (board : BoardConfig) (clock : Clock) (startedAt : Timestamp)

/-- The reports that have got to the switch `n` in a run, in order. -/
def arrivals (n : SwitchNumber) (events : List (Event Call Outside)) : List Flip :=
  scene.observe (arrival? n) (atRest config board clock startedAt) events

theorem arrivals_concat (n : SwitchNumber) (events : List (Event Call Outside)) (e : Event Call Outside) :
    let w := scene.run (atRest config board clock startedAt) events
    arrivals config board clock startedAt n (events ++ [e]) =
      arrivals config board clock startedAt n events ++ (arrival? n w e (scene.next w e)).toList :=
  scene.observe_append ..

/-- A switch is what the reports have made of it that have got to it. -/
theorem run_switch (n : SwitchNumber) (events : List (Event Call Outside)) :
    (scene.run (atRest config board clock startedAt) events).state.switches.switch n =
      (Switch.inactive n).afterAll (arrivals config board clock startedAt n events) := by
  induction events using List.reverseRecOn with
  | nil => rfl
  | append_singleton events e ih =>
      have hn := (run_kept config board clock startedAt events).numbered
      rw [Scene.run_append, Scene.run_cons, Scene.run_nil, arrivals_concat, next_switch hn e n, ih]
      cases arrival? n (scene.run (atRest config board clock startedAt) events) e _ with
      | none => simp
      | some r => simp [Switch.afterAll_concat]

/-- The task `id` has got to its switch with the report `t`, which was answered `result`. -/
def Arrived (events : List (Event Call Outside)) (id : TaskId) (t : Transition)
    (result : Except StaleReport Bool) : Prop :=
  ∃ before after, events = before ++ .step id :: after ∧
    arrivals config board clock startedAt t.switch (before ++ [.step id]) =
      arrivals config board clock startedAt t.switch before ++ [t.flip] ∧
    (((Switch.inactive t.switch).afterAll (arrivals config board clock startedAt t.switch before)).receive
      t.flip).1 = result

variable {config board clock startedAt} {id : TaskId} {events : List (Event Call Outside)} {t : Transition}

theorem Arrived.append {result : Except StaleReport Bool}
    (h : Arrived config board clock startedAt events id t result) (more : List (Event Call Outside)) :
    Arrived config board clock startedAt (events ++ more) id t result := by
  obtain ⟨before, after, rfl, harrival⟩ := h
  exact ⟨before, after ++ more, by simp, harrival⟩

/-- A report that does not wait gets to its switch. -/
theorem arrived_step {progress : Progress Task Outcome} {q : Platform}
    (hr : (scene.run (atRest config board clock startedAt) events).running[id]? = some (.report t .inLine))
    (hs : (Task.report t .inLine).step id (scene.run (atRest config board clock startedAt) events).now
      (scene.run (atRest config board clock startedAt) events).state = (progress, q))
    (hb : progress ≠ .blocked) : ∃ result,
      Arrived config board clock startedAt (events ++ [.step id]) id t result ∧
      (progress = .finished (Task.answer result) ∨ result = .ok true ∧ ∃ task, progress = .next task) := by
  have hrun := run_switch config board clock startedAt t.switch events
  generalize hp : (scene.run (atRest config board clock startedAt) events).state = p at hs hrun
  simp only [Task.step, Task.stepReport] at hs
  split at hs
  · next hh =>
    refine ⟨_, ⟨events, [], rfl, ?_, rfl⟩, ?_⟩
    · rw [arrivals_concat]
      simp only [arrival?, hr, Option.bind_some, hp]
      rw [Task.arrival?_inLine hh, Option.toList_some]
    · rw [← hrun]
      have hanswer := Task.answer_applyReport t p
      rwa [hs] at hanswer
  · cases hs
    exact absurd rfl hb

/-- A report that fires rules has got to its switch, and has changed it. -/
theorem arrived_of_firing {rules : List HardwareRule} {stage : CoilStage}
    (h : (scene.run (atRest config board clock startedAt) events).running[id]? =
      some (.report t (.firing rules stage))) :
    Arrived config board clock startedAt events id t (.ok true) := by
  refine scene.run_each (Q := fun events id task => ∀ t rules stage, task = .report t (.firing rules stage) →
    Arrived config board clock startedAt events id t (.ok true)) _ ?_ ?_ ?_ events h t rules stage rfl
  · intro events e id task _ hq t rules stage ht
    exact (hq t rules stage ht).append [e]
  · intro events call t rules stage ht
    cases ht
  · rintro events id task _ q hr hq hs t rules stage rfl
    obtain ⟨stage', rfl⟩ := Task.report_of_firing hs
    cases stage' with
    | inLine =>
        obtain ⟨result, harrived, hfinal | ⟨rfl, -⟩⟩ := arrived_step hr hs Progress.next_ne_blocked
        · cases hfinal
        · exact harrived
    | firing rules' stage' => exact (hq t rules' stage' rfl).append _

/-- The answer to a report is that of its switch to all the reports that have got there. -/
theorem arrived_of_result {r : TransitionRequest} {outcome : Outcome}
    (hc : (calls events)[id]? = some (.report r)) (hv : r.validate = .ok t)
    (ho : (scene.run (atRest config board clock startedAt) events).results[id]? = some outcome) :
    ∃ result, outcome = Task.answer result ∧ Arrived config board clock startedAt events id t result := by
  obtain ⟨before, after, task, rfl, hr, hs⟩ := scene.finished_of_run _ events ho
  have hall : before ++ .step id :: after = before ++ [.step id] ++ after := by simp
  obtain ⟨-, hstems⟩ := stems_of_call hr hc
  cases hstems with
  | start =>
      change Task.enter (.report r) id _ = _ at hs
      simp only [Task.enter, hv] at hs
      cases hs
  | @report _ t' stage hv' =>
    cases hv.symm.trans hv'
    cases stage with
    | inLine =>
        obtain ⟨result, harrived, hfinal | ⟨-, task, hnext⟩⟩ := arrived_step hr hs Progress.finished_ne_blocked
        · cases hfinal
          exact ⟨result, rfl, hall ▸ harrived.append after⟩
        · cases hnext
    | firing rules stage =>
        -- The report has got to its switch long since, and has fired rules for the change.
        refine ⟨.ok true, ?_, hall ▸ ((arrived_of_firing hr).append [.step id]).append after⟩
        exact Task.outcome_of_firing hs

variable (config board clock startedAt)

/-- A switch debounces what is reported of it. Of any reports, it accepts those that are as late as all before
them, the refused ones included; it shows the last that it has accepted and the moment of the latest of
all, and a report that it refuses leaves it as it was. On the platform it does so with the reports that
get to it, whatever else goes on. -/
theorem switches_debounce (n : SwitchNumber) (events : List (Event Call Outside)) :
    (∀ earlier r, Switch.Debounces n earlier r) ∧
    (scene.run (atRest config board clock startedAt) events).state.switches.switch n =
      (Switch.inactive n).afterAll (arrivals config board clock startedAt n events) ∧
    ∀ (id : TaskId) (r : TransitionRequest) (t : Transition) (outcome : Outcome),
      (calls events)[id]? = some (.report r) → r.validate = .ok t →
      (scene.run (atRest config board clock startedAt) events).results[id]? = some outcome →
      ∃ result, outcome = Task.answer result ∧ Arrived config board clock startedAt events id t result :=
  ⟨Switch.debounces n, run_switch config board clock startedAt n events,
    fun _ _ _ _ hc hv ho => arrived_of_result hc hv ho⟩

end Run

/-- A switch is reported released after it has been reported active at a later moment. -/
def releasesLate : List (Event Call Outside) :=
  [.call (.report ⟨"S1", true, 5⟩), .step 0, .step 0, .step 0, .call (.report ⟨"S1", false, 3⟩), .step 1, .step 1]

theorem switches_debounce_late_release :
    let s : SwitchNumber := ⟨"S1", by decide⟩
    let run := scene.run (atRest .default .default ⟨0⟩ ⟨0, 0, 0⟩)
    (run releasesLate).results[1]? = some (.error (.stale ⟨s, 3, 5⟩)) ∧
      (run releasesLate).state.switches.switch s = (Switch.inactive s).afterAll [(true, 5), (false, 3)] ∧
      ∃ result, .error (.stale ⟨s, 3, 5⟩) = Task.answer result ∧
        Arrived .default .default ⟨0⟩ ⟨0, 0, 0⟩ releasesLate 1 ⟨s, false, 3⟩ result := by
  intro s run
  obtain ⟨-, hswitch, hanswer⟩ := switches_debounce .default .default ⟨0⟩ ⟨0, 0, 0⟩ s releasesLate
  have hr : (run releasesLate).results[1]? = some (.error (.stale ⟨s, 3, 5⟩)) := by decide +kernel
  have harrivals : arrivals .default .default ⟨0⟩ ⟨0, 0, 0⟩ s releasesLate = [(true, 5), (false, 3)] := by
    decide +kernel
  rw [harrivals] at hswitch
  exact ⟨hr, hswitch, hanswer 1 ⟨"S1", false, 3⟩ ⟨s, false, 3⟩ _ rfl rfl hr⟩

end Platform
end Playfield
