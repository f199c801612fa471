import Playfield.Proofs.Coil.Disabling
import Playfield.Proofs.Platform.Firing
import Playfield.Proofs.Platform.Listing

/-! Bulk disables at work. A bulk disable takes its targets one after the other and is through with each after
one disable, whatever came of it; what it does in all is what these disables do. -/
namespace Playfield

/-- The error that a job ended with, if it did. -/
def CoilJob.failure? : CoilJob.Result → Option PlatformError
  | .ok _ => none
  | .error e => some e

namespace Task

/-- What a bulk disable says of a coil that it is through with. -/
def lament (c : CoilNumber) (result : CoilJob.Result) : Journal :=
  (CoilJob.failure? result).toList.map fun e => .noted (.coilNotDisabled c e)

section Advance

variable (s : Sweep) (rest : List CoilNumber) (result : CoilJob.Result)

@[simp] theorem advance_targets : (advance s rest result).targets = rest := by cases result <;> rfl

@[simp] theorem advance_stage : (advance s rest result).stage = .start := by cases result <;> rfl

@[simp] theorem advance_lights : (advance s rest result).lights = s.lights := by cases result <;> rfl

@[simp] theorem advance_disabled :
    (advance s rest result).disabled = s.disabled ++ result.toOption.toList := by
  cases result with
  | ok k => rfl
  | error e => exact (List.append_nil _).symm

@[simp] theorem advance_failure :
    (advance s rest result).failure = s.failure.or (CoilJob.failure? result) := by
  cases result with
  | ok k => exact (Option.or_none).symm
  | error e => rfl

end Advance

/-- One step of a bulk disable is one step of the disable of its first target. -/
theorem step_sweep {s : Sweep} {c : CoilNumber} {rest : List CoilNumber} (ht : s.targets = c :: rest)
    (me : TaskId) (now : Nat) (p : Platform) : (Task.sweep s).step me now p =
      match (CoilJob.disable c).step me now s.stage p.panel with
      | (.blocked, panel) => (.blocked, { p with panel })
      | (.next stage, panel) => (.next (.sweep { s with stage }), { p with panel })
      | (.finished result, panel) => (.next (.sweep (advance s rest result)),
          { p with panel := { panel with journal := panel.journal ++ lament c result } }) := by
  obtain ⟨lights, targets, stage, disabled, failure⟩ := s
  cases ht
  simp only [step, stepSweep, coilStep]
  generalize (CoilJob.disable c).step me now stage p.panel = result
  obtain ⟨_ | stage | ⟨e | k⟩, panel⟩ := result
  · rfl
  · rfl
  · rfl
  · simp [lament, CoilJob.failure?]

theorem step_sweep_nil {s : Sweep} (ht : s.targets = []) (me : TaskId) (now : Nat) (p : Platform) :
    (Task.sweep s).step me now p = finishSweep s p := by
  obtain ⟨lights, targets, stage, disabled, failure⟩ := s
  cases ht
  rfl

/-- No call begins anew. -/
theorem ne_start_of_next {task task' : Task} {me : TaskId} {now : Nat} {p q : Platform} {call : Call}
    (h : task.step me now p = (.next task', q)) : task' ≠ .start call := by
  rintro rfl
  match task with
  | .start call' =>
      have he := enter_entered call' me p
      rw [show enter call' me p = _ from h] at he
      cases he
  | .coil job stage => cases (coil_of_next h).choose_spec
  | .sweep s => cases (sweep_of_next h).choose_spec
  | .report t stage => cases (report_of_next h).choose_spec
  | .readSwitch n =>
      simp only [step, finish] at h
      split at h <;> cases h
  | .snapshot found rest inLine =>
      obtain ⟨_, _, _, ht⟩ := snapshot_of_next h
      cases ht

end Task

namespace Platform

/-- The coils that are to be disabled come in order, each once. -/
theorem pairwise_targets (p : Platform) (call : Call) :
    (p.targets call).Pairwise fun c d => compare c d = .lt := by
  have hordered (r : BulkDisableRequest) : (p.disableTargets r).Pairwise fun c d => compare c d = .lt := by
    unfold disableTargets
    exact Std.ExtTreeSet.ordered_toList
  cases call with
  | disableCoils r => exact hordered r
  | reset => exact hordered ⟨none⟩
  | _ => exact .nil

/-- A coil that a bulk disable is through with. -/
structure Handled where
  coil : CoilNumber
  /-- What had happened before the last step of the disable of the coil. -/
  past : List (Event Call Outside)
  result : CoilJob.Result
  /-- What that step added to the journal about the coil itself. -/
  notes : Journal

/-- What has been done for the coil in all. -/
def Handled.deeds (x : Handled) : Journal := x.notes ++ Task.lament x.coil x.result

section Run

variable (config : PlatformConfig) (board : BoardConfig) (clock : Clock) (startedAt : Timestamp)

/-- In the run of `events`, the task `id` was through with a coil by the step that came after the past of it. -/
structure Handled.Holds (events : List (Event Call Outside)) (id : TaskId) (x : Handled) : Prop where
  step : ∃ after, events = x.past ++ .step id :: after
  /-- That step was the last one of the disable of the coil. -/
  own : ∃ stage q, (CoilJob.disable x.coil).step id (scene.run (atRest config board clock startedAt) x.past).now
    stage (scene.run (atRest config board clock startedAt) x.past).state.panel = (.finished x.result, q)
  disposes : CoilJob.Disposes x.coil id (scene.run (atRest config board clock startedAt) x.past).state.panel
    x.result x.notes
  recorded :
    (scene.run (atRest config board clock startedAt) (x.past ++ [.step id])).state.panel.bank.coil x.coil =
      CoilPanel.recorded
        ((scene.run (atRest config board clock startedAt) x.past).state.panel.bank.coil x.coil) x.result
  disabled : ∀ k, x.result = .ok k → k.number = x.coil ∧ k.enabled = false

/-- In the run of `events`, the steps of the task `id` have changed the record of no coil but where it was
through with that coil. -/
def Confined (events : List (Event Call Outside)) (id : TaskId) (done : List Handled) : Prop :=
  ∀ past after n, events = past ++ .step id :: after →
    (scene.run (atRest config board clock startedAt) (past ++ [.step id])).state.panel.bank.coil n =
        (scene.run (atRest config board clock startedAt) past).state.panel.bank.coil n ∨
      ∃ x ∈ done, x.past = past ∧ x.coil = n

/-- In the run of `events`, the bulk disable of the task `id` began after the events `before`, is through with
the coils of `done`, and has `rest` still to do. -/
structure Handles (events : List (Event Call Outside)) (id : TaskId) (call : Call)
    (before : List (Event Call Outside)) (done : List Handled) (rest : List CoilNumber) : Prop where
  began : Began (.ofConfig config (.ofConfig board) clock startedAt) events before id call
  split : (scene.run (atRest config board clock startedAt) before).state.targets call =
    done.map (·.coil) ++ rest
  holds : ∀ x ∈ done, x.Holds config board clock startedAt events id
  ordered : done.Pairwise fun x y => x.past.length < y.past.length
  confined : Confined config board clock startedAt events id done

theorem run_numbered (events : List (Event Call Outside)) :
    (scene.run (atRest config board clock startedAt) events).state.panel.bank.Numbered :=
  (run_good config board clock startedAt events).orderly.numbered

variable {config board clock startedAt} {id : TaskId} {events : List (Event Call Outside)}

theorem Handled.Holds.append {x : Handled} (h : x.Holds config board clock startedAt events id)
    (more : List (Event Call Outside)) : x.Holds config board clock startedAt (events ++ more) id := by
  obtain ⟨after, hstep⟩ := h.step
  exact ⟨⟨after ++ more, by simp [hstep]⟩, h.own, h.disposes, h.recorded, h.disabled⟩

theorem Handled.Holds.length_lt {x : Handled} (h : x.Holds config board clock startedAt events id) :
    x.past.length < events.length := by
  obtain ⟨after, hstep⟩ := h.step
  rw [hstep]
  simp

theorem Confined.mono {done more : List Handled} (h : Confined config board clock startedAt events id done) :
    Confined config board clock startedAt events id (done ++ more) := by
  intro past after n he
  obtain hc | ⟨x, hx, hpast, hn⟩ := h past after n he
  · exact .inl hc
  · exact .inr ⟨x, List.mem_append_left _ hx, hpast, hn⟩

/-- One more event matters only if it is a step of the task. -/
theorem Confined.concat {done : List Handled} (h : Confined config board clock startedAt events id done)
    {e : Event Call Outside} (he : e = .step id → ∀ n,
      (scene.run (atRest config board clock startedAt) (events ++ [.step id])).state.panel.bank.coil n =
          (scene.run (atRest config board clock startedAt) events).state.panel.bank.coil n ∨
        ∃ x ∈ done, x.past = events ∧ x.coil = n) :
    Confined config board clock startedAt (events ++ [e]) id done := by
  intro past after n hsplit
  rcases Scene.concat_eq_append_cons.mp hsplit with ⟨rfl, rfl, -⟩ | ⟨rest, rfl, -⟩
  · exact he rfl n
  · exact h past rest n rfl

theorem Confined.still {done : List Handled} (h : Confined config board clock startedAt events id done)
    {e : Event Call Outside} (he : e = .step id →
      scene.next (scene.run (atRest config board clock startedAt) events) e =
        scene.run (atRest config board clock startedAt) events) :
    Confined config board clock startedAt (events ++ [e]) id done := by
  refine h.concat ?_
  rintro rfl n
  refine .inl ?_
  rw [Scene.run_append, Scene.run_cons, Scene.run_nil, he rfl]

theorem confined_uncalled (h : (calls events).length ≤ id) :
    Confined config board clock startedAt events id [] := by
  induction events using List.reverseRecOn with
  | nil =>
      intro past after n he
      simp at he
  | append_singleton events e ih =>
      have hlt : (calls events).length ≤ id := by
        rw [Scene.calls_append_singleton, List.length_append] at h
        exact Nat.le_of_add_right_le h
      exact (ih hlt).still (next_of_idle (idle_of_uncalled hlt))

variable (config board clock startedAt) in
/-- How far a bulk disable has come in the run of `events`: what it has done, and what it has to show for it. -/
structure Going (events : List (Event Call Outside)) (id : TaskId) (call : Call)
    (before : List (Event Call Outside)) (done : List Handled) (s : Sweep) : Prop where
  handles : Handles config board clock startedAt events id call before done s.targets
  deeds : deeds config board clock startedAt id events = done.flatMap Handled.deeds
  disabled : s.disabled = done.filterMap fun x => x.result.toOption
  failure : s.failure = done.findSome? fun x => CoilJob.failure? x.result
  stage : s.stage.deadline? = none
  lights : s.lights.isSome = true ↔ call = .reset

variable {call : Call} {before : List (Event Call Outside)} {done : List Handled} {s : Sweep}
  {rest : List CoilNumber} {e : Event Call Outside}

theorem Handles.still (h : Handles config board clock startedAt events id call before done rest)
    (he : e = .step id → scene.next (scene.run (atRest config board clock startedAt) events) e =
      scene.run (atRest config board clock startedAt) events) :
    Handles config board clock startedAt (events ++ [e]) id call before done rest where
  began := h.began.append [e]
  split := h.split
  holds := fun x hx => (h.holds x hx).append [e]
  ordered := h.ordered
  confined := h.confined.still he

theorem Going.still (h : Going config board clock startedAt events id call before done s)
    (he : e = .step id → scene.next (scene.run (atRest config board clock startedAt) events) e =
      scene.run (atRest config board clock startedAt) events) :
    Going config board clock startedAt (events ++ [e]) id call before done s :=
  ⟨h.handles.still he, (deeds_still he).trans h.deeds, h.disabled, h.failure, h.stage, h.lights⟩

/-- The first step of a bulk disable looks up its targets. -/
theorem going_first {q : Platform}
    (hr : (scene.run (atRest config board clock startedAt) events).running[id]? = some (.start call))
    (hs : (Task.start call).step id (scene.run (atRest config board clock startedAt) events).now
      (scene.run (atRest config board clock startedAt) events).state = (.next (.sweep s), q))
    (hdeeds : deeds config board clock startedAt id events = [])
    (hconfined : Confined config board clock startedAt events id []) :
    Going config board clock startedAt (events ++ [.step id]) id call events [] s := by
  have hq := scene.state_of_next hr hs
  have hstems := Task.stems_step .start hs
  generalize (scene.run (atRest config board clock startedAt) events).now = now at hs
  have hnext (hpanel : q.panel = (scene.run (atRest config board clock startedAt) events).state.panel)
      (ht : (scene.run (atRest config board clock startedAt) events).state.targets call = s.targets) :
      Handles config board clock startedAt (events ++ [.step id]) id call events [] s.targets ∧
        deeds config board clock startedAt id (events ++ [.step id]) = [] := by
    refine ⟨⟨⟨⟨[], rfl⟩, hr⟩, ht, nofun, .nil, hconfined.concat fun _ n => .inl ?_⟩, ?_⟩
    · rw [hq, hpanel]
    · rw [deeds_step (j := []) rfl hq (by rw [hpanel, List.append_nil]), hdeeds]
      rfl
  cases hstems with
  | disableCoils =>
      cases hs
      obtain ⟨hhandles, hd⟩ := hnext rfl rfl
      exact ⟨hhandles, hd, rfl, rfl, rfl, by simp⟩
  | reset =>
      cases hs
      obtain ⟨hhandles, hd⟩ := hnext rfl rfl
      exact ⟨hhandles, hd, rfl, rfl, rfl, by simp⟩

theorem Handles.concat {c : CoilNumber} {result : CoilJob.Result} {notes : Journal}
    (h : Handles config board clock startedAt events id call before done (c :: rest))
    (hholds : Handled.Holds config board clock startedAt (events ++ [.step id]) id ⟨c, events, result, notes⟩)
    (hothers : ∀ n, n ≠ c →
      (scene.run (atRest config board clock startedAt) (events ++ [.step id])).state.panel.bank.coil n =
        (scene.run (atRest config board clock startedAt) events).state.panel.bank.coil n) :
    Handles config board clock startedAt (events ++ [.step id]) id call before
      (done ++ [⟨c, events, result, notes⟩]) rest where
  began := h.began.append [.step id]
  split := by simp [h.split]
  holds := by
    intro x hx
    rcases List.mem_append.mp hx with hx | hx
    · exact (h.holds x hx).append [.step id]
    · exact List.mem_singleton.mp hx ▸ hholds
  ordered := by
    refine List.pairwise_append.mpr ⟨h.ordered, List.pairwise_singleton .., fun x hx y hy => ?_⟩
    rw [List.mem_singleton.mp hy]
    exact (h.holds x hx).length_lt
  confined := by
    refine h.confined.mono.concat fun _ n => ?_
    by_cases hn : n = c
    · exact .inr ⟨_, List.mem_append_right _ (List.mem_singleton_self _), rfl, hn.symm⟩
    · exact .inl (hothers n hn)

/-- Every further step takes up the first target, or is through with it. -/
theorem Going.step {s' : Sweep} {q : Platform}
    (h : Going config board clock startedAt events id call before done s)
    (hr : (scene.run (atRest config board clock startedAt) events).running[id]? = some (.sweep s))
    (hs : (Task.sweep s).step id (scene.run (atRest config board clock startedAt) events).now
      (scene.run (atRest config board clock startedAt) events).state = (.next (.sweep s'), q)) :
    ∃ done', Going config board clock startedAt (events ++ [.step id]) id call before done' s' := by
  have hq := scene.state_of_next hr hs
  have hn := run_numbered config board clock startedAt events
  obtain ⟨c, rest, ht, -⟩ := Task.next_of_sweep hs
  rw [Task.step_sweep ht] at hs
  have hstep := CoilJob.disable_disables (c := c) hn id
    (scene.run (atRest config board clock startedAt) events).now h.stage
  generalize hown : (CoilJob.disable c).step id _ _ _ = result at hs hstep
  obtain ⟨progress, panel⟩ := result
  have hspares := hstep.spares
  have hhandles := h.handles
  rw [ht] at hhandles
  match progress with
  | .blocked => cases hs
  | .next stage =>
      cases hs
      -- The task has lined up for its coil, and every record is as before.
      obtain ⟨rfl, rfl⟩ := hstep.next
      have hconfined : Confined config board clock startedAt (events ++ [.step id]) id done :=
        hhandles.confined.concat fun _ n => .inl (by rw [hq]; exact CoilBank.coil_request ..)
      refine ⟨done, ⟨hhandles.began.append _, h.handles.split, fun x hx => (hhandles.holds x hx).append _,
        hhandles.ordered, hconfined⟩, ?_, h.disabled, h.failure, rfl, h.lights⟩
      rw [deeds_step (j := []) rfl hq (List.append_nil _).symm, List.append_nil, h.deeds]
  | .finished result =>
      obtain ⟨notes, hdisposes, hj, hcoil⟩ := hstep.disposes
      dsimp only at hj hcoil
      cases hs
      refine ⟨done ++ [⟨c, events, result, notes⟩], ?_, ?_, ?_, ?_, ?_, ?_⟩
      · rw [Task.advance_targets]
        refine hhandles.concat ⟨⟨[], rfl⟩, ⟨_, _, hown⟩, hdisposes, ?_, fun k hk => hdisposes.of_ok hn hk⟩
          fun n hne => ?_
        · rw [hq]
          exact hcoil
        · rw [hq]
          exact hspares.coil n hne
      · rw [deeds_step rfl hq (j := notes ++ Task.lament c result), h.deeds]
        · simp [Handled.deeds]
        · simp [hj]
      · cases result <;> simp [h.disabled, Except.toOption]
      · simp [h.failure, List.findSome?_append]
      · rw [Task.advance_stage]
        rfl
      · rw [Task.advance_lights]
        exact h.lights

theorem going_of_running (h : (scene.run (atRest config board clock startedAt) events).running[id]? =
    some (.sweep s)) : ∃ call before done, Going config board clock startedAt events id call before done s := by
  -- A call that has not begun has done nothing yet; only its first step makes a bulk disable of it.
  have hall := scene.run_each (Q := fun events id task =>
    (∀ call, task = .start call → deeds config board clock startedAt id events = [] ∧
      Confined config board clock startedAt events id []) ∧
    ∀ s, task = .sweep s →
      ∃ call before done, Going config board clock startedAt events id call before done s) _ ?_ ?_ ?_ events h
  · exact hall.2 s rfl
  · rintro events e id task he ⟨hstart, hsweep⟩
    refine ⟨fun call ht => ?_, fun s ht => ?_⟩
    · obtain ⟨hdeeds, hconfined⟩ := hstart call ht
      exact ⟨(deeds_still he).trans hdeeds, hconfined.still he⟩
    · obtain ⟨call, before, done, hgoing⟩ := hsweep s ht
      exact ⟨call, before, done, hgoing.still he⟩
  · refine fun events call => ⟨fun _ _ => ⟨?_, ?_⟩, nofun⟩
    · exact (deeds_still (e := .call call) nofun).trans (deeds_uncalled (Nat.le_refl _))
    · exact (confined_uncalled (Nat.le_refl _)).still (e := .call call) nofun
  · rintro events id task task' q hr ⟨hstart, hsweep⟩ hs
    refine ⟨fun call ht => absurd ht (Task.ne_start_of_next hs), fun s ht => ?_⟩
    subst ht
    obtain ⟨call, -, hstems⟩ := run_stems events hr
    cases Task.stems_step hstems hs with
    | disableCoils =>
      cases hstems with
      | start =>
          obtain ⟨hdeeds, hconfined⟩ := hstart _ rfl
          exact ⟨_, _, _, going_first hr hs hdeeds hconfined⟩
      | disableCoils =>
          obtain ⟨call, before, done, hgoing⟩ := hsweep _ rfl
          obtain ⟨done', hgoing'⟩ := hgoing.step hr hs
          exact ⟨call, before, done', hgoing'⟩
    | reset =>
      cases hstems with
      | start =>
          obtain ⟨hdeeds, hconfined⟩ := hstart _ rfl
          exact ⟨_, _, _, going_first hr hs hdeeds hconfined⟩
      | reset =>
          obtain ⟨call, before, done, hgoing⟩ := hsweep _ rfl
          obtain ⟨done', hgoing'⟩ := hgoing.step hr hs
          exact ⟨call, before, done', hgoing'⟩

/-- What a bulk disable answers when the disables of its targets have come to these results. -/
inductive Sums (call : Call) (results : List (CoilNumber × CoilJob.Result)) : Outcome → Prop
  /-- The failure of the least of the coils that failed is what is answered. -/
  | fails {c e} : (c, .error e) ∈ results →
      (∀ d e', (d, .error e') ∈ results → d = c ∨ compare c d = .lt) → Sums call results (.error e)
  | disables {r} {coils : List Coil} : call = .disableCoils r → results.map (·.2) = coils.map .ok →
      Sums call results (.ok (.coils coils))
  | resets {coils : List Coil} : call = .reset → results.map (·.2) = coils.map .ok →
      Sums call results (.ok .done)

/-- What a bulk disable says at the end: nothing, unless a reset has succeeded. -/
inductive Closes (call : Call) : Outcome → Journal → Prop
  | silent {outcome} : (call = .reset → outcome ≠ .ok .done) → Closes call outcome []
  | resets {lights coils} : call = .reset → Closes call (.ok .done) [.noted (.platformReset lights coils)]

section Sums

variable {results : List (CoilNumber × CoilJob.Result)}

theorem results_of_no_failure (h : (results.findSome? fun x => CoilJob.failure? x.2) = none) :
    results.map (·.2) = (results.filterMap fun x => x.2.toOption).map .ok := by
  induction results with
  | nil => rfl
  | cons x results ih =>
      obtain ⟨c, result⟩ := x
      cases result with
      | error e => simp [CoilJob.failure?] at h
      | ok k =>
          simp only [List.findSome?_cons, CoilJob.failure?] at h
          simp [Except.toOption, ih h]

/-- The first failure is that of the least coil, since the coils come in order. -/
theorem sums_of_failure {e : PlatformError} (h : (results.findSome? fun x => CoilJob.failure? x.2) = some e)
    (hordered : (results.map (·.1)).Pairwise fun c d => compare c d = .lt) : Sums call results (.error e) := by
  -- No coil before this one has failed, and those after it are greater.
  obtain ⟨earlier, ⟨c, result⟩, later, rfl, hx, hearlier⟩ := List.findSome?_eq_some_iff.mp h
  obtain rfl : result = .error e := by
    cases result <;> cases hx
    rfl
  refine .fails (c := c) (by simp) fun d e' hd => ?_
  rcases List.mem_append.mp hd with hd | hd
  · cases hearlier _ hd
  · rcases List.mem_cons.mp hd with hd | hd
    · exact .inl (Prod.mk.inj hd).1
    · have hlater := (List.pairwise_append.mp (List.pairwise_map.mp hordered)).2.1
      exact .inr ((List.pairwise_cons.mp hlater).1 _ hd)

/-- A bulk disable without targets left ends with the first failure, or has nothing but coils. -/
theorem sums_finishSweep (hcall : call = .reset ∨ ∃ r, call = .disableCoils r) (p : Platform)
    (hlights : s.lights.isSome = true ↔ call = .reset)
    (hdisabled : s.disabled = results.filterMap fun x => x.2.toOption)
    (hfailure : s.failure = results.findSome? fun x => CoilJob.failure? x.2)
    (hordered : (results.map (·.1)).Pairwise fun c d => compare c d = .lt) :
    ∃ outcome notes q, Task.finishSweep s p = (.finished outcome, q) ∧ Sums call results outcome ∧
      Closes call outcome notes ∧ q = { p with panel := { p.panel with journal := p.panel.journal ++ notes } } := by
  rw [Task.finishSweep]
  cases hf : s.failure with
  | some e =>
      refine ⟨_, [], p, rfl, sums_of_failure (hfailure.symm.trans hf) hordered, .silent fun _ h => ?_, ?_⟩
      · cases h
      rw [List.append_nil]
  | none =>
      have hresults := results_of_no_failure (hfailure.symm.trans hf)
      rw [← hdisabled] at hresults
      cases hl : s.lights with
      | none =>
          have hne : call ≠ .reset := fun hr => by
            rw [hl] at hlights
            cases hlights.mpr hr
          obtain ⟨r, rfl⟩ := hcall.resolve_left hne
          refine ⟨_, [], p, rfl, .disables rfl hresults, .silent fun h => absurd h hne, ?_⟩
          rw [List.append_nil]
      | some lights =>
          have hr := hlights.mp (by rw [hl]; rfl)
          exact ⟨_, _, _, rfl, .resets hr hresults, .resets hr, rfl⟩

end Sums

theorem Handles.more (h : Handles config board clock startedAt events id call before done rest)
    {r : Outcome} (hr : (scene.run (atRest config board clock startedAt) events).results[id]? = some r)
    (more : List (Event Call Outside)) :
    Handles config board clock startedAt (events ++ more) id call before done rest := by
  induction more using List.reverseRecOn with
  | nil => rwa [List.append_nil]
  | append_singleton more e ih =>
      rw [← List.append_assoc]
      exact ih.still (next_of_idle (idle_of_result hr more))

/-- What there is of a bulk disable that has its result. -/
theorem sweep_handles {outcome : Outcome} (hc : (calls events)[id]? = some call)
    (hcall : call = .reset ∨ ∃ r, call = .disableCoils r)
    (ho : (scene.run (atRest config board clock startedAt) events).results[id]? = some outcome) :
    ∃ before done notes, Handles config board clock startedAt events id call before done [] ∧
      Sums call (done.map fun x => (x.coil, x.result)) outcome ∧ Closes call outcome notes ∧
      deeds config board clock startedAt id events = done.flatMap Handled.deeds ++ notes := by
  obtain ⟨past, after, task, rfl, hr, hs⟩ := scene.finished_of_run _ events ho
  have hall : past ++ .step id :: after = past ++ [.step id] ++ after := by simp
  obtain ⟨hc', hstems⟩ := stems_of_call hr hc
  obtain ⟨s, rfl⟩ : ∃ s, task = .sweep s := by
    rcases hcall with rfl | ⟨r, rfl⟩
    · cases hstems with
      | start => cases congrArg Prod.fst hs
      | @reset s => exact ⟨s, rfl⟩
    · cases hstems with
      | start => cases congrArg Prod.fst hs
      | @disableCoils _ s => exact ⟨s, rfl⟩
  obtain ⟨call', before, done, hgoing⟩ := going_of_running hr
  cases hgoing.handles.began.call.symm.trans hc'
  have hresult := scene.result_of_finished hr hs
  have ht := (Task.finished_of_sweep (congrArg Prod.fst hs)).1
  have hhandles := hgoing.handles
  rw [ht] at hhandles
  have hordered : ((done.map fun x => (x.coil, x.result)).map (·.1)).Pairwise fun c d => compare c d = .lt := by
    have hsplit := hhandles.split
    rw [List.append_nil] at hsplit
    rw [List.map_map]
    exact hsplit ▸ pairwise_targets _ call
  obtain ⟨outcome', notes, q, hfinal, hsums, hcloses, hq⟩ := sums_finishSweep (s := s) hcall
    (scene.run (atRest config board clock startedAt) past).state hgoing.lights
    (by rw [List.filterMap_map]; exact hgoing.disabled) (by rw [List.findSome?_map]; exact hgoing.failure)
    hordered
  have hlast := Prod.mk.inj (hfinal.symm.trans ((Task.step_sweep_nil ht ..).symm.trans hs))
  cases hlast.1
  have hstate : q = (scene.run (atRest config board clock startedAt) (past ++ [.step id])).state := hlast.2
  have hconfined : Confined config board clock startedAt (past ++ [.step id]) id done :=
    hhandles.confined.concat fun _ n => .inl (by rw [← hstate, hq])
  have hend : Handles config board clock startedAt (past ++ [.step id]) id call before done [] :=
    ⟨hhandles.began.append _, hhandles.split, fun x hx => (hhandles.holds x hx).append _,
      hhandles.ordered, hconfined⟩
  refine ⟨before, done, notes, hall ▸ hend.more hresult after, hsums, hcloses, ?_⟩
  rw [hall, deeds_done hresult, deeds_step (j := notes) rfl hstate.symm (by rw [hq]), hgoing.deeds]

end Run
end Platform
end Playfield
