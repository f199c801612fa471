import Playfield.Proofs.Platform.Bare
import Playfield.Proofs.Platform.Disable
import Playfield.Proofs.Platform.Lights

/-! What a reset reaches, and what it leaves alone. With its first step all lights are out, whatever becomes of the
coils; then it disables the coils as a bulk disable does, and fails as that would; and it has to do with nothing
else. -/
namespace Playfield

/-- Neither a rule has been fired nor a change been published. -/
def Entry.isOrdinary : Entry → Bool
  | .attempted .command _ _ | .noted _ => true
  | .attempted (.rule _) _ _ | .published _ => false

theorem CoilJob.Disposes.isOrdinary {c : CoilNumber} {me : TaskId} {p : CoilPanel} {r : Result} {notes : Journal}
    (h : Disposes c me p r notes) : ∀ x ∈ notes, x.isOrdinary = true := by
  cases h with
  | busy => simp [Entry.isOrdinary]
  | settled =>
      unfold CoilPanel.asking
      split <;> simp [Entry.isOrdinary]

namespace Task

/-- A step changes nothing but the panel, the journal of which it adds ordinary entries to. -/
def Minds (p q : Platform) : Prop :=
  ∃ panel j, q = { p with panel } ∧ panel.journal = p.panel.journal ++ j ∧ ∀ x ∈ j, x.isOrdinary = true

theorem Minds.of_panel {p : Platform} (panel : CoilPanel) (h : panel.journal = p.panel.journal) :
    Minds p { p with panel } :=
  ⟨panel, [], rfl, by rw [h, List.append_nil], fun _ hx => absurd hx List.not_mem_nil⟩

theorem Minds.refl (p : Platform) : Minds p p := .of_panel p.panel rfl

theorem minds_sweep {s : Sweep} {p : Platform} (hn : p.panel.bank.Numbered) (hstage : s.stage.deadline? = none)
    (me : TaskId) (now : Nat) : Minds p ((Task.sweep s).step me now p).2 := by
  cases ht : s.targets with
  | nil =>
      rw [step_sweep_nil ht, finishSweep]
      split
      · exact .refl p
      · exact .refl p
      · exact ⟨_, [_], rfl, rfl, by simp [Entry.isOrdinary]⟩
  | cons c rest =>
      have hstep := CoilJob.disable_disables (c := c) hn me now hstage
      rw [step_sweep ht]
      generalize (CoilJob.disable c).step me now s.stage p.panel = result at hstep
      obtain ⟨progress, panel⟩ := result
      cases progress with
      | blocked =>
          obtain rfl := hstep.blocked
          exact .refl p
      | next stage =>
          obtain ⟨-, rfl⟩ := hstep.next
          exact .of_panel _ rfl
      | finished result =>
          obtain ⟨notes, hdisposes, hj, -⟩ := hstep.disposes
          dsimp only at hj
          refine ⟨_, notes ++ lament c result, rfl, by simp [hj], fun x hx => ?_⟩
          rcases List.mem_append.mp hx with hx | hx
          · exact hdisposes.isOrdinary x hx
          · obtain ⟨e, -, rfl⟩ := List.mem_map.mp hx
            rfl

end Task

namespace World

variable {w : World Platform Task Outcome} {id : TaskId}

/-- A bulk disable that nobody gets in the way of changes nothing but the panel. -/
theorem plod_sweep {s : Sweep} (hr : w.running[id]? = some (.sweep s)) (n : Nat) :
    ∃ panel, (w.plod id n).state = { w.state with panel } := by
  induction n generalizing w s with
  | zero => exact ⟨w.state.panel, rfl⟩
  | succ n ih =>
      rw [plod_succ]
      obtain hw | ⟨task, task', p, hr', hs, hw⟩ | ⟨task, result, p, hr', hs, hw⟩ :=
        step_cases Task.workings w id
      · rw [hw]
        exact ih hr
      · cases hr.symm.trans hr'
        obtain ⟨s', rfl⟩ := Task.sweep_of_next hs
        obtain ⟨panel, hp⟩ := Task.stepSweep_eq s id w.now w.state
        obtain ⟨panel', hq⟩ := ih (w := w.step Task.workings id) (s := s')
          (by rw [hw]; exact (Map.getElem?_insert ..).trans (if_pos rfl))
        refine ⟨panel', ?_⟩
        have hstate : (w.step Task.workings id).state = { w.state with panel } := by
          rw [hw]
          exact (congrArg Prod.snd hs).symm.trans hp
        rw [hq, hstate]
      · cases hr.symm.trans hr'
        obtain ⟨panel, hp⟩ := Task.stepSweep_eq s id w.now w.state
        have hidle : (w.step Task.workings id).running[id]? = none := by
          rw [hw]
          exact (Map.getElem?_erase ..).trans (if_pos rfl)
        rw [plod_idle hidle, hw]
        exact ⟨panel, (congrArg Prod.snd hs).symm.trans hp⟩

/-- A reset that nobody gets in the way of puts the lights out and changes nothing else but the panel. -/
theorem plod_reset {steps : Nat} (hsteps : 1 ≤ steps) :
    ∃ panel, ((Platform.scene.next w (.call .reset)).plod w.nextId steps).state =
      { w.state with panel, lights := .empty } := by
  obtain ⟨n, rfl⟩ := Nat.exists_eq_add_of_le hsteps
  have hr : (Platform.scene.next w (.call .reset)).running[w.nextId]? = some (.start .reset) :=
    (Map.getElem?_insert ..).trans (if_pos rfl)
  obtain ⟨hr', hstate, -⟩ := comes_step hr rfl
  obtain ⟨panel, hp⟩ := plod_sweep hr' n
  refine ⟨panel, ?_⟩
  rw [plod_add, hp, hstate]
  rfl

end World

namespace Platform

section Run

variable {config : PlatformConfig} {board : BoardConfig} {clock : Clock} {startedAt : Timestamp} {id : TaskId}
  {events : List (Event Call Outside)}

variable (config board clock startedAt)

/-- A step of a reset has to do with the lights and the coils, and says nothing but ordinary things. -/
theorem reset_step {before after : List (Event Call Outside)}
    (hc : (calls (before ++ .step id :: after))[id]? = some .reset) : ∃ panel lights j,
      (scene.run (atRest config board clock startedAt) (before ++ [.step id])).state =
        { (scene.run (atRest config board clock startedAt) before).state with panel, lights } ∧
      panel.journal = (scene.run (atRest config board clock startedAt) before).state.panel.journal ++ j ∧
      ∀ x ∈ j, x.isOrdinary = true := by
  rw [Scene.run_append, Scene.run_cons, Scene.run_nil]
  change ∃ panel lights j,
    ((scene.run (atRest config board clock startedAt) before).step Task.workings id).state = _ ∧ _
  rcases World.state_step Task.workings (scene.run (atRest config board clock startedAt) before) id with
    hw | ⟨task, hr, hw⟩
  · exact ⟨_, _, [], hw, (List.append_nil _).symm, nofun⟩
  · rw [hw]
    cases (stems_of_call hr hc).2 with
    | start => exact ⟨_, _, [], rfl, (List.append_nil _).symm, nofun⟩
    | @reset s =>
        obtain ⟨call, past, done, hgoing⟩ := going_of_running hr
        obtain ⟨panel, j, hq, hj, hordinary⟩ := Task.minds_sweep
          (run_numbered config board clock startedAt before) hgoing.stage id
          (scene.run (atRest config board clock startedAt) before).now
        exact ⟨panel, _, j, hq, hj, hordinary⟩

/-- What holds of the resets in the run of `events`. -/
structure ResetsPlayfield (events : List (Event Call Outside)) : Prop where
  /-- A reset that is not given up comes to an end, whatever goes wrong at the coils. -/
  ends : ∀ id : TaskId, (calls events)[id]? = some .reset → .abandon id ∉ events →
    ∃ more : List (Event Call Outside), (∀ e ∈ more, e.goesOn = true) ∧
      ∃ outcome, (scene.run (atRest config board clock startedAt) (events ++ more)).results[id]? = some outcome
  /-- From its first step on, every light is off and has no fade, until a fade of it is started. -/
  lights : ∀ (id : TaskId) before after n, events = before ++ .step id :: after →
    (scene.run (atRest config board clock startedAt) before).running[id]? = some (.start .reset) →
    ¬Fades (scene.run (atRest config board clock startedAt) (before ++ [.step id])) after n →
    (scene.run (atRest config board clock startedAt) events).state.IsDark n
  /-- None of its steps has to do with anything but the lights and the coils: not with the switches, the rules, the
  devices or the stream, with what is pending in it. -/
  frame : ∀ (id : TaskId) before after, (calls events)[id]? = some .reset →
    events = before ++ .step id :: after → ∃ panel lights,
      (scene.run (atRest config board clock startedAt) (before ++ [.step id])).state =
        { (scene.run (atRest config board clock startedAt) before).state with panel, lights }
  /-- It fires no rule and publishes nothing. -/
  silent : ∀ id : TaskId, (calls events)[id]? = some .reset →
    ∀ x ∈ deeds config board clock startedAt id events, x.isOrdinary = true
  /-- By the time it has its result, it has disabled every coil that was known or had a device when it began, and
  those without a failure are recorded as disabled. -/
  coils : ∀ (id : TaskId) (outcome : Outcome), (calls events)[id]? = some .reset →
    (scene.run (atRest config board clock startedAt) events).results[id]? = some outcome →
    ∃ before done, Handles config board clock startedAt events id .reset before done [] ∧
      (∀ c, c ∈ done.map (·.coil) ↔
        (scene.run (atRest config board clock startedAt) before).state.IsTarget ⟨none⟩ c) ∧
      Sums .reset (done.map fun x => (x.coil, x.result)) outcome
  /-- Whatever else goes on, it fails just when the disable of all coils would have failed that came in instead, and
  with the same error; and it succeeds just when that would have succeeded. -/
  fails : ∀ before after v, events = before ++ .call .reset :: after →
    v = scene.run (atRest config board clock startedAt) (before ++ .call (.disableCoils ⟨none⟩) :: after) →
    (∀ e, (scene.run (atRest config board clock startedAt) events).results[(calls before).length]? =
        some (.error e) ↔ v.results[(calls before).length]? = some (.error e)) ∧
      ((∃ a, (scene.run (atRest config board clock startedAt) events).results[(calls before).length]? =
        some (.ok a)) ↔ ∃ a, v.results[(calls before).length]? = some (.ok a))
  /-- If the coils have nobody at work on them, or commands are not queued, and nobody else does anything, then a
  reset that comes in now has for each coil the result that stands there for it, and records it; and it puts the
  lights out, and changes nothing else. -/
  now : ∀ w, w = scene.run (atRest config board clock startedAt) events →
    (∀ c, w.state.IsTarget ⟨none⟩ c →
      w.state.panel.bank.policy = .reject ∨ (w.state.panel.bank.lock c).isHeld = false) →
    ∀ steps v, 2 * (w.state.disableTargets ⟨none⟩).length + 2 ≤ steps →
      v = (scene.next w (.call .reset)).plod w.nextId steps →
      ∃ outcome, v.results[w.nextId]? = some outcome ∧
        Sums .reset (w.state.panel.disablings (w.state.disableTargets ⟨none⟩)) outcome ∧
        CoilPanel.Swept (w.state.disableTargets ⟨none⟩) w.state.panel v.state.panel ∧
        v.state = { w.state with panel := v.state.panel, lights := v.state.lights } ∧ ∀ n, v.state.IsDark n

/-- A reset puts all lights out and disables all coils, as far as it can, and reaches nothing else. -/
theorem reset_reaches_lights_and_coils (events : List (Event Call Outside)) :
    ResetsPlayfield config board clock startedAt events where
  ends := by
    intro id hc hkept
    exact call_completes (run_kept config board clock startedAt events)
      (run_good config board clock startedAt events) hc hkept
  lights := by
    rintro id before after n rfl hr hfades
    have hout : (scene.run (atRest config board clock startedAt) (before ++ [.step id])).state.lights = .empty := by
      rw [scene.state_of_next hr rfl]
    rw [List.append_cons, Scene.run_append]
    refine isDark_of_not_mem (run_not_mem ?_ hfades)
    rw [hout]
    exact Std.ExtTreeMap.not_mem_empty
  frame := by
    rintro id before after hc rfl
    obtain ⟨panel, lights, -, hq, -⟩ := reset_step config board clock startedAt hc
    exact ⟨panel, lights, hq⟩
  silent := by
    intro id hc
    refine deeds_forall ?_
    rintro before after rfl
    obtain ⟨panel, lights, j, hq, hj, hordinary⟩ := reset_step config board clock startedAt hc
    rw [hq]
    exact ⟨j, hj, hordinary⟩
  coils := by
    intro id outcome hc ho
    obtain ⟨before, done, notes, hhandles, hsums, -, -⟩ := sweep_handles hc (.inl rfl) ho
    refine ⟨before, done, hhandles, fun c => ?_, hsums⟩
    have hsplit := hhandles.split
    rw [List.append_nil] at hsplit
    rw [← hsplit]
    exact (run_stocked config board clock startedAt before).mem_disableTargets_iff (r := ⟨none⟩)
  fails := by
    rintro before after _ rfl rfl
    -- Up to what they do to the lights, the two are the same call, and the lights have no say in what fails.
    have hplain : (before ++ .call .reset :: after).map (Event.map Call.plain id) =
        (before ++ .call (.disableCoils ⟨none⟩) :: after).map (Event.map Call.plain id) := by
      simp [Event.map, Call.plain]
    exact ⟨fails_alike _ hplain _, succeeds_alike _ hplain _⟩
  now := by
    rintro w rfl hfree steps v hsteps rfl
    have hstocked := run_stocked config board clock startedAt events
    obtain ⟨outcome, hresult, hsums, hswept⟩ := World.sweep_alone (.inl rfl)
      ⟨run_numbered config board clock startedAt events, pairwise_targets _ .reset,
        fun c hc => hfree c (hstocked.mem_disableTargets_iff.mp hc)⟩ hsteps
    obtain ⟨panel, hv⟩ := World.plod_reset (w := scene.run (atRest config board clock startedAt) events)
      (show 1 ≤ steps by omega)
    refine ⟨outcome, hresult, hsums, hswept, ?_, fun n => ?_⟩
    · rw [hv]
    · rw [hv]
      exact isDark_of_not_mem Std.ExtTreeMap.not_mem_empty

end Run

/-- A light is faded and a coil is enabled, and while that is to be enabled once more, the platform is reset. -/
def resetsBusy : List (Event Call Outside) :=
  [.call (.fadeSingle ⟨"L1", 1.0, 100⟩), .step 0,
    .call (.enable ⟨"C1", 10, 1.0, 0.25⟩), .step 1, .step 1, .step 1,
    .call (.enable ⟨"C1", 20, 1.0, 0.5⟩), .step 2, .step 2, .call .reset, .step 3, .step 3, .step 3]

theorem reset_reaches_lights_past_busy :
    let c : CoilNumber := ⟨"C1", by decide⟩
    let n : LightNumber := ⟨"L1", by decide⟩
    let run := scene.run (atRest ⟨"pinhub", .reject, 256⟩ .default ⟨0⟩ ⟨0, 0, 0⟩)
    n ∈ (run (resetsBusy.take 10)).state.lights.channels ∧
      (run resetsBusy).results[3]? = some (.error (.busy c)) ∧ (run resetsBusy).state.IsDark n := by
  intro c n run
  have hlit : n ∈ (run (resetsBusy.take 10)).state.lights.channels := by decide +kernel
  have hr : (run resetsBusy).results[3]? = some (.error (.busy c)) := by decide +kernel
  have hstart : (run (resetsBusy.take 10)).running[3]? = some (.start .reset) := rfl
  refine ⟨hlit, hr, ?_⟩
  refine (reset_reaches_lights_and_coils _ .default ⟨0⟩ ⟨0, 0, 0⟩ resetsBusy).lights 3 (resetsBusy.take 10)
    [.step 3, .step 3] n rfl hstart ?_
  -- Nothing but the reset is under way, and that has begun.
  rintro ⟨_ | ⟨_, _ | ⟨_, _⟩⟩, _, call, _, hsplit, hcall, -⟩
  · cases hsplit
    cases hcall
  · cases hsplit
    cases hcall
  · simp at hsplit

end Platform
end Playfield
