import Playfield.Proofs.Platform.Devices
import Playfield.Proofs.Platform.Sweep

/-! What a bulk disable comes to. If nobody else does anything meanwhile, it comes to what the disables of its
targets would have come to one by one; in any case each of its targets is disabled once. -/
namespace Playfield

namespace World

variable {w : World Platform Task Outcome} {id : TaskId} {s : Sweep} {c : CoilNumber} {rest : List CoilNumber}

/-- The world once a task has taken so many steps, and nobody else has done anything. -/
def plod (w : World Platform Task Outcome) (id : TaskId) (steps : Nat) : World Platform Task Outcome :=
  Platform.scene.run w (List.replicate steps (.step id))

theorem plod_succ (n : Nat) : w.plod id (n + 1) = (w.step Task.workings id).plod id n := rfl

theorem plod_add (m n : Nat) : w.plod id (m + n) = (w.plod id m).plod id n := by
  rw [plod, plod, plod, List.replicate_add, Scene.run_append]

theorem plod_idle (h : w.running[id]? = none) (n : Nat) : w.plod id n = w := by
  induction n with
  | zero => rfl
  | succ n ih => rw [plod_succ, step_of_none h, ih]

/-- A step that only does something at the coils takes its task on. -/
theorem comes_step {task task' : Task} {q : Platform} (hr : w.running[id]? = some task)
    (hs : task.step id w.now w.state = (.next task', q)) :
    (w.plod id 1).running[id]? = some task' ∧ (w.plod id 1).state = q ∧ (w.plod id 1).now = w.now := by
  have hw : w.plod id 1 = w.step Task.workings id := rfl
  rw [hw, step_of_next hr hs]
  exact ⟨(Map.getElem?_insert ..).trans (if_pos rfl), rfl, rfl⟩

/-- The last step of a task leaves the result. -/
theorem ends_step {task : Task} {r : Outcome} {q : Platform} (hr : w.running[id]? = some task)
    (hs : task.step id w.now w.state = (.finished r, q)) :
    (w.plod id 1).running[id]? = none ∧ (w.plod id 1).results[id]? = some r ∧ (w.plod id 1).state = q := by
  have hw : w.plod id 1 = w.step Task.workings id := rfl
  rw [hw, step_of_finished hr hs]
  exact ⟨(Map.getElem?_erase ..).trans (if_pos rfl), (Map.getElem?_insert ..).trans (if_pos rfl), rfl⟩

/-- A bulk disable that nobody gets in the way of is through with its first target after one step or two. -/
theorem plod_target (hn : w.state.panel.bank.Numbered) (hr : w.running[id]? = some (.sweep s))
    (ht : s.targets = c :: rest) (hstage : s.stage = .start)
    (hfree : w.state.panel.bank.policy = .reject ∨ (w.state.panel.bank.lock c).isHeld = false) :
    ∃ n, n ≤ 2 ∧
      (w.plod id n).running[id]? = some (.sweep (Task.advance s rest (w.state.panel.disabling c))) ∧
      w.state.panel.Spares c (w.plod id n).state.panel ∧
      (w.plod id n).state.panel.bank.coil c =
        CoilPanel.recorded (w.state.panel.bank.coil c) (w.state.panel.disabling c) := by
  obtain ⟨q, hspares, hcoil, hjob | ⟨r, hjob, hjob'⟩⟩ := CoilJob.disable_alone (c := c) hn hfree id w.now
  · have hs := Task.step_sweep ht id w.now w.state
    rw [hstage, hjob] at hs
    obtain ⟨hrunning, hstate, -⟩ := comes_step hr hs
    refine ⟨1, by omega, hrunning, ?_, ?_⟩
    · rw [hstate]
      exact ⟨hspares.policy, hspares.coil, hspares.lock, hspares.fault⟩
    · rw [hstate]
      exact hcoil
  · have hs := Task.step_sweep ht id w.now w.state
    rw [hstage, hjob] at hs
    obtain ⟨hrunning, hstate, hnow⟩ := comes_step hr hs
    have hs' := Task.step_sweep (s := { s with stage := .inLine }) ht id (w.plod id 1).now (w.plod id 1).state
    rw [hstate, hnow] at hs'
    dsimp only at hs'
    rw [hjob'] at hs'
    rw [← hstate, ← hnow] at hs'
    obtain ⟨hrunning', hstate', -⟩ := comes_step hrunning hs'
    refine ⟨1 + 1, by omega, ?_⟩
    rw [plod_add]
    refine ⟨hrunning'.trans ?_, ?_, ?_⟩
    · cases w.state.panel.disabling c <;> rfl
    · rw [hstate']
      exact ⟨hspares.policy, hspares.coil, hspares.lock, hspares.fault⟩
    · rw [hstate']
      exact hcoil

/-- What the disables of the targets of a bulk disable come to in a world in which nobody gets in their way. -/
structure Unhindered (w : World Platform Task Outcome) (targets : List CoilNumber) : Prop where
  numbered : w.state.panel.bank.Numbered
  ordered : targets.Pairwise fun c d => compare c d = .lt
  free : ∀ c ∈ targets, w.state.panel.bank.policy = .reject ∨ (w.state.panel.bank.lock c).isHeld = false

theorem Unhindered.ne_of_mem (h : w.Unhindered (c :: rest)) {n : CoilNumber} (hn : n ∈ rest) : n ≠ c := by
  rintro rfl
  have hlt := (List.pairwise_cons.mp h.ordered).1 n hn
  rw [Std.ReflOrd.compare_self] at hlt
  cases hlt

/-- Once one target is done, the others still have nobody in their way. -/
theorem Unhindered.after {v : World Platform Task Outcome} (h : w.Unhindered (c :: rest))
    (hs : w.state.panel.Spares c v.state.panel)
    (hc : v.state.panel.bank.coil c =
      CoilPanel.recorded (w.state.panel.bank.coil c) (w.state.panel.disabling c)) : v.Unhindered rest where
  numbered := by
    intro n
    by_cases hn : n = c
    · subst hn
      rw [hc]
      cases hd : w.state.panel.disabling n with
      | ok k => exact (CoilPanel.of_disabling hd).1.trans (h.numbered n)
      | error e => exact h.numbered n
    · rw [hs.coil n hn]
      exact h.numbered n
  ordered := (List.pairwise_cons.mp h.ordered).2
  free := by
    intro n hn
    rw [hs.policy, hs.lock n (h.ne_of_mem hn)]
    exact h.free n (List.mem_cons_of_mem _ hn)

/-- A bulk disable that nobody gets in the way of is through with all its targets after two steps for each. -/
theorem plod_targets (h : w.Unhindered s.targets) (hr : w.running[id]? = some (.sweep s))
    (hstage : s.stage = .start) :
    ∃ n s', n ≤ 2 * s.targets.length ∧ (w.plod id n).running[id]? = some (.sweep s') ∧ s'.targets = [] ∧
      s'.lights = s.lights ∧
      s'.disabled = s.disabled ++
        (w.state.panel.disablings s.targets).filterMap (fun x => x.2.toOption) ∧
      s'.failure = s.failure.or
        ((w.state.panel.disablings s.targets).findSome? fun x => CoilJob.failure? x.2) ∧
      CoilPanel.Swept s.targets w.state.panel (w.plod id n).state.panel := by
  induction ht : s.targets generalizing w s with
  | nil =>
      exact ⟨0, s, Nat.zero_le _, hr, ht, rfl, (List.append_nil _).symm, Option.or_none.symm,
        fun c => by simp [plod]⟩
  | cons c rest ih =>
      rw [ht] at h
      obtain ⟨m, hm, hr', hspares, hc⟩ :=
        plod_target h.numbered hr ht hstage (h.free c List.mem_cons_self)
      have hafter := h.after hspares hc
      obtain ⟨n, s', hn, hr', ht', hlights, hdisabled, hfailure, hcoils⟩ :=
        ih (s := Task.advance s rest (w.state.panel.disabling c)) (by rwa [Task.advance_targets]) hr'
          (Task.advance_stage ..) (Task.advance_targets ..)
      -- The first disable spares the other coils, so that it does not matter to the rest that it has come before.
      have hsame : (w.plod id m).state.panel.disablings rest = w.state.panel.disablings rest :=
        List.map_congr_left fun d hd => by rw [hspares.disabling (h.ne_of_mem hd)]
      rw [hsame] at hdisabled hfailure
      refine ⟨m + n, s', by simp only [List.length_cons]; omega, ?_⟩
      rw [plod_add]
      refine ⟨hr', ht', hlights.trans (Task.advance_lights ..), ?_, ?_, fun d => ?_⟩
      · rw [hdisabled, Task.advance_disabled, List.append_assoc, CoilPanel.disablings_cons]
        cases w.state.panel.disabling c <;> rfl
      · rw [hfailure, Task.advance_failure, Option.or_assoc, CoilPanel.disablings_cons, List.findSome?_cons]
        cases w.state.panel.disabling c <;> rfl
      · rw [hcoils d]
        by_cases hd : d = c
        · subst hd
          rw [if_neg fun hm => h.ne_of_mem hm rfl, if_pos List.mem_cons_self, hc]
        · simp only [List.mem_cons, hd, false_or, hspares.coil d hd, hspares.disabling hd]

/-- The first step of a bulk disable looks up its targets. -/
theorem enter_sweep {call : Call} (hcall : call = .reset ∨ ∃ r, call = .disableCoils r) (me : TaskId)
    (p : Platform) : ∃ s q, Task.enter call me p = (.next (.sweep s), q) ∧ q.panel = p.panel ∧
      s.targets = p.targets call ∧ s.stage = .start ∧ s.disabled = [] ∧ s.failure = none ∧
      (s.lights.isSome = true ↔ call = .reset) := by
  rcases hcall with rfl | ⟨r, rfl⟩
  · exact ⟨_, _, rfl, rfl, rfl, rfl, rfl, rfl, by simp⟩
  · exact ⟨_, _, rfl, rfl, rfl, rfl, rfl, rfl, by simp⟩

/-- A bulk disable that nobody gets in the way of answers what the disables of its targets come to. -/
theorem sweep_alone {call : Call} (hcall : call = .reset ∨ ∃ r, call = .disableCoils r)
    (h : w.Unhindered (w.state.targets call)) {steps : Nat}
    (hsteps : 2 * (w.state.targets call).length + 2 ≤ steps) :
    ∃ outcome, ((Platform.scene.next w (.call call)).plod w.nextId steps).results[w.nextId]? = some outcome ∧
      Platform.Sums call (w.state.panel.disablings (w.state.targets call)) outcome ∧
      CoilPanel.Swept (w.state.targets call) w.state.panel
        ((Platform.scene.next w (.call call)).plod w.nextId steps).state.panel := by
  -- One step looks up the targets, each of them takes two steps at most, and one more step answers.
  generalize hv : Platform.scene.next w (.call call) = v
  have hr : v.running[w.nextId]? = some (.start call) := by
    rw [← hv]
    exact (Map.getElem?_insert ..).trans (if_pos rfl)
  have hstate : v.state = w.state := by rw [← hv]; rfl
  obtain ⟨s, q, hs, hpanel, ht, hstage, hdisabled, hfailure, hlights⟩ := enter_sweep hcall w.nextId v.state
  obtain ⟨hr', hq, -⟩ := comes_step hr hs
  rw [hstate] at ht hpanel
  have hpanel' : (v.plod w.nextId 1).state.panel = w.state.panel := by rw [hq, hpanel]
  have h' : (v.plod w.nextId 1).Unhindered s.targets := by
    rw [ht]
    exact ⟨hpanel' ▸ h.numbered, h.ordered, hpanel' ▸ h.free⟩
  obtain ⟨n, s', hn, hr', ht', hlights', hdisabled', hfailure', hswept⟩ := plod_targets h' hr' hstage
  rw [hpanel', ht] at hdisabled' hfailure' hswept
  rw [ht] at hn
  rw [hdisabled, List.nil_append] at hdisabled'
  rw [hfailure, Option.none_or] at hfailure'
  have hordered : ((w.state.panel.disablings (w.state.targets call)).map (·.1)).Pairwise
      fun c d => compare c d = .lt := by
    rw [CoilPanel.disablings, List.map_map]
    exact (List.map_id _).symm ▸ h.ordered
  obtain ⟨outcome, notes, q', hend, hsums, -, hq'⟩ := Platform.sums_finishSweep hcall
    ((v.plod w.nextId 1).plod w.nextId n).state (by rw [hlights', hlights]) hdisabled' hfailure' hordered
  have hs' := (Task.step_sweep_nil ht' w.nextId ((v.plod w.nextId 1).plod w.nextId n).now _).trans hend
  obtain ⟨hidle, hresult, hstate'⟩ := ends_step hr' hs'
  have hlast : v.plod w.nextId steps = ((v.plod w.nextId 1).plod w.nextId n).plod w.nextId 1 := by
    rw [← plod_idle hidle (steps - (1 + n + 1)), ← plod_add, ← plod_add, ← plod_add]
    congr 1
    omega
  rw [hlast]
  refine ⟨outcome, hresult, hsums, ?_⟩
  rw [hstate', hq']
  exact hswept

theorem swept_single {p q : CoilPanel} (hs : p.Spares c q)
    (hc : q.bank.coil c = CoilPanel.recorded (p.bank.coil c) (p.disabling c)) : CoilPanel.Swept [c] p q := by
  intro d
  by_cases hd : d = c
  · subst hd
    rw [if_pos List.mem_cons_self, hc]
  · rw [if_neg (by simpa using hd), hs.coil d hd]

/-- The disable of a coil that nobody gets in the way of is over after one step or two. -/
theorem plod_disable (hn : w.state.panel.bank.Numbered)
    (hfree : w.state.panel.bank.policy = .reject ∨ (w.state.panel.bank.lock c).isHeld = false)
    (hr : w.running[id]? = some (.coil (.disable c) .start)) :
    ∃ n, n ≤ 2 ∧ (w.plod id n).running[id]? = none ∧
      (w.plod id n).results[id]? = some ((w.state.panel.disabling c).map .coil) ∧
      CoilPanel.Swept [c] w.state.panel (w.plod id n).state.panel := by
  obtain ⟨q, hspares, hcoil, hjob | ⟨r, hjob, hjob'⟩⟩ := CoilJob.disable_alone (c := c) hn hfree id w.now
  · have hs : (Task.coil (.disable c) .start).step id w.now w.state =
        (.finished ((w.state.panel.disabling c).map .coil), { w.state with panel := q }) := by
      simp only [Task.step, Task.coilStep, hjob, Progress.map]
    obtain ⟨hidle, hresult, hstate⟩ := ends_step hr hs
    refine ⟨1, by omega, hidle, hresult, ?_⟩
    rw [hstate]
    exact swept_single hspares hcoil
  · have hs : (Task.coil (.disable c) .start).step id w.now w.state =
        (.next (.coil (.disable c) .inLine), { w.state with panel := r }) := by
      simp only [Task.step, Task.coilStep, hjob, Progress.map]
    obtain ⟨hr', hstate, hnow⟩ := comes_step hr hs
    have hs' : (Task.coil (.disable c) .inLine).step id (w.plod id 1).now (w.plod id 1).state =
        (.finished ((w.state.panel.disabling c).map .coil), { w.state with panel := q }) := by
      simp only [hnow, hstate, Task.step, Task.coilStep, hjob', Progress.map]
    obtain ⟨hidle, hresult, hstate'⟩ := ends_step hr' hs'
    refine ⟨1 + 1, by omega, ?_⟩
    rw [plod_add]
    refine ⟨hidle, hresult, ?_⟩
    rw [hstate']
    exact swept_single hspares hcoil

/-- The disable of a coil that nobody gets in the way of answers what it comes to. -/
theorem disable_alone (hn : w.state.panel.bank.Numbered)
    (hfree : w.state.panel.bank.policy = .reject ∨ (w.state.panel.bank.lock c).isHeld = false)
    {r : DisableRequest} (hr : r.validate = .ok c) {steps : Nat} (hsteps : 3 ≤ steps) :
    ((Platform.scene.next w (.call (.disable r))).plod w.nextId steps).results[w.nextId]? =
        some ((w.state.panel.disabling c).map .coil) ∧
      CoilPanel.Swept [c] w.state.panel
        ((Platform.scene.next w (.call (.disable r))).plod w.nextId steps).state.panel := by
  generalize hv : Platform.scene.next w (.call (.disable r)) = v
  have hstart : v.running[w.nextId]? = some (.start (.disable r)) := by
    rw [← hv]
    exact (Map.getElem?_insert ..).trans (if_pos rfl)
  have hstate : v.state = w.state := by rw [← hv]; rfl
  have hs : (Task.start (.disable r)).step w.nextId v.now v.state =
      (.next (.coil (.disable c) .start), v.state) := by
    simp only [Task.step, Task.enter, hr]
    rfl
  obtain ⟨hr', hsame, -⟩ := comes_step hstart hs
  rw [hstate] at hsame
  rw [← hsame] at hn hfree ⊢
  obtain ⟨n, hn', hidle, hresult, hswept⟩ := plod_disable hn hfree hr'
  have hlast : v.plod w.nextId steps = (v.plod w.nextId 1).plod w.nextId n := by
    rw [← plod_idle hidle (steps - (1 + n)), ← plod_add, ← plod_add]
    congr 1
    omega
  rw [hlast]
  exact ⟨hresult, hswept⟩

end World

namespace Platform

/-- A coil that a bulk disable is to disable: one with a device that carries the tag, or without a tag one that
has a device or is known. -/
def IsTarget (p : Platform) (r : BulkDisableRequest) (c : CoilNumber) : Prop :=
  (r.tag = none ∧ c ∈ p.panel.bank.known) ∨
    ∃ name d, p.devices.Holds .coil name d ∧ d.number = c.text ∧
      ∀ tag, r.tag = some tag → normalize tag ∈ d.tags

theorem Stocked.mem_disableTargets_iff {p : Platform} (h : p.Stocked) {r : BulkDisableRequest} {c : CoilNumber} :
    c ∈ p.disableTargets r ↔ p.IsTarget r c := by
  constructor
  · intro hc
    simp only [disableTargets, Std.ExtTreeSet.mem_toList] at hc
    cases ht : r.tag with
    | none =>
        rw [ht, Std.ExtTreeSet.mem_ofList, List.contains_iff_mem] at hc
        rcases List.mem_append.mp hc with hc | hc
        · exact .inl ⟨ht, hc⟩
        · obtain ⟨d, hd, hn⟩ := List.mem_filterMap.mp hc
          obtain ⟨hk, htext⟩ := Device.number?_eq_some.mp hn
          exact .inr ⟨d.name, d, hk ▸ (h.proper.mem_query.mp hd).1, htext.symm, by simp [ht]⟩
    | some tag =>
        rw [ht, Std.ExtTreeSet.mem_ofList, List.contains_iff_mem] at hc
        obtain ⟨d, hd, hn⟩ := List.mem_filterMap.mp hc
        obtain ⟨hk, htext⟩ := Device.number?_eq_some.mp hn
        obtain ⟨hholds, -, htag, -⟩ := h.proper.mem_query.mp hd
        refine .inr ⟨d.name, d, hk ▸ hholds, htext.symm, ?_⟩
        rintro _ h
        cases ht.symm.trans h
        exact Std.ExtTreeSet.contains_iff_mem.mp htag
  · rintro (⟨ht, hc⟩ | ⟨name, d, hd, hn, htag⟩)
    · simp only [disableTargets, Std.ExtTreeSet.mem_toList, ht]
      rw [Std.ExtTreeSet.mem_ofList, List.contains_iff_mem]
      exact List.mem_append_left _ hc
    · refine h.mem_disableTargets hd (fun tag ht => ?_)
        (Device.number?_eq_some.mpr ⟨h.proper.kind _ _ _ hd, hn.symm⟩)
      exact Std.ExtTreeSet.contains_iff_mem.mpr (htag tag ht)

/-- What bulk disables would come to that came in now, if nobody else did anything. -/
structure DisablesNow (w : World Platform Task Outcome) : Prop where
  targets : ∀ r c, c ∈ w.state.disableTargets r ↔ w.state.IsTarget r c
  /-- Unless somebody is at work on a target and commands are queued, so that the bulk disable would wait, it has
  for each target the result that stands there for it. With that result the coil is recorded, and no other coil
  changes. -/
  bulk : ∀ r, (∀ c, w.state.IsTarget r c →
      w.state.panel.bank.policy = .reject ∨ (w.state.panel.bank.lock c).isHeld = false) →
    ∀ steps v, 2 * (w.state.disableTargets r).length + 2 ≤ steps →
      v = (scene.next w (.call (.disableCoils r))).plod w.nextId steps →
      ∃ outcome, v.results[w.nextId]? = some outcome ∧
        Sums (.disableCoils r) (w.state.panel.disablings (w.state.disableTargets r)) outcome ∧
        CoilPanel.Swept (w.state.disableTargets r) w.state.panel v.state.panel
  /-- That is the result of the disable of the coil itself, were it to come in instead. -/
  own : ∀ (r : DisableRequest) c, r.validate = .ok c →
    w.state.panel.bank.policy = .reject ∨ (w.state.panel.bank.lock c).isHeld = false →
    ∀ steps v, 3 ≤ steps → v = (scene.next w (.call (.disable r))).plod w.nextId steps →
      v.results[w.nextId]? = some ((w.state.panel.disabling c).map .coil)
  disabled : ∀ c k, w.state.panel.disabling c = .ok k → k.number = c ∧ k.enabled = false

section Run

variable (config : PlatformConfig) (board : BoardConfig) (clock : Clock) (startedAt : Timestamp)

theorem run_stocked (events : List (Event Call Outside)) :
    (scene.run (atRest config board clock startedAt) events).state.Stocked :=
  (idle_ofConfig config board clock startedAt).run_stocked stocked_ofConfig events

/-- What holds of the bulk disables in the run of `events`. -/
structure DisablesInBulk (events : List (Event Call Outside)) : Prop where
  /-- A bulk disable that is not given up comes to an end, whatever goes wrong on the way. -/
  ends : ∀ (id : TaskId) (r : BulkDisableRequest), (calls events)[id]? = some (.disableCoils r) →
    .abandon id ∉ events → ∃ more : List (Event Call Outside), (∀ e ∈ more, e.goesOn = true) ∧
      ∃ outcome, (scene.run (atRest config board clock startedAt) (events ++ more)).results[id]? = some outcome
  /-- By then it has disabled each of the coils that were its targets when it began, once and in order, and has
  done nothing else. It answers with the failure of the least coil that failed, or with all the coils. -/
  attempts : ∀ (id : TaskId) (r : BulkDisableRequest) (outcome : Outcome),
    (calls events)[id]? = some (.disableCoils r) →
    (scene.run (atRest config board clock startedAt) events).results[id]? = some outcome →
    ∃ before done, Handles config board clock startedAt events id (.disableCoils r) before done [] ∧
      (∀ c, c ∈ done.map (·.coil) ↔
        (scene.run (atRest config board clock startedAt) before).state.IsTarget r c) ∧
      (done.map (·.coil)).Pairwise (fun c d => compare c d = .lt) ∧
      Sums (.disableCoils r) (done.map fun x => (x.coil, x.result)) outcome ∧
      deeds config board clock startedAt id events = done.flatMap Handled.deeds
  now : DisablesNow (scene.run (atRest config board clock startedAt) events)

theorem disables_now (events : List (Event Call Outside)) :
    DisablesNow (scene.run (atRest config board clock startedAt) events) where
  targets := fun r c => (run_stocked config board clock startedAt events).mem_disableTargets_iff
  bulk := by
    rintro r hfree steps _ hsteps rfl
    have hstocked := run_stocked config board clock startedAt events
    exact World.sweep_alone (.inr ⟨r, rfl⟩) ⟨run_numbered config board clock startedAt events,
      pairwise_targets _ (.disableCoils r), fun c hc => hfree c (hstocked.mem_disableTargets_iff.mp hc)⟩ hsteps
  own := by
    rintro r c hr hfree steps _ hsteps rfl
    exact (World.disable_alone (run_numbered config board clock startedAt events) hfree hr hsteps).1
  disabled := by
    intro c k hk
    obtain ⟨hnumber, he⟩ := CoilPanel.of_disabling hk
    exact ⟨hnumber.trans (run_numbered config board clock startedAt events c), he⟩

/-- A bulk disable goes on after a failure, and for every target it does what the disable of that coil does. -/
theorem bulk_disable_attempts_all (events : List (Event Call Outside)) :
    DisablesInBulk config board clock startedAt events where
  ends := by
    intro id r hc hkept
    exact call_completes (run_kept config board clock startedAt events)
      (run_good config board clock startedAt events) hc hkept
  attempts := by
    intro id r outcome hc ho
    obtain ⟨before, done, notes, hhandles, hsums, hcloses, hdeeds⟩ := sweep_handles hc (.inr ⟨r, rfl⟩) ho
    have hsplit := hhandles.split
    rw [List.append_nil] at hsplit
    refine ⟨before, done, hhandles, fun c => ?_, hsplit ▸ pairwise_targets _ _, hsums, ?_⟩
    · rw [← hsplit]
      exact (run_stocked config board clock startedAt before).mem_disableTargets_iff
    · cases hcloses with
      | silent => rw [hdeeds, List.append_nil]
      | resets h => cases h
  now := disables_now config board clock startedAt events

end Run

/-- Two coils are enabled, and while the first of them is to be enabled once more, all are disabled. -/
def disablesAll : List (Event Call Outside) :=
  [.call (.enable ⟨"C1", 10, 1.0, 0.25⟩), .step 0, .step 0, .step 0,
    .call (.enable ⟨"C2", 10, 1.0, 0.25⟩), .step 1, .step 1, .step 1,
    .call (.enable ⟨"C1", 20, 1.0, 0.5⟩), .step 2, .step 2,
    .call (.disableCoils ⟨none⟩), .step 3, .step 3, .step 3, .step 3, .step 3]

theorem bulk_disable_attempts_all_past_busy :
    let c : CoilNumber := ⟨"C1", by decide⟩
    let d : CoilNumber := ⟨"C2", by decide⟩
    let config : PlatformConfig := ⟨"pinhub", .reject, 256⟩
    let w := scene.run (atRest config .default ⟨0⟩ ⟨0, 0, 0⟩) disablesAll
    w.results[3]? = some (.error (.busy c)) ∧
      (∃ before done, Handles config .default ⟨0⟩ ⟨0, 0, 0⟩ disablesAll 3 (.disableCoils ⟨none⟩) before done [] ∧
        Sums (.disableCoils ⟨none⟩) (done.map fun x => (x.coil, x.result)) (.error (.busy c))) ∧
      (w.state.panel.bank.coil c).enabled = true ∧ (w.state.panel.bank.coil d).enabled = false := by
  intro c d config w
  have hr : w.results[3]? = some (.error (.busy c)) := by decide +kernel
  have hbulk := bulk_disable_attempts_all config .default ⟨0⟩ ⟨0, 0, 0⟩ disablesAll
  obtain ⟨before, done, hhandles, -, -, hsums, -⟩ := hbulk.attempts 3 ⟨none⟩ _ rfl hr
  refine ⟨hr, ⟨before, done, hhandles, hsums⟩, ?_⟩
  decide +kernel

end Platform
end Playfield
