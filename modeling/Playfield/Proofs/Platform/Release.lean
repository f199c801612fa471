import Playfield.Proofs.Platform.Worksite

/-! What a disable achieves. A coil that has been disabled is recorded so, and its driver lets go of it
unless a rule has had the last word. -/
namespace Playfield

namespace Task

/-- How a call to disable a coil goes on. -/
def Disables (call : Call) (task : Task) : Prop :=
  ∀ r, call = .disable r → task = .start call ∨
    ∃ c stage, r.validate = .ok c ∧ task = .coil (.disable c) stage

theorem disables_step {call : Call} {task task' : Task} {me : TaskId} {now : Nat} {p q : Platform}
    (h : task.Disables call) (hs : task.step me now p = (.next task', q)) : task'.Disables call := by
  intro r hr
  refine .inr ?_
  rcases h r hr with rfl | ⟨c, stage, hv, rfl⟩
  · subst hr
    simp only [step, enter] at hs
    cases hv : r.validate with
    | error e =>
        rw [hv] at hs
        cases hs
    | ok c =>
        rw [hv] at hs
        cases hs
        exact ⟨c, .start, rfl, rfl⟩
  · rcases hj : CoilJob.step (.disable c) me now stage p.panel with ⟨progress, panel⟩
    simp only [step, coilStep, hj] at hs
    cases progress with
    | blocked => cases hs
    | finished r => cases hs
    | next stage' =>
        cases hs
        exact ⟨c, stage', hv, rfl⟩

/-- What is still to be done for a bulk disable of every coil: all that are enabled are among the targets,
unless one could not be disabled. -/
def Sweeps (b : CoilBank) : Task → Prop
  | .start call => call = .reset ∨ call = .disableCoils ⟨none⟩
  | .sweep s => s.failure = none → ∀ c, (b.coil c).enabled = true → c ∈ s.targets
  | _ => False

/-- What a step of a bulk disable leaves to be done. -/
def SweepsOn : Step → Prop
  | (.next task, p) => task.Sweeps p.panel.bank
  | (.finished (.ok _), p) => ∀ c, (p.panel.bank.coil c).enabled = false
  | (.finished (.error _), _) | (.blocked, _) => True

end Task

/-- Without a tag, a bulk disable has every coil with a slot among its targets. -/
theorem Platform.mem_disableTargets {p : Platform} {c : CoilNumber} (h : c ∈ p.panel.bank.slots) :
    c ∈ p.disableTargets ⟨none⟩ := by
  simp only [disableTargets, Std.ExtTreeSet.mem_toList, Std.ExtTreeSet.mem_ofList,
    List.contains_iff_mem]
  exact List.mem_append_left _ (CoilBank.mem_known.mpr h)

theorem CoilBank.mem_of_enabled {b : CoilBank} {c : CoilNumber} (h : (b.coil c).enabled = true) :
    c ∈ b.slots := by
  by_contra hn
  rw [coil_of_not_mem hn] at h
  cases h

namespace Task

variable {me : TaskId} {now : Nat} {task : Task} {p : Platform}

theorem sweepsOn_finishSweep {s : Sweep}
    (h : s.failure = none → ∀ c, (p.panel.bank.coil c).enabled = false) :
    SweepsOn (finishSweep s p) := by
  unfold finishSweep
  split
  · exact trivial
  · next hf _ => exact h hf
  · next hf _ => exact h hf

theorem sweepsOn_step (h : task.Sweeps p.panel.bank) (hn : p.panel.bank.Numbered)
    (hc : ∀ job d, task.job? = some (job, .cooling d) → (p.panel.bank.coil job.coil).enabled = false) :
    SweepsOn (task.step me now p) := by
  match task, h with
  | .start call, h =>
      rcases h with rfl | rfl
      · exact fun _ c he => Platform.mem_disableTargets (CoilBank.mem_of_enabled he)
      · exact fun _ c he => Platform.mem_disableTargets (CoilBank.mem_of_enabled he)
  | .sweep ⟨lights, [], stage, done, failure⟩, h =>
      refine sweepsOn_finishSweep fun hf c => ?_
      cases he : (p.panel.bank.coil c).enabled with
      | false => rfl
      | true => cases h hf c he
  | .sweep ⟨lights, target :: rest, stage, done, failure⟩, h =>
      rcases hs : (CoilJob.disable target).step me now stage p.panel with ⟨progress, panel⟩
      have hst := CoilJob.StepsTo.of_step hn hs
      simp only [step, stepSweep, coilStep, hs]
      cases progress with
      | blocked => exact trivial
      | next stage' => exact fun hf c he => h hf c (hst.enabled_mono he)
      | finished r =>
          cases r with
          | error e => exact fun hf => by cases failure <;> cases hf
          | ok k =>
              intro hf c he
              have hd := hst.enabled_eq_false fun d hd => hc (.disable target) d (by rw [← hd]; rfl)
              rcases List.mem_cons.mp (h hf c (hst.enabled_mono he)) with rfl | hm
              · rw [show (panel.bank.coil c).enabled = true from he] at hd
                cases hd
              · exact hm

theorem enabled_of_disables {r : DisableRequest} {a : Answer} {q : Platform}
    (h : task.Disables (.disable r)) (hn : p.panel.bank.Numbered)
    (hc : ∀ job d, task.job? = some (job, .cooling d) → (p.panel.bank.coil job.coil).enabled = false)
    (hs : task.step me now p = (.finished (.ok a), q)) :
    ∃ c, r.validate = .ok c ∧ (q.panel.bank.coil c).enabled = false := by
  rcases h r rfl with rfl | ⟨c, stage, hv, rfl⟩
  · simp only [step, enter] at hs
    cases hv : r.validate <;> rw [hv] at hs <;> cases hs
  · rcases hj : (CoilJob.disable c).step me now stage p.panel with ⟨progress, panel⟩
    have hst := CoilJob.StepsTo.of_step hn hj
    simp only [step, coilStep, hj] at hs
    refine ⟨c, hv, ?_⟩
    cases progress with
    | blocked => cases hs
    | next stage' => cases hs
    | finished result =>
        cases result with
        | error e => cases hs
        | ok k =>
            cases hs
            exact hst.enabled_eq_false fun d hd => hc (.disable c) d (by rw [← hd]; rfl)

end Task

namespace Platform

/-- A bulk disable of every coil, the task `id`, has the platform to itself. -/
structure Alone (id : TaskId) (w : World Platform Task Outcome) : Prop where
  others : ∀ t, t ≠ id → w.running[t]? = none
  sweeps : ∀ task, w.running[id]? = some task → task.Sweeps w.state.panel.bank
  swept : ∀ a, w.results[id]? = some (.ok a) → ∀ c, (w.state.panel.bank.coil c).enabled = false

namespace Alone

variable {id : TaskId} {w : World Platform Task Outcome}

/-- Only the step of the bulk disable changes anything. -/
theorem step (h : Alone id w) (hs : w.Sound) (hg : w.worksite.Good) (t : TaskId) :
    Alone id (w.step Task.workings t) := by
  by_cases ht : t = id
  · subst ht
    have hsweep {task : Task} (hr : w.running[t]? = some task) :
        Task.SweepsOn (Task.workings.step t w.now task w.state) :=
      Task.sweepsOn_step (h.sweeps task hr) hg.orderly.numbered fun job d hj =>
        hg.resting t job d ((World.jobs_of_running hr).trans hj)
    obtain hw | ⟨task, task', p, hr, hstep, hw⟩ | ⟨task, r, p, hr, hstep, hw⟩ :=
      World.step_cases Task.workings w t
    · rwa [hw]
    · have hon := hsweep hr
      rw [hstep] at hon
      rw [hw]
      refine ⟨fun i hi => ?_, fun task ht => ?_, fun a ha => ?_⟩
      · rw [Map.getElem?_insert, if_neg (Ne.symm hi)]
        exact h.others i hi
      · rw [Map.getElem?_insert, if_pos rfl] at ht
        cases ht
        exact hon
      · cases (hs.result_of_running hr).symm.trans ha
    · have hon := hsweep hr
      rw [hstep] at hon
      rw [hw]
      refine ⟨fun i hi => ?_, fun task ht => ?_, fun a ha => ?_⟩
      · rw [Map.getElem?_erase, if_neg (Ne.symm hi)]
        exact h.others i hi
      · rw [Map.getElem?_erase, if_pos rfl] at ht
        cases ht
      · dsimp only at ha
        rw [Map.getElem?_insert, if_pos rfl] at ha
        cases ha
        exact hon
  · rwa [World.step_of_none (h.others t ht)]

theorem abandon (h : Alone id w) (hs : w.Sound) (t : TaskId) :
    Alone id (w.abandon Task.workings t) := by
  obtain ⟨-, hw⟩ | ⟨task, hr, hw⟩ := World.abandon_cases Task.workings w t
  · rwa [hw]
  · have ht : t = id := by
      by_contra ht
      cases (h.others t ht).symm.trans hr
    subst ht
    rw [hw]
    refine ⟨fun i hi => ?_, fun task ht => ?_, fun a ha => ?_⟩
    · rw [Map.getElem?_erase, if_neg (Ne.symm hi)]
      exact h.others i hi
    · rw [Map.getElem?_erase, if_pos rfl] at ht
      cases ht
    · cases (hs.result_of_running hr).symm.trans ha

theorem next (h : Alone id w) (hs : w.Sound) (hg : w.worksite.Good) {e : Event Call Outside}
    (he : e.call? = none) : Alone id (scene.next w e) := by
  cases e with
  | call call => cases he
  | step t => exact h.step hs hg t
  | abandon t => exact h.abandon hs t
  | pass ms => exact ⟨h.others, h.sweeps, h.swept⟩
  | outside e =>
      have hb := bank_outside e w.state
      refine ⟨h.others, fun task ht => ?_, fun a ha c => ?_⟩
      · rw [show (scene.next w (.outside e)).state.panel.bank = w.state.panel.bank from hb]
        exact h.sweeps task ht
      · rw [show (scene.next w (.outside e)).state.panel.bank = w.state.panel.bank from hb]
        exact h.swept a ha c

/-- As long as nobody calls, a bulk disable has the platform to itself. -/
theorem run (h : Alone id w) (hs : w.Sound) (hg : w.worksite.Good) {events : List (Event Call Outside)}
    (he : calls events = []) : Alone id (scene.run w events) := by
  induction events generalizing w with
  | nil => exact h
  | cons e events ih =>
      rw [calls, List.filterMap_eq_nil_iff] at he
      have he' : e.call? = none := he e List.mem_cons_self
      refine ih (h.next hs hg he') (scene.next_sound hs e) (hg.reaches (next_reaches hs e)) ?_
      exact List.filterMap_eq_nil_iff.mpr fun d hd => he d (List.mem_cons_of_mem _ hd)

/-- Called while nothing goes on, a bulk disable has the platform to itself. -/
theorem of_call (hs : w.Sound) (hw : w.running.isEmpty = true) {call : Call}
    (hc : call = .reset ∨ call = .disableCoils ⟨none⟩) : Alone w.nextId (scene.next w (.call call)) := by
  have hr (t : TaskId) : w.running[t]? = none := by
    rw [Std.ExtTreeMap.isEmpty_iff.mp hw]
    rfl
  refine ⟨fun t ht => ?_, fun task ht => ?_, fun a ha => ?_⟩
  · exact (Map.getElem?_insert ..).trans ((if_neg (Ne.symm ht)).trans (hr t))
  · have ht' := (Map.getElem?_insert ..).symm.trans ht
    rw [if_pos rfl] at ht'
    cases ht'
    exact hc
  · cases hs.results_next.symm.trans ha

end Alone

variable (config : PlatformConfig) (board : BoardConfig) (clock : Clock) (startedAt : Timestamp)

/-- When a disable returns, its coil is recorded as disabled, and its driver holds it exactly if the last
that the coil has done was to be fired by a rule with hold power: then it has been passed over. The same goes
for every coil when a reset or a bulk disable of every coil returns that had the platform to itself. -/
theorem released_unless_held_by_rule (events : List (Event Call Outside)) :
    let run := scene.run (atRest config board clock startedAt)
    let panel (events : List (Event Call Outside)) := (run events).state.panel
    (∀ (e : Event Call Outside) (id : TaskId) (r : DisableRequest) (a : Answer),
      (calls events)[id]? = some (.disable r) →
      (run events).results[id]? = none → (run (events ++ [e])).results[id]? = some (.ok a) →
      ∃ c, r.validate = .ok c ∧ (panel (events ++ [e])).Released c) ∧
    (∀ (call : Call) (during : List (Event Call Outside)) (a : Answer),
      call = .reset ∨ call = .disableCoils ⟨none⟩ →
      (run events).running.isEmpty = true → calls during = [] →
      (run (events ++ .call call :: during)).results[(calls events).length]? = some (.ok a) →
      ∀ c, (panel (events ++ .call call :: during)).Released c) := by
  intro run panel
  have hgood (es : List (Event Call Outside)) : (run es).worksite.Good :=
    run_good config board clock startedAt es
  have hfaithful (es : List (Event Call Outside)) : (panel es).Faithful := (hgood es).faithful
  have hsound (es : List (Event Call Outside)) : (run es).Sound :=
    scene.run_sound (World.sound_ofState _) es
  constructor
  · intro e id r a hcall hbefore hafter
    have hrun : run (events ++ [e]) = scene.next (run events) e := scene.run_append _ events [e]
    rw [hrun] at hafter
    obtain ⟨rfl, task, hr, hs⟩ := scene.finished_of_results hbefore hafter
    obtain ⟨call, hc, hq⟩ := scene.run_origin (Q := fun call task => task.Disables call)
      (fun call r hr => .inl rfl) (fun _ _ _ _ _ _ _ h hs => Task.disables_step h hs) _ events hr
    cases hcall.symm.trans hc
    obtain ⟨c, hv, he⟩ := Task.enabled_of_disables hq (hgood events).orderly.numbered
      (fun job d hj => (hgood events).resting id job d ((World.jobs_of_running hr).trans hj)) hs
    rw [← hrun] at he
    exact ⟨c, hv, he, (hfaithful _).isHolding_eq he⟩
  · intro call during a hcall hw hd hr c
    have hrun : run (events ++ .call call :: during) =
        scene.run (scene.next (run events) (.call call)) during := scene.run_append _ events _
    have hid : (run events).nextId = (calls events).length := scene.run_nextId _ events
    have halone := (Alone.of_call (hsound events) hw hcall).run
      (scene.next_sound (hsound events) _) ((hgood events).reaches (next_reaches (hsound events) _)) hd
    rw [hid, ← hrun] at halone
    have he := halone.swept a hr c
    exact ⟨he, (hfaithful _).isHolding_eq he⟩

/-- A rule with hold power fires the coil C1. -/
def ruleFires : List (Event Call Outside) :=
  [.call (.configureRule ⟨"C1", "S1", 10, 1.0, 0.5⟩), .step 0, .call (.report ⟨"S1", true, 1⟩), .step 1,
    .step 1, .step 1, .step 1, .step 1]

/-- The playfield is not at rest after a reset: a coil that a rule holds on is passed over, as it is by a
disable and by a bulk disable of every coil, though each of them returns without an error. -/
theorem held_after_disable_and_reset :
    let run := scene.run (atRest .default .default ⟨0⟩ ⟨0, 0, 0⟩)
    let held (events : List (Event Call Outside)) :=
      ((run events).state.panel.board.driver ⟨"C1", by decide⟩).output.isHolding
    let disable := ruleFires ++ [.call (.disable ⟨"C1"⟩), .step 2, .step 2]
    let sweep (call : Call) := .call call :: List.replicate 5 (Event.step (ε := Outside) 2)
    ((calls disable)[2]? = some (.disable ⟨"C1"⟩) ∧ (run disable).results[2]? = none ∧
      ((run (disable ++ [.step 2])).results[2]?).any Except.isOk = true ∧
      held (disable ++ [.step 2]) = true) ∧
    (run ruleFires).running.isEmpty = true ∧
    (((run (ruleFires ++ sweep (.disableCoils ⟨none⟩))).results[2]?).any Except.isOk = true ∧
      held (ruleFires ++ sweep (.disableCoils ⟨none⟩)) = true) ∧
    (((run (ruleFires ++ sweep .reset)).results[2]?).any Except.isOk = true ∧
      held (ruleFires ++ sweep .reset) = true) := by
  intro run held disable sweep
  refine ⟨⟨rfl, ?_, ?_, ?_⟩, ?_, ⟨?_, ?_⟩, ?_, ?_⟩
  all_goals decide

end Platform
end Playfield
