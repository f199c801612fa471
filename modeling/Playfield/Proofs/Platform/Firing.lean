import Playfield.Proofs.Platform.Progress
import Playfield.Proofs.Platform.Rules

/-! Reports on their way. A report that changes its switch fires the rules that are configured at that
moment, one after the other and whether or not the board accepts, and publishes the change after the last. -/
namespace Playfield

/-- What the journal tells when a rule is fired. -/
def HardwareRule.firing (rule : HardwareRule) (fault : Option BoardFault) : Journal :=
  .attempted (.rule rule.key) rule.actuation fault ::
    fault.toList.map fun f => .noted (.ruleNotFired rule.key (.unavailable f.unavailable))

theorem HardwareRule.published_firing (rule : HardwareRule) (fault : Option BoardFault) :
    Journal.published (rule.firing fault) = [] := by
  cases fault <;> rfl

/-- A rule that has the lock of its coil is sent to the board, once, and is done with whatever the board
answers. -/
theorem CoilJob.act_fire (rule : HardwareRule) (now : Nat) (p : CoilPanel) :
    ∃ board, (CoilJob.fire rule).act now p =
      (.finished ((p.board.fault? rule.coil).elim (.ok (p.bank.coil rule.coil)) fun fault =>
          .error (.unavailable fault.unavailable)),
        ⟨p.bank.release rule.coil, board,
          p.journal ++ [.attempted (.rule rule.key) rule.actuation (p.board.fault? rule.coil)]⟩) := by
  cases hf : p.board.fault? rule.coil with
  | some fault =>
      simp only [act, CoilPanel.send_of_fault (a := rule.actuation) hf]
      exact ⟨p.board, rfl⟩
  | none =>
      simp only [act, CoilPanel.send_of_no_fault (a := rule.actuation) hf]
      exact ⟨p.board.accept rule.actuation, rfl⟩

namespace Task

/-- What a step comes to that has the rule `rule` in hand. -/
inductive Fires (t : Transition) (rule : HardwareRule) (others : List HardwareRule) (p : Platform) :
    CoilStage → Step → Prop
  | linesUp {q} : (∀ c, q.panel.bank.coil c = p.panel.bank.coil c) →
      q.panel.journal = p.panel.journal →
      Fires t rule others p .start (.next (.report t (.firing (rule :: others) .inLine)), q)
  | waits : Fires t rule others p .inLine (.blocked, p)
  | fires {q} : (∀ c, q.panel.bank.coil c = p.panel.bank.coil c) →
      q.panel.journal = p.panel.journal ++ rule.firing (p.panel.board.fault? rule.coil) →
      Fires t rule others p .inLine (fireRules t others q)

theorem fire_fires (t : Transition) (rule : HardwareRule) (others : List HardwareRule)
    {stage : CoilStage} (hstage : stage.deadline? = none) (me : TaskId) (now : Nat) (p : Platform) :
    Fires t rule others p stage (stepReport t (.firing (rule :: others) stage) me now p) := by
  cases stage with
  | start => exact .linesUp (fun c => p.panel.bank.coil_request rule.coil c me) rfl
  | cooling deadline => cases hstage
  | inLine =>
      by_cases hh : p.panel.bank.isHeldBy rule.coil me = true
      · obtain ⟨board, hact⟩ := CoilJob.act_fire rule now p.panel
        have hs : (CoilJob.fire rule).step me now .inLine p.panel = _ := (if_pos hh).trans hact
        have hc (c : CoilNumber) := p.panel.bank.coil_release rule.coil c
        simp only [stepReport, coilStep, hs]
        cases hf : p.panel.board.fault? rule.coil with
        | none => exact .fires hc (by rw [hf]; rfl)
        | some fault =>
            refine .fires hc ?_
            rw [hf, HardwareRule.firing]
            exact List.append_assoc ..
      · have hs : (CoilJob.fire rule).step me now .inLine p.panel = _ := if_neg hh
        simp only [stepReport, coilStep, hs]
        exact .waits

end Task

namespace Platform

/-- What an event adds to the journal if it is a step of the task `id`. -/
def added (id : TaskId) (w : World Platform Task Outcome) (e : Event Call Outside)
    (w' : World Platform Task Outcome) : Option Journal :=
  match e with
  | .step i =>
    if i = id then some (w'.state.panel.journal.drop w.state.panel.journal.length) else none
  | .call _ | .abandon _ | .pass _ | .outside _ => none

/-- A report changes its switch with the step from `p` to `q`, and has these rules to fire. -/
inductive Turns (t : Transition) (p q : Platform) : List HardwareRule → Prop
  | mk {x} : (p.switches.switch t.switch).Reported t.flip (.ok (true, x)) →
      q.switches.switch t.switch = x → Turns t p q (p.rules.evaluate t.switch t.isActive)

/-- How a report ends that gets to its switch on the platform `p` and leaves `q` with that step: its
outcome, and what it does in all. -/
inductive Concludes (t : Transition) (p q : Platform) : Outcome → Journal → Prop
  | stale {stale} : (p.switches.switch t.switch).Reported t.flip (.error stale) →
      q.switches.switch t.switch = p.switches.switch t.switch →
      Concludes t p q (.error (.stale stale)) [.noted (.reportDropped stale)]
  | repeats {x} : (p.switches.switch t.switch).Reported t.flip (.ok (false, x)) →
      q.switches.switch t.switch = x →
      Concludes t p q (.ok (.changed false)) [.noted (.stateRepeated t.switch)]
  | changes {x event} {fired : List (HardwareRule × Option BoardFault)} :
      (p.switches.switch t.switch).Reported t.flip (.ok (true, x)) → q.switches.switch t.switch = x →
      (∀ rule, rule ∈ fired.map (·.1) ↔
        t.isActive = true ∧ p.rules.get? ⟨t.switch, rule.coil⟩ = some rule) →
      (fired.map (·.1)).Pairwise (fun rule later => compare rule.coil later.coil = .lt) →
      event.switch = t.switch → event.flip = t.flip →
      Concludes t p q (.ok (.changed true))
        (fired.flatMap (fun x => x.1.firing x.2) ++ [.published event])

section Run

variable (config : PlatformConfig) (board : BoardConfig) (clock : Clock) (startedAt : Timestamp)

/-- What the task `id` has done in a run: what its steps have added to the journal. -/
def deeds (id : TaskId) (events : List (Event Call Outside)) : Journal :=
  (scene.observe (added id) (atRest config board clock startedAt) events).flatten

variable {config board clock startedAt} {id : TaskId} {events : List (Event Call Outside)}

theorem deeds_concat (e : Event Call Outside) :
    let w := scene.run (atRest config board clock startedAt) events
    deeds config board clock startedAt id (events ++ [e]) =
      deeds config board clock startedAt id events ++ (added id w e (scene.next w e)).getD [] := by
  intro w
  rw [deeds, Scene.observe_append, List.flatten_append]
  cases added id w e (scene.next w e) <;> simp [deeds]

/-- Whatever the others do adds nothing to what a task has done, nor does a step in which it waits. -/
theorem deeds_still {e : Event Call Outside}
    (he : e = .step id → scene.next (scene.run (atRest config board clock startedAt) events) e =
      scene.run (atRest config board clock startedAt) events) :
    deeds config board clock startedAt id (events ++ [e]) =
      deeds config board clock startedAt id events := by
  rw [deeds_concat]
  cases e with
  | step i =>
      by_cases hi : i = id
      · subst hi
        simp [he rfl, added]
      · simp [added, hi]
  | call call => simp [added]
  | abandon i => simp [added]
  | pass ms => simp [added]
  | outside event => simp [added]

theorem deeds_step {p q : Platform} {j : Journal}
    (hp : (scene.run (atRest config board clock startedAt) events).state = p)
    (hq : (scene.run (atRest config board clock startedAt) (events ++ [.step id])).state = q)
    (hj : q.panel.journal = p.panel.journal ++ j) :
    deeds config board clock startedAt id (events ++ [.step id]) =
      deeds config board clock startedAt id events ++ j := by
  rw [Scene.run_append, Scene.run_cons, Scene.run_nil] at hq
  rw [deeds_concat]
  simp [added, hp, hq, hj]

/-- A task that is not at work does nothing. -/
theorem next_of_idle {w : World Platform Task Outcome} (h : w.running[id]? = none) {e : Event Call Outside}
    (he : e = .step id) : scene.next w e = w := by
  subst he
  exact World.step_of_none h

/-- A task is not at work before its call. -/
theorem idle_of_uncalled (h : (calls events).length ≤ id) :
    (scene.run (atRest config board clock startedAt) events).running[id]? = none := by
  apply Std.ExtTreeMap.getElem?_eq_none
  intro hm
  have hnext := (run_kept config board clock startedAt events).sound.running_lt id hm
  rw [atRest, Scene.run_nextId] at hnext
  exact Nat.not_lt.mpr h hnext

theorem deeds_uncalled (h : (calls events).length ≤ id) :
    deeds config board clock startedAt id events = [] := by
  induction events using List.reverseRecOn with
  | nil => rfl
  | append_singleton events e ih =>
      have hlt : (calls events).length ≤ id := by
        rw [Scene.calls_append_singleton, List.length_append] at h
        exact Nat.le_of_add_right_le h
      rw [deeds_still (next_of_idle (idle_of_uncalled hlt))]
      exact ih hlt

/-- Nor is it at work once it has its result. -/
theorem idle_of_result {r : Outcome}
    (h : (scene.run (atRest config board clock startedAt) events).results[id]? = some r)
    (more : List (Event Call Outside)) :
    (scene.run (atRest config board clock startedAt) (events ++ more)).running[id]? = none := by
  have hsound := (run_kept config board clock startedAt (events ++ more)).sound
  cases hr : (scene.run (atRest config board clock startedAt) (events ++ more)).running[id]? with
  | none => rfl
  | some task =>
      have hkeep := scene.run_results (run_kept config board clock startedAt events).sound h more
      rw [← Scene.run_append, hsound.result_of_running hr] at hkeep
      cases hkeep

theorem deeds_done {r : Outcome} {more : List (Event Call Outside)}
    (h : (scene.run (atRest config board clock startedAt) events).results[id]? = some r) :
    deeds config board clock startedAt id (events ++ more) =
      deeds config board clock startedAt id events := by
  induction more using List.reverseRecOn with
  | nil => rw [List.append_nil]
  | append_singleton more e ih =>
      rw [← List.append_assoc, deeds_still (next_of_idle (idle_of_result h more)), ih]

/-- What all the steps of a task add to the journal has been added by one of them. -/
theorem deeds_forall {P : Entry → Prop} (h : ∀ before after, events = before ++ .step id :: after →
      ∃ j, (scene.run (atRest config board clock startedAt) (before ++ [.step id])).state.panel.journal =
        (scene.run (atRest config board clock startedAt) before).state.panel.journal ++ j ∧ ∀ x ∈ j, P x) :
    ∀ x ∈ deeds config board clock startedAt id events, P x := by
  induction events using List.reverseRecOn with
  | nil => exact fun x hx => absurd hx List.not_mem_nil
  | append_singleton events e ih =>
      have hold := ih fun before after he => h before (after ++ [e]) (by rw [he]; simp)
      by_cases he : e = .step id
      · subst he
        obtain ⟨j, hj, hp⟩ := h events [] rfl
        rw [deeds_step rfl rfl hj]
        intro x hx
        rcases List.mem_append.mp hx with hx | hx
        · exact hold x hx
        · exact hp x hx
      · rw [deeds_still fun h => absurd h he]
        exact hold

variable (config board clock startedAt) in
/-- How far a report has come that is not over. It has done nothing before it changes its switch; from then
on it has fired the first of the rules that were configured at that moment. -/
inductive Underway (events : List (Event Call Outside)) (id : TaskId) : Task → Prop
  | start {r} : deeds config board clock startedAt id events = [] → Underway events id (.start (.report r))
  | inLine {t} : deeds config board clock startedAt id events = [] → Underway events id (.report t .inLine)
  | firing {t before after rest g} (fired : List (HardwareRule × Option BoardFault)) :
      events = before ++ .step id :: after →
      Turns t (scene.run (atRest config board clock startedAt) before).state
        (scene.run (atRest config board clock startedAt) (before ++ [.step id])).state
        (fired.map (·.1) ++ rest) →
      deeds config board clock startedAt id events = fired.flatMap (fun x => x.1.firing x.2) →
      g.deadline? = none → Underway events id (.report t (.firing rest g))

theorem Underway.mono {task : Task} (h : Underway config board clock startedAt events id task)
    {e : Event Call Outside}
    (he : deeds config board clock startedAt id (events ++ [e]) =
      deeds config board clock startedAt id events) :
    Underway config board clock startedAt (events ++ [e]) id task := by
  cases h with
  | start hd => exact .start (he.trans hd)
  | inLine hd => exact .inLine (he.trans hd)
  | firing fired hsplit hturns hd hg =>
      exact .firing fired (by rw [hsplit, List.append_assoc]; rfl) hturns (he.trans hd) hg

theorem underway_step {r : TransitionRequest} {task task' : Task} {q : Platform}
    (hr : (scene.run (atRest config board clock startedAt) events).running[id]? = some task)
    (hstems : Task.Stems (.report r) task) (h : Underway config board clock startedAt events id task)
    (hs : task.step id (scene.run (atRest config board clock startedAt) events).now
      (scene.run (atRest config board clock startedAt) events).state = (.next task', q)) :
    Underway config board clock startedAt (events ++ [.step id]) id task' := by
  have hq := scene.state_of_next hr hs
  have hn := (run_kept config board clock startedAt events).numbered
  generalize (scene.run (atRest config board clock startedAt) events).now = now at hs
  generalize hp : (scene.run (atRest config board clock startedAt) events).state = p at hs hn
  have hdeeds {j : Journal} := deeds_step (j := j) hp hq
  have hstill (hj : q.panel.journal = p.panel.journal) :
      deeds config board clock startedAt id (events ++ [.step id]) =
        deeds config board clock startedAt id events :=
    (hdeeds (hj.trans (List.append_nil _).symm)).trans (List.append_nil _)
  cases h with
  | @start r hd =>
      have he := Task.enter_entered (.report r) id p
      rw [show Task.enter (.report r) id p = (.next task', q) from hs] at he
      cases he with
      | commands h => cases h
      | reports => exact .inLine ((hstill rfl).trans hd)
  | @inLine t hd =>
      cases Task.applies_of_step hs Progress.next_ne_blocked with
      | @changes x hx =>
        have hx' : x.number = t.switch := hx.number.trans (hn t.switch)
        have hturns : Turns t p { p with switches := p.switches.setSwitch x }
            (p.rules.evaluate t.switch t.isActive) :=
          .mk hx (by rw [SwitchRegistry.switch_setSwitch, if_pos hx'])
        refine .firing [] rfl ?_ ((hstill rfl).trans hd) rfl
        rw [hq, hp]
        exact hturns
  | @firing t before after rest g fired hsplit hturns hd hg =>
      match rest with
      | [] => cases hs
      | rule :: others =>
          have hf := Task.fire_fires t rule others hg id now p
          change Task.stepReport t (.firing (rule :: others) g) id now p = _ at hs
          rw [hs] at hf
          have hsplit' : events ++ [.step id] = before ++ .step id :: (after ++ [.step id]) := by
            simp [hsplit]
          cases hf with
          | linesUp _ hj => exact .firing fired hsplit' hturns ((hstill hj).trans hd) rfl
          | fires _ hj =>
              refine .firing (fired ++ [(rule, p.panel.board.fault? rule.coil)]) hsplit' ?_ ?_ rfl
              · simpa using hturns
              · rw [hdeeds hj, hd]
                simp

theorem run_underway {r : TransitionRequest} {task : Task}
    (hr : (scene.run (atRest config board clock startedAt) events).running[id]? = some task)
    (hc : (calls events)[id]? = some (.report r)) :
    Underway config board clock startedAt events id task := by
  have h := scene.run_each (Q := fun events id task => ∃ call, (calls events)[id]? = some call ∧
    ∀ r, call = .report r → Underway config board clock startedAt events id task) _ ?_ ?_ ?_ events hr
  · obtain ⟨call, hc', hq⟩ := h
    cases hc'.symm.trans hc
    exact hq r rfl
  · rintro events e id task he ⟨call, hc, hq⟩
    refine ⟨call, Scene.getElem?_calls_append hc [e], fun r hr => ?_⟩
    exact (hq r hr).mono (deeds_still he)
  · intro events call
    refine ⟨call, by simp [Scene.calls_append_singleton, Event.call?], ?_⟩
    rintro r rfl
    refine .start ((deeds_still ?_).trans (deeds_uncalled (Nat.le_refl _)))
    intro he
    cases he
  · rintro events id task task' q hr ⟨call, hc, hq⟩ hs
    refine ⟨call, Scene.getElem?_calls_append hc _, ?_⟩
    rintro r rfl
    obtain ⟨call, hc', hstems⟩ := run_stems events hr
    cases hc'.symm.trans hc
    exact underway_step hr hstems (hq r rfl) hs

/-- The last step of a report. -/
theorem concludes_step {r : TransitionRequest} {t : Transition} {task : Task} {outcome : Outcome}
    (hv : r.validate = .ok t) (hstems : Task.Stems (.report r) task)
    (h : Underway config board clock startedAt events id task)
    (hs : task.step id (scene.run (atRest config board clock startedAt) events).now
      (scene.run (atRest config board clock startedAt) events).state =
      (.finished outcome, (scene.run (atRest config board clock startedAt) (events ++ [.step id])).state)) :
    ∃ before after, events ++ [.step id] = before ++ .step id :: after ∧
      Concludes t (scene.run (atRest config board clock startedAt) before).state
        (scene.run (atRest config board clock startedAt) (before ++ [.step id])).state outcome
        (deeds config board clock startedAt id (events ++ [.step id])) := by
  have hn := (run_kept config board clock startedAt events).numbered
  generalize (scene.run (atRest config board clock startedAt) events).now = now at hs
  generalize hq : (scene.run (atRest config board clock startedAt) (events ++ [.step id])).state = q at hs
  generalize hp : (scene.run (atRest config board clock startedAt) events).state = p at hs hn
  have hdeeds {j : Journal} := deeds_step (j := j) hp hq
  cases hstems with
  | start =>
      change Task.enter (.report r) id p = _ at hs
      simp only [Task.enter, hv] at hs
      cases hs
  | report hv' =>
    cases hv.symm.trans hv'
    cases h with
    | inLine hd =>
        refine ⟨events, [], rfl, ?_⟩
        rw [hp, hq]
        cases Task.applies_of_step hs Progress.finished_ne_blocked with
        | @stale stale hx =>
            rw [hdeeds (j := [.noted (.reportDropped stale)]) rfl, hd]
            exact .stale hx (by simp [Task.release, note])
        | @repeats x hx =>
            have hx' : x.number = t.switch := hx.number.trans (hn t.switch)
            rw [hdeeds (j := [.noted (.stateRepeated t.switch)]) rfl, hd]
            exact .repeats hx (by simp [Task.release, note, hx'])
    | @firing _ before after rest g fired hsplit hturns hd hg =>
        cases rest with
        | cons rule others =>
            have hf := Task.fire_fires t rule others hg id now p
            change Task.stepReport t (.firing (rule :: others) g) id now p = _ at hs
            rw [hs] at hf
            cases hf
        | nil =>
            cases hs
            have hsplit' : events ++ [.step id] = before ++ .step id :: (after ++ [.step id]) := by
              simp [hsplit]
            refine ⟨before, _, hsplit', ?_⟩
            rw [hdeeds (j := [.published _]) rfl, hd]
            have hkeyed := run_keyed config board clock startedAt before
            rw [List.append_nil] at hturns
            generalize hrules : fired.map (·.1) = rules at hturns
            cases hturns with
            | mk hx hx' =>
              refine .changes hx hx' ?_ ?_ rfl rfl
              · intro rule
                rw [hrules]
                exact hkeyed.mem_evaluate
              · rw [hrules]
                exact hkeyed.pairwise_evaluate t.switch t.isActive

/-- A step of a report leaves the commanded state of every coil as it is. The stream takes what the journal
tells was published, and is left alone if that is nothing. -/
theorem step_of_underway {task : Task} (h : Underway config board clock startedAt events id task)
    (me : TaskId) (now : Nat) (p : Platform) :
    (∀ c, (task.step me now p).2.panel.bank.coil c = p.panel.bank.coil c) ∧
      ∃ j, (task.step me now p).2.panel.journal = p.panel.journal ++ j ∧
        p.stream.Emits j.published (task.step me now p).2.stream := by
  have hsilent {q : Platform} {j : Journal} (hc : ∀ c, q.panel.bank.coil c = p.panel.bank.coil c)
      (hj : q.panel.journal = p.panel.journal ++ j) (hnone : j.published = []) (hq : q.stream = p.stream) :
      (∀ c, q.panel.bank.coil c = p.panel.bank.coil c) ∧
        ∃ j, q.panel.journal = p.panel.journal ++ j ∧ p.stream.Emits j.published q.stream := by
    refine ⟨hc, j, hj, ?_⟩
    rw [hnone, hq]
    exact .nothing
  have hsame : p.panel.journal = p.panel.journal ++ [] := (List.append_nil _).symm
  cases h with
  | @start r =>
      have he : Task.Entered me p (.report r) ((Task.start (.report r)).step me now p) :=
        Task.enter_entered (.report r) me p
      generalize (Task.start (.report r)).step me now p = step at he ⊢
      cases he with
      | refused => exact hsilent (fun _ => rfl) hsame rfl rfl
      | served hserves =>
          cases hserves with
          | fades hstarts => cases hstarts
      | commands hstems => cases hstems
      | reports => exact hsilent (fun _ => rfl) hsame rfl rfl
  | @inLine t =>
      simp only [Task.step, Task.stepReport]
      split
      · have ha := Task.applyReport_applies t p
        generalize Task.applyReport t p = step at ha ⊢
        cases ha with
        | stale => exact hsilent (j := [.noted _]) (fun _ => rfl) rfl rfl rfl
        | repeats => exact hsilent (j := [.noted _]) (fun _ => rfl) rfl rfl rfl
        | changes => exact hsilent (fun _ => rfl) hsame rfl rfl
      · exact hsilent (fun _ => rfl) hsame rfl rfl
  | @firing t _ _ rest g _ _ _ _ hg =>
      cases rest with
      | nil => exact ⟨fun _ => rfl, [.published _], rfl, .change (p.stream.publishes_publish ..)⟩
      | cons rule others =>
          have hf : Task.Fires t rule others p g
              ((Task.report t (.firing (rule :: others) g)).step me now p) :=
            Task.fire_fires t rule others hg me now p
          obtain ⟨panel, hpanel⟩ :
              ∃ panel, ((Task.report t (.firing (rule :: others) g)).step me now p).2 = { p with panel } :=
            Task.fire_eq t rule others g me now p
          have hq := congrArg Platform.stream hpanel
          generalize (Task.report t (.firing (rule :: others) g)).step me now p = step at hf hq ⊢
          cases hf with
          | linesUp hc hj => exact hsilent hc (hj.trans hsame) rfl hq
          | waits => exact hsilent (fun _ => rfl) hsame rfl hq
          | fires hc hj => exact hsilent hc hj (rule.published_firing _) hq

/-- A step of a report, seen from a later moment of the run. -/
theorem state_of_report {before after : List (Event Call Outside)} {r : TransitionRequest}
    (hc : (calls (before ++ after))[id]? = some (.report r)) :
    let run := scene.run (atRest config board clock startedAt)
    (run (before ++ [.step id])).state = (run before).state ∨
      ∃ task, Underway config board clock startedAt before id task ∧
        (run (before ++ [.step id])).state =
          (task.step id (run before).now (run before).state).2 := by
  intro run
  have hrun : run (before ++ [.step id]) = (run before).step Task.workings id :=
    scene.run_append _ before [.step id]
  rw [hrun]
  rcases World.state_step Task.workings (run before) id with hw | ⟨task, hr, hw⟩
  · exact .inl hw
  · exact .inr ⟨task, run_underway hr (stems_of_call hr hc).1, hw⟩

variable (config board clock startedAt)

end Run

/-- A switch with two rules becomes active, the board drives the coil of the first one only, and somebody
listens. -/
def firesBoth : List (Event Call Outside) :=
  [.outside .subscribe, .call (.configureRule ⟨"C2", "S1", 20, 1.0, 0.0⟩), .step 0,
    .call (.configureRule ⟨"C1", "S1", 10, 1.0, 0.5⟩), .step 1, .call (.report ⟨"S1", true, 1⟩),
    .step 2, .step 2, .step 2, .step 2, .step 2, .step 2, .step 2]

end Platform
end Playfield
