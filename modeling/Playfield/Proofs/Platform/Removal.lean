import Playfield.Proofs.Platform.Firing

/-! Removed rules. A rule is fired only by a report that has a copy of it from the table, and of the reports
of a switch only one at a time has copies. So a rule that has been removed is fired at most once more, by a
report that was under way at that moment. -/
namespace Playfield

namespace Journal

/-- What was sent to the board for the rule with the key `key`. -/
def firings (j : Journal) (key : RuleKey) : List Attempt :=
  j.attempts.filter fun a => decide (a.cause = .rule key)

variable {j j' : Journal}

theorem firings_congr (h : j'.attempts = j.attempts) (key : RuleKey) :
    j'.firings key = j.firings key := by
  rw [firings, firings, h]

theorem firings_command {a : Actuation} {fault : Option BoardFault}
    (h : j'.attempts = j.attempts ++ [⟨.command, a, fault⟩]) (key : RuleKey) :
    j'.firings key = j.firings key := by
  simp [firings, h]

theorem firings_firing (j : Journal) (rule : HardwareRule) (fault : Option BoardFault) (key : RuleKey) :
    (j ++ rule.firing fault).firings key =
      j.firings key ++ if rule.key = key then [⟨.rule key, rule.actuation, fault⟩] else [] := by
  have ha : (rule.firing fault).attempts = [⟨.rule rule.key, rule.actuation, fault⟩] := by
    cases fault <;> rfl
  rw [firings, attempts_append, List.filter_append, ha, firings]
  by_cases hk : rule.key = key
  · simp [hk]
  · simp [hk]

end Journal

namespace CoilJob

variable {job : CoilJob} {me : TaskId} {now : Nat} {stage : CoilStage} {p : CoilPanel}

theorem command_of_demand (hj : ∀ rule, job ≠ .fire rule) {k : Coil} {cause : Cause} {a : Actuation}
    (h : job.demand k = some (cause, a)) : cause = .command := by
  cases job with
  | pulse c => cases h; rfl
  | enable c => cases h; rfl
  | disable n =>
      cases (of_demand_disable h).2
      rfl
  | fire rule => exact absurd rfl (hj rule)
  | read n => cases h

/-- Only the firing of a rule is done for a rule. -/
theorem firings_step (hj : ∀ rule, job ≠ .fire rule) (hn : p.bank.Numbered) (key : RuleKey) :
    (job.step me now stage p).2.journal.firings key = p.journal.firings key := by
  have h := job.step_stepsTo me now hn stage
  generalize job.step me now stage p = step at h
  obtain ⟨progress, q⟩ := step
  dsimp only at h ⊢
  cases h with
  | readUnknown => rfl
  | refused => exact Journal.firings_congr (by simp [CoilPanel.note]) key
  | linesUp => rfl
  | waits => rfl
  | silent => rfl
  | denied _ hd _ ha =>
      cases command_of_demand hj hd
      exact Journal.firings_command ha key
  | served _ hd _ _ ha =>
      cases command_of_demand hj hd
      exact Journal.firings_command ha key
  | pulsed _ _ _ _ ha => exact Journal.firings_command ha key
  | cools => rfl
  | leftOn _ _ ha => exact Journal.firings_command ha key
  | disabled _ _ ha => exact Journal.firings_command ha key

end CoilJob

namespace Task

/-- A report has a copy of a rule that it has still to fire. -/
def Owes (task : Task) (rule : HardwareRule) : Prop :=
  ∃ t rules g, task = .report t (.firing rules g) ∧ rule ∈ rules

variable {me : TaskId} {now : Nat} {task task' : Task} {p q : Platform} {rule : HardwareRule}

theorem report_of_fire {call : Call} {g : CoilStage} (h : Stems call task)
    (hj : task.job? = some (.fire rule, g)) :
    ∃ t others, task = .report t (.firing (rule :: others) g) := by
  cases h with
  | start => cases hj
  | @report _ t stage =>
      match stage with
      | .inLine => cases hj
      | .firing [] _ => cases hj
      | .firing (_ :: others) _ =>
          cases hj
          exact ⟨t, others, rfl⟩
  | readSwitch => cases hj
  | snapshot => cases hj
  | pulse => cases hj
  | enable => cases hj
  | disable => cases hj
  | coilState => cases hj
  | @disableCoils _ s =>
      obtain ⟨target, -, hx⟩ := Option.map_eq_some_iff.mp hj
      cases hx
  | @reset s =>
      obtain ⟨target, -, hx⟩ := Option.map_eq_some_iff.mp hj
      cases hx

theorem firings_step (hj : ∀ rule g, task.job? ≠ some (.fire rule, g)) (hn : p.panel.bank.Numbered)
    (key : RuleKey) :
    (task.step me now p).2.panel.journal.firings key = p.panel.journal.firings key := by
  cases h : task.job? with
  | none =>
      have hquiet : p.Quiet (task.step me now p).2 := (step_quietStep h).quiet
      obtain ⟨j, ha, hq⟩ := hquiet
      rw [hq]
      exact Journal.firings_congr ha key
  | some x =>
      obtain ⟨job, stage⟩ := x
      have hjob : ∀ rule, job ≠ .fire rule := by
        rintro rule rfl
        exact hj rule stage h
      have hquiet : ({ p with panel := (job.step me now stage p.panel).2 } : Platform).Quiet
          (task.step me now p).2 := (step_follows h).2
      obtain ⟨j, ha, hq⟩ := hquiet
      rw [hq]
      exact (Journal.firings_congr ha key).trans (CoilJob.firings_step hjob hn key)

/-- A step fires nothing for a key, or the first of the copies that a report has. -/
theorem step_firings {call : Call} (hstems : Stems call task) (hn : p.panel.bank.Numbered)
    (hg : ∀ t rules g, task = .report t (.firing rules g) → g.deadline? = none) (key : RuleKey) :
    (task.step me now p).2.panel.journal.firings key = p.panel.journal.firings key ∨
      ∃ t rule others g fault, task = .report t (.firing (rule :: others) g) ∧ rule.key = key ∧
        (task.step me now p).1 = .next (.report t (.firing others .start)) ∧
        (task.step me now p).2.panel.journal.firings key =
          p.panel.journal.firings key ++ [⟨.rule key, rule.actuation, fault⟩] := by
  by_cases hj : ∃ rule g, task.job? = some (.fire rule, g)
  · obtain ⟨rule, g, hj⟩ := hj
    obtain ⟨t, others, rfl⟩ := report_of_fire hstems hj
    cases hj
    have hf := fire_fires t rule others (hg t _ g rfl) me now p
    change Fires t rule others p g (step me now (.report t (.firing (rule :: others) g)) p) at hf
    generalize step me now (.report t (.firing (rule :: others) g)) p = step at hf ⊢
    cases hf with
    | linesUp _ hq => exact .inl (by rw [hq])
    | waits => exact .inl rfl
    | @fires q _ hq =>
        have hfirings := p.panel.journal.firings_firing rule (p.panel.board.fault? rule.coil) key
        rw [← hq] at hfirings
        by_cases hk : rule.key = key
        · rw [if_pos hk] at hfirings
          exact .inr ⟨t, rule, others, .inLine, _, rfl, hk, rfl, hfirings⟩
        · rw [if_neg hk, List.append_nil] at hfirings
          exact .inl hfirings
  · exact .inl (firings_step (fun rule g h => hj ⟨rule, g, h⟩) hn key)

/-- A report gets its copies from the table, with the step in which it changes its switch. -/
theorem owes_step {call : Call} (hstems : Stems call task) (hkeyed : p.rules.Keyed)
    (h : task.step me now p = (.next task', q)) (ho : task'.Owes rule) :
    task.Owes rule ∨ p.rules.get? rule.key = some rule := by
  obtain ⟨t, rules, g, rfl, hm⟩ := ho
  cases stems_step hstems h with
  | @report r =>
    cases hstems with
    | start =>
        have he := enter_entered (.report r) me p
        rw [show enter (.report r) me p = _ from h] at he
        cases he
    | @report _ t' stage =>
      match stage with
      | .inLine =>
          cases applies_of_step h Progress.next_ne_blocked with
          | changes => exact .inr (hkeyed.get?_of_mem hm)
      | .firing [] _ => cases h
      | .firing (first :: others) stage =>
          refine .inl ⟨t', _, stage, rfl, ?_⟩
          simp only [step, stepReport] at h
          split at h <;> cases h
          · exact hm
          · exact List.mem_cons_of_mem first hm
          · exact List.mem_cons_of_mem first hm

end Task

/-- The task `i` has a copy of a rule that it has still to fire. -/
def World.Owes (w : World Platform Task Outcome) (i : TaskId) (rule : HardwareRule) : Prop :=
  ∃ task, w.running[i]? = some task ∧ task.Owes rule

namespace Platform

/-- From the world `w` to the world `w'`, nothing is fired for the key, or the one rule for it that a report
had a copy of in `w`. -/
inductive Spends (key : RuleKey) (w : World Platform Task Outcome) (events : List (Event Call Outside))
    (w' : World Platform Task Outcome) : Prop
  | nothing : w'.state.panel.journal.firings key = w.state.panel.journal.firings key →
      (∀ i rule, rule.key = key → w'.Owes i rule → w.Owes i rule) → Spends key w events w'
  | once {i rule fault} : .step i ∈ events → w.Owes i rule → rule.key = key →
      w'.state.panel.journal.firings key =
        w.state.panel.journal.firings key ++ [⟨.rule key, rule.actuation, fault⟩] →
      (∀ j rule', rule'.key = key → ¬w'.Owes j rule') → Spends key w events w'

/-- A copy that is used up is not there any more. -/
theorem Spends.trans {key : RuleKey} {w w' w'' : World Platform Task Outcome}
    {events more : List (Event Call Outside)} (h : Spends key w events w') (h' : Spends key w' more w'') :
    Spends key w (events ++ more) w'' := by
  cases h with
  | nothing hf ho =>
      cases h' with
      | nothing hf' ho' => exact .nothing (hf'.trans hf) fun i rule hk h => ho i rule hk (ho' i rule hk h)
      | once he hi hk hf' ho' => exact .once (List.mem_append_right _ he) (ho _ _ hk hi) hk (hf ▸ hf') ho'
  | once he hi hk hf ho =>
      cases h' with
      | nothing hf' ho' =>
          exact .once (List.mem_append_left _ he) hi hk (hf'.trans hf) fun j rule hk h =>
            ho j rule hk (ho' j rule hk h)
      | once _ hi' hk' => exact absurd hi' (ho _ _ hk')

theorem attempts_outside (e : Outside) (p : Platform) :
    (outside e p).panel.journal.attempts = p.panel.journal.attempts := by
  obtain ⟨online, clock, stream, notices, -, hq⟩ := outside_eq e p
  rw [hq]
  simp [notes]

section Run

variable {config : PlatformConfig} {board : BoardConfig} {clock : Clock} {startedAt : Timestamp}
  {events : List (Event Call Outside)} {i : TaskId} {rule : HardwareRule}

/-- A report that fires rules has copies of the last of those that were configured when it changed its
switch. -/
theorem copied {t : Transition} {rules : List HardwareRule} {g : CoilStage}
    (hr : (scene.run (atRest config board clock startedAt) events).running[i]? =
      some (.report t (.firing rules g))) :
    g.deadline? = none ∧ ∃ before after, events = before ++ .step i :: after ∧
      rules <:+ (scene.run (atRest config board clock startedAt) before).state.rules.evaluate t.switch
        t.isActive := by
  obtain ⟨call, hc, hstems⟩ := run_stems events hr
  cases hstems with
  | report hv =>
    cases run_underway hr hc with
    | @firing _ before after _ _ fired hsplit hturns _ hg =>
      refine ⟨hg, before, after, hsplit, ?_⟩
      generalize hrules : fired.map (·.1) ++ rules = all at hturns
      cases hturns
      exact ⟨_, hrules⟩

/-- A task with a copy of a rule holds the lock of the switch. -/
theorem holder_of_owes (h : (scene.run (atRest config board clock startedAt) events).Owes i rule) :
    ((scene.run (atRest config board clock startedAt) events).state.switches.lock rule.switch).holder =
      some i := by
  obtain ⟨task, hr, t, rules, g, rfl, hm⟩ := h
  obtain ⟨-, before, after, -, hsuffix⟩ := copied hr
  have hswitch := (run_keyed config board clock startedAt before).switch_of_mem (hsuffix.mem hm)
  rw [hswitch]
  refine ((run_kept config board clock startedAt events).manned t.switch).keeps i t.flip ?_
  rw [World.errands_of_running hr]
  exact if_pos rfl

/-- Copies are taken from the table only. -/
theorem owes_of_step {j : TaskId}
    (h : ((scene.run (atRest config board clock startedAt) events).step Task.workings i).Owes j rule) :
    (scene.run (atRest config board clock startedAt) events).Owes j rule ∨
      (scene.run (atRest config board clock startedAt) events).state.rules.get? rule.key = some rule := by
  obtain ⟨task', hr', ho⟩ := h
  by_cases hj : j = i
  · subst hj
    obtain hw | ⟨task, stage, q, hr, hs, hw⟩ | ⟨task, outcome, q, hr, hs, hw⟩ :=
      World.step_cases Task.workings (scene.run (atRest config board clock startedAt) events) j
    · rw [hw] at hr'
      exact .inl ⟨task', hr', ho⟩
    · rw [hw, Map.getElem?_insert, if_pos rfl] at hr'
      cases hr'
      obtain ⟨call, -, hstems⟩ := run_stems events hr
      rcases Task.owes_step hstems (run_keyed config board clock startedAt events) hs ho with ho | ho
      · exact .inl ⟨task, hr, ho⟩
      · exact .inr ho
    · rw [hw, Map.getElem?_erase, if_pos rfl] at hr'
      cases hr'
  · rw [(World.step_frame hj).1] at hr'
    exact .inl ⟨task', hr', ho⟩

theorem step_spends (i : TaskId) {key : RuleKey}
    (hnone : (scene.run (atRest config board clock startedAt) events).state.rules.get? key = none) :
    Spends key (scene.run (atRest config board clock startedAt) events) [.step i]
      ((scene.run (atRest config board clock startedAt) events).step Task.workings i) := by
  have hkeep (j : TaskId) (rule : HardwareRule) (hk : rule.key = key)
      (h : ((scene.run (atRest config board clock startedAt) events).step Task.workings i).Owes j rule) :
      (scene.run (atRest config board clock startedAt) events).Owes j rule := by
    refine (owes_of_step h).resolve_right ?_
    rw [hk, hnone]
    exact nofun
  rcases World.state_step Task.workings (scene.run (atRest config board clock startedAt) events) i with
    hw | ⟨task, hr, hw⟩
  · exact .nothing (by rw [hw]) hkeep
  · obtain ⟨call, -, hstems⟩ := run_stems events hr
    have hn := (run_good config board clock startedAt events).orderly.numbered
    have hg : ∀ t rules g, task = .report t (.firing rules g) → g.deadline? = none := by
      rintro t rules g rfl
      exact (copied hr).1
    rcases Task.step_firings hstems hn hg key with hf | ⟨t, rule, others, g, fault, rfl, hk, hnext, hf⟩
    · exact .nothing (by rw [hw]; exact hf) hkeep
    · have howes : (scene.run (atRest config board clock startedAt) events).Owes i rule :=
        ⟨_, hr, t, _, g, rfl, List.mem_cons_self⟩
      refine .once (List.mem_singleton_self _) howes hk (by rw [hw]; exact hf) ?_
      intro j rule' hk' h
      -- only one task has copies of the rules of the switch, and only one of them is for the coil
      have hkey := hk'.trans hk.symm
      have hholder := holder_of_owes (hkeep j rule' hk' h)
      rw [show rule'.switch = rule.switch from congrArg RuleKey.switch hkey, holder_of_owes howes]
        at hholder
      cases hholder
      obtain ⟨task, hr', t', rules, g', rfl, hm⟩ := h
      rw [World.step_of_next hr (Prod.ext hnext rfl), Map.getElem?_insert, if_pos rfl] at hr'
      cases hr'
      obtain ⟨-, before, after, -, hsuffix⟩ := copied hr
      have hsorted := ((run_keyed config board clock startedAt before).pairwise_evaluate t.switch
        t.isActive).sublist hsuffix.sublist
      have hlt := (List.pairwise_cons.mp hsorted).1 rule' hm
      rw [show rule'.coil = rule.coil from congrArg RuleKey.coil hkey, Std.compare_self] at hlt
      cases hlt

theorem next_spends (e : Event Call Outside) {key : RuleKey}
    (hnone : (scene.run (atRest config board clock startedAt) events).state.rules.get? key = none) :
    Spends key (scene.run (atRest config board clock startedAt) events) [e]
      (scene.run (atRest config board clock startedAt) (events ++ [e])) := by
  rw [Scene.run_append, Scene.run_cons, Scene.run_nil]
  cases e with
  | step i => exact step_spends i hnone
  | pass ms => exact .nothing rfl fun _ _ _ h => h
  | outside e =>
      exact .nothing (Journal.firings_congr (attempts_outside e _) key) fun _ _ _ h => h
  | call call =>
      refine .nothing rfl ?_
      rintro i rule - ⟨task, hr, ho⟩
      change ((scene.run _ events).running.insert _ (.start call))[i]? = _ at hr
      rw [Map.getElem?_insert] at hr
      split at hr
      · cases hr
        obtain ⟨t, rules, g, ht, -⟩ := ho
        cases ht
      · exact ⟨task, hr, ho⟩
  | abandon i =>
      change Spends key _ _ ((scene.run _ events).abandon Task.workings i)
      obtain ⟨-, hw⟩ | ⟨task, -, hw⟩ := World.abandon_cases Task.workings
        (scene.run (atRest config board clock startedAt) events) i
      · rw [hw]
        exact .nothing rfl fun _ _ _ h => h
      · rw [hw]
        refine .nothing (congrArg (Journal.firings · key) Task.journal_abandon) ?_
        rintro j rule - ⟨task, hr, ho⟩
        dsimp only at hr
        rw [Map.getElem?_erase] at hr
        split at hr
        · cases hr
        · exact ⟨task, hr, ho⟩

/-- As long as the table has no rule for a key, at most one rule is fired for it. -/
theorem run_spends (early late : List (Event Call Outside)) {key : RuleKey}
    (hnone : ∀ before after, late = before ++ after →
      (scene.run (atRest config board clock startedAt) (early ++ before)).state.rules.get? key = none) :
    Spends key (scene.run (atRest config board clock startedAt) early) late
      (scene.run (atRest config board clock startedAt) (early ++ late)) := by
  induction late using List.reverseRecOn with
  | nil =>
      rw [List.append_nil]
      exact .nothing rfl fun _ _ _ h => h
  | append_singleton late e ih =>
      have hlate := ih fun before after h => hnone before (after ++ [e]) (by rw [h, List.append_assoc])
      have hnext := next_spends e (hnone late [e] rfl)
      rw [← List.append_assoc]
      exact hlate.trans hnext

variable (config board clock startedAt) in
/-- A rule with the key `key` is configured by a call that returns in the events `late`, which follow
`early`. -/
def Configured (key : RuleKey) (early late : List (Event Call Outside)) : Prop :=
  ∃ (i : TaskId) (r : RuleRequest) (rule : HardwareRule),
    (calls (early ++ late))[i]? = some (.configureRule r) ∧ r.validate = .ok rule ∧ rule.key = key ∧
      (scene.run (atRest config board clock startedAt) early).results[i]? = none ∧
      (scene.run (atRest config board clock startedAt) (early ++ late)).results[i]? ≠ none

theorem Configured.append {key : RuleKey} {early late : List (Event Call Outside)}
    (h : Configured config board clock startedAt key early late) (more : List (Event Call Outside)) :
    Configured config board clock startedAt key early (late ++ more) := by
  obtain ⟨i, r, rule, hc, hv, hk, hearly, hlate⟩ := h
  obtain ⟨outcome, hr⟩ := Option.ne_none_iff_exists'.mp hlate
  have hkeep := scene.run_results (run_kept config board clock startedAt (early ++ late)).sound hr more
  rw [← Scene.run_append] at hkeep
  refine ⟨i, r, rule, ?_, hv, hk, hearly, ?_⟩
  · rw [← List.append_assoc]
    exact Scene.getElem?_calls_append hc more
  · rw [← List.append_assoc, hkeep]
    exact nofun

theorem configured_step {early late : List (Event Call Outside)} {r : RuleRequest} {outcome : Outcome}
    {q : Platform}
    (hr : (scene.run (atRest config board clock startedAt) (early ++ late)).running[i]? =
      some (.start (.configureRule r)))
    (hs : (Task.start (.configureRule r)).step i
      (scene.run (atRest config board clock startedAt) (early ++ late)).now
      (scene.run (atRest config board clock startedAt) (early ++ late)).state = (.finished outcome, q))
    (hv : r.validate = .ok rule) :
    Configured config board clock startedAt rule.key early (late ++ [.step i]) := by
  obtain ⟨call, hc, hstems⟩ := run_stems (early ++ late) hr
  cases hstems
  refine ⟨i, r, rule, ?_, hv, rfl, ?_, ?_⟩
  · rw [← List.append_assoc]
    exact Scene.getElem?_calls_append hc _
  · cases h : (scene.run (atRest config board clock startedAt) early).results[i]? with
    | none => rfl
    | some outcome =>
        have hkeep := scene.run_results (run_kept config board clock startedAt early).sound h late
        rw [← Scene.run_append, (run_kept config board clock startedAt
          (early ++ late)).sound.result_of_running hr] at hkeep
        cases hkeep
  · rw [← List.append_assoc, scene.result_of_finished hr hs]
    exact nofun

/-- A rule that is not there is not there until it is configured. -/
theorem rule_absent (early late : List (Event Call Outside)) {key : RuleKey}
    (hnone : (scene.run (atRest config board clock startedAt) early).state.rules.get? key = none)
    (hlate : ¬Configured config board clock startedAt key early late) :
    (scene.run (atRest config board clock startedAt) (early ++ late)).state.rules.get? key = none := by
  induction late using List.reverseRecOn with
  | nil => rwa [List.append_nil]
  | append_singleton late e ih =>
      have hold := ih fun h => hlate (h.append [e])
      rw [← List.append_assoc, Scene.run_append, Scene.run_cons, Scene.run_nil]
      by_cases he : ∃ i, e = .step i
      · obtain ⟨i, rfl⟩ := he
        change ((scene.run _ (early ++ late)).step Task.workings i).state.rules.get? key = none
        rcases World.state_step Task.workings
          (scene.run (atRest config board clock startedAt) (early ++ late)) i with hw | ⟨task, hr, hw⟩
        · rwa [hw]
        · rw [hw]
          change (task.step i _ _).2.rules.get? key = none
          have hrules := task.step_atRules i
            (scene.run (atRest config board clock startedAt) (early ++ late)).now
            (scene.run (atRest config board clock startedAt) (early ++ late)).state
          generalize hs : task.step i _ _ = step at hrules ⊢
          obtain ⟨progress, q⟩ := step
          cases hrules with
          | leaves hq => rwa [hq]
          | removes hv hq =>
              rw [hq, RuleTable.get?_remove]
              split
              · rfl
              · exact hold
          | @configures r rule _ hv hq =>
              rw [hq, RuleTable.get?_configure]
              split
              · next hk =>
                cases hk
                exact absurd (configured_step hr hs hv) hlate
              · exact hold
      · rw [next_rules fun i h => he ⟨i, h⟩]
        exact hold

theorem rule_absent_of_removal {early : List (Event Call Outside)} {id : TaskId} {r : RuleRemovalRequest}
    {key : RuleKey} (hc : (calls early)[id]? = some (.removeRule r)) (hv : r.validate = .ok key)
    (hcalled : (scene.run (atRest config board clock startedAt) early).results[id]? = none)
    (hreturned : (scene.run (atRest config board clock startedAt) (early ++ [.step id])).results[id]? =
      some (.ok .done)) :
    (scene.run (atRest config board clock startedAt) (early ++ [.step id])).state.rules.get? key =
      none := by
  rw [Scene.run_append, Scene.run_cons, Scene.run_nil] at hreturned ⊢
  obtain ⟨-, task, hr, hs⟩ := scene.finished_of_results hcalled hreturned
  obtain ⟨call, hc', hstems⟩ := run_stems early hr
  cases hc'.symm.trans hc
  cases hstems with
  | start =>
    generalize (scene.next (scene.run (atRest config board clock startedAt) early) (.step id)).state = q
      at hs ⊢
    generalize (scene.run (atRest config board clock startedAt) early).state = p at hs
    change Task.finishDone p (p.removeRule r) = _ at hs
    cases hq : p.removeRule r with
    | error e =>
        rw [hq] at hs
        cases hs
    | ok q' =>
        rw [hq] at hs
        cases hs
        cases serves_removeRule hq with
        | removes hv' =>
          cases hv.symm.trans hv'
          exact RuleTable.get?_remove.trans (if_pos rfl)
        | fades hf => cases hf

variable (config board clock startedAt)

/-- Once a rule has been removed, and until a rule is configured in its place, at most one actuation is sent
for it, by a report that was not over when the removal returned and has its copy from the time before. -/
theorem removed_rule_fires_once_at_most (early late : List (Event Call Outside)) {id : TaskId}
    {r : RuleRemovalRequest} {key : RuleKey} (hc : (calls early)[id]? = some (.removeRule r))
    (hv : r.validate = .ok key)
    (hcalled : (scene.run (atRest config board clock startedAt) early).results[id]? = none)
    (hreturned : (scene.run (atRest config board clock startedAt) (early ++ [.step id])).results[id]? =
      some (.ok .done))
    (hlate : ¬Configured config board clock startedAt key (early ++ [.step id]) late) :
    let run := scene.run (atRest config board clock startedAt)
    let removed := early ++ [.step id]
    Spends key (run removed) late (run (removed ++ late)) ∧
      ∀ i rule, (run removed).Owes i rule → ∃ t rules g before after,
        (run removed).running[i]? = some (.report t (.firing rules g)) ∧ t.switch = rule.switch ∧
        removed = before ++ .step i :: after ∧ (run before).state.rules.get? rule.key = some rule := by
  intro run removed
  have hnone := rule_absent_of_removal hc hv hcalled hreturned
  constructor
  · refine run_spends removed late fun before after he => ?_
    refine rule_absent removed before hnone fun h => ?_
    have happend := h.append after
    rw [← he] at happend
    exact hlate happend
  · rintro i rule ⟨task, hr, t, rules, g, rfl, hm⟩
    obtain ⟨-, before, after, hsplit, hsuffix⟩ := copied hr
    have hkeyed := run_keyed config board clock startedAt before
    exact ⟨t, rules, g, before, after, hr, (hkeyed.switch_of_mem (hsuffix.mem hm)).symm, hsplit,
      hkeyed.get?_of_mem (hsuffix.mem hm)⟩

end Run

/-- A report has its switch changed and waits for a coil that cools down after a pulse, -/
def waitsWithRule : List (Event Call Outside) :=
  [.call (.configureRule ⟨"C1", "S1", 20, 1.0, 0.5⟩), .step 0,
    .call (.enable ⟨"C1", 10, 1.0, 0.25⟩), .step 1, .step 1, .step 1,
    .call (.pulse ⟨"C1", 50, 0.5⟩), .step 2, .step 2, .step 2,
    .call (.report ⟨"S1", true, 1⟩), .step 3, .step 3, .step 3, .call (.removeRule ⟨"C1", "S1"⟩)]

/-- and goes on when the rule has been removed. -/
def goesOnWithRule : List (Event Call Outside) := [.pass 50, .step 2, .step 3, .step 3]

theorem not_configured_while_waiting (key : RuleKey) :
    ¬Configured .default .default ⟨0⟩ ⟨0, 0, 0⟩ key (waitsWithRule ++ [.step 4]) goesOnWithRule := by
  rintro ⟨i, r, rule, hc, -, -, hearly, -⟩
  have hcalls : calls (waitsWithRule ++ [.step 4] ++ goesOnWithRule) =
      [.configureRule ⟨"C1", "S1", 20, 1.0, 0.5⟩, .enable ⟨"C1", 10, 1.0, 0.25⟩,
        .pulse ⟨"C1", 50, 0.5⟩, .report ⟨"S1", true, 1⟩, .removeRule ⟨"C1", "S1"⟩] := rfl
  rw [hcalls] at hc
  rcases i with _ | _ | _ | _ | _ | i
  · exact absurd hearly (by decide +kernel)
  all_goals cases hc

/-- A rule that was removed is fired, and the board carries that out. -/
theorem removed_rule_fires :
    let run := scene.run (atRest .default .default ⟨0⟩ ⟨0, 0, 0⟩)
    let key : RuleKey := ⟨⟨"S1", by decide⟩, ⟨"C1", by decide⟩⟩
    let removed := waitsWithRule ++ [.step 4]
    (calls removed)[4]? = some (.removeRule ⟨"C1", "S1"⟩) ∧
      (run removed).results[4]? = some (.ok .done) ∧
      ¬Configured .default .default ⟨0⟩ ⟨0, 0, 0⟩ key removed goesOnWithRule ∧
      (run removed).state.panel.journal.firings key = [] ∧
      ((run (removed ++ goesOnWithRule)).state.panel.journal.firings key).map (·.fault) = [none] := by
  intro run key removed
  refine ⟨rfl, ?_, not_configured_while_waiting key, ?_, ?_⟩
  all_goals decide +kernel

theorem removed_rule_fires_once_by_report :
    let run := scene.run (atRest .default .default ⟨0⟩ ⟨0, 0, 0⟩)
    let key : RuleKey := ⟨⟨"S1", by decide⟩, ⟨"C1", by decide⟩⟩
    let removed := waitsWithRule ++ [.step 4]
    Spends key (run removed) goesOnWithRule (run (removed ++ goesOnWithRule)) ∧
      ((run (removed ++ goesOnWithRule)).state.panel.journal.firings key).length = 1 := by
  intro run key removed
  have hc : (calls waitsWithRule)[4]? = some (.removeRule ⟨"C1", "S1"⟩) := rfl
  have hv : (⟨"C1", "S1"⟩ : RuleRemovalRequest).validate = .ok key := rfl
  have hcalled : (run waitsWithRule).results[4]? = none := by decide +kernel
  have hreturned : (run removed).results[4]? = some (.ok .done) := by decide +kernel
  obtain ⟨hspends, -⟩ := removed_rule_fires_once_at_most .default .default ⟨0⟩ ⟨0, 0, 0⟩ waitsWithRule
    goesOnWithRule hc hv hcalled hreturned (not_configured_while_waiting key)
  exact ⟨hspends, by decide +kernel⟩

end Platform
end Playfield
