import Playfield.Proofs.Platform.Coils

/-! The rules of a platform. Only the two calls that are made for it change the table of rules, each in a
single step, and every rule stays under its own key. Nor does anything but the first step of a call change
the inventory of devices. -/
namespace Playfield

/-- The rules and the devices stay as they are. -/
structure Platform.SameTables (p q : Platform) : Prop where
  rules : q.rules = p.rules
  devices : q.devices = p.devices

namespace Task

/-- What a step of a task does to the rules. -/
inductive AtRules (p : Platform) : Task → Progress Task Outcome → Platform → Prop
  | leaves {task progress q} : q.rules = p.rules → AtRules p task progress q
  | configures {r rule q} : r.validate = .ok rule → q.rules = (p.rules.configure rule).2 →
      AtRules p (.start (.configureRule r)) (.finished (.ok (.rule rule))) q
  | removes {r key q} : r.validate = .ok key → q.rules = (p.rules.remove key).2 →
      AtRules p (.start (.removeRule r)) (.finished (.ok .done)) q

variable {me : TaskId} {now : Nat} {task : Task} {progress : Progress Task Outcome} {p q : Platform}

theorem enter_atRules (call : Call) :
    AtRules p (.start call) (enter call me p).1 (enter call me p).2 := by
  have h := enter_entered call me p
  generalize enter call me p = step at h ⊢
  cases h with
  | served h =>
      cases h with
      | configures hv => exact .configures hv rfl
      | removes hv => exact .removes hv rfl
      | _ => exact .leaves rfl
  | _ => exact .leaves rfl

theorem stepReport_eq (t : Transition) (stage : ReportStage) : ∃ panel switches stream,
    (stepReport t stage me now p).2 = { p with panel, switches, stream } := by
  match stage with
  | .inLine =>
      simp only [stepReport, applyReport]
      repeat' split
      all_goals exact ⟨_, _, _, rfl⟩
  | .firing [] stage => exact ⟨_, _, _, rfl⟩
  | .firing (rule :: others) stage =>
      obtain ⟨panel, hq⟩ := fire_eq t rule others stage me now p
      exact ⟨panel, p.switches, p.stream, hq⟩

/-- After its first step, a call has to do with nothing but the coils, the switches and the stream. -/
theorem onward_eq (h : ∀ call, task ≠ .start call) (me : TaskId) (now : Nat) (p : Platform) :
    ∃ panel switches stream, (task.step me now p).2 = { p with panel, switches, stream } := by
  match task, h with
  | .start call, h => exact absurd rfl (h call)
  | .coil job stage, _ => exact ⟨_, _, _, rfl⟩
  | .sweep s, _ =>
      obtain ⟨panel, hq⟩ := stepSweep_eq s me now p
      exact ⟨panel, p.switches, p.stream, hq⟩
  | .report t stage, _ => exact stepReport_eq t stage
  | .snapshot found [] inLine, _ | .snapshot found (n :: rest) false, _ => exact ⟨_, _, _, rfl⟩
  | .readSwitch n, _ | .snapshot found (n :: rest) true, _ =>
      simp only [step]
      split <;> exact ⟨_, _, _, rfl⟩

theorem abandon_eq (task : Task) (me : TaskId) (p : Platform) :
    ∃ panel switches, task.abandon me p = { p with panel, switches } := by
  match task with
  | .start _ | .coil _ _ | .readSwitch _ | .report _ .inLine | .report _ (.firing [] _)
  | .report _ (.firing (_ :: _) _) | .sweep ⟨_, [], _, _, _⟩ | .sweep ⟨_, _ :: _, _, _, _⟩
  | .snapshot _ [] _ | .snapshot _ (_ :: _) true | .snapshot _ (_ :: _) false => exact ⟨_, _, rfl⟩

theorem tables_onward (h : ∀ call, task ≠ .start call) : p.SameTables (task.step me now p).2 := by
  obtain ⟨panel, switches, stream, hq⟩ := onward_eq h me now p
  rw [hq]
  exact ⟨rfl, rfl⟩

theorem tables_abandon : p.SameTables (task.abandon me p) := by
  obtain ⟨panel, switches, hq⟩ := abandon_eq task me p
  rw [hq]
  exact ⟨rfl, rfl⟩

theorem step_atRules (task : Task) (me : TaskId) (now : Nat) (p : Platform) :
    AtRules p task (task.step me now p).1 (task.step me now p).2 := by
  by_cases hs : ∃ call, task = .start call
  · obtain ⟨call, rfl⟩ := hs
    exact enter_atRules call
  · exact .leaves (tables_onward fun call hc => hs ⟨call, hc⟩).rules

theorem AtRules.keyed (h : AtRules p task progress q) (hp : p.rules.Keyed) : q.rules.Keyed := by
  cases h with
  | leaves hr => rwa [hr]
  | configures _ hr =>
      rw [hr]
      exact hp.configure
  | removes _ hr =>
      rw [hr]
      exact hp.remove

end Task

namespace Platform

theorem tables_outside (e : Outside) (p : Platform) : p.SameTables (outside e p) := by
  obtain ⟨online, clock, stream, notices, -, hq⟩ := outside_eq e p
  rw [hq]
  exact ⟨rfl, rfl⟩

/-- What an event does to the rules: nothing, unless it is the step of a task. -/
theorem next_rules {w : World Platform Task Outcome} {e : Event Call Outside}
    (he : ∀ id, e ≠ .step id) : (scene.next w e).state.rules = w.state.rules := by
  cases e with
  | call call => rfl
  | step id => exact absurd rfl (he id)
  | abandon id =>
      change (w.abandon Task.workings id).state.rules = w.state.rules
      obtain ⟨-, hw⟩ | ⟨task, -, hw⟩ := World.abandon_cases Task.workings w id
      · rw [hw]
      · rw [hw]
        exact Task.tables_abandon.rules
  | pass ms => rfl
  | outside e => exact (tables_outside e w.state).rules

theorem run_keyed (config : PlatformConfig) (board : BoardConfig) (clock : Clock)
    (startedAt : Timestamp) (events : List (Event Call Outside)) :
    (scene.run (atRest config board clock startedAt) events).state.rules.Keyed := by
  refine scene.run_state (P := fun p => p.rules.Keyed) ?_ ?_ ?_ RuleTable.keyed_empty events
  · intro id now task p h
    exact (task.step_atRules id now p).keyed h
  · intro id task p h
    change (task.abandon id p).rules.Keyed
    rwa [Task.tables_abandon.rules]
  · intro e p h
    change (outside e p).rules.Keyed
    rwa [(tables_outside e p).rules]

end Platform
end Playfield
