import Playfield.Proofs.Platform.Coils
import Playfield.Proofs.Switch.Desk

/-! The switches of a platform. Whatever a task does, at each switch it amounts to at most one move at the
desk of that switch, and only a report that is given up with its change unpublished does any harm. -/
namespace Playfield

namespace CoilJob

variable {p : CoilPanel}

@[simp] theorem published_note (notice : Notice) :
    (p.note notice).journal.published = p.journal.published := by
  simp [CoilPanel.note]

theorem published_of_send {q : CoilPanel} {cause : Cause} {a : Actuation} {r : Except PlatformError Unit}
    (h : p.send cause a = (r, q)) : q.journal.published = p.journal.published := by
  unfold CoilPanel.send at h
  split at h <;> cases h <;> simp

theorem published_act (job : CoilJob) (now : Nat) :
    (job.act now p).2.journal.published = p.journal.published := by
  cases job with
  | read n => rfl
  | pulse c =>
      simp only [act]
      split
      · next hs => exact (published_of_send hs :)
      · next hs => split <;> exact (published_of_send hs :)
  | enable c =>
      have hn (b : Bool) : (if b then p.note (.holdUnsupported c.coil) else p).journal.published =
          p.journal.published := by
        cases b
        · rfl
        · exact published_note _
      simp only [act]
      split <;> next hs => exact (published_of_send hs).trans (hn _)
  | disable n =>
      simp only [act]
      split
      · rfl
      · split <;> next hs => exact (published_of_send hs :)
  | fire rule =>
      simp only [act]
      split <;> next hs => exact (published_of_send hs :)

/-- A job on a coil publishes nothing. -/
theorem published_step (job : CoilJob) (me : TaskId) (now : Nat) (stage : CoilStage) :
    (job.step me now stage p).2.journal.published = p.journal.published := by
  cases stage with
  | start =>
      simp only [step, enter]
      repeat' split
      all_goals first | rfl | exact published_note _
  | inLine =>
      simp only [step]
      split
      · exact published_act job now
      · rfl
  | cooling deadline =>
      simp only [step, coolDown]
      split
      · split <;> next hs => exact (published_note _).trans (published_of_send hs)
      · rfl

end CoilJob

def Transition.flip (t : Transition) : Flip := (t.isActive, t.timestamp)

namespace Platform

/-- Nothing happens at the switches. -/
structure Apart (p q : Platform) : Prop where
  slot : ∀ n, q.switches.slot n = p.switches.slot n
  published : q.panel.journal.published = p.panel.journal.published
  sequence : q.stream.sequence = p.stream.sequence

variable {p q r : Platform}

theorem Apart.refl (p : Platform) : p.Apart p := ⟨fun _ => rfl, rfl, rfl⟩

theorem Apart.trans (h : p.Apart q) (h' : q.Apart r) : p.Apart r :=
  ⟨fun n => (h'.slot n).trans (h.slot n), h'.published.trans h.published, h'.sequence.trans h.sequence⟩

theorem Apart.notes (p : Platform) (notices : List Notice) : p.Apart (p.notes notices) :=
  ⟨fun _ => rfl, by simp [Platform.notes], rfl⟩

theorem Apart.note (p : Platform) (notice : Notice) : p.Apart (p.note notice) := notes p [notice]

theorem Serves.apart {call : Call} {answer : Answer} (h : p.Serves call answer q) : p.Apart q := by
  obtain ⟨switches, rules, devices, lights, notices, hslot, rfl⟩ := h.eq
  have hq : p.Apart { p with switches, rules, devices, lights } := ⟨hslot, rfl, rfl⟩
  exact hq.trans (.notes _ notices)

/-- What the desk of a switch looks like on a platform whose tasks have these errands. -/
def desk (p : Platform) (s : SwitchNumber) (errands : TaskId → Option Errand) : SwitchDesk where
  switch := p.switches.switch s
  lock := p.switches.lock s
  events := p.panel.journal.changesOf s
  errands

theorem desk_congr {s : SwitchNumber} {errands : TaskId → Option Errand}
    (hs : q.switches.slot s = p.switches.slot s)
    (hj : q.panel.journal.published = p.panel.journal.published) :
    q.desk s errands = p.desk s errands := by
  rw [desk, desk, SwitchRegistry.switch, SwitchRegistry.lock, hs, Journal.changesOf_congr hj]
  rfl

theorem Apart.desk (h : p.Apart q) (s : SwitchNumber) (errands : TaskId → Option Errand) :
    q.desk s errands = p.desk s errands :=
  desk_congr (h.slot s) h.published

end Platform

namespace Task

/-- What a task is at the switch `s` for. -/
def errand? (s : SwitchNumber) : Task → Option Errand
  | .report t .inLine => if t.switch = s then some .asks else none
  | .report t (.firing _ _) => if t.switch = s then some (.changes t.flip) else none
  | .readSwitch n | .snapshot _ (n :: _) true => if n = s then some .asks else none
  | .start _ | .coil _ _ | .sweep _ | .snapshot _ _ _ => none

/-- A task once its step has come to something. -/
def after (task : Task) : Progress Task Outcome → Option Task
  | .blocked => some task
  | .next task' => some task'
  | .finished _ => none

/-- What it comes to that a report gets to its switch. -/
inductive Applies (t : Transition) (p : Platform) : Step → Prop
  | stale {stale} : (p.switches.switch t.switch).Reported t.flip (.error stale) →
      Applies t p (.finished (.error (.stale stale)), release (p.note (.reportDropped stale)) t.switch)
  | repeats {x} : (p.switches.switch t.switch).Reported t.flip (.ok (false, x)) →
      Applies t p (.finished (.ok (.changed false)),
        release (({ p with switches := p.switches.setSwitch x } : Platform).note
          (.stateRepeated t.switch)) t.switch)
  | changes {x} : (p.switches.switch t.switch).Reported t.flip (.ok (true, x)) →
      Applies t p (.next (.report t (.firing (p.rules.evaluate t.switch t.isActive) .start)),
        { p with switches := p.switches.setSwitch x })

/-- What a step of a task does at the switches. -/
inductive AtSwitches (me : TaskId) (p : Platform) : Task → Progress Task Outcome → Platform → Prop
  /-- The task is at no switch, or it stays where it is. -/
  | apart {task progress q} : p.Apart q →
      (∀ s, (task.after progress).bind (errand? s) = task.errand? s) →
      AtSwitches me p task progress q
  | asks {task task' n} : (∀ s, task.errand? s = none) →
      (∀ s, task'.errand? s = if n = s then some .asks else none) →
      AtSwitches me p task (.next task') { p with switches := p.switches.request n me }
  | reads {n} : (p.switches.lock n).holder = some me →
      AtSwitches me p (.readSwitch n) (.finished (.ok (.switch (p.switches.switch n)))) (release p n)
  | surveys {found n rest} : (p.switches.lock n).holder = some me →
      AtSwitches me p (.snapshot found (n :: rest) true)
        (.next (.snapshot (found ++ [p.switches.switch n]) rest false)) (release p n)
  | applies {t progress q} : (p.switches.lock t.switch).holder = some me →
      Applies t p (progress, q) → AtSwitches me p (.report t .inLine) progress q
  | publishes {t stage} :
      AtSwitches me p (.report t (.firing [] stage)) (.finished (.ok (.changed true)))
        (publishReport t p).2

section Step

variable {me : TaskId} {now : Nat} {task : Task} {p q : Platform}

theorem coilStep_apart (job : CoilJob) (stage : CoilStage) (me : TaskId) (now : Nat) (p : Platform) :
    p.Apart (coilStep job stage me now p).2 :=
  ⟨fun _ => rfl, CoilJob.published_step job me now stage, rfl⟩

theorem enter_atSwitches (call : Call) :
    AtSwitches me p (.start call) (enter call me p).1 (enter call me p).2 := by
  have h := enter_entered call me p
  generalize enter call me p = step at h ⊢
  cases h with
  | refused => exact .apart (.refl p) fun _ => rfl
  | served h => exact .apart h.apart fun _ => rfl
  | commands => exact .apart (.refl p) fun _ => rfl
  | sweeps => exact .apart (.refl p) fun _ => rfl
  | resets => exact .apart ⟨fun _ => rfl, rfl, rfl⟩ fun _ => rfl
  | surveys => exact .apart (.refl p) fun _ => by cases p.switches.known <;> rfl
  | reports => exact .asks (fun _ => rfl) fun _ => rfl
  | reads => exact .asks (fun _ => rfl) fun _ => rfl

theorem sweep_atSwitches (s : Sweep) :
    AtSwitches me p (.sweep s) (stepSweep s me now p).1 (stepSweep s me now p).2 := by
  obtain ⟨lights, targets, stage, done, failure⟩ := s
  cases targets with
  | nil =>
      simp only [stepSweep, finishSweep]
      split
      · exact .apart (.refl p) fun _ => rfl
      · exact .apart (.refl p) fun _ => rfl
      · exact .apart (.note _ _) fun _ => rfl
  | cons target rest =>
      have h := coilStep_apart (.disable target) stage me now p
      simp only [stepSweep]
      split
      · next hs => exact .apart (by rwa [hs] at h) fun _ => rfl
      · next hs => exact .apart (by rwa [hs] at h) fun _ => rfl
      · next hs =>
        rw [hs] at h
        split
        · exact .apart h fun _ => rfl
        · exact .apart (h.trans (.note _ _)) fun _ => rfl

theorem fire_atSwitches (t : Transition) (rule : HardwareRule) (others : List HardwareRule)
    (stage : CoilStage) :
    AtSwitches me p (.report t (.firing (rule :: others) stage))
      (stepReport t (.firing (rule :: others) stage) me now p).1
      (stepReport t (.firing (rule :: others) stage) me now p).2 := by
  have h := coilStep_apart (.fire rule) stage me now p
  simp only [stepReport]
  split
  · next hs => exact .apart (by rwa [hs] at h) fun _ => rfl
  · next hs => exact .apart (by rwa [hs] at h) fun _ => rfl
  · next hs => exact .apart (by rwa [hs] at h) fun _ => rfl
  · next hs =>
    rw [hs] at h
    exact .apart (h.trans (.note _ _)) fun _ => rfl

theorem applyReport_applies (t : Transition) (p : Platform) : Applies t p (applyReport t p) := by
  have h := (p.switches.switch t.switch).report_reported t.flip
  unfold applyReport
  split
  · next hs => exact .stale (hs ▸ h)
  · next changed x hs =>
    cases changed with
    | true => exact .changes (hs ▸ h)
    | false => exact .repeats (hs ▸ h)

theorem applies_of_step {t : Transition} {progress : Progress Task Outcome}
    (h : (Task.report t .inLine).step me now p = (progress, q)) (hb : progress ≠ .blocked) :
    Applies t p (progress, q) := by
  simp only [step, stepReport] at h
  split at h
  · rw [← h]
    exact applyReport_applies t p
  · cases h
    exact absurd rfl hb

theorem step_atSwitches (task : Task) (me : TaskId) (now : Nat) (p : Platform) :
    AtSwitches me p task (task.step me now p).1 (task.step me now p).2 := by
  have hstay (task : Task) : AtSwitches me p task .blocked p := .apart (.refl p) fun _ => rfl
  match task with
  | .start call => exact enter_atSwitches call
  | .coil job stage =>
      refine .apart (coilStep_apart job stage me now p) fun s => ?_
      simp only [step]
      cases (coilStep job stage me now p).1 <;> rfl
  | .sweep s => exact sweep_atSwitches s
  | .report t .inLine =>
      simp only [step, stepReport]
      split
      · next hh => exact .applies (SwitchRegistry.isHeldBy_iff.mp hh) (applyReport_applies t p)
      · exact hstay _
  | .report t (.firing [] stage) => exact .publishes
  | .report t (.firing (rule :: others) stage) => exact fire_atSwitches t rule others stage
  | .readSwitch n =>
      simp only [step]
      split
      · next hh => exact .reads (SwitchRegistry.isHeldBy_iff.mp hh)
      · exact hstay _
  | .snapshot found [] inLine => exact .apart (.refl p) fun _ => by cases inLine <;> rfl
  | .snapshot found (n :: rest) false => exact .asks (fun _ => rfl) fun _ => rfl
  | .snapshot found (n :: rest) true =>
      simp only [step]
      split
      · next hh => exact .surveys (SwitchRegistry.isHeldBy_iff.mp hh)
      · exact hstay _

end Step
namespace AtSwitches

variable {me : TaskId} {task : Task} {progress : Progress Task Outcome} {p q : Platform}
  {s n : SwitchNumber} {errands : TaskId → Option Errand}

theorem desk_asks (he : errands me = none) :
    let r : Platform := { p with switches := p.switches.request n me }
    let errands' := Function.update errands me (if n = s then some .asks else none)
    r.desk s errands' = p.desk s errands ∨ (p.desk s errands).Move (r.desk s errands') := by
  intro r errands'
  by_cases hs : n = s
  · have hr : r.desk s errands' =
        { p.desk s errands with
          lock := (p.desk s errands).lock.request me
          errands := Function.update (p.desk s errands).errands me (some .asks) } := by
      simp [r, errands', Platform.desk, hs]
    rw [hr]
    exact .inr (.arrives he)
  · refine .inl ?_
    have he' : errands' = errands := by
      simp only [errands', if_neg hs]
      rw [← he, Function.update_eq_self]
    simp [r, he', Platform.desk, hs]

theorem update_away {e : Errand} (he : errands me = if n = s then some e else none) (hs : n ≠ s) :
    Function.update errands me none = errands := by
  rw [if_neg hs] at he
  rw [← he, Function.update_eq_self]

theorem desk_leaves (hh : (p.switches.lock n).holder = some me)
    (he : errands me = if n = s then some .asks else none) :
    let errands' := Function.update errands me none
    (release p n).desk s errands' = p.desk s errands ∨
      (p.desk s errands).Move ((release p n).desk s errands') := by
  intro errands'
  by_cases hs : n = s
  · subst hs
    have hr : (release p n).desk n errands' =
        { p.desk n errands with
          lock := (p.desk n errands).lock.leave me
          errands := Function.update (p.desk n errands).errands me none } := by
      simp [errands', Platform.desk, release, Lock.leave_of_holder hh]
    rw [hr]
    exact .inr (.leaves (he.trans (if_pos rfl)))
  · refine .inl ?_
    simp [errands', Platform.desk, release, hs, update_away he hs]

theorem desk_applies {t : Transition} (hn : p.switches.Numbered)
    (hh : (p.switches.lock t.switch).holder = some me) (ha : Applies t p (progress, q))
    (he : errands me = (Task.report t .inLine).errand? s) :
    let errands' := Function.update errands me (((Task.report t .inLine).after progress).bind (errand? s))
    q.desk s errands' = p.desk s errands ∨ (p.desk s errands).Move (q.desk s errands') := by
  intro errands'
  cases ha with
  | @stale stale =>
      rw [← (Platform.Apart.note p (.reportDropped stale)).desk s errands]
      exact desk_leaves (p := p.note (.reportDropped stale)) hh he
  | @repeats x hx =>
      cases hx with
      | repeats htimely =>
        have hx : ((p.switches.switch t.switch).repeated t.flip.2).number = t.switch := hn t.switch
        by_cases hs : t.switch = s
        · subst hs
          have hm : (p.desk t.switch errands).Move _ := .repeats (he.trans (if_pos rfl)) hh htimely
          refine .inr (hm.congr ?_)
          simp [errands', after, Platform.desk, release, Platform.note, CoilPanel.note, hx,
            Journal.changesOf]
        · refine .inl ?_
          simp [errands', after, Platform.desk, release, Platform.note, CoilPanel.note, hx, hs,
            Journal.changesOf, update_away he hs]
  | @changes x hx =>
      cases hx with
      | changes htimely hflip =>
        have hx : ((p.switches.switch t.switch).changed t.flip).number = t.switch := hn t.switch
        by_cases hs : t.switch = s
        · subst hs
          have hm : (p.desk t.switch errands).Move _ :=
            .changes (he.trans (if_pos rfl)) hh htimely hflip
          refine .inr (hm.congr ?_)
          simp [errands', after, Platform.desk, errand?, hx]
        · refine .inl ?_
          simp [errands', after, Platform.desk, errand?, hx, hs, update_away he hs]

/-- A step is at most one move at the desk of each switch. -/
theorem desk (h : AtSwitches me p task progress q) (hn : p.switches.Numbered)
    (he : errands me = task.errand? s) :
    let errands' := Function.update errands me ((task.after progress).bind (errand? s))
    q.desk s errands' = p.desk s errands ∨ (p.desk s errands).Move (q.desk s errands') := by
  intro errands'
  cases h with
  | apart hq hstay =>
      refine .inl ?_
      rw [show errands' = errands by
        simp only [errands', hstay s, ← he, Function.update_eq_self]]
      exact hq.desk s errands
  | asks ht ht' =>
      simp only [errands', after, Option.bind_some, ht' s]
      exact desk_asks (he.trans (ht s))
  | reads hh => exact desk_leaves hh he
  | surveys hh =>
      rename_i found n rest
      have hr : errands' = Function.update errands me none := by
        simp only [errands', after, Option.bind_some]
        cases rest <;> rfl
      rw [hr]
      exact desk_leaves hh he
  | applies hh ha => exact desk_applies hn hh ha he
  | @publishes t stage =>
      by_cases hs : t.switch = s
      · subst hs
        have hf : errands me =
            some (.changes (p.stream.publish t.switch t.isActive t.timestamp).1.flip) :=
          he.trans (if_pos rfl)
        have hm := SwitchDesk.Move.publishes (y := p.desk t.switch errands) hf
        refine .inr (hm.congr ?_)
        simp [errands', after, Platform.desk, publishReport, finish, release, Journal.changesOf,
          ChangeStream.publish]
      · refine .inl ?_
        simp [errands', after, Platform.desk, publishReport, finish, release, Journal.changesOf,
          ChangeStream.publish, hs, update_away he hs]

end AtSwitches
section Abandon

variable {me : TaskId} {task : Task} {p : Platform} {s : SwitchNumber}

@[simp] theorem switch_abandon : (task.abandon me p).switches.switch s = p.switches.switch s := by
  match task with
  | .start _ | .coil _ _ | .readSwitch _ | .report _ .inLine | .report _ (.firing [] _)
  | .report _ (.firing (_ :: _) _) | .sweep ⟨_, [], _, _, _⟩ | .sweep ⟨_, _ :: _, _, _, _⟩
  | .snapshot _ [] _ | .snapshot _ (_ :: _) true | .snapshot _ (_ :: _) false => simp [abandon]

@[simp] theorem lock_abandon :
    (task.abandon me p).switches.lock s =
      if (task.errand? s).isSome then (p.switches.lock s).leave me else p.switches.lock s := by
  match task with
  | .start _ | .coil _ _ | .sweep ⟨_, [], _, _, _⟩ | .sweep ⟨_, _ :: _, _, _, _⟩
  | .snapshot _ [] true | .snapshot _ [] false | .snapshot _ (_ :: _) false =>
      simp [abandon, errand?]
  | .readSwitch n | .snapshot _ (n :: _) true =>
      by_cases h : n = s <;> simp [abandon, errand?, h]
  | .report t .inLine | .report t (.firing [] _) | .report t (.firing (_ :: _) _) =>
      by_cases h : t.switch = s <;> simp [abandon, errand?, h]

@[simp] theorem journal_abandon : (task.abandon me p).panel.journal = p.panel.journal := by
  rw [panel_abandon]
  rcases task.job? with _ | ⟨job, stage⟩
  · rfl
  · cases stage <;> rfl

@[simp] theorem stream_abandon : (task.abandon me p).stream = p.stream := by
  match task with
  | .start _ | .coil _ _ | .readSwitch _ | .report _ .inLine | .report _ (.firing [] _)
  | .report _ (.firing (_ :: _) _) | .sweep ⟨_, [], _, _, _⟩ | .sweep ⟨_, _ :: _, _, _, _⟩
  | .snapshot _ [] _ | .snapshot _ (_ :: _) true | .snapshot _ (_ :: _) false => rfl

end Abandon
end Task

namespace World

variable {w : World Platform Task Outcome} {id : TaskId} {task : Task} {s : SwitchNumber}

/-- The desk of a switch in a world. -/
def desk (w : World Platform Task Outcome) (s : SwitchNumber) : SwitchDesk :=
  w.state.desk s fun t => (w.running[t]?).bind (Task.errand? s)

theorem errands_update (running : TaskId → Option Task) (id : TaskId) (u : Option Task) :
    (fun t => (Function.update running id u t).bind (Task.errand? s)) =
      Function.update (fun t => (running t).bind (Task.errand? s)) id (u.bind (Task.errand? s)) :=
  Function.comp_update (fun u : Option Task => u.bind (Task.errand? s)) running id u

theorem desk_insert (p : Platform) (task : Task) :
    World.desk { w with state := p, running := w.running.insert id task } s =
      p.desk s (Function.update (w.desk s).errands id (task.errand? s)) := by
  have h := congrArg (fun running t => (running t : Option Task).bind (Task.errand? s))
    (running_insert w.running id task)
  exact congrArg (p.desk s) (h.trans (errands_update ..))

theorem desk_erase (p : Platform) (results : Std.ExtTreeMap TaskId Outcome) :
    World.desk { w with state := p, running := w.running.erase id, results := results } s =
      p.desk s (Function.update (w.desk s).errands id none) := by
  have h := congrArg (fun running t => (running t : Option Task).bind (Task.errand? s))
    (running_erase w.running id)
  exact congrArg (p.desk s) (h.trans (errands_update ..))

theorem errands_of_running (h : w.running[id]? = some task) :
    (w.desk s).errands id = task.errand? s := by
  simp [desk, Platform.desk, h]

/-- Who has a change to publish is a report whose rules are being fired. -/
theorem report_of_changes {flip : Flip} (h : (w.desk s).errands id = some (.changes flip)) :
    ∃ t rules stage, w.running[id]? = some (.report t (.firing rules stage)) ∧ t.switch = s ∧
      t.flip = flip := by
  obtain ⟨task, hr, he⟩ := Option.bind_eq_some_iff.mp h
  match task, he with
  | .report t (.firing rules stage), he =>
      obtain ⟨ht, hf⟩ := Option.ite_none_right_eq_some.mp he
      cases hf
      exact ⟨t, rules, stage, hr, ht, rfl⟩
  | .report t .inLine, he => cases (Option.ite_none_right_eq_some.mp he).2
  | .readSwitch n, he => cases (Option.ite_none_right_eq_some.mp he).2
  | .snapshot found (n :: rest) true, he => cases (Option.ite_none_right_eq_some.mp he).2

/-- A step is at most one move at the desk of each switch. -/
theorem desk_step (hn : w.state.switches.Numbered) (id : TaskId) (s : SwitchNumber) :
    (w.step Task.workings id).desk s = w.desk s ∨
      (w.desk s).Move ((w.step Task.workings id).desk s) := by
  obtain hw | ⟨task, task', p, hr, hs, hw⟩ | ⟨task, result, p, hr, hs, hw⟩ :=
    step_cases Task.workings w id
  · exact .inl (by rw [hw])
  · have h := (Task.step_atSwitches task id w.now w.state).desk hn (errands_of_running (s := s) hr)
    rw [show task.step id w.now w.state = (.next task', p) from hs] at h
    rw [hw, desk_insert]
    exact h
  · have h := (Task.step_atSwitches task id w.now w.state).desk hn (errands_of_running (s := s) hr)
    rw [show task.step id w.now w.state = (.finished result, p) from hs] at h
    rw [hw, desk_erase]
    exact h

theorem desk_abandon (id : TaskId) (s : SwitchNumber) :
    (w.abandon Task.workings id).desk s = w.desk s ∨
      (w.desk s).Move ((w.abandon Task.workings id).desk s) ∨
      (w.desk s).Loss id ((w.abandon Task.workings id).desk s) := by
  obtain ⟨-, hw⟩ | ⟨task, hr, hw⟩ := abandon_cases Task.workings w id
  · exact .inl (by rw [hw])
  · have he := errands_of_running (s := s) hr
    have hd : (w.abandon Task.workings id).desk s =
        (task.abandon id w.state).desk s (Function.update (w.desk s).errands id none) := by
      rw [hw, ← desk_erase (w := w) _ w.results]
      rfl
    have hgone (h : (task.errand? s).isSome) : (w.abandon Task.workings id).desk s =
        { w.desk s with
          lock := (w.desk s).lock.leave id
          errands := Function.update (w.desk s).errands id none } := by
      rw [hd]
      simp [Platform.desk, h, desk]
    cases ht : task.errand? s with
    | none =>
        refine .inl ?_
        rw [hd, ← ht, ← he, Function.update_eq_self]
        simp [Platform.desk, ht, desk]
    | some e =>
        rw [hgone (by rw [ht]; rfl)]
        cases e with
        | asks => exact .inr (.inl (.leaves (he.trans ht)))
        | changes flip => exact .inr (.inr (.mk (he.trans ht)))

end World

namespace Platform

theorem apart_outside (e : Outside) (p : Platform) : p.Apart (outside e p) := by
  obtain ⟨online, clock, stream, notices, hsequence, hq⟩ := outside_eq e p
  have hunnoted : p.Apart
      { p with panel := { p.panel with board := p.panel.board.setOnline online }, clock, stream } :=
    ⟨fun _ => rfl, rfl, hsequence⟩
  rw [hq]
  exact hunnoted.trans (.notes _ notices)

variable {w : World Platform Task Outcome}

theorem next_desk (h : w.Sound) (hn : w.state.switches.Numbered) (e : Event Call Outside)
    (s : SwitchNumber) :
    (scene.next w e).desk s = w.desk s ∨ (w.desk s).Move ((scene.next w e).desk s) ∨
      ∃ id, e = .abandon id ∧ (w.desk s).Loss id ((scene.next w e).desk s) := by
  cases e with
  | call call =>
      refine .inl ?_
      have hfree : (w.desk s).errands w.nextId = none := by
        simp [World.desk, desk, h.running_next]
      have hw : (scene.next w (.call call)).desk s =
          w.state.desk s (Function.update (w.desk s).errands w.nextId none) :=
        World.desk_insert w.state (.start call)
      rw [hw, ← hfree, Function.update_eq_self]
      rfl
  | step id =>
      rcases World.desk_step hn id s with hw | hw
      · exact .inl hw
      · exact .inr (.inl hw)
  | abandon id =>
      rcases World.desk_abandon (w := w) id s with hw | hw | hw
      · exact .inl hw
      · exact .inr (.inl hw)
      · exact .inr (.inr ⟨id, rfl, hw⟩)
  | pass ms => exact .inl rfl
  | outside e => exact .inl ((apart_outside e w.state).desk s _)

end Platform
end Playfield
