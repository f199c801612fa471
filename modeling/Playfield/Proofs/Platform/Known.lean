import Playfield.Proofs.Coil.Turn
import Playfield.Proofs.Platform.Waiting

/-! What a platform knows. A switch is known once a report, a query, a rule or a device has named it, and a
coil once a command, a rule or a bulk disable has been about to actuate it; nothing else makes them known,
and nothing makes them unknown. -/
namespace Playfield

theorem CoilJob.StepsTo.number {job : CoilJob} {me : TaskId} {now : Nat} {p q : CoilPanel} {stage : CoilStage}
    {k : Coil} (h : job.StepsTo me now p stage (.finished (.ok k)) q) (hn : p.bank.Numbered) :
    k.number = job.coil := by
  cases h with
  | readUnknown => rfl
  | silent => exact hn job.coil
  | served => rw [number_record, hn job.coil]
  | disabled => exact hn job.coil

namespace Task

variable {me : TaskId} {now : Nat} {task : Task} {p : Platform} {c : CoilNumber}

/-- The next step of a task asks for the lock of the coil `c`, in order to actuate it. -/
def Seeks (task : Task) (c : CoilNumber) : Prop :=
  ∃ job, task.job? = some (job, .start) ∧ job.isRead = false ∧ job.coil = c

theorem coils_step (hn : p.panel.bank.Numbered)
    (hin : ∀ job stage, task.job? = some (job, stage) → stage ≠ .start → job.coil ∈ p.panel.bank.slots) :
    c ∈ (task.step me now p).2.panel.bank.slots ↔ c ∈ p.panel.bank.slots ∨ task.Seeks c := by
  cases hj : task.job? with
  | none =>
      have hq : QuietStep p (task.step me now p) := step_quietStep hj
      rw [hq.quiet.bank, Seeks, hj]
      simp
  | some x =>
      obtain ⟨job, stage⟩ := x
      obtain ⟨-, hq⟩ : Follows job (job.step me now stage p.panel).1 (task.step me now p).1 ∧ _ :=
        step_follows hj
      rw [hq.bank]
      refine ((job.step_stepsTo me now hn stage).mem_slots (hin job stage hj)).trans (or_congr_right ?_)
      constructor
      · rintro ⟨rfl, hr, hc⟩
        exact ⟨job, hj, hr, hc⟩
      · rintro ⟨job', hj', hr, hc⟩
        cases hj.symm.trans hj'
        exact ⟨rfl, hr, hc⟩

theorem coils_abandon
    (hin : ∀ job stage, task.job? = some (job, stage) → stage ≠ .start → job.coil ∈ p.panel.bank.slots) :
    c ∈ (task.abandon me p).panel.bank.slots ↔ c ∈ p.panel.bank.slots := by
  rw [panel_abandon]
  cases hj : task.job? with
  | none => rfl
  | some x => exact CoilJob.mem_slots_abandon (hin x.1 x.2 hj)

theorem not_blocked_of_seeks (hn : p.panel.bank.Numbered) (h : task.Seeks c) :
    (task.step me now p).1 ≠ .blocked := by
  obtain ⟨job, hj, -⟩ := h
  exact step_ne_blocked_of_job hj (CoilJob.step_ne_blocked hn nofun nofun)

end Task

/-- The switch that a call makes known, where `answer` is what its first step has come to. -/
def Call.switch? : Call → Option Outcome → Option SwitchNumber
  | .report r, _ => r.validate.toOption.map (·.switch)
  | .switchState number, _ => (Check.number .switch number).toOption
  | .configureRule _, some (.ok (.rule rule)) => some rule.switch
  | .registerDevice _, some (.ok (.device d)) => d.number? .switch
  | _, _ => none

/-- A call that asks for the lock of a switch makes it known, even if it is turned down. -/
theorem Call.switch?_error (call : Call) (e : PlatformError) :
    call.switch? (some (.error e)) = call.lock? := by
  cases call <;> rfl

namespace Task

section Step

variable {me : TaskId} {now : Nat} {task : Task} {p q : Platform} {n : SwitchNumber}

theorem Entered.mem_slots {call : Call} {progress : Progress Task Outcome}
    (h : Entered me p call (progress, q)) :
    n ∈ q.switches.slots ↔ n ∈ p.switches.slots ∨ call.switch? progress.result? = some n := by
  cases h with
  | refused hl => simp [Progress.result?, Call.switch?_error, hl]
  | served h =>
      cases h with
      | configures => simp [Progress.result?, Call.switch?, Platform.notes, or_comm]
      | @declares r d =>
          cases hd : d.number? .switch with
          | none => simp [Progress.result?, Call.switch?, Platform.notes, hd]
          | some s => simp [Progress.result?, Call.switch?, Platform.notes, hd, or_comm]
      | fades hstarts => cases hstarts <;> simp [Call.switch?, Platform.notes]
      | _ => simp [Call.switch?, Platform.notes]
  | commands h => cases h <;> simp [Call.switch?]
  | sweeps | resets | surveys => simp [Call.switch?]
  | reports hv | reads hv => simp [Call.switch?, hv, Except.toOption, or_comm]

/-- The switches that a task on its way has to do with. -/
def visits : Task → List SwitchNumber
  | .report t _ => [t.switch]
  | .readSwitch s => [s]
  | .snapshot _ rest _ => rest
  | .start _ | .coil _ _ | .sweep _ => []

theorem switches_onward (h : ∀ call, task ≠ .start call) (hn : p.switches.Numbered)
    (hv : ∀ s ∈ task.visits, s ∈ p.switches.slots) :
    n ∈ (task.step me now p).2.switches.slots ↔ n ∈ p.switches.slots := by
  match task, h, hv with
  | .start call, h, _ => exact absurd rfl (h call)
  | .coil job stage, _, _ => rfl
  | .sweep s, _, _ =>
      obtain ⟨panel, hq⟩ := stepSweep_eq s me now p
      simp only [step, hq]
  | .report t (.firing (rule :: others) stage), _, _ =>
      obtain ⟨panel, hq⟩ := fire_eq t rule others stage me now p
      simp only [step, hq]
  | .report t (.firing [] stage), _, hv =>
      have hs := hv t.switch List.mem_cons_self
      simp [step, stepReport, publishReport, finish, release, Map.eq_or_mem_iff hs]
  | .report t .inLine, _, hv =>
      have hs := hv t.switch List.mem_cons_self
      simp only [step, stepReport]
      split
      · have ha := applyReport_applies t p
        generalize applyReport t p = result at ha ⊢
        cases ha with
        | stale => simp [release, Platform.note, Map.eq_or_mem_iff hs]
        | repeats hx => simp [release, Platform.note, hx.number, hn t.switch, Map.eq_or_mem_iff hs]
        | changes hx => simp [hx.number, hn t.switch, Map.eq_or_mem_iff hs]
      · rfl
  | .readSwitch s, _, hv =>
      have hs := hv s List.mem_cons_self
      simp only [step]
      split
      · simp [finish, release, Map.eq_or_mem_iff hs]
      · rfl
  | .snapshot found [] inLine, _, _ => rfl
  | .snapshot found (s :: rest) false, _, hv =>
      have hs := hv s List.mem_cons_self
      simp [step, lineUp, Map.eq_or_mem_iff hs]
  | .snapshot found (s :: rest) true, _, hv =>
      have hs := hv s List.mem_cons_self
      simp only [step]
      split
      · simp [release, Map.eq_or_mem_iff hs]
      · rfl

theorem switches_step (hn : p.switches.Numbered) (hv : ∀ s ∈ task.visits, s ∈ p.switches.slots) :
    n ∈ (task.step me now p).2.switches.slots ↔ n ∈ p.switches.slots ∨
      ∃ call, task = .start call ∧ call.switch? (task.step me now p).1.result? = some n := by
  by_cases hs : ∃ call, task = .start call
  · obtain ⟨call, rfl⟩ := hs
    refine (enter_entered call me p).mem_slots.trans (or_congr_right ?_)
    constructor
    · exact fun h => ⟨call, rfl, h⟩
    · rintro ⟨call', hc, h⟩
      cases hc
      exact h
  · rw [switches_onward (fun call hc => hs ⟨call, hc⟩) hn hv]
    refine (or_iff_left ?_).symm
    rintro ⟨call, hc, -⟩
    exact hs ⟨call, hc⟩

/-- The switches that a task has to do with are known before it gets to them. -/
theorem visits_next {task' : Task} (h : task.step me now p = (.next task', q)) (hn : p.switches.Numbered)
    (hv : ∀ s ∈ task.visits, s ∈ p.switches.slots) : ∀ s ∈ task'.visits, s ∈ q.switches.slots := by
  have hmono (s : SwitchNumber) (hs : s ∈ p.switches.slots) : s ∈ q.switches.slots := by
    have hstep : s ∈ (task.step me now p).2.switches.slots ↔ _ := switches_step hn hv
    rw [h] at hstep
    exact hstep.mpr (.inl hs)
  match task, h, hv with
  | .start call, h, _ =>
      have hentered := enter_entered call me p
      rw [show enter call me p = (.next task', q) from h] at hentered
      cases hentered with
      | commands => exact fun s hs => absurd hs List.not_mem_nil
      | sweeps | resets => exact fun s hs => absurd hs List.not_mem_nil
      | surveys => exact fun s hs => SwitchRegistry.mem_known.mp hs
      | reports => exact fun s hs => by simp [List.mem_singleton.mp hs]
      | reads => exact fun s hs => by simp [List.mem_singleton.mp hs]
  | .coil job stage, h, _ =>
      obtain ⟨stage', rfl⟩ := coil_of_next h
      exact fun s hs => absurd hs List.not_mem_nil
  | .sweep s, h, _ =>
      obtain ⟨s', rfl⟩ := sweep_of_next h
      exact fun s hs => absurd hs List.not_mem_nil
  | .report t stage, h, hv =>
      obtain ⟨stage', rfl⟩ := report_of_next h
      exact fun s hs => hmono s (hv s hs)
  | .readSwitch s, h, _ =>
      simp only [step, finish] at h
      split at h <;> cases h
  | .snapshot found (s :: rest) false, h, hv =>
      cases h
      exact fun n hn => hmono n (hv n hn)
  | .snapshot found (s :: rest) true, h, hv =>
      simp only [step] at h
      split at h <;> cases h
      exact fun n hn => hmono n (hv n (List.mem_cons_of_mem s hn))

theorem switches_abandon (hv : ∀ s ∈ task.visits, s ∈ p.switches.slots) :
    n ∈ (task.abandon me p).switches.slots ↔ n ∈ p.switches.slots := by
  match task, hv with
  | .start _, _ | .coil _ _, _ | .sweep ⟨_, [], _, _, _⟩, _ | .sweep ⟨_, _ :: _, _, _, _⟩, _
  | .snapshot _ [] true, _ | .snapshot _ [] false, _ | .snapshot _ (_ :: _) false, _ => rfl
  | .readSwitch s, hv | .snapshot _ (s :: _) true, hv =>
      simp [abandon, Map.eq_or_mem_iff (hv s List.mem_cons_self)]
  | .report t .inLine, hv | .report t (.firing [] _), hv | .report t (.firing (_ :: _) _), hv =>
      simp [abandon, Map.eq_or_mem_iff (hv t.switch List.mem_cons_self)]

end Step
end Task

namespace Platform

variable {w : World Platform Task Outcome} {id : TaskId} {task : Task} {n : SwitchNumber} {c : CoilNumber}
  {e : Event Call Outside}

/-- What every run keeps about the switches that tasks have to do with. -/
structure Lists (w : World Platform Task Outcome) : Prop extends Kept w where
  visits : ∀ (id : TaskId) (task : Task), w.running[id]? = some task →
    ∀ s ∈ task.visits, s ∈ w.state.switches.slots

theorem switches_outside (e : Outside) (p : Platform) : (outside e p).switches = p.switches := by
  obtain ⟨online, clock, stream, notices, -, hq⟩ := outside_eq e p
  rw [hq]
  rfl

theorem step_of_idle (h : ∀ task, w.running[id]? ≠ some task) : scene.next w (.step id) = w :=
  World.step_of_none (Option.eq_none_iff_forall_ne_some.mpr h)

/-- The next step of a task is the first one of a call, and one that names the switch `n`. -/
def Names (n : SwitchNumber) (w : World Platform Task Outcome) (id : TaskId) (task : Task) : Prop :=
  ∃ call, task = .start call ∧ call.switch? (scene.next w (.step id)).results[id]? = some n

theorem Lists.brings (h : Lists w) (n : SwitchNumber) :
    scene.Brings (fun w => n ∈ w.state.switches.slots) (Names n) w where
  step := by
    intro id task hr
    have hresult : (scene.next w (.step id)).results[id]? = (task.step id w.now w.state).1.result? :=
      h.sound.result_step hr
    rw [Names, hresult]
    refine World.state_step_iff (k := Task.workings) (P := fun p => n ∈ p.switches.slots) hr
      (Task.switches_step h.numbered (h.visits id task hr)) ?_
    rintro ⟨call, rfl, -⟩
    exact Task.step_ne_blocked_of_errand rfl nofun
  other := by
    intro e he
    cases e with
    | call call => rfl
    | step id => rw [step_of_idle fun task => he id task rfl]
    | abandon id =>
        change n ∈ (w.abandon Task.workings id).state.switches.slots ↔ _
        obtain ⟨-, hw⟩ | ⟨task, hr, hw⟩ := World.abandon_cases Task.workings w id
        · rw [hw]
        · rw [hw]
          exact Task.switches_abandon (h.visits id task hr)
    | pass ms => rfl
    | outside e =>
        exact iff_of_eq (congrArg (n ∈ SwitchRegistry.slots ·) (switches_outside e w.state))

theorem Lists.next (h : Lists w) (e : Event Call Outside) : Lists (scene.next w e) where
  toKept := h.toKept.next e
  visits := by
    intro id task hr s hs
    have hold (hr : w.running[id]? = some task) : s ∈ (scene.next w e).state.switches.slots :=
      (h.brings s).mono e (h.visits id task hr s hs)
    cases e with
    | call call =>
        have hr' := (Map.getElem?_insert ..).symm.trans hr
        split at hr'
        · cases hr'
          exact absurd hs List.not_mem_nil
        · exact hold hr'
    | pass ms => exact hold hr
    | outside e => exact hold hr
    | abandon i =>
        refine hold ?_
        change (w.abandon Task.workings i).running[id]? = _ at hr
        obtain ⟨-, hw⟩ | ⟨t, -, hw⟩ := World.abandon_cases Task.workings w i
        · rwa [hw] at hr
        · rw [hw, Map.getElem?_erase] at hr
          split at hr
          · cases hr
          · exact hr
    | step i =>
        change (w.step Task.workings i).running[id]? = _ at hr
        obtain hw | ⟨t, t', p, ht, hstep, hw⟩ | ⟨t, r, p, -, -, hw⟩ := World.step_cases Task.workings w i
        · rw [hw] at hr
          exact hold hr
        · rw [hw, Map.getElem?_insert] at hr
          split at hr
          · cases hr
            have hstate : (scene.next w (.step i)).state = p := congrArg World.state hw
            rw [hstate]
            exact Task.visits_next hstep h.numbered (h.visits i t ht) s hs
          · exact hold hr
        · rw [hw, Map.getElem?_erase] at hr
          split at hr
          · cases hr
          · exact hold hr

theorem coil_of_job (h : w.worksite.Good) (hr : w.running[id]? = some task) {job : CoilJob}
    {stage : CoilStage} (hj : task.job? = some (job, stage)) (hs : stage ≠ .start) :
    job.coil ∈ w.state.panel.bank.slots :=
  h.orderly.mem_slots ((World.jobs_of_running hr).trans hj) hs

theorem brings_coil (h : w.worksite.Good) (c : CoilNumber) :
    scene.Brings (fun w => c ∈ w.state.panel.bank.slots) (fun _ _ task => task.Seeks c) w where
  step := by
    intro id task hr
    have hn := h.orderly.numbered
    exact World.state_step_iff (k := Task.workings) (P := fun p => c ∈ p.panel.bank.slots) hr
      (Task.coils_step hn fun job stage hj hs => coil_of_job h hr hj hs) (Task.not_blocked_of_seeks hn)
  other := by
    intro e he
    cases e with
    | call call => rfl
    | step id => rw [step_of_idle fun task => he id task rfl]
    | abandon id =>
        change c ∈ (w.abandon Task.workings id).state.panel.bank.slots ↔ _
        obtain ⟨-, hw⟩ | ⟨task, hr, hw⟩ := World.abandon_cases Task.workings w id
        · rw [hw]
        · rw [hw]
          exact Task.coils_abandon fun job stage hj hs => coil_of_job h hr hj hs
    | pass ms => rfl
    | outside e => exact iff_of_eq (congrArg (c ∈ CoilBank.slots ·) (bank_outside e w.state))

/-- Once a job that is to actuate a coil has taken a step, the coil is known. -/
theorem coil_after_step (h : w.worksite.Good) (hr : w.running[id]? = some task) {job : CoilJob}
    {stage : CoilStage} (hj : task.job? = some (job, stage)) (ha : job.isRead = false) :
    job.coil ∈ (scene.next w (.step id)).state.panel.bank.slots := by
  refine ((brings_coil h job.coil).step id task hr).mpr ?_
  by_cases hs : stage = .start
  · subst hs
    exact .inr ⟨job, hj, ha, rfl⟩
  · exact .inl (coil_of_job h hr hj hs)

end Platform
end Playfield
