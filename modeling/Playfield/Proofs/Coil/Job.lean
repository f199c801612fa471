import Playfield.Coil.Job
import Playfield.Proofs.Coil.Bank

/-! What one step of a job on a coil can do. `StepsTo` lists the cases once, guards included, and every
later argument about jobs starts from it. -/
namespace Playfield.CoilJob

/-- Whether a job is a command, which the reject policy may refuse. -/
def isCommand : CoilJob → Bool
  | .pulse _ | .enable _ | .disable _ => true
  | .fire _ | .read _ => false

def isRead : CoilJob → Bool
  | .read _ => true
  | _ => false

/-- The first actuation of a job whose coil is in the state `k`, if it sends any. -/
def demand (job : CoilJob) (k : Coil) : Option (Cause × Actuation) :=
  match job with
  | .pulse c => some (.command, .pulse c.coil c.pulseMs c.pulsePower)
  | .enable c => some (.command, .enable c.coil c.pulseMs c.pulsePower c.holdPower)
  | .disable n => if k.enabled then some (.command, .disable n) else none
  | .fire rule => some (.rule rule.key, rule.actuation)
  | .read _ => none

/-- The state in which a job leaves a coil whose board accepts the first actuation. -/
def record (job : CoilJob) (k : Coil) : Coil :=
  match job with
  | .pulse c => k.recordPulse c.pulseMs c.pulsePower
  | .enable c => k.recordEnable c.pulseMs c.pulsePower c.holdPower
  | .disable _ => k.recordDisable
  | .fire _ | .read _ => k

/-- Whether a job goes on to disable the coil after its first actuation. -/
def lingers (job : CoilJob) (k : Coil) : Bool :=
  match job with
  | .pulse _ => k.enabled
  | _ => false

/-- For how long a job keeps a coil that it has yet to disable. -/
def duration : CoilJob → Nat
  | .pulse c => c.pulseMs.toNat
  | _ => 0

/-- A disable sends something only if the coil is enabled. -/
theorem of_demand_disable {n : CoilNumber} {k : Coil} {x : Cause × Actuation}
    (h : (CoilJob.disable n).demand k = some x) :
    k.enabled = true ∧ x = (.command, .disable n) := by
  obtain ⟨he, hx⟩ := Option.ite_none_right_eq_some.mp h
  exact ⟨he, (Option.some.inj hx).symm⟩

theorem coil_of_demand {job : CoilJob} {k : Coil} {cause : Cause} {a : Actuation}
    (h : job.demand k = some (cause, a)) : a.coil = job.coil := by
  cases job with
  | pulse c => cases h; rfl
  | enable c => cases h; rfl
  | disable n =>
      cases (of_demand_disable h).2
      rfl
  | fire rule => cases h; rfl
  | read n => cases h

theorem lingers_of_demand {job : CoilJob} {k : Coil} {a : Actuation}
    (h : job.demand k = some (.command, a)) (ha : a.kind = .pulse) (he : k.enabled = true) :
    job.lingers k = true := by
  cases job with
  | pulse c => exact he
  | enable c => cases h; cases ha
  | disable n =>
      cases (of_demand_disable h).2
      cases ha
  | fire rule => cases h
  | read n => cases h

theorem number_record (job : CoilJob) (k : Coil) : (job.record k).number = k.number := by
  cases job <;> rfl

/-- One step of the job of the task `me` at the moment `now`, from a stage on. -/
inductive StepsTo (job : CoilJob) (me : TaskId) (now : Nat) (p : CoilPanel) :
    CoilStage → Progress CoilStage Result → CoilPanel → Prop
  /-- A coil without a slot is read without a lock. -/
  | readUnknown : job.isRead → job.coil ∉ p.bank.slots →
      StepsTo job me now p .start (.finished (.ok (.disabled job.coil))) p
  | refused : job.isCommand → p.bank.policy = .reject → (p.bank.lock job.coil).isHeld →
      StepsTo job me now p .start (.finished (.error (.busy job.coil)))
        (p.note (.commandRejected job.coil))
  | linesUp : (job.isCommand → p.bank.policy = .reject → (p.bank.lock job.coil).isHeld = false) →
      (job.isRead → job.coil ∈ p.bank.slots) →
      StepsTo job me now p .start (.next .inLine) { p with bank := p.bank.request job.coil me }
  | waits : (p.bank.lock job.coil).holder ≠ some me → StepsTo job me now p .inLine .blocked p
  /-- The job sends nothing. -/
  | silent : (p.bank.lock job.coil).holder = some me → job.demand (p.bank.coil job.coil) = none →
      StepsTo job me now p .inLine (.finished (.ok (p.bank.coil job.coil))) (p.release job.coil)
  /-- The board refuses the first actuation. -/
  | denied {cause a fault j} : (p.bank.lock job.coil).holder = some me →
      job.demand (p.bank.coil job.coil) = some (cause, a) → p.board.fault? job.coil = some fault →
      Journal.attempts j = p.journal.attempts ++ [⟨cause, a, some fault⟩] →
      StepsTo job me now p .inLine (.finished (.error (.unavailable fault.unavailable)))
        ⟨p.bank.release job.coil, p.board, j⟩
  /-- The board carries the only actuation out. -/
  | served {cause a j} : (p.bank.lock job.coil).holder = some me →
      job.demand (p.bank.coil job.coil) = some (cause, a) → p.board.fault? job.coil = none →
      job.lingers (p.bank.coil job.coil) = false →
      Journal.attempts j = p.journal.attempts ++ [⟨cause, a, none⟩] →
      StepsTo job me now p .inLine (.finished (.ok (job.record (p.bank.coil job.coil))))
        ⟨(p.bank.put job.coil (job.record (p.bank.coil job.coil))).release job.coil,
          p.board.accept a, j⟩
  /-- The board carries the pulse of an enabled coil out, which keeps the lock. -/
  | pulsed {a j} : (p.bank.lock job.coil).holder = some me →
      job.demand (p.bank.coil job.coil) = some (.command, a) → p.board.fault? job.coil = none →
      job.lingers (p.bank.coil job.coil) →
      Journal.attempts j = p.journal.attempts ++ [⟨.command, a, none⟩] →
      StepsTo job me now p .inLine (.next (.cooling (now + job.duration)))
        ⟨p.bank.put job.coil (job.record (p.bank.coil job.coil)), p.board.accept a, j⟩
  | cools {deadline} : now < deadline → StepsTo job me now p (.cooling deadline) .blocked p
  /-- The coil is not disabled after its pulse, because the board refuses. -/
  | leftOn {deadline fault j} : deadline ≤ now → p.board.fault? job.coil = some fault →
      Journal.attempts j = p.journal.attempts ++ [⟨.command, .disable job.coil, some fault⟩] →
      StepsTo job me now p (.cooling deadline) (.finished (.error (.unavailable fault.unavailable)))
        ⟨p.bank.release job.coil, p.board, j⟩
  | disabled {deadline j} : deadline ≤ now → p.board.fault? job.coil = none →
      Journal.attempts j = p.journal.attempts ++ [⟨.command, .disable job.coil, none⟩] →
      StepsTo job me now p (.cooling deadline) (.finished (.ok (p.bank.coil job.coil)))
        ⟨p.bank.release job.coil, p.board.accept (.disable job.coil), j⟩

theorem StepsTo.config {job : CoilJob} {me : TaskId} {now : Nat} {p q : CoilPanel} {stage : CoilStage}
    {progress : Progress CoilStage Result} (h : job.StepsTo me now p stage progress q) :
    q.board.config = p.board.config := by
  cases h <;> rfl

section Disable

variable {c n : CoilNumber} {me : TaskId} {now : Nat} {p q : CoilPanel} {stage : CoilStage}
  {progress : Progress CoilStage Result} {k : Coil}

theorem StepsTo.enabled_mono (h : (disable c).StepsTo me now p stage progress q)
    (he : (q.bank.coil n).enabled = true) : (p.bank.coil n).enabled = true := by
  cases h with
  | readUnknown => exact he
  | refused => exact he
  | linesUp => simpa using he
  | waits => exact he
  | silent => simpa [CoilPanel.release] using he
  | denied => simpa using he
  | served =>
      rw [CoilBank.coil_release, CoilBank.coil_put] at he
      split at he
      · cases he
      · exact he
  | pulsed _ _ _ hl => cases hl
  | cools => exact he
  | leftOn => simpa using he
  | disabled => simpa using he

/-- A disable that succeeds leaves its coil disabled. -/
theorem StepsTo.enabled_eq_false (h : (disable c).StepsTo me now p stage (.finished (.ok k)) q)
    (hc : ∀ d, stage = .cooling d → (p.bank.coil c).enabled = false) :
    (q.bank.coil c).enabled = false := by
  cases h with
  | readUnknown hr => cases hr
  | silent _ hd =>
      rw [CoilPanel.release, CoilBank.coil_release]
      cases he : (p.bank.coil c).enabled with
      | false => rfl
      | true => simp [demand, coil, he] at hd
  | served => simp [coil, record, Coil.recordDisable]
  | disabled => simpa using hc _ rfl

end Disable

section Act

variable {job : CoilJob} {me : TaskId} {now : Nat} {p : CoilPanel}

theorem act_pulse_stepsTo {c : Pulse} (hn : p.bank.Numbered)
    (hh : (p.bank.lock c.coil).holder = some me) :
    StepsTo (.pulse c) me now p .inLine (act (.pulse c) now p).1 (act (.pulse c) now p).2 := by
  have hk : ((p.bank.coil c.coil).recordPulse c.pulseMs c.pulsePower).number = c.coil := hn c.coil
  cases hf : p.board.fault? c.coil with
  | some fault =>
      simp only [act, CoilPanel.send_of_fault (a := .pulse c.coil c.pulseMs c.pulsePower) hf]
      exact .denied hh rfl hf (by simp [CoilPanel.refuse])
  | none =>
      simp only [act, coil, CoilPanel.send_of_no_fault (a := .pulse c.coil c.pulseMs c.pulsePower) hf,
        CoilPanel.setCoil, CoilBank.setCoil_eq_put hk]
      cases he : (p.bank.coil c.coil).enabled with
      | true => exact .pulsed hh rfl hf he (by simp [CoilPanel.accept])
      | false => exact .served hh rfl hf he (by simp [CoilPanel.accept])

theorem act_enable_stepsTo {c : Enable} (hn : p.bank.Numbered)
    (hh : (p.bank.lock c.coil).holder = some me) :
    StepsTo (.enable c) me now p .inLine (act (.enable c) now p).1 (act (.enable c) now p).2 := by
  have hk : ((p.bank.coil c.coil).recordEnable c.pulseMs c.pulsePower c.holdPower).number = c.coil :=
    hn c.coil
  generalize ha : Actuation.enable c.coil c.pulseMs c.pulsePower c.holdPower = a
  have hc : a.coil = c.coil := by rw [← ha]; rfl
  have hd : (CoilJob.enable c).demand (p.bank.coil c.coil) = some (.command, a) := by rw [← ha]; rfl
  -- the notice about missing hold power leaves everything but the journal as it is
  obtain ⟨q, hq⟩ : ∃ q, q = if a.holds && !p.board.config.holdPower then
    p.note (.holdUnsupported c.coil) else p := ⟨_, rfl⟩
  have hbank : q.bank = p.bank := by rw [hq]; split <;> rfl
  have hboard : q.board = p.board := by rw [hq]; split <;> rfl
  have hj : q.journal.attempts = p.journal.attempts := by
    rw [hq]; split <;> simp [CoilPanel.note]
  simp only [act, coil, ha, ← hq]
  cases hf : p.board.fault? c.coil with
  | some fault =>
      rw [CoilPanel.send_of_fault (by rw [hboard, hc]; exact hf)]
      simp only [finish, CoilPanel.release, CoilPanel.refuse, hbank, hboard]
      exact .denied hh hd hf (by simp [hj])
  | none =>
      rw [CoilPanel.send_of_no_fault (by rw [hboard, hc]; exact hf)]
      simp only [finish, CoilPanel.release, CoilPanel.accept, CoilPanel.setCoil, hbank, hboard,
        CoilBank.setCoil_eq_put hk]
      exact .served hh hd hf rfl (by simp [hj])

theorem act_disable_stepsTo {n : CoilNumber} (hn : p.bank.Numbered)
    (hh : (p.bank.lock n).holder = some me) :
    StepsTo (.disable n) me now p .inLine (act (.disable n) now p).1 (act (.disable n) now p).2 := by
  have hk : (p.bank.coil n).recordDisable.number = n := hn n
  cases he : (p.bank.coil n).enabled with
  | false =>
      simp only [act, coil, he, Bool.not_false, if_true]
      exact .silent hh (by simp [demand, coil, he])
  | true =>
      have hd : (CoilJob.disable n).demand (p.bank.coil n) = some (.command, .disable n) := by
        simp [demand, he]
      simp only [act, coil, he, Bool.not_true, Bool.false_eq_true, if_false]
      cases hf : p.board.fault? n with
      | some fault =>
          rw [CoilPanel.send_of_fault (a := .disable n) hf]
          exact .denied hh hd hf (by simp [CoilPanel.refuse])
      | none =>
          rw [CoilPanel.send_of_no_fault (a := .disable n) hf]
          simp only [CoilPanel.setCoil, CoilBank.setCoil_eq_put hk]
          exact .served hh hd hf rfl (by simp [CoilPanel.accept])

theorem act_fire_stepsTo {rule : HardwareRule} (hh : (p.bank.lock rule.coil).holder = some me) :
    StepsTo (.fire rule) me now p .inLine (act (.fire rule) now p).1 (act (.fire rule) now p).2 := by
  cases hf : p.board.fault? rule.coil with
  | some fault =>
      simp only [act, CoilPanel.send_of_fault (a := rule.actuation) hf]
      exact .denied hh rfl hf (by simp [CoilPanel.refuse])
  | none =>
      simp only [act, CoilPanel.send_of_no_fault (a := rule.actuation) hf]
      have hs : StepsTo (.fire rule) me now p .inLine _ _ :=
        .served hh rfl hf rfl
          (j := p.journal ++ [.attempted (.rule rule.key) rule.actuation none]) (by simp)
      simp only [record, coil, CoilBank.put_coil (CoilBank.mem_of_holder hh)] at hs
      exact hs

theorem act_stepsTo (hn : p.bank.Numbered) (hh : (p.bank.lock job.coil).holder = some me) :
    StepsTo job me now p .inLine (job.act now p).1 (job.act now p).2 := by
  cases job with
  | pulse c => exact act_pulse_stepsTo hn hh
  | enable c => exact act_enable_stepsTo hn hh
  | disable n => exact act_disable_stepsTo hn hh
  | fire rule => exact act_fire_stepsTo hh
  | read n => exact .silent hh rfl

theorem enter_of_isCommand (hc : job.isCommand) :
    job.enter me p =
      if p.bank.policy = .reject ∧ (p.bank.lock job.coil).isHeld then
        (.finished (.error (.busy job.coil)), p.note (.commandRejected job.coil))
      else (.next .inLine, { p with bank := p.bank.request job.coil me }) := by
  cases job with
  | fire rule => cases hc
  | read n => cases hc
  | pulse c => rfl
  | enable c => rfl
  | disable n => rfl

theorem enter_stepsTo : StepsTo job me now p .start (job.enter me p).1 (job.enter me p).2 := by
  by_cases hc : job.isCommand
  · have hr : job.isRead = false := by cases job <;> first | rfl | cases hc
    rw [enter_of_isCommand hc]
    by_cases hb : p.bank.policy = .reject ∧ (p.bank.lock job.coil).isHeld
    · rw [if_pos hb]
      exact .refused hc hb.1 hb.2
    · rw [if_neg hb]
      exact .linesUp (fun _ hp => Bool.eq_false_iff.mpr fun hl => hb ⟨hp, hl⟩) (by simp [hr])
  · cases job with
    | fire rule => exact .linesUp (fun h => absurd h hc) (fun h => by cases h)
    | read n =>
        by_cases hs : n ∈ p.bank.slots
        · simp only [enter, coil, hs, if_true]
          exact .linesUp (fun h => absurd h hc) (fun _ => hs)
        · simp only [enter, coil, hs, if_false]
          exact .readUnknown rfl hs
    | pulse c => exact absurd rfl hc
    | enable c => exact absurd rfl hc
    | disable n => exact absurd rfl hc

theorem coolDown_stepsTo {deadline : Nat} (hd : deadline ≤ now) :
    StepsTo job me now p (.cooling deadline) (coolDown job.coil p).1 (coolDown job.coil p).2 := by
  cases hf : p.board.fault? job.coil with
  | some fault =>
      simp only [coolDown, CoilPanel.send_of_fault (a := .disable job.coil) hf]
      exact .leftOn hd hf (by simp [CoilPanel.refuse, CoilPanel.note])
  | none =>
      simp only [coolDown, CoilPanel.send_of_no_fault (a := .disable job.coil) hf]
      exact .disabled hd hf (by simp [CoilPanel.accept, CoilPanel.note])

/-- The cases of `StepsTo` are all that a step can do. -/
theorem step_stepsTo (job : CoilJob) (me : TaskId) (now : Nat) (hn : p.bank.Numbered)
    (stage : CoilStage) :
    StepsTo job me now p stage (job.step me now stage p).1 (job.step me now stage p).2 := by
  cases stage with
  | start => exact enter_stepsTo
  | inLine =>
      by_cases hh : p.bank.isHeldBy job.coil me = true
      · rw [step, if_pos hh]
        exact act_stepsTo hn (CoilBank.isHeldBy_iff.mp hh)
      · rw [step, if_neg hh]
        exact .waits (mt CoilBank.isHeldBy_iff.mpr hh)
  | cooling deadline =>
      by_cases hd : deadline ≤ now
      · rw [step, if_pos hd]
        exact coolDown_stepsTo hd
      · rw [step, if_neg hd]
        exact .cools (by omega)

theorem StepsTo.of_step {q : CoilPanel} {stage : CoilStage} {progress : Progress CoilStage Result}
    (hn : p.bank.Numbered) (h : job.step me now stage p = (progress, q)) :
    job.StepsTo me now p stage progress q := by
  have hst := job.step_stepsTo me now hn stage
  rwa [h] at hst

end Act
end Playfield.CoilJob
