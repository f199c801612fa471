import Playfield.Proofs.Coil.Worksite

/-! The commanded state of a coil is a replay. After every move of a worksite, the state recorded for a coil
is what the accepted commands on it make of a disabled coil, in the order in which the board carried them
out; firings of rules leave it alone. What the driver shows follows from the last accepted actuation. -/
namespace Playfield

namespace Coil

def carryOut (k : Coil) (a : Actuation) : Coil :=
  match a.kind with
  | .pulse => k.recordPulse a.pulseMs a.pulsePower
  | .enable => k.recordEnable a.pulseMs a.pulsePower a.holdPower
  | .disable => k.recordDisable

theorem enabled_carryOut (k : Coil) (a : Actuation) :
    (k.carryOut a).enabled = decide (a.kind = .enable) := by
  unfold carryOut
  split <;> simp_all [recordPulse, recordEnable, recordDisable]

theorem hold_carryOut (k : Coil) {a : Actuation} (h : a.kind ≠ .enable) :
    (k.carryOut a).holdPower = .zero := by
  unfold carryOut
  split <;> simp_all [recordPulse, recordDisable]

theorem recordDisable_eq_self {k : Coil} (he : k.enabled = false) (hh : k.holdPower = .zero) :
    k.recordDisable = k := by
  cases k
  simp_all [recordDisable]

/-- The replay of commands, from a coil that was never commanded. -/
def replay (n : CoilNumber) (as : List Actuation) : Coil := as.foldl carryOut (disabled n)

theorem replay_append (n : CoilNumber) (as : List Actuation) (a : Actuation) :
    replay n (as ++ [a]) = (replay n as).carryOut a := by
  simp [replay, List.foldl_append]

/-- Only the last command decides whether a coil is enabled. -/
theorem enabled_replay (n : CoilNumber) (as : List Actuation) :
    (replay n as).enabled = as.getLast?.any (fun a => decide (a.kind = .enable)) := by
  cases as using List.reverseRecOn with
  | nil => rfl
  | append_singleton as a _ => simp [replay_append, enabled_carryOut]

theorem hold_replay (n : CoilNumber) (as : List Actuation) (h : (replay n as).enabled = false) :
    (replay n as).holdPower = .zero := by
  cases as using List.reverseRecOn with
  | nil => rfl
  | append_singleton as a _ =>
      rw [replay_append, enabled_carryOut, decide_eq_false_iff_not] at h
      rw [replay_append]
      exact hold_carryOut _ h

end Coil

namespace Attempt

def commands (c : CoilNumber) (x : Attempt) : Bool := decide (x.cause = .command ∧ x.coil = c)

end Attempt

namespace Journal

def acceptedOn (j : Journal) (c : CoilNumber) : List Attempt :=
  j.accepted.filter fun x => decide (x.coil = c)

def commandsOn (j : Journal) (c : CoilNumber) : List Actuation :=
  (j.accepted.filter (·.commands c)).map (·.actuation)

variable {j j' : Journal} {x : Attempt}

theorem commandsOn_eq (j : Journal) (c : CoilNumber) :
    j.commandsOn c = ((j.acceptedOn c).filter fun x => decide (x.cause = .command)).map (·.actuation) := by
  simp [commandsOn, acceptedOn, List.filter_filter, Attempt.commands]

theorem mem_accepted_of_mem_acceptedOn {c : CoilNumber} (h : x ∈ j.acceptedOn c) : x ∈ j.accepted :=
  List.mem_of_mem_filter h

/-- If the last thing that a coil has done was commanded, then it is the last command on it. -/
theorem getLast?_commandsOn {c : CoilNumber} (h : (j.acceptedOn c).getLast? = some x)
    (hx : x.cause = .command) : (j.commandsOn c).getLast? = some x.actuation := by
  obtain ⟨l, hl⟩ := List.getLast?_eq_some_iff.mp h
  rw [commandsOn_eq, hl]
  simp [List.filter_append, hx]

theorem accepted_append (h : attempts j' = attempts j ++ [x]) :
    accepted j' = accepted j ++ if x.isAccepted then [x] else [] := by
  rw [accepted, accepted, h, List.filter_append]
  congr 1
  split <;> simp_all

theorem commandsOn_append (h : attempts j' = attempts j ++ [x]) (c : CoilNumber) :
    commandsOn j' c =
      commandsOn j c ++ if x.isAccepted && x.commands c then [x.actuation] else [] := by
  rw [commandsOn, commandsOn, accepted_append h, List.filter_append, List.map_append]
  congr 1
  by_cases ha : x.isAccepted
  · by_cases hc : x.commands c <;> simp [ha, hc]
  · simp [ha]

end Journal

/-- A job records what the board has carried out for it, and nothing else. -/
theorem CoilJob.record_eq {job : CoilJob} {k : Coil} {cause : Cause} {a : Actuation}
    (h : job.demand k = some (cause, a)) :
    job.record k = if cause = .command then k.carryOut a else k := by
  cases job with
  | pulse c => cases h; rfl
  | enable c => cases h; rfl
  | disable n =>
      cases (of_demand_disable h).2
      rfl
  | fire rule => cases h; rfl
  | read n => cases h

/-- Whether jobs send such actuations: a command that pulses asks for no hold power, and rules enable. -/
def Attempt.Shaped (x : Attempt) : Prop :=
  if x.cause = .command then x.actuation.kind = .pulse → x.actuation.holdPower = .zero
  else x.actuation.kind = .enable

theorem CoilJob.shaped_of_demand {job : CoilJob} {k : Coil} {cause : Cause} {a : Actuation}
    {fault : Option BoardFault} (h : job.demand k = some (cause, a)) :
    Attempt.Shaped ⟨cause, a, fault⟩ := by
  cases job with
  | pulse c => cases h; exact fun _ => rfl
  | enable c => cases h; exact fun hp => by cases hp
  | disable n =>
      cases (of_demand_disable h).2
      exact fun hp => by cases hp
  | fire rule => cases h; rfl
  | read n => cases h

/-- The record, the board and the journal tell the same. -/
structure CoilPanel.Faithful (p : CoilPanel) : Prop where
  history : p.board.history = p.journal.accepted.map (·.actuation)
  replays : p.board.Replays
  recorded : ∀ c, p.bank.coil c = .replay c (p.journal.commandsOn c)
  shaped : ∀ x ∈ p.journal.accepted, x.Shaped

namespace CoilPanel.Faithful

variable {p : CoilPanel} (h : p.Faithful) {b : CoilBank} {j : Journal}

include h

theorem idle (hb : ∀ c, b.coil c = p.bank.coil c) (hj : j.accepted = p.journal.accepted) :
    CoilPanel.Faithful ⟨b, p.board, j⟩ where
  history := by rw [hj]; exact h.history
  replays := h.replays
  recorded := by
    intro c
    dsimp only
    rw [hb, h.recorded c, Journal.commandsOn, Journal.commandsOn, hj]
  shaped := by rw [hj]; exact h.shaped

theorem refused {x : Attempt} (hb : ∀ c, b.coil c = p.bank.coil c)
    (hj : j.attempts = p.journal.attempts ++ [x]) (hx : x.isAccepted = false) :
    CoilPanel.Faithful ⟨b, p.board, j⟩ :=
  h.idle hb (by rw [Journal.accepted_append hj, hx]; simp)

theorem accepted {cause : Cause} {a : Actuation}
    (hb : ∀ c, b.coil c =
      if a.coil = c ∧ cause = .command then (p.bank.coil c).carryOut a else p.bank.coil c)
    (hj : j.attempts = p.journal.attempts ++ [⟨cause, a, none⟩])
    (ha : Attempt.Shaped ⟨cause, a, none⟩) :
    CoilPanel.Faithful ⟨b, p.board.accept a, j⟩ where
  history := by
    rw [Journal.accepted_append hj]
    simp [h.history, Attempt.isAccepted]
  replays := h.replays.accept a
  recorded := by
    intro c
    dsimp only
    rw [hb, h.recorded c, Journal.commandsOn_append hj]
    by_cases hc : a.coil = c ∧ cause = .command
    · simp [hc, Attempt.commands, Attempt.coil, Attempt.isAccepted, Coil.replay_append]
    · have hx : (⟨cause, a, none⟩ : Attempt).commands c = false :=
        decide_eq_false fun hx => hc ⟨hx.2, hx.1⟩
      simp [hc, hx]
  shaped := by
    intro x hx
    rw [Journal.accepted_append hj] at hx
    rcases List.mem_append.mp hx with hx | hx
    · exact h.shaped x hx
    · simp only [Attempt.isAccepted, Option.isNone_none, if_true, List.mem_singleton] at hx
      subst hx
      exact ha

theorem settled {c : CoilNumber} (he : (p.bank.coil c).enabled = false) :
    (p.bank.coil c).holdPower = .zero := by
  rw [h.recorded c] at he ⊢
  exact Coil.hold_replay c _ he

/-- The output of a driver is what the last actuation has left there. -/
theorem output_eq (c : CoilNumber) :
    (p.board.driver c).output = (p.journal.acceptedOn c).getLast?.elim .off fun x =>
      CoilDriver.shows x.actuation p.board.config.holdPower := by
  have hf : p.board.history.filter (fun a => decide (a.coil = c)) =
      (p.journal.acceptedOn c).map (·.actuation) := by
    rw [h.history, List.filter_map]
    rfl
  rw [h.replays c, CoilDriver.output_replay, hf, List.getLast?_map]
  cases (p.journal.acceptedOn c).getLast? <;> rfl

end CoilPanel.Faithful

def DriverOutput.isHolding : DriverOutput → Bool
  | .holding .. => true
  | .off | .pulsed .. => false

theorem CoilDriver.isHolding_shows (a : Actuation) (canHold : Bool) :
    (CoilDriver.shows a canHold).isHolding = (!a.isDisable && a.holds && canHold) := by
  unfold shows
  cases a.isDisable with
  | true => rfl
  | false => cases a.holds <;> cases canHold <;> rfl

/-- Whether the last that a coil has done was to be fired by a rule with hold power, on a board that can
hold. -/
def CoilPanel.heldByRule (p : CoilPanel) (c : CoilNumber) : Bool :=
  p.board.config.holdPower &&
    (p.journal.acceptedOn c).getLast?.any fun x => x.cause != .command && x.actuation.holds

/-- Whether a coil is released as far as commands go: it is recorded as disabled, and its driver holds it
exactly if a rule has had the last word. -/
structure CoilPanel.Released (p : CoilPanel) (c : CoilNumber) : Prop where
  enabled : (p.bank.coil c).enabled = false
  held : (p.board.driver c).output.isHolding = p.heldByRule c

namespace CoilPanel.Faithful

variable {p : CoilPanel} (h : p.Faithful) {c : CoilNumber}

include h

theorem isHolding_eq (he : (p.bank.coil c).enabled = false) :
    (p.board.driver c).output.isHolding = p.heldByRule c := by
  rw [h.output_eq c, heldByRule]
  cases hl : (p.journal.acceptedOn c).getLast? with
  | none => simp [DriverOutput.isHolding]
  | some x =>
      have hs := h.shaped x (Journal.mem_accepted_of_mem_acceptedOn (List.mem_of_getLast? hl))
      rw [Option.elim_some, CoilDriver.isHolding_shows, Option.any_some]
      by_cases hx : x.cause = .command
      · -- the last command was no enable, and neither a pulse nor a disable holds
        have hk : x.actuation.kind ≠ .enable := by
          rw [h.recorded c, Coil.enabled_replay, Journal.getLast?_commandsOn hl hx] at he
          simpa using he
        rw [Attempt.Shaped, if_pos hx] at hs
        cases hak : x.actuation.kind with
        | enable => exact absurd hak hk
        | disable => simp [Actuation.isDisable, hak, hx]
        | pulse =>
            have hh : x.actuation.holds = false := by
              rw [Actuation.holds, hs hak]
              decide
            simp [hh]
      · rw [Attempt.Shaped, if_neg hx] at hs
        have hb : (x.cause != .command) = true := bne_iff_ne.mpr hx
        simp [Actuation.isDisable, hs, hb, Bool.and_comm]

theorem output_of_enabled (hr : ∀ x ∈ p.journal.acceptedOn c, x.cause = .command)
    (he : (p.bank.coil c).enabled = true) :
    (p.board.driver c).output =
      if 0.0 < (p.bank.coil c).holdPower.value ∧ p.board.config.holdPower = true then
        .holding (p.bank.coil c).pulseMs (p.bank.coil c).pulsePower (p.bank.coil c).holdPower
      else .pulsed (p.bank.coil c).pulseMs (p.bank.coil c).pulsePower := by
  rw [h.output_eq c, h.recorded c]
  rw [h.recorded c, Coil.enabled_replay] at he
  cases hl : (p.journal.acceptedOn c).getLast? with
  | none =>
      rw [Journal.commandsOn_eq, List.getLast?_eq_none_iff.mp hl] at he
      cases he
  | some x =>
      have hx := Journal.getLast?_commandsOn hl (hr x (List.mem_of_getLast? hl))
      obtain ⟨as, ha⟩ := List.getLast?_eq_some_iff.mp hx
      rw [hx] at he
      have hk : x.actuation.kind = .enable := by simpa using he
      rw [ha, Coil.replay_append]
      simp [CoilDriver.shows, Actuation.isDisable, Actuation.holds, Coil.carryOut, hk, Coil.recordEnable]

theorem isHolding_eq_false (hr : ∀ x ∈ p.journal.acceptedOn c, x.cause = .command)
    (he : (p.bank.coil c).enabled = false) : (p.board.driver c).output.isHolding = false := by
  rw [h.isHolding_eq he, heldByRule]
  cases hl : (p.journal.acceptedOn c).getLast? with
  | none => simp
  | some x => simp [hr x (List.mem_of_getLast? hl)]

end CoilPanel.Faithful

namespace Worksite

/-- A coil that cools down is recorded as disabled already. -/
def Resting (y : Worksite) : Prop :=
  ∀ t job d, y.jobs t = some (job, .cooling d) → (y.panel.bank.coil job.coil).enabled = false

/-- What holds of every worksite: orderly locks, and a faithful record. -/
structure Good (y : Worksite) : Prop where
  orderly : y.Orderly
  faithful : y.panel.Faithful
  resting : y.Resting

theorem good_atRest (policy : CommandPolicy) (config : BoardConfig) :
    (atRest policy config).Good where
  orderly := orderly_atRest policy config
  faithful := {
    history := rfl
    replays := Board.replays_ofConfig config
    recorded := fun _ => rfl
    shaped := by
      intro x hx
      cases hx }
  resting := by
    intro t job d h
    cases h

theorem Resting.update {y : Worksite} (h : y.Resting) {t : TaskId} {p : CoilPanel}
    {u : Option (CoilJob × CoilStage)}
    (hp : ∀ s job d, s ≠ t → y.jobs s = some (job, .cooling d) →
      p.bank.coil job.coil = y.panel.bank.coil job.coil)
    (hu : ∀ job d, u = some (job, .cooling d) → (p.bank.coil job.coil).enabled = false) :
    Resting ⟨p, Function.update y.jobs t u⟩ := by
  intro s job d hs
  dsimp only at hs ⊢
  by_cases hst : s = t
  · subst hst
    rw [Function.update_self] at hs
    exact hu job d hs
  · rw [Function.update_of_ne hst] at hs
    rw [hp s job d hst hs]
    exact h s job d hs

namespace Good

variable {y : Worksite} (h : y.Good) {t : TaskId} {job : CoilJob} {stage : CoilStage}
  {p : CoilPanel} {progress : Progress CoilStage CoilJob.Result} {now : Nat}

include h

/-- While one task holds the lock of a coil, no other lets that coil cool down. -/
theorem cooling_apart {s : TaskId} {job' : CoilJob} {d : Nat} {c : CoilNumber} (hst : s ≠ t)
    (hh : (y.panel.bank.lock c).holder = some t) (hs : y.jobs s = some (job', .cooling d)) :
    c ≠ job'.coil := by
  rintro rfl
  have hs' := h.orderly.cooling s job' d hs
  exact hst (Option.some.inj (hs'.symm.trans hh))

theorem faithful_works (ht : y.jobs t = some (job, stage))
    (hs : job.StepsTo t now y.panel stage progress p) : p.Faithful := by
  have hf := h.faithful
  cases hs with
  | readUnknown => exact hf
  | refused => exact hf.idle (fun _ => rfl) (by simp [Journal.accepted])
  | linesUp => exact hf.idle (fun c => by simp) rfl
  | waits => exact hf
  | silent => exact hf.idle (fun c => by simp) rfl
  | denied _ _ _ hj => exact hf.refused (fun c => by simp) hj rfl
  | @served cause a j _ hd _ _ hj =>
      refine hf.accepted (fun c => ?_) hj (CoilJob.shaped_of_demand hd)
      rw [CoilBank.coil_release, CoilBank.coil_put, CoilJob.record_eq hd, CoilJob.coil_of_demand hd]
      by_cases hc : job.coil = c
      · simp [hc]
      · simp [hc]
  | @pulsed a j _ hd _ _ hj =>
      refine hf.accepted (fun c => ?_) hj (CoilJob.shaped_of_demand hd)
      rw [CoilBank.coil_put, CoilJob.record_eq hd, CoilJob.coil_of_demand hd]
      by_cases hc : job.coil = c
      · simp [hc]
      · simp [hc]
  | cools => exact hf
  | leftOn _ _ hj => exact hf.refused (fun c => by simp) hj rfl
  | disabled _ _ hj =>
      refine hf.accepted (fun c => ?_) hj (fun hp => by cases hp)
      -- the pulse has been recorded, so that there is nothing left to record
      have he := h.resting t job _ ht
      by_cases hc : job.coil = c
      · subst hc
        have hk := Coil.recordDisable_eq_self he (hf.settled he)
        simp [Actuation.disable, Coil.carryOut, hk]
      · simp [Actuation.disable, hc]

theorem resting_works (ht : y.jobs t = some (job, stage))
    (hs : job.StepsTo t now y.panel stage progress p) :
    Resting ⟨p, Function.update y.jobs t (job.inHand stage progress)⟩ := by
  have hr := h.resting
  cases hs with
  | readUnknown => exact hr.update (fun _ _ _ _ _ => rfl) (fun _ _ hu => by cases hu)
  | refused => exact hr.update (fun _ _ _ _ _ => rfl) (fun _ _ hu => by cases hu)
  | linesUp => exact hr.update (fun _ _ _ _ _ => by simp) (fun _ _ hu => by cases hu)
  | waits => exact hr.update (fun _ _ _ _ _ => rfl) (fun _ _ hu => by cases hu)
  | silent =>
      exact hr.update (fun _ _ _ _ _ => by simp [CoilPanel.release]) (fun _ _ hu => by cases hu)
  | denied => exact hr.update (fun _ _ _ _ _ => by simp) (fun _ _ hu => by cases hu)
  | served hh =>
      refine hr.update (fun s job' d hst hj => ?_) (fun _ _ hu => by cases hu)
      have hne := h.cooling_apart hst hh hj
      simp [hne]
  | pulsed hh hd _ hl =>
      refine hr.update (fun s job' d hst hj => ?_) (fun job' d hu => ?_)
      · have hne := h.cooling_apart hst hh hj
        simp [hne]
      · cases hu
        rw [CoilBank.coil_put, if_pos rfl]
        cases job with
        | pulse c => rfl
        | _ => cases hl
  | cools =>
      refine hr.update (fun _ _ _ _ _ => rfl) (fun job' d hu => ?_)
      cases hu
      exact hr t _ _ ht
  | leftOn => exact hr.update (fun _ _ _ _ _ => by simp) (fun _ _ hu => by cases hu)
  | disabled => exact hr.update (fun _ _ _ _ _ => by simp) (fun _ _ hu => by cases hu)

theorem move {z : Worksite} (hm : y.Move z) : z.Good := by
  have ho := h.orderly.move hm
  have hr := h.resting
  cases hm with
  | takesUp => exact ⟨ho, h.faithful, hr.update (fun _ _ _ _ _ => rfl) (fun _ _ hu => by cases hu)⟩
  | @works t job stage progress p now ht hs =>
      have hst := CoilJob.StepsTo.of_step h.orderly.numbered hs
      exact ⟨ho, h.faithful_works ht hst, h.resting_works ht hst⟩
  | @drops t job stage ht =>
      refine ⟨ho, ?_, hr.update (fun _ _ _ _ _ => ?_) (fun _ _ hu => by cases hu)⟩
      · cases stage with
        | start => exact h.faithful
        | inLine => exact h.faithful.idle (fun c => by simp) rfl
        | cooling d => exact h.faithful.idle (fun c => by simp) rfl
      · cases stage <;> simp [CoilJob.abandon]
  | switches online =>
      exact ⟨ho, ⟨h.faithful.history, h.faithful.replays.setOnline online, h.faithful.recorded,
        h.faithful.shaped⟩, hr⟩
  | notes hj =>
      exact ⟨ho, h.faithful.idle (fun _ => rfl) (by rw [Journal.accepted, hj]; rfl), hr⟩

theorem reaches {z : Worksite} (hr : y.Reaches z) : z.Good := by
  induction hr with
  | refl => exact h
  | tail _ hm ih => exact ih.move hm

end Good
end Worksite
end Playfield
