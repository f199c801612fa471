import Playfield.Platform.Workings
import Playfield.Proofs.Rule.Table
import Playfield.Proofs.Stream.Reader
import Playfield.Proofs.Switch.History
import Playfield.Proofs.Switch.Registry

/-! What the operations of a platform do to it. A call that needs no lock is done with its first step, which is
one update of the platform and at most adds notices to the journal; the first step of any other call only
takes it to a lock, or to the start of its work on the coils. What an operation leaves alone is read off from
here, for whatever part of the platform. -/
namespace Playfield

/-- The switch whose lock the first step of a call asks for. -/
def Call.lock? : Call → Option SwitchNumber
  | .report r => r.validate.toOption.map (·.switch)
  | .switchState number => (Check.number .switch number).toOption
  | _ => none

/-- The fades that a call starts, which take `ms` each. -/
inductive Call.Starts : Call → List Lighting → UInt32 → Prop
  | channels {r fade} : r.validate = .ok fade → Starts (.fadeChannels r) fade.targets fade.fadeMs
  | rgb {r fade} : r.validate = .ok fade →
      Starts (.fadeRgb r) (LightEngine.rgbTargets fade) fade.fadeMs
  | single {r fade} : r.validate = .ok fade →
      Starts (.fadeSingle r) [(fade.light, fade.target)] fade.fadeMs

namespace Platform

/-- Adds notices to the journal. -/
def notes (p : Platform) (notices : List Notice) : Platform :=
  { p with panel := { p.panel with journal := p.panel.journal ++ notices.map Entry.noted } }

variable {p q : Platform}

/-- What succeeds after a check has passed the check. -/
theorem of_bind {ε α β : Type} {check : Except ε α} {f : α → Except ε β} {b : β} {P : Prop}
    (h : check >>= f = .ok b) (hf : ∀ a, check = .ok a → f a = .ok b → P) : P := by
  cases check with
  | error e => cases h
  | ok a => exact hf a rfl h

theorem notes_nil (p : Platform) : p.notes [] = p := by simp [notes]

theorem notes_cons (p : Platform) (notice : Notice) (notices : List Notice) :
    p.notes (notice :: notices) = (p.note notice).notes notices := by
  simp [notes, note, CoilPanel.note]

theorem startFades_eq (p : Platform) (targets : List Lighting) (ms : UInt32) : p.startFades targets ms =
    ({ p with lights := p.lights.start targets ms p.clock.now } : Platform).notes
      (targets.map fun t => .fadeStarted t.1 t.2 ms) := by
  have hnoted (q : Platform) : targets.foldl (fun q t => q.note (.fadeStarted t.1 t.2 ms)) q =
      q.notes (targets.map fun t => .fadeStarted t.1 t.2 ms) := by
    induction targets generalizing q with
    | nil => exact (notes_nil q).symm
    | cons t targets ih => rw [List.foldl_cons, ih, List.map_cons, notes_cons]
  rw [startFades, hnoted]
  rfl

/-- What is answered at once, and what becomes of the platform. -/
inductive Serves (p : Platform) : Call → Answer → Platform → Prop
  | details : Serves p .details (.details p.details) p
  | rules : Serves p .rules (.rules p.rules.toList) p
  | device {kind name d} : p.device kind name = .ok d → Serves p (.device kind name) (.device d) p
  | devices {query} : Serves p (.devices query) (.devices (p.devices.query query)) p
  | configures {r rule} : r.validate = .ok rule → Serves p (.configureRule r) (.rule rule)
      (({ p with
          switches := p.switches.touch rule.switch
          rules := (p.rules.configure rule).2 } : Platform).notes
        [(p.rules.configure rule).1.elim (.ruleConfigured rule.key) fun old => .ruleReplaced old.key])
  | removes {r key} {notice : Notice} : r.validate = .ok key → Serves p (.removeRule r) .done
      (({ p with rules := (p.rules.remove key).2 } : Platform).notes [notice])
  | fades {call targets ms} : call.Starts targets ms → Serves p call .done
      (({ p with lights := p.lights.start targets ms p.clock.now } : Platform).notes
        (targets.map fun t => .fadeStarted t.1 t.2 ms))
  | looks {number light} : Check.number .light number = .ok light →
      Serves p (.lightState number) (.light (p.lights.read light p.clock.now).1)
        { p with lights := (p.lights.read light p.clock.now).2 }
  | declares {r d} {notice : Notice} : r.validate = .ok d → Serves p (.registerDevice r) (.device d)
      (({ p with
          switches := (d.number? .switch).elim p.switches p.switches.touch
          devices := (p.devices.register d).2 } : Platform).notes [notice])

theorem serves_configureRule {r : RuleRequest} {rule : HardwareRule} (h : p.configureRule r = .ok (rule, q)) :
    p.Serves (.configureRule r) (.rule rule) q := by
  refine of_bind h fun rule hv h => ?_
  cases h
  exact .configures hv

theorem serves_removeRule {r : RuleRemovalRequest} (h : p.removeRule r = .ok q) :
    p.Serves (.removeRule r) .done q := by
  refine of_bind h fun key hv h => ?_
  cases h
  exact .removes hv

theorem serves_registerDevice {r : DeviceRequest} {d : Device} (h : p.registerDevice r = .ok (d, q)) :
    p.Serves (.registerDevice r) (.device d) q := by
  refine of_bind h fun d hv h => ?_
  cases h
  exact .declares hv

theorem serves_lightState {number : String} {state : LightState} (h : p.lightState number = .ok (state, q)) :
    p.Serves (.lightState number) (.light state) q := by
  refine of_bind h fun light hv h => ?_
  cases h
  exact .looks hv

theorem serves_startFades {call : Call} {targets : List Lighting} {ms : UInt32}
    (h : call.Starts targets ms) : p.Serves call .done (p.startFades targets ms) := by
  rw [startFades_eq]
  exact .fades h

theorem serves_fadeChannels {r : FadeRequest} (h : p.fadeChannels r = .ok q) :
    p.Serves (.fadeChannels r) .done q := by
  refine of_bind h fun fade hv h => ?_
  cases h
  exact serves_startFades (.channels hv)

theorem serves_fadeRgb {r : RgbFadeRequest} (h : p.fadeRgb r = .ok q) : p.Serves (.fadeRgb r) .done q := by
  refine of_bind h fun fade hv h => ?_
  cases h
  exact serves_startFades (.rgb hv)

theorem serves_fadeSingle {r : SingleFadeRequest} (h : p.fadeSingle r = .ok q) :
    p.Serves (.fadeSingle r) .done q := by
  refine of_bind h fun fade hv h => ?_
  cases h
  exact serves_startFades (.single hv)

/-- Whatever is answered at once, the coils and the stream stay as they are, and the switches but for those
that become known. -/
theorem Serves.eq {call : Call} {answer : Answer} (h : p.Serves call answer q) :
    ∃ switches rules devices lights notices, (∀ n, switches.slot n = p.switches.slot n) ∧
      q = ({ p with switches, rules, devices, lights } : Platform).notes notices := by
  have hsame : p = p.notes [] := (notes_nil p).symm
  cases h with
  | details | rules | device | devices => exact ⟨_, _, _, _, [], fun _ => rfl, hsame⟩
  | configures => exact ⟨_, _, _, _, _, fun n => SwitchRegistry.slot_touch .., rfl⟩
  | removes => exact ⟨_, _, _, _, _, fun _ => rfl, rfl⟩
  | fades => exact ⟨_, _, _, _, _, fun _ => rfl, rfl⟩
  | looks => exact ⟨_, _, _, _, [], fun _ => rfl, (notes_nil _).symm⟩
  | @declares r d =>
    refine ⟨_, _, _, _, _, fun n => ?_, rfl⟩
    cases d.number? .switch with
    | none => rfl
    | some s => exact SwitchRegistry.slot_touch p.switches s n

theorem noteSubscription_eq (p : Platform) (id : SubscriptionId) (stream : ChangeStream) :
    ∃ notices, p.noteSubscription id stream = ({ p with stream } : Platform).notes notices := by
  unfold noteSubscription
  dsimp only
  split
  · exact ⟨[.subscriptionClosed], rfl⟩
  · exact ⟨[], (notes_nil _).symm⟩

theorem recv_eq (p : Platform) (id : SubscriptionId) :
    ∃ notices, (p.recv id).2 = ({ p with stream := (p.stream.recv id).2 } : Platform).notes notices := by
  obtain ⟨notices, hnoted⟩ := p.noteSubscription_eq id (p.stream.recv id).2
  unfold recv
  dsimp only
  split
  · next missed _ =>
    refine ⟨notices ++ [.subscriberLagged missed], ?_⟩
    rw [hnoted]
    simp [notes, note, CoilPanel.note]
  · exact ⟨notices, hnoted⟩

end Platform

namespace Task

/-- What may become of a call on its way. -/
inductive Stems : Call → Task → Prop
  | start {call} : Stems call (.start call)
  | report {r t stage} : r.validate = .ok t → Stems (.report r) (.report t stage)
  | readSwitch {number s} : Check.number .switch number = .ok s →
      Stems (.switchState number) (.readSwitch s)
  | snapshot {found rest inLine} : Stems .switches (.snapshot found rest inLine)
  | pulse {r command stage} : Stems (.pulse r) (.coil (.pulse command) stage)
  | enable {r command stage} : Stems (.enable r) (.coil (.enable command) stage)
  | disable {r coil stage} : Stems (.disable r) (.coil (.disable coil) stage)
  | coilState {number coil stage} : Stems (.coilState number) (.coil (.read coil) stage)
  | disableCoils {r s} : Stems (.disableCoils r) (.sweep s)
  | reset {s} : Stems .reset (.sweep s)

/-- What the first step of a call comes to. -/
inductive Entered (me : TaskId) (p : Platform) : Call → Step → Prop
  | refused {call e} : call.lock? = none → Entered me p call (.finished (.error e), p)
  | served {call answer q} : p.Serves call answer q → Entered me p call (.finished (.ok answer), q)
  | commands {call job} : Stems call (.coil job .start) →
      Entered me p call (.next (.coil job .start), p)
  | sweeps {r} :
      Entered me p (.disableCoils r) (.next (.sweep ⟨none, p.disableTargets r, .start, [], none⟩), p)
  | resets : Entered me p .reset
      (.next (.sweep ⟨some p.lights.reset.1, p.disableTargets ⟨none⟩, .start, [], none⟩),
        { p with lights := p.lights.reset.2 })
  | surveys : Entered me p .switches (.next (.snapshot [] p.switches.known false), p)
  | reports {r t} : r.validate = .ok t →
      Entered me p (.report r) (lineUp p t.switch me (.report t .inLine))
  | reads {number s} : Check.number .switch number = .ok s →
      Entered me p (.switchState number) (lineUp p s me (.readSwitch s))

namespace Entered

variable {me : TaskId} {p : Platform} {call : Call} {α : Type}

theorem finishWith {answer : α → Answer} {r : Except PlatformError (α × Platform)} (hl : call.lock? = none)
    (h : ∀ {a q}, r = .ok (a, q) → p.Serves call (answer a) q) :
    Entered me p call (finishWith p answer r) := by
  match r with
  | .ok (a, q) => exact .served (h rfl)
  | .error e => exact .refused hl

theorem finishDone {r : Except PlatformError Platform} (hl : call.lock? = none)
    (h : ∀ {q}, r = .ok q → p.Serves call .done q) : Entered me p call (finishDone p r) := by
  cases r with
  | ok q => exact .served (h rfl)
  | error e => exact .refused hl

theorem proceed {r : Except PlatformError α} {job : α → CoilJob} (hl : call.lock? = none)
    (h : ∀ a, Stems call (.coil (job a) .start)) :
    Entered me p call (proceed p (r.map fun a => Task.coil (job a) .start)) := by
  cases r with
  | ok a => exact .commands (h a)
  | error e => exact .refused hl

theorem stems {task : Task} {q : Platform} (h : Entered me p call (.next task, q)) :
    Stems call task := by
  cases h with
  | commands h => exact h
  | sweeps => exact .disableCoils
  | resets => exact .reset
  | surveys => exact .snapshot
  | reports h => exact .report h
  | reads h => exact .readSwitch h

end Entered

theorem enter_entered (call : Call) (me : TaskId) (p : Platform) :
    Entered me p call (enter call me p) := by
  cases call with
  | details => exact .served .details
  | report r =>
      simp only [enter]
      split
      · next hv => exact .reports hv
      · next hv => exact .refused (by simp [Call.lock?, hv, Except.toOption])
  | switchState number =>
      simp only [enter]
      split
      · next hv => exact .reads hv
      · next hv => exact .refused (by simp [Call.lock?, hv, Except.toOption])
  | switches => exact .surveys
  | pulse r => exact .proceed rfl fun _ => .pulse
  | enable r => exact .proceed rfl fun _ => .enable
  | disable r => exact .proceed rfl fun _ => .disable
  | coilState number => exact .proceed rfl fun _ => .coilState
  | disableCoils r => exact .sweeps
  | reset => exact .resets
  | configureRule r => exact .finishWith rfl Platform.serves_configureRule
  | removeRule r => exact .finishDone rfl Platform.serves_removeRule
  | rules => exact .served .rules
  | fadeChannels r => exact .finishDone rfl Platform.serves_fadeChannels
  | fadeRgb r => exact .finishDone rfl Platform.serves_fadeRgb
  | fadeSingle r => exact .finishDone rfl Platform.serves_fadeSingle
  | lightState number => exact .finishWith rfl Platform.serves_lightState
  | registerDevice r =>
      simp only [enter]
      exact .finishWith rfl Platform.serves_registerDevice
  | device kind name =>
      simp only [enter, finish]
      cases hd : p.device kind name with
      | ok d => exact .served (.device hd)
      | error e => exact .refused rfl
  | devices q => exact .served .devices

section Next

variable {me : TaskId} {now : Nat} {p q : Platform} {task task' : Task}

theorem coil_of_next {job : CoilJob} {stage : CoilStage}
    (h : (Task.coil job stage).step me now p = (.next task', q)) :
    ∃ stage', task' = .coil job stage' := by
  rcases hs : coilStep job stage me now p with ⟨progress, p'⟩
  simp only [step, hs] at h
  cases progress with
  | blocked => cases h
  | next stage' =>
      cases h
      exact ⟨stage', rfl⟩
  | finished r => cases h

theorem sweep_of_next {s : Sweep} (h : (Task.sweep s).step me now p = (.next task', q)) :
    ∃ s', task' = .sweep s' := by
  simp only [step, stepSweep] at h
  split at h
  · unfold finishSweep at h
    split at h <;> cases h
  · split at h <;> cases h
    · exact ⟨_, rfl⟩
    · exact ⟨_, rfl⟩

theorem report_of_next {t : Transition} {stage : ReportStage}
    (h : (Task.report t stage).step me now p = (.next task', q)) :
    ∃ stage', task' = .report t stage' := by
  simp only [step, stepReport] at h
  split at h
  · split at h
    · unfold applyReport at h
      split at h
      · cases h
      · dsimp only at h
        split at h <;> cases h
        exact ⟨_, rfl⟩
    · cases h
  · cases h
  · split at h <;> cases h
    · exact ⟨_, rfl⟩
    · exact ⟨_, rfl⟩
    · exact ⟨_, rfl⟩

theorem snapshot_of_next {found : List Switch} {rest : List SwitchNumber} {inLine : Bool}
    (h : (Task.snapshot found rest inLine).step me now p = (.next task', q)) :
    ∃ found' rest' inLine', task' = .snapshot found' rest' inLine' := by
  match rest, inLine with
  | [], _ => cases h
  | n :: rest, false =>
      cases h
      exact ⟨_, _, _, rfl⟩
  | n :: rest, true =>
      simp only [step] at h
      split at h <;> cases h
      exact ⟨_, _, _, rfl⟩

theorem stems_step {call : Call} (h : Stems call task)
    (hs : task.step me now p = (.next task', q)) : Stems call task' := by
  cases h with
  | start =>
      have he := enter_entered call me p
      rw [show enter call me p = (.next task', q) from hs] at he
      exact he.stems
  | report hv =>
      obtain ⟨stage', rfl⟩ := report_of_next hs
      exact .report hv
  | readSwitch =>
      simp only [step, finish] at hs
      split at hs <;> cases hs
  | snapshot =>
      obtain ⟨found', rest', inLine', rfl⟩ := snapshot_of_next hs
      exact .snapshot
  | pulse =>
      obtain ⟨stage', rfl⟩ := coil_of_next hs
      exact .pulse
  | enable =>
      obtain ⟨stage', rfl⟩ := coil_of_next hs
      exact .enable
  | disable =>
      obtain ⟨stage', rfl⟩ := coil_of_next hs
      exact .disable
  | coilState =>
      obtain ⟨stage', rfl⟩ := coil_of_next hs
      exact .coilState
  | disableCoils =>
      obtain ⟨s', rfl⟩ := sweep_of_next hs
      exact .disableCoils
  | reset =>
      obtain ⟨s', rfl⟩ := sweep_of_next hs
      exact .reset

end Next
end Task
end Playfield
