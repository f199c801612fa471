import Playfield.Coil.Job
import Playfield.Platform.Call

/-! Calls in progress. A task is a call and the stage that it has reached; one step of a task takes it
to the next place where others may come in between. -/
namespace Playfield

inductive ReportStage where
  | inLine
  /-- Holds the lock. The rules are still to be fired, and the first of them is under way; once none
  is left, the change is published. -/
  | firing (rules : List HardwareRule) (stage : CoilStage)
deriving DecidableEq, Repr

structure Sweep where
  /-- For a reset: how many lights it has switched off. -/
  lights : Option Nat
  /-- The coils still to be disabled, of which the first is under way. -/
  targets : List CoilNumber
  stage : CoilStage
  disabled : List Coil
  failure : Option PlatformError
deriving DecidableEq, Repr

inductive Task where
  | start (call : Call)
  | coil (job : CoilJob) (stage : CoilStage)
  | sweep (sweep : Sweep)
  | report (transition : Transition) (stage : ReportStage)
  | readSwitch (switch : SwitchNumber)
  /-- Reads all switches in order. It has asked for the lock of the first of the rest if `inLine`. -/
  | snapshot (found : List Switch) (rest : List SwitchNumber) (inLine : Bool)

namespace Task

abbrev Step := Progress Task Outcome × Platform

def finish (p : Platform) (outcome : Outcome) : Step := (.finished outcome, p)

def finishWith {α : Type} (p : Platform) (answer : α → Answer) :
    Except PlatformError (α × Platform) → Step
  | .ok (a, p) => finish p (.ok (answer a))
  | .error e => finish p (.error e)

def finishDone (p : Platform) : Except PlatformError Platform → Step
  | .ok p => finish p (.ok .done)
  | .error e => finish p (.error e)

def proceed (p : Platform) : Except PlatformError Task → Step
  | .ok task => (.next task, p)
  | .error e => finish p (.error e)

def lineUp (p : Platform) (switch : SwitchNumber) (me : TaskId) (task : Task) : Step :=
  (.next task, { p with switches := p.switches.request switch me })

def release (p : Platform) (switch : SwitchNumber) : Platform :=
  { p with switches := p.switches.release switch }

/-- The first step of a call: its request is checked, and what needs no lock is done at once. -/
def enter (call : Call) (me : TaskId) (p : Platform) : Step :=
  match call with
  | .details => finish p (.ok (.details p.details))
  | .report r =>
    match r.validate with
    | .ok t => lineUp p t.switch me (.report t .inLine)
    | .error e => finish p (.error e)
  | .switchState number =>
    match Check.number .switch number with
    | .ok switch => lineUp p switch me (.readSwitch switch)
    | .error e => finish p (.error e)
  | .switches => (.next (.snapshot [] p.switches.known false), p)
  | .pulse r => proceed p (r.validate.map fun c => .coil (.pulse c) .start)
  | .enable r => proceed p (r.validate.map fun c => .coil (.enable c) .start)
  | .disable r => proceed p (r.validate.map fun c => .coil (.disable c) .start)
  | .coilState number => proceed p ((Check.number .coil number).map fun c => .coil (.read c) .start)
  | .disableCoils r => (.next (.sweep ⟨none, p.disableTargets r, .start, [], none⟩), p)
  | .reset =>
    let (count, lights) := p.lights.reset
    let p := { p with lights }
    (.next (.sweep ⟨some count, p.disableTargets ⟨none⟩, .start, [], none⟩), p)
  | .configureRule r => finishWith p .rule (p.configureRule r)
  | .removeRule r => finishDone p (p.removeRule r)
  | .rules => finish p (.ok (.rules p.rules.toList))
  | .fadeChannels r => finishDone p (p.fadeChannels r)
  | .fadeRgb r => finishDone p (p.fadeRgb r)
  | .fadeSingle r => finishDone p (p.fadeSingle r)
  | .lightState number => finishWith p .light (p.lightState number)
  | .registerDevice r => finishWith p .device (p.registerDevice r)
  | .device kind name => finish p ((p.device kind name).map .device)
  | .devices q => finish p (.ok (.devices (p.devices.query q)))

def coilStep (job : CoilJob) (stage : CoilStage) (me : TaskId) (now : Nat) (p : Platform) :
    Progress CoilStage CoilJob.Result × Platform :=
  let (progress, panel) := job.step me now stage p.panel
  (progress, { p with panel })

/-- Ends a bulk disable: with the first failure, or with the coils. A reset says what it did. -/
def finishSweep (s : Sweep) (p : Platform) : Step :=
  match s.failure, s.lights with
  | some e, _ => finish p (.error e)
  | none, none => finish p (.ok (.coils s.disabled))
  | none, some lights => finish (p.note (.platformReset lights s.disabled.length)) (.ok .done)

/-- A bulk disable after its first target: the rest follows, even after a failure. -/
def advance (s : Sweep) (rest : List CoilNumber) : CoilJob.Result → Sweep
  | .ok state => { s with targets := rest, stage := .start, disabled := s.disabled ++ [state] }
  | .error e => { s with targets := rest, stage := .start, failure := s.failure.or (some e) }

def stepSweep (s : Sweep) (me : TaskId) (now : Nat) (p : Platform) : Step :=
  match s.targets with
  | [] => finishSweep s p
  | target :: rest =>
    match coilStep (.disable target) s.stage me now p with
    | (.blocked, p) => (.blocked, p)
    | (.next stage, p) => (.next (.sweep { s with stage }), p)
    | (.finished result, p) =>
      let p :=
        match result with
        | .ok _ => p
        | .error e => p.note (.coilNotDisabled target e)
      (.next (.sweep (advance s rest result)), p)

def publishReport (t : Transition) (p : Platform) : Step :=
  let (event, stream) := p.stream.publish t.switch t.isActive t.timestamp
  let panel := { p.panel with journal := p.panel.journal ++ [.published event] }
  finish (release { p with stream, panel } t.switch) (.ok (.changed true))

def fireRules (t : Transition) (rules : List HardwareRule) (p : Platform) : Step :=
  (.next (.report t (.firing rules .start)), p)

/-- Applies a report to its switch. A change goes on with the rules that are configured now. -/
def applyReport (t : Transition) (p : Platform) : Step :=
  match (p.switches.switch t.switch).report t.isActive t.timestamp with
  | .error stale => finish (release (p.note (.reportDropped stale)) t.switch) (.error (.stale stale))
  | .ok (changed, switch) =>
    let p := { p with switches := p.switches.setSwitch switch }
    if changed then fireRules t (p.rules.evaluate t.switch t.isActive) p
    else finish (release (p.note (.stateRepeated t.switch)) t.switch) (.ok (.changed false))

def stepReport (t : Transition) (stage : ReportStage) (me : TaskId) (now : Nat) (p : Platform) :
    Step :=
  match stage with
  | .inLine => if p.switches.isHeldBy t.switch me then applyReport t p else (.blocked, p)
  | .firing [] _ => publishReport t p
  | .firing (rule :: others) stage =>
    match coilStep (.fire rule) stage me now p with
    | (.blocked, p) => (.blocked, p)
    | (.next stage, p) => (.next (.report t (.firing (rule :: others) stage)), p)
    | (.finished (.ok _), p) => fireRules t others p
    | (.finished (.error e), p) => fireRules t others (p.note (.ruleNotFired rule.key e))

def step (me : TaskId) (now : Nat) (task : Task) (p : Platform) : Step :=
  match task with
  | .start call => enter call me p
  | .coil job stage =>
    let (progress, p) := coilStep job stage me now p
    (progress.map (.coil job) (·.map .coil), p)
  | .sweep s => stepSweep s me now p
  | .report t stage => stepReport t stage me now p
  | .readSwitch switch =>
    if p.switches.isHeldBy switch me then
      finish (release p switch) (.ok (.switch (p.switches.switch switch)))
    else (.blocked, p)
  | .snapshot found [] _ => finish p (.ok (.switches found))
  | .snapshot found (switch :: rest) false =>
    lineUp p switch me (.snapshot found (switch :: rest) true)
  | .snapshot found (switch :: rest) true =>
    if p.switches.isHeldBy switch me then
      (.next (.snapshot (found ++ [p.switches.switch switch]) rest false), release p switch)
    else (.blocked, p)

def pause (task : Task) (p : Platform) : Pause :=
  match task with
  | .start (.report _) | .start (.switchState _) | .snapshot _ (_ :: _) false => .begins
  | .report _ .inLine | .readSwitch _ | .snapshot _ (_ :: _) true => .ends
  | .coil job stage => job.pause stage p.panel
  | .sweep s => s.targets.head?.elim .none fun target => (CoilJob.disable target).pause s.stage p.panel
  | .report _ (.firing rules stage) =>
    rules.head?.elim .none fun rule => (CoilJob.fire rule).pause stage p.panel
  | .start _ | .snapshot _ [] _ => .none

/-- What is left of a task that is given up: its places at locks are free. -/
def abandon (me : TaskId) (task : Task) (p : Platform) : Platform :=
  let coil (job : CoilJob) (stage : CoilStage) (p : Platform) : Platform :=
    { p with panel := job.abandon me stage p.panel }
  let switch (number : SwitchNumber) (p : Platform) : Platform :=
    { p with switches := p.switches.leave number me }
  match task with
  | .start _ => p
  | .coil job stage => coil job stage p
  | .sweep s =>
    match s.targets with
    | [] => p
    | target :: _ => coil (.disable target) s.stage p
  | .report t .inLine => switch t.switch p
  | .report t (.firing [] _) => switch t.switch p
  | .report t (.firing (rule :: _) stage) => switch t.switch (coil (.fire rule) stage p)
  | .readSwitch number => switch number p
  | .snapshot _ (number :: _) true => switch number p
  | .snapshot _ _ _ => p

def deadline? : Task → Option Nat
  | .coil _ stage => stage.deadline?
  | .sweep s => s.stage.deadline?
  | .report _ (.firing _ stage) => stage.deadline?
  | _ => none

end Task
end Playfield
