import Playfield.Coil.Bank
import Playfield.Progress

/-! Jobs on a coil. Every job asks for the lock of its coil, waits its turn, and then acts. Only the
pulse of an enabled coil takes longer: once the pulse has had its time, the coil is disabled. -/
namespace Playfield

inductive CoilJob where
  | pulse (command : Pulse)
  | enable (command : Enable)
  | disable (coil : CoilNumber)
  /-- Fires a hardware rule; the commanded state stays as it is. -/
  | fire (rule : HardwareRule)
  | read (coil : CoilNumber)
deriving DecidableEq, Repr

inductive CoilStage where
  | start
  | inLine
  /-- Holds the lock until the pulse of an enabled coil is over. -/
  | cooling (deadline : Nat)
deriving DecidableEq, Repr

namespace CoilJob

def coil : CoilJob → CoilNumber
  | .pulse command => command.coil
  | .enable command => command.coil
  | .disable coil => coil
  | .fire rule => rule.coil
  | .read coil => coil

/-- The result of a job: the commanded state of its coil. -/
abbrev Result := Except PlatformError Coil

def finish (p : CoilPanel) (coil : CoilNumber) (result : Result) :
    Progress CoilStage Result × CoilPanel :=
  (.finished result, p.release coil)

/-- What a job does once it holds the lock of its coil. A failed actuation leaves the commanded state
as it was. -/
def act (job : CoilJob) (now : Nat) (p : CoilPanel) : Progress CoilStage Result × CoilPanel :=
  let coil := p.bank.coil job.coil
  match job with
  | .read number => finish p number (.ok coil)
  | .pulse c =>
    match p.send .command (.pulse c.coil c.pulseMs c.pulsePower) with
    | (.error e, p) => finish p c.coil (.error e)
    | (.ok (), p) =>
      let pulsed := coil.recordPulse c.pulseMs c.pulsePower
      let p := p.setCoil pulsed
      if coil.enabled then (.next (.cooling (now + c.pulseMs.toNat)), p)
      else finish p c.coil (.ok pulsed)
  | .enable c =>
    let a := Actuation.enable c.coil c.pulseMs c.pulsePower c.holdPower
    let p := if a.holds && !p.board.config.holdPower then p.note (.holdUnsupported c.coil) else p
    match p.send .command a with
    | (.error e, p) => finish p c.coil (.error e)
    | (.ok (), p) =>
      let enabled := coil.recordEnable c.pulseMs c.pulsePower c.holdPower
      finish (p.setCoil enabled) c.coil (.ok enabled)
  | .disable number =>
    if !coil.enabled then finish p number (.ok coil)
    else
      match p.send .command (.disable number) with
      | (.error e, p) => finish p number (.error e)
      | (.ok (), p) => finish (p.setCoil coil.recordDisable) number (.ok coil.recordDisable)
  | .fire rule =>
    match p.send (.rule rule.key) rule.actuation with
    | (.error e, p) => finish p rule.coil (.error e)
    | (.ok (), p) => finish p rule.coil (.ok coil)

/-- Disables a coil after its pulse. The pulse stays recorded even if this fails. -/
def coolDown (number : CoilNumber) (p : CoilPanel) : Progress CoilStage Result × CoilPanel :=
  match p.send .command (.disable number) with
  | (.error e, p) => finish (p.note (.coilNotDisabledAfterPulse number e)) number (.error e)
  | (.ok (), p) =>
    finish (p.note (.coilDisabledAfterPulse number)) number (.ok (p.bank.coil number))

/-- Asks for the lock. A coil that has never been commanded can be read without a lock, and it gets
no slot by that. Where commands are not queued, a command for a coil whose lock is held is refused;
rules and readers always wait. -/
def enter (job : CoilJob) (me : TaskId) (p : CoilPanel) : Progress CoilStage Result × CoilPanel :=
  let number := job.coil
  let line : Progress CoilStage Result × CoilPanel :=
    (.next .inLine, { p with bank := p.bank.request number me })
  match job with
  | .read _ => if number ∈ p.bank.slots then line else (.finished (.ok (.disabled number)), p)
  | .fire _ => line
  | .pulse _ | .enable _ | .disable _ =>
    if p.bank.policy = .reject ∧ (p.bank.slot number).lock.isHeld then
      (.finished (.error (.busy number)), p.note (.commandRejected number))
    else line

def step (job : CoilJob) (me : TaskId) (now : Nat) (stage : CoilStage) (p : CoilPanel) :
    Progress CoilStage Result × CoilPanel :=
  match stage with
  | .start => job.enter me p
  | .inLine => if p.bank.isHeldBy job.coil me then job.act now p else (.blocked, p)
  | .cooling deadline => if deadline ≤ now then coolDown job.coil p else (.blocked, p)

/-- Whether a job may have to wait for the lock of its coil: one that is refused instead need not, nor
one that reads a coil without a slot. -/
def waits (job : CoilJob) (p : CoilPanel) : Bool :=
  match job with
  | .read coil => coil ∈ p.bank.slots
  | .fire _ => true
  | .pulse _ | .enable _ | .disable _ => p.bank.policy = .queue

def pause (job : CoilJob) (stage : CoilStage) (p : CoilPanel) : Pause :=
  match stage with
  | .start => if job.waits p then .begins else .none
  | .inLine => if job.waits p then .ends else .none
  | .cooling _ => .ends

/-- What is left of a job that is given up: its place at the lock is free. -/
def abandon (job : CoilJob) (me : TaskId) (stage : CoilStage) (p : CoilPanel) : CoilPanel :=
  match stage with
  | .start => p
  | .inLine | .cooling _ => { p with bank := p.bank.leave job.coil me }

end CoilJob

def CoilStage.deadline? : CoilStage → Option Nat
  | .cooling deadline => some deadline
  | .start | .inLine => none

end Playfield
