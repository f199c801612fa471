import Playfield.Http.Exchange

/-! A bench for trying a platform out. Beside the platform, which is called directly and over HTTP, it
has a spare coil bank that drives the same board. -/
namespace Playfield

structure Bench where
  platform : Platform
  spare : CoilBank

namespace Bench

/-- A bench at rest; both banks follow one policy. -/
def ofPlatform (p : Platform) : Bench := ⟨p, .empty p.panel.bank.policy⟩

/-- The spare bank with the board and the journal that it shares. -/
def sparePanel (b : Bench) : CoilPanel := ⟨b.spare, b.platform.panel.board, b.platform.panel.journal⟩

/-- Puts the spare bank back in place, and the board and the journal with it. -/
def withSparePanel (b : Bench) (p : CoilPanel) : Bench where
  platform := { b.platform with panel := { p with bank := b.platform.panel.bank } }
  spare := p.bank

inductive Work where
  | call (task : Task)
  | exchange (exchange : Http.Exchange)
  /-- A job on the spare bank. -/
  | job (job : CoilJob) (stage : CoilStage)

inductive Result where
  | outcome (outcome : Outcome)
  | response (response : Http.Response)
  | coil (result : CoilJob.Result)

namespace Work

def step (me : TaskId) (now : Nat) (work : Work) (b : Bench) : Progress Work Result × Bench :=
  match work with
  | .call task =>
    let (progress, platform) := task.step me now b.platform
    (progress.map .call .outcome, { b with platform })
  | .exchange x =>
    let (progress, platform) := x.step me now b.platform
    (progress.map .exchange .response, { b with platform })
  | .job j stage =>
    let (progress, panel) := j.step me now stage b.sparePanel
    (progress.map (.job j) .coil, b.withSparePanel panel)

def abandon (me : TaskId) (work : Work) (b : Bench) : Bench :=
  match work with
  | .call task => { b with platform := task.abandon me b.platform }
  | .exchange x => { b with platform := x.abandon me b.platform }
  | .job j stage => b.withSparePanel (j.abandon me stage b.sparePanel)

def deadline? : Work → Option Nat
  | .call task => task.deadline?
  | .exchange x => x.deadline?
  | .job _ stage => stage.deadline?

def pause (work : Work) (b : Bench) : Pause :=
  match work with
  | .call task => task.pause b.platform
  | .exchange x => x.pause b.platform
  | .job j stage => j.pause stage b.sparePanel

def workings : Workings Bench Work Result where
  step := step
  abandon := abandon
  deadline? := deadline?
  pause := pause
  breadth b := b.platform.breadth + b.spare.slots.size

end Work
end Bench
end Playfield
