import Playfield.Platform.Task
import Playfield.Schedule

/-! Platforms at work: calls that go on side by side, and calls that have the platform to themselves. -/
namespace Playfield

/-- How many rules, coils, switches and devices a platform knows. -/
def Platform.breadth (p : Platform) : Nat :=
  p.rules.size + p.panel.bank.slots.size + p.switches.slots.size + p.devices.size

namespace Task

def workings : Workings Platform Task Outcome where
  step := step
  abandon := abandon
  deadline? := deadline?
  pause := pause
  breadth := Platform.breadth

end Task

/-- Makes a call while nothing else goes on, and waits for its outcome. -/
def Platform.perform (p : Platform) (call : Call) : Option Outcome × Platform :=
  let (outcome, w) := (World.ofState p).perform Task.workings (.start call)
  (outcome, w.state)

end Playfield
