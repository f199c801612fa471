import Playfield.Lock
import Playfield.Notice
import Playfield.Request

/-! The coil bank: the commanded state of every coil, each behind a lock of its own. A job on a coil
holds the lock from its first actuation to its last, so that two jobs on one coil never mix, while
jobs on different coils go on side by side. -/
namespace Playfield

/-- What happens to a command for a coil that is still executing an earlier one. -/
inductive CommandPolicy where
  | queue
  | reject
deriving DecidableEq, Repr

namespace CommandPolicy

def word : CommandPolicy → String
  | .queue => "queue"
  | .reject => "reject"

def all : List CommandPolicy := [.queue, .reject]

end CommandPolicy

structure CoilSlot where
  coil : Coil
  lock : Lock
deriving DecidableEq, Repr

structure CoilBank where
  policy : CommandPolicy
  slots : Std.ExtTreeMap CoilNumber CoilSlot
deriving DecidableEq

namespace CoilBank

def empty (policy : CommandPolicy) : CoilBank := ⟨policy, ∅⟩

/-- The slot of a coil; a coil that has none yet is disabled and free. -/
def slot (b : CoilBank) (coil : CoilNumber) : CoilSlot :=
  b.slots.getD coil ⟨.disabled coil, .free⟩

def coil (b : CoilBank) (number : CoilNumber) : Coil := (b.slot number).coil

def isHeldBy (b : CoilBank) (coil : CoilNumber) (task : TaskId) : Bool :=
  (b.slot coil).lock.holder = some task

def setSlot (b : CoilBank) (coil : CoilNumber) (slot : CoilSlot) : CoilBank :=
  { b with slots := b.slots.insert coil slot }

def setCoil (b : CoilBank) (coil : Coil) : CoilBank :=
  b.setSlot coil.number { b.slot coil.number with coil }

def touch (b : CoilBank) (coil : CoilNumber) : CoilBank := b.setSlot coil (b.slot coil)

def request (b : CoilBank) (coil : CoilNumber) (task : TaskId) : CoilBank :=
  b.setSlot coil { b.slot coil with lock := (b.slot coil).lock.request task }

def release (b : CoilBank) (coil : CoilNumber) : CoilBank :=
  b.setSlot coil { b.slot coil with lock := (b.slot coil).lock.release }

def leave (b : CoilBank) (coil : CoilNumber) (task : TaskId) : CoilBank :=
  b.setSlot coil { b.slot coil with lock := (b.slot coil).lock.leave task }

/-- Every coil that has been commanded or fired, in order. -/
def known (b : CoilBank) : List CoilNumber := b.slots.keys

end CoilBank

/-- A coil bank with the board that it drives and the journal of both. -/
structure CoilPanel where
  bank : CoilBank
  board : Board
  journal : Journal
deriving DecidableEq

namespace CoilPanel

def note (p : CoilPanel) (notice : Notice) : CoilPanel :=
  { p with journal := p.journal ++ [.noted notice] }

def send (p : CoilPanel) (cause : Cause) (a : Actuation) : Except PlatformError Unit × CoilPanel :=
  match p.board.drive a with
  | .ok board => (.ok (), { p with board, journal := p.journal ++ [.attempted cause a none] })
  | .error fault =>
    (.error (.unavailable fault.unavailable),
      { p with journal := p.journal ++ [.attempted cause a (some fault)] })

def release (p : CoilPanel) (coil : CoilNumber) : CoilPanel :=
  { p with bank := p.bank.release coil }

def setCoil (p : CoilPanel) (coil : Coil) : CoilPanel := { p with bank := p.bank.setCoil coil }

end CoilPanel
end Playfield
