/-! A lock that is handed on in the order of arrival. -/
namespace Playfield

abbrev TaskId := Nat

/-- A lock with its holder and those in line behind it, first come first. -/
structure Lock where
  holder : Option TaskId
  line : List TaskId
deriving DecidableEq, Repr

namespace Lock

def free : Lock := ⟨none, []⟩

/-- Whether somebody holds the lock, or has been handed it. -/
def isHeld (l : Lock) : Bool := l.holder.isSome

/-- Takes the lock if it is free, and otherwise goes to the end of the line. -/
def request (l : Lock) (task : TaskId) : Lock :=
  match l.holder with
  | none => { l with holder := some task }
  | some _ => { l with line := l.line ++ [task] }

/-- Hands the lock to the first in line. -/
def release (l : Lock) : Lock := ⟨l.line.head?, l.line.tail⟩

/-- Takes a task out, wherever it is: a holder hands the lock on. -/
def leave (l : Lock) (task : TaskId) : Lock :=
  if l.holder = some task then l.release else { l with line := l.line.erase task }

end Lock
end Playfield
