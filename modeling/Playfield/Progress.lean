/-! How far a task comes in one step, and what the step has to do with waiting. -/
namespace Playfield

/-- The outcome of one step of a task: it has to wait, it goes on from a new stage, or it is done. -/
inductive Progress (τ ρ : Type) where
  | blocked
  | next (stage : τ)
  | finished (result : ρ)
deriving DecidableEq, Repr

/-- What the next step of a task has to do with waiting. -/
inductive Pause where
  | none
  /-- It goes to where the task may have to wait. -/
  | begins
  /-- It can only be taken once a wait, perhaps of no time, is over. -/
  | ends
deriving DecidableEq, Repr

/-- The same outcome, seen by a task of which this one is a part. -/
def Progress.map {τ τ' ρ ρ' : Type} (f : τ → τ') (g : ρ → ρ') : Progress τ ρ → Progress τ' ρ'
  | .blocked => .blocked
  | .next stage => .next (f stage)
  | .finished result => .finished (g result)

end Playfield
