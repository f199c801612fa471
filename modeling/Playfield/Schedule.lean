import Std.Data.ExtTreeMap
import Playfield.Lock
import Playfield.Progress

/-! Tasks that share a state. A world holds the state, the tasks at work on it and a time of its own,
which passes only while every task waits. Tasks that can go on take turns in the order in which they
became able to. A turn lasts until the task has to wait or is done, unless it becomes too long: then
the task goes on when no other is ready. A task in the foreground is the last of those that are ready. -/
namespace Playfield

/-- How tasks of the type `τ` work on a state of the type `σ`, towards a result of the type `ρ`. -/
structure Workings (σ τ ρ : Type) where
  step : TaskId → Nat → τ → σ → Progress τ ρ × σ
  abandon : TaskId → τ → σ → σ
  deadline? : τ → Option Nat
  pause : τ → σ → Pause
  /-- How many things a task may have to visit one by one. -/
  breadth : σ → Nat

structure World (σ τ ρ : Type) where
  state : σ
  now : Nat
  running : Std.ExtTreeMap TaskId τ
  results : Std.ExtTreeMap TaskId ρ
  /-- The task whose turn it is, and how many waits it may still end in this turn. -/
  active : Option (TaskId × Nat)
  /-- The tasks that are to have a turn, in this order. -/
  ready : List TaskId
  /-- The tasks whose turns became too long, the latest first. -/
  tired : List TaskId
  /-- The task that has a turn when no other is ready. -/
  foreground : Option TaskId
  nextId : TaskId

namespace World

variable {σ τ ρ : Type}

def ofState (state : σ) : World σ τ ρ := ⟨state, 0, ∅, ∅, none, [], [], none, 0⟩

/-- How many waits a task may end in one turn. -/
def longestTurn : Nat := 128

/-- Adds a task, which has its first turn after those that are ready now. -/
def spawn (w : World σ τ ρ) (task : τ) : TaskId × World σ τ ρ :=
  (w.nextId, { w with
    running := w.running.insert w.nextId task
    ready := w.ready ++ [w.nextId]
    nextId := w.nextId + 1 })

def spawnForeground (w : World σ τ ρ) (task : τ) : TaskId × World σ τ ρ :=
  (w.nextId, { w with
    running := w.running.insert w.nextId task
    foreground := some w.nextId
    nextId := w.nextId + 1 })

/-- Whether a task has its turn now, or will have one anyway. -/
def hasTurn (w : World σ τ ρ) (id : TaskId) : Bool :=
  w.active.any (·.1 == id) || w.ready.contains id || w.tired.contains id || w.foreground == some id

def isDone (w : World σ τ ρ) (id : TaskId) : Bool := w.results.contains id

variable (k : Workings σ τ ρ)

/-- One step of a task. Nothing happens if it has to wait or does not exist. -/
def step (w : World σ τ ρ) (id : TaskId) : World σ τ ρ :=
  match w.running[id]? with
  | none => w
  | some task =>
    match k.step id w.now task w.state with
    | (.blocked, _) => w
    | (.next stage, state) => { w with state, running := w.running.insert id stage }
    | (.finished result, state) =>
      { w with state, running := w.running.erase id, results := w.results.insert id result }

def abandon (w : World σ τ ρ) (id : TaskId) : World σ τ ρ :=
  match w.running[id]? with
  | none => w
  | some task =>
    { w with
      state := k.abandon id task w.state
      running := w.running.erase id
      active := w.active.filter (·.1 != id)
      ready := w.ready.erase id
      tired := w.tired.erase id
      foreground := w.foreground.filter (· != id) }

def canStep (w : World σ τ ρ) (id : TaskId) : Bool :=
  match w.running[id]? with
  | none => false
  | some task =>
    match k.step id w.now task w.state with
    | (.blocked, _) => false
    | _ => true

def pause (w : World σ τ ρ) (id : TaskId) : Pause := (w.running[id]?).elim .none (k.pause · w.state)

/-- Puts the tasks that have become able to go on behind the others. -/
def wake (w : World σ τ ρ) : World σ τ ρ :=
  { w with ready := w.ready ++ w.running.keys.filter fun id => w.canStep k id && !w.hasTurn id }

def activate (w : World σ τ ρ) (id : TaskId) : World σ τ ρ := { w with active := some (id, longestTurn) }

def tire (w : World σ τ ρ) (id : TaskId) : World σ τ ρ :=
  if w.foreground = some id then { w with active := none }
  else { w with active := none, tired := id :: w.tired }

/-- One step within the turn of the task `id`, which may still end `left` waits; or the end of its turn. -/
def goOn (w : World σ τ ρ) (id : TaskId) (left : Nat) : World σ τ ρ :=
  if w.canStep k id then
    match w.pause k id, left with
    | .begins, 0 => w.tire id
    | .ends, left + 1 => { w.step k id with active := some (id, left) }.wake k
    | _, _ => (w.step k id).wake k
  else { w with active := none }

/-- What comes next, if anything does. Once no task is ready, those that were tired are, but the one in
the foreground comes before them. -/
def advance? (w : World σ τ ρ) : Option (World σ τ ρ) :=
  match w.active, w.ready with
  | some (id, left), _ => some (w.goOn k id left)
  | none, id :: others => some ({ w with ready := others }.activate id)
  | none, [] =>
    let rested := { w with ready := w.tired, tired := [] }
    match w.foreground.filter (w.canStep k) with
    | some id => some (rested.activate id)
    | none => if w.tired.isEmpty then none else some rested

/-- So many steps, and beginnings and ends of turns, bring every task to a wait. -/
def patience (w : World σ τ ρ) : Nat :=
  4 * (w.running.size + 1) * (8 * (k.breadth w.state + w.running.size) + 16)

def turns : Nat → World σ τ ρ → World σ τ ρ
  | 0, w => w
  | fuel + 1, w =>
    match w.advance? k with
    | some w => turns fuel w
    | none => w

/-- Lets all tasks go as far as they can while no time passes. -/
def settle (w : World σ τ ρ) : World σ τ ρ :=
  let w := w.wake k
  turns k (w.patience k) w

def nextDeadline? (w : World σ τ ρ) : Option Nat := (w.running.values.filterMap k.deadline?).min?

def passTo (w : World σ τ ρ) (moment : Nat) : World σ τ ρ := { w with now := max w.now moment }.settle k

/-- Lets time pass from one deadline to the next, up to the moment `limit`. Every deadline ends the
only timed wait of a task, so `fuel` need not exceed the number of tasks. -/
def passDeadlines (limit : Nat) : Nat → World σ τ ρ → World σ τ ρ
  | 0, w => w
  | fuel + 1, w =>
    match w.nextDeadline? k with
    | some deadline => if deadline ≤ limit then passDeadlines limit fuel (w.passTo k deadline) else w
    | none => w

def wait (w : World σ τ ρ) (ms : Nat) : World σ τ ρ :=
  let w := w.settle k
  (passDeadlines k (w.now + ms) (w.running.size + 1) w).passTo k (w.now + ms)

def passUntilDone (id : TaskId) : Nat → World σ τ ρ → World σ τ ρ
  | 0, w => w
  | fuel + 1, w =>
    if w.isDone id then w
    else
      match w.nextDeadline? k with
      | some deadline => passUntilDone id fuel (w.passTo k deadline)
      | none => w

/-- Lets only as much time pass as a task needs to be done. -/
def finish (w : World σ τ ρ) (id : TaskId) : World σ τ ρ :=
  let w := w.settle k
  passUntilDone k id (w.running.size + 1) w

def perform (w : World σ τ ρ) (task : τ) : Option ρ × World σ τ ρ :=
  let (id, w) := w.spawnForeground task
  let w := w.finish k id
  (w.results[id]?, { w with foreground := none })

end World
end Playfield
