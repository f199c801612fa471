import Mathlib.Data.List.Induction
import Mathlib.Logic.Function.Basic
import Playfield.Proofs.Map
import Playfield.Schedule

/-! Runs of a world. Calls come in, tasks take steps in any order or are given up, time passes, and the
surroundings change the state; a run is any list of such events. What every run keeps is derived from
what one event keeps. -/
namespace Playfield

namespace Progress

variable {τ ρ : Type}

theorem next_ne_blocked {stage : τ} : (.next stage : Progress τ ρ) ≠ .blocked := nofun

theorem finished_ne_blocked {result : ρ} : (.finished result : Progress τ ρ) ≠ .blocked := nofun

/-- The result that a step has come to, if it has. -/
def result? : Progress τ ρ → Option ρ
  | .finished result => some result
  | .next _ | .blocked => none

end Progress

/-- What goes on in a world: how tasks work, as what a call begins, and what an event from outside does. -/
structure Scene (σ τ ρ ι ε : Type) where
  workings : Workings σ τ ρ
  enter : ι → τ
  outside : ε → σ → σ

inductive Event (ι ε : Type) where
  | call (call : ι)
  | step (id : TaskId)
  | abandon (id : TaskId)
  | pass (ms : Nat)
  | outside (event : ε)
deriving DecidableEq, Repr

def Event.call? {ι ε : Type} : Event ι ε → Option ι
  | .call c => some c
  | _ => none

/-- Whether an event is only that what goes on goes on. -/
def Event.goesOn {ι ε : Type} : Event ι ε → Bool
  | .step _ | .pass _ => true
  | .call _ | .abandon _ | .outside _ => false

/-- The calls of a run in their order. A call has its place as its identity. -/
def calls {ι ε : Type} (events : List (Event ι ε)) : List ι := events.filterMap Event.call?

namespace World

variable {σ τ ρ : Type} {k : Workings σ τ ρ} {w : World σ τ ρ} {id : TaskId} {task : τ}

theorem step_of_none (h : w.running[id]? = none) : w.step k id = w := by
  simp [step, h]

theorem step_of_blocked {s : σ} (h : w.running[id]? = some task)
    (hs : k.step id w.now task w.state = (.blocked, s)) : w.step k id = w := by
  simp [step, h, hs]

theorem step_of_next {stage : τ} {s : σ} (h : w.running[id]? = some task)
    (hs : k.step id w.now task w.state = (.next stage, s)) :
    w.step k id = { w with state := s, running := w.running.insert id stage } := by
  simp [step, h, hs]

theorem step_of_finished {result : ρ} {s : σ} (h : w.running[id]? = some task)
    (hs : k.step id w.now task w.state = (.finished result, s)) :
    w.step k id =
      { w with state := s, running := w.running.erase id, results := w.results.insert id result } := by
  simp [step, h, hs]

/-- A step does nothing, takes the task on to its next stage, or ends it with a result. -/
theorem step_cases (k : Workings σ τ ρ) (w : World σ τ ρ) (id : TaskId) :
    w.step k id = w ∨
    (∃ task stage s, w.running[id]? = some task ∧
      k.step id w.now task w.state = (.next stage, s) ∧
      w.step k id = { w with state := s, running := w.running.insert id stage }) ∨
    ∃ task result s, w.running[id]? = some task ∧
      k.step id w.now task w.state = (.finished result, s) ∧
      w.step k id =
        { w with state := s, running := w.running.erase id, results := w.results.insert id result } := by
  cases hr : w.running[id]? with
  | none => exact .inl (step_of_none hr)
  | some task =>
      rcases hs : k.step id w.now task w.state with ⟨progress, s⟩
      cases progress with
      | blocked => exact .inl (step_of_blocked hr hs)
      | next stage => exact .inr (.inl ⟨task, stage, s, rfl, hs, step_of_next hr hs⟩)
      | finished result => exact .inr (.inr ⟨task, result, s, rfl, hs, step_of_finished hr hs⟩)

theorem state_step_iff {P : σ → Prop} {q : Prop} (h : w.running[id]? = some task)
    (hstep : P (k.step id w.now task w.state).2 ↔ P w.state ∨ q)
    (hb : q → (k.step id w.now task w.state).1 ≠ .blocked) : P (w.step k id).state ↔ P w.state ∨ q := by
  rcases hs : k.step id w.now task w.state with ⟨progress, s⟩
  rw [hs] at hstep hb
  cases progress with
  | blocked => rw [step_of_blocked h hs, or_iff_left fun hq => hb hq rfl]
  | next stage =>
      rw [step_of_next h hs]
      exact hstep
  | finished result =>
      rw [step_of_finished h hs]
      exact hstep

/-- A step leaves the state alone, or does to it what the task does. -/
theorem state_step (k : Workings σ τ ρ) (w : World σ τ ρ) (id : TaskId) :
    (w.step k id).state = w.state ∨ ∃ task, w.running[id]? = some task ∧
      (w.step k id).state = (k.step id w.now task w.state).2 := by
  obtain hw | ⟨task, stage, s, hr, hs, hw⟩ | ⟨task, result, s, hr, hs, hw⟩ := step_cases k w id
  · exact .inl (by rw [hw])
  · exact .inr ⟨task, hr, by rw [hs, hw]⟩
  · exact .inr ⟨task, hr, by rw [hs, hw]⟩

/-- Giving a task up does nothing, or takes it out of the world. -/
theorem abandon_cases (k : Workings σ τ ρ) (w : World σ τ ρ) (id : TaskId) :
    w.running[id]? = none ∧ w.abandon k id = w ∨
    ∃ task, w.running[id]? = some task ∧ w.abandon k id =
      { w with
        state := k.abandon id task w.state
        running := w.running.erase id
        active := w.active.filter (·.1 != id)
        ready := w.ready.erase id
        tired := w.tired.erase id
        foreground := w.foreground.filter (· != id) } := by
  cases hr : w.running[id]? with
  | none => exact .inl ⟨rfl, by simp [abandon, hr]⟩
  | some task => exact .inr ⟨task, rfl, by simp [abandon, hr]⟩

theorem step_frame {i : TaskId} (h : i ≠ id) :
    (w.step k id).running[i]? = w.running[i]? ∧ (w.step k id).results[i]? = w.results[i]? := by
  obtain hw | ⟨task, stage, s, hr, hs, hw⟩ | ⟨task, result, s, hr, hs, hw⟩ := step_cases k w id
  · simp [hw]
  · simp [hw, Map.getElem?_insert, Ne.symm h]
  · simp [hw, Map.getElem?_insert, Map.getElem?_erase, Ne.symm h]

/-- All tasks at once, when one has come in or gone on. -/
theorem running_insert {α : Type} (m : Std.ExtTreeMap TaskId α) (i : TaskId) (a : α) :
    (fun t => (m.insert i a)[t]?) = Function.update (fun t => m[t]?) i (some a) := by
  funext t
  rw [Map.getElem?_insert]
  by_cases h : i = t
  · rw [if_pos h, h, Function.update_self]
  · rw [if_neg h, Function.update_of_ne (Ne.symm h)]

theorem running_erase {α : Type} (m : Std.ExtTreeMap TaskId α) (i : TaskId) :
    (fun t => (m.erase i)[t]?) = Function.update (fun t => m[t]?) i none := by
  funext t
  rw [Map.getElem?_erase]
  by_cases h : i = t
  · rw [if_pos h, h, Function.update_self]
  · rw [if_neg h, Function.update_of_ne (Ne.symm h)]

theorem mem_of_running (hr : w.running[id]? = some task) : id ∈ w.running :=
  Std.ExtTreeMap.mem_iff_isSome_getElem?.mpr (by simp [hr])

/-- Identities are given out once: nothing has the next one, and no task with a result goes on. -/
structure Sound (w : World σ τ ρ) : Prop where
  running_lt : ∀ id, id ∈ w.running → id < w.nextId
  results_lt : ∀ id, id ∈ w.results → id < w.nextId
  apart : ∀ id, id ∈ w.running → id ∉ w.results

theorem sound_ofState (state : σ) : (ofState state : World σ τ ρ).Sound where
  running_lt := by intro id h; simp [ofState] at h
  results_lt := by intro id h; simp [ofState] at h
  apart := by intro id h; simp [ofState] at h

theorem Sound.running_next (h : w.Sound) : w.running[w.nextId]? = none := by
  apply Std.ExtTreeMap.getElem?_eq_none
  intro hm
  exact Nat.lt_irrefl _ (h.running_lt _ hm)

theorem Sound.results_next (h : w.Sound) : w.results[w.nextId]? = none := by
  apply Std.ExtTreeMap.getElem?_eq_none
  intro hm
  exact Nat.lt_irrefl _ (h.results_lt _ hm)

theorem Sound.result_of_running (h : w.Sound) (hr : w.running[id]? = some task) :
    w.results[id]? = none :=
  Std.ExtTreeMap.getElem?_eq_none (h.apart id (mem_of_running hr))

/-- What is there after a step as the result of its task is what the step has come to. -/
theorem Sound.result_step (h : w.Sound) (hr : w.running[id]? = some task) :
    (w.step k id).results[id]? = (k.step id w.now task w.state).1.result? := by
  have hnone := h.result_of_running hr
  rcases hs : k.step id w.now task w.state with ⟨progress, s⟩
  cases progress with
  | blocked => rw [step_of_blocked hr hs, hnone, Progress.result?]
  | next stage => rw [step_of_next hr hs, hnone, Progress.result?]
  | finished result => rw [step_of_finished hr hs, Map.getElem?_insert, if_pos rfl, Progress.result?]

theorem Sound.spawn (h : w.Sound) (task : τ) : (w.spawn task).2.Sound where
  running_lt := by
    intro id hi
    simp only [World.spawn, Std.ExtTreeMap.mem_insert, Std.LawfulEqCmp.compare_eq_iff_eq] at hi ⊢
    rcases hi with rfl | hi
    · exact Nat.lt_succ_self _
    · exact Nat.lt_succ_of_lt (h.running_lt id hi)
  results_lt := fun id hi => Nat.lt_succ_of_lt (h.results_lt id hi)
  apart := by
    intro id hi
    simp only [World.spawn, Std.ExtTreeMap.mem_insert, Std.LawfulEqCmp.compare_eq_iff_eq] at hi ⊢
    rcases hi with rfl | hi
    · exact fun hr => Nat.lt_irrefl _ (h.results_lt _ hr)
    · exact h.apart id hi

theorem Sound.step (h : w.Sound) (id : TaskId) : (w.step k id).Sound := by
  obtain hw | ⟨task, stage, s, hr, -, hw⟩ | ⟨task, result, s, hr, -, hw⟩ := step_cases k w id
  · rwa [hw]
  · rw [hw]
    constructor
    · intro i hi
      rcases Std.ExtTreeMap.mem_insert.mp hi with he | hi
      · exact Std.LawfulEqCmp.eq_of_compare he ▸ h.running_lt id (mem_of_running hr)
      · exact h.running_lt i hi
    · exact h.results_lt
    · intro i hi
      rcases Std.ExtTreeMap.mem_insert.mp hi with he | hi
      · exact Std.LawfulEqCmp.eq_of_compare he ▸ h.apart id (mem_of_running hr)
      · exact h.apart i hi
  · rw [hw]
    constructor
    · intro i hi
      exact h.running_lt i (Std.ExtTreeMap.mem_of_mem_erase hi)
    · intro i hi
      rcases Std.ExtTreeMap.mem_insert.mp hi with he | hi
      · exact Std.LawfulEqCmp.eq_of_compare he ▸ h.running_lt id (mem_of_running hr)
      · exact h.results_lt i hi
    · intro i hi hj
      obtain ⟨hne, hi⟩ := Std.ExtTreeMap.mem_erase.mp hi
      rcases Std.ExtTreeMap.mem_insert.mp hj with he | hj
      · exact hne he
      · exact h.apart i hi hj

theorem Sound.abandon (h : w.Sound) (id : TaskId) : (w.abandon k id).Sound := by
  obtain ⟨-, hw⟩ | ⟨task, -, hw⟩ := abandon_cases k w id
  · rwa [hw]
  · rw [hw]
    constructor
    · intro i hi
      exact h.running_lt i (Std.ExtTreeMap.mem_of_mem_erase hi)
    · exact h.results_lt
    · intro i hi
      exact h.apart i (Std.ExtTreeMap.mem_of_mem_erase hi)

end World

namespace Scene

variable {σ τ ρ ι ε : Type} (s : Scene σ τ ρ ι ε)

def next (w : World σ τ ρ) : Event ι ε → World σ τ ρ
  | .call call => (w.spawn (s.enter call)).2
  | .step id => w.step s.workings id
  | .abandon id => w.abandon s.workings id
  | .pass ms => { w with now := w.now + ms }
  | .outside event => { w with state := s.outside event w.state }

def run (w : World σ τ ρ) (events : List (Event ι ε)) : World σ τ ρ := events.foldl s.next w

@[simp] theorem run_nil (w : World σ τ ρ) : s.run w [] = w := rfl

@[simp] theorem run_cons (w : World σ τ ρ) (e : Event ι ε) (events : List (Event ι ε)) :
    s.run w (e :: events) = s.run (s.next w e) events := rfl

@[simp] theorem run_append (w : World σ τ ρ) (events events' : List (Event ι ε)) :
    s.run w (events ++ events') = s.run (s.run w events) events' :=
  List.foldl_append ..

/-- What every event keeps, every run keeps. -/
theorem run_invariant {P : World σ τ ρ → Prop} (hP : ∀ w e, P w → P (s.next w e)) {w : World σ τ ρ}
    (h : P w) (events : List (Event ι ε)) : P (s.run w events) := by
  induction events generalizing w with
  | nil => exact h
  | cons e events ih => exact ih (hP w e h)

/-- What the tasks and the surroundings keep about the state, every run keeps about it. -/
theorem run_state {P : σ → Prop}
    (hstep : ∀ id now task st, P st → P (s.workings.step id now task st).2)
    (habandon : ∀ id task st, P st → P (s.workings.abandon id task st))
    (houtside : ∀ e st, P st → P (s.outside e st)) {w : World σ τ ρ} (h : P w.state)
    (events : List (Event ι ε)) : P (s.run w events).state := by
  refine s.run_invariant (P := fun w => P w.state) (fun w e h => ?_) h events
  cases e with
  | call call => exact h
  | step id =>
      change P (w.step s.workings id).state
      rcases World.state_step s.workings w id with hw | ⟨task, -, hw⟩
      · rwa [hw]
      · rw [hw]
        exact hstep id w.now task w.state h
  | abandon id =>
      change P (w.abandon s.workings id).state
      obtain ⟨-, hw⟩ | ⟨task, -, hw⟩ := World.abandon_cases s.workings w id
      · rwa [hw]
      · rw [hw]
        exact habandon id task w.state h
  | pass ms => exact h
  | outside event => exact houtside event w.state h

theorem next_sound {w : World σ τ ρ} (h : w.Sound) (e : Event ι ε) : (s.next w e).Sound := by
  cases e with
  | call call => exact h.spawn _
  | step id => exact h.step id
  | abandon id => exact h.abandon id
  | pass ms => exact ⟨h.running_lt, h.results_lt, h.apart⟩
  | outside event => exact ⟨h.running_lt, h.results_lt, h.apart⟩

theorem run_sound {w : World σ τ ρ} (h : w.Sound) (events : List (Event ι ε)) :
    (s.run w events).Sound :=
  s.run_invariant (P := World.Sound) (fun _ e hw => s.next_sound hw e) h events

theorem next_nextId (w : World σ τ ρ) (e : Event ι ε) :
    (s.next w e).nextId = w.nextId + e.call?.toList.length := by
  cases e with
  | call call => rfl
  | step id =>
      simp only [next, World.step, Event.call?]
      repeat' split
      all_goals rfl
  | abandon id =>
      simp only [next, World.abandon, Event.call?]
      split <;> rfl
  | pass ms => rfl
  | outside event => rfl

/-- Identities are given out in the order of the calls. -/
theorem run_nextId (state : σ) (events : List (Event ι ε)) :
    (s.run (.ofState state) events).nextId = (calls events).length := by
  induction events using List.reverseRecOn with
  | nil => rfl
  | append_singleton events e ih =>
      rw [run_append, run_cons, run_nil, next_nextId, ih, calls, calls, List.filterMap_append,
        List.length_append]
      cases e <;> rfl

/-- A task gets its result by a step of its own. -/
theorem finished_of_results {w : World σ τ ρ} {e : Event ι ε} {id : TaskId} {r : ρ}
    (h : w.results[id]? = none) (h' : (s.next w e).results[id]? = some r) :
    e = .step id ∧ ∃ task, w.running[id]? = some task ∧
      s.workings.step id w.now task w.state = (.finished r, (s.next w e).state) := by
  have hsame (hw : (s.next w e).results = w.results) : False := by
    rw [hw, h] at h'
    cases h'
  cases e with
  | call call => exact (hsame rfl).elim
  | pass ms => exact (hsame rfl).elim
  | outside event => exact (hsame rfl).elim
  | abandon i =>
      obtain ⟨-, hw⟩ | ⟨task, -, hw⟩ := World.abandon_cases s.workings w i
      all_goals exact (hsame (congrArg World.results hw :)).elim
  | step i =>
      change (w.step s.workings i).results[id]? = some r at h'
      obtain hw | ⟨task, stage, st, hr, hs, hw⟩ | ⟨task, result, st, hr, hs, hw⟩ :=
        World.step_cases s.workings w i
      · exact (hsame (congrArg World.results hw :)).elim
      · exact (hsame (congrArg World.results hw :)).elim
      · rw [hw] at h'
        dsimp only at h'
        rw [Map.getElem?_insert] at h'
        split at h'
        · next hi =>
          subst hi
          cases h'
          refine ⟨rfl, task, hr, ?_⟩
          change _ = (_, (w.step s.workings i).state)
          rw [hs, hw]
        · rw [h] at h'
          cases h'

/-- Without a step of its own a task stays where it is, or is given up. -/
theorem running_of_next {w : World σ τ ρ} {e : Event ι ε} {id : TaskId} {task : τ} (hid : id < w.nextId)
    (he : e ≠ .step id) (h : (s.next w e).running[id]? = some task) : w.running[id]? = some task := by
  cases e with
  | call call =>
      change (w.running.insert w.nextId (s.enter call))[id]? = some task at h
      rwa [Map.getElem?_insert, if_neg (Nat.ne_of_gt hid)] at h
  | step i =>
      have hne : id ≠ i := by
        rintro rfl
        exact he rfl
      exact (World.step_frame hne).1.symm.trans h
  | abandon i =>
      change (w.abandon s.workings i).running[id]? = some task at h
      obtain ⟨-, hw⟩ | ⟨t, -, hw⟩ := World.abandon_cases s.workings w i
      · rwa [hw] at h
      · rw [hw, Map.getElem?_erase] at h
        split at h
        · cases h
        · exact h
  | pass ms => exact h
  | outside event => exact h

/-- A result stays as it is. -/
theorem next_results {w : World σ τ ρ} (h : w.Sound) {id : TaskId} {r : ρ}
    (hr : w.results[id]? = some r) (e : Event ι ε) : (s.next w e).results[id]? = some r := by
  have hid : id ∈ w.results := Std.ExtTreeMap.mem_iff_isSome_getElem?.mpr (by simp [hr])
  cases e with
  | call call => exact hr
  | pass ms => exact hr
  | outside event => exact hr
  | abandon i =>
      obtain ⟨-, hw⟩ | ⟨task, -, hw⟩ := World.abandon_cases s.workings w i
      all_goals exact (congrArg (fun w => w.results[id]?) hw :).trans hr
  | step i =>
      change (w.step s.workings i).results[id]? = some r
      obtain hw | ⟨task, stage, st, -, -, hw⟩ | ⟨task, result, st, ht, -, hw⟩ :=
        World.step_cases s.workings w i
      · rw [hw, hr]
      · rw [hw, ← hr]
      · have hne : i ≠ id := by
          rintro rfl
          exact h.apart i (World.mem_of_running ht) hid
        rw [hw, Map.getElem?_insert, if_neg hne, hr]

theorem state_of_next {w : World σ τ ρ} {events : List (Event ι ε)} {id : TaskId} {task stage : τ}
    {st : σ} (hr : (s.run w events).running[id]? = some task)
    (hs : s.workings.step id (s.run w events).now task (s.run w events).state = (.next stage, st)) :
    (s.run w (events ++ [.step id])).state = st := by
  rw [run_append]
  exact congrArg World.state (World.step_of_next hr hs)

theorem result_of_finished {w : World σ τ ρ} {events : List (Event ι ε)} {id : TaskId} {task : τ} {r : ρ}
    {st : σ} (hr : (s.run w events).running[id]? = some task)
    (hs : s.workings.step id (s.run w events).now task (s.run w events).state = (.finished r, st)) :
    (s.run w (events ++ [.step id])).results[id]? = some r := by
  have hw : s.run w (events ++ [.step id]) = _ := (s.run_append w events [.step id]).trans
    (World.step_of_finished hr hs)
  rw [hw]
  exact (Map.getElem?_insert ..).trans (if_pos rfl)

theorem run_results {w : World σ τ ρ} (h : w.Sound) {id : TaskId} {r : ρ}
    (hr : w.results[id]? = some r) (events : List (Event ι ε)) :
    (s.run w events).results[id]? = some r := by
  induction events generalizing w with
  | nil => exact hr
  | cons e events ih => exact ih (s.next_sound h e) (s.next_results h hr e)

/-- A task with a result was finished by a step of its own. -/
theorem finished_of_run (state : σ) (events : List (Event ι ε)) {id : TaskId} {r : ρ}
    (h : (s.run (.ofState state) events).results[id]? = some r) :
    ∃ before after task, events = before ++ .step id :: after ∧
      (s.run (.ofState state) before).running[id]? = some task ∧
      s.workings.step id (s.run (.ofState state) before).now task
        (s.run (.ofState state) before).state =
        (.finished r, (s.run (.ofState state) (before ++ [.step id])).state) := by
  induction events using List.reverseRecOn with
  | nil => simp [World.ofState] at h
  | append_singleton events e ih =>
      rw [run_append, run_cons, run_nil] at h
      cases hr : (s.run (.ofState state) events).results[id]? with
      | none =>
          obtain ⟨rfl, task, ht, hs⟩ := s.finished_of_results hr h
          refine ⟨events, [], task, rfl, ht, ?_⟩
          rw [hs, run_append, run_cons, run_nil]
      | some r' =>
          have hkeep := s.next_results (s.run_sound (World.sound_ofState state) events) hr e
          cases hkeep.symm.trans h
          obtain ⟨before, after, task, he, ht, hs⟩ := ih hr
          exact ⟨before, after ++ [e], task, by rw [he]; simp, ht, hs⟩

theorem calls_append_singleton (events : List (Event ι ε)) (e : Event ι ε) :
    calls (events ++ [e]) = calls events ++ e.call?.toList := by
  cases e <;> simp [calls, Event.call?]

theorem getElem?_calls_append {events : List (Event ι ε)} {id : TaskId} {c : ι}
    (h : (calls events)[id]? = some c) (more : List (Event ι ε)) :
    (calls (events ++ more))[id]? = some c := by
  rw [calls, List.filterMap_append]
  rw [calls] at h
  rw [List.getElem?_append_left (List.getElem?_eq_some_iff.mp h).1, h]

/-- A step ends a task only with a result. -/
theorem step_running_or_results {w : World σ τ ρ} {id i : TaskId} {task : τ}
    (hr : w.running[id]? = some task) :
    (∃ task, (w.step s.workings i).running[id]? = some task) ∨
      ∃ r, (w.step s.workings i).results[id]? = some r := by
  by_cases hi : id = i
  · subst hi
    obtain hw | ⟨t, stage, st, -, -, hw⟩ | ⟨t, result, st, -, -, hw⟩ :=
      World.step_cases s.workings w id
    · exact .inl ⟨task, by rw [hw, hr]⟩
    · exact .inl ⟨stage, by rw [hw, Map.getElem?_insert, if_pos rfl]⟩
    · exact .inr ⟨result, by rw [hw, Map.getElem?_insert, if_pos rfl]⟩
  · exact .inl ⟨task, (World.step_frame hi).1.trans hr⟩

/-- A task that is not given up is at work or has its result. -/
theorem running_or_results (state : σ) (events : List (Event ι ε)) {id : TaskId}
    (hid : id < (calls events).length) (ha : .abandon id ∉ events) :
    (∃ task, (s.run (.ofState state) events).running[id]? = some task) ∨
      ∃ r, (s.run (.ofState state) events).results[id]? = some r := by
  rw [← s.run_nextId state] at hid
  induction events using List.reverseRecOn with
  | nil => cases hid
  | append_singleton events e ih =>
      have hsound := s.run_sound (World.sound_ofState (ρ := ρ) (τ := τ) state) events
      have hold (h : id < (s.run (.ofState state) events).nextId) :=
        ih h fun h => ha (List.mem_append_left _ h)
      rw [run_append, run_cons, run_nil] at hid ⊢
      cases e with
      | pass ms => exact hold hid
      | outside event => exact hold hid
      | call call =>
          simp only [next, World.spawn, Map.getElem?_insert]
          by_cases he : (s.run (.ofState state) events).nextId = id
          · exact .inl ⟨s.enter call, if_pos he⟩
          · simp only [if_neg he]
            exact hold (Nat.lt_of_le_of_ne (Nat.le_of_lt_succ hid) (Ne.symm he))
      | abandon i =>
          have hne : i ≠ id := by
            rintro rfl
            exact ha (by simp)
          change id < ((s.run (.ofState state) events).abandon s.workings i).nextId at hid
          change (∃ task, ((s.run (.ofState state) events).abandon s.workings i).running[id]? = _) ∨
            ∃ r, ((s.run (.ofState state) events).abandon s.workings i).results[id]? = _
          obtain ⟨-, hw⟩ | ⟨t, -, hw⟩ :=
            World.abandon_cases s.workings (s.run (.ofState state) events) i
          · rw [hw] at hid ⊢
            exact hold hid
          · rw [hw] at hid ⊢
            simp only [Map.getElem?_erase, if_neg hne]
            exact hold hid
      | step i =>
          have hn := s.next_nextId (s.run (.ofState state) events) (.step i)
          rw [hn] at hid
          rcases hold hid with ⟨task, hr⟩ | ⟨r, hr⟩
          · exact s.step_running_or_results hr
          · exact .inr ⟨r, s.next_results hsound hr _⟩

/-- What holds of every task that comes in, is kept by the steps of a task, and is not undone by whatever
else goes on or by a step that changes nothing, holds of every task of a run. -/
theorem run_each {Q : List (Event ι ε) → TaskId → τ → Prop} (state : σ)
    (hmono : ∀ events e id task,
      (e = .step id → s.next (s.run (.ofState state) events) e = s.run (.ofState state) events) →
      Q events id task → Q (events ++ [e]) id task)
    (hcall : ∀ events c, Q (events ++ [.call c]) (calls events).length (s.enter c))
    (hstep : ∀ events id task task' st',
      (s.run (.ofState state) events).running[id]? = some task → Q events id task →
      s.workings.step id (s.run (.ofState state) events).now task
        (s.run (.ofState state) events).state = (.next task', st') →
      Q (events ++ [.step id]) id task')
    (events : List (Event ι ε)) {id : TaskId} {task : τ}
    (h : (s.run (.ofState state) events).running[id]? = some task) : Q events id task := by
  induction events using List.reverseRecOn generalizing id task with
  | nil => simp [World.ofState] at h
  | append_singleton events e ih =>
      rw [run_append, run_cons, run_nil] at h
      cases e with
      | pass ms => exact hmono _ _ _ _ nofun (ih h)
      | outside event => exact hmono _ _ _ _ nofun (ih h)
      | call call =>
          simp only [next, World.spawn, Map.getElem?_insert] at h
          split at h
          · next hi =>
            cases h
            rw [← hi, run_nextId]
            exact hcall events call
          · exact hmono _ _ _ _ nofun (ih h)
      | abandon i =>
          change ((s.run (.ofState state) events).abandon s.workings i).running[id]? = _ at h
          obtain ⟨-, hw⟩ | ⟨t, -, hw⟩ := World.abandon_cases s.workings (s.run (.ofState state) events) i
          · rw [hw] at h
            exact hmono _ _ _ _ nofun (ih h)
          · rw [hw, Map.getElem?_erase] at h
            split at h
            · cases h
            · exact hmono _ _ _ _ nofun (ih h)
      | step i =>
          change ((s.run (.ofState state) events).step s.workings i).running[id]? = _ at h
          obtain hw | ⟨t, stage, st, hr, hs, hw⟩ | ⟨t, result, st, hr, hs, hw⟩ :=
            World.step_cases s.workings (s.run (.ofState state) events) i
          · rw [hw] at h
            exact hmono _ _ _ _ (fun _ => hw) (ih h)
          · rw [hw, Map.getElem?_insert] at h
            split at h
            · next hi =>
              subst hi
              cases h
              exact hstep events i t _ st hr (ih hr) hs
            · next hi => exact hmono _ _ _ _ (fun h => absurd (Event.step.inj h) hi) (ih h)
          · rw [hw, Map.getElem?_erase] at h
            split at h
            · cases h
            · next hi => exact hmono _ _ _ _ (fun h => absurd (Event.step.inj h) hi) (ih h)

/-- Every task comes from the call that has its identity. -/
theorem run_origin {Q : ι → τ → Prop} (henter : ∀ c, Q c (s.enter c))
    (hstep : ∀ c id now task task' st st', Q c task →
      s.workings.step id now task st = (.next task', st') → Q c task')
    (state : σ) (events : List (Event ι ε)) {id : TaskId} {task : τ}
    (h : (s.run (.ofState state) events).running[id]? = some task) :
    ∃ c, (calls events)[id]? = some c ∧ Q c task := by
  refine s.run_each (Q := fun events id task => ∃ c, (calls events)[id]? = some c ∧ Q c task) state
    ?_ ?_ ?_ events h
  · rintro events e id task - ⟨c, hc, hq⟩
    exact ⟨c, getElem?_calls_append hc [e], hq⟩
  · intro events c
    refine ⟨c, ?_, henter c⟩
    simp [calls_append_singleton, Event.call?]
  · rintro events id task task' st' - ⟨c, hc, hq⟩ hs
    exact ⟨c, getElem?_calls_append hc _, hstep c _ _ task _ _ _ hq hs⟩

/-- An event of a run that goes on by one more is that one, or an event of the run. -/
theorem concat_eq_append_cons {α : Type} {events before after : List α} {e d : α} :
    events ++ [e] = before ++ d :: after ↔ (events = before ∧ e = d ∧ after = []) ∨
      ∃ rest, events = before ++ d :: rest ∧ after = rest ++ [e] := by
  constructor
  · intro h
    rcases List.eq_nil_or_concat after with rfl | ⟨rest, c, rfl⟩
    · obtain ⟨rfl, he⟩ := List.append_inj' h rfl
      exact .inl ⟨rfl, List.singleton_inj.mp he, rfl⟩
    · rw [List.concat_eq_append, ← List.cons_append, ← List.append_assoc] at h
      obtain ⟨rfl, he⟩ := List.append_inj' h rfl
      exact .inr ⟨rest, rfl, by rw [List.concat_eq_append, List.singleton_inj.mp he]⟩
  · rintro (⟨rfl, rfl, rfl⟩ | ⟨rest, rfl, rfl⟩)
    · rfl
    · simp

/-- In the world `w`, an event brings `P` about exactly if it is a step of a task of which `Q` holds, and no
event undoes it. -/
structure Brings (P : World σ τ ρ → Prop) (Q : World σ τ ρ → TaskId → τ → Prop) (w : World σ τ ρ) :
    Prop where
  step : ∀ id task, w.running[id]? = some task → (P (s.next w (.step id)) ↔ P w ∨ Q w id task)
  other : ∀ e, (∀ id task, e = .step id → w.running[id]? ≠ some task) → (P (s.next w e) ↔ P w)

section Brought

variable {s} {P : World σ τ ρ → Prop} {Q : World σ τ ρ → TaskId → τ → Prop} {w : World σ τ ρ}

theorem Brings.next_iff (h : s.Brings P Q w) (e : Event ι ε) : P (s.next w e) ↔ P w ∨
    ∃ id task, e = .step id ∧ w.running[id]? = some task ∧ Q w id task := by
  by_cases he : ∃ id task, e = .step id ∧ w.running[id]? = some task
  · obtain ⟨id, task, rfl, hr⟩ := he
    rw [h.step id task hr]
    refine or_congr_right ⟨fun hq => ⟨id, task, rfl, hr, hq⟩, ?_⟩
    rintro ⟨id', task', he, hr', hq⟩
    cases he
    cases hr.symm.trans hr'
    exact hq
  · rw [h.other e fun id task hd hr => he ⟨id, task, hd, hr⟩]
    refine (or_iff_left ?_).symm
    rintro ⟨id, task, hd, hr, -⟩
    exact he ⟨id, task, hd, hr⟩

theorem Brings.mono (h : s.Brings P Q w) (e : Event ι ε) (hp : P w) : P (s.next w e) :=
  (h.next_iff e).mpr (.inl hp)

variable (h : ∀ events, s.Brings P Q (s.run w events))

include h

theorem run_mono {events : List (Event ι ε)} (more : List (Event ι ε)) (hp : P (s.run w events)) :
    P (s.run w (events ++ more)) := by
  induction more using List.reverseRecOn with
  | nil => rwa [List.append_nil]
  | append_singleton more e ih =>
      rw [← List.append_assoc, run_append]
      exact (h _).mono e ih

/-- What the first world does not show is shown exactly once a step that brings it about has been taken. -/
theorem run_brought (hw : ¬P w) (events : List (Event ι ε)) :
    P (s.run w events) ↔ ∃ before after id task, events = before ++ .step id :: after ∧
      (s.run w before).running[id]? = some task ∧ Q (s.run w before) id task := by
  induction events using List.reverseRecOn with
  | nil => simpa using hw
  | append_singleton events e ih =>
      rw [run_append, run_cons, run_nil, (h events).next_iff, ih]
      constructor
      · rintro (⟨before, after, id, task, rfl, hr, hq⟩ | ⟨id, task, rfl, hr, hq⟩)
        · exact ⟨before, after ++ [e], id, task, by simp, hr, hq⟩
        · exact ⟨events, [], id, task, rfl, hr, hq⟩
      · rintro ⟨before, after, id, task, he, hr, hq⟩
        rcases concat_eq_append_cons.mp he with ⟨rfl, rfl, -⟩ | ⟨rest, rfl, -⟩
        · exact .inr ⟨id, task, rfl, hr, hq⟩
        · exact .inl ⟨before, rest, id, task, rfl, hr, hq⟩

end Brought

/-- What an observer notes of the events of a run, each seen with the worlds before and after it. -/
def observe {α : Type} (look : World σ τ ρ → Event ι ε → World σ τ ρ → Option α)
    (w : World σ τ ρ) : List (Event ι ε) → List α
  | [] => []
  | e :: events => (look w e (s.next w e)).toList ++ observe look (s.next w e) events

theorem observe_append {α : Type} (look : World σ τ ρ → Event ι ε → World σ τ ρ → Option α)
    (w : World σ τ ρ) (events : List (Event ι ε)) (e : Event ι ε) :
    s.observe look w (events ++ [e]) =
      s.observe look w events ++ (look (s.run w events) e (s.next (s.run w events) e)).toList := by
  induction events generalizing w with
  | nil => simp [observe]
  | cons d events ih => simp [observe, ih]

end Scene
end Playfield
