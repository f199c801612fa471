import Playfield.Proofs.Run

/-! Worlds that are alike. Where every task of one world has a counterpart in another one, and both take the
same steps, one world stays the likeness of the other, whatever comes in. -/
namespace Playfield

variable {σ τ ρ ι ε σ' τ' ρ' ι' ε' : Type}

/-- The same event with other calls and other things from outside. -/
def Event.map (call : ι → ι') (outside : ε → ε') : Event ι ε → Event ι' ε'
  | .call c => .call (call c)
  | .step id => .step id
  | .abandon id => .abandon id
  | .pass ms => .pass ms
  | .outside e => .outside (outside e)

@[simp] theorem Event.map_id (e : Event ι ε) : e.map id id = e := by
  cases e <;> rfl

theorem calls_map (call : ι → ι') (outside : ε → ε') (events : List (Event ι ε)) :
    calls (events.map (Event.map call outside)) = (calls events).map call := by
  have hcall : Event.call? ∘ Event.map call outside = fun e => (Event.call? e).map call := by
    funext e
    cases e <;> rfl
  rw [calls, List.filterMap_map, calls, List.map_filterMap, hcall]

/-- The world `w'` is the world `w` with other states, tasks and results, which are functions of those of `w`
and of their identities. -/
structure World.Likeness (state : σ → σ') (task : TaskId → τ → τ') (result : TaskId → ρ → ρ')
    (w : World σ τ ρ) (w' : World σ' τ' ρ') : Prop where
  state : w'.state = state w.state
  now : w'.now = w.now
  nextId : w'.nextId = w.nextId
  running : ∀ id, w'.running[id]? = (w.running[id]?).map (task id)
  results : ∀ id, w'.results[id]? = (w.results[id]?).map (result id)

namespace World.Likeness

variable {f : σ → σ'} {g : TaskId → τ → τ'} {r : TaskId → ρ → ρ'} {w : World σ τ ρ} {w' : World σ' τ' ρ'}

theorem ofState (state : σ) : Likeness f g r (.ofState state : World σ τ ρ) (.ofState (f state)) where
  state := rfl
  now := rfl
  nextId := rfl
  running := fun id => by simp [World.ofState]
  results := fun id => by simp [World.ofState]

/-- Other counterparts of the tasks will do, if they are the same for those that there are. -/
theorem congr {g' : TaskId → τ → τ'} (h : Likeness f g r w w')
    (hg : ∀ id task, w.running[id]? = some task → g id task = g' id task) : Likeness f g' r w w' where
  state := h.state
  now := h.now
  nextId := h.nextId
  running := by
    intro id
    rw [h.running]
    exact Option.map_congr fun task hr => hg id task hr
  results := h.results

theorem spawn (h : Likeness f g r w w') {task : τ} {task' : τ'} (htask : task' = g w.nextId task) :
    Likeness f g r (w.spawn task).2 (w'.spawn task').2 where
  state := h.state
  now := h.now
  nextId := congrArg (· + 1) h.nextId
  running := by
    intro id
    simp only [World.spawn, Map.getElem?_insert, h.nextId, h.running]
    split
    · next hid => rw [← hid, htask, Option.map_some]
    · rfl
  results := h.results

variable {k : Workings σ τ ρ} {k' : Workings σ' τ' ρ'} {id : TaskId}

theorem step (h : Likeness f g r w w') (hstep : ∀ task, w.running[id]? = some task →
    k'.step id w.now (g id task) (f w.state) = ((k.step id w.now task w.state).1.map (g id) (r id),
      f (k.step id w.now task w.state).2)) : Likeness f g r (w.step k id) (w'.step k' id) := by
  cases hr : w.running[id]? with
  | none => rwa [step_of_none hr, step_of_none ((h.running id).trans (by rw [hr, Option.map_none]))]
  | some task =>
      have hr' : w'.running[id]? = some (g id task) := (h.running id).trans (by rw [hr, Option.map_some])
      have hs := hstep task hr
      -- The step is taken at the time and in the state of the likeness.
      rw [← h.now, ← h.state] at hs
      rcases hprogress : k.step id w.now task w.state with ⟨progress, s⟩
      rw [h.now, hprogress] at hs
      rw [← h.now] at hs
      cases progress with
      | blocked => rwa [step_of_blocked hr hprogress, step_of_blocked hr' hs]
      | next stage =>
          rw [step_of_next hr hprogress, step_of_next hr' hs]
          refine ⟨rfl, h.now, h.nextId, fun i => ?_, h.results⟩
          simp only [Map.getElem?_insert, h.running]
          split
          · next hi => rw [← hi, Option.map_some]
          · rfl
      | finished result =>
          rw [step_of_finished hr hprogress, step_of_finished hr' hs]
          refine ⟨rfl, h.now, h.nextId, fun i => ?_, fun i => ?_⟩
          · simp only [Map.getElem?_erase, h.running]
            split <;> rfl
          · simp only [Map.getElem?_insert, h.results]
            split
            · next hi => rw [← hi, Option.map_some]
            · rfl

theorem abandon (h : Likeness f g r w w') (habandon : ∀ task, w.running[id]? = some task →
    k'.abandon id (g id task) (f w.state) = f (k.abandon id task w.state)) :
    Likeness f g r (w.abandon k id) (w'.abandon k' id) := by
  obtain ⟨hr, hw⟩ | ⟨task, hr, hw⟩ := abandon_cases k w id
  · obtain ⟨-, hw'⟩ | ⟨task', hr', -⟩ := abandon_cases k' w' id
    · rwa [hw, hw']
    · rw [h.running, hr] at hr'
      cases hr'
  · obtain ⟨hr', -⟩ | ⟨task', hr', hw'⟩ := abandon_cases k' w' id
    · rw [h.running, hr] at hr'
      cases hr'
    · rw [h.running, hr] at hr'
      obtain rfl : g id task = task' := Option.some.inj hr'
      rw [hw, hw']
      refine ⟨?_, h.now, h.nextId, fun i => ?_, h.results⟩
      · rw [h.state, habandon task hr]
      · simp only [Map.getElem?_erase, h.running]
        split <;> rfl

variable (s : Scene σ τ ρ ι ε) (s' : Scene σ' τ' ρ' ι' ε') (call : ι → ι') (outside : ε → ε')

/-- An event keeps worlds alike if it does the same in both. -/
theorem next (h : Likeness f g r w w') (e : Event ι ε)
    (hcall : ∀ c, e = .call c → s'.enter (call c) = g w.nextId (s.enter c))
    (hstep : ∀ id task, e = .step id → w.running[id]? = some task →
      s'.workings.step id w.now (g id task) (f w.state) =
        ((s.workings.step id w.now task w.state).1.map (g id) (r id),
          f (s.workings.step id w.now task w.state).2))
    (habandon : ∀ id task, e = .abandon id → w.running[id]? = some task →
      s'.workings.abandon id (g id task) (f w.state) = f (s.workings.abandon id task w.state))
    (houtside : ∀ o, e = .outside o → s'.outside (outside o) (f w.state) = f (s.outside o w.state)) :
    Likeness f g r (s.next w e) (s'.next w' (e.map call outside)) := by
  cases e with
  | call c => exact h.spawn (hcall c rfl)
  | step id => exact h.step fun task => hstep id task rfl
  | abandon id => exact h.abandon fun task => habandon id task rfl
  | pass ms => exact ⟨h.state, congrArg (· + ms) h.now, h.nextId, h.running, h.results⟩
  | outside o =>
      refine ⟨?_, h.now, h.nextId, h.running, h.results⟩
      change s'.outside (outside o) w'.state = f (s.outside o w.state)
      rw [h.state, houtside o rfl]

/-- The same event can come in at both worlds. -/
theorem next_same (s : Scene σ τ ρ ι ε) {f : σ → σ} {g : TaskId → τ → τ} {r : TaskId → ρ → ρ}
    {w w' : World σ τ ρ} (h : Likeness f g r w w') (e : Event ι ε)
    (hcall : ∀ c, e = .call c → s.enter c = g w.nextId (s.enter c))
    (hstep : ∀ id task, e = .step id → w.running[id]? = some task →
      s.workings.step id w.now (g id task) (f w.state) =
        ((s.workings.step id w.now task w.state).1.map (g id) (r id),
          f (s.workings.step id w.now task w.state).2))
    (habandon : ∀ id task, e = .abandon id → w.running[id]? = some task →
      s.workings.abandon id (g id task) (f w.state) = f (s.workings.abandon id task w.state))
    (houtside : ∀ o, e = .outside o → s.outside o (f w.state) = f (s.outside o w.state)) :
    Likeness f g r (s.next w e) (s.next w' e) := by
  simpa only [Event.map_id] using h.next s s id id e hcall hstep habandon houtside

end World.Likeness
end Playfield
