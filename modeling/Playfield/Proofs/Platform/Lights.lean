import Playfield.Proofs.Light.History
import Playfield.Proofs.Platform.Rules

/-! The lights of a platform. Only the first step of a call has to do with them: a reset puts all of them out, and
a light that is out stays so until a fade of it begins. -/
namespace Playfield

namespace LightEngine

variable {e : LightEngine} {n : LightNumber}

theorem mem_startOne (ms : UInt32) (now : UInt64) (x : Lighting) :
    n ∈ (startOne ms now e x).channels ↔ x.1 = n ∨ n ∈ e.channels := mem_insert_channels ..

theorem mem_start {targets : List Lighting} {ms : UInt32} {now : UInt64} :
    n ∈ (e.start targets ms now).channels ↔ n ∈ targets.map (·.1) ∨ n ∈ e.channels := by
  induction targets generalizing e with
  | nil => simp [start]
  | cons x rest ih =>
      have hrest := ih (e := startOne ms now e x)
      rw [mem_startOne] at hrest
      rw [start, List.foldl_cons, List.map_cons, List.mem_cons, or_assoc, or_left_comm, eq_comm]
      exact hrest

theorem mem_read {light : LightNumber} {now : UInt64} :
    n ∈ (e.read light now).2.channels ↔ n ∈ e.channels := by
  unfold read
  cases hc : e.channels[light]? with
  | none => rfl
  | some c =>
      rw [mem_insert_channels, or_iff_right_iff_imp]
      rintro rfl
      exact Std.ExtTreeMap.mem_iff_isSome_getElem?.mpr (by rw [hc]; rfl)

/-- A light that has not been driven since the last reset is off, at whatever time. -/
theorem read_of_not_mem (h : n ∉ e.channels) (now : UInt64) : e.read n now = (⟨n, .off, none⟩, e) := by
  rw [read, Std.ExtTreeMap.getElem?_eq_none h]

end LightEngine

/-- The lights of which a call starts fades. -/
def Call.fades : Call → List LightNumber
  | .fadeChannels r => r.validate.toOption.elim [] fun fade => fade.targets.map (·.1)
  | .fadeRgb r => r.validate.toOption.elim [] fun fade => (LightEngine.rgbTargets fade).map (·.1)
  | .fadeSingle r => r.validate.toOption.elim [] fun fade => [fade.light]
  | _ => []

theorem Call.Starts.fades_eq {call : Call} {targets : List Lighting} {ms : UInt32}
    (h : call.Starts targets ms) : call.fades = targets.map (·.1) := by
  cases h with
  | channels hv | rgb hv | single hv => simp [Call.fades, hv, Except.toOption]

namespace Platform

/-- A light is off and has no fade, whatever the clock says. -/
def IsDark (p : Platform) (n : LightNumber) : Prop :=
  ∀ (clock : Clock) (text : String), Check.number .light text = .ok n →
    lightState { p with clock } text = .ok (⟨n, .off, none⟩, { p with clock })

variable {p q : Platform} {n : LightNumber}

theorem isDark_of_not_mem (h : n ∉ p.lights.channels) : p.IsDark n := by
  intro clock text hn
  rw [lightState, hn]
  dsimp only [bind, Except.bind]
  rw [LightEngine.read_of_not_mem h]
  rfl

/-- No light has been driven that was not driven before, but for those of `fades`. -/
def Drives (fades : List LightNumber) (p q : Platform) : Prop :=
  ∀ n, n ∈ q.lights.channels → n ∈ p.lights.channels ∨ n ∈ fades

namespace Drives

variable {fades : List LightNumber}

theorem of_eq (h : q.lights = p.lights) : Drives fades p q := by
  intro n hn
  exact .inl (h ▸ hn)

/-- The first step of a call drives the lights of which it starts fades, and no others. -/
theorem enter (call : Call) (me : TaskId) : Drives call.fades p (Task.enter call me p).2 := by
  have h := Task.enter_entered call me p
  generalize Task.enter call me p = step at h ⊢
  cases h with
  | served h =>
      cases h with
      | fades hstarts =>
          rw [hstarts.fades_eq]
          exact fun n hn => (LightEngine.mem_start.mp hn).symm
      | looks => exact fun n hn => .inl (LightEngine.mem_read.mp hn)
      | _ => exact of_eq rfl
  | resets => exact fun n hn => absurd hn Std.ExtTreeMap.not_mem_empty
  | _ => exact of_eq rfl

theorem outside (e : Outside) : Drives fades p (outside e p) := by
  obtain ⟨online, clock, stream, notices, -, hq⟩ := outside_eq e p
  rw [hq]
  exact of_eq rfl

end Drives

/-- No light but those of `fades` is driven by an event, if that is not the first step of a call with others. -/
theorem next_drives {w : World Platform Task Outcome} {e : Event Call Outside} {fades : List LightNumber}
    (h : ∀ id call, e = .step id → w.running[id]? = some (.start call) → call.fades = fades) :
    Drives fades w.state (scene.next w e).state := by
  cases e with
  | call call => exact .of_eq rfl
  | pass ms => exact .of_eq rfl
  | outside e => exact .outside e
  | step id =>
      change Drives fades w.state (w.step Task.workings id).state
      rcases World.state_step Task.workings w id with hw | ⟨task, hr, hw⟩
      · exact .of_eq (by rw [hw])
      · rw [hw]
        by_cases hstart : ∃ call, task = .start call
        · obtain ⟨call, rfl⟩ := hstart
          exact h id call rfl hr ▸ .enter call id
        · obtain ⟨panel, switches, stream, hq⟩ :=
            Task.onward_eq (fun call hc => hstart ⟨call, hc⟩) id w.now w.state
          change Drives fades w.state (task.step id w.now w.state).2
          rw [hq]
          exact .of_eq rfl
  | abandon id =>
      change Drives fades w.state (w.abandon Task.workings id).state
      obtain ⟨-, hw⟩ | ⟨task, hr, hw⟩ := World.abandon_cases Task.workings w id
      · exact .of_eq (by rw [hw])
      · obtain ⟨panel, switches, hq⟩ := Task.abandon_eq task id w.state
        have hs := (congrArg World.state hw).trans hq
        rw [hs]
        exact .of_eq rfl

/-- In the course of the events, from the world `w` on, a fade of a light is started. -/
def Fades (w : World Platform Task Outcome) (events : List (Event Call Outside)) (n : LightNumber) : Prop :=
  ∃ past id call rest, events = past ++ .step id :: rest ∧
    (scene.run w past).running[id]? = some (.start call) ∧ n ∈ call.fades

/-- A light that has not been driven is not driven until a fade of it is started. -/
theorem run_not_mem {w : World Platform Task Outcome} {events : List (Event Call Outside)}
    (h : n ∉ w.state.lights.channels) (hn : ¬Fades w events n) :
    n ∉ (scene.run w events).state.lights.channels := by
  induction events using List.reverseRecOn with
  | nil => exact h
  | append_singleton events e ih =>
      have hearlier : ¬Fades w events n := by
        rintro ⟨past, id, call, rest, rfl, hr, hf⟩
        exact hn ⟨past, id, call, rest ++ [e], by simp, hr, hf⟩
      rw [Scene.run_append, Scene.run_cons, Scene.run_nil]
      intro hmem
      -- Only the first step of a call that fades the light can have driven it.
      by_cases hstart : ∃ id call, e = .step id ∧ (scene.run w events).running[id]? = some (.start call)
      · obtain ⟨id, call, rfl, hr⟩ := hstart
        have hsame (i : TaskId) (c : Call) (he : .step id = (.step i : Event Call Outside))
            (hc : (scene.run w events).running[i]? = some (.start c)) : c.fades = call.fades := by
          cases he
          cases hr.symm.trans hc
          rfl
        rcases next_drives hsame n hmem with hold | hf
        · exact ih hearlier hold
        · exact hn ⟨events, id, call, [], rfl, hr, hf⟩
      · have hdrives : Drives [] (scene.run w events).state (scene.next (scene.run w events) e).state :=
          next_drives fun i c he hc => absurd ⟨i, c, he, hc⟩ hstart
        exact ih hearlier ((hdrives n hmem).resolve_right List.not_mem_nil)

end Platform
end Playfield
