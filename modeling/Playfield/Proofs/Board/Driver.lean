import Playfield.Proofs.Board.Replay
import Playfield.Proofs.Wire.Hardware

/-! One driver and whatever it is asked to do, with any parameters and on a board that can hold or not. The kind
of the last actuation decides whether the driver is off, and the kinds decide what it counts. Whether it holds is
decided by the hold power, also for a pulse. -/
namespace Playfield.CoilDriver

variable {a : Actuation} {canHold : Bool}

/-- The driver holds the coil. -/
def Holds (d : CoilDriver) : Prop := ∃ ms power hold, d.output = .holding ms power hold

theorem isDisable_iff : a.isDisable = true ↔ a.kind = .disable := decide_eq_true_iff

theorem not_isDisable_iff : (!a.isDisable) = true ↔ a.kind = .pulse ∨ a.kind = .enable := by
  unfold Actuation.isDisable
  cases a.kind <;> decide

theorem shows_eq_off : shows a canHold = .off ↔ a.kind = .disable := by
  rw [← isDisable_iff, shows]
  cases a.isDisable with
  | true => simp
  | false => cases a.holds && canHold <;> simp

theorem shows_eq_holding : (∃ ms power hold, shows a canHold = .holding ms power hold) ↔
    a.kind ≠ .disable ∧ 0.0 < a.holdPower.value ∧ canHold = true := by
  have hholds : a.holds = true ↔ 0.0 < a.holdPower.value := decide_eq_true_iff
  rw [ne_eq, ← isDisable_iff, ← hholds, ← Bool.and_eq_true, shows]
  cases a.isDisable with
  | true => simp
  | false => cases a.holds && canHold <;> simp

/-- A driver is off before its first actuation and after a disable, and at no other time; and it counts the
pulses and the enables. The parameters have no say in that. But it holds after any actuation with a hold power
that is no disable, if the board can, and so after a pulse as well as after an enable. If it holds and there is
no such pulse, it has been enabled; the pulses of the constructor are not of that kind. -/
theorem holds_by_power_not_kind (steps : List (Actuation × Bool)) :
    let d := run .idle steps
    let last := steps.getLast?
    (d.output = .off ↔ ∀ s ∈ last, s.1.kind = .disable) ∧
      d.fired = steps.countP (fun s => s.1.kind = .pulse ∨ s.1.kind = .enable) ∧
      (d.Holds ↔ ∃ s ∈ last, s.1.kind ≠ .disable ∧ 0.0 < s.1.holdPower.value ∧ s.2 = true) ∧
      ((∀ s ∈ last, s.1.kind = .pulse → ¬0.0 < s.1.holdPower.value) → d.Holds →
        ∃ s ∈ last, s.1.kind = .enable) ∧
      ∀ (coil : CoilNumber) (ms : UInt32) (power : Power) (canHold : Bool),
        last = some (.pulse coil ms power, canHold) → ¬d.Holds := by
  intro d last
  have hoff : d.output = .off ↔ ∀ s ∈ last, s.1.kind = .disable := by
    rw [output_run]
    cases hlast : steps.getLast? with
    | none => simp [last, hlast, idle]
    | some s => simpa [last, hlast] using shows_eq_off
  have hholds : d.Holds ↔ ∃ s ∈ last, s.1.kind ≠ .disable ∧ 0.0 < s.1.holdPower.value ∧ s.2 = true := by
    rw [Holds, output_run]
    cases hlast : steps.getLast? with
    | none => simp [last, hlast, idle]
    | some s => simpa [last, hlast] using shows_eq_holding
  refine ⟨hoff, ?_, hholds, fun hpulses h => ?_,
    fun coil ms power canHold hlast h => ?_⟩
  · rw [fired_run]
    refine (Nat.zero_add _).trans (List.countP_congr fun s _ => ?_)
    rw [not_isDisable_iff, decide_eq_true_iff]
  · obtain ⟨s, hs, hkind, hpower, -⟩ := hholds.mp h
    refine ⟨s, hs, ?_⟩
    cases hk : s.1.kind with
    | pulse => exact absurd hpower (hpulses s hs hk)
    | enable => rfl
    | disable => exact absurd hk hkind
  · obtain ⟨s, hs, -, hpower, -⟩ := hholds.mp h
    obtain rfl := Option.some.inj (hlast.symm.trans hs)
    exact absurd hpower (by decide : ¬(0.0 : Float) < 0.0)

/-- A document with a pulse that carries a hold power: a driver that carries it out holds the coil. -/
theorem holds_after_pulse :
    let document := "\x7b\"kind\":\"pulse\",\"coil\":\"C1\",\"pulse_ms\":10,\"pulse_power\":0.5,\"hold_power\":0.5\x7d"
    let a : Actuation := ⟨.pulse, ⟨"C1", by decide⟩, 10, ⟨0.5⟩, ⟨0.5⟩⟩
    Actuation.codec.ofText document = .ok a ∧ (run .idle [(a, true)]).Holds := by
  exact ⟨by decide +kernel, 10, ⟨0.5⟩, ⟨0.5⟩, by decide⟩

end Playfield.CoilDriver
