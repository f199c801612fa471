import Playfield.Proofs.Platform.Worksite

/-! What a platform has recorded for its coils, after any run: calls in any mix, suspended or given up
anywhere, with a board that comes and goes. -/
namespace Playfield.Platform

variable (config : PlatformConfig) (board : BoardConfig) (clock : Clock) (startedAt : Timestamp)

/-- The recorded state of every coil is the replay of the accepted commands on it, in the order in which
the board has carried them out, and without firings of rules the driver shows what is recorded. -/
theorem recorded_is_replay (events : List (Event Call Outside)) (c : CoilNumber) :
    let p := (scene.run (atRest config board clock startedAt) events).state.panel
    let k := p.bank.coil c
    let shown := (p.board.driver c).output
    p.board.history = p.journal.accepted.map (·.actuation) ∧
      k = .replay c (p.journal.commandsOn c) ∧
      (k.enabled = false → k.holdPower = .zero) ∧
      ((∀ x ∈ p.journal.acceptedOn c, x.cause = .command) →
        (k.enabled = true →
          shown = if 0.0 < k.holdPower.value ∧ board.holdPower = true then
            .holding k.pulseMs k.pulsePower k.holdPower else .pulsed k.pulseMs k.pulsePower) ∧
        (k.enabled = false → shown.isHolding = false)) := by
  intro p k shown
  have hf : p.Faithful := (run_good config board clock startedAt events).faithful
  have hb : p.board.config = board := run_config config board clock startedAt events
  refine ⟨hf.history, hf.recorded c, hf.settled, fun hr => ⟨fun he => ?_, hf.isHolding_eq_false hr⟩⟩
  have hs := hf.output_of_enabled hr he
  rwa [hb] at hs

end Playfield.Platform
