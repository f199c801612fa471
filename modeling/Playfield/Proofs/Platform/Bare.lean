import Playfield.Proofs.Likeness
import Playfield.Proofs.Platform.Coils

/-! What the lights and the journal have no say in. Nothing at a platform depends on them but the readings of
lights, so that a reset, which differs from the disable of all coils in its lights and its journal alone,
fails exactly when that would fail. -/
namespace Playfield

/-- The panel without its journal. -/
def CoilPanel.bare (p : CoilPanel) : CoilPanel := { p with journal := [] }

namespace CoilJob

/-- What a step comes to, without the journal. -/
def seen {α : Type} (x : α × CoilPanel) : α × CoilPanel := (x.1, x.2.bare)

theorem seen_ite {α : Type} {c : Prop} [Decidable c] {x x' y y' : α × CoilPanel} (hx : seen x = seen x')
    (hy : seen y = seen y') : seen (if c then x else y) = seen (if c then x' else y') := by
  split
  · exact hx
  · exact hy

variable (job : CoilJob) (me : TaskId) (now : Nat) (stage : CoilStage) (bank : CoilBank) (board : Board)
  (j j' : Journal)

theorem enter_bare : seen (job.enter me ⟨bank, board, j⟩) = seen (job.enter me ⟨bank, board, j'⟩) := by
  cases job with
  | fire rule => rfl
  | read c | pulse c | enable c | disable c => exact seen_ite rfl rfl

theorem act_bare : seen (job.act now ⟨bank, board, j⟩) = seen (job.act now ⟨bank, board, j'⟩) := by
  cases job with
  | read c => rfl
  | pulse c =>
      simp only [act, CoilPanel.send]
      cases board.drive (.pulse c.coil c.pulseMs c.pulsePower) with
      | error fault => rfl
      | ok board => exact seen_ite rfl rfl
  | enable c =>
      -- Before the board is asked, it may be noted that it cannot hold.
      let a := Actuation.enable c.coil c.pulseMs c.pulsePower c.holdPower
      have hnoted (k : Journal) : ∃ k', (if a.holds && !board.config.holdPower then
          (⟨bank, board, k⟩ : CoilPanel).note (.holdUnsupported c.coil) else ⟨bank, board, k⟩) =
            ⟨bank, board, k'⟩ := by
        split <;> exact ⟨_, rfl⟩
      obtain ⟨k, hk⟩ := hnoted j
      obtain ⟨k', hk'⟩ := hnoted j'
      simp only [act, a, CoilPanel.send] at hk hk' ⊢
      rw [hk, hk']
      cases board.drive a <;> rfl
  | disable c =>
      refine seen_ite rfl ?_
      simp only [CoilPanel.send]
      cases board.drive (.disable c) <;> rfl
  | fire rule =>
      simp only [act, CoilPanel.send]
      cases board.drive rule.actuation <;> rfl

/-- A job is at work alike whatever the journal says. -/
theorem step_bare :
    seen (job.step me now stage ⟨bank, board, j⟩) = seen (job.step me now stage ⟨bank, board, j'⟩) := by
  cases stage with
  | start => exact job.enter_bare me bank board j j'
  | inLine => exact seen_ite (job.act_bare now bank board j j') rfl
  | cooling deadline =>
      refine seen_ite ?_ rfl
      simp only [coolDown, CoilPanel.send]
      cases board.drive (.disable job.coil) <;> rfl

theorem abandon_bare :
    (job.abandon me stage ⟨bank, board, j⟩).bare = (job.abandon me stage ⟨bank, board, j'⟩).bare := by
  cases stage <;> rfl

end CoilJob

/-- The platform without its lights and without the journal. -/
def Platform.bare (p : Platform) : Platform := { p with panel := p.panel.bare, lights := .empty }

/-- The call that does the same but to the lights. -/
def Call.plain : Call → Call
  | .reset => .disableCoils ⟨none⟩
  | call => call

/-- The outcome without what it says of coils that have been disabled and of lights. -/
def Outcome.plain : Outcome → Outcome
  | .ok (.coils _) | .ok (.light _) => .ok .done
  | outcome => outcome

namespace Task

/-- The task that does the same but to the lights. -/
def plain : Task → Task
  | .start call => .start call.plain
  | .sweep s => .sweep { s with lights := none }
  | task => task

/-- What a step comes to, without the lights and the journal. -/
def seen (x : Step) : Step := (x.1.map plain Outcome.plain, x.2.bare)

variable {me : TaskId} {now : Nat} {p : Platform}

theorem seen_ite {c : Prop} [Decidable c] {x x' y y' : Step} (hx : seen x = seen x') (hy : seen y = seen y') :
    seen (if c then x else y) = seen (if c then x' else y') := by
  split
  · exact hx
  · exact hy

theorem bare_startFades (p : Platform) (targets : List Lighting) (fadeMs : UInt32) :
    (p.startFades targets fadeMs).bare = p.bare := by
  suffices h : ∀ q : Platform,
      (targets.foldl (fun q t => q.note (.fadeStarted t.1 t.2 fadeMs)) q).bare = q.bare from h p
  induction targets with
  | nil => exact fun _ => rfl
  | cons t targets ih => exact fun q => ih _

/-- Fades are started alike whatever is lit. -/
theorem finish_startFades (targets : List Lighting) (fadeMs : UInt32) :
    seen (finish (p.bare.startFades targets fadeMs) (.ok .done)) =
      seen (finish (p.startFades targets fadeMs) (.ok .done)) :=
  Prod.ext rfl ((bare_startFades p.bare targets fadeMs).trans (bare_startFades p targets fadeMs).symm)

theorem enter_bare (call : Call) : seen (enter call.plain me p.bare) = seen (enter call me p) := by
  cases call with
  | report r | pulse r | enable r | disable r =>
      simp only [Call.plain, enter]
      cases r.validate <;> rfl
  | switchState n =>
      simp only [Call.plain, enter]
      cases Check.number .switch n <;> rfl
  | coilState n =>
      simp only [Call.plain, enter]
      cases Check.number .coil n <;> rfl
  | lightState n =>
      simp only [Call.plain, enter, Platform.lightState]
      cases Check.number .light n <;> rfl
  | fadeChannels r =>
      simp only [Call.plain, enter, Platform.fadeChannels]
      cases r.validate with
      | error e => rfl
      | ok fade => exact finish_startFades ..
  | fadeRgb r =>
      simp only [Call.plain, enter, Platform.fadeRgb]
      cases r.validate with
      | error e => rfl
      | ok fade => exact finish_startFades ..
  | fadeSingle r =>
      simp only [Call.plain, enter, Platform.fadeSingle]
      cases r.validate with
      | error e => rfl
      | ok fade => exact finish_startFades ..
  | configureRule r =>
      simp only [Call.plain, enter, Platform.configureRule]
      cases r.validate <;> rfl
  | removeRule r =>
      simp only [Call.plain, enter, Platform.removeRule]
      cases r.validate with
      | error e => rfl
      | ok key =>
          have hrules : p.bare.rules = p.rules := rfl
          simp only [bind, Except.bind, hrules]
          rfl
  | registerDevice r =>
      simp only [Call.plain, enter, Platform.registerDevice]
      cases r.validate <;> rfl
  | _ => rfl

/-- Work on a coil goes on alike. -/
theorem coilStep_bare (job : CoilJob) (stage : CoilStage) (me : TaskId) (now : Nat) (p : Platform) :
    ∃ progress q q', coilStep job stage me now p.bare = (progress, q) ∧
      coilStep job stage me now p = (progress, q') ∧ q.bare = q'.bare := by
  have hjob := Prod.mk.inj (job.step_bare me now stage p.panel.bank p.panel.board [] p.panel.journal)
  refine ⟨(job.step me now stage p.panel).1, _, _, Prod.ext hjob.1 rfl, rfl, ?_⟩
  exact congrArg (fun panel => ({ p with panel, lights := .empty } : Platform)) hjob.2

theorem applyReport_bare (t : Transition) : seen (applyReport t p.bare) = seen (applyReport t p) := by
  have hswitches : p.bare.switches = p.switches := rfl
  simp only [applyReport, hswitches]
  cases (p.switches.switch t.switch).report t.isActive t.timestamp with
  | error stale => rfl
  | ok x => exact seen_ite rfl rfl

/-- A task is at work alike whatever is lit and whatever the journal says. -/
theorem step_bare (task : Task) : seen (task.plain.step me now p.bare) = seen (task.step me now p) := by
  match task with
  | .start call => exact enter_bare call
  | .coil job stage =>
      obtain ⟨progress, q, q', hs, hs', hq⟩ := coilStep_bare job stage me now p
      simp only [plain, step, hs, hs']
      exact Prod.ext rfl hq
  | .sweep ⟨lights, [], stage, disabled, failure⟩ =>
      cases failure with
      | some e => rfl
      | none => cases lights <;> rfl
  | .sweep ⟨lights, c :: rest, stage, disabled, failure⟩ =>
      obtain ⟨progress, q, q', hs, hs', hq⟩ := coilStep_bare (.disable c) stage me now p
      simp only [plain, step, stepSweep, hs, hs']
      rcases progress with _ | _ | ⟨_ | _⟩ <;> exact Prod.ext rfl hq
  | .report t .inLine => exact seen_ite (applyReport_bare t) rfl
  | .report t (.firing [] stage) => rfl
  | .report t (.firing (rule :: others) stage) =>
      obtain ⟨progress, q, q', hs, hs', hq⟩ := coilStep_bare (.fire rule) stage me now p
      simp only [plain, step, stepReport, hs, hs']
      rcases progress with _ | _ | ⟨_ | _⟩ <;> exact Prod.ext rfl hq
  | .readSwitch n => exact seen_ite rfl rfl
  | .snapshot found [] inLine => rfl
  | .snapshot found (n :: rest) false => rfl
  | .snapshot found (n :: rest) true => exact seen_ite rfl rfl

theorem abandon_bare (task : Task) : (task.plain.abandon me p.bare).bare = (task.abandon me p).bare := by
  have hjob (job : CoilJob) (stage : CoilStage) (switches : SwitchRegistry) :
      ({ p with panel := job.abandon me stage p.panel.bare, switches } : Platform).bare =
        ({ p with panel := job.abandon me stage p.panel, switches } : Platform).bare :=
    congrArg (fun panel => ({ p with panel, switches, lights := .empty } : Platform))
      (job.abandon_bare me stage p.panel.bank p.panel.board [] p.panel.journal)
  match task with
  | .start call => rfl
  | .coil job stage => exact hjob job stage p.switches
  | .sweep ⟨lights, [], stage, disabled, failure⟩ => rfl
  | .sweep ⟨lights, c :: rest, stage, disabled, failure⟩ => exact hjob (.disable c) stage p.switches
  | .report t .inLine => rfl
  | .report t (.firing [] stage) => rfl
  | .report t (.firing (rule :: others) stage) => exact hjob (.fire rule) stage (p.switches.leave t.switch me)
  | .readSwitch n => rfl
  | .snapshot found [] inLine => rfl
  | .snapshot found (n :: rest) false => rfl
  | .snapshot found (n :: rest) true => rfl

end Task

namespace Platform

theorem bare_noteSubscription (p : Platform) (id : SubscriptionId) (stream : ChangeStream) :
    (p.noteSubscription id stream).bare = { p.bare with stream } := by
  unfold noteSubscription
  dsimp only
  split <;> rfl

theorem bare_recv (p : Platform) (id : SubscriptionId) :
    (p.recv id).2.bare = { p.bare with stream := (p.stream.recv id).2 } := by
  have hnoted := p.bare_noteSubscription id (p.stream.recv id).2
  unfold recv
  generalize p.stream.recv id = got at hnoted
  dsimp only
  split <;> exact hnoted

theorem outside_bare (e : Outside) (p : Platform) : (outside e p.bare).bare = (outside e p).bare := by
  cases e with
  | recv id => exact (p.bare.bare_recv id).trans (p.bare_recv id).symm
  | close id => exact (p.bare.bare_noteSubscription id _).trans (p.bare_noteSubscription id _).symm
  | _ => rfl

/-- The platforms at work that have neither lights nor a journal. -/
def bareScene : Scene Platform Task Outcome Call Outside where
  workings := { Task.workings with
    step := fun me now task p => Task.seen (task.step me now p)
    abandon := fun me task p => (task.abandon me p).bare }
  enter := .start
  outside := fun e p => (outside e p).bare

/-- Without the lights and the journal a run is the run of the plain calls. -/
theorem likeness_bare (p : Platform) (events : List (Event Call Outside)) :
    World.Likeness bare (fun _ => Task.plain) (fun _ => Outcome.plain) (scene.run (.ofState p) events)
      (bareScene.run (.ofState p.bare) (events.map (Event.map Call.plain id))) := by
  induction events using List.reverseRecOn with
  | nil => exact .ofState p
  | append_singleton events e ih =>
      rw [List.map_append, Scene.run_append, Scene.run_append]
      refine ih.next scene bareScene _ id e (fun _ _ => rfl) ?_ ?_ ?_
      · exact fun _ task _ _ => Task.step_bare task
      · exact fun _ task _ _ => Task.abandon_bare task
      · exact fun o _ => outside_bare o _

section Alike

variable (p : Platform) {events events' : List (Event Call Outside)}
  (h : events.map (Event.map Call.plain id) = events'.map (Event.map Call.plain id)) (i : TaskId)

include h

theorem results_alike : ((scene.run (.ofState p) events).results[i]?).map Outcome.plain =
    ((scene.run (.ofState p) events').results[i]?).map Outcome.plain := by
  have hlike := (likeness_bare p events).results i
  rw [h] at hlike
  exact hlike.symm.trans ((likeness_bare p events').results i)

/-- In runs that differ only in that some calls are resets in one and disable all coils in the other, the same
calls have failed, and with the same errors. -/
theorem fails_alike (e : PlatformError) : (scene.run (.ofState p) events).results[i]? = some (.error e) ↔
    (scene.run (.ofState p) events').results[i]? = some (.error e) := by
  have hplain (o : Option Outcome) : o.map Outcome.plain = some (.error e) ↔ o = some (.error e) := by
    match o with
    | none => simp
    | some (.error e') => simp [Outcome.plain]
    | some (.ok a) => cases a <;> simp [Outcome.plain]
  rw [← hplain, results_alike p h i, hplain]

/-- The same calls have succeeded as well. -/
theorem succeeds_alike : (∃ a, (scene.run (.ofState p) events).results[i]? = some (.ok a)) ↔
    ∃ a, (scene.run (.ofState p) events').results[i]? = some (.ok a) := by
  have hplain (o : Option Outcome) : (∃ a, o.map Outcome.plain = some (.ok a)) ↔ ∃ a, o = some (.ok a) := by
    match o with
    | none => simp
    | some (.error e') => simp [Outcome.plain]
    | some (.ok a) => cases a <;> simp [Outcome.plain]
  rw [← hplain, results_alike p h i, hplain]

end Alike
end Platform
end Playfield
