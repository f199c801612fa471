import Playfield.Proofs.Coil.Record
import Playfield.Proofs.Platform.Effects
import Playfield.Proofs.Run

/-! The platform as a worksite. Whatever a call does, it reaches the coils through one job at a time, so
that every run of a platform, with calls given up anywhere and a board that comes and goes, is a run of
moves at its coil panel. -/
namespace Playfield

namespace Platform

/-- What happens to a platform without a call. -/
inductive Outside where
  | online (online : Bool)
  | clock (clock : Clock)
  | subscribe
  | recv (id : SubscriptionId)
  | close (id : SubscriptionId)
  | drop (id : SubscriptionId)
  | shutdown

def outside : Outside → Platform → Platform
  | .online online, p => p.setOnline online
  | .clock clock, p => { p with clock }
  | .subscribe, p => p.subscribe.2
  | .recv id, p => (p.recv id).2
  | .close id, p => p.closeSubscription id
  | .drop id, p => p.dropSubscription id
  | .shutdown, p => p.shutdown

def scene : Scene Platform Task Outcome Call Outside where
  workings := Task.workings
  enter := .start
  outside := outside

def atRest (config : PlatformConfig) (board : BoardConfig) (clock : Clock) (startedAt : Timestamp) :
    World Platform Task Outcome :=
  .ofState (.ofConfig config (.ofConfig board) clock startedAt)

/-- Nothing happens at the coils, except that the journal may get entries about other things. -/
def Quiet (p q : Platform) : Prop :=
  ∃ j, Journal.attempts j = p.panel.journal.attempts ∧ q.panel = { p.panel with journal := j }

namespace Quiet

variable {p q r : Platform}

theorem of_panel_eq (h : q.panel = p.panel) : p.Quiet q := ⟨p.panel.journal, rfl, h⟩

theorem refl (p : Platform) : p.Quiet p := of_panel_eq rfl

theorem trans (h : p.Quiet q) (h' : q.Quiet r) : p.Quiet r := by
  obtain ⟨j, hj, hq⟩ := h
  obtain ⟨j', hj', hr⟩ := h'
  refine ⟨j', ?_, ?_⟩
  · rw [hj', hq, hj]
  · rw [hr, hq]

theorem bank (h : p.Quiet q) : q.panel.bank = p.panel.bank := by
  obtain ⟨j, -, hq⟩ := h
  rw [hq]

theorem notes (p : Platform) (notices : List Notice) : p.Quiet (p.notes notices) :=
  ⟨p.panel.journal ++ notices.map Entry.noted, by simp, rfl⟩

theorem note (p : Platform) (notice : Notice) : p.Quiet (p.note notice) := notes p [notice]

theorem of_serves {call : Call} {answer : Answer} (h : p.Serves call answer q) : p.Quiet q := by
  obtain ⟨switches, rules, devices, lights, notices, -, rfl⟩ := h.eq
  exact (of_panel_eq rfl).trans (notes _ notices)

end Quiet

/-- Without a call, the board comes or goes, time passes or something happens at the stream, but nothing is
published. -/
theorem outside_eq (e : Outside) (p : Platform) : ∃ online clock stream notices,
    stream.sequence = p.stream.sequence ∧ outside e p =
      ({ p with
        panel := { p.panel with board := p.panel.board.setOnline online }
        clock
        stream } : Platform).notes notices := by
  cases e with
  | online online => exact ⟨online, p.clock, p.stream, [.boardAvailability online], rfl, rfl⟩
  | clock clock => exact ⟨p.panel.board.online, clock, p.stream, [], rfl, (notes_nil _).symm⟩
  | subscribe => exact ⟨p.panel.board.online, p.clock, p.stream.subscribe.2, [.subscriptionOpened], rfl, rfl⟩
  | recv id =>
      obtain ⟨notices, hq⟩ := p.recv_eq id
      exact ⟨p.panel.board.online, p.clock, (p.stream.recv id).2, notices,
        ChangeStream.sequence_recv p.stream id, hq⟩
  | close id =>
      obtain ⟨notices, hq⟩ := p.noteSubscription_eq id (p.stream.close id)
      exact ⟨p.panel.board.online, p.clock, p.stream.close id, notices, rfl, hq⟩
  | drop id => exact ⟨p.panel.board.online, p.clock, p.stream.drop id, [], rfl, (notes_nil _).symm⟩
  | shutdown => exact ⟨p.panel.board.online, p.clock, p.stream.shutdown, [.streamShutDown _], rfl, rfl⟩

theorem bank_outside (e : Outside) (p : Platform) : (outside e p).panel.bank = p.panel.bank := by
  obtain ⟨online, clock, stream, notices, -, hq⟩ := outside_eq e p
  rw [hq]
  rfl

end Platform

namespace Task

/-- The job that a task has in hand, and how far that has come. -/
def job? : Task → Option (CoilJob × CoilStage)
  | .coil job stage => some (job, stage)
  | .sweep s => s.targets.head?.map fun target => (.disable target, s.stage)
  | .report _ (.firing rules stage) => rules.head?.map fun rule => (.fire rule, stage)
  | .start _ | .report _ .inLine | .readSwitch _ | .snapshot _ _ _ => none

/-- Whether a task has no job in hand that has gone beyond its start. -/
def IsFresh (task : Task) : Prop := ∀ x ∈ task.job?, x.2 = .start

/-- A step away from the coils: it is quiet, and a job is only taken up. -/
structure QuietStep (p : Platform) (step : Step) : Prop where
  quiet : p.Quiet step.2
  fresh : ∀ task, step.1 = .next task → task.IsFresh

section Enter

variable {p q : Platform}

theorem quietStep_finish {outcome : Outcome} (h : p.Quiet q) : QuietStep p (finish q outcome) :=
  ⟨h, fun _ ht => by cases ht⟩

theorem quietStep_next {task : Task} (h : p.Quiet q) (ht : task.IsFresh) :
    QuietStep p (.next task, q) :=
  ⟨h, fun _ he => by cases he; exact ht⟩

theorem isFresh_coil (job : CoilJob) : (Task.coil job .start).IsFresh := by
  rintro _ ⟨⟩
  rfl

theorem isFresh_of_none {task : Task} (h : task.job? = none) : task.IsFresh := by
  intro x hx
  rw [h] at hx
  cases hx

theorem isFresh_sweep {s : Sweep} (h : s.stage = .start) : (Task.sweep s).IsFresh := by
  intro x hx
  obtain ⟨target, -, rfl⟩ := Option.map_eq_some_iff.mp hx
  exact h

theorem isFresh_fireRules (t : Transition) (rules : List HardwareRule) :
    (Task.report t (.firing rules .start)).IsFresh := by
  intro x hx
  obtain ⟨rule, -, rfl⟩ := Option.map_eq_some_iff.mp hx
  rfl

theorem enter_quietStep (call : Call) (me : TaskId) (p : Platform) :
    QuietStep p (enter call me p) := by
  have h := enter_entered call me p
  generalize enter call me p = step at h ⊢
  cases h with
  | refused => exact quietStep_finish (.refl p)
  | served h => exact quietStep_finish (.of_serves h)
  | commands => exact quietStep_next (.refl p) (isFresh_coil _)
  | sweeps => exact quietStep_next (.refl p) (isFresh_sweep rfl)
  | resets => exact quietStep_next (.of_panel_eq rfl) (isFresh_sweep rfl)
  | surveys => exact quietStep_next (.refl p) (isFresh_of_none rfl)
  | reports => exact quietStep_next (.of_panel_eq rfl) (isFresh_of_none rfl)
  | reads => exact quietStep_next (.of_panel_eq rfl) (isFresh_of_none rfl)

end Enter

section Step

variable {me : TaskId} {now : Nat} {task : Task} {p : Platform} {job : CoilJob} {stage : CoilStage}

theorem step_quietStep (h : task.job? = none) : QuietStep p (task.step me now p) := by
  match task, h with
  | .start call, _ => exact enter_quietStep call me p
  | .sweep ⟨lights, [], stage, done, failure⟩, _ =>
      simp only [step, stepSweep, finishSweep]
      split
      · exact quietStep_finish (.refl p)
      · exact quietStep_finish (.refl p)
      · exact quietStep_finish (.note _ _)
  | .report t .inLine, _ =>
      simp only [step, stepReport]
      split
      · simp only [applyReport]
        split
        · exact quietStep_finish (.trans (.note _ _) (.of_panel_eq rfl))
        · split
          · exact quietStep_next (.of_panel_eq rfl) (isFresh_fireRules _ _)
          · exact quietStep_finish (.trans (.of_panel_eq rfl) (.trans (.note _ _) (.of_panel_eq rfl)))
      · exact ⟨.refl p, fun _ ht => by cases ht⟩
  | .report t (.firing [] stage), _ =>
      refine quietStep_finish ⟨p.panel.journal ++ [.published _], ?_, rfl⟩
      simp
  | .readSwitch switch, _ =>
      simp only [step]
      split
      · exact quietStep_finish (.of_panel_eq rfl)
      · exact ⟨.refl p, fun _ ht => by cases ht⟩
  | .snapshot found [] inLine, _ => exact quietStep_finish (.refl p)
  | .snapshot found (switch :: rest) false, _ =>
      exact quietStep_next (.of_panel_eq rfl) (isFresh_of_none rfl)
  | .snapshot found (switch :: rest) true, _ =>
      simp only [step]
      split
      · exact quietStep_next (.of_panel_eq rfl) (isFresh_of_none rfl)
      · exact ⟨.refl p, fun _ ht => by cases ht⟩

/-- How the step of a task follows the step of the job that it has in hand. -/
def Follows (job : CoilJob) : Progress CoilStage CoilJob.Result → Progress Task Outcome → Prop
  | .blocked, progress => progress = .blocked
  | .next stage, progress => ∃ task, progress = .next task ∧ task.job? = some (job, stage)
  | .finished _, progress => ∀ task, progress = .next task → task.IsFresh

/-- A task with a job in hand goes on with that job, and may add to the journal. -/
theorem step_follows (h : task.job? = some (job, stage)) :
    Follows job (job.step me now stage p.panel).1 (task.step me now p).1 ∧
      ({ p with panel := (job.step me now stage p.panel).2 } : Platform).Quiet
        (task.step me now p).2 := by
  rcases hs : job.step me now stage p.panel with ⟨progress, panel⟩
  match task, h with
  | .coil job' stage', h =>
      cases h
      simp only [step, coilStep, hs]
      cases progress with
      | blocked => exact ⟨rfl, .refl _⟩
      | next g => exact ⟨⟨_, rfl, rfl⟩, .refl _⟩
      | finished r =>
          refine ⟨?_, .refl _⟩
          intro _ ht
          cases ht
  | .sweep ⟨lights, target :: rest, stage', done, failure⟩, h =>
      cases h
      simp only [step, stepSweep, coilStep, hs]
      cases progress with
      | blocked => exact ⟨rfl, .refl _⟩
      | next g => exact ⟨⟨_, rfl, rfl⟩, .refl _⟩
      | finished r =>
          cases r with
          | ok k =>
              refine ⟨?_, .refl _⟩
              rintro _ ⟨⟩
              exact isFresh_sweep rfl
          | error e =>
              refine ⟨?_, .note _ _⟩
              rintro _ ⟨⟩
              exact isFresh_sweep rfl
  | .report t (.firing (rule :: others) stage'), h =>
      cases h
      simp only [step, stepReport, coilStep, hs]
      cases progress with
      | blocked => exact ⟨rfl, .refl _⟩
      | next g => exact ⟨⟨_, rfl, rfl⟩, .refl _⟩
      | finished r =>
          cases r with
          | ok k =>
              refine ⟨?_, .refl _⟩
              rintro _ ⟨⟩
              exact isFresh_fireRules _ _
          | error e =>
              refine ⟨?_, .note _ _⟩
              rintro _ ⟨⟩
              exact isFresh_fireRules _ _

theorem panel_abandon :
    (task.abandon me p).panel =
      task.job?.elim p.panel fun x => x.1.abandon me x.2 p.panel := by
  match task with
  | .start call => rfl
  | .coil job stage => rfl
  | .sweep ⟨lights, [], stage, done, failure⟩ => rfl
  | .sweep ⟨lights, target :: rest, stage, done, failure⟩ => rfl
  | .report t .inLine => rfl
  | .report t (.firing [] stage) => rfl
  | .report t (.firing (rule :: others) stage) => rfl
  | .readSwitch switch => rfl
  | .snapshot found [] inLine => rfl
  | .snapshot found (switch :: rest) false => rfl
  | .snapshot found (switch :: rest) true => rfl

end Step

section Panel

variable {me : TaskId} {now : Nat} {p q : Platform}

theorem coilStep_eq {job : CoilJob} {stage : CoilStage} {progress : Progress CoilStage CoilJob.Result}
    (h : coilStep job stage me now p = (progress, q)) : ∃ panel, q = { p with panel } :=
  ⟨_, (congrArg Prod.snd h).symm⟩

/-- A bulk disable changes only what has to do with coils. -/
theorem stepSweep_eq (s : Sweep) (me : TaskId) (now : Nat) (p : Platform) :
    ∃ panel, (stepSweep s me now p).2 = { p with panel } := by
  obtain ⟨lights, targets, stage, done, failure⟩ := s
  cases targets with
  | nil =>
      simp only [stepSweep, finishSweep]
      split <;> exact ⟨_, rfl⟩
  | cons target rest =>
      rcases hs : coilStep (.disable target) stage me now p with ⟨progress, q⟩
      obtain ⟨panel, rfl⟩ := coilStep_eq hs
      simp only [stepSweep, hs]
      cases progress with
      | blocked => exact ⟨panel, rfl⟩
      | next stage' => exact ⟨panel, rfl⟩
      | finished r => cases r <;> exact ⟨_, rfl⟩

/-- So does a report that fires its rules. -/
theorem fire_eq (t : Transition) (rule : HardwareRule) (others : List HardwareRule) (stage : CoilStage)
    (me : TaskId) (now : Nat) (p : Platform) :
    ∃ panel, (stepReport t (.firing (rule :: others) stage) me now p).2 = { p with panel } := by
  rcases hs : coilStep (.fire rule) stage me now p with ⟨progress, q⟩
  obtain ⟨panel, rfl⟩ := coilStep_eq hs
  simp only [stepReport, hs]
  cases progress with
  | blocked => exact ⟨panel, rfl⟩
  | next stage' => exact ⟨panel, rfl⟩
  | finished r => cases r <;> exact ⟨_, rfl⟩

end Panel
end Task
end Playfield
