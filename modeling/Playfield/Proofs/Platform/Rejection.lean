import Playfield.Proofs.Platform.Changes

/-! Requests that are turned down. An error that is no fault of the hardware says that the request was not
carried out, and then nothing of it is to be seen, whatever else goes on. Most requests are turned down
before they do anything. A report is in line at the lock of its switch before it is found to be too old, and
a switch is known from its first report on: but a switch that nobody has reported yet has no report that
could be too old. -/
namespace Playfield

/-- Whether an error tells of the request itself, and not of the hardware. -/
def PlatformError.isRejection : PlatformError → Bool
  | .stale _ | .notFound _ | .range _ | .validation _ => true
  | .busy _ | .unavailable _ => false

/-- Whether a call was turned down. -/
def rejected : Outcome → Bool
  | .ok _ => false
  | .error e => e.isRejection

/-- What the next polls of a subscription would give, if nothing else happened. -/
def ChangeStream.polls (id : SubscriptionId) : Nat → ChangeStream → List Delivery
  | 0, _ => []
  | n + 1, s => (s.recv id).1 :: polls id n (s.recv id).2

/-- The state of a switch that is known. -/
def SwitchRegistry.known? (r : SwitchRegistry) (n : SwitchNumber) : Option Switch :=
  (r.slots[n]?).map (·.switch)

/-- Everything that can be found out about a platform. -/
structure Observation where
  switches : SwitchNumber → Option Switch
  coils : CoilNumber → Option Coil
  rules : List HardwareRule
  devices : List Device
  /-- What each light shows at any time. -/
  lights : LightNumber → UInt64 → LightState
  sequence : Nat
  /-- What so many polls of a subscription give. -/
  pending : SubscriptionId → Nat → List Delivery
  history : List Actuation
  outputs : CoilNumber → CoilDriver

namespace Platform

def observation (p : Platform) : Observation where
  switches := p.switches.known?
  coils n := (p.panel.bank.slots[n]?).map (·.coil)
  rules := p.rules.toList
  devices := p.devices.toList
  lights light now := (p.lights.read light now).1
  sequence := p.stream.sequence
  pending id n := p.stream.polls id n
  history := p.panel.board.history
  outputs := p.panel.board.driver

/-- At most locks and the journal differ. -/
structure Unseen (p q : Platform) : Prop where
  switches : ∀ n, q.switches.known? n = p.switches.known? n
  bank : q.panel.bank = p.panel.bank
  board : q.panel.board = p.panel.board
  rules : q.rules = p.rules
  devices : q.devices = p.devices
  lights : q.lights = p.lights
  stream : q.stream = p.stream

theorem Unseen.refl (p : Platform) : p.Unseen p := ⟨fun _ => rfl, rfl, rfl, rfl, rfl, rfl, rfl⟩

theorem Unseen.observation {p q : Platform} (h : p.Unseen q) : q.observation = p.observation := by
  have hswitches : q.switches.known? = p.switches.known? := funext h.switches
  unfold Platform.observation
  rw [hswitches, h.bank, h.board, h.rules, h.devices, h.lights, h.stream]

end Platform

namespace SwitchRegistry

variable {r : SwitchRegistry} {n m : SwitchNumber} {t : TaskId}

theorem known?_setSlot (x : SwitchSlot) :
    (r.setSlot n x).known? m = if n = m then some x.switch else r.known? m := by
  unfold setSlot known?
  rw [Map.getElem?_insert]
  split <;> rfl

theorem switch_of_known? {x : Switch} (h : r.known? n = some x) : r.switch n = x := by
  obtain ⟨stored, hs, rfl⟩ := Option.map_eq_some_iff.mp h
  rw [switch, slot, Std.ExtTreeMap.getD_eq_getD_getElem?, hs]
  rfl

theorem slot_of_unknown (h : r.known? n = none) : r.slot n = ⟨.inactive n, .free⟩ := by
  rw [slot, Std.ExtTreeMap.getD_eq_getD_getElem?, Option.map_eq_none_iff.mp h]
  rfl

/-- To come to the lock of a known switch, or to go, cannot be seen. -/
theorem known?_setLock (h : r.known? n ≠ none) (lock : Lock) :
    (r.setSlot n { r.slot n with lock }).known? m = r.known? m := by
  obtain ⟨x, hx⟩ := Option.ne_none_iff_exists'.mp h
  rw [known?_setSlot]
  split
  next hnm =>
    subst hnm
    rw [hx]
    exact congrArg some (switch_of_known? hx)
  next => rfl

end SwitchRegistry

namespace CoilJob

variable {p q : CoilPanel} {e : PlatformError}

theorem not_rejected_send {cause : Cause} {a : Actuation} (h : p.send cause a = (.error e, q)) :
    e.isRejection = false := by
  unfold CoilPanel.send at h
  split at h <;> cases h
  rfl

theorem not_rejected_act {job : CoilJob} {now : Nat} (h : job.act now p = (.finished (.error e), q)) :
    e.isRejection = false := by
  cases job with
  | read n => cases h
  | pulse c =>
    simp only [act] at h
    split at h
    next hs =>
      cases h
      exact not_rejected_send hs
    next => split at h <;> cases h
  | enable c =>
    simp only [act] at h
    split at h <;> cases h
    next hs => exact not_rejected_send hs
  | disable n =>
    simp only [act] at h
    split at h
    · cases h
    · split at h <;> cases h
      next hs => exact not_rejected_send hs
  | fire rule =>
    simp only [act] at h
    split at h <;> cases h
    next hs => exact not_rejected_send hs

/-- A job on a coil fails only for what others do with the coil, or for the hardware. -/
theorem not_rejected {job : CoilJob} {me : TaskId} {now : Nat} {stage : CoilStage}
    (h : job.step me now stage p = (.finished (.error e), q)) : e.isRejection = false := by
  cases stage with
  | start =>
    cases job with
    | read n =>
      simp only [step, enter] at h
      split at h <;> cases h
    | fire rule => cases h
    | pulse c | enable c | disable n =>
      simp only [step, enter] at h
      split at h <;> cases h
      rfl
  | inLine =>
    simp only [step] at h
    split at h
    · exact not_rejected_act h
    · cases h
  | cooling deadline =>
    simp only [step, coolDown] at h
    split at h
    · split at h <;> cases h
      next hs => exact not_rejected_send hs
    · cases h

end CoilJob

namespace Task

/-- The tasks that cannot be turned down any more. -/
def Sure : Task → Prop
  | .start _ | .report _ .inLine => False
  | .sweep s => ∀ e, s.failure = some e → e.isRejection = false
  | .coil _ _ | .report _ (.firing _ _) | .readSwitch _ | .snapshot _ _ _ => True

/-- What a step may come to that leads to no rejection. -/
def Spares : Progress Task Outcome → Prop
  | .blocked => True
  | .next task => task.Sure
  | .finished outcome => rejected outcome = false

variable {me : TaskId} {now : Nat} {task : Task} {p : Platform}

theorem spares_coil (job : CoilJob) (stage : CoilStage) :
    Spares ((Task.coil job stage).step me now p).1 := by
  rcases hs : job.step me now stage p.panel with ⟨progress, panel⟩
  simp only [step, coilStep, hs]
  cases progress with
  | blocked => trivial
  | next stage => trivial
  | finished result =>
    cases result with
    | ok coil => rfl
    | error e => exact CoilJob.not_rejected hs

theorem spares_sweep {s : Sweep} (h : (Task.sweep s).Sure) :
    Spares ((Task.sweep s).step me now p).1 := by
  obtain ⟨lights, targets, stage, disabled, failure⟩ := s
  cases targets with
  | nil =>
    cases failure with
    | some e => exact h e rfl
    | none => cases lights <;> rfl
  | cons target rest =>
    rcases hs : (CoilJob.disable target).step me now stage p.panel with ⟨progress, panel⟩
    simp only [step, stepSweep, coilStep, hs]
    cases progress with
    | blocked => trivial
    | next stage => exact h
    | finished result =>
      cases result with
      | ok coil => exact h
      | error e =>
        intro e' he'
        cases failure with
        | none =>
          cases he'
          exact CoilJob.not_rejected hs
        | some first => exact h e' he'

theorem Sure.step (h : task.Sure) : Spares (task.step me now p).1 := by
  match task, h with
  | .coil job stage, _ => exact spares_coil job stage
  | .sweep s, h => exact spares_sweep h
  | .report t (.firing [] stage), _ => rfl
  | .report t (.firing (rule :: others) stage), _ =>
    rcases hs : (CoilJob.fire rule).step me now stage p.panel with ⟨progress, panel⟩
    simp only [Task.step, stepReport, coilStep, hs]
    cases progress with
    | blocked => trivial
    | next stage => trivial
    | finished result => cases result <;> trivial
  | .readSwitch n, _ =>
    simp only [Task.step]
    split
    · rfl
    · trivial
  | .snapshot found [] inLine, _ => rfl
  | .snapshot found (n :: rest) false, _ => trivial
  | .snapshot found (n :: rest) true, _ =>
    simp only [Task.step]
    split <;> trivial

/-- What the first step of a call comes to. One that is turned down at once leaves the platform as it was,
and one that goes on cannot be turned down any more, unless it is a report. -/
inductive Enters (me : TaskId) (p : Platform) : Step → Prop
  | refused {e : PlatformError} : Enters me p (.finished (.error e), p)
  | done {answer : Answer} {q : Platform} : Enters me p (.finished (.ok answer), q)
  | sure {task : Task} {q : Platform} : task.Sure → Enters me p (.next task, q)
  | reports {t : Transition} : Enters me p
      (.next (.report t .inLine), { p with switches := p.switches.request t.switch me })

theorem enter_enters (call : Call) (me : TaskId) (p : Platform) : Enters me p (enter call me p) := by
  have h := enter_entered call me p
  generalize enter call me p = step at h ⊢
  cases h with
  | refused => exact .refused
  | served => exact .done
  | commands | surveys | reads => exact .sure trivial
  | sweeps | resets => exact .sure fun e he => absurd he.symm (Option.some_ne_none e)
  | reports => exact .reports

end Task

namespace Platform

variable {p : Platform} {n : SwitchNumber}

theorem unseen_setLock (h : p.switches.known? n ≠ none) (lock : Lock) :
    p.Unseen { p with switches := p.switches.setSlot n { p.switches.slot n with lock } } :=
  ⟨fun _ => SwitchRegistry.known?_setLock h lock, rfl, rfl, rfl, rfl, rfl, rfl⟩

/-- A switch that was reported is known. -/
theorem known_of_reported {last : UInt64} (h : (p.switches.switch n).lastReportedAt = some last) :
    p.switches.known? n ≠ none := by
  intro hn
  rw [SwitchRegistry.switch, SwitchRegistry.slot_of_unknown hn] at h
  cases h

end Platform

namespace SwitchDesk

variable {y z : SwitchDesk} {t u : TaskId}

/-- Who holds the lock and stays is not disturbed by others: nobody else changes the switch. -/
theorem Manned.undisturbed (h : y.Manned) (hm : y.Move z) (hh : y.lock.holder = some t)
    (ht : y.errands t = some .asks) (ht' : z.errands t = some .asks) :
    z.lock.holder = some t ∧ z.switch = y.switch := by
  cases hm with
  | @arrives u hu => exact ⟨Lock.holder_request hh, rfl⟩
  | @leaves u hu =>
    have hne : u ≠ t := by
      rintro rfl
      simp at ht'
    exact ⟨Lock.holder_leave hh hne, rfl⟩
  | @repeats u timestamp hu hholder =>
    cases hh.symm.trans hholder
    simp at ht'
  | @changes u flip hu hholder =>
    cases hh.symm.trans hholder
    simp at ht'
  | @publishes u event hu => exact absurd hu (h.no_change hh ht)

end SwitchDesk

namespace Platform

/-- A task that will not be turned down: it cannot be any more, it holds the lock of a switch that nobody
has reported yet, or it is over. -/
inductive Spared (w : World Platform Task Outcome) (id : TaskId) : Prop
  | sure {task : Task} : w.running[id]? = some task → task.Sure → Spared w id
  | first {t : Transition} : w.running[id]? = some (.report t .inLine) →
      (w.state.switches.lock t.switch).holder = some id →
      (w.state.switches.switch t.switch).lastReportedAt = none → Spared w id
  | done {outcome : Outcome} : w.results[id]? = some outcome → rejected outcome = false → Spared w id
  | gone : id < w.nextId → w.running[id]? = none → w.results[id]? = none → Spared w id

variable {w : World Platform Task Outcome} {id : TaskId}

/-- What a step comes to, seen from the task that takes it. -/
theorem spared_of_spares {task : Task} (hr : w.running[id]? = some task)
    (hne : (task.step id w.now w.state).1 ≠ .blocked)
    (h : Task.Spares (task.step id w.now w.state).1) : Spared (w.step Task.workings id) id := by
  rcases hs : task.step id w.now w.state with ⟨progress, q⟩
  rw [hs] at h hne
  cases progress with
  | blocked => exact absurd rfl hne
  | next task' =>
    rw [World.step_of_next (k := Task.workings) hr hs]
    exact .sure ((Map.getElem?_insert ..).trans (if_pos rfl)) h
  | finished outcome =>
    rw [World.step_of_finished (k := Task.workings) hr hs]
    exact .done ((Map.getElem?_insert ..).trans (if_pos rfl)) h

/-- A report that gets to its switch is too old for what the switch shows, or will not be turned down. -/
theorem unseen_or_spares {t : Transition} {p q : Platform} {progress : Progress Task Outcome}
    (h : Task.Applies t p (progress, q)) :
    (∃ last, (p.switches.switch t.switch).lastReportedAt = some last) ∧ p.Unseen q ∨
      Task.Spares progress := by
  cases h with
  | stale hstale =>
    cases hstale with
    | stale hlast =>
      refine .inl ⟨⟨_, hlast⟩, ?_⟩
      have hq := unseen_setLock (known_of_reported hlast) (p.switches.slot t.switch).lock.release
      exact ⟨hq.switches, rfl, rfl, rfl, rfl, rfl, rfl⟩
  | repeats => exact .inr rfl
  | changes => exact .inr trivial

/-- The first report of a switch is not too old. -/
theorem spares_first {t : Transition} {me : TaskId} {now : Nat} {p : Platform}
    (h : (p.switches.switch t.switch).lastReportedAt = none) :
    Task.Spares ((Task.report t .inLine).step me now p).1 := by
  simp only [Task.step, Task.stepReport]
  split
  · rcases unseen_or_spares (Task.applyReport_applies t p) with ⟨⟨last, hlast⟩, -⟩ | hspares
    · cases h.symm.trans hlast
    · exact hspares
  · trivial

theorem unseen_or_spared_enter {call : Call} (hr : w.running[id]? = some (.start call)) :
    w.state.Unseen (w.step Task.workings id).state ∨ Spared (w.step Task.workings id) id := by
  have henters := Task.enter_enters call id w.state
  rcases hs : Task.enter call id w.state with ⟨progress, q⟩
  have hstep : Task.workings.step id w.now (.start call) w.state = (progress, q) := hs
  rw [hs] at henters
  cases henters with
  | refused =>
    rw [World.step_of_finished hr hstep]
    exact .inl (.refl _)
  | done =>
    rw [World.step_of_finished hr hstep]
    exact .inr (.done ((Map.getElem?_insert ..).trans (if_pos rfl)) rfl)
  | sure hsure =>
    rw [World.step_of_next hr hstep]
    exact .inr (.sure ((Map.getElem?_insert ..).trans (if_pos rfl)) hsure)
  | @reports t =>
    rw [World.step_of_next hr hstep]
    by_cases hknown : w.state.switches.known? t.switch = none
    · -- the switch becomes known with this step, but its first report cannot be too old
      have hslot := SwitchRegistry.slot_of_unknown hknown
      refine .inr (.first (t := t) ((Map.getElem?_insert ..).trans (if_pos rfl)) ?_ ?_)
      · show ((w.state.switches.request t.switch id).lock t.switch).holder = some id
        rw [SwitchRegistry.lock_request, if_pos rfl, SwitchRegistry.lock, hslot]
        rfl
      · show ((w.state.switches.request t.switch id).switch t.switch).lastReportedAt = none
        rw [SwitchRegistry.switch_request, SwitchRegistry.switch, hslot]
        rfl
    · exact .inl (unseen_setLock hknown _)

/-- Where a task may be that is not sure. -/
def Undecided (task : Task) : Prop := (∃ call, task = .start call) ∨ ∃ t, task = .report t .inLine

theorem unseen_or_spared (h : ∀ task, w.running[id]? = some task → Undecided task ∨ task.Sure) :
    w.state.Unseen (w.step Task.workings id).state ∨ Spared (w.step Task.workings id) id := by
  cases hr : w.running[id]? with
  | none =>
    rw [World.step_of_none hr]
    exact .inl (.refl _)
  | some task =>
    rcases hs : task.step id w.now w.state with ⟨progress, q⟩
    by_cases hblocked : progress = .blocked
    · subst hblocked
      rw [World.step_of_blocked (k := Task.workings) hr hs]
      exact .inl (.refl _)
    have hne : (task.step id w.now w.state).1 ≠ .blocked := by rwa [hs]
    have hstate : (w.step Task.workings id).state = q := by
      cases progress with
      | blocked => exact absurd rfl hblocked
      | next task' => rw [World.step_of_next (k := Task.workings) hr hs]
      | finished outcome => rw [World.step_of_finished (k := Task.workings) hr hs]
    rcases h task hr with (⟨call, rfl⟩ | ⟨t, rfl⟩) | hsure
    · exact unseen_or_spared_enter hr
    · rcases unseen_or_spares (Task.applies_of_step hs hblocked) with ⟨-, hq⟩ | hspares
      · exact .inl (hstate ▸ hq)
      · exact .inr (spared_of_spares hr hne (by rwa [hs]))
    · exact .inr (spared_of_spares hr hne hsure.step)

/-- What an event does to a task that it is not about. -/
theorem next_frame {e : Event Call Outside} (hid : id < w.nextId) (hstep : e ≠ .step id)
    (habandon : e ≠ .abandon id) : (scene.next w e).running[id]? = w.running[id]? ∧
      (scene.next w e).results[id]? = w.results[id]? := by
  cases e with
  | call call => exact ⟨(Map.getElem?_insert ..).trans (if_neg (Nat.ne_of_gt hid)), rfl⟩
  | step i => exact World.step_frame fun hi => hstep (by rw [hi])
  | abandon i =>
    have hi : i ≠ id := fun hi => habandon (by rw [hi])
    obtain ⟨-, hw⟩ | ⟨task, -, hw⟩ := World.abandon_cases Task.workings w i
    · exact ⟨congrArg (fun w => w.running[id]?) hw, congrArg (fun w => w.results[id]?) hw⟩
    · refine ⟨(congrArg (fun w => w.running[id]?) hw).trans ?_, congrArg (fun w => w.results[id]?) hw⟩
      exact (Map.getElem?_erase ..).trans (if_neg hi)
  | pass ms => exact ⟨rfl, rfl⟩
  | outside event => exact ⟨rfl, rfl⟩

theorem Spared.lt (h : Spared w id) (hw : w.Sound) : id < w.nextId := by
  cases h with
  | sure hr | first hr => exact hw.running_lt id (World.mem_of_running hr)
  | done hr => exact hw.results_lt id (Std.ExtTreeMap.mem_iff_isSome_getElem?.mpr (by rw [hr]; rfl))
  | gone hid => exact hid

/-- A report that holds the lock of a switch is not disturbed by what is not its own. -/
theorem Kept.undisturbed (h : Kept w) {e : Event Call Outside} {t : Transition}
    (hr : w.running[id]? = some (.report t .inLine))
    (hr' : (scene.next w e).running[id]? = some (.report t .inLine))
    (hh : (w.state.switches.lock t.switch).holder = some id) :
    ((scene.next w e).state.switches.lock t.switch).holder = some id ∧
      (scene.next w e).state.switches.switch t.switch = w.state.switches.switch t.switch := by
  have hasks {w : World Platform Task Outcome} (hr : w.running[id]? = some (.report t .inLine)) :
      (w.desk t.switch).errands id = some .asks := by
    rw [World.errands_of_running hr]
    exact if_pos rfl
  have hmanned := h.manned t.switch
  rcases next_desk h.sound h.numbered e t.switch with hy | hmove | ⟨i, -, hloss⟩
  · exact ⟨(congrArg (fun y => y.lock.holder) hy).trans hh, congrArg SwitchDesk.switch hy⟩
  · exact hmanned.undisturbed hmove hh (hasks hr) (hasks hr')
  · -- only a report that has changed the switch can lose anything, and such a one holds the lock
    obtain ⟨flip, hf⟩ := hloss.errand
    exact absurd hf (hmanned.no_change hh (hasks hr))

theorem Spared.step (h : Kept w) (hs : Spared w id) : Spared (w.step Task.workings id) id := by
  have hrun {task : Task} (hr : w.running[id]? = some task)
      (hspares : Task.Spares (task.step id w.now w.state).1) :
      (task.step id w.now w.state).1 = .blocked ∨ Spared (w.step Task.workings id) id := by
    by_cases hb : (task.step id w.now w.state).1 = .blocked
    · exact .inl hb
    · exact .inr (spared_of_spares hr hb hspares)
  have hstay {task : Task} (hr : w.running[id]? = some task)
      (hb : (task.step id w.now w.state).1 = .blocked) : w.step Task.workings id = w :=
    World.step_of_blocked (s := (task.step id w.now w.state).2) hr (Prod.ext hb rfl)
  cases hs with
  | sure hr hsure =>
    rcases hrun hr hsure.step with hb | hnext
    · rw [hstay hr hb]
      exact .sure hr hsure
    · exact hnext
  | first hr hh hnone =>
    rcases hrun hr (spares_first hnone) with hb | hnext
    · rw [hstay hr hb]
      exact .first hr hh hnone
    · exact hnext
  | done hr hrej => exact .done (scene.next_results h.sound hr (.step id)) hrej
  | gone hid hr hres =>
    rw [World.step_of_none hr]
    exact .gone hid hr hres

theorem Spared.abandon (h : Kept w) (hs : Spared w id) : Spared (w.abandon Task.workings id) id := by
  have hleft {task : Task} (hr : w.running[id]? = some task) :
      Spared (w.abandon Task.workings id) id := by
    obtain ⟨hnone, -⟩ | ⟨_, -, hw⟩ := World.abandon_cases Task.workings w id
    · cases hr.symm.trans hnone
    · rw [hw]
      refine .gone (hs.lt h.sound) ?_ (h.sound.result_of_running hr)
      exact (Map.getElem?_erase ..).trans (if_pos rfl)
  cases hs with
  | sure hr => exact hleft hr
  | first hr => exact hleft hr
  | done hr hrej => exact .done (scene.next_results h.sound hr (.abandon id)) hrej
  | gone hid hr hres =>
    obtain ⟨-, hw⟩ | ⟨_, hsome, -⟩ := World.abandon_cases Task.workings w id
    · rw [hw]
      exact .gone hid hr hres
    · cases hr.symm.trans hsome

theorem Spared.next (h : Kept w) (hs : Spared w id) (e : Event Call Outside) :
    Spared (scene.next w e) id := by
  by_cases hstep : e = .step id
  · subst hstep
    exact hs.step h
  by_cases habandon : e = .abandon id
  · subst habandon
    exact hs.abandon h
  obtain ⟨hrunning, hresults⟩ := next_frame (hs.lt h.sound) hstep habandon
  cases hs with
  | sure hr hsure => exact .sure (hrunning.trans hr) hsure
  | first hr hh hnone =>
    obtain ⟨hh', hswitch⟩ := h.undisturbed hr (hrunning.trans hr) hh
    exact .first (hrunning.trans hr) hh' (hswitch ▸ hnone)
  | done hr hrej => exact .done (hresults.trans hr) hrej
  | gone hid hr hres =>
    refine .gone (Nat.lt_of_lt_of_le hid ?_) (hrunning.trans hr) (hresults.trans hres)
    rw [scene.next_nextId]
    exact Nat.le_add_right _ _

theorem Spared.run (h : Kept w) (hs : Spared w id) (events : List (Event Call Outside)) :
    Spared (scene.run w events) id := by
  induction events generalizing w with
  | nil => exact hs
  | cons e events ih => exact ih (h.next e) (hs.next h e)

theorem Spared.not_rejected (h : Kept w) (hs : Spared w id) {outcome : Outcome}
    (hr : w.results[id]? = some outcome) : rejected outcome = false := by
  cases hs with
  | sure hrun | first hrun => cases (h.sound.result_of_running hrun).symm.trans hr
  | done hr' hrej =>
    cases hr'.symm.trans hr
    exact hrej
  | gone _ _ hres => cases hres.symm.trans hr

section Run

variable (config : PlatformConfig) (board : BoardConfig) (clock : Clock) (startedAt : Timestamp)

theorem run_decided (events : List (Event Call Outside)) {task : Task}
    (h : (scene.run (atRest config board clock startedAt) events).running[id]? = some task) :
    Undecided task ∨ task.Sure := by
  refine (scene.run_origin (Q := fun _ task => Undecided task ∨ task.Sure) ?_ ?_ _ events h).elim
    fun _ hq => hq.2
  · intro call
    exact .inl (.inl ⟨call, rfl⟩)
  · rintro _ i now task task' p q ((⟨call, rfl⟩ | ⟨t, rfl⟩) | hsure) hs
    · have henters : Task.Enters i p (.next task', q) := hs ▸ Task.enter_enters call i p
      cases henters with
      | sure hnext => exact .inr hnext
      | @reports t => exact .inl (.inr ⟨t, rfl⟩)
    · change Task.step i now (.report t .inLine) p = _ at hs
      cases Task.applies_of_step hs Progress.next_ne_blocked
      exact .inr trivial
    · have hnext : Task.Spares (task.step i now p).1 := hsure.step
      change Task.step i now task p = _ at hs
      rw [hs] at hnext
      exact .inr hnext

/-- A step of a call that is turned down in the end cannot be seen. -/
theorem unseen_step {before after : List (Event Call Outside)} {e : PlatformError}
    (hr : (scene.run (atRest config board clock startedAt) (before ++ .step id :: after)).results[id]? =
      some (.error e)) (he : e.isRejection = true) :
    (scene.run (atRest config board clock startedAt) before).state.Unseen
      (scene.run (atRest config board clock startedAt) (before ++ [.step id])).state := by
  have hkept := run_kept config board clock startedAt before
  have hdecided (task : Task)
      (h : (scene.run (atRest config board clock startedAt) before).running[id]? = some task) :
      Undecided task ∨ task.Sure := run_decided config board clock startedAt before h
  rw [Scene.run_append, Scene.run_cons] at hr
  rw [Scene.run_append, Scene.run_cons, Scene.run_nil]
  rcases unseen_or_spared hdecided with hunseen | hspared
  · exact hunseen
  · have hnext := hkept.next (.step id)
    have hend : Kept (scene.run (scene.next _ (.step id)) after) :=
      scene.run_invariant (P := Kept) (fun _ e h => h.next e) hnext after
    have hrej : e.isRejection = false := (hspared.run hnext after).not_rejected hend hr
    rw [hrej] at he
    cases he

/-- A call that is turned down has no effect. Whatever state the platform has reached and whatever goes on
meanwhile, none of its steps makes a difference to anything that can be found out; so if nothing else goes
on, everything is afterwards as it was before. -/
theorem rejected_is_unseen (before after : List (Event Call Outside)) (call : Call) (e : PlatformError)
    (he : e.isRejection = true) :
    let run := scene.run (atRest config board clock startedAt)
    let id := (calls before).length
    (run (before ++ .call call :: after)).results[id]? = some (.error e) →
      (∀ mid rest, after = mid ++ .step id :: rest →
        (run (before ++ .call call :: (mid ++ [.step id]))).state.observation =
          (run (before ++ .call call :: mid)).state.observation) ∧
      ((∀ x ∈ after, x = .step id ∨ ∃ ms, x = .pass ms) →
        (run (before ++ .call call :: after)).state.observation = (run before).state.observation) := by
  intro run id hr
  have hsplit (mid more : List (Event Call Outside)) :
      before ++ .call call :: (mid ++ more) = (before ++ .call call :: mid) ++ more := by simp
  have hstep (mid rest : List (Event Call Outside)) (hafter : after = mid ++ .step id :: rest) :
      (run (before ++ .call call :: (mid ++ [.step id]))).state.observation =
        (run (before ++ .call call :: mid)).state.observation := by
    rw [hafter, hsplit] at hr
    rw [hsplit]
    exact (unseen_step config board clock startedAt hr he).observation
  refine ⟨hstep, fun halone => ?_⟩
  have hprefix (mid rest : List (Event Call Outside)) (hafter : after = mid ++ rest) :
      (run (before ++ .call call :: mid)).state.observation = (run before).state.observation := by
    induction mid using List.reverseRecOn generalizing rest with
    | nil =>
      change (scene.run _ (before ++ [.call call])).state.observation = _
      rw [Scene.run_append]
      rfl
    | append_singleton mid x ih =>
      have hmid := ih (x :: rest) (by simp [hafter])
      rcases halone x (by simp [hafter]) with rfl | ⟨ms, rfl⟩
      · exact (hstep mid rest (by simp [hafter])).trans hmid
      · rw [hsplit]
        change (scene.run _ _).state.observation = _
        rw [Scene.run_append]
        exact hmid
  exact hprefix after [] (List.append_nil after).symm

end Run

/-- A second report that is older than the first one and waits in line behind it. -/
theorem rejected_is_unseen_behind_another :
    let run := scene.run (atRest .default .default ⟨0⟩ ⟨0, 0, 0⟩)
    let before : List (Event Call Outside) := [.call (.report ⟨"S1", true, 5⟩), .step 0]
    let after : List (Event Call Outside) := [.step 1, .step 0, .step 0, .step 1]
    let events := before ++ .call (.report ⟨"S1", false, 3⟩) :: after
    let stale : PlatformError := .stale ⟨⟨"S1", by decide⟩, 3, 5⟩
    (run events).results[1]? = some (.error stale) ∧
      (run events).state.observation =
        (run (before ++ [.call (.report ⟨"S1", false, 3⟩), .step 1, .step 0, .step 0])).state.observation ∧
      (run events).state.observation.switches ⟨"S1", by decide⟩ =
        some ⟨⟨"S1", by decide⟩, true, some 5, some 5⟩ := by
  intro run before after events stale
  have hr : (run events).results[1]? = some (.error stale) := by decide +kernel
  obtain ⟨hsteps, -⟩ := rejected_is_unseen .default .default ⟨0⟩ ⟨0, 0, 0⟩ before after
    (.report ⟨"S1", false, 3⟩) stale rfl hr
  exact ⟨hr, hsteps [.step 1, .step 0, .step 0] [] rfl, by decide +kernel⟩

end Platform
end Playfield
