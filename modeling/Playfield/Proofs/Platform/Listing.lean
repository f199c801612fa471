import Playfield.Proofs.Platform.Known

/-! What is listed. Over a run, the known switches and coils are exactly those that were named, and whoever
lists the switches or disables the coils goes through all that there were when the call began. -/
namespace Playfield

namespace Task

/-- A bulk disable goes on with its first target, until it is through with it. -/
theorem next_of_sweep {s : Sweep} {me : TaskId} {now : Nat} {p q : Platform} {task : Task}
    (h : (Task.sweep s).step me now p = (.next task, q)) :
    ∃ target rest, s.targets = target :: rest ∧ ((∃ stage, task = .sweep { s with stage }) ∨
      ∃ r panel, (CoilJob.disable target).step me now s.stage p.panel = (.finished r, panel) ∧
        task = .sweep (advance s rest r)) := by
  obtain ⟨lights, targets, stage, disabled, failure⟩ := s
  cases targets with
  | nil =>
      simp only [step, stepSweep, finishSweep] at h
      split at h <;> cases h
  | cons target rest =>
      refine ⟨target, rest, rfl, ?_⟩
      rcases hj : (CoilJob.disable target).step me now stage p.panel with ⟨progress, panel⟩
      simp only [step, stepSweep, coilStep, hj] at h
      cases progress with
      | blocked => cases h
      | next stage' =>
          cases h
          exact .inl ⟨stage', rfl⟩
      | finished r =>
          cases h
          exact .inr ⟨r, panel, rfl, rfl⟩

theorem finished_of_sweep {s : Sweep} {me : TaskId} {now : Nat} {p : Platform} {r : Outcome}
    (h : ((Task.sweep s).step me now p).1 = .finished r) :
    s.targets = [] ∧ ∀ a, r = .ok a → s.failure = none ∧ (s.lights = none → a = .coils s.disabled) := by
  obtain ⟨lights, targets, stage, disabled, failure⟩ := s
  cases targets with
  | cons target rest =>
      simp only [step, stepSweep] at h
      split at h <;> cases h
  | nil =>
      refine ⟨rfl, ?_⟩
      rintro a rfl
      simp only [step, stepSweep, finishSweep] at h
      split at h <;> cases h
      · exact ⟨rfl, fun _ => rfl⟩
      · exact ⟨rfl, fun hl => absurd hl (Option.some_ne_none _)⟩

end Task

/-- The command for one coil that a call comes to, if its request passes the check. -/
def Call.command? : Call → Option CoilJob
  | .pulse r => r.validate.toOption.map .pulse
  | .enable r => r.validate.toOption.map .enable
  | .disable r => r.validate.toOption.map .disable
  | _ => none

namespace Task

/-- The next step of a task of a call is to ask for the lock of a coil in order to actuate it: for a command,
for a rule that a report fires, or for a bulk disable. -/
inductive Addresses : Call → Task → CoilNumber → Prop
  | commands {call job} : call.command? = some job → Addresses call (.coil job .start) job.coil
  | fires {r t rule others} : r.validate = .ok t →
      Addresses (.report r) (.report t (.firing (rule :: others) .start)) rule.coil
  | disables {call s c rest} : (call = .reset ∨ ∃ r, call = .disableCoils r) → s.targets = c :: rest →
      s.stage = .start → Addresses call (.sweep s) c

variable {call : Call} {job : CoilJob} {me : TaskId} {now : Nat} {p q : Platform} {task : Task}

theorem isRead_of_command? (h : call.command? = some job) : job.isRead = false := by
  cases call with
  | pulse r | enable r | disable r =>
      obtain ⟨command, -, rfl⟩ := Option.map_eq_some_iff.mp h
      rfl
  | _ => cases h

theorem toOption_eq_some {ε α : Type} {r : Except ε α} {a : α} : r.toOption = some a ↔ r = .ok a := by
  cases r <;> simp [Except.toOption]

theorem enter_of_command? (h : call.command? = some job) (me : TaskId) (p : Platform) :
    enter call me p = (.next (.coil job .start), p) := by
  cases call with
  | pulse r | enable r | disable r =>
      obtain ⟨command, hv, rfl⟩ := Option.map_eq_some_iff.mp h
      simp only [enter, toOption_eq_some.mp hv]
      rfl
  | _ => cases h

/-- Whoever works on one coil does so for a command, or to read the coil. -/
theorem command?_of_enter {stage : CoilStage} (h : enter call me p = (.next (.coil job stage), q))
    (ha : job.isRead = false) : call.command? = some job := by
  have hentered := enter_entered call me p
  rw [h] at hentered
  have hstems := hentered.stems
  cases hstems with
  | @pulse r command =>
      simp only [enter] at h
      cases hv : r.validate <;> rw [hv] at h <;> cases h
      simp [Call.command?, hv, Except.toOption]
  | @enable r command =>
      simp only [enter] at h
      cases hv : r.validate <;> rw [hv] at h <;> cases h
      simp [Call.command?, hv, Except.toOption]
  | @disable r c =>
      simp only [enter] at h
      cases hv : r.validate <;> rw [hv] at h <;> cases h
      simp [Call.command?, hv, Except.toOption]
  | coilState => cases ha

/-- What a task is of a call, and if it works on one coil other than to read it, then with the command that
the call has come to. -/
structure Carries (call : Call) (task : Task) : Prop where
  stems : Stems call task
  command : ∀ job stage, task = .coil job stage → job.isRead = false → call.command? = some job

theorem Carries.step {task' : Task} (h : Carries call task) (hs : task.step me now p = (.next task', q)) :
    Carries call task' := by
  refine ⟨stems_step h.stems hs, ?_⟩
  rintro job stage rfl ha
  match task, h, hs with
  | .start call', h, hs =>
      cases h.stems
      exact command?_of_enter hs ha
  | .coil job' stage', h, hs =>
      obtain ⟨stage'', ht⟩ := coil_of_next hs
      cases ht
      exact h.command job stage' rfl ha
  | .sweep s, _, hs =>
      obtain ⟨s', ht⟩ := sweep_of_next hs
      cases ht
  | .report t stage', _, hs =>
      obtain ⟨stage'', ht⟩ := report_of_next hs
      cases ht
  | .readSwitch s, _, hs =>
      simp only [Task.step, finish] at hs
      split at hs <;> cases hs
  | .snapshot found rest inLine, _, hs =>
      obtain ⟨_, _, _, ht⟩ := snapshot_of_next hs
      cases ht

theorem Carries.coil_of_command? (h : Carries call task) (hj : call.command? = some job) :
    task = .start call ∨ ∃ stage, task = .coil job stage := by
  have hcommand := h.command
  cases h.stems with
  | start => exact .inl rfl
  | pulse | enable | disable =>
      cases (hcommand _ _ rfl rfl).symm.trans hj
      exact .inr ⟨_, rfl⟩
  | report | readSwitch | snapshot | coilState | disableCoils | reset => cases hj

theorem Carries.seeks_iff (h : Carries call task) {c : CoilNumber} : task.Seeks c ↔ Addresses call task c := by
  constructor
  · rintro ⟨job, hj, ha, rfl⟩
    have hstems := h.stems
    match task, hj, hstems with
    | .coil job' stage, hj, _ =>
        cases hj
        exact .commands (h.command job .start rfl ha)
    | .sweep s, hj, hstems =>
        obtain ⟨target, ht, hx⟩ := Option.map_eq_some_iff.mp hj
        obtain ⟨rest, hrest⟩ := List.head?_eq_some_iff.mp ht
        obtain ⟨rfl, hs⟩ := Prod.mk.inj hx
        refine .disables ?_ hrest hs
        cases hstems with
        | disableCoils => exact .inr ⟨_, rfl⟩
        | reset => exact .inl rfl
    | .report t (.firing (rule :: others) stage), hj, hstems =>
        cases hj
        cases hstems with
        | report hv => exact .fires hv
  · intro hc
    cases hc with
    | commands hj => exact ⟨_, rfl, isRead_of_command? hj, rfl⟩
    | fires => exact ⟨_, rfl, rfl, rfl⟩
    | disables _ ht hs => exact ⟨.disable c, by simp [job?, ht, hs], rfl, rfl⟩

end Task

namespace Platform

variable {p : Platform}

/-- Nothing has been asked of a platform yet, so that what all runs keep holds at the start. -/
structure Idle (p : Platform) : Prop where
  lists : Lists (.ofState p)
  good : (World.ofState p : World Platform Task Outcome).worksite.Good

theorem idle_ofConfig (config : PlatformConfig) (board : BoardConfig) (clock : Clock)
    (startedAt : Timestamp) : Idle (.ofConfig config (.ofConfig board) clock startedAt) where
  lists := ⟨run_kept config board clock startedAt [], fun id task h => by simp [World.ofState] at h⟩
  good := run_good config board clock startedAt []

section Run

variable (hp : p.Idle) (events : List (Event Call Outside)) {id : TaskId}

include hp

theorem Idle.run_lists : Lists (scene.run (.ofState p) events) :=
  scene.run_invariant (P := Lists) (fun _ e h => h.next e) hp.lists events

theorem Idle.run_good : (scene.run (.ofState p) events).worksite.Good :=
  hp.good.reaches (run_reaches (World.sound_ofState p) events)

theorem Idle.brings_switch (n : SwitchNumber) :
    scene.Brings (fun w => n ∈ w.state.switches.slots) (Names n) (scene.run (.ofState p) events) :=
  (hp.run_lists events).brings n

theorem Idle.brings_coil (c : CoilNumber) : scene.Brings (fun w => c ∈ w.state.panel.bank.slots)
    (fun _ _ task => task.Seeks c) (scene.run (.ofState p) events) :=
  Platform.brings_coil (hp.run_good events) c

end Run

/-- In the run of `events`, the call of the task `id` took its first step after the events `before`. -/
def Began (p : Platform) (events before : List (Event Call Outside)) (id : TaskId) (call : Call) : Prop :=
  (∃ after, events = before ++ .step id :: after) ∧
    (scene.run (.ofState p) before).running[id]? = some (.start call)

theorem Began.append {events before : List (Event Call Outside)} {id : TaskId} {call : Call}
    (h : Began p events before id call) (more : List (Event Call Outside)) :
    Began p (events ++ more) before id call := by
  obtain ⟨⟨after, rfl⟩, hr⟩ := h
  exact ⟨⟨after ++ more, by simp⟩, hr⟩

/-- The switches that a listing has found and those that it is still to find are those that were known when
it began. -/
theorem survey_splits (hp : p.Idle) (events : List (Event Call Outside)) {id : TaskId}
    {found : List Switch} {rest : List SwitchNumber} {inLine : Bool}
    (h : (scene.run (.ofState p) events).running[id]? = some (.snapshot found rest inLine)) :
    ∃ before, Began p events before id .switches ∧
      found.map (·.number) ++ rest = (scene.run (.ofState p) before).state.switches.known := by
  refine scene.run_each (Q := fun events id task => ∀ found rest inLine,
    task = .snapshot found rest inLine → ∃ before, Began p events before id .switches ∧
      found.map (·.number) ++ rest = (scene.run (.ofState p) before).state.switches.known)
    p ?_ ?_ ?_ events h found rest inLine rfl
  · intro events e id task _ hq found rest inLine ht
    obtain ⟨before, hbegan, hsplit⟩ := hq found rest inLine ht
    exact ⟨before, hbegan.append [e], hsplit⟩
  · intro events call found rest inLine ht
    cases ht
  · intro events id task task' st hr hq hs found rest inLine ht
    subst ht
    change task.step id _ _ = _ at hs
    obtain ⟨call, -, hstems⟩ := stems_of_running events hr
    have hs' := Task.stems_step hstems hs
    cases hs' with
    | snapshot =>
      cases hstems with
      | start =>
          -- The first step takes all the switches there are.
          cases hs
          exact ⟨events, ⟨⟨[], rfl⟩, hr⟩, rfl⟩
      | @snapshot found₀ rest₀ inLine₀ =>
          obtain ⟨before, hbegan, hsplit⟩ := hq found₀ rest₀ inLine₀ rfl
          refine ⟨before, hbegan.append [.step id], ?_⟩
          match rest₀, inLine₀ with
          | [], _ => cases hs
          | n :: rest₀, false =>
              cases hs
              exact hsplit
          | n :: rest₀, true =>
              -- What is found of the next switch bears its number.
              simp only [Task.step] at hs
              split at hs <;> cases hs
              have hn := (hp.run_lists events).numbered n
              rw [← hsplit, List.map_append, List.append_assoc]
              simp [hn]

theorem survey_answers (hp : p.Idle) (events : List (Event Call Outside)) {id : TaskId} {r : Outcome}
    (hc : (calls events)[id]? = some .switches)
    (hr : (scene.run (.ofState p) events).results[id]? = some r) :
    ∃ before found, Began p events before id .switches ∧ r = .ok (.switches found) ∧
      found.map (·.number) = (scene.run (.ofState p) before).state.switches.known := by
  obtain ⟨past, after, task, rfl, ht, hs⟩ := scene.finished_of_run p events hr
  obtain ⟨call, hc', hstems⟩ := stems_of_running past ht
  cases (Scene.getElem?_calls_append hc' _).symm.trans hc
  have hfinal : (task.step id _ _).1 = .finished r := congrArg Prod.fst hs
  cases hstems with
  | start => cases hfinal
  | @snapshot found rest inLine =>
      obtain ⟨before, hbegan, hsplit⟩ := survey_splits hp past ht
      refine ⟨before, found, hbegan.append _, ?_⟩
      match rest, inLine with
      | [], _ =>
          cases hfinal
          exact ⟨rfl, by rw [← hsplit, List.append_nil]⟩
      | n :: rest, false => cases hfinal
      | n :: rest, true =>
          simp only [Task.step] at hfinal
          split at hfinal <;> cases hfinal

/-- The coils that a call is to disable. -/
def targets (p : Platform) : Call → List CoilNumber
  | .disableCoils r => p.disableTargets r
  | .reset => p.disableTargets ⟨none⟩
  | _ => []

/-- How far a bulk disable has come with the coils that it is to disable: those that it is through with are
known, and unless one of them failed, it has them all. -/
structure Through (known : CoilNumber → Prop) (targets : List CoilNumber) (s : Sweep) : Prop where
  split : ∃ handled, targets = handled ++ s.targets ∧ (∀ c ∈ handled, known c) ∧
    (s.failure = none → s.disabled.map (·.number) = handled)

theorem Through.mono {known known' : CoilNumber → Prop} {targets : List CoilNumber} {s : Sweep}
    (h : Through known targets s) (hmono : ∀ c, known c → known' c) : Through known' targets s := by
  obtain ⟨handled, hsplit, hknown, hdisabled⟩ := h.split
  exact ⟨handled, hsplit, fun c hc => hmono c (hknown c hc), hdisabled⟩

theorem Through.advance {known : CoilNumber → Prop} {targets rest : List CoilNumber} {s : Sweep}
    {target : CoilNumber} {r : CoilJob.Result} (h : Through known targets s)
    (ht : s.targets = target :: rest) (hk : known target) (hr : ∀ k, r = .ok k → k.number = target) :
    Through known targets (Task.advance s rest r) := by
  obtain ⟨handled, hsplit, hknown, hdisabled⟩ := h.split
  refine ⟨handled ++ [target], ?_, ?_, ?_⟩
  · rw [hsplit, ht, List.append_assoc]
    cases r <;> rfl
  · intro c hc
    rcases List.mem_append.mp hc with hc | hc
    · exact hknown c hc
    · exact List.mem_singleton.mp hc ▸ hk
  · intro hf
    cases r with
    | ok k => simp [Task.advance, hdisabled hf, hr k rfl]
    | error e =>
        simp only [Task.advance] at hf
        cases hs : s.failure <;> rw [hs] at hf <;> cases hf

/-- In the run of `events`, the bulk disable of the task `id` has come to `s`. -/
def Sweeping (p : Platform) (events : List (Event Call Outside)) (id : TaskId) (s : Sweep) : Prop :=
  ∃ before call, Began p events before id call ∧ (∀ r, call = .disableCoils r → s.lights = none) ∧
    Through (· ∈ (scene.run (.ofState p) events).state.panel.bank.slots)
      ((scene.run (.ofState p) before).state.targets call) s

namespace Sweeping

variable {events : List (Event Call Outside)} {id : TaskId} {s : Sweep}

theorem append (hp : p.Idle) (h : Sweeping p events id s) (more : List (Event Call Outside)) :
    Sweeping p (events ++ more) id s := by
  obtain ⟨before, call, hbegan, hlights, hthrough⟩ := h
  exact ⟨before, call, hbegan.append more, hlights, hthrough.mono fun c hc => Scene.run_mono (hp.brings_coil · c) more hc⟩

theorem first {call : Call} {now : Nat} {q : Platform}
    (hr : (scene.run (.ofState p) events).running[id]? = some (.start call))
    (hs : (Task.start call).step id now (scene.run (.ofState p) events).state = (.next (.sweep s), q)) :
    Sweeping p (events ++ [.step id]) id s := by
  refine ⟨events, call, ⟨⟨[], rfl⟩, hr⟩, ?_⟩
  have hstems := Task.stems_step .start hs
  cases hstems with
  | disableCoils =>
      cases hs
      exact ⟨fun _ _ => rfl, [], rfl, nofun, fun _ => rfl⟩
  | reset =>
      cases hs
      exact ⟨nofun, [], rfl, nofun, fun _ => rfl⟩

theorem step (hp : p.Idle) (h : Sweeping p events id s) {s' : Sweep} {q : Platform}
    (hr : (scene.run (.ofState p) events).running[id]? = some (.sweep s))
    (hs : (Task.sweep s).step id (scene.run (.ofState p) events).now
      (scene.run (.ofState p) events).state = (.next (.sweep s'), q)) :
    Sweeping p (events ++ [.step id]) id s' := by
  have hgood := hp.run_good events
  obtain ⟨before, call, hbegan, hlights, hthrough⟩ := h.append hp [.step id]
  obtain ⟨target, rest, ht, ⟨stage, he⟩ | ⟨r, panel, hj, he⟩⟩ := Task.next_of_sweep hs
  · cases he
    exact ⟨before, call, hbegan, hlights, ⟨hthrough.split⟩⟩
  · cases he
    have hjob : (Task.sweep s).job? = some (.disable target, s.stage) := by simp [Task.job?, ht]
    have hknown := coil_after_step hgood hr hjob rfl
    refine ⟨before, call, hbegan, ?_, hthrough.advance ht ?_ ?_⟩
    · cases r <;> exact hlights
    · rw [Scene.run_append]
      exact hknown
    · rintro k rfl
      exact (CoilJob.StepsTo.of_step hgood.orderly.numbered hj).number hgood.orderly.numbered

end Sweeping

theorem sweeping_of_running (hp : p.Idle) (events : List (Event Call Outside)) {id : TaskId} {s : Sweep}
    (h : (scene.run (.ofState p) events).running[id]? = some (.sweep s)) : Sweeping p events id s := by
  refine scene.run_each (Q := fun events id task => ∀ s, task = .sweep s → Sweeping p events id s)
    p ?_ ?_ ?_ events h s rfl
  · exact fun events e id task _ hq s ht => (hq s ht).append hp [e]
  · intro events call s ht
    cases ht
  · intro events id task task' st hr hq hs s ht
    subst ht
    change task.step id _ _ = _ at hs
    obtain ⟨call, -, hstems⟩ := stems_of_running events hr
    have hs' := Task.stems_step hstems hs
    cases hs' with
    | disableCoils =>
      cases hstems with
      | start => exact .first hr hs
      | disableCoils => exact (hq _ rfl).step hp hr hs
    | reset =>
      cases hstems with
      | start => exact .first hr hs
      | reset => exact (hq _ rfl).step hp hr hs

theorem carries_of_running (events : List (Event Call Outside)) {id : TaskId} {task : Task}
    (h : (scene.run (.ofState p) events).running[id]? = some task) :
    ∃ call, (calls events)[id]? = some call ∧ Task.Carries call task :=
  scene.run_origin (Q := Task.Carries) (fun _ => ⟨.start, nofun⟩) (fun _ _ _ _ _ _ _ h hs => h.step hs)
    p events h

theorem Began.call {events before : List (Event Call Outside)} {id : TaskId} {call : Call}
    (h : Began p events before id call) : (calls events)[id]? = some call := by
  obtain ⟨⟨after, rfl⟩, hr⟩ := h
  obtain ⟨call', hc, hstems⟩ := stems_of_running before hr
  cases hstems
  exact Scene.getElem?_calls_append hc _

theorem command_known (hp : p.Idle) (events : List (Event Call Outside)) {id : TaskId} {call : Call}
    {job : CoilJob} {r : Outcome} (hc : (calls events)[id]? = some call)
    (hr : (scene.run (.ofState p) events).results[id]? = some r) (hj : call.command? = some job) :
    job.coil ∈ (scene.run (.ofState p) events).state.panel.bank.slots := by
  obtain ⟨before, after, task, rfl, ht, hs⟩ := scene.finished_of_run p events hr
  have hfinal : (task.step id _ _).1 = .finished r := congrArg Prod.fst hs
  obtain ⟨call', hc', hcarries⟩ := carries_of_running before ht
  cases (Scene.getElem?_calls_append hc' _).symm.trans hc
  obtain ⟨stage, rfl⟩ : ∃ stage, task = .coil job stage := by
    refine (hcarries.coil_of_command? hj).resolve_left ?_
    rintro rfl
    cases (congrArg Prod.fst (Task.enter_of_command? hj id _)).symm.trans hfinal
  have hafter := coil_after_step (hp.run_good before) ht rfl (Task.isRead_of_command? hj)
  rw [show before ++ .step id :: after = before ++ [.step id] ++ after by simp]
  refine Scene.run_mono (hp.brings_coil · job.coil) after ?_
  rw [Scene.run_append]
  exact hafter

/-- A bulk disable is through with all its coils in the end, and answers with them unless one failed. -/
theorem sweep_ends (hp : p.Idle) (events : List (Event Call Outside)) {id : TaskId} {call : Call}
    {r : Outcome} (hc : (calls events)[id]? = some call)
    (hr : (scene.run (.ofState p) events).results[id]? = some r)
    (hcall : call = .reset ∨ ∃ q, call = .disableCoils q) :
    ∃ before, Began p events before id call ∧
      (∀ c ∈ (scene.run (.ofState p) before).state.targets call,
        c ∈ (scene.run (.ofState p) events).state.panel.bank.slots) ∧
      ∀ q a, call = .disableCoils q → r = .ok a → ∃ coils, a = .coils coils ∧
        coils.map (·.number) = (scene.run (.ofState p) before).state.targets call := by
  obtain ⟨past, after, task, rfl, ht, hs⟩ := scene.finished_of_run p events hr
  have hfinal : (task.step id _ _).1 = .finished r := congrArg Prod.fst hs
  obtain ⟨call', hc', hstems⟩ := stems_of_running past ht
  cases (Scene.getElem?_calls_append hc' _).symm.trans hc
  obtain ⟨s, rfl⟩ : ∃ s, task = .sweep s := by
    rcases hcall with rfl | ⟨q, rfl⟩
    · cases hstems with
      | start => cases hfinal
      | @reset s => exact ⟨s, rfl⟩
    · cases hstems with
      | start => cases hfinal
      | @disableCoils _ s => exact ⟨s, rfl⟩
  obtain ⟨hnil, hanswer⟩ := Task.finished_of_sweep hfinal
  have hsweeping := (sweeping_of_running hp past ht).append hp (.step id :: after)
  obtain ⟨before, call', hbegan, hlights, hthrough⟩ := hsweeping
  cases hbegan.call.symm.trans hc
  obtain ⟨handled, hsplit, hknown, hdisabled⟩ := hthrough.split
  rw [hnil, List.append_nil] at hsplit
  refine ⟨before, hbegan, fun c hc => hknown c (hsplit ▸ hc), ?_⟩
  rintro q a hq rfl
  obtain ⟨hf, ha⟩ := hanswer a rfl
  exact ⟨s.disabled, ha (hlights q hq), by rw [hsplit, hdisabled hf]⟩

/-- A switch is known exactly if a call has named it with its first step. -/
theorem switch_known_iff (hp : p.Idle) (events : List (Event Call Outside)) {n : SwitchNumber}
    (hn : n ∉ p.switches.slots) :
    n ∈ (scene.run (.ofState p) events).state.switches.slots ↔
      ∃ before id call, Began p events before id call ∧
        call.switch? (scene.run (.ofState p) (before ++ [.step id])).results[id]? = some n := by
  rw [Scene.run_brought (hp.brings_switch · n) hn events]
  constructor
  · rintro ⟨before, after, id, task, rfl, hr, call, rfl, hs⟩
    exact ⟨before, id, call, ⟨⟨after, rfl⟩, hr⟩, by rwa [Scene.run_append]⟩
  · rintro ⟨before, id, call, ⟨⟨after, rfl⟩, hr⟩, hs⟩
    exact ⟨before, after, id, _, rfl, hr, call, rfl, by rwa [Scene.run_append] at hs⟩

/-- A coil is known exactly if a task has taken a step by which it was about to actuate the coil. -/
theorem coil_known_iff (hp : p.Idle) (events : List (Event Call Outside)) {c : CoilNumber}
    (hc : c ∉ p.panel.bank.slots) :
    c ∈ (scene.run (.ofState p) events).state.panel.bank.slots ↔
      ∃ before after id task call, events = before ++ .step id :: after ∧
        (scene.run (.ofState p) before).running[id]? = some task ∧ (calls before)[id]? = some call ∧
        Task.Addresses call task c := by
  rw [Scene.run_brought (hp.brings_coil · c) hc events]
  constructor
  · rintro ⟨before, after, id, task, rfl, hr, hs⟩
    obtain ⟨call, hcall, hcarries⟩ := carries_of_running before hr
    exact ⟨before, after, id, task, call, rfl, hr, hcall, hcarries.seeks_iff.mp hs⟩
  · rintro ⟨before, after, id, task, call, rfl, hr, hcall, ha⟩
    obtain ⟨call', hcall', hcarries⟩ := carries_of_running before hr
    cases hcall.symm.trans hcall'
    exact ⟨before, after, id, task, rfl, hr, hcarries.seeks_iff.mpr ha⟩

/-- What is known of the switches after the run of `events`. -/
structure KnowsSwitches (p : Platform) (events : List (Event Call Outside)) : Prop where
  /-- Every switch is listed once, in order. -/
  ordered : (scene.run (.ofState p) events).state.switches.known.Pairwise fun a b => compare a b = .lt
  lasting : ∀ more, (scene.run (.ofState p) events).state.switches.known ⊆
    (scene.run (.ofState p) (events ++ more)).state.switches.known
  /-- A switch is known if a call has named it, with its first step. -/
  exactly : ∀ n, n ∈ (scene.run (.ofState p) events).state.switches.known ↔
    ∃ before id call, Began p events before id call ∧
      call.switch? (scene.run (.ofState p) (before ++ [.step id])).results[id]? = some n
  /-- Whoever lists the switches gets those that were known when the call began. -/
  listed : ∀ (id : TaskId) (r : Outcome), (calls events)[id]? = some .switches →
    (scene.run (.ofState p) events).results[id]? = some r →
    ∃ before found, Began p events before id .switches ∧ r = .ok (.switches found) ∧
      found.map (·.number) = (scene.run (.ofState p) before).state.switches.known

/-- What is known of the coils after the run of `events`. -/
structure KnowsCoils (p : Platform) (events : List (Event Call Outside)) : Prop where
  /-- Every coil is listed once, in order. -/
  ordered : (scene.run (.ofState p) events).state.panel.bank.known.Pairwise fun a b => compare a b = .lt
  lasting : ∀ more, (scene.run (.ofState p) events).state.panel.bank.known ⊆
    (scene.run (.ofState p) (events ++ more)).state.panel.bank.known
  /-- A coil is known if a task has taken a step by which it was about to actuate the coil. -/
  exactly : ∀ c, c ∈ (scene.run (.ofState p) events).state.panel.bank.known ↔
    ∃ before after id task call, events = before ++ .step id :: after ∧
      (scene.run (.ofState p) before).running[id]? = some task ∧ (calls before)[id]? = some call ∧
      Task.Addresses call task c
  /-- The coil of a command is known once the command has had its answer, whichever that is. -/
  commanded : ∀ (id : TaskId) (r : Outcome) (call : Call) (job : CoilJob), (calls events)[id]? = some call →
    (scene.run (.ofState p) events).results[id]? = some r → call.command? = some job →
    job.coil ∈ (scene.run (.ofState p) events).state.panel.bank.known
  /-- So is every coil that a bulk disable or a reset was to disable. -/
  swept : ∀ (id : TaskId) (r : Outcome) (call : Call), (calls events)[id]? = some call →
    (scene.run (.ofState p) events).results[id]? = some r → (call = .reset ∨ ∃ q, call = .disableCoils q) →
    ∃ before, Began p events before id call ∧ (scene.run (.ofState p) before).state.targets call ⊆
      (scene.run (.ofState p) events).state.panel.bank.known

variable (config : PlatformConfig) (board : BoardConfig) (clock : Clock) (startedAt : Timestamp)

/-- The switches and the coils that a platform knows are exactly those that calls have named so far. -/
theorem knows_what_was_named (events : List (Event Call Outside)) :
    let p := Platform.ofConfig config (.ofConfig board) clock startedAt
    p.KnowsSwitches events ∧ p.KnowsCoils events := by
  intro p
  have hp : p.Idle := idle_ofConfig config board clock startedAt
  refine ⟨⟨SwitchRegistry.pairwise_known, fun more n hn => ?_, fun n => ?_, fun id r hc hr => ?_⟩,
    ⟨CoilBank.pairwise_known, fun more c hc => ?_, fun c => ?_, fun id r call job hc hr hj => ?_,
      fun id r call hc hr hcall => ?_⟩⟩
  · rw [SwitchRegistry.mem_known] at hn ⊢
    exact Scene.run_mono (hp.brings_switch · n) more hn
  · rw [SwitchRegistry.mem_known]
    exact switch_known_iff hp events Std.ExtTreeMap.not_mem_empty
  · exact survey_answers hp events hc hr
  · rw [CoilBank.mem_known] at hc ⊢
    exact Scene.run_mono (hp.brings_coil · c) more hc
  · rw [CoilBank.mem_known]
    exact coil_known_iff hp events Std.ExtTreeMap.not_mem_empty
  · exact CoilBank.mem_known.mpr (command_known hp events hc hr hj)
  · obtain ⟨before, hbegan, hknown, -⟩ := sweep_ends hp events hc hr hcall
    exact ⟨before, hbegan, fun c hc => CoilBank.mem_known.mpr (hknown c hc)⟩

end Platform
end Playfield
