import Mathlib.Logic.Relation
import Playfield.Proofs.Platform.Changes
import Playfield.Proofs.Platform.Worksite

/-! Who waits for whom. A task waits for the lock of one switch or of one coil at a time. Whoever has the lock
of a coil waits for nobody, and whoever has the lock of a switch waits at most for a coil, so every line of
waiting tasks is short and leads to one that goes on. -/
namespace Playfield

namespace CoilJob

variable {job : CoilJob} {me : TaskId} {now : Nat} {stage : CoilStage} {p : CoilPanel}

theorem step_ne_blocked (hn : p.bank.Numbered)
    (hl : stage = .inLine → (p.bank.lock job.coil).holder = some me)
    (hd : ∀ d, stage = .cooling d → d ≤ now) : (job.step me now stage p).1 ≠ .blocked := by
  rcases hs : job.step me now stage p with ⟨progress, q⟩
  rintro rfl
  cases StepsTo.of_step hn hs with
  | waits hw => exact hw (hl rfl)
  | cools hw => exact absurd (hd _ rfl) (Nat.not_le.mpr hw)

end CoilJob

namespace Task

variable {me : TaskId} {now : Nat} {task : Task} {p : Platform}

theorem step_ne_blocked_of_job {job : CoilJob} {stage : CoilStage} (h : task.job? = some (job, stage))
    (hb : (job.step me now stage p.panel).1 ≠ .blocked) : (task.step me now p).1 ≠ .blocked := by
  rcases hs : job.step me now stage p.panel with ⟨progress, panel⟩
  rw [hs] at hb
  match task, h with
  | .coil job stage, h =>
      cases h
      simp only [step, coilStep, hs]
      cases progress with
      | blocked => exact absurd rfl hb
      | next stage' => exact Progress.next_ne_blocked
      | finished r => exact Progress.finished_ne_blocked
  | .sweep ⟨lights, target :: rest, stage, done, failure⟩, h =>
      cases h
      simp only [step, stepSweep, coilStep, hs]
      cases progress with
      | blocked => exact absurd rfl hb
      | next stage' => exact Progress.next_ne_blocked
      | finished r => exact Progress.next_ne_blocked
  | .report t (.firing (rule :: others) stage), h =>
      cases h
      simp only [step, stepReport, coilStep, hs]
      cases progress with
      | blocked => exact absurd rfl hb
      | next stage' => exact Progress.next_ne_blocked
      | finished r => cases r <;> exact Progress.next_ne_blocked

/-- A task without work on a coil waits only for the lock of a switch. -/
theorem step_ne_blocked_of_errand (h : task.job? = none)
    (he : ∀ s, task.errand? s = some .asks → (p.switches.lock s).holder = some me) :
    (task.step me now p).1 ≠ .blocked := by
  match task, h with
  | .start call, _ =>
      have hentered := enter_entered call me p
      intro hb
      change (enter call me p).1 = _ at hb
      generalize enter call me p = step at hentered hb
      cases hentered <;> cases hb
  | .sweep ⟨lights, [], stage, done, failure⟩, _ =>
      simp only [step, stepSweep, finishSweep]
      split <;> exact Progress.finished_ne_blocked
  | .report t .inLine, _ =>
      have hh := SwitchRegistry.isHeldBy_iff.mpr (he t.switch (if_pos rfl))
      simp only [step, stepReport, if_pos hh]
      unfold applyReport
      split
      · exact Progress.finished_ne_blocked
      · dsimp only
        split
        · exact Progress.next_ne_blocked
        · exact Progress.finished_ne_blocked
  | .report t (.firing [] stage), _ => exact Progress.finished_ne_blocked
  | .readSwitch n, _ =>
      have hh := SwitchRegistry.isHeldBy_iff.mpr (he n (if_pos rfl))
      simp only [step, if_pos hh]
      exact Progress.finished_ne_blocked
  | .snapshot found [] inLine, _ => exact Progress.finished_ne_blocked
  | .snapshot found (n :: rest) false, _ => exact Progress.next_ne_blocked
  | .snapshot found (n :: rest) true, _ =>
      have hh := SwitchRegistry.isHeldBy_iff.mpr (he n (if_pos rfl))
      simp only [step, if_pos hh]
      exact Progress.next_ne_blocked

theorem switch_unique {s s' : SwitchNumber} {e e' : Errand} (h : task.errand? s = some e)
    (h' : task.errand? s' = some e') : s = s' := by
  match task, h, h' with
  | .report t .inLine, h, h' | .report t (.firing _ _), h, h' =>
      exact (Option.ite_none_right_eq_some.mp h).1.symm.trans (Option.ite_none_right_eq_some.mp h').1
  | .readSwitch n, h, h' | .snapshot _ (n :: _) true, h, h' =>
      exact (Option.ite_none_right_eq_some.mp h).1.symm.trans (Option.ite_none_right_eq_some.mp h').1

theorem step_blocked_of_errand {s : SwitchNumber} (h : task.errand? s = some .asks)
    (hh : (p.switches.lock s).holder ≠ some me) : (task.step me now p).1 = .blocked := by
  have hheld : ¬p.switches.isHeldBy s me = true := mt SwitchRegistry.isHeldBy_iff.mp hh
  match task, h with
  | .report t .inLine, h =>
      obtain ⟨rfl, -⟩ := Option.ite_none_right_eq_some.mp h
      simp only [step, stepReport, if_neg hheld]
  | .report t (.firing _ _), h => cases (Option.ite_none_right_eq_some.mp h).2
  | .readSwitch n, h =>
      obtain ⟨rfl, -⟩ := Option.ite_none_right_eq_some.mp h
      simp only [step, if_neg hheld]
  | .snapshot found (n :: rest) true, h =>
      obtain ⟨rfl, -⟩ := Option.ite_none_right_eq_some.mp h
      simp only [step, if_neg hheld]

theorem step_blocked_of_job {job : CoilJob} (h : task.job? = some (job, .inLine))
    (hh : (p.panel.bank.lock job.coil).holder ≠ some me) : (task.step me now p).1 = .blocked := by
  have hf : Follows job (job.step me now .inLine p.panel).1 (task.step me now p).1 := (step_follows h).1
  have hheld : ¬p.panel.bank.isHeldBy job.coil me = true := mt CoilBank.isHeldBy_iff.mp hh
  rwa [CoilJob.step, if_neg hheld] at hf

end Task

namespace World

/-- The task `t` waits for the lock of a switch, which the task `u` has. -/
inductive WaitsAtSwitch (w : World Platform Task Outcome) (t u : TaskId) : Prop
  | mk {task s} : w.running[t]? = some task → task.errand? s = some .asks →
      (w.state.switches.lock s).holder = some u → u ≠ t → WaitsAtSwitch w t u

/-- The task `t` waits for the lock of a coil, which the task `u` has. -/
inductive WaitsAtCoil (w : World Platform Task Outcome) (t u : TaskId) : Prop
  | mk {task job} : w.running[t]? = some task → task.job? = some (job, .inLine) →
      (w.state.panel.bank.lock job.coil).holder = some u → u ≠ t → WaitsAtCoil w t u

/-- The task `t` waits for a lock that the task `u` has. -/
def Waits (w : World Platform Task Outcome) (t u : TaskId) : Prop :=
  w.WaitsAtSwitch t u ∨ w.WaitsAtCoil t u

variable {w : World Platform Task Outcome} {t u v : TaskId} {task : Task}

/-- The task `t` can take a step, at least after some time. -/
def Goes (w : World Platform Task Outcome) (t : TaskId) : Prop :=
  ∃ task ms, w.running[t]? = some task ∧ (task.step t (w.now + ms) w.state).1 ≠ .blocked

theorem goes_of_holder (hg : w.worksite.Good) {c : CoilNumber}
    (hh : (w.state.panel.bank.lock c).holder = some t) : w.Goes t := by
  obtain ⟨job, stage, hj, rfl, hs⟩ := hg.orderly.of_holder hh
  obtain ⟨task, hr, hj⟩ := Option.bind_eq_some_iff.mp hj
  have hn := hg.orderly.numbered
  -- In line, the job has what it waits for; a pulse that it waits for is over in time.
  cases stage with
  | start => exact absurd rfl hs
  | inLine =>
      exact ⟨task, 0, hr, Task.step_ne_blocked_of_job hj (CoilJob.step_ne_blocked hn (fun _ => hh) nofun)⟩
  | cooling d =>
      refine ⟨task, d, hr, Task.step_ne_blocked_of_job hj (CoilJob.step_ne_blocked hn nofun ?_)⟩
      rintro _ ⟨⟩
      exact Nat.le_add_left d w.now

/-- Whoever waits cannot go on, however much time passes. -/
theorem Waits.not_goes (h : w.Waits t u) : ¬w.Goes t := by
  rintro ⟨task, ms, hr, hb⟩
  rcases h with h | h
  · cases h with
    | mk hr' he hh hne =>
      cases hr.symm.trans hr'
      refine hb (Task.step_blocked_of_errand he ?_)
      rw [hh]
      exact fun e => hne (Option.some.inj e)
  · cases h with
    | mk hr' hj hh hne =>
      cases hr.symm.trans hr'
      refine hb (Task.step_blocked_of_job hj ?_)
      rw [hh]
      exact fun e => hne (Option.some.inj e)

theorem WaitsAtCoil.goes (hg : w.worksite.Good) (h : w.WaitsAtCoil t u) : w.Goes u := by
  cases h with
  | mk _ _ hh _ => exact goes_of_holder hg hh

theorem WaitsAtSwitch.errand (hk : Platform.Kept w) (h : w.WaitsAtSwitch t u) :
    ∃ task s e, w.running[u]? = some task ∧ task.errand? s = some e ∧
      (w.state.switches.lock s).holder = some u := by
  cases h with
  | @mk _ s _ _ hh _ =>
    obtain ⟨e, he⟩ := Option.ne_none_iff_exists'.mp ((hk.manned s).serves.of_holder hh)
    obtain ⟨task, hr, he⟩ := Option.bind_eq_some_iff.mp he
    exact ⟨task, s, e, hr, he, hh⟩

/-- Whoever has the lock of a switch asks for no other. -/
theorem WaitsAtSwitch.not_waitsAtSwitch (hk : Platform.Kept w) (h : w.WaitsAtSwitch t u) :
    ¬w.WaitsAtSwitch u v := by
  obtain ⟨task, s, e, hr, he, hh⟩ := h.errand hk
  intro h'
  cases h' with
  | mk hr' he' hh' hne =>
    cases hr.symm.trans hr'
    cases Task.switch_unique he he'
    exact hne (Option.some.inj (hh'.symm.trans hh))

/-- A task at work goes on unless it waits for another one. -/
theorem goes_or_waits (hk : Platform.Kept w) (hg : w.worksite.Good) (hr : w.running[t]? = some task) :
    w.Goes t ∨ ∃ u, w.Waits t u := by
  have hn := hg.orderly.numbered
  -- What a task waits for is the lock of its job's coil, or without a job that of the switch it asks for.
  cases hj : task.job? with
  | some x =>
      obtain ⟨job, stage⟩ := x
      have hsite : w.worksite.jobs t = some (job, stage) := (jobs_of_running hr).trans hj
      cases stage with
      | start =>
          exact .inl ⟨task, 0, hr, Task.step_ne_blocked_of_job hj (CoilJob.step_ne_blocked hn nofun nofun)⟩
      | inLine =>
          obtain ⟨u, hu⟩ := hg.orderly.exists_holder hsite nofun
          by_cases hut : u = t
          · exact .inl (goes_of_holder hg (hut ▸ hu))
          · exact .inr ⟨u, .inr (.mk hr hj hu hut)⟩
      | cooling d => exact .inl (goes_of_holder hg (hg.orderly.cooling t job d hsite))
  | none =>
      by_cases hasks : ∃ s, task.errand? s = some .asks
      · obtain ⟨s, hs⟩ := hasks
        obtain ⟨u, hu⟩ := (hk.manned s).serves.exists_holder (t := t)
          (by rw [errands_of_running hr, hs]; exact nofun)
        by_cases hut : u = t
        · refine .inl ⟨task, 0, hr, Task.step_ne_blocked_of_errand hj fun s' hs' => ?_⟩
          cases Task.switch_unique hs hs'
          exact hut ▸ hu
        · exact .inr ⟨u, .inl (.mk hr hs hu hut)⟩
      · exact .inl ⟨task, 0, hr, Task.step_ne_blocked_of_errand hj fun s hs => absurd ⟨s, hs⟩ hasks⟩

/-- From every task at work, the line of those that wait for each other leads to one that goes on. -/
theorem leads_to_goes (hk : Platform.Kept w) (hg : w.worksite.Good) (hr : w.running[t]? = some task) :
    ∃ u, Relation.ReflTransGen w.Waits t u ∧ w.Goes u := by
  rcases goes_or_waits hk hg hr with h | ⟨u, hs | hc⟩
  · exact ⟨t, .refl, h⟩
  · obtain ⟨task', -, -, hr', -⟩ := hs.errand hk
    have htu : Relation.ReflTransGen w.Waits t u := .single (.inl hs)
    -- Who has the lock of the switch waits, if at all, for a coil, and who has that one goes on.
    rcases goes_or_waits hk hg hr' with h | ⟨v, hs' | hc⟩
    · exact ⟨u, htu, h⟩
    · exact absurd hs' (hs.not_waitsAtSwitch hk)
    · exact ⟨v, htu.tail (.inr hc), hc.goes hg⟩
  · exact ⟨u, .single (.inr hc), hc.goes hg⟩

/-- Nobody waits, through others, for itself. -/
theorem not_circular (hk : Platform.Kept w) (hg : w.worksite.Good) (t : TaskId) :
    ¬Relation.TransGen w.Waits t t := by
  intro h
  obtain ⟨u, htu, hut⟩ := Relation.TransGen.head'_iff.mp h
  obtain ⟨v, -, hvt⟩ := Relation.TransGen.tail'_iff.mp h
  have hu : ∃ x, w.Waits u x := by
    rcases hut.cases_head with rfl | ⟨x, hux, -⟩
    · exact ⟨u, htu⟩
    · exact ⟨x, hux⟩
  obtain ⟨x, hux⟩ := hu
  -- Whoever is in the circle has a lock and waits for one. So the first is that of a switch and the second
  -- that of a coil, which somebody has who waits for nobody.
  rcases htu with htu | htu
  · rcases hvt with hvt | hvt
    · exact hvt.not_waitsAtSwitch hk htu
    · exact Waits.not_goes (.inl htu) (hvt.goes hg)
  · exact hux.not_goes (htu.goes hg)

end World

namespace Platform

/-- In no run do tasks wait for each other in a circle: whoever is at work can take a step, at least after
some time, unless it waits for the lock of a switch or of a coil that another one has; and from whoever
waits, the line leads to one that can take a step. -/
theorem never_deadlocks (config : PlatformConfig) (board : BoardConfig) (clock : Clock)
    (startedAt : Timestamp) (events : List (Event Call Outside)) :
    let w := scene.run (atRest config board clock startedAt) events
    (∀ (t : TaskId) task, w.running[t]? = some task →
      (w.Goes t ↔ ∀ u, ¬w.Waits t u) ∧ ∃ u, Relation.ReflTransGen w.Waits t u ∧ w.Goes u) ∧
    ∀ t, ¬Relation.TransGen w.Waits t t := by
  intro w
  have hk : Kept w := run_kept config board clock startedAt events
  have hg : w.worksite.Good := run_good config board clock startedAt events
  refine ⟨fun t task hr => ⟨?_, World.leads_to_goes hk hg hr⟩, World.not_circular hk hg⟩
  constructor
  · exact fun h u hw => hw.not_goes h
  · intro h
    rcases World.goes_or_waits hk hg hr with hgoes | ⟨u, hw⟩
    · exact hgoes
    · exact absurd hw (h u)

/-- A report waits for a coil that cools down after a pulse, and a query waits for the switch of the
report. -/
def queuesUp : List (Event Call Outside) :=
  [.call (.configureRule ⟨"C1", "S1", 20, 1.0, 0.5⟩), .step 0,
    .call (.enable ⟨"C1", 10, 1.0, 0.25⟩), .step 1, .step 1, .step 1,
    .call (.pulse ⟨"C1", 50, 0.5⟩), .step 2, .step 2, .step 2,
    .call (.report ⟨"S1", true, 1⟩), .step 3, .step 3, .step 3, .call (.switchState "S1"), .step 4]

theorem waits_in_line :
    let w := scene.run (atRest .default .default ⟨0⟩ ⟨0, 0, 0⟩) queuesUp
    w.Waits 4 3 ∧ w.Waits 3 2 ∧ ¬w.Goes 4 ∧ ¬w.Goes 3 ∧
      ∃ u, Relation.ReflTransGen w.Waits 4 u ∧ w.Goes u := by
  intro w
  let s : SwitchNumber := ⟨"S1", by decide⟩
  let c : CoilNumber := ⟨"C1", by decide⟩
  have hquery : (w.running[4]?).bind (Task.errand? s) = some .asks := by decide +kernel
  have hswitch : (w.state.switches.lock s).holder = some 3 := by decide +kernel
  obtain ⟨query, hr, he⟩ := Option.bind_eq_some_iff.mp hquery
  have hreport : ((w.running[3]?).bind Task.job?).map (fun x => (x.1.coil, x.2)) = some (c, .inLine) := by
    decide +kernel
  have hcoil : (w.state.panel.bank.lock c).holder = some 2 := by decide +kernel
  obtain ⟨⟨job, stage⟩, hj, hx⟩ := Option.map_eq_some_iff.mp hreport
  obtain ⟨hjob, hstage⟩ : job.coil = c ∧ stage = .inLine := Prod.mk.inj hx
  obtain ⟨report, hr', hj⟩ := Option.bind_eq_some_iff.mp hj
  subst hstage
  rw [← hjob] at hcoil
  have hwaits : w.Waits 4 3 := .inl (.mk hr he hswitch (by decide))
  have hwaits' : w.Waits 3 2 := .inr (.mk hr' hj hcoil (by decide))
  obtain ⟨htasks, -⟩ := never_deadlocks .default .default ⟨0⟩ ⟨0, 0, 0⟩ queuesUp
  exact ⟨hwaits, hwaits', hwaits.not_goes, hwaits'.not_goes, (htasks 4 query hr).2⟩

end Platform
end Playfield
