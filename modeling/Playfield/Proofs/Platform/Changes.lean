import Playfield.Proofs.Platform.Switches

/-! What a platform tells about its switches: the changes of each switch alternate and come in order, and
whoever reads a switch finds what was published about it. -/
namespace Playfield

/-- What a switch shows of the changes that were published about it. -/
structure Switch.Shows (x : Switch) (changes : List ChangeEvent) : Prop where
  isActive : x.isActive = changes.getLast?.any (·.isActive)
  lastChangedAt : x.lastChangedAt = changes.getLast?.map (·.timestamp)
  reported : ∀ changed reported, x.lastChangedAt = some changed → x.lastReportedAt = some reported →
    changed ≤ reported

theorem Switch.Tells.shows {x : Switch} {changes : List ChangeEvent}
    (h : x.Tells (changes.map (·.flip))) : x.Shows changes where
  isActive := by
    rw [h.isActive, List.getLast?_map, Option.any_map]
    rfl
  lastChangedAt := by
    rw [h.lastChangedAt, List.getLast?_map, Option.map_map]
    rfl
  reported := by
    intro changed reported hc hr
    obtain ⟨last, hl, hle⟩ := h.reported changed hc
    cases hr.symm.trans hl
    exact hle

/-- The changes of one switch: they alternate from an activation on, and come in order. -/
structure Alternates (changes : List ChangeEvent) : Prop where
  isActive : ∀ i event, changes[i]? = some event → event.isActive = decide (i % 2 = 0)
  timestamps : changes.Pairwise (·.timestamp ≤ ·.timestamp)
  sequences : changes.Pairwise (·.sequence < ·.sequence)

/-- The published changes are numbered from one on. -/
def Platform.Numbers (p : Platform) : Prop :=
  p.panel.journal.published.map (·.sequence) = List.range' 1 p.stream.sequence

theorem Platform.Apart.numbers {p q : Platform} (h : p.Apart q) (hp : p.Numbers) : q.Numbers := by
  rw [Numbers, h.published, h.sequence]
  exact hp

theorem Task.AtSwitches.numbers {me : TaskId} {task : Task} {progress : Progress Task Outcome}
    {p q : Platform} (h : AtSwitches me p task progress q) (hp : p.Numbers) : q.Numbers := by
  cases h with
  | apart hq => exact hq.numbers hp
  | asks => exact hp
  | reads => exact hp
  | surveys => exact hp
  | @applies t _ _ _ ha =>
      cases ha with
      | @stale stale =>
          have hq := (Platform.Apart.note p (.reportDropped stale)).numbers hp
          exact hq
      | @repeats x =>
          have hq := (Platform.Apart.note { p with switches := p.switches.setSwitch x }
            (.stateRepeated t.switch)).numbers hp
          exact hq
      | changes => exact hp
  | publishes =>
      rw [Platform.Numbers] at hp ⊢
      simp [publishReport, finish, release, ChangeStream.publish, hp, List.range'_concat, Nat.add_comm]

namespace Platform

/-- What every run keeps about the switches. -/
structure Kept (w : World Platform Task Outcome) : Prop where
  sound : w.Sound
  numbered : w.state.switches.Numbered
  manned : ∀ s, (w.desk s).Manned

theorem Kept.next {w : World Platform Task Outcome} (h : Kept w) (e : Event Call Outside) :
    Kept (scene.next w e) where
  sound := scene.next_sound h.sound e
  numbered := by
    intro s
    have hs : (w.desk s).switch.number = s := h.numbered s
    rcases next_desk h.sound h.numbered e s with hw | hw | ⟨id, -, hw⟩
    · exact (congrArg (fun y => y.switch.number) hw).trans hs
    · exact hw.number.trans hs
    · exact hw.number.trans hs
  manned := by
    intro s
    rcases next_desk h.sound h.numbered e s with hw | hw | ⟨id, -, hw⟩
    · rw [hw]
      exact h.manned s
    · exact (h.manned s).move hw
    · exact (h.manned s).loss hw

section Run

variable (config : PlatformConfig) (board : BoardConfig) (clock : Clock) (startedAt : Timestamp)

theorem desk_atRest (s : SwitchNumber) :
    (atRest config board clock startedAt).desk s = .atRest s := by
  simp [World.desk, desk, SwitchDesk.atRest, atRest, World.ofState, ofConfig, Journal.changesOf]

theorem run_kept (events : List (Event Call Outside)) :
    Kept (scene.run (atRest config board clock startedAt) events) := by
  refine scene.run_invariant (P := Kept) (fun w e h => h.next e) ?_ events
  refine ⟨World.sound_ofState _, fun _ => rfl, fun s => ?_⟩
  rw [desk_atRest]
  exact SwitchDesk.manned_atRest s

theorem run_numbers (events : List (Event Call Outside)) :
    (scene.run (atRest config board clock startedAt) events).state.Numbers := by
  have hrest : (atRest config board clock startedAt).state.Numbers := rfl
  refine scene.run_state ?_ ?_ ?_ hrest events
  · intro id now task p h
    exact (task.step_atSwitches id now p).numbers h
  · intro id task p h
    change Numbers (task.abandon id p)
    rw [Numbers, Task.journal_abandon, Task.stream_abandon]
    exact h
  · intro e p h
    exact (apart_outside e p).numbers h

/-- As long as no report of a switch is given up once it has changed the switch, nothing about the switch
remains unpublished for good. -/
theorem run_candid (s : SwitchNumber) (events : List (Event Call Outside))
    (h : ∀ before id after flip, events = before ++ .abandon id :: after →
      ((scene.run (atRest config board clock startedAt) before).desk s).errands id ≠
        some (.changes flip)) :
    ((scene.run (atRest config board clock startedAt) events).desk s).Candid := by
  induction events using List.reverseRecOn with
  | nil =>
      rw [Scene.run_nil, desk_atRest]
      exact SwitchDesk.candid_atRest s
  | append_singleton events e ih =>
      have hcandid := ih fun before id after flip he =>
        h before id (after ++ [e]) flip (by rw [he]; simp)
      have hkept := run_kept config board clock startedAt events
      rw [Scene.run_append, Scene.run_cons, Scene.run_nil]
      rcases next_desk hkept.sound hkept.numbered e s with hw | hw | ⟨id, rfl, hw⟩
      · rwa [hw]
      · exact hcandid.move (hkept.manned s) hw
      · obtain ⟨flip, ht⟩ := hw.errand
        exact absurd ht (h events id [] flip rfl)

variable {config board clock startedAt}

theorem alternates_of_candid {s : SwitchNumber} {events : List (Event Call Outside)}
    (h : ((scene.run (atRest config board clock startedAt) events).desk s).Candid) :
    Alternates
      ((scene.run (atRest config board clock startedAt) events).state.panel.journal.changesOf s) := by
  have hnumbers := run_numbers config board clock startedAt events
  generalize hw : scene.run (atRest config board clock startedAt) events = w at h hnumbers ⊢
  obtain ⟨x, flips, htells⟩ := h.tells_some
  have hflips : (w.desk s).flips = (w.state.panel.journal.changesOf s).map (·.flip) := rfl
  refine ⟨?_, ?_, ?_⟩
  · intro i event hi
    refine htells.alternating i event.flip ?_
    rw [hflips, List.getElem?_append_left]
    · simp [hi]
    · simpa using (List.getElem?_eq_some_iff.mp hi).1
  · have hordered := (List.pairwise_append.mp htells.ordered).1
    rw [hflips, List.pairwise_map] at hordered
    exact hordered
  · have hall : (w.state.panel.journal.published.map (·.sequence)).Pairwise (· < ·) := by
      rw [hnumbers]
      exact List.pairwise_lt_range' ..
    exact (List.pairwise_map.mp hall).filter _

theorem stems_of_running {p : Platform} (events : List (Event Call Outside)) {id : TaskId} {task : Task}
    (h : (scene.run (.ofState p) events).running[id]? = some task) :
    ∃ call, (calls events)[id]? = some call ∧ Task.Stems call task :=
  scene.run_origin (Q := Task.Stems) (fun _ => .start) (fun _ _ _ _ _ _ _ h hs => Task.stems_step h hs)
    p events h

theorem run_stems (events : List (Event Call Outside)) {id : TaskId} {task : Task}
    (h : (scene.run (atRest config board clock startedAt) events).running[id]? = some task) :
    ∃ call, (calls events)[id]? = some call ∧ Task.Stems call task :=
  stems_of_running events h

/-- The call that a task was, seen from a later moment of the run. -/
theorem stems_of_call {before after : List (Event Call Outside)} {id : TaskId} {task : Task} {call : Call}
    (h : (scene.run (atRest config board clock startedAt) before).running[id]? = some task)
    (hc : (calls (before ++ after))[id]? = some call) :
    (calls before)[id]? = some call ∧ Task.Stems call task := by
  obtain ⟨call', hc', hstems⟩ := run_stems before h
  cases (Scene.getElem?_calls_append hc' after).symm.trans hc
  exact ⟨hc', hstems⟩

variable (config board clock startedAt) in
/-- The task `id` has read `x` in one of its steps, for which it held the lock of the switch. -/
def ReadBy (events : List (Event Call Outside)) (id : TaskId) (x : Switch) : Prop :=
  ∃ before after, events = before ++ .step id :: after ∧
    let w := scene.run (atRest config board clock startedAt) before
    (w.desk x.number).errands id = some .asks ∧ (w.state.switches.lock x.number).holder = some id ∧
      x = w.state.switches.switch x.number

theorem ReadBy.append {events : List (Event Call Outside)} {id : TaskId} {x : Switch}
    (h : ReadBy config board clock startedAt events id x) (more : List (Event Call Outside)) :
    ReadBy config board clock startedAt (events ++ more) id x := by
  obtain ⟨before, after, rfl, hx⟩ := h
  exact ⟨before, after ++ more, by simp, hx⟩

/-- A task that holds the lock of a switch and wants no more than that reads the switch. -/
theorem readBy_step (events : List (Event Call Outside)) {id : TaskId} {task : Task} {n : SwitchNumber}
    (hr : (scene.run (atRest config board clock startedAt) events).running[id]? = some task)
    (he : task.errand? n = some .asks)
    (hh : ((scene.run (atRest config board clock startedAt) events).state.switches.lock n).holder =
      some id) :
    ReadBy config board clock startedAt (events ++ [.step id]) id
      ((scene.run (atRest config board clock startedAt) events).state.switches.switch n) := by
  have hn := (run_kept config board clock startedAt events).numbered n
  refine ⟨events, [], rfl, ?_, ?_, ?_⟩
  · rw [hn, World.errands_of_running hr, he]
  · rw [hn]
    exact hh
  · rw [hn]

theorem found_readBy (events : List (Event Call Outside)) {id : TaskId} {found : List Switch}
    {rest : List SwitchNumber} {inLine : Bool}
    (h : (scene.run (atRest config board clock startedAt) events).running[id]? =
      some (.snapshot found rest inLine)) :
    ∀ x ∈ found, ReadBy config board clock startedAt events id x := by
  refine scene.run_each (Q := fun events id task => ∀ found rest inLine,
    task = .snapshot found rest inLine → ∀ x ∈ found, ReadBy config board clock startedAt events id x)
    _ ?_ ?_ ?_ events h found rest inLine rfl
  · intro events e id task _ hq found rest inLine ht x hx
    exact (hq found rest inLine ht x hx).append [e]
  · intro events call found rest inLine ht
    cases ht
  · intro events id task task' st hr hq hs found rest inLine ht
    subst ht
    change task.step id _ _ = _ at hs
    obtain ⟨call, -, hstems⟩ := run_stems events hr
    have hs' := Task.stems_step hstems hs
    cases hs' with
    | snapshot =>
      cases hstems with
      | start =>
          cases hs
          intro x hx
          cases hx
      | @snapshot found₀ rest₀ inLine₀ =>
          have hkeep (x : Switch) (hx : x ∈ found₀) :=
            (hq found₀ rest₀ inLine₀ rfl x hx).append [.step id]
          match rest₀, inLine₀ with
          | [], _ => cases hs
          | n :: rest₀, false =>
              cases hs
              exact hkeep
          | n :: rest₀, true =>
              simp only [Task.step] at hs
              split at hs
              · next hh =>
                cases hs
                intro x hx
                rcases List.mem_append.mp hx with hx | hx
                · exact hkeep x hx
                · rw [List.mem_singleton.mp hx]
                  exact readBy_step events hr (by simp [Task.errand?])
                    (SwitchRegistry.isHeldBy_iff.mp hh)
              · cases hs

/-- No report is given up on its way. -/
def KeepsReports (events : List (Event Call Outside)) : Prop :=
  ∀ id r, (calls events)[id]? = some (.report r) → .abandon id ∉ events

theorem KeepsReports.of_append {events more : List (Event Call Outside)}
    (h : KeepsReports (events ++ more)) : KeepsReports events := by
  intro id r hc ha
  exact h id r (Scene.getElem?_calls_append hc more) (List.mem_append_left _ ha)

variable (config board clock startedAt) in
theorem candid_of_keepsReports {events : List (Event Call Outside)} (h : KeepsReports events)
    (s : SwitchNumber) :
    ((scene.run (atRest config board clock startedAt) events).desk s).Candid := by
  refine run_candid config board clock startedAt s events ?_
  rintro before id after flip rfl hf
  obtain ⟨t, rules, stage, hr, -, -⟩ := World.report_of_changes hf
  obtain ⟨call, hc, hstems⟩ := run_stems before hr
  cases hstems with
  | report hv => exact h id _ (Scene.getElem?_calls_append hc _) (by simp)

theorem ReadBy.shows {events : List (Event Call Outside)} {id : TaskId} {x : Switch}
    (h : ReadBy config board clock startedAt events id x) (hk : KeepsReports events) :
    ∃ before after, events = before ++ .step id :: after ∧
      let w := scene.run (atRest config board clock startedAt) before
      x = w.state.switches.switch x.number ∧
        x.Shows (w.state.panel.journal.changesOf x.number) := by
  obtain ⟨before, after, rfl, he, hh, hx⟩ := h
  refine ⟨before, after, rfl, hx, ?_⟩
  have hcandid := candid_of_keepsReports config board clock startedAt hk.of_append x.number
  have hmanned := (run_kept config board clock startedAt before).manned x.number
  have htells := hcandid.tells_of_holder hmanned hh he
  have hx' : ((scene.run (atRest config board clock startedAt) before).desk x.number).switch = x :=
    hx.symm
  rw [hx'] at htells
  exact htells.shows

theorem text_of_check {kind : Kind} {text : String} {n : Number kind}
    (h : Check.number kind text = .ok n) : n.text = text := by
  unfold Check.number Number.ofString? at h
  split at h
  · next hn =>
    split at hn <;> cases hn
    cases h
    rfl
  · cases h

variable (config board clock startedAt)

/-- As long as no report is given up on its way, the changes published for each switch alternate and come
in order, and whatever a query answers about a switch was read in one of its steps and shows exactly the
changes that were published for the switch by then. -/
theorem queries_agree_with_changes (events : List (Event Call Outside)) (hk : KeepsReports events) :
    let run := scene.run (atRest config board clock startedAt)
    let changes (events : List (Event Call Outside)) := (run events).state.panel.journal.changesOf
    let shown (id : TaskId) (x : Switch) := ∃ before after, events = before ++ .step id :: after ∧
      x = (run before).state.switches.switch x.number ∧ x.Shows (changes before x.number)
    (∀ s, Alternates (changes events s)) ∧
    ∀ id a, (run events).results[id]? = some (.ok a) →
      (∀ number, (calls events)[id]? = some (.switchState number) →
        ∃ x, a = .switch x ∧ x.number.text = number ∧ shown id x) ∧
      ((calls events)[id]? = some .switches → ∃ xs, a = .switches xs ∧ ∀ x ∈ xs, shown id x) := by
  intro run changes shown
  refine ⟨fun s => alternates_of_candid
    (candid_of_keepsReports config board clock startedAt hk s), fun id a ha => ?_⟩
  obtain ⟨before, after, task, rfl, hr, hs⟩ := scene.finished_of_run _ events ha
  generalize (scene.run _ (before ++ [.step id])).state = st at hs
  change task.step id _ _ = _ at hs
  constructor
  · intro number hc
    cases (stems_of_call hr hc).2 with
    | start =>
        simp only [Task.step, Task.enter] at hs
        split at hs <;> cases hs
    | @readSwitch _ n hn =>
        simp only [Task.step] at hs
        split at hs
        · next hh =>
          cases hs
          have hread := readBy_step before hr (by simp [Task.errand?])
            (SwitchRegistry.isHeldBy_iff.mp hh)
          have hread' := hread.append after
          rw [List.append_assoc] at hread'
          refine ⟨_, rfl, ?_, hread'.shows hk⟩
          have hnumber := (run_kept config board clock startedAt before).numbered n
          exact (congrArg Number.text hnumber).trans (text_of_check hn)
        · cases hs
  · intro hc
    cases (stems_of_call hr hc).2 with
    | start => cases hs
    | @snapshot found rest inLine =>
        have hfound := found_readBy before hr
        cases rest with
        | nil =>
            cases hs
            refine ⟨found, rfl, fun x hx => ?_⟩
            exact ((hfound x hx).append _).shows hk
        | cons n rest =>
            cases inLine with
            | false => cases hs
            | true =>
                simp only [Task.step] at hs
                split at hs <;> cases hs

/-- A query that waits while a report of its switch is on its way. -/
def readsDuringReport : List (Event Call Outside) :=
  [.call (.report ⟨"S1", true, 5⟩), .call (.switchState "S1"), .step 0, .step 1, .step 0, .step 1, .step 0,
    .step 1]

theorem queries_agree_after_wait :
    let run := scene.run (atRest .default .default ⟨0⟩ ⟨0, 0, 0⟩)
    KeepsReports readsDuringReport ∧ Alternates
        ((run readsDuringReport).state.panel.journal.changesOf ⟨"S1", by decide⟩) ∧
      ∃ x, (run readsDuringReport).results[1]? = some (.ok (.switch x)) ∧ x.isActive = true ∧
        ∃ before after, readsDuringReport = before ++ .step 1 :: after ∧
          x.Shows ((run before).state.panel.journal.changesOf x.number) := by
  intro run
  have hk : KeepsReports readsDuringReport := by
    intro id r _
    simp [readsDuringReport]
  obtain ⟨halternates, hqueries⟩ := queries_agree_with_changes .default .default ⟨0⟩ ⟨0, 0, 0⟩
    readsDuringReport hk
  have hr : (run readsDuringReport).results[1]? =
      some (.ok (.switch ⟨⟨"S1", by decide⟩, true, some 5, some 5⟩)) := by
    decide
  obtain ⟨x, hx, -, before, after, he, -, hshows⟩ := (hqueries 1 _ hr).1 "S1" rfl
  cases hx
  exact ⟨hk, halternates _, _, hr, rfl, before, after, he, hshows⟩

/-- As long as no report of the switch `s` is given up while its rules are fired, the changes published for
`s` alternate, and between two reports the switch shows the last of them. -/
theorem shows_unless_given_up (s : SwitchNumber) (events : List (Event Call Outside))
    (h : ∀ before id after t rules stage, events = before ++ .abandon id :: after →
      (scene.run (atRest config board clock startedAt) before).running[id]? =
        some (.report t (.firing rules stage)) → t.switch ≠ s) :
    let w := scene.run (atRest config board clock startedAt) events
    Alternates (w.state.panel.journal.changesOf s) ∧
      ((∀ (id : TaskId) t rules stage, w.running[id]? = some (.report t (.firing rules stage)) →
        t.switch ≠ s) →
        (w.state.switches.switch s).Shows (w.state.panel.journal.changesOf s)) := by
  intro w
  have hcandid : (w.desk s).Candid := by
    refine run_candid config board clock startedAt s events ?_
    intro before id after flip he hf
    obtain ⟨t, rules, stage, hr, ht, -⟩ := World.report_of_changes hf
    exact h before id after t rules stage he hr ht
  refine ⟨alternates_of_candid hcandid, fun hw => ?_⟩
  have htells := hcandid.settled fun id flip hf => by
    obtain ⟨t, rules, stage, hr, ht, -⟩ := World.report_of_changes hf
    exact hw id t rules stage hr ht
  exact htells.shows

end Run

/-- A report is given up while a rule of its switch waits for a coil that cools down after a pulse. -/
def givesUpFiring : List (Event Call Outside) :=
  [.call (.configureRule ⟨"C1", "S1", 10, 1.0, 0.5⟩), .step 0,
    .call (.enable ⟨"C1", 10, 1.0, 0.25⟩), .step 1, .step 1, .step 1,
    .call (.pulse ⟨"C1", 50, 0.5⟩), .step 2, .step 2, .step 2,
    .call (.report ⟨"S1", true, 1⟩), .step 3, .step 3, .step 3, .step 3, .abandon 3]

/-- The limit of `shows_unless_given_up`: the switch stays active though no report of it goes on and nothing
was published, and the next change to be published is a release. -/
theorem change_lost_with_report :
    let run := scene.run (atRest .default .default ⟨0⟩ ⟨0, 0, 0⟩)
    let s : SwitchNumber := ⟨"S1", by decide⟩
    let release := givesUpFiring ++ [.call (.report ⟨"S1", false, 2⟩), .step 4, .step 4, .step 4]
    (run givesUpFiring).running.keys = [2] ∧
      ((run givesUpFiring).state.switches.switch s).isActive = true ∧
      (run givesUpFiring).state.panel.journal.changesOf s = [] ∧
      (run release).state.panel.journal.changesOf s = [⟨1, s, false, 2⟩] := by
  intro run s release
  refine ⟨?_, ?_, ?_, ?_⟩
  all_goals decide +kernel

end Platform
end Playfield
