import Playfield.Bench
import Playfield.Proofs.Http.Route
import Playfield.Proofs.Likeness
import Playfield.Proofs.Platform.Listing
import Playfield.Proofs.Platform.Progress

/-! Hardware numbers over HTTP. A request for the state of a number cannot be told from a call that reads the
state directly: whatever else goes on at the bench, both leave the same platform behind, and the response
is the answer of the call. -/
namespace Playfield

/-- Tasks that read the state of a number. -/
inductive Task.Reads : {kind : Kind} → Number kind → Task → Prop where
  | asked {kind : Kind} (n : Number kind) : Reads n (.start (.state kind n.text))
  | switch (n : SwitchNumber) : Reads n (.readSwitch n)
  | coil (n : CoilNumber) {stage : CoilStage} (h : stage.deadline? = none) : Reads n (.coil (.read n) stage)

theorem Number.ofString?_text {kind : Kind} (n : Number kind) : Number.ofString? kind n.text = some n :=
  dif_pos n.not_blank

theorem Check.number_text {kind : Kind} (n : Number kind) : Check.number kind n.text = .ok n := by
  rw [Check.number, n.ofString?_text]

theorem CoilJob.read_step {n : CoilNumber} {stage : CoilStage} (h : stage.deadline? = none) (me : TaskId)
    (now : Nat) (p : CoilPanel) : (∃ stage', ((CoilJob.read n).step me now stage p).1 = .next stage' ∧
        stage'.deadline? = none) ∨
      ((CoilJob.read n).step me now stage p).1 = .blocked ∨
      ∃ state, ((CoilJob.read n).step me now stage p).1 = .finished (.ok state) := by
  cases stage with
  | start =>
      by_cases hn : n ∈ p.bank.slots
      · exact .inl ⟨.inLine, by simp [step, enter, coil, hn], rfl⟩
      · exact .inr (.inr ⟨.disabled n, by simp [step, enter, coil, hn]⟩)
  | inLine =>
      by_cases hh : p.bank.isHeldBy n me = true
      · exact .inr (.inr ⟨p.bank.coil n, by simp [step, coil, hh, act, finish]⟩)
      · exact .inr (.inl (by simp [step, coil, hh]))
  | cooling d => cases h

/-- A task that reads goes on reading, waits, or has an answer. -/
theorem Task.Reads.step {kind : Kind} {n : Number kind} {task : Task} (h : task.Reads n) (me : TaskId)
    (now : Nat) (p : Platform) : (∃ task', (task.step me now p).1 = .next task' ∧ task'.Reads n) ∨
      (task.step me now p).1 = .blocked ∨ ∃ answer, (task.step me now p).1 = .finished (.ok answer) := by
  cases h with
  | asked =>
      cases kind with
      | switch =>
          refine .inl ⟨.readSwitch n, ?_, .switch n⟩
          simp only [Task.step, Call.state, Task.enter, Check.number_text, Task.lineUp]
      | coil =>
          refine .inl ⟨.coil (.read n) .start, ?_, .coil n rfl⟩
          simp only [Task.step, Call.state, Task.enter, Check.number_text, Task.proceed, Except.map]
      | light =>
          refine .inr (.inr ⟨.light (p.lights.read n p.clock.now).1, ?_⟩)
          simp only [Task.step, Call.state, Task.enter, Platform.lightState, Check.number_text]
          rfl
  | switch n =>
      by_cases hh : p.switches.isHeldBy n me = true
      · exact .inr (.inr ⟨.switch (p.switches.switch n), by simp [Task.step, hh, Task.finish]⟩)
      · exact .inr (.inl (by simp [Task.step, hh]))
  | coil n hstage =>
      simp only [Task.step, Task.coilStep]
      rcases CoilJob.read_step (n := n) hstage me now p.panel with ⟨stage', hs, hstage'⟩ | hs | ⟨state, hs⟩
      · exact .inl ⟨.coil (.read n) stage', by rw [hs]; rfl, .coil n hstage'⟩
      · exact .inr (.inl (by rw [hs]; rfl))
      · exact .inr (.inr ⟨.coil state, by rw [hs]; rfl⟩)

namespace Bench

open Platform (Outside)

def outside (e : Outside) (b : Bench) : Bench := { b with platform := Platform.outside e b.platform }

/-- Calls, requests and jobs come in at a bench, and its platform has its surroundings. -/
def scene : Scene Bench Work Result Work Outside where
  workings := Work.workings
  enter := id
  outside := outside

/-! ## The same work over HTTP -/

/-- The work on a call, where the call came in as a request. -/
def overHttp : Work → Work
  | .call task => .exchange (.calling .get task true)
  | work => work

/-- The outcome of a call as the response to a request. -/
def asResponse : Result → Result
  | .outcome outcome => .response (Http.respond true outcome)
  | result => result

theorem overHttp_step {kind : Kind} {n : Number kind} {task : Task} (h : task.Reads n) (me : TaskId)
    (now : Nat) (b : Bench) : Work.step me now (overHttp (.call task)) b =
      ((Work.step me now (.call task) b).1.map overHttp asResponse, (Work.step me now (.call task) b).2) := by
  have hs := h.step me now b.platform
  simp only [Work.step, overHttp, Http.Exchange.step]
  rcases hstep : task.step me now b.platform with ⟨progress, p⟩
  rw [hstep] at hs
  cases progress with
  | blocked => rfl
  | next task' => rfl
  | finished outcome =>
      -- Over HTTP an outcome is noted only if the hardware is unavailable, and reading never ends so.
      obtain ⟨task', hnext, -⟩ | hblocked | ⟨answer, hdone⟩ := hs
      · cases hnext
      · cases hblocked
      · cases hdone
        rfl

/-- Applies `f` to what belongs to the task `t`. -/
def atTask (t : TaskId) {α : Type} (f : α → α) (i : TaskId) : α → α := if i = t then f else id

section AtTask

variable {α β : Type} {f : α → α} {g : β → β} {t i : TaskId}

@[simp] theorem atTask_self : atTask t f t = f := if_pos rfl

theorem atTask_of_ne (h : i ≠ t) : atTask t f i = id := if_neg h

theorem map_atTask (h : i ≠ t) (progress : Progress α β) :
    progress.map (atTask t f i) (atTask t g i) = progress := by
  rw [atTask_of_ne h, atTask_of_ne h]
  cases progress <;> rfl

end AtTask

variable {kind : Kind} {n : Number kind} {cs : List Char} {r : Http.Request} {b : Bench} {t : TaskId}
  {before early late events : List (Event Work Outside)}

abbrev asked (n : Number kind) : Work := .call (.start (.state kind n.text))

/-- A task that was called to read goes on with reading. -/
theorem reads_of_running (hc : (calls events)[t]? = some (asked n)) {work : Work}
    (hr : (scene.run (.ofState b) events).running[t]? = some work) :
    ∃ task : Task, work = .call task ∧ task.Reads n := by
  have hstep (c : Work) (id : TaskId) (now : Nat) (work work' : Work) (b b' : Bench)
      (ih : c = asked n → ∃ task : Task, work = .call task ∧ task.Reads n)
      (hs : Work.step id now work b = (.next work', b')) :
      c = asked n → ∃ task : Task, work' = .call task ∧ task.Reads n := by
    intro hc
    obtain ⟨task, rfl, htask⟩ := ih hc
    have hprogress : ((task.step id now b.platform).1.map Work.call Result.outcome) = .next work' :=
      congrArg Prod.fst hs
    rcases htask.step id now b.platform with ⟨task', hnext, htask'⟩ | hblocked | ⟨answer, hdone⟩
    · rw [hnext] at hprogress
      exact ⟨task', (Progress.next.inj hprogress).symm, htask'⟩
    · rw [hblocked] at hprogress
      cases hprogress
    · rw [hdone] at hprogress
      cases hprogress
  obtain ⟨c, hc', hreads⟩ := scene.run_origin (Q := fun c work => c = asked n →
    ∃ task : Task, work = .call task ∧ task.Reads n) (fun c hc => ⟨_, hc, .asked n⟩) hstep b events hr
  exact hreads (Option.some.inj (hc'.symm.trans hc))

theorem answer_of_result (hc : (calls events)[t]? = some (asked n)) {result : Result}
    (hr : (scene.run (.ofState b) events).results[t]? = some result) :
    ∃ answer : Answer, result = .outcome (.ok answer) := by
  obtain ⟨before, after, work, rfl, hw, hs⟩ := scene.finished_of_run b events hr
  obtain ⟨c, hc', -⟩ := scene.run_origin (Q := fun _ _ => True) (fun _ => trivial)
    (fun _ _ _ _ _ _ _ _ _ => trivial) b before hw
  obtain rfl := Option.some.inj ((Scene.getElem?_calls_append hc' _).symm.trans hc)
  obtain ⟨task, rfl, htask⟩ := reads_of_running hc' hw
  have hprogress := congrArg Prod.fst hs
  change (task.step t _ _).1.map Work.call Result.outcome = .finished result at hprogress
  rcases htask.step t (scene.run (.ofState b) before).now (scene.run (.ofState b) before).state.platform with
    ⟨task', hnext, -⟩ | hblocked | ⟨answer, hdone⟩
  · rw [hnext] at hprogress
    cases hprogress
  · rw [hblocked] at hprogress
    cases hprogress
  · rw [hdone] at hprogress
    exact ⟨answer, (Progress.finished.inj hprogress).symm⟩

section Stages

theorem likeness_before {w : World Bench Work Result} (h : w.Sound) (f : Work → Work) (g : Result → Result) :
    World.Likeness id (atTask w.nextId f) (atTask w.nextId g) w w where
  state := rfl
  now := rfl
  nextId := rfl
  running := by
    intro i
    by_cases hi : i = w.nextId
    · rw [hi, h.running_next, Option.map_none]
    · rw [atTask_of_ne hi, Option.map_id]
      rfl
  results := by
    intro i
    by_cases hi : i = w.nextId
    · rw [hi, h.results_next, Option.map_none]
    · rw [atTask_of_ne hi, Option.map_id]
      rfl

/-- Until its first step a request is only there. -/
theorem likeness_early (r : Http.Request) (ht : t = (calls before).length) (he : .step t ∉ early) :
    World.Likeness id (atTask t fun _ => .exchange (.start r)) (atTask t asResponse)
        (scene.run (.ofState b) (before ++ .call (asked n) :: early))
        (scene.run (.ofState b) (before ++ .call (.exchange (.start r)) :: early)) ∧
      ∀ work, (scene.run (.ofState b) (before ++ .call (asked n) :: early)).running[t]? = some work →
        work = asked n := by
  have hnext : (scene.run (.ofState b) before).nextId = t := by rw [scene.run_nextId, ht]
  have hsound : (scene.run (.ofState b) before).Sound := scene.run_sound (World.sound_ofState b) before
  induction early using List.reverseRecOn with
  | nil =>
      rw [Scene.run_append, Scene.run_append]
      refine ⟨?_, fun work hr => ?_⟩
      · exact (hnext ▸ likeness_before hsound _ _).spawn (by rw [hnext, atTask_self]; rfl)
      · rw [Scene.run_cons, Scene.run_nil] at hr
        change ((scene.run (.ofState b) before).running.insert _ (asked n))[t]? = some work at hr
        rw [hnext, Map.getElem?_insert, if_pos rfl] at hr
        exact (Option.some.inj hr).symm
  | append_singleton early e ih =>
      obtain ⟨hlike, hstart⟩ := ih fun hmem => he (List.mem_append_left _ hmem)
      have hstep : e ≠ .step t := fun h => he (by simp [h])
      have hlt : t < (scene.run (.ofState b) (before ++ .call (asked n) :: early)).nextId := by
        rw [scene.run_nextId, ht]
        simp [calls, Event.call?]
      rw [← List.cons_append, ← List.cons_append, ← List.append_assoc, ← List.append_assoc, Scene.run_append,
        scene.run_append _ (before ++ .call (.exchange (.start r)) :: early), Scene.run_cons, Scene.run_cons]
      refine ⟨?_, fun work hr => hstart work (scene.running_of_next hlt hstep hr)⟩
      refine hlike.next_same scene e ?_ ?_ ?_ ?_
      · rintro c -
        rw [atTask_of_ne (Nat.ne_of_gt hlt)]
        rfl
      · rintro i work rfl -
        have hi : i ≠ t := fun h => hstep (h ▸ rfl)
        rw [map_atTask hi, atTask_of_ne hi]
        rfl
      · rintro i work rfl hr
        by_cases hi : i = t
        · -- Given up before its first step, neither the call nor the request leaves anything behind.
          subst hi
          rw [hstart work hr, atTask_self]
          rfl
        · rw [atTask_of_ne hi]
          rfl
      · rintro o -
        rfl

variable (hreads : r.Reads n cs) (hfixed : String.ofList cs ∉ Http.Route.fixedWords kind)
  (ht : t = (calls before).length) (he : .step t ∉ early)

include hreads hfixed

/-- The first step of a request makes it the call. -/
theorem start_step (me : TaskId) (now : Nat) (b : Bench) :
    Work.step me now (.exchange (.start r)) b = (.next (overHttp (asked n)), b) := by
  simp only [Work.step, Http.Exchange.step, hreads.action hfixed, hreads.method]
  rfl

include ht he

theorem likeness_begun : World.Likeness id (atTask t overHttp) (atTask t asResponse)
    (scene.run (.ofState b) (before ++ .call (asked n) :: early))
    (scene.run (.ofState b) (before ++ .call (.exchange (.start r)) :: early ++ [.step t])) := by
  obtain ⟨hlike, hstart⟩ := likeness_early (n := n) (b := b) r ht he
  rw [scene.run_append _ (before ++ .call (.exchange (.start r)) :: early)]
  generalize scene.run (.ofState b) (before ++ .call (.exchange (.start r)) :: early) = w' at hlike ⊢
  generalize scene.run (.ofState b) (before ++ .call (asked n) :: early) = w at hlike hstart ⊢
  change World.Likeness _ _ _ w (w'.step Work.workings t)
  cases hr : w.running[t]? with
  | none =>
      -- It has been given up.
      rw [World.step_of_none (by rw [hlike.running, hr, Option.map_none])]
      refine hlike.congr fun i work hi => ?_
      have hne : i ≠ t := by
        rintro rfl
        cases hi.symm.trans hr
      rw [atTask_of_ne hne, atTask_of_ne hne]
  | some work =>
      obtain rfl := hstart work hr
      have hr' : w'.running[t]? = some (.exchange (.start r)) := by
        rw [hlike.running, hr, Option.map_some, atTask_self]
      rw [World.step_of_next (k := Work.workings) hr' (start_step hreads hfixed t w'.now w'.state)]
      refine ⟨hlike.state, hlike.now, hlike.nextId, fun i => ?_, hlike.results⟩
      rw [Map.getElem?_insert]
      split
      · next hi => rw [← hi, hr, Option.map_some, atTask_self]
      · next hi => rw [hlike.running, atTask_of_ne (Ne.symm hi), atTask_of_ne (Ne.symm hi)]

theorem likeness_late : World.Likeness id (atTask t overHttp) (atTask t asResponse)
    (scene.run (.ofState b) (before ++ .call (asked n) :: early ++ late))
    (scene.run (.ofState b) (before ++ .call (.exchange (.start r)) :: early ++ .step t :: late)) := by
  induction late using List.reverseRecOn with
  | nil =>
      rw [List.append_nil]
      exact likeness_begun hreads hfixed ht he
  | append_singleton late e ih =>
      have hc : (calls (before ++ .call (asked n) :: early ++ late))[t]? = some (asked n) := by
        rw [ht]
        simp [calls, Event.call?]
      have hlt : t < (scene.run (.ofState b) (before ++ .call (asked n) :: early ++ late)).nextId := by
        rw [scene.run_nextId]
        exact (List.getElem?_eq_some_iff.mp hc).1
      rw [← List.cons_append, ← List.append_assoc, ← List.append_assoc, Scene.run_append,
        scene.run_append _ (before ++ .call (.exchange (.start r)) :: early ++ .step t :: late),
        Scene.run_cons, Scene.run_cons]
      refine ih.next_same scene e ?_ ?_ ?_ ?_
      · rintro c -
        rw [atTask_of_ne (Nat.ne_of_gt hlt)]
        rfl
      · rintro i work rfl hr
        by_cases hi : i = t
        · subst hi
          obtain ⟨task, rfl, htask⟩ := reads_of_running hc hr
          rw [atTask_self, atTask_self]
          exact overHttp_step htask i _ _
        · rw [map_atTask hi, atTask_of_ne hi]
          rfl
      · rintro i work rfl hr
        by_cases hi : i = t
        · subst hi
          obtain ⟨task, rfl, -⟩ := reads_of_running hc hr
          rw [atTask_self]
          rfl
        · rw [atTask_of_ne hi]
          rfl
      · rintro o -
        rfl

end Stages

/-- The request `r` is served as the call `call`. Whatever goes on before and after it, the bench is as it
would be with the call, which does without the first step of the request, and so is the rest of the work on
it; and the call fails in no case, but has its answer in the response. -/
def Serves (r : Http.Request) (call : Call) : Prop :=
  ∀ (b : Bench) (before early late : List (Event Work Outside)), .step (calls before).length ∉ early →
    let t := (calls before).length
    let direct := scene.run (.ofState b) (before ++ .call (.call (.start call)) :: early ++ late)
    let served := scene.run (.ofState b) (before ++ .call (.exchange (.start r)) :: early ++ .step t :: late)
    served.state = direct.state ∧
    (∀ i ≠ t, served.running[i]? = direct.running[i]? ∧ served.results[i]? = direct.results[i]?) ∧
    (direct.results[t]? = none ∧ served.results[t]? = none ∨
      ∃ answer : Answer, direct.results[t]? = some (.outcome (.ok answer)) ∧
        served.results[t]? = some (.response (.ofContent 200 (.json answer.json))))

theorem serves_of_reads (hreads : r.Reads n cs) (hfixed : String.ofList cs ∉ Http.Route.fixedWords kind) :
    Serves r (.state kind n.text) := by
  intro b before early late he t direct served
  have h : World.Likeness id (atTask t overHttp) (atTask t asResponse) direct served :=
    likeness_late hreads hfixed rfl he
  refine ⟨h.state, fun i hi => ⟨?_, ?_⟩, ?_⟩
  · rw [h.running, atTask_of_ne hi, Option.map_id]
    rfl
  · rw [h.results, atTask_of_ne hi, Option.map_id]
    rfl
  · rw [h.results, atTask_self]
    cases hr : direct.results[t]? with
    | none => exact .inl ⟨rfl, rfl⟩
    | some result =>
        have hc : (calls (before ++ .call (asked n) :: early ++ late))[t]? = some (asked n) := by
          simp [t, calls, Event.call?]
        obtain ⟨answer, rfl⟩ := answer_of_result hc hr
        exact .inr ⟨answer, rfl, rfl⟩

def onBench : Event Call Outside → Event Work Outside := Event.map (fun call => .call (.start call)) id

/-- A platform on a bench is the platform on its own, as long as it is called directly. -/
theorem likeness_onBench (p : Platform) (spare : CoilBank) (events : List (Event Call Outside)) :
    World.Likeness (fun p => ⟨p, spare⟩) (fun _ => Work.call) (fun _ => Result.outcome)
      (Platform.scene.run (.ofState p) events) (scene.run (.ofState ⟨p, spare⟩) (events.map onBench)) := by
  induction events using List.reverseRecOn with
  | nil => exact .ofState p
  | append_singleton events e ih =>
      rw [List.map_append, Scene.run_append, Scene.run_append]
      exact ih.next Platform.scene scene _ id e (fun _ _ => rfl) (fun _ _ _ _ => rfl) (fun _ _ _ _ => rfl)
        (fun _ _ => rfl)

/-- A request that reads a number and is not given up can always be brought to its response. -/
theorem read_completes (hreads : r.Reads n cs) (hfixed : String.ofList cs ∉ Http.Route.fixedWords kind)
    {p : Platform} (hp : p.Idle) (spare : CoilBank) {before since : List (Event Call Outside)}
    (hkept : .abandon (calls before).length ∉ before ++ .call (.state kind n.text) :: since) :
    ∃ more : List (Event Call Outside), (∀ e ∈ more, e.goesOn = true) ∧ ∃ answer : Answer,
      (scene.run (.ofState ⟨p, spare⟩) (before.map onBench ++
        .call (.exchange (.start r)) :: .step (calls before).length :: (since ++ more).map onBench)).results[
          (calls before).length]? = some (.response (.ofContent 200 (.json answer.json))) := by
  have hc : (calls (before ++ .call (.state kind n.text) :: since))[(calls before).length]? =
      some (.state kind n.text) := by
    simp [calls, Event.call?]
  obtain ⟨more, hgo, outcome, hr⟩ := Platform.call_completes (hp.run_lists _).toKept (hp.run_good _) hc hkept
  refine ⟨more, hgo, ?_⟩
  have hlength : (calls (before.map onBench)).length = (calls before).length := by
    rw [onBench, calls_map, List.length_map]
  have hdirect := (likeness_onBench p spare (before ++ .call (.state kind n.text) :: since ++ more)).results
    (calls before).length
  rw [hr, Option.map_some, List.append_assoc, List.map_append, List.cons_append, List.map_cons] at hdirect
  obtain ⟨-, -, hdone⟩ := serves_of_reads hreads hfixed ⟨p, spare⟩ (before.map onBench) []
    ((since ++ more).map onBench) List.not_mem_nil
  rw [hlength, List.append_assoc] at hdone
  rcases hdone with ⟨hnone, -⟩ | ⟨answer, -, hserved⟩
  · cases hnone.symm.trans hdirect
  · rw [List.append_assoc] at hserved
    exact ⟨answer, hserved⟩

/-- Every number can be read over HTTP. It has an encoding that is not a word with a route of its own, and a
request with any such encoding is served as the call that reads the state; and on a platform where any calls
are at work, it can always be brought to its response, unless it is given up. -/
theorem numbers_are_served {kind : Kind} (n : Number kind) :
    (∃ (r : Http.Request) (cs : List Char), r.Reads n cs ∧ String.ofList cs ∉ Http.Route.fixedWords kind) ∧
    ∀ (r : Http.Request) (cs : List Char), r.Reads n cs → String.ofList cs ∉ Http.Route.fixedWords kind →
      Serves r (.state kind n.text) ∧
      ∀ (p : Platform) (spare : CoilBank) (before since : List (Event Call Outside)), p.Idle →
        .abandon (calls before).length ∉ before ++ .call (.state kind n.text) :: since →
        ∃ more : List (Event Call Outside), (∀ e ∈ more, e.goesOn = true) ∧ ∃ answer : Answer,
          (scene.run (.ofState ⟨p, spare⟩) (before.map onBench ++ .call (.exchange (.start r)) ::
            .step (calls before).length :: (since ++ more).map onBench)).results[(calls before).length]? =
              some (.response (.ofContent 200 (.json answer.json))) :=
  ⟨Http.exists_reads n, fun _ _ hreads hfixed => ⟨serves_of_reads hreads hfixed,
    fun _ spare _ _ hp hkept => read_completes hreads hfixed hp spare hkept⟩⟩

/-- A switch with a blank in its number, which is escaped, is asked for while a report has its lock. -/
theorem numbers_are_served_escaped :
    let n : SwitchNumber := ⟨"left 1", by decide⟩
    let r : Http.Request := ⟨.get, "/api/switches/left%201", none, ""⟩
    let p : Platform := .ofConfig .default (.ofConfig .default) ⟨0⟩ ⟨0, 0, 0⟩
    let before : List (Event Call Outside) := [.call (.report ⟨"left 1", true, 1⟩), .step 0]
    r.Reads n "left%201".toList ∧ Serves r (.switchState "left 1") ∧ p.Idle ∧
    ∃ more : List (Event Call Outside), (∀ e ∈ more, e.goesOn = true) ∧ ∃ answer : Answer,
      (scene.run (.ofState ⟨p, .empty .queue⟩) (before.map onBench ++
        .call (.exchange (.start r)) :: .step 1 :: more.map onBench)).results[1]? =
          some (.response (.ofContent 200 (.json answer.json))) := by
  intro n r p before
  have htwo : Json.Reader.hexDigit? '2' = some 2 := by decide
  have hzero : Json.Reader.hexDigit? '0' = some 0 := by decide
  have hblank : Http.Percent.Spells ['%', '2', '0', '1'] [32, 49] :=
    .escape htwo hzero (.plain (c := '1') (by decide) .nil)
  have hbytes : Text.Utf8.encode n.text.toList = [108, 101, 102, 116, 32, 49] := by decide
  have hspells : Http.Percent.Spells "left%201".toList (Text.Utf8.encode n.text.toList) := by
    rw [hbytes]
    exact .plain (c := 'l') (by decide) (.plain (c := 'e') (by decide) (.plain (c := 'f') (by decide)
      (.plain (c := 't') (by decide) hblank)))
  have hreads : r.Reads n "left%201".toList := ⟨rfl, by decide, hspells⟩
  have hidle : p.Idle := Platform.idle_ofConfig .default .default ⟨0⟩ ⟨0, 0, 0⟩
  obtain ⟨hserves, hcompletes⟩ := (numbers_are_served n).2 r _ hreads (by decide)
  exact ⟨hreads, hserves, hidle, hcompletes p (.empty .queue) before [] hidle (by simp [before])⟩

/-- What is answered at once, and not with JSON, is not served as a call. -/
theorem not_serves {call : Call} {response : Http.Response} (b : Bench)
    (hs : ((Http.Exchange.start r).step 0 0 b.platform).1 = .finished response)
    (hjson : response.contentType ≠ some "application/json") : ¬Serves r call := by
  intro h
  have hstep : Work.step 0 0 (.exchange (.start r)) b =
      (.finished (.response response), (Work.step 0 0 (.exchange (.start r)) b).2) := by
    refine Prod.ext ?_ rfl
    simp only [Work.step, hs]
    rfl
  have hcalled : (scene.run (.ofState b) [.call (.exchange (.start r))]).running[0]? =
      some (.exchange (.start r)) :=
    (Map.getElem?_insert ..).trans (if_pos rfl)
  have hdone := scene.result_of_finished hcalled hstep
  obtain ⟨-, -, ⟨-, hnone⟩ | ⟨answer, -, hanswer⟩⟩ := h b [] [] [] List.not_mem_nil
  · cases hnone.symm.trans hdone
  · cases hanswer.symm.trans hdone
    exact hjson rfl

/-- A word that has a route of its own is not read as a number: the changes of the switches are told
instead, from now on, and for coils the method is not allowed. -/
theorem fixed_words_are_not_numbers :
    let switch : SwitchNumber := ⟨"changes", by decide⟩
    let coil : CoilNumber := ⟨"pulse", by decide⟩
    let changes : Http.Request := ⟨.get, "/api/switches/changes", none, ""⟩
    let pulse : Http.Request := ⟨.get, "/api/coils/pulse", none, ""⟩
    (changes.Reads switch "changes".toList ∧ ¬Serves changes (.switchState "changes") ∧
      ∀ me now p, (Http.Exchange.start changes).step me now p =
        (.finished (.ofContent 200 (.events p.stream.nextId)), p.subscribe.2.note .clientSubscribed)) ∧
    (pulse.Reads coil "pulse".toList ∧ ¬Serves pulse (.coilState "pulse") ∧
      ∀ me now p, (Http.Exchange.start pulse).step me now p = (.finished (.ofContent 405 .none), p)) := by
  have hsubscribe : (⟨.get, "/api/switches/changes", none, ""⟩ : Http.Request).action = .subscribe := by rfl
  have hrefused : (⟨.get, "/api/coils/pulse", none, ""⟩ : Http.Request).action =
      .respond (.ofContent 405 .none) := by rfl
  intro switch coil changes pulse
  have hchanges : ∀ c ∈ "changes".toList, Http.Percent.isPlain c = true :=
    List.all_eq_true.mp (by decide)
  have hpulse : ∀ c ∈ "pulse".toList, Http.Percent.isPlain c = true :=
    List.all_eq_true.mp (by decide)
  have hlisten (me : TaskId) (now : Nat) (p : Platform) : (Http.Exchange.start changes).step me now p =
      (.finished (.ofContent 200 (.events p.stream.nextId)), p.subscribe.2.note .clientSubscribed) := by
    simp only [Http.Exchange.step, changes, hsubscribe]
    rfl
  have hrefuse (me : TaskId) (now : Nat) (p : Platform) :
      (Http.Exchange.start pulse).step me now p = (.finished (.ofContent 405 .none), p) := by
    simp only [Http.Exchange.step, pulse, hrefused]
    rfl
  let b : Bench := .ofPlatform (.ofConfig .default (.ofConfig .default) ⟨0⟩ ⟨0, 0, 0⟩)
  refine ⟨⟨⟨rfl, by decide, Http.Percent.spells_plain hchanges⟩, ?_, hlisten⟩,
    ⟨rfl, by decide, Http.Percent.spells_plain hpulse⟩, ?_, hrefuse⟩
  · exact not_serves b (congrArg Prod.fst (hlisten 0 0 b.platform)) (by decide)
  · exact not_serves b (congrArg Prod.fst (hrefuse 0 0 b.platform)) (by decide)

end Bench
end Playfield
