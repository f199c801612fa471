import Playfield.Proofs.Coil.Crew

/-! Coils do not mind each other. If everything that is done on other coils is taken out of a run, what is
left is a run that cannot be told from the first one at the coil that is looked at: jobs on a coil read and
change only what belongs to their coil, apart from the policy and from whether the board is at hand. -/
namespace Playfield

/-- Two panels that are the same at the coil `c`, where tasks have other identities in the second one. -/
structure CoilPanel.Mirrors (r : TaskId → TaskId) (c : CoilNumber) (p q : CoilPanel) : Prop where
  policy : q.bank.policy = p.bank.policy
  config : q.board.config = p.board.config
  online : q.board.online = p.board.online
  coil : q.bank.coil c = p.bank.coil c
  known : c ∈ q.bank.slots ↔ c ∈ p.bank.slots
  lock : q.bank.lock c = (p.bank.lock c).rename r
  attempts : q.journal.attemptsOn c = p.journal.attemptsOn c

namespace CoilJob

variable {job : CoilJob} {t : TaskId} {now : Nat} {p q p' q' : CoilPanel} {stage : CoilStage}
  {progress progress' : Progress CoilStage Result} {r : TaskId → TaskId} {c : CoilNumber}

theorem StepsTo.policy (h : job.StepsTo t now p stage progress q) : q.bank.policy = p.bank.policy := by
  cases h <;> rfl

theorem enter_eq : job.enter t p =
    if job.isRead = true ∧ job.coil ∉ p.bank.slots then (.finished (.ok (.disabled job.coil)), p)
    else if job.isCommand = true ∧ p.bank.policy = .reject ∧ (p.bank.lock job.coil).isHeld = true then
      (.finished (.error (.busy job.coil)), p.note (.commandRejected job.coil))
    else (.next .inLine, { p with bank := p.bank.request job.coil t }) := by
  cases job with
  | read n => by_cases hn : n ∈ p.bank.slots <;> simp [enter, isRead, isCommand, coil, hn]
  | fire rule => simp [enter, isRead, isCommand]
  | pulse c => simp [enter, isRead, isCommand, CoilBank.lock]
  | enable c => simp [enter, isRead, isCommand, CoilBank.lock]
  | disable n => simp [enter, isRead, isCommand, CoilBank.lock]

end CoilJob

namespace CoilPanel.Mirrors

open CoilJob (StepsTo)

variable {job : CoilJob} {t : TaskId} {now : Nat} {p q p' q' : CoilPanel} {stage : CoilStage}
  {progress progress' : Progress CoilStage CoilJob.Result} {r : TaskId → TaskId} {c : CoilNumber}

theorem fault? (h : p.Mirrors r c q) : q.board.fault? c = p.board.fault? c :=
  Board.fault?_congr h.config h.online c

/-- What a job on another coil does cannot be seen. -/
theorem other (h : p.Mirrors r c q) (hs : job.StepsTo t now p stage progress p') (hc : job.coil ≠ c)
    (hin : stage ≠ .start → job.coil ∈ p.bank.slots) : p'.Mirrors r c q := by
  obtain ⟨hcoil, hlock, hattempts⟩ := hs.frame hc
  exact {
    policy := h.policy.trans hs.policy.symm
    config := h.config.trans hs.config.symm
    online := h.online.trans hs.online.symm
    coil := h.coil.trans hcoil.symm
    known := h.known.trans (by simp [hs.mem_slots hin, hc])
    lock := by rw [h.lock, hlock]
    attempts := h.attempts.trans hattempts.symm }

section Own

variable (h : p.Mirrors r job.coil q) (hself : ∀ u ∈ (p.bank.lock job.coil).queue, r u = r t → u = t)

include h

/-- The same job on both sides keeps them alike, if it does the same to the coil, its lock and the
attempts. -/
theorem both (hp : job.StepsTo t now p stage progress p') (hq : job.StepsTo (r t) now q stage progress' q')
    (hin : stage ≠ .start → job.coil ∈ p.bank.slots)
    (hcoil : q'.bank.coil job.coil = p'.bank.coil job.coil)
    (hlock : q'.bank.lock job.coil = (p'.bank.lock job.coil).rename r)
    (hattempts : q'.journal.attemptsOn job.coil = p'.journal.attemptsOn job.coil) :
    p'.Mirrors r job.coil q' where
  policy := by rw [hq.policy, hp.policy, h.policy]
  config := by rw [hq.config, hp.config, h.config]
  online := by rw [hq.online, hp.online, h.online]
  coil := hcoil
  known := by rw [hp.mem_slots hin, hq.mem_slots fun hs => h.known.mpr (hin hs), h.known]
  lock := hlock
  attempts := hattempts

theorem enter : (job.enter (r t) q).1 = (job.enter t p).1 ∧
    (job.enter t p).2.Mirrors r job.coil (job.enter (r t) q).2 := by
  have hheld : (q.bank.lock job.coil).isHeld = (p.bank.lock job.coil).isHeld := by
    rw [h.lock, Lock.isHeld_rename]
  simp only [CoilJob.enter_eq, h.known, h.policy, hheld]
  split
  · exact ⟨rfl, h⟩
  · split
    · refine ⟨rfl, { h with attempts := ?_ }⟩
      simp only [CoilPanel.note, Journal.attemptsOn, Journal.attempts_append, Journal.attempts_noted,
        Journal.attempts_nil, List.append_nil]
      exact h.attempts
    · refine ⟨rfl, { h with coil := ?_, known := ?_, lock := ?_ }⟩
      · simp [h.coil]
      · simp
      · simp [h.lock, Lock.rename_request]

include hself

theorem step (hn : p.bank.Numbered) (hn' : q.bank.Numbered)
    (hin : stage ≠ .start → job.coil ∈ p.bank.slots) :
    (job.step (r t) now stage q).1 = (job.step t now stage p).1 ∧
      (job.step t now stage p).2.Mirrors r job.coil (job.step (r t) now stage q).2 := by
  have hp := job.step_stepsTo t now hn stage
  have hq := job.step_stepsTo (r t) now hn' stage
  cases stage with
  | start => exact h.enter
  | inLine =>
      -- The renaming is injective on the queue, so the same job has its turn on both sides.
      have hholder : (q.bank.lock job.coil).holder = some (r t) ↔ (p.bank.lock job.coil).holder = some t := by
        rw [h.lock, Lock.holder_rename hself]
      by_cases hh : (p.bank.lock job.coil).holder = some t
      · obtain ⟨hprogress, hcoil, hattempts, hlock⟩ := hp.turn hh
        obtain ⟨hprogress', hcoil', hattempts', hlock'⟩ := hq.turn (hholder.mpr hh)
        rw [h.coil, h.fault?] at hprogress' hcoil' hattempts' hlock'
        refine ⟨hprogress'.trans hprogress.symm, h.both hp hq hin (hcoil'.trans hcoil.symm) ?_ ?_⟩
        · rw [hlock', hlock, h.lock]
          split
          · exact Lock.rename_release.symm
          · rfl
        · rw [hattempts', hattempts, h.attempts]
      · obtain ⟨hprogress, hp'⟩ := hp.wait hh
        obtain ⟨hprogress', hq'⟩ := hq.wait (mt hholder.mp hh)
        rw [hprogress, hprogress', hp', hq']
        exact ⟨rfl, h⟩
  | cooling d =>
      rcases hp.cool with ⟨hd, hprogress, hp'⟩ | ⟨hd, hprogress, hcoil, hattempts, hlock⟩
      · rcases hq.cool with ⟨-, hprogress', hq'⟩ | ⟨hd', -⟩
        · rw [hprogress, hprogress', hp', hq']
          exact ⟨rfl, h⟩
        · omega
      · rcases hq.cool with ⟨hd', -⟩ | ⟨-, hprogress', hcoil', hattempts', hlock'⟩
        · omega
        · rw [h.coil, h.fault?] at hprogress'
          refine ⟨hprogress'.trans hprogress.symm, h.both hp hq hin ?_ ?_ ?_⟩
          · rw [hcoil', hcoil, h.coil]
          · rw [hlock', hlock, h.lock, Lock.rename_release]
          · rw [hattempts', hattempts, h.attempts, h.fault?]

theorem abandon (hin : stage ≠ .start → job.coil ∈ p.bank.slots) :
    (job.abandon t stage p).Mirrors r job.coil (job.abandon (r t) stage q) := by
  cases stage with
  | start => exact h
  | inLine | cooling d =>
      refine { h with coil := ?_, known := ?_, lock := ?_ }
      · simp [CoilJob.abandon, h.coil]
      · rw [CoilJob.mem_slots_abandon hin, CoilJob.mem_slots_abandon fun hs => h.known.mpr (hin hs), h.known]
      · simp [CoilJob.abandon, h.lock, Lock.rename_leave hself]

end Own

theorem abandon_other (h : p.Mirrors r c q) (hc : job.coil ≠ c)
    (hin : stage ≠ .start → job.coil ∈ p.bank.slots) : (job.abandon t stage p).Mirrors r c q := by
  cases stage with
  | start => exact h
  | inLine | cooling d =>
      refine { h with coil := ?_, known := ?_, lock := ?_ }
      · simp [CoilJob.abandon, h.coil]
      · rw [CoilJob.mem_slots_abandon hin, h.known]
      · simp [CoilJob.abandon, h.lock, hc]

end CoilPanel.Mirrors
namespace Crew

/-! ## Taking the other coils out of a run -/

/-- Whether the task `t` is on the coil `c`, where `called` are all calls of a run. -/
def isOn (c : CoilNumber) (called : List CoilJob) (t : TaskId) : Bool :=
  (called[t]?).any fun job => decide (job.coil = c)

/-- The place of a task among those on the coil. -/
def place (c : CoilNumber) (called : List CoilJob) (t : TaskId) : Nat :=
  (called.take t).countP fun job => decide (job.coil = c)

/-- What is left of an event when only one coil is looked at. Tasks on the coil get their places among
themselves for identities. -/
def only? (c : CoilNumber) (called : List CoilJob) : Event CoilJob Bool → Option (Event CoilJob Bool)
  | .call job => if job.coil = c then some (.call job) else none
  | .step t => if isOn c called t then some (.step (place c called t)) else none
  | .abandon t => if isOn c called t then some (.abandon (place c called t)) else none
  | .pass ms => some (.pass ms)
  | .outside online => some (.outside online)

/-- The run without the calls, steps and losses of all tasks on other coils. -/
def only (c : CoilNumber) (called : List CoilJob) (events : List (Event CoilJob Bool)) :
    List (Event CoilJob Bool) :=
  events.filterMap (only? c called)

section Place

variable {c : CoilNumber} {called : List CoilJob} {t u : Nat} {job : CoilJob}

theorem isOn_iff : isOn c called t = true ↔ ∃ job, called[t]? = some job ∧ job.coil = c := by
  cases h : called[t]? <;> simp [isOn, h]

theorem isOn_of_called (h : called[t]? = some job) : isOn c called t = true ↔ job.coil = c := by
  simp [isOn, h]

theorem place_succ (h : called[t]? = some job) :
    place c called (t + 1) = place c called t + if job.coil = c then 1 else 0 := by
  rw [place, List.take_add_one, h, List.countP_append, place]
  by_cases hc : job.coil = c <;> simp [hc]

theorem place_mono (h : t ≤ u) : place c called t ≤ place c called u :=
  (List.take_sublist_take_left h).countP_le

theorem place_lt (ht : isOn c called t = true) (h : t < u) : place c called t < place c called u := by
  obtain ⟨job, hjob, hc⟩ := isOn_iff.mp ht
  have hsucc : place c called (t + 1) = place c called t + 1 := by rw [place_succ hjob, if_pos hc]
  have hmono : place c called (t + 1) ≤ place c called u := place_mono h
  omega

theorem place_eq_iff (ht : isOn c called t = true) (hu : isOn c called u = true) :
    place c called t = place c called u ↔ t = u := by
  constructor
  · intro h
    rcases Nat.lt_trichotomy t u with hlt | heq | hlt
    · exact absurd h (Nat.ne_of_lt (place_lt ht hlt))
    · exact heq
    · exact absurd h.symm (Nat.ne_of_lt (place_lt hu hlt))
  · exact congrArg _

end Place

/-- The world `v` is what is left of the world `w` when only the coil `c` is looked at. -/
structure Shadow (c : CoilNumber) (called : List CoilJob) (w v : Crew) : Prop where
  now : v.now = w.now
  panel : w.state.Mirrors (place c called) c v.state
  nextId : v.nextId = place c called w.nextId
  running : ∀ t, isOn c called t = true → v.running[place c called t]? = w.running[t]?
  results : ∀ t, isOn c called t = true → v.results[place c called t]? = w.results[t]?

namespace Shadow

variable {c : CoilNumber} {called : List CoilJob} {w v : Crew} {t : TaskId}

section Own

variable {job : CoilJob} {p q : CoilPanel} {progress : Progress CoilStage CoilJob.Result}

theorem onward (h : Shadow c called w v) (ht : isOn c called t = true)
    (hpanel : p.Mirrors (place c called) c q) :
    Shadow c called (w.onward t job p progress) (v.onward (place c called t) job q progress) := by
  cases progress with
  | blocked => exact h
  | next stage =>
      refine ⟨h.now, hpanel, h.nextId, fun u hu => ?_, h.results⟩
      simp only [Crew.onward, Map.getElem?_insert, place_eq_iff ht hu, h.running u hu]
  | finished result =>
      refine ⟨h.now, hpanel, h.nextId, fun u hu => ?_, fun u hu => ?_⟩
      · simp only [Crew.onward, Map.getElem?_erase, place_eq_iff ht hu, h.running u hu]
      · simp only [Crew.onward, Map.getElem?_insert, place_eq_iff ht hu, h.results u hu]

end Own

section Step

variable (h : Shadow c called w v) (hw : (site w).Good) (hv : (site v).Good)
  (hcalled : ∀ (t : TaskId) job stage, w.running[t]? = some (job, stage) → called[t]? = some job)

include hw hcalled

theorem apart (ht : isOn c called t = true) :
    ∀ u ∈ (w.state.bank.lock c).queue, place c called u = place c called t → u = t := by
  intro u hu
  obtain ⟨job, stage, hr, hc, -⟩ := (hw.orderly.mem_queue c u).mp hu
  exact (place_eq_iff ((isOn_of_called (hcalled u job stage hr)).mpr hc) ht).mp

include h

include hv in
theorem step (ht : isOn c called t = true) :
    Shadow c called (scene.next w (.step t)) (scene.next v (.step (place c called t))) := by
  change Shadow c called (w.step CoilJob.workings t) (v.step CoilJob.workings (place c called t))
  cases hr : w.running[t]? with
  | none =>
      rw [World.step_of_none hr, World.step_of_none ((h.running t ht).trans hr)]
      exact h
  | some task =>
      obtain ⟨job, stage⟩ := task
      obtain rfl := (isOn_of_called (hcalled t job stage hr)).mp ht
      rw [step_eq hr, step_eq ((h.running t ht).trans hr), h.now]
      obtain ⟨hprogress, hpanel⟩ := h.panel.step (apart hw hcalled ht) hw.orderly.numbered
        hv.orderly.numbered (hw.orderly.mem_slots hr)
      rw [hprogress]
      exact h.onward ht hpanel

theorem step_other (ht : isOn c called t = false) : Shadow c called (scene.next w (.step t)) v := by
  change Shadow c called (w.step CoilJob.workings t) v
  cases hr : w.running[t]? with
  | none => rwa [World.step_of_none hr]
  | some task =>
      obtain ⟨job, stage⟩ := task
      have hc : job.coil ≠ c := fun hc => by simp [(isOn_of_called (hcalled t job stage hr)).mpr hc] at ht
      obtain ⟨progress, p, hst, hstep⟩ := step_stepsTo hw.orderly.numbered hr
      have hframe (u : TaskId) (hu : isOn c called u = true) : u ≠ t := by
        rintro rfl
        cases hu.symm.trans ht
      rw [hstep]
      refine ⟨?_, ?_, ?_, fun u hu => ?_, fun u hu => ?_⟩
      · rw [h.now]
        cases progress <;> rfl
      · rw [state_onward hst]
        exact h.panel.other hst hc (hw.orderly.mem_slots hr)
      · rw [h.nextId]
        cases progress <;> rfl
      · rw [(onward_other (hframe u hu)).2, h.running u hu]
      · rw [(onward_other (hframe u hu)).1, h.results u hu]

theorem abandon (ht : isOn c called t = true) :
    Shadow c called (scene.next w (.abandon t)) (scene.next v (.abandon (place c called t))) := by
  change Shadow c called (w.abandon CoilJob.workings t) (v.abandon CoilJob.workings (place c called t))
  obtain ⟨hr, habandon⟩ | ⟨⟨job, stage⟩, hr, habandon⟩ := World.abandon_cases CoilJob.workings w t
  · obtain ⟨-, habandon'⟩ | ⟨task, hr', -⟩ := World.abandon_cases CoilJob.workings v (place c called t)
    · rw [habandon, habandon']
      exact h
    · cases hr'.symm.trans ((h.running t ht).trans hr)
  · obtain ⟨hr', -⟩ | ⟨task, hr', habandon'⟩ := World.abandon_cases CoilJob.workings v (place c called t)
    · cases hr'.symm.trans ((h.running t ht).trans hr)
    · obtain rfl : (job, stage) = task := Option.some.inj (hr.symm.trans ((h.running t ht).symm.trans hr'))
      obtain rfl := (isOn_of_called (hcalled t job stage hr)).mp ht
      rw [habandon, habandon']
      refine ⟨h.now, h.panel.abandon (apart hw hcalled ht) (hw.orderly.mem_slots hr), h.nextId,
        fun u hu => ?_, h.results⟩
      simp only [Map.getElem?_erase, place_eq_iff ht hu, h.running u hu]

theorem abandon_other (ht : isOn c called t = false) : Shadow c called (scene.next w (.abandon t)) v := by
  change Shadow c called (w.abandon CoilJob.workings t) v
  obtain ⟨-, habandon⟩ | ⟨⟨job, stage⟩, hr, habandon⟩ := World.abandon_cases CoilJob.workings w t
  · rwa [habandon]
  · have hc : job.coil ≠ c := fun hc => by simp [(isOn_of_called (hcalled t job stage hr)).mpr hc] at ht
    rw [habandon]
    refine ⟨h.now, h.panel.abandon_other hc (hw.orderly.mem_slots hr), h.nextId, fun u hu => ?_, h.results⟩
    have hne : t ≠ u := by
      rintro rfl
      cases hu.symm.trans ht
    rw [h.running u hu, Map.getElem?_erase, if_neg hne]

end Step

theorem call (h : Shadow c called w v) {job : CoilJob} (hjob : called[w.nextId]? = some job)
    (hc : job.coil = c) : Shadow c called (scene.next w (.call job)) (scene.next v (.call job)) where
  now := h.now
  panel := h.panel
  nextId := by
    change v.nextId + 1 = place c called (w.nextId + 1)
    rw [place_succ hjob, if_pos hc, h.nextId]
  running := by
    intro u hu
    change (v.running.insert v.nextId (job, .start))[_]? = (w.running.insert w.nextId (job, .start))[u]?
    simp only [h.nextId, Map.getElem?_insert, place_eq_iff ((isOn_of_called hjob).mpr hc) hu, h.running u hu]
  results := h.results

theorem call_other (h : Shadow c called w v) {job : CoilJob} (hjob : called[w.nextId]? = some job)
    (hc : job.coil ≠ c) : Shadow c called (scene.next w (.call job)) v where
  now := h.now
  panel := h.panel
  nextId := by
    change v.nextId = place c called (w.nextId + 1)
    rw [place_succ hjob, if_neg hc, h.nextId, Nat.add_zero]
  running := by
    intro u hu
    have hne : w.nextId ≠ u := by
      rintro rfl
      exact hc ((isOn_of_called hjob).mp hu)
    change _ = (w.running.insert w.nextId (job, .start))[u]?
    rw [h.running u hu, Map.getElem?_insert, if_neg hne]
  results := h.results

theorem atRest (policy : CommandPolicy) (config : BoardConfig) :
    Shadow c called (Crew.atRest policy config) (Crew.atRest policy config) where
  now := rfl
  panel := ⟨rfl, rfl, rfl, rfl, Iff.rfl, rfl, rfl⟩
  nextId := by simp [Crew.atRest, World.ofState, place]
  running := fun t _ => by simp [Crew.atRest, World.ofState]
  results := fun t _ => by simp [Crew.atRest, World.ofState]

end Shadow

section Run

variable (policy : CommandPolicy) (config : BoardConfig) (c : CoilNumber)

/-- What is left of a run is a run to what is left of its end. -/
theorem run_shadow {called : List CoilJob} {events : List (Event CoilJob Bool)}
    (hcalled : calls events <+: called) :
    Shadow c called (scene.run (atRest policy config) events)
      (scene.run (atRest policy config) (only c called events)) := by
  -- Places are counted among all calls of the whole run, so `called` stays while the run grows to it.
  induction events using List.reverseRecOn with
  | nil => exact .atRest policy config
  | append_singleton events e ih =>
      have hbefore : calls events <+: called :=
        (by simp [calls, List.filterMap_append] : calls events <+: calls (events ++ [e])).trans hcalled
      have h := ih hbefore
      have hw := run_good policy config events
      have hv := run_good policy config (only c called events)
      have hjobs (t : TaskId) (job : CoilJob) (stage : CoilStage)
          (hr : (scene.run (atRest policy config) events).running[t]? = some (job, stage)) :
          called[t]? = some job := by
        obtain ⟨more, rfl⟩ := hbefore
        have ht := call_of_running policy config hr
        rw [List.getElem?_append_left (List.getElem?_eq_some_iff.mp ht).1, ht]
      rw [only, List.filterMap_append, Scene.run_append, Scene.run_append, ← only]
      cases e with
      | call job =>
          have hjob : called[(scene.run (atRest policy config) events).nextId]? = some job := by
            obtain ⟨more, rfl⟩ := hcalled
            rw [atRest, scene.run_nextId, calls, List.filterMap_append, ← calls]
            simp [Event.call?]
          by_cases hc : job.coil = c
          · simpa [only?, hc] using h.call hjob hc
          · simpa [only?, hc] using h.call_other hjob hc
      | step t =>
          cases ht : isOn c called t with
          | true => simpa [only?, ht] using h.step hw hv hjobs ht
          | false => simpa [only?, ht] using h.step_other hw hjobs ht
      | abandon t =>
          cases ht : isOn c called t with
          | true => simpa [only?, ht] using h.abandon hw hjobs ht
          | false => simpa [only?, ht] using h.abandon_other hw hjobs ht
      | pass ms => exact ⟨congrArg (· + ms) h.now, h.panel, h.nextId, h.running, h.results⟩
      | outside online =>
          refine ⟨h.now, { h.panel with online := rfl }, h.nextId, h.running, h.results⟩

end Run

/-! ## What can be seen of a coil -/

/-- A job that was called for, how far it has come, and its result. -/
structure Operation where
  job : CoilJob
  stage : Option CoilStage
  result : Option CoilJob.Result
deriving DecidableEq

/-- Everything about one coil: its recorded state, what the board has been asked to do with it and has done,
and the operations on it in the order of their calls. -/
structure View where
  coil : Coil
  known : Bool
  driver : CoilDriver
  history : List Actuation
  attempts : List Attempt
  operations : List Operation
deriving DecidableEq

def operations (c : CoilNumber) (called : List CoilJob) (w : Crew) : List Operation :=
  called.zipIdx.filterMap fun (job, t) =>
    if job.coil = c then some ⟨job, (w.running[t]?).map (·.2), w.results[t]?⟩ else none

/-- What can be seen of the coil `c` after a run. -/
def view (policy : CommandPolicy) (config : BoardConfig) (c : CoilNumber)
    (events : List (Event CoilJob Bool)) : View :=
  let w := scene.run (atRest policy config) events
  { coil := w.state.bank.coil c
    known := c ∈ w.state.bank.slots
    driver := w.state.board.driver c
    history := w.state.board.history.filter fun a => decide (a.coil = c)
    attempts := w.state.journal.attemptsOn c
    operations := operations c (calls events) w }

section View

variable {c : CoilNumber} {called : List CoilJob} {events : List (Event CoilJob Bool)}

theorem only_append (events events' : List (Event CoilJob Bool)) :
    only c called (events ++ events') = only c called events ++ only c called events' :=
  List.filterMap_append

theorem calls_only :
    calls (only c called events) = (calls events).filter fun job => decide (job.coil = c) := by
  induction events with
  | nil => rfl
  | cons e events ih =>
      cases e with
      | call job =>
          by_cases hc : job.coil = c <;>
            simpa [only, calls, only?, Event.call?, List.filterMap_cons, hc] using ih
      | step t =>
          cases ht : isOn c called t <;>
            simpa [only, calls, only?, Event.call?, List.filterMap_cons, ht] using ih
      | abandon t =>
          cases ht : isOn c called t <;>
            simpa [only, calls, only?, Event.call?, List.filterMap_cons, ht] using ih
      | pass ms => simpa [only, calls, only?, Event.call?, List.filterMap_cons] using ih
      | outside online => simpa [only, calls, only?, Event.call?, List.filterMap_cons] using ih

theorem place_length {js : List CoilJob} (h : js <+: called) :
    place c called js.length = (js.filter fun job => decide (job.coil = c)).length := by
  rw [place, ← List.prefix_iff_eq_take.mp h, List.countP_eq_length_filter]

theorem Shadow.operations {w v : Crew} (h : Shadow c called w v) {js : List CoilJob} (hjs : js <+: called) :
    operations c (js.filter fun job => decide (job.coil = c)) v = operations c js w := by
  induction js using List.reverseRecOn with
  | nil => rfl
  | append_singleton js job ih =>
      have hbefore : js <+: called := (List.prefix_append js [job]).trans hjs
      have hjob : called[js.length]? = some job := by
        obtain ⟨more, rfl⟩ := hjs
        simp
      have hlast := ih hbefore
      unfold Crew.operations at hlast ⊢
      rw [List.filter_append, List.zipIdx_append, List.zipIdx_append, List.filterMap_append,
        List.filterMap_append, hlast]
      by_cases hc : job.coil = c
      · have hon := (isOn_of_called hjob).mpr hc
        have hrunning := h.running js.length hon
        have hresults := h.results js.length hon
        rw [place_length hbefore] at hrunning hresults
        simp [hc, hrunning, hresults]
      · simp [hc]

variable (policy : CommandPolicy) (config : BoardConfig)

theorem view_only (h : calls events <+: called) :
    view policy config c (only c called events) = view policy config c events := by
  have hshadow := run_shadow policy config c h
  have hw := (run_good policy config events).faithful
  have hv := (run_good policy config (only c called events)).faithful
  -- The history and the driver of a coil are functions of the attempts on it, which the runs share.
  have hhistory := (hv.history_filter c).trans
    ((congrArg (fun xs => (xs.filter (·.isAccepted)).map (·.actuation)) hshadow.panel.attempts).trans
      (hw.history_filter c).symm)
  have hconfig := hshadow.panel.config
  have hoperations := hshadow.operations h
  have hcalls : calls (only c called events) = _ := calls_only
  rw [← hcalls] at hoperations
  simp only [view, View.mk.injEq]
  refine ⟨hshadow.panel.coil, by simp only [hshadow.panel.known], ?_, hhistory, hshadow.panel.attempts,
    hoperations⟩
  exact (hv.replays c).trans ((congrArg₂ (fun (k : BoardConfig) as =>
    as.foldl (fun d a => CoilDriver.apply d a k.holdPower) .idle) hconfig hhistory).trans (hw.replays c).symm)

theorem view_congr {events events' : List (Event CoilJob Bool)}
    (h : only c (calls events') events' = only c (calls events) events) :
    view policy config c events' = view policy config c events := by
  rw [← view_only policy config (List.prefix_rfl (l := calls events')), h,
    view_only policy config List.prefix_rfl]

end View

/-! ## Interchanging what is done on two coils -/

/-- Whether an event calls for, goes on with or gives up work on the coil `a`. -/
def concerns (a : CoilNumber) (called : List CoilJob) : Event CoilJob Bool → Bool
  | .call job => decide (job.coil = a)
  | .step t | .abandon t => isOn a called t
  | .pass _ | .outside _ => false

/-- The same event, if the task `t` has the identity `r t`. -/
def renumber (r : TaskId → TaskId) : Event CoilJob Bool → Event CoilJob Bool
  | .step t => .step (r t)
  | .abandon t => .abandon (r t)
  | .call job => .call job
  | .pass ms => .pass ms
  | .outside online => .outside online

/-- The identities that tasks have if, after the first `n` calls, the next `q` come before the `p` that
they follow. -/
def interchange (n p q t : Nat) : Nat :=
  if t < n then t else if t < n + p then t + q else if t < n + p + q then t - p else t

section Interchange

variable {a b c : CoilNumber} {called first second rest : List CoilJob} {t : Nat}

theorem place_zero (xs : List CoilJob) : place c xs 0 = 0 := by
  simp [place]

theorem place_append (xs ys : List CoilJob) (t : Nat) :
    place c (xs ++ ys) t = place c xs t + place c ys (t - xs.length) := by
  simp only [place, List.take_append, List.countP_append]

theorem place_of_length_le {xs : List CoilJob} (h : xs.length ≤ t) :
    place c xs t = place c xs xs.length := by
  simp only [place, List.take_of_length_le h, List.take_length]

theorem place_eq_zero {xs : List CoilJob} (h : ∀ job ∈ xs, job.coil ≠ c) : place c xs t = 0 := by
  rw [place, List.countP_eq_zero]
  intro job hjob
  simpa using h job (List.mem_of_mem_take hjob)

theorem getElem?_interchange (t : Nat) :
    (called ++ second ++ first ++ rest)[interchange called.length first.length second.length t]? =
      (called ++ first ++ second ++ rest)[t]? := by
  unfold interchange
  split
  · grind
  · split
    · grind
    · split <;> grind

theorem isOn_interchange (t : Nat) :
    isOn c (called ++ second ++ first ++ rest) (interchange called.length first.length second.length t) =
      isOn c (called ++ first ++ second ++ rest) t := by
  rw [isOn, getElem?_interchange, isOn]

theorem place_interchange (hab : a ≠ b) (hfirst : ∀ job ∈ first, job.coil = a)
    (hsecond : ∀ job ∈ second, job.coil = b) (ht : isOn c (called ++ first ++ second ++ rest) t = true) :
    place c (called ++ second ++ first ++ rest)
        (interchange called.length first.length second.length t) =
      place c (called ++ first ++ second ++ rest) t := by
  obtain ⟨job, hjob, hc⟩ := isOn_iff.mp ht
  have hnot (xs : List CoilJob) (d : CoilNumber) (hd : ∀ job ∈ xs, job.coil = d) (hne : d ≠ c) (u : Nat) :
      place c xs u = 0 :=
    place_eq_zero fun job hjob heq => hne ((hd job hjob).symm.trans heq)
  simp only [place_append, List.length_append]
  unfold interchange
  -- A task of one block has its place moved by the other block, which counts for nothing on its coil.
  split
  next h =>
    have hn : t - called.length = 0 := by omega
    simp only [Nat.sub_add_eq, hn, Nat.zero_sub, place_zero]
  next h =>
    split
    next h' =>
      have hmem : job ∈ first := by grind
      have hb : b ≠ c := fun hbc => hab ((hfirst job hmem).symm.trans (hc.trans hbc.symm))
      have hfirst' : t + second.length - (called.length + second.length) = t - called.length := by omega
      have hrest : t - (called.length + first.length + second.length) = 0 := by omega
      have hrest' : t + second.length - (called.length + second.length + first.length) = 0 := by omega
      rw [hnot second b hsecond hb, hnot second b hsecond hb, hfirst', hrest, hrest',
        place_of_length_le (by omega : called.length ≤ t + second.length),
        place_of_length_le (by omega : called.length ≤ t)]
      omega
    next h' =>
      split
      next h'' =>
        have hmem : job ∈ second := by grind
        have ha : a ≠ c := fun hac => hab (hac.trans (hc.symm.trans (hsecond job hmem)))
        have hsecond' : t - first.length - called.length = t - (called.length + first.length) := by omega
        have hrest : t - (called.length + first.length + second.length) = 0 := by omega
        have hrest' : t - first.length - (called.length + second.length + first.length) = 0 := by omega
        rw [hnot first a hfirst ha, hnot first a hfirst ha, hsecond', hrest, hrest',
          place_of_length_le (by omega : called.length ≤ t - first.length),
          place_of_length_le (by omega : called.length ≤ t)]
        omega
      next h'' =>
        have hrest : t - (called.length + second.length + first.length) =
            t - (called.length + first.length + second.length) := by omega
        rw [hrest, place_of_length_le (by omega : first.length ≤ t - (called.length + second.length)),
          place_of_length_le (by omega : second.length ≤ t - called.length),
          place_of_length_le (by omega : first.length ≤ t - called.length),
          place_of_length_le (by omega : second.length ≤ t - (called.length + first.length))]
        omega

theorem only_renumber (hab : a ≠ b) (hfirst : ∀ job ∈ first, job.coil = a)
    (hsecond : ∀ job ∈ second, job.coil = b) (events : List (Event CoilJob Bool)) :
    only c (called ++ second ++ first ++ rest)
        (events.map (renumber (interchange called.length first.length second.length))) =
      only c (called ++ first ++ second ++ rest) events := by
  rw [only, List.filterMap_map, only]
  refine List.filterMap_congr fun e _ => ?_
  cases e with
  | step t | abandon t =>
      simp only [Function.comp_apply, renumber, only?, isOn_interchange]
      split
      next ht => rw [place_interchange hab hfirst hsecond ht]
      next => rfl
  | call job | pass ms | outside online => rfl

theorem calls_renumber (r : TaskId → TaskId) (events : List (Event CoilJob Bool)) :
    calls (events.map (renumber r)) = calls events := by
  rw [calls, List.filterMap_map, calls]
  refine List.filterMap_congr fun e _ => ?_
  cases e <;> rfl

theorem coil_of_concerns {events : List (Event CoilJob Bool)} (h : ∀ e ∈ events, concerns a called e = true) :
    ∀ job ∈ calls events, job.coil = a := by
  intro job hjob
  obtain ⟨e, he, hcall⟩ := List.mem_filterMap.mp hjob
  have ha := h e he
  cases e with
  | call job' =>
      obtain rfl : job' = job := Option.some.inj hcall
      simpa [concerns] using ha
  | step t | abandon t | pass ms | outside online => cases hcall

theorem only_eq_nil {events : List (Event CoilJob Bool)} (h : ∀ e ∈ events, concerns a called e = true)
    (hac : a ≠ c) : only c called events = [] := by
  have hon (t : TaskId) (ha : isOn a called t = true) : isOn c called t = false := by
    obtain ⟨job, hjob, rfl⟩ := isOn_iff.mp ha
    exact Bool.eq_false_iff.mpr (mt (isOn_of_called hjob).mp hac)
  rw [only, List.filterMap_eq_nil_iff]
  intro e he
  have ha := h e he
  cases e with
  | call job =>
      have hjob : job.coil = a := by simpa [concerns] using ha
      simp [only?, hjob, hac]
  | step t | abandon t => simp [only?, hon t ha]
  | pass ms | outside online => cases ha

theorem only_comm {first second : List (Event CoilJob Bool)} (hab : a ≠ b)
    (hfirst : ∀ e ∈ first, concerns a called e = true) (hsecond : ∀ e ∈ second, concerns b called e = true) :
    only c called second ++ only c called first = only c called first ++ only c called second := by
  by_cases hac : a = c
  · rw [only_eq_nil hsecond fun hbc => hab (hac.trans hbc.symm), List.append_nil, List.nil_append]
  · rw [only_eq_nil hfirst hac, List.append_nil, List.nil_append]

end Interchange

section Independence

variable (policy : CommandPolicy) (config : BoardConfig)

/-- What is done on one coil and what is done on another one right after it can as well be done in the
other order: no coil shows a difference. -/
theorem view_interchange (c : CoilNumber) {a b : CoilNumber}
    {before first second after : List (Event CoilJob Bool)} (hab : a ≠ b)
    (hfirst : ∀ e ∈ first, concerns a (calls (before ++ first ++ second ++ after)) e = true)
    (hsecond : ∀ e ∈ second, concerns b (calls (before ++ first ++ second ++ after)) e = true) :
    view policy config c ((before ++ second ++ first ++ after).map
        (renumber (interchange (calls before).length (calls first).length (calls second).length))) =
      view policy config c (before ++ first ++ second ++ after) := by
  have hcalls (xs ys : List (Event CoilJob Bool)) :
      calls (before ++ xs ++ ys ++ after) = calls before ++ calls xs ++ calls ys ++ calls after := by
    simp only [calls, List.filterMap_append]
  have hswap := only_comm (c := c) hab hfirst hsecond
  apply view_congr
  rw [calls_renumber, hcalls second first, only_renumber hab (coil_of_concerns hfirst)
    (coil_of_concerns hsecond), ← hcalls first second]
  generalize calls (before ++ first ++ second ++ after) = called at hswap ⊢
  simp only [only_append, List.append_assoc]
  rw [← List.append_assoc (only c called second), hswap, List.append_assoc]

/-- Coils are independent. Without all that is done on other coils, the coil `c` looks the same at every
moment; it looks the same in any two runs that do the same on it; and what is done on two coils one
after the other may be interchanged. -/
theorem coils_are_independent (c : CoilNumber) (events : List (Event CoilJob Bool)) :
    (∀ before after, events = before ++ after →
      view policy config c (only c (calls events) before) = view policy config c before) ∧
    (∀ events', only c (calls events') events' = only c (calls events) events →
      view policy config c events' = view policy config c events) ∧
    ∀ a b before first second after, a ≠ b → events = before ++ first ++ second ++ after →
      (∀ e ∈ first, concerns a (calls events) e = true) → (∀ e ∈ second, concerns b (calls events) e = true) →
        view policy config c ((before ++ second ++ first ++ after).map
            (renumber (interchange (calls before).length (calls first).length (calls second).length))) =
          view policy config c events := by
  refine ⟨?_, fun events' h => view_congr policy config h, ?_⟩
  · rintro before after rfl
    refine view_only policy config ?_
    simp only [calls, List.filterMap_append]
    exact List.prefix_append _ _
  · rintro a b before first second after hab rfl hfirst hsecond
    exact view_interchange policy config c hab hfirst hsecond

/-- A coil is pulsed and another one is disabled, in either order; then the board is lost. -/
theorem coils_are_independent_side_by_side :
    let c : CoilNumber := ⟨"C1", by decide⟩
    let c' : CoilNumber := ⟨"C2", by decide⟩
    let before : List (Event CoilJob Bool) := [.call (.enable ⟨c, 10, ⟨1.0⟩, ⟨0.5⟩⟩), .step 0, .step 0]
    let first : List (Event CoilJob Bool) := [.call (.pulse ⟨c, 10, ⟨1.0⟩⟩), .step 1, .step 1]
    let second : List (Event CoilJob Bool) := [.call (.disable c'), .step 2, .step 2]
    let after : List (Event CoilJob Bool) := [.outside false, .pass 10, .step 1]
    let events := before ++ first ++ second ++ after
    c ≠ c' ∧ (∀ e ∈ first, concerns c (calls events) e = true) ∧
    (∀ e ∈ second, concerns c' (calls events) e = true) ∧
    view .queue .default c (only c (calls events) events) = view .queue .default c events ∧
    view .queue .default c (before ++
        [.call (.disable c'), .step 1, .step 1, .call (.pulse ⟨c, 10, ⟨1.0⟩⟩), .step 2, .step 2,
          .outside false, .pass 10, .step 2]) =
      view .queue .default c events := by
  intro c c' before first second after events
  have hc : c ≠ c' := by decide
  have hfirst : ∀ e ∈ first, concerns c (calls events) e = true := by decide
  have hsecond : ∀ e ∈ second, concerns c' (calls events) e = true := by decide
  obtain ⟨herased, -, hswapped⟩ := coils_are_independent .queue .default c events
  exact ⟨hc, hfirst, hsecond, herased events [] (List.append_nil events).symm,
    hswapped c c' before first second after hc rfl hfirst hsecond⟩

end Independence

end Crew
end Playfield
