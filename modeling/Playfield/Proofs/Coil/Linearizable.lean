import Playfield.Proofs.Coil.Explains

/-! Jobs on one coil take effect one at a time. Whatever else goes on, what the jobs on a coil do to it and
what they answer is explained by a serial run. -/
namespace Playfield.Crew

variable {c : CoilNumber} {w w' : Crew} {e : Event CoilJob Bool} {t : TaskId} {job : CoilJob}

theorem joins_of_lock_eq (h : w'.state.bank.lock c = w.state.bank.lock c) : joins c w e w' = none := by
  cases e with
  | step t => simp [joins, h]
  | _ => rfl

theorem obtains_of_lock_eq (h : w'.state.bank.lock c = w.state.bank.lock c) :
    obtains c w e w' = none := by
  simp [obtains, h]

theorem joins_of_holder (hh : (w.state.bank.lock c).holder = some t) : joins c w (.step t) w' = none := by
  have hq : t ∈ (w.state.bank.lock c).queue := by simp [Lock.queue_of_holder hh]
  simp [joins, hq]

theorem obtains_of_release (hg : w.site.Good) (hh : (w.state.bank.lock c).holder = some t)
    (h : w'.state.bank.lock c = (w.state.bank.lock c).release) :
    obtains c w e w' = (w.state.bank.lock c).release.holder := by
  rw [obtains, h, hh, if_neg (holder_release_ne hg hh)]

theorem joins_of_request (hg : w.site.Good) (hr : w.running[t]? = some (job, .start))
    (h : w'.state.bank.lock c = (w.state.bank.lock c).request t) :
    joins c w (.step t) w' = some t := by
  have htidy : (w.state.bank.lock c).Tidy := hg.orderly.tidy c
  have hq : t ∈ (w'.state.bank.lock c).queue := by simp [h, htidy.queue_request]
  have hnq : t ∉ (w.state.bank.lock c).queue := by
    intro hm
    obtain ⟨j, g, hj, -, hne⟩ := (hg.orderly.mem_queue c t).mp hm
    cases hr.symm.trans hj
    exact hne rfl
  rw [joins, if_pos ⟨hq, hnq⟩]

theorem obtains_of_request (h : w'.state.bank.lock c = (w.state.bank.lock c).request t) :
    obtains c w e w' = if (w.state.bank.lock c).holder = none then some t else none := by
  rw [obtains, h]
  cases hh : (w.state.bank.lock c).holder with
  | none => simp [Lock.request, hh]
  | some u => simp [Lock.holder_request hh]

namespace Explains

variable {called called' : List CoilJob} {s : Crew} {turns : List Turn} {obtained joined : List TaskId}

/-- After the event `e` the serial run `s` of the turns, or one that goes on from it, explains what has
been done to the coil. -/
def Goes (c : CoilNumber) (called : List CoilJob) (w : Crew) (e : Event CoilJob Bool) (w' s : Crew)
    (turns : List Turn) (obtained joined : List TaskId) : Prop :=
  ∃ turns' more, Turn.serial turns' = Turn.serial turns ++ more ∧
    Explains c called w' (scene.run s more) turns' (obtained ++ (obtains c w e w').toList)
      (joined ++ (joins c w e w').toList)

/-- An event that leaves the lock of the coil alone is neither a request nor a grant. -/
theorem goes_of_lock_eq (h : Explains c called' w' s turns obtained joined)
    (hlock : w'.state.bank.lock c = w.state.bank.lock c) :
    Goes c called' w e w' s turns obtained joined := by
  refine ⟨turns, [], (List.append_nil _).symm, ?_⟩
  rw [joins_of_lock_eq hlock, obtains_of_lock_eq hlock]
  simpa using h

variable (h : Explains c called w s turns obtained joined) {stage : CoilStage} {p : CoilPanel}
  {progress : Progress CoilStage CoilJob.Result}

include h

/-- A call makes a new task, which has not got to the coil yet. -/
theorem call (hg : w.site.Good) (hs : w.Sound) (hid : w.nextId = called.length) (job : CoilJob) :
    Explains c (called ++ [job]) (scene.next w (.call job)) s turns obtained joined := by
  have hlt {u : TaskId} {j : CoilJob} (hj : called[u]? = some j) : u < called.length :=
    (List.getElem?_eq_some_iff.mp hj).1
  have hother (u : TaskId) (hu : u ≠ called.length) :
      (scene.next w (.call job)).running[u]? = w.running[u]? :=
    (Map.getElem?_insert ..).trans (if_neg (by rw [hid]; exact Ne.symm hu))
  refine h.keep ?_ ?_ ?_ ?_ rfl rfl rfl
  · intro u j hj
    rw [List.getElem?_append_left (hlt hj), hj]
  · intro u j r hj _ _ hr
    have hu : u < called.length := by
      rw [← hid]
      exact hs.results_lt u (Std.ExtTreeMap.mem_iff_isSome_getElem?.mpr
        (by rw [show w.results[u]? = some r from hr]; rfl))
    rw [List.getElem?_append_left hu] at hj
    exact .inr ⟨hj, hr⟩
  · intro x hx
    exact ⟨rfl, hother _ (Nat.ne_of_lt (hlt (h.jobs x hx).1))⟩
  · intro u hu
    obtain ⟨j, g, hj, -⟩ := hg.orderly.of_holder hu
    refine hother u ?_
    rintro rfl
    rw [← hid] at hj
    cases hs.running_next.symm.trans hj

theorem elsewhere (hg : w.site.Good) (hcall : called[t]? = some job) (hc : job.coil ≠ c)
    (hr : w.running[t]? = some (job, stage))
    (hst : job.StepsTo t w.now w.state stage progress p) :
    Explains c called (w.onward t job p progress) s turns obtained joined := by
  obtain ⟨hcoil, hlock, hsent⟩ := hst.frame hc
  have hstate := state_onward hst
  refine h.keep (fun _ _ hj => hj) ?_ ?_ ?_ (by rw [hstate, hcoil]) (by rw [hstate, hlock])
    (by rw [hstate, hsent])
  · intro u job' r hj hcu _ hres
    have hu : u ≠ t := by
      rintro rfl
      cases hcall.symm.trans hj
      exact hc hcu
    rw [(onward_other hu).1] at hres
    exact .inr ⟨hj, hres⟩
  · intro x hx
    refine onward_other ?_
    rintro rfl
    obtain ⟨hj, hcx⟩ := h.jobs x hx
    cases hcall.symm.trans hj
    exact hc hcx
  · intro u hu
    refine (onward_other ?_).2
    rintro rfl
    obtain ⟨j, g, hj, hcu, -⟩ := hg.orderly.of_holder hu
    cases hr.symm.trans hj
    exact hc hcu

/-- A job that is done at once, because it reads an unknown coil or the coil is busy. -/
theorem doneAtOnce {r : CoilJob.Result} (hg : w.site.Good) (hcall : called[t]? = some job)
    (hr : w.running[t]? = some (job, .start)) (hres : job.isRead = true ∨ r = .error (.busy c))
    (hcoil : p.bank.coil c = w.state.bank.coil c) (hlock : p.bank.lock c = w.state.bank.lock c)
    (hsent : p.journal.attemptsOn c = w.state.journal.attemptsOn c) :
    Explains c called (w.onward t job p (.finished r)) s turns obtained joined := by
  refine h.keep (fun _ _ hj => hj) ?_ ?_ ?_ hcoil hlock hsent
  · intro u job' r' hj hcu hread hu
    by_cases hut : u = t
    · subst hut
      cases hcall.symm.trans hj
      cases results_onward_finished.symm.trans hu
      rcases hres with hres | rfl
      · cases hres.symm.trans hread
      · exact .inl rfl
    · rw [(onward_other hut).1] at hu
      exact .inr ⟨hj, hu⟩
  · intro x hx
    exact onward_other (h.task_ne hr (by simp) hx)
  · intro u hu
    refine (onward_other ?_).2
    rintro rfl
    obtain ⟨j, g, hj, -, hne⟩ := hg.orderly.of_holder hu
    cases hr.symm.trans hj
    exact hne rfl

theorem goes_of_start (hg : w.site.Good) (hcall : called[t]? = some job) (hc : job.coil = c)
    (hr : w.running[t]? = some (job, .start))
    (hst : job.StepsTo t w.now w.state .start progress p) :
    Goes c called w (.step t) (w.onward t job p progress) s turns obtained joined := by
  subst hc
  have hstate := state_onward hst
  rcases hst.begin with ⟨rfl, hlock, hcoil, hj⟩ | ⟨hread, rfl, rfl, -⟩ | ⟨-, rfl, hbank, -, hj⟩
  · have hlock' : (w.onward t job p (.next .inLine)).state.bank.lock job.coil =
        (w.state.bank.lock job.coil).request t := by rw [hstate, hlock]
    refine ⟨turns, [], (List.append_nil _).symm, ?_⟩
    rw [joins_of_request hg hr hlock', obtains_of_request hlock']
    have hl := h.lineUp hg hr hlock hcoil (by rw [hj])
    split
    · next hh =>
      rw [if_pos hh] at hl
      exact hl
    · next hh =>
      rw [if_neg hh] at hl
      exact hl
  · exact goes_of_lock_eq (h.doneAtOnce hg hcall hr (.inl hread) rfl rfl rfl) rfl
  · refine goes_of_lock_eq (h.doneAtOnce hg hcall hr (.inr rfl) ?_ ?_ ?_) ?_
    · rw [hbank]
    · rw [hbank]
    · exact Journal.attemptsOn_congr hj _
    · rw [hstate, hbank]

theorem goes_of_inLine (hg : w.site.Good) (hs : w.Sound) (hg' : s.site.Good) (hs' : s.Sound)
    (hid : s.nextId = turns.length) (hconfig : s.state.board.config = w.state.board.config)
    (hcall : called[t]? = some job) (hc : job.coil = c) (hr : w.running[t]? = some (job, .inLine))
    (hst : job.StepsTo t w.now w.state .inLine progress p) :
    Goes c called w (.step t) (w.onward t job p progress) s turns obtained joined := by
  subst hc
  have hstate := state_onward hst
  by_cases hh : (w.state.bank.lock job.coil).holder = some t
  · obtain ⟨rfl, hcoil, hsent, hlock⟩ := hst.turn hh
    obtain ⟨-, hfree⟩ := h.due hr hh
    have ht := turned_run hg' hs' hfree w.state.board.online
    rw [hid, ← h.coil, Board.fault?_setOnline hconfig] at ht
    refine ⟨_, _, Turn.serial_append turns ⟨t, job, w.state.board.online, none⟩, ?_⟩
    have hact := h.act hg hs hcall rfl hr hh hcoil hsent hlock ht w.state.board.online
    rw [joins_of_holder hh]
    split at hact
    · next hd =>
      rw [obtains_of_release hg hh (by rw [hstate, hlock, if_pos hd])]
      simpa [Turn.events] using hact
    · next hd =>
      rw [obtains_of_lock_eq (by rw [hstate, hlock, if_neg hd])]
      simpa [Turn.events] using hact
  · obtain ⟨rfl, -⟩ := hst.wait hh
    exact goes_of_lock_eq h rfl

theorem goes_of_cooling {d : Nat} (hg : w.site.Good) (hg' : s.site.Good)
    (hconfig : s.state.board.config = w.state.board.config) (hc : job.coil = c)
    (hr : w.running[t]? = some (job, .cooling d))
    (hst : job.StepsTo t w.now w.state (.cooling d) progress p) :
    Goes c called w (.step t) (w.onward t job p progress) s turns obtained joined := by
  subst hc
  have hstate := state_onward hst
  have hh : (w.state.bank.lock job.coil).holder = some t := hg.orderly.cooling t job d hr
  rcases hst.cool with ⟨-, rfl, -⟩ | ⟨-, rfl, hcoil, hsent, hlock⟩
  · exact goes_of_lock_eq h rfl
  · obtain ⟨ho, earlier, x, rfl, rfl, rfl, hx, hl, hrun⟩ := h.last hr hh
    have ht := cooled_run hg' hrun hl w.state.board.online
    rw [Board.fault?_setOnline hconfig, ← h.coil] at ht
    refine ⟨earlier ++ [{ x with cooled := some w.state.board.online }],
      Turn.cooling x.job earlier.length w.state.board.online, ?_, ?_⟩
    · rw [Turn.serial_append, Turn.serial_append, List.append_assoc]
      simp [Turn.events, hx]
    · rw [joins_of_holder hh, obtains_of_release hg hh (by rw [hstate, hlock]), Option.toList_none,
        List.append_nil]
      exact h.cool hg hh ho hcoil hsent hlock (h.coil ▸ ht) _

/-- A step of any task adds to the serial run what it takes to explain it. -/
theorem goes_of_step (hg : w.site.Good) (hs : w.Sound) (hg' : s.site.Good) (hs' : s.Sound)
    (hid : s.nextId = turns.length) (hconfig : s.state.board.config = w.state.board.config)
    (hcall : ∀ (job : CoilJob) (stage : CoilStage), w.running[t]? = some (job, stage) →
      called[t]? = some job) :
    Goes c called w (.step t) (w.step CoilJob.workings t) s turns obtained joined := by
  cases hr : w.running[t]? with
  | none =>
      rw [World.step_of_none hr]
      exact goes_of_lock_eq h rfl
  | some task =>
      obtain ⟨job, stage⟩ := task
      obtain ⟨progress, p, hst, hw⟩ := step_stepsTo hg.orderly.numbered hr
      have hjob := hcall job stage hr
      rw [hw]
      by_cases hc : job.coil = c
      · cases stage with
        | start => exact h.goes_of_start hg hjob hc hr hst
        | inLine => exact h.goes_of_inLine hg hs hg' hs' hid hconfig hjob hc hr hst
        | cooling d => exact h.goes_of_cooling hg hg' hconfig hc hr hst
      · refine goes_of_lock_eq (h.elsewhere hg hjob hc hr hst) ?_
        rw [state_onward hst, (hst.frame hc).2.1]

end Explains

variable (policy : CommandPolicy) (config : BoardConfig)

/-- Every run without tasks that are given up is explained by a serial run. -/
theorem run_explains (c : CoilNumber) (events : List (Event CoilJob Bool))
    (ha : ∀ t, .abandon t ∉ events) :
    ∃ turns, Explains c (calls events) (scene.run (atRest policy config) events)
      (scene.run (atRest policy config) (Turn.serial turns)) turns
      (scene.observe (obtains c) (atRest policy config) events)
      (scene.observe (joins c) (atRest policy config) events) := by
  induction events using List.reverseRecOn with
  | nil => exact ⟨[], .atRest policy config c⟩
  | append_singleton events e ih =>
      obtain ⟨turns, h⟩ := ih fun t ht => ha t (List.mem_append_left _ ht)
      have hs (es : List (Event CoilJob Bool)) : (scene.run (atRest policy config) es).Sound :=
        scene.run_sound (World.sound_ofState _) es
      have hid (es : List (Event CoilJob Bool)) :
          (scene.run (atRest policy config) es).nextId = (calls es).length := scene.run_nextId _ es
      suffices hgoes : Explains.Goes c (calls (events ++ [e]))
          (scene.run (atRest policy config) events) e
          (scene.next (scene.run (atRest policy config) events) e)
          (scene.run (atRest policy config) (Turn.serial turns)) turns
          (scene.observe (obtains c) (atRest policy config) events)
          (scene.observe (joins c) (atRest policy config) events) by
        obtain ⟨turns', more, hmore, h'⟩ := hgoes
        refine ⟨turns', ?_⟩
        rw [hmore, scene.run_append, scene.run_append, scene.run_cons, scene.run_nil,
          scene.observe_append, scene.observe_append]
        exact h'
      have hcalls (he : e.call? = none) : calls (events ++ [e]) = calls events := by
        rw [Scene.calls_append_singleton, he]
        exact List.append_nil _
      cases e with
      | abandon t => exact absurd (List.mem_append_right _ (List.mem_singleton_self _)) (ha t)
      | step t =>
          rw [hcalls rfl]
          refine h.goes_of_step (run_good policy config events) (hs events)
            (run_good policy config _) (hs _) ?_ ?_ fun job stage hr => call_of_running policy config hr
          · rw [hid, Turn.calls_serial, List.length_map]
          · rw [run_config, run_config]
      | pass | outside =>
          rw [hcalls rfl]
          exact Explains.goes_of_lock_eq (h.keep (fun _ _ hj => hj) (fun _ _ _ hj _ _ hr => .inr ⟨hj, hr⟩)
            (fun _ _ => ⟨rfl, rfl⟩) (fun _ _ => rfl) rfl rfl rfl) rfl
      | call job =>
          rw [Scene.calls_append_singleton]
          exact Explains.goes_of_lock_eq (h.call (run_good policy config events) (hs events)
            (hid events) job) rfl

/-- While a coil cools down, nothing is sent to it but the disable that ends its turn. -/
theorem sent_while_cooling (hg : w.site.Good) {d : Nat} (hr : w.running[t]? = some (job, .cooling d))
    (e : Event CoilJob Bool) :
    (scene.next w e).state.journal.attemptsOn job.coil = w.state.journal.attemptsOn job.coil ∨
      e = .step t ∧ ∃ fault, (scene.next w e).state.journal.attemptsOn job.coil =
        w.state.journal.attemptsOn job.coil ++ [⟨.command, .disable job.coil, fault⟩] := by
  have hh : (w.state.bank.lock job.coil).holder = some t := hg.orderly.cooling t job d hr
  obtain hj | ⟨u, j, stage, progress, p, rfl, hu, hst, hw⟩ := journal_cases hg.orderly.numbered e
  · exact .inl (by rw [hj])
  · rw [hw, state_onward hst]
    by_cases hut : u = t
    · subst hut
      cases hr.symm.trans hu
      rcases hst.cool with ⟨-, -, rfl⟩ | ⟨-, -, -, hsent, -⟩
      · exact .inl rfl
      · exact .inr ⟨rfl, _, hsent⟩
    · refine .inl (hst.sent_of_not_holder (fun d' hd => ?_) ?_)
      · subst hd
        exact hg.orderly.cooling u j d' hu
      · rw [hh]
        exact fun he => hut (Option.some.inj he).symm

/-- After the pulse of an enabled coil has been carried out, its task lets the coil cool down. -/
theorem cooling_after_pulse (hn : w.state.bank.Numbered) {a : Actuation}
    (hsent : (scene.next w e).state.journal.attemptsOn c =
      w.state.journal.attemptsOn c ++ [⟨.command, a, none⟩])
    (ha : a.kind = .pulse) (he : (w.state.bank.coil c).enabled = true) :
    ∃ t job d, e = .step t ∧ (scene.next w e).running[t]? = some (job, .cooling d) ∧
      job.coil = c := by
  obtain hj | ⟨u, j, stage, progress, p, rfl, hu, hst, hw⟩ := journal_cases hn e
  · simp [hj] at hsent
  · rw [hw, state_onward hst] at hsent
    obtain ⟨hc, d, rfl⟩ := hst.cooling_of_pulse hsent ha he
    refine ⟨u, j, d, rfl, ?_, hc⟩
    rw [hw]
    exact running_onward_next

theorem untouched_of_busy (hn : w.state.bank.Numbered) (hb : w.results[t]? = none)
    (ha : (scene.next w e).results[t]? = some (.error (.busy c))) :
    (scene.next w e).state.bank = w.state.bank ∧ (scene.next w e).state.board = w.state.board ∧
      (scene.next w e).state.journal.attempts = w.state.journal.attempts := by
  obtain ⟨rfl, ⟨job, stage⟩, hr, -⟩ := scene.finished_of_results hb ha
  obtain ⟨progress, p, hst, hw⟩ := step_stepsTo hn hr
  have hw' : scene.next w (.step t) = w.onward t job p progress := hw
  rw [hw'] at ha ⊢
  rw [state_onward hst]
  cases progress with
  | blocked => cases hb.symm.trans ha
  | next stage' => cases hb.symm.trans ha
  | finished r =>
      cases results_onward_finished.symm.trans ha
      exact hst.untouched_of_busy

/-- The crew `s`, which has had the turns and nothing else, and the crew `w`, which has had the events, agree
about the coil `c`. -/
structure Linearizes (policy : CommandPolicy) (config : BoardConfig) (c : CoilNumber)
    (events : List (Event CoilJob Bool)) (turns : List Turn) (w s : Crew) : Prop where
  /-- No task has two turns. -/
  nodup : (turns.map (·.task)).Nodup
  /-- The turns come in the order in which the tasks obtained the lock. -/
  ordered : turns.map (·.task) <+: scene.observe (obtains c) (atRest policy config) events
  /-- The lock is obtained in the order of the requests for it. -/
  fair : scene.observe (obtains c) (atRest policy config) events <+:
    scene.observe (joins c) (atRest policy config) events
  /-- Every command and every firing on the coil that is done has had a turn, unless it was refused. -/
  complete : ∀ (t : TaskId) (job : CoilJob) (r : CoilJob.Result), (calls events)[t]? = some job →
    job.coil = c → job.isRead = false → w.results[t]? = some r →
    r = .error (.busy c) ∨ t ∈ turns.map (·.task)
  jobs : ∀ x ∈ turns, (calls events)[x.task]? = some x.job ∧ x.job.coil = c
  results : ∀ (i : Nat) (x : Turn), turns[i]? = some x → w.results[x.task]? = s.results[i]?
  coil : w.state.bank.coil c = s.state.bank.coil c
  sent : w.state.journal.attemptsOn c = s.state.journal.attemptsOn c
  history : w.state.board.history.filter (fun a => decide (a.coil = c)) =
    s.state.board.history.filter fun a => decide (a.coil = c)

/-- Jobs on a coil take effect one at a time, in the order in which they obtained the lock of the coil. A
pulse and the disable that follows it are one turn, and what is refused has no effect. -/
theorem one_at_a_time (events : List (Event CoilJob Bool)) (ha : ∀ t, .abandon t ∉ events)
    (c : CoilNumber) :
    let w := scene.run (atRest policy config) events
    (∃ turns, Linearizes policy config c events turns w
      (scene.run (atRest policy config) (Turn.serial turns))) ∧
    (∀ (t : TaskId) (job : CoilJob) (d : Nat) (e : Event CoilJob Bool),
      w.running[t]? = some (job, .cooling d) →
      (scene.next w e).state.journal.attemptsOn job.coil = w.state.journal.attemptsOn job.coil ∨
        e = .step t ∧ ∃ fault, (scene.next w e).state.journal.attemptsOn job.coil =
          w.state.journal.attemptsOn job.coil ++ [⟨.command, .disable job.coil, fault⟩]) ∧
    (∀ (e : Event CoilJob Bool) (a : Actuation),
      (scene.next w e).state.journal.attemptsOn c =
        w.state.journal.attemptsOn c ++ [⟨.command, a, none⟩] →
      a.kind = .pulse → (w.state.bank.coil c).enabled = true →
      ∃ t job d, e = .step t ∧ (scene.next w e).running[t]? = some (job, .cooling d) ∧
        job.coil = c) ∧
    (∀ (e : Event CoilJob Bool) (t : TaskId), w.results[t]? = none →
      (scene.next w e).results[t]? = some (.error (.busy c)) →
      (scene.next w e).state.bank = w.state.bank ∧ (scene.next w e).state.board = w.state.board ∧
        (scene.next w e).state.journal.attempts = w.state.journal.attempts) := by
  intro w
  have hg : (site w).Good := run_good policy config events
  refine ⟨?_, fun t job d e hr => sent_while_cooling hg hr e,
    fun e a hs hk he => cooling_after_pulse hg.orderly.numbered hs hk he,
    fun e t hb hr => untouched_of_busy hg.orderly.numbered hb hr⟩
  obtain ⟨turns, h⟩ := run_explains policy config c events ha
  refine ⟨turns, h.nodup, ?_, ⟨_, h.joined.symm⟩, h.done, h.jobs, h.results, h.coil,
    h.sent, ?_⟩
  · cases h.stands with
    | idle _ _ ho => exact ho ▸ List.prefix_refl _
    | due _ _ _ ho => exact ho ▸ List.prefix_append _ _
    | cooling _ _ _ _ _ _ ho => exact ho ▸ List.prefix_refl _
  · have hf := hg.faithful.history_filter c
    have hf' := (run_good policy config (Turn.serial turns)).faithful.history_filter c
    exact hf.trans ((congrArg (fun xs => (xs.filter (·.isAccepted)).map (·.actuation)) h.sent).trans
      hf'.symm)

/-- An enabled coil is pulsed while another task asks to disable it. -/
def contention (c : CoilNumber) : List (Event CoilJob Bool) :=
  [.call (.enable ⟨c, 10, ⟨1.0⟩, ⟨0.5⟩⟩), .step 0, .step 0, .call (.pulse ⟨c, 10, ⟨1.0⟩⟩),
    .call (.disable c), .step 1, .step 2, .step 1, .outside false, .step 2, .pass 10, .step 1, .step 2]

theorem one_at_a_time_contention :
    (∀ t, .abandon t ∉ contention ⟨"C1", by decide⟩) ∧
      ∃ turns, Linearizes .queue .default ⟨"C1", by decide⟩ (contention ⟨"C1", by decide⟩) turns
        (scene.run (atRest .queue .default) (contention ⟨"C1", by decide⟩))
        (scene.run (atRest .queue .default) (Turn.serial turns)) := by
  have ha : ∀ t, .abandon t ∉ contention ⟨"C1", by decide⟩ := fun t => by simp [contention]
  exact ⟨ha, (one_at_a_time .queue .default _ ha ⟨"C1", by decide⟩).1⟩

end Playfield.Crew
