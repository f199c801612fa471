import Playfield.Proofs.Coil.Serial

/-! What it means that a serial run explains what a crew has done to one coil. The turns come in the order in
which the tasks obtained the lock of the coil, and tasks obtain it in the order in which they asked. Here is
what each thing that a task can do adds to the explanation. -/
namespace Playfield.Crew

/-- The task that comes into the queue of a coil with an event. -/
def joins (c : CoilNumber) (w : Crew) (e : Event CoilJob Bool) (w' : Crew) : Option TaskId :=
  match e with
  | .step t =>
    if t ∈ (w'.state.bank.lock c).queue ∧ t ∉ (w.state.bank.lock c).queue then some t else none
  | _ => none

/-- The task that obtains the lock of a coil with an event. -/
def obtains (c : CoilNumber) (w : Crew) (_ : Event CoilJob Bool) (w' : Crew) : Option TaskId :=
  if (w'.state.bank.lock c).holder = (w.state.bank.lock c).holder then none
  else (w'.state.bank.lock c).holder

/-- How the lock of a coil stands in a run and in the serial run that explains it. -/
inductive Stands (c : CoilNumber) (w s : Crew) (turns : List Turn) (obtained : List TaskId) : Prop
  | idle : (w.state.bank.lock c).holder = none → s.state.bank.lock c = .free →
      obtained = turns.map (·.task) → Stands c w s turns obtained
  /-- A task holds the lock that has yet to act. -/
  | due {t : TaskId} {job : CoilJob} : (w.state.bank.lock c).holder = some t →
      w.running[t]? = some (job, .inLine) → s.state.bank.lock c = .free →
      obtained = turns.map (·.task) ++ [t] → Stands c w s turns obtained
  /-- The task of the last turn holds the lock, because the coil cools down. -/
  | cooling {d : Nat} {earlier : List Turn} {x : Turn} :
      (w.state.bank.lock c).holder = some x.task →
      w.running[x.task]? = some (x.job, .cooling d) → turns = earlier ++ [x] → x.cooled = none →
      s.state.bank.lock c = ⟨some earlier.length, []⟩ →
      s.running[earlier.length]? = some (x.job, .cooling (s.now + x.job.duration)) →
      obtained = turns.map (·.task) → Stands c w s turns obtained

/-- The serial run `s` of the turns explains what the crew `w` has done to the coil `c`. -/
structure Explains (c : CoilNumber) (called : List CoilJob) (w s : Crew) (turns : List Turn)
    (obtained joined : List TaskId) : Prop where
  nodup : (turns.map (·.task)).Nodup
  jobs : ∀ x ∈ turns, called[x.task]? = some x.job ∧ x.job.coil = c
  coil : w.state.bank.coil c = s.state.bank.coil c
  sent : w.state.journal.attemptsOn c = s.state.journal.attemptsOn c
  results : ∀ (i : Nat) (x : Turn), turns[i]? = some x → w.results[x.task]? = s.results[i]?
  done : ∀ (t : TaskId) (job : CoilJob) (r : CoilJob.Result), called[t]? = some job → job.coil = c →
    job.isRead = false → w.results[t]? = some r → r = .error (.busy c) ∨ t ∈ turns.map (·.task)
  acted : ∀ x ∈ turns, ∀ (job : CoilJob) (stage : CoilStage),
    w.running[x.task]? = some (job, stage) → ∃ d, stage = .cooling d
  joined : joined = obtained ++ (w.state.bank.lock c).line
  stands : Stands c w s turns obtained

variable {c : CoilNumber} {called called' : List CoilJob} {w w' s s' : Crew} {turns : List Turn}
  {obtained joined : List TaskId} {t : TaskId} {job : CoilJob} {p : CoilPanel}

namespace Explains

theorem atRest (policy : CommandPolicy) (config : BoardConfig) (c : CoilNumber) :
    Explains c [] (Crew.atRest policy config) (Crew.atRest policy config) [] [] [] where
  nodup := .nil
  jobs := by intro x hx; cases hx
  coil := rfl
  sent := rfl
  results := by intro i x hx; cases hx
  done := by intro t job r h; cases h
  acted := by intro x hx; cases hx
  joined := rfl
  stands := .idle rfl rfl rfl

variable (h : Explains c called w s turns obtained joined)

include h

/-- What does not touch the coil needs no other explanation. -/
theorem keep (hcalled : ∀ (t : TaskId) (job : CoilJob), called[t]? = some job → called'[t]? = some job)
    (hdone : ∀ (t : TaskId) (job : CoilJob) (r : CoilJob.Result), called'[t]? = some job →
      job.coil = c → job.isRead = false → w'.results[t]? = some r →
      r = .error (.busy c) ∨ called[t]? = some job ∧ w.results[t]? = some r)
    (hturns : ∀ x ∈ turns, w'.results[x.task]? = w.results[x.task]? ∧
      w'.running[x.task]? = w.running[x.task]?)
    (hholder : ∀ t, (w.state.bank.lock c).holder = some t → w'.running[t]? = w.running[t]?)
    (hcoil : w'.state.bank.coil c = w.state.bank.coil c)
    (hlock : w'.state.bank.lock c = w.state.bank.lock c)
    (hsent : w'.state.journal.attemptsOn c = w.state.journal.attemptsOn c) :
    Explains c called' w' s turns obtained joined where
  nodup := h.nodup
  jobs := fun x hx => ⟨hcalled _ _ (h.jobs x hx).1, (h.jobs x hx).2⟩
  coil := hcoil.trans h.coil
  sent := hsent.trans h.sent
  results := fun i x hx => (hturns x (List.mem_of_getElem? hx)).1.trans (h.results i x hx)
  done := by
    intro t job r hj hc hr ht
    rcases hdone t job r hj hc hr ht with hb | ⟨hj, ht⟩
    · exact .inl hb
    · exact h.done t job r hj hc hr ht
  acted := by
    intro x hx job stage hr
    rw [(hturns x hx).2] at hr
    exact h.acted x hx job stage hr
  joined := hlock ▸ h.joined
  stands := by
    cases h.stands with
    | idle hh hs ho => exact .idle (hlock ▸ hh) hs ho
    | due hh hr hs ho => exact .due (hlock ▸ hh) ((hholder _ hh).trans hr) hs ho
    | cooling hh hr ht hx hs hsr ho =>
        exact .cooling (hlock ▸ hh) ((hholder _ hh).trans hr) ht hx hs hsr ho

/-- A task whose job has yet to act has had no turn. -/
theorem task_ne {stage : CoilStage} (hr : w.running[t]? = some (job, stage))
    (hs : ∀ d, stage ≠ .cooling d) {x : Turn} (hx : x ∈ turns) : x.task ≠ t := by
  rintro rfl
  obtain ⟨d, hd⟩ := h.acted x hx job stage hr
  exact hs d hd

theorem lineUp (hg : w.site.Good) (hr : w.running[t]? = some (job, .start))
    (hlock : p.bank.lock c = (w.state.bank.lock c).request t)
    (hcoil : p.bank.coil c = w.state.bank.coil c)
    (hsent : p.journal.attemptsOn c = w.state.journal.attemptsOn c) :
    Explains c called (w.onward t job p (.next .inLine)) s turns
      (obtained ++ if (w.state.bank.lock c).holder = none then [t] else []) (joined ++ [t]) := by
  have hne : ∀ x ∈ turns, x.task ≠ t := fun x hx => h.task_ne hr (by simp) hx
  have hother (u : TaskId) (hu : u ≠ t) :
      (w.onward t job p (.next .inLine)).running[u]? = w.running[u]? := (onward_other hu).2
  refine ⟨h.nodup, h.jobs, hcoil.trans h.coil, hsent.trans h.sent, h.results, h.done, ?_, ?_, ?_⟩
  · intro x hx job' stage hr'
    rw [hother x.task (hne x hx)] at hr'
    exact h.acted x hx job' stage hr'
  · have htidy : (w.state.bank.lock c).Tidy := hg.orderly.tidy c
    rw [h.joined]
    change _ = _ ++ (p.bank.lock c).line
    rw [hlock]
    cases hh : (w.state.bank.lock c).holder with
    | none => simp [Lock.request, hh, htidy hh]
    | some u => simp [Lock.request, hh]
  · cases h.stands with
    | idle hh hs ho =>
        refine .due (t := t) ?_ running_onward_next hs ?_
        · change (p.bank.lock c).holder = _
          rw [hlock, Lock.request, hh]
        · rw [if_pos hh, ho]
    | @due u job' hh hr' hs ho =>
        have hu : u ≠ t := by
          rintro rfl
          cases hr.symm.trans hr'
        refine .due (t := u) ?_ ((hother u hu).trans hr') hs ?_
        · change (p.bank.lock c).holder = _
          rw [hlock]
          exact Lock.holder_request hh
        · rw [if_neg (by rw [hh]; simp), List.append_nil, ho]
    | @cooling d earlier x hh hr' ht hx hs hsr ho =>
        have hu : x.task ≠ t := by
          intro hu
          rw [hu] at hr'
          cases hr.symm.trans hr'
        refine .cooling ?_ ((hother _ hu).trans hr') ht hx hs hsr ?_
        · change (p.bank.lock c).holder = _
          rw [hlock]
          exact Lock.holder_request hh
        · rw [if_neg (by rw [hh]; simp), List.append_nil, ho]

/-- The task that is due has the lock to itself in the serial run. -/
theorem due (hr : w.running[t]? = some (job, .inLine))
    (hh : (w.state.bank.lock c).holder = some t) :
    obtained = turns.map (·.task) ++ [t] ∧ s.state.bank.lock c = .free := by
  cases h.stands with
  | idle hn => cases hn.symm.trans hh
  | due hn _ hs ho =>
      cases hn.symm.trans hh
      exact ⟨ho, hs⟩
  | cooling hn hr' =>
      cases hn.symm.trans hh
      cases hr'.symm.trans hr

end Explains

/-- Once a task hands the lock on, whoever is next has yet to act. -/
theorem stands_of_release (hg : w.site.Good) (hh : (w.state.bank.lock c).holder = some t)
    (hlock : w'.state.bank.lock c = (w.state.bank.lock c).release)
    (hother : ∀ u, u ≠ t → w'.running[u]? = w.running[u]?) (hs : s.state.bank.lock c = .free) :
    Stands c w' s turns
      (turns.map (·.task) ++ (w.state.bank.lock c).release.holder.toList) := by
  cases hn : (w.state.bank.lock c).release.holder with
  | none =>
      refine .idle ?_ hs ?_
      · rw [hlock, hn]
      · simp
  | some u =>
      have hu : u ∈ (w.state.bank.lock c).line := Lock.holder_release_mem hn
      have hut : u ≠ t := by
        rintro rfl
        exact holder_release_ne hg hh hn
      obtain ⟨job, hj, -⟩ := hg.orderly.inLine_of_mem_line hu
      refine .due (t := u) ?_ ((hother u hut).trans hj) hs rfl
      rw [hlock, hn]

/-- The results of turns of which the last one is new or goes on. -/
theorem results_concat {x : Turn} {earlier : List Turn} (hne : ∀ y ∈ earlier, y.task ≠ x.task)
    (h : ∀ (i : Nat) (y : Turn), earlier[i]? = some y → w.results[y.task]? = s.results[i]?)
    (hw : ∀ u, u ≠ x.task → w'.results[u]? = w.results[u]?)
    (hs : ∀ i, i ≠ earlier.length → s'.results[i]? = s.results[i]?)
    (hx : w'.results[x.task]? = s'.results[earlier.length]?) :
    ∀ (i : Nat) (y : Turn), (earlier ++ [x])[i]? = some y → w'.results[y.task]? = s'.results[i]? := by
  intro i y hy
  rcases Nat.lt_or_ge i earlier.length with hi | hi
  · rw [List.getElem?_append_left hi] at hy
    rw [hw y.task (hne y (List.mem_of_getElem? hy)), hs i (Nat.ne_of_lt hi)]
    exact h i y hy
  · rw [List.getElem?_append_right hi] at hy
    obtain ⟨hlt, rfl⟩ := List.getElem?_eq_some_iff.mp hy
    have hi' : i = earlier.length := by
      simp only [List.length_singleton] at hlt
      omega
    subst hi'
    simp only [Nat.sub_self, List.getElem_cons_zero]
    exact hx

namespace Explains

variable (h : Explains c called w s turns obtained joined)

include h

/-- A task has its turn, which is the next turn of the serial run. -/
theorem act {d : CoilJob.Deed} (hg : w.site.Good) (hw : w.Sound) (hcall : called[t]? = some job)
    (hc : job.coil = c) (hr : w.running[t]? = some (job, .inLine))
    (hh : (w.state.bank.lock c).holder = some t) (hcoil : p.bank.coil c = d.coil)
    (hsent : p.journal.attemptsOn c = w.state.journal.attemptsOn c ++ d.sent)
    (hlock : p.bank.lock c =
      if d.result.isSome then (w.state.bank.lock c).release else w.state.bank.lock c)
    (ht : Turned c s s' turns.length job d) (online : Bool) :
    Explains c called (w.onward t job p (job.afterTurn w.now d.result)) s'
      (turns ++ [⟨t, job, online, none⟩])
      (obtained ++ if d.result.isSome then (w.state.bank.lock c).release.holder.toList else [])
      joined := by
  obtain ⟨w', hw'⟩ : ∃ w', w' = w.onward t job p (job.afterTurn w.now d.result) := ⟨_, rfl⟩
  have hstate : w'.state = p := by
    rw [hw']
    cases d.result <;> rfl
  have hother (u : TaskId) (hu : u ≠ t) :
      w'.results[u]? = w.results[u]? ∧ w'.running[u]? = w.running[u]? := hw' ▸ onward_other hu
  have hself : w'.results[t]? = d.result ∧
      w'.running[t]? = if d.result.isSome then none
        else some (job, .cooling (w.now + job.duration)) := by
    rw [hw']
    cases d.result with
    | none => exact ⟨hw.result_of_running hr, running_onward_next⟩
    | some r => exact ⟨results_onward_finished, running_onward_finished⟩
  have hne : ∀ x ∈ turns, x.task ≠ t := fun x hx => h.task_ne hr (by simp) hx
  obtain ⟨ho, hfree⟩ := h.due hr hh
  rw [← hw']
  refine ⟨?_, ?_, ?_, ?_, ?_, ?_, ?_, ?_, ?_⟩
  · rw [List.map_append, List.map_singleton]
    refine h.nodup.append (List.nodup_singleton t) ?_
    rw [List.disjoint_singleton]
    intro hm
    obtain ⟨x, hx, he⟩ := List.mem_map.mp hm
    exact hne x hx he
  · intro x hx
    rcases List.mem_append.mp hx with hx | hx
    · exact h.jobs x hx
    · cases List.mem_singleton.mp hx
      exact ⟨hcall, hc⟩
  · rw [hstate, hcoil, ht.coil]
  · rw [hstate, hsent, h.sent, ht.sent]
  · refine results_concat hne h.results (fun u hu => (hother u hu).1) ht.others ?_
    rw [hself.1, ht.result]
  · intro u job' r hu hcu hread hres
    by_cases hut : u = t
    · subst hut
      exact .inr (by simp)
    · rw [(hother u hut).1] at hres
      rcases h.done u job' r hu hcu hread hres with hb | hm
      · exact .inl hb
      · exact .inr (by simp only [List.map_append, List.mem_append, hm, true_or])
  · intro x hx job' stage hr'
    rcases List.mem_append.mp hx with hx | hx
    · rw [(hother x.task (hne x hx)).2] at hr'
      exact h.acted x hx job' stage hr'
    · cases List.mem_singleton.mp hx
      dsimp only at hr'
      rw [hself.2] at hr'
      split at hr'
      · cases hr'
      · cases hr'
        exact ⟨_, rfl⟩
  · rw [hstate, h.joined, hlock]
    split
    · rw [List.append_assoc]
      exact congrArg _ (Lock.queue_release _).symm
    · rw [List.append_nil]
  · have ho' : obtained = (turns ++ [(⟨t, job, online, none⟩ : Turn)]).map (·.task) := by
      rw [ho, List.map_append, List.map_singleton]
    cases hd : d.result with
    | some r =>
        have hfree' : s'.state.bank.lock c = .free := by rw [ht.lock, hd]; rfl
        have hrel : w'.state.bank.lock c = (w.state.bank.lock c).release := by
          rw [hstate, hlock, hd]
          rfl
        rw [ho']
        exact stands_of_release hg hh hrel (fun u hu => (hother u hu).2) hfree'
    | none =>
        have hrun := hself.2
        rw [hd] at hrun
        refine .cooling (x := ⟨t, job, online, none⟩) ?_ hrun rfl rfl ?_ (ht.cooling hd) ?_
        · rw [hstate, hlock, hd]
          exact hh
        · rw [ht.lock, hd]
          rfl
        · rw [ho']
          exact List.append_nil _

/-- The task whose coil cools down has had the last turn. -/
theorem last {d : Nat} (hr : w.running[t]? = some (job, .cooling d))
    (hh : (w.state.bank.lock c).holder = some t) :
    obtained = turns.map (·.task) ∧ ∃ earlier x, turns = earlier ++ [x] ∧ x.task = t ∧ x.job = job ∧
      x.cooled = none ∧ s.state.bank.lock c = ⟨some earlier.length, []⟩ ∧
      s.running[earlier.length]? = some (job, .cooling (s.now + job.duration)) := by
  cases h.stands with
  | idle hn => cases hn.symm.trans hh
  | due hn hr' =>
      cases hn.symm.trans hh
      cases hr'.symm.trans hr
  | cooling hn hr' ht hx hl hs ho =>
      cases hn.symm.trans hh
      cases hr'.symm.trans hr
      exact ⟨ho, _, _, ht, rfl, rfl, hx, hl, hs⟩

end Explains

/-- The end of a turn whose coil has cooled down. -/
theorem Explains.cool {earlier : List Turn} {x : Turn} {r : CoilJob.Result} {xs : List Attempt}
    (h : Explains c called w s (earlier ++ [x]) obtained joined) (hg : w.site.Good)
    (hh : (w.state.bank.lock c).holder = some x.task)
    (ho : obtained = (earlier ++ [x]).map (·.task))
    (hcoil : p.bank.coil c = w.state.bank.coil c)
    (hsent : p.journal.attemptsOn c = w.state.journal.attemptsOn c ++ xs)
    (hlock : p.bank.lock c = (w.state.bank.lock c).release)
    (ht : Turned c s s' earlier.length x.job ⟨xs, s.state.bank.coil c, some r⟩)
    (cooled : Option Bool) :
    Explains c called (w.onward x.task x.job p (.finished r)) s' (earlier ++ [{ x with cooled }])
      (obtained ++ (w.state.bank.lock c).release.holder.toList) joined := by
  have hmap : (earlier ++ [({ x with cooled } : Turn)]).map (·.task) = (earlier ++ [x]).map (·.task) := by
    simp
  have hx : x ∈ earlier ++ [x] := List.mem_append_right _ (List.mem_singleton_self x)
  have hne : ∀ y ∈ earlier, y.task ≠ x.task := by
    intro y hy he
    have hnd := h.nodup
    rw [List.map_append, List.nodup_append] at hnd
    exact hnd.2.2 _ (List.mem_map_of_mem hy) _ (List.mem_singleton_self _) he
  have hother (u : TaskId) (hu : u ≠ x.task) :
      (w.onward x.task x.job p (.finished r)).results[u]? = w.results[u]? ∧
        (w.onward x.task x.job p (.finished r)).running[u]? = w.running[u]? := onward_other hu
  refine ⟨hmap ▸ h.nodup, ?_, ?_, ?_, ?_, ?_, ?_, ?_, ?_⟩
  · intro y hy
    rcases List.mem_append.mp hy with hy | hy
    · exact h.jobs y (List.mem_append_left _ hy)
    · cases List.mem_singleton.mp hy
      exact h.jobs x hx
  · exact hcoil.trans (h.coil.trans ht.coil.symm)
  · rw [ht.sent, ← h.sent]
    exact hsent
  · have hearlier (i : Nat) (y : Turn) (hy : earlier[i]? = some y) :
        w.results[y.task]? = s.results[i]? := by
      refine h.results i y ?_
      rw [List.getElem?_append_left (List.getElem?_eq_some_iff.mp hy).1, hy]
    refine results_concat hne hearlier (fun u hu => (hother u hu).1) ht.others ?_
    rw [ht.result]
    exact results_onward_finished
  · intro u job' r' hu hcu hread hres
    rw [hmap]
    by_cases hut : u = x.task
    · subst hut
      exact .inr (List.mem_map_of_mem hx)
    · rw [(hother u hut).1] at hres
      exact h.done u job' r' hu hcu hread hres
  · intro y hy job' stage hr'
    rcases List.mem_append.mp hy with hy | hy
    · rw [(hother y.task (hne y hy)).2] at hr'
      exact h.acted y (List.mem_append_left _ hy) job' stage hr'
    · cases List.mem_singleton.mp hy
      cases running_onward_finished.symm.trans hr'
  · rw [h.joined]
    change _ = _ ++ (p.bank.lock c).line
    rw [hlock, List.append_assoc]
    exact congrArg _ (Lock.queue_release _).symm
  · rw [ho, ← hmap]
    exact stands_of_release hg hh hlock (fun u hu => (hother u hu).2) ht.lock

end Playfield.Crew
