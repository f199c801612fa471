import Playfield.Proofs.Coil.Crew

/-! Jobs on one coil one after another. A turn is the only work on the coil from its call to its result, and
a serial run is made of turns. -/
namespace Playfield

/-- One turn of a serial run: whose job it is, whether the board is online when the job acts, and if the
coil has cooled down since, whether it was online then. -/
structure Turn where
  task : TaskId
  job : CoilJob
  online : Bool
  cooled : Option Bool
deriving DecidableEq, Repr

namespace Turn

/-- What happens once the coil has had its pulse. -/
def cooling (job : CoilJob) (i : TaskId) (online : Bool) : List (Event CoilJob Bool) :=
  [.outside online, .pass job.duration, .step i]

def events (x : Turn) (i : TaskId) : List (Event CoilJob Bool) :=
  [.call x.job, .outside x.online, .step i, .step i] ++ x.cooled.elim [] (cooling x.job i)

/-- One turn after the other. -/
def serial (turns : List Turn) : List (Event CoilJob Bool) :=
  turns.zipIdx.flatMap fun x => x.1.events x.2

theorem serial_append (turns : List Turn) (x : Turn) :
    serial (turns ++ [x]) = serial turns ++ x.events turns.length := by
  simp [serial, List.zipIdx_append]

theorem calls_events (x : Turn) (i : TaskId) : calls (x.events i) = [x.job] := by
  cases h : x.cooled <;> simp [events, calls, Event.call?, cooling, h]

theorem calls_serial (turns : List Turn) : calls (serial turns) = turns.map (·.job) := by
  induction turns using List.reverseRecOn with
  | nil => rfl
  | append_singleton turns x ih =>
      rw [serial_append, calls, List.filterMap_append, ← calls, ← calls, ih, calls_events,
        List.map_append, List.map_singleton]

end Turn

namespace Crew

variable {w : Crew} {t : TaskId} {job : CoilJob} {c : CoilNumber}

/-- The crew `w'` after a turn of the task `t` at the coil `c` that nobody else works on. -/
structure Turned (c : CoilNumber) (w w' : Crew) (t : TaskId) (job : CoilJob) (d : CoilJob.Deed) :
    Prop where
  coil : w'.state.bank.coil c = d.coil
  sent : w'.state.journal.attemptsOn c = w.state.journal.attemptsOn c ++ d.sent
  result : w'.results[t]? = d.result
  others : ∀ u, u ≠ t → w'.results[u]? = w.results[u]?
  lock : w'.state.bank.lock c = if d.result.isSome then .free else ⟨some t, []⟩
  cooling : d.result = none → w'.running[t]? = some (job, .cooling (w'.now + job.duration))

theorem turned_step (hn : w.state.bank.Numbered) (hs : w.Sound)
    (hr : w.running[t]? = some (job, .inLine)) (hl : w.state.bank.lock job.coil = ⟨some t, []⟩) :
    Turned job.coil w (w.step CoilJob.workings t) t job
      (job.deed (w.state.bank.coil job.coil) (w.state.board.fault? job.coil)) := by
  obtain ⟨progress, p, hst, hw⟩ := step_stepsTo hn hr
  obtain ⟨hp, hcoil, hsent, hlock⟩ := hst.turn (by rw [hl])
  have hothers : ∀ u, u ≠ t → (w.step CoilJob.workings t).results[u]? = w.results[u]? :=
    fun u hu => (World.step_frame hu).2
  rw [hw] at hothers ⊢
  rw [hl] at hlock
  subst hp
  cases hd : (job.deed (w.state.bank.coil job.coil) (w.state.board.fault? job.coil)).result with
  | none =>
      rw [hd] at hlock hothers
      refine ⟨hcoil, hsent, ?_, hothers, ?_, fun _ => ?_⟩
      · rw [hd]
        exact hs.result_of_running hr
      · rw [hd]
        exact hlock
      · exact running_onward_next
  | some r =>
      rw [hd] at hlock hothers
      refine ⟨hcoil, hsent, ?_, hothers, ?_, fun h => ?_⟩
      · rw [hd]
        exact results_onward_finished
      · rw [hd]
        exact hlock
      · cases hd.symm.trans h

/-- A job that starts at a coil nobody else works on. -/
theorem turned_steps (hg : w.site.Good) (hs : w.Sound) (hr : w.running[t]? = some (job, .start))
    (hl : w.state.bank.lock job.coil = .free) :
    Turned job.coil w ((w.step CoilJob.workings t).step CoilJob.workings t) t job
      (job.deed (w.state.bank.coil job.coil) (w.state.board.fault? job.coil)) := by
  have hg' := hg.reaches (reaches_step t)
  have hs' : (w.step CoilJob.workings t).Sound := hs.step t
  have hothers : ∀ u, u ≠ t → (w.step CoilJob.workings t).results[u]? = w.results[u]? :=
    fun u hu => (World.step_frame hu).2
  obtain ⟨progress, p, hst, hw⟩ := step_stepsTo hg.orderly.numbered hr
  rw [hw] at hg' hs' hothers ⊢
  rcases hst.begin with ⟨rfl, hlock, hcoil, hj⟩ | ⟨hread, rfl, rfl, hk⟩ | ⟨hheld, -, -⟩
  · rw [hl] at hlock
    have hfault : p.board.fault? job.coil = w.state.board.fault? job.coil :=
      Board.fault?_congr hst.config hst.online job.coil
    have ht := turned_step hg'.orderly.numbered hs' running_onward_next hlock
    rw [show (onward w t job p (.next .inLine)).state = p from rfl, hcoil, hfault] at ht
    refine ⟨ht.coil, ?_, ht.result, fun u hu => (ht.others u hu).trans (hothers u hu), ht.lock,
      ht.cooling⟩
    rw [ht.sent]
    exact congrArg (fun j => Journal.attemptsOn j job.coil ++ _) hj
  · have hd : job.deed (w.state.bank.coil job.coil) (w.state.board.fault? job.coil) =
        ⟨[], w.state.bank.coil job.coil, some (.ok (w.state.bank.coil job.coil))⟩ := by
      cases job with
      | read n => rfl
      | _ => cases hread
    rw [World.step_of_none running_onward_finished, hd]
    refine ⟨rfl, (List.append_nil _).symm, ?_, hothers, ?_, fun h => by cases h⟩
    · rw [hk]
      exact results_onward_finished
    · exact hl
  · rw [hl] at hheld
    cases hheld

theorem turned_run (hg : w.site.Good) (hs : w.Sound) (hl : w.state.bank.lock job.coil = .free)
    (online : Bool) :
    Turned job.coil w
      (scene.run w [.call job, .outside online, .step w.nextId, .step w.nextId]) w.nextId job
      (job.deed (w.state.bank.coil job.coil)
        ((w.state.board.setOnline online).fault? job.coil)) := by
  have hs' := scene.run_sound hs [.call job, .outside online]
  have hg' := hg.reaches (run_reaches hs [.call job, .outside online])
  have hr : (scene.run w [.call job, .outside online]).running[w.nextId]? = some (job, .start) :=
    (Map.getElem?_insert ..).trans (if_pos rfl)
  have ht := turned_steps hg' hs' hr hl
  exact ⟨ht.coil, ht.sent, ht.result, ht.others, ht.lock, ht.cooling⟩

/-- The end of a turn whose coil cools down. -/
theorem cooled_run (hg : w.site.Good)
    (hr : w.running[t]? = some (job, .cooling (w.now + job.duration)))
    (hl : w.state.bank.lock job.coil = ⟨some t, []⟩) (online : Bool) :
    let fault := (w.state.board.setOnline online).fault? job.coil
    Turned job.coil w (scene.run w (Turn.cooling job t online)) t job
      ⟨[⟨.command, .disable job.coil, fault⟩], w.state.bank.coil job.coil,
        some (CoilJob.cooled (w.state.bank.coil job.coil) fault)⟩ := by
  intro fault
  obtain ⟨w', hw'⟩ : ∃ w', w' = scene.run w [.outside online, .pass job.duration] := ⟨_, rfl⟩
  have hrun : scene.run w (Turn.cooling job t online) = w'.step CoilJob.workings t := by
    rw [hw']
    rfl
  have hr' : w'.running[t]? = some (job, .cooling (w.now + job.duration)) := by
    rw [hw']
    exact hr
  have hn : w'.state.bank.Numbered := by
    rw [hw']
    exact hg.orderly.numbered
  obtain ⟨progress, p, hst, hw⟩ := step_stepsTo hn hr'
  have hothers : ∀ u, u ≠ t → (w'.step CoilJob.workings t).results[u]? = w'.results[u]? :=
    fun u hu => (World.step_frame hu).2
  rw [hrun]
  rw [hw] at hothers ⊢
  subst hw'
  rcases hst.cool with ⟨hd, -⟩ | ⟨-, rfl, hcoil, hsent, hlock⟩
  · exact absurd hd (Nat.lt_irrefl _)
  · exact ⟨hcoil, hsent, results_onward_finished, hothers,
      hlock.trans (congrArg Lock.release hl), fun h => by cases h⟩

end Crew
end Playfield
