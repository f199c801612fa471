import Playfield.Proofs.Coil.Record

/-! The turn of a job at its coil. What a job sends, how it leaves the coil and what it answers depend only
on the state in which it finds the coil and on whether the board is at hand; other coils are left alone. -/
namespace Playfield

/-- Every actuation of a coil that was sent to the board, oldest first. -/
def Journal.attemptsOn (j : Journal) (c : CoilNumber) : List Attempt :=
  j.attempts.filter fun x => decide (x.coil = c)

theorem Journal.attemptsOn_append {j j' : Journal} {xs : List Attempt}
    (h : j'.attempts = j.attempts ++ xs) (c : CoilNumber) :
    j'.attemptsOn c = j.attemptsOn c ++ xs.filter fun x => decide (x.coil = c) := by
  rw [attemptsOn, attemptsOn, h, List.filter_append]

theorem Journal.attemptsOn_congr {j j' : Journal} (h : j'.attempts = j.attempts) (c : CoilNumber) :
    j'.attemptsOn c = j.attemptsOn c := by
  rw [attemptsOn, attemptsOn, h]

/-- The history of a coil is what the board has accepted of it. -/
theorem CoilPanel.Faithful.history_filter {p : CoilPanel} (h : p.Faithful) (c : CoilNumber) :
    p.board.history.filter (fun a => decide (a.coil = c)) =
      ((p.journal.attemptsOn c).filter (·.isAccepted)).map (·.actuation) := by
  rw [h.history, List.filter_map, Journal.accepted, Journal.attemptsOn, List.filter_comm]
  rfl

namespace CoilJob

/-- What becomes of a coil in the turn of a job. -/
structure Deed where
  sent : List Attempt
  coil : Coil
  /-- The result, unless the coil has to cool down first. -/
  result : Option Result

/-- The turn of a job that finds its coil in the state `k`, and the board with a fault or without. -/
def deed (job : CoilJob) (k : Coil) (fault : Option BoardFault) : Deed :=
  match job.demand k, fault with
  | none, _ => ⟨[], k, some (.ok k)⟩
  | some (cause, a), some fault =>
    ⟨[⟨cause, a, some fault⟩], k, some (.error (.unavailable fault.unavailable))⟩
  | some (cause, a), none =>
    ⟨[⟨cause, a, none⟩], job.record k, if job.lingers k then none else some (.ok (job.record k))⟩

/-- The result of a coil that was to be disabled after its pulse. -/
def cooled (k : Coil) : Option BoardFault → Result
  | none => .ok k
  | some fault => .error (.unavailable fault.unavailable)

/-- How far a job has come after its turn. -/
def afterTurn (now : Nat) (job : CoilJob) : Option Result → Progress CoilStage Result
  | some r => .finished r
  | none => .next (.cooling (now + job.duration))

section Slots

variable {job : CoilJob} {me : TaskId} {now : Nat} {p q : CoilPanel} {stage : CoilStage}
  {progress : Progress CoilStage Result} {c : CoilNumber}

theorem isRead_of_isCommand (h : job.isCommand = true) : job.isRead = false := by
  cases job <;> first | rfl | cases h

/-- A step makes a coil known only by asking for its lock, and then not in order to read it. -/
theorem StepsTo.mem_slots (h : job.StepsTo me now p stage progress q)
    (hin : stage ≠ .start → job.coil ∈ p.bank.slots) :
    c ∈ q.bank.slots ↔ c ∈ p.bank.slots ∨ stage = .start ∧ job.isRead = false ∧ job.coil = c := by
  -- Whoever waits for the lock or has it has been through the request, so the slot that it writes is there.
  cases h with
  | readUnknown hr => simp [hr]
  | refused hc _ hheld =>
      obtain ⟨u, hu⟩ := Option.isSome_iff_exists.mp hheld
      simp [CoilPanel.note, isRead_of_isCommand hc, or_comm (a := c ∈ p.bank.slots),
        Map.eq_or_mem_iff (CoilBank.mem_of_holder hu)]
  | linesUp _ hread =>
      cases hr : job.isRead with
      | false => simp [or_comm]
      | true => simp [Map.eq_or_mem_iff (hread hr)]
  | waits => simp
  | silent => simp [CoilPanel.release, Map.eq_or_mem_iff (hin (by simp))]
  | denied => simp [Map.eq_or_mem_iff (hin (by simp))]
  | served => simp [Map.eq_or_mem_iff (hin (by simp))]
  | pulsed => simp [Map.eq_or_mem_iff (hin (by simp))]
  | cools => simp
  | leftOn => simp [Map.eq_or_mem_iff (hin (by simp))]
  | disabled => simp [Map.eq_or_mem_iff (hin (by simp))]

theorem mem_slots_abandon (hin : stage ≠ .start → job.coil ∈ p.bank.slots) :
    c ∈ (job.abandon me stage p).bank.slots ↔ c ∈ p.bank.slots := by
  cases stage with
  | start => rfl
  | inLine => simp [abandon, Map.eq_or_mem_iff (hin (by simp))]
  | cooling d => simp [abandon, Map.eq_or_mem_iff (hin (by simp))]

end Slots

namespace StepsTo

variable {job : CoilJob} {me : TaskId} {now : Nat} {p q : CoilPanel} {stage : CoilStage}
  {progress : Progress CoilStage Result}

theorem online (h : job.StepsTo me now p stage progress q) : q.board.online = p.board.online := by
  cases h <;> rfl

theorem eq_of_blocked (h : job.StepsTo me now p stage .blocked q) : q = p := by
  cases h <;> rfl

theorem wait (h : job.StepsTo me now p .inLine progress q)
    (hh : (p.bank.lock job.coil).holder ≠ some me) : progress = .blocked ∧ q = p := by
  cases h with
  | waits => exact ⟨rfl, rfl⟩
  | silent hw => exact absurd hw hh
  | denied hw => exact absurd hw hh
  | served hw => exact absurd hw hh
  | pulsed hw => exact absurd hw hh

theorem frame (h : job.StepsTo me now p stage progress q) {n : CoilNumber} (hn : job.coil ≠ n) :
    q.bank.coil n = p.bank.coil n ∧ q.bank.lock n = p.bank.lock n ∧
      q.journal.attemptsOn n = p.journal.attemptsOn n := by
  cases h with
  | readUnknown => exact ⟨rfl, rfl, rfl⟩
  | refused =>
      refine ⟨rfl, rfl, Journal.attemptsOn_congr ?_ n⟩
      simp [CoilPanel.note]
  | linesUp => simp [hn]
  | waits => exact ⟨rfl, rfl, rfl⟩
  | silent => simp [CoilPanel.release, hn]
  | denied _ hd _ hj =>
      have hc := coil_of_demand hd
      simp [hn, Journal.attemptsOn_append hj, Attempt.coil, hc]
  | served _ hd _ _ hj =>
      have hc := coil_of_demand hd
      simp [hn, Journal.attemptsOn_append hj, Attempt.coil, hc]
  | pulsed _ hd _ _ hj =>
      have hc := coil_of_demand hd
      simp [hn, Journal.attemptsOn_append hj, Attempt.coil, hc]
  | cools => exact ⟨rfl, rfl, rfl⟩
  | leftOn _ _ hj => simp [hn, Journal.attemptsOn_append hj, Attempt.coil, Actuation.disable]
  | disabled _ _ hj => simp [hn, Journal.attemptsOn_append hj, Attempt.coil, Actuation.disable]

theorem turn (h : job.StepsTo me now p .inLine progress q)
    (hh : (p.bank.lock job.coil).holder = some me) :
    let d := job.deed (p.bank.coil job.coil) (p.board.fault? job.coil)
    progress = job.afterTurn now d.result ∧ q.bank.coil job.coil = d.coil ∧
      q.journal.attemptsOn job.coil = p.journal.attemptsOn job.coil ++ d.sent ∧
      q.bank.lock job.coil =
        if d.result.isSome then (p.bank.lock job.coil).release else p.bank.lock job.coil := by
  cases h with
  | waits hw => exact absurd hh hw
  | silent _ hd => simp [deed, hd, afterTurn, CoilPanel.release]
  | denied _ hd hf hj =>
      have hc := coil_of_demand hd
      simp [deed, hd, hf, afterTurn, Journal.attemptsOn_append hj, Attempt.coil, hc]
  | served _ hd hf hl hj =>
      have hc := coil_of_demand hd
      simp [deed, hd, hf, hl, afterTurn, Journal.attemptsOn_append hj, Attempt.coil, hc]
  | pulsed _ hd hf hl hj =>
      have hc := coil_of_demand hd
      simp [deed, hd, hf, hl, afterTurn, Journal.attemptsOn_append hj, Attempt.coil, hc]

/-- A job whose coil cools down waits, or sends the disable that is left to do. -/
theorem cool {deadline : Nat} (h : job.StepsTo me now p (.cooling deadline) progress q) :
    (now < deadline ∧ progress = .blocked ∧ q = p) ∨
      (deadline ≤ now ∧
        progress = .finished (cooled (p.bank.coil job.coil) (p.board.fault? job.coil)) ∧
        q.bank.coil job.coil = p.bank.coil job.coil ∧
        q.journal.attemptsOn job.coil = p.journal.attemptsOn job.coil ++
          [⟨.command, .disable job.coil, p.board.fault? job.coil⟩] ∧
        q.bank.lock job.coil = (p.bank.lock job.coil).release) := by
  cases h with
  | cools hd => exact .inl ⟨hd, rfl, rfl⟩
  | leftOn hd hf hj =>
      exact .inr (by simp [hd, hf, cooled, Journal.attemptsOn_append hj, Attempt.coil, Actuation.disable])
  | disabled hd hf hj =>
      exact .inr (by simp [hd, hf, cooled, Journal.attemptsOn_append hj, Attempt.coil, Actuation.disable])

/-- A job that starts gets in line, or is done at once without having touched anything: it is a read of an
unknown coil, or it is refused because the coil is busy. -/
theorem begin (h : job.StepsTo me now p .start progress q) :
    (progress = .next .inLine ∧ q.bank.lock job.coil = (p.bank.lock job.coil).request me ∧
        q.bank.coil job.coil = p.bank.coil job.coil ∧ q.journal = p.journal) ∨
      (job.isRead = true ∧ progress = .finished (.ok (.disabled job.coil)) ∧ q = p ∧
        p.bank.coil job.coil = .disabled job.coil) ∨
      ((p.bank.lock job.coil).isHeld = true ∧ progress = .finished (.error (.busy job.coil)) ∧
        q.bank = p.bank ∧ q.board = p.board ∧ q.journal.attempts = p.journal.attempts) := by
  cases h with
  | linesUp => exact .inl (by simp)
  | readUnknown hr hs => exact .inr (.inl ⟨hr, rfl, rfl, CoilBank.coil_of_not_mem hs⟩)
  | refused _ _ hb => exact .inr (.inr ⟨hb, rfl, rfl, rfl, by simp [CoilPanel.note]⟩)

/-- Only the holder of the lock of a coil sends anything to it. -/
theorem sent_of_not_holder (h : job.StepsTo me now p stage progress q) {c : CoilNumber}
    (hc : ∀ d, stage = .cooling d → (p.bank.lock job.coil).holder = some me)
    (hh : (p.bank.lock c).holder ≠ some me) :
    q.journal.attemptsOn c = p.journal.attemptsOn c := by
  by_cases hjc : job.coil = c
  · subst hjc
    cases stage with
    | cooling d => exact absurd (hc d rfl) hh
    | inLine => rw [(h.wait hh).2]
    | start =>
        rcases h.begin with ⟨-, -, -, hj⟩ | ⟨-, -, rfl, -⟩ | ⟨-, -, -, -, hj⟩
        · rw [hj]
        · rfl
        · exact Journal.attemptsOn_congr hj _
  · exact (h.frame hjc).2.2

theorem cooling_of_pulse (h : job.StepsTo me now p stage progress q) {c : CoilNumber} {a : Actuation}
    (hsent : q.journal.attemptsOn c = p.journal.attemptsOn c ++ [⟨.command, a, none⟩])
    (ha : a.kind = .pulse) (he : (p.bank.coil c).enabled = true) :
    job.coil = c ∧ ∃ d, progress = .next (.cooling d) := by
  have hne : q.journal.attemptsOn c ≠ p.journal.attemptsOn c := by simp [hsent]
  by_cases hjc : job.coil = c
  · subst hjc
    refine ⟨rfl, ?_⟩
    cases h with
    | readUnknown => exact absurd rfl hne
    | refused => exact absurd (Journal.attemptsOn_congr (by simp [CoilPanel.note]) _) hne
    | linesUp => exact absurd rfl hne
    | waits => exact absurd rfl hne
    | silent => exact absurd rfl hne
    | denied _ hd _ hj =>
        simp [Journal.attemptsOn_append hj, Attempt.coil, coil_of_demand hd] at hsent
    | served _ hd _ hl hj =>
        simp only [Journal.attemptsOn_append hj, Attempt.coil, coil_of_demand hd, decide_true,
          List.filter_cons_of_pos, List.filter_nil, List.append_cancel_left_eq, List.cons.injEq,
          Attempt.mk.injEq, and_true] at hsent
        obtain ⟨rfl, rfl⟩ := hsent
        cases hl.symm.trans (lingers_of_demand hd ha he)
    | pulsed => exact ⟨_, rfl⟩
    | cools => exact absurd rfl hne
    | leftOn _ _ hj =>
        simp [Journal.attemptsOn_append hj, Attempt.coil, Actuation.disable] at hsent
    | disabled _ _ hj =>
        simp only [Journal.attemptsOn_append hj, Attempt.coil, Actuation.disable, decide_true,
          List.filter_cons_of_pos, List.filter_nil, List.append_cancel_left_eq, List.cons.injEq,
          Attempt.mk.injEq, and_true, true_and] at hsent
        subst hsent
        cases ha
  · exact absurd (h.frame hjc).2.2 hne

theorem untouched_of_busy {c : CoilNumber}
    (h : job.StepsTo me now p stage (.finished (.error (.busy c))) q) :
    q.bank = p.bank ∧ q.board = p.board ∧ q.journal.attempts = p.journal.attempts := by
  cases h with
  | refused => exact ⟨rfl, rfl, by simp [CoilPanel.note]⟩

end StepsTo
end CoilJob
end Playfield
