import Playfield.Proofs.Coil.Job

/-! The disable of one coil. It is refused at the start, or it gets the lock and comes to what the state of the
coil and of the board say; no other coil has anything to do with it. -/
namespace Playfield

namespace CoilPanel

/-- What the disable of a coil comes to that has the lock of the coil. -/
def releasing (p : CoilPanel) (c : CoilNumber) : CoilJob.Result :=
  if (p.bank.coil c).enabled then
    (p.board.fault? c).elim (.ok (p.bank.coil c).recordDisable) fun fault =>
      .error (.unavailable fault.unavailable)
  else .ok (p.bank.coil c)

/-- What the disable of a coil comes to that nobody gets in the way of. -/
def disabling (p : CoilPanel) (c : CoilNumber) : CoilJob.Result :=
  if p.bank.policy = .reject ∧ (p.bank.lock c).isHeld then .error (.busy c) else p.releasing c

/-- What the disables of these coils come to, of which none knows of the others. -/
def disablings (p : CoilPanel) (targets : List CoilNumber) : List (CoilNumber × CoilJob.Result) :=
  targets.map fun c => (c, p.disabling c)

theorem disablings_cons (p : CoilPanel) (c : CoilNumber) (rest : List CoilNumber) :
    p.disablings (c :: rest) = (c, p.disabling c) :: p.disablings rest := rfl

/-- What the disable of a coil asks of the board. -/
def asking (p : CoilPanel) (c : CoilNumber) : Journal :=
  if (p.bank.coil c).enabled then [.attempted .command (.disable c) (p.board.fault? c)] else []

/-- The record of a coil once a job has had its result. -/
def recorded (k : Coil) (result : CoilJob.Result) : Coil := result.toOption.getD k

@[simp] theorem recorded_ok (k k' : Coil) : recorded k (.ok k') = k' := rfl

@[simp] theorem recorded_error (k : Coil) (e : PlatformError) : recorded k (.error e) = k := rfl

/-- The coils of `targets` have been disabled, each as far as it could be, and no other coil has changed. -/
def Swept (targets : List CoilNumber) (p q : CoilPanel) : Prop :=
  ∀ c, q.bank.coil c = if c ∈ targets then recorded (p.bank.coil c) (p.disabling c) else p.bank.coil c

variable {p q : CoilPanel} {c n : CoilNumber} {k : Coil}

/-- A coil that has been disabled is disabled. -/
theorem of_releasing (h : p.releasing c = .ok k) : k.number = (p.bank.coil c).number ∧ k.enabled = false := by
  unfold releasing at h
  split at h
  · cases hf : p.board.fault? c <;> rw [hf] at h <;> cases h
    exact ⟨rfl, rfl⟩
  · next he =>
    cases h
    exact ⟨rfl, Bool.eq_false_iff.mpr he⟩

theorem of_disabling (h : p.disabling c = .ok k) : k.number = (p.bank.coil c).number ∧ k.enabled = false := by
  unfold disabling at h
  split at h
  · cases h
  · exact of_releasing h

/-- Only the coil in question may have changed, and nobody has come to or gone from the locks of others. -/
structure Spares (c : CoilNumber) (p q : CoilPanel) : Prop where
  policy : q.bank.policy = p.bank.policy
  coil : ∀ n, n ≠ c → q.bank.coil n = p.bank.coil n
  lock : ∀ n, n ≠ c → q.bank.lock n = p.bank.lock n
  fault : ∀ n, q.board.fault? n = p.board.fault? n

namespace Spares

theorem refl (c : CoilNumber) (p : CoilPanel) : Spares c p p := ⟨rfl, fun _ _ => rfl, fun _ _ => rfl, fun _ => rfl⟩

theorem trans {r : CoilPanel} (h : Spares c p q) (h' : Spares c q r) : Spares c p r where
  policy := h'.policy.trans h.policy
  coil := fun n hn => (h'.coil n hn).trans (h.coil n hn)
  lock := fun n hn => (h'.lock n hn).trans (h.lock n hn)
  fault := fun n => (h'.fault n).trans (h.fault n)

/-- The disable of another coil would come to the same. -/
theorem disabling (h : Spares c p q) (hn : n ≠ c) : q.disabling n = p.disabling n := by
  unfold CoilPanel.disabling CoilPanel.releasing
  rw [h.policy, h.coil n hn, h.lock n hn, h.fault n]

end Spares
end CoilPanel

namespace CoilJob

open CoilPanel (releasing asking recorded Spares)

variable {c : CoilNumber} {me : TaskId} {now : Nat} {p : CoilPanel}

theorem spares_release {board : Board} {journal : Journal} (hb : ∀ n, board.fault? n = p.board.fault? n) :
    Spares c p ⟨p.bank.release c, board, journal⟩ where
  policy := rfl
  coil := by simp
  lock := by
    intro n hn
    simp [Ne.symm hn]
  fault := hb

theorem spares_put {board : Board} {journal : Journal} {k : Coil}
    (hb : ∀ n, board.fault? n = p.board.fault? n) :
    Spares c p ⟨(p.bank.put c k).release c, board, journal⟩ where
  policy := rfl
  coil := by
    intro n hn
    simp [Ne.symm hn]
  lock := by
    intro n hn
    simp [Ne.symm hn]
  fault := hb

/-- Who holds the lock of a coil disables it at once. -/
theorem act_disable (hn : p.bank.Numbered) (now : Nat) : ∃ q,
    (CoilJob.disable c).act now p = (.finished (p.releasing c), q) ∧ Spares c p q ∧
      q.bank.coil c = recorded (p.bank.coil c) (p.releasing c) ∧
      q.bank.lock c = (p.bank.lock c).release ∧ q.journal = p.journal ++ p.asking c := by
  have hk : (p.bank.coil c).recordDisable.number = c := hn c
  cases he : (p.bank.coil c).enabled with
  | false =>
      have hr : p.releasing c = .ok (p.bank.coil c) := by simp [releasing, he]
      refine ⟨p.release c, ?_, spares_release fun _ => rfl, ?_, ?_, ?_⟩
      · simp [act, coil, he, finish, hr]
      · simp [CoilPanel.release, hr]
      · simp [CoilPanel.release]
      · simp [CoilPanel.release, asking, he]
  | true =>
      cases hf : p.board.fault? c with
      | some fault =>
          have hr : p.releasing c = .error (.unavailable fault.unavailable) := by simp [releasing, he, hf]
          refine ⟨(p.refuse .command (.disable c) fault).release c, ?_, spares_release fun _ => rfl, ?_, ?_, ?_⟩
          · simp only [act, coil, he, Bool.not_true, Bool.false_eq_true, if_false,
              CoilPanel.send_of_fault (a := .disable c) hf, finish, hr]
          · simp [CoilPanel.release, CoilPanel.refuse, hr]
          · simp [CoilPanel.release, CoilPanel.refuse]
          · simp [CoilPanel.release, CoilPanel.refuse, asking, he, hf]
      | none =>
          have hr : p.releasing c = .ok (p.bank.coil c).recordDisable := by simp [releasing, he, hf]
          refine ⟨((p.accept .command (.disable c)).setCoil (p.bank.coil c).recordDisable).release c, ?_, ?_, ?_⟩
          · simp only [act, coil, he, Bool.not_true, Bool.false_eq_true, if_false,
              CoilPanel.send_of_no_fault (a := .disable c) hf, finish, hr]
          all_goals rw [CoilPanel.setCoil, CoilBank.setCoil_eq_put hk, CoilPanel.release, CoilPanel.accept]
          · exact spares_put fun n => Board.fault?_congr (b := p.board.accept _) rfl rfl n
          · refine ⟨?_, ?_, ?_⟩
            · simp [hr]
            · simp
            · simp [asking, he, hf]

/-- One step of the disable of a coil that is not to wait until its pulse is over. -/
inductive Disables (c : CoilNumber) (me : TaskId) (p : CoilPanel) :
    CoilStage → Progress CoilStage Result → CoilPanel → Prop
  | refused : p.bank.policy = .reject → (p.bank.lock c).isHeld = true →
      Disables c me p .start (.finished (.error (.busy c))) (p.note (.commandRejected c))
  | linesUp : ¬(p.bank.policy = .reject ∧ (p.bank.lock c).isHeld = true) →
      Disables c me p .start (.next .inLine) { p with bank := p.bank.request c me }
  | waits : (p.bank.lock c).holder ≠ some me → Disables c me p .inLine .blocked p
  | settles {q} : (p.bank.lock c).holder = some me → Spares c p q →
      q.bank.coil c = recorded (p.bank.coil c) (p.releasing c) → q.bank.lock c = (p.bank.lock c).release →
      q.journal = p.journal ++ p.asking c →
      Disables c me p .inLine (.finished (p.releasing c)) q

/-- What the disable of a coil comes to with its last step, and what that step adds to the journal. -/
inductive Disposes (c : CoilNumber) (me : TaskId) (p : CoilPanel) : Result → Journal → Prop
  /-- Somebody is at work on the coil, and commands are not queued. -/
  | busy : p.bank.policy = .reject → (p.bank.lock c).isHeld = true →
      Disposes c me p (.error (.busy c)) [.noted (.commandRejected c)]
  | settled : (p.bank.lock c).holder = some me → Disposes c me p (p.releasing c) (p.asking c)

theorem Disposes.of_ok {r : Result} {notes : Journal} (h : Disposes c me p r notes) (hn : p.bank.Numbered)
    {k : Coil} (hr : r = .ok k) : k.number = c ∧ k.enabled = false := by
  cases h with
  | busy => cases hr
  | settled =>
      obtain ⟨hnumber, he⟩ := CoilPanel.of_releasing hr
      exact ⟨hnumber.trans (hn c), he⟩

section Disables

variable {q : CoilPanel} {stage : CoilStage} {progress : Progress CoilStage Result}

theorem Disables.spares (h : Disables c me p stage progress q) : Spares c p q := by
  cases h with
  | refused => exact ⟨rfl, fun _ _ => rfl, fun _ _ => rfl, fun _ => rfl⟩
  | linesUp =>
      refine ⟨rfl, fun n _ => ?_, fun n hn => ?_, fun _ => rfl⟩
      · simp
      · simp [Ne.symm hn]
  | waits => exact .refl c p
  | settles _ hspares => exact hspares

theorem Disables.next {stage' : CoilStage} (h : Disables c me p stage (.next stage') q) :
    stage' = .inLine ∧ q = { p with bank := p.bank.request c me } := by
  cases h with
  | linesUp => exact ⟨rfl, rfl⟩

theorem Disables.blocked (h : Disables c me p stage .blocked q) : q = p := by
  cases h with
  | waits => rfl

theorem Disables.disposes {r : Result} (h : Disables c me p stage (.finished r) q) :
    ∃ notes, Disposes c me p r notes ∧ q.journal = p.journal ++ notes ∧
      q.bank.coil c = recorded (p.bank.coil c) r := by
  cases h with
  | refused hp hl => exact ⟨_, .busy hp hl, rfl, rfl⟩
  | settles hh _ hcoil _ hj => exact ⟨_, .settled hh, hj, hcoil⟩

end Disables

theorem disable_disables (hn : p.bank.Numbered) (me : TaskId) (now : Nat) {stage : CoilStage}
    (hstage : stage.deadline? = none) :
    Disables c me p stage ((CoilJob.disable c).step me now stage p).1
      ((CoilJob.disable c).step me now stage p).2 := by
  cases stage with
  | cooling deadline => cases hstage
  | start =>
      rw [step, enter_of_isCommand rfl, coil]
      by_cases hb : p.bank.policy = .reject ∧ (p.bank.lock c).isHeld = true
      · rw [if_pos hb]
        exact .refused hb.1 hb.2
      · rw [if_neg hb]
        exact .linesUp hb
  | inLine =>
      by_cases hh : p.bank.isHeldBy c me = true
      · obtain ⟨q, hact, hspares, hcoil, hlock, hj⟩ := act_disable (c := c) hn now
        rw [step, coil, if_pos hh, hact]
        exact .settles (CoilBank.isHeldBy_iff.mp hh) hspares hcoil hlock hj
      · rw [step, coil, if_neg hh]
        exact .waits (mt CoilBank.isHeldBy_iff.mpr hh)

/-- The disable of a coil that need not wait, and that nobody gets in the way of, is over after one step or two. -/
theorem disable_alone (hn : p.bank.Numbered) (hfree : p.bank.policy = .reject ∨ (p.bank.lock c).isHeld = false)
    (me : TaskId) (now : Nat) : ∃ q, Spares c p q ∧
      q.bank.coil c = recorded (p.bank.coil c) (p.disabling c) ∧
      ((CoilJob.disable c).step me now .start p = (.finished (p.disabling c), q) ∨
        ∃ r, (CoilJob.disable c).step me now .start p = (.next .inLine, r) ∧
          (CoilJob.disable c).step me now .inLine r = (.finished (p.disabling c), q)) := by
  have hstart : (CoilJob.disable c).step me now .start p =
      if p.bank.policy = .reject ∧ (p.bank.lock c).isHeld = true then
        (.finished (.error (.busy c)), p.note (.commandRejected c))
      else (.next .inLine, { p with bank := p.bank.request c me }) :=
    enter_of_isCommand (show (CoilJob.disable c).isCommand = true from rfl)
  by_cases hb : p.bank.policy = .reject ∧ (p.bank.lock c).isHeld = true
  · have hd : p.disabling c = .error (.busy c) := if_pos hb
    refine ⟨p.note (.commandRejected c), ⟨rfl, fun _ _ => rfl, fun _ _ => rfl, fun _ => rfl⟩, ?_, .inl ?_⟩
    · rw [hd]
      rfl
    · rw [hstart, if_pos hb, hd]
  · have hlock : (p.bank.lock c).holder = none := by
      have hnot : (p.bank.lock c).isHeld = false := by
        rcases hfree with hp | hl
        · exact Bool.eq_false_iff.mpr fun hl => hb ⟨hp, hl⟩
        · exact hl
      simpa [Lock.isHeld] using hnot
    -- Whoever asks for a free lock has it, and finds the coil and the board as they were.
    generalize hr : ({ p with bank := p.bank.request c me } : CoilPanel) = r
    have hcoil (n : CoilNumber) : r.bank.coil n = p.bank.coil n := by simp [← hr]
    have hheld : r.bank.isHeldBy c me = true := by
      rw [CoilBank.isHeldBy_iff, ← hr]
      simp [Lock.request, hlock]
    have hreleasing : r.releasing c = p.disabling c := by
      rw [CoilPanel.disabling, if_neg hb, releasing, releasing, hcoil, ← hr]
    have hspares : Spares c p r := by
      refine ⟨by rw [← hr]; rfl, fun n _ => hcoil n, fun n hne => ?_, fun n => by rw [← hr]⟩
      simp [← hr, Ne.symm hne]
    obtain ⟨q, hact, hspares', hq, -, -⟩ := act_disable (p := r) (c := c) (fun n => (hcoil n ▸ hn n)) now
    refine ⟨q, hspares.trans hspares', ?_, .inr ⟨r, ?_, ?_⟩⟩
    · rw [hq, hcoil, hreleasing]
    · rw [hstart, if_neg hb, hr]
    · rw [step, coil, if_pos hheld, hact, hreleasing]

end CoilJob
end Playfield
