import Playfield.Proofs.Board

/-! The board over time. Whatever it is asked to carry out, and whenever it goes on- or offline, its history is
the list of what it has accepted, and each driver is where the history of its coil has taken it from rest. -/
namespace Playfield

namespace CoilDriver

theorem fired_apply (d : CoilDriver) (a : Actuation) (canHold : Bool) :
    (d.apply a canHold).fired = d.fired + if a.isDisable then 0 else 1 := by
  unfold apply
  split
  · rfl
  · rfl

/-- Every actuation but a disable counts. -/
theorem fired_run (d : CoilDriver) (steps : List (Actuation × Bool)) :
    (d.run steps).fired = d.fired + steps.countP (!·.1.isDisable) := by
  induction steps generalizing d with
  | nil => rfl
  | cons s steps ih =>
    rw [run, List.foldl_cons, ← run, ih, fired_apply, List.countP_cons]
    cases s.1.isDisable with
    | true => simp
    | false =>
      simp only [Bool.false_eq_true, if_false, Bool.not_false, if_true]
      omega

theorem fired_replay (as : List Actuation) (canHold : Bool) (d : CoilDriver) :
    (as.foldl (fun d a => d.apply a canHold) d).fired = d.fired + as.countP (!·.isDisable) := by
  rw [replay_eq_run, fired_run, List.countP_map]
  rfl

end CoilDriver

namespace Board

/-- What may happen to a board. -/
inductive Act where
  | actuate (a : Actuation)
  | setOnline (online : Bool)

/-- A refused actuation leaves the board as it was. -/
def enact (b : Board) : Act → Board
  | .actuate a =>
    match b.drive a with
    | .ok b' => b'
    | .error _ => b
  | .setOnline online => b.setOnline online

def play (b : Board) (acts : List Act) : Board := acts.foldl enact b

/-- A board takes what it is asked for while it is online, for the coils that it is wired to. -/
def Accepts (config : BoardConfig) (online : Bool) (a : Actuation) : Prop :=
  online = true ∧ (config.wired = ∅ ∨ a.coil ∈ config.wired)

instance (config : BoardConfig) (online : Bool) (a : Actuation) : Decidable (Accepts config online a) :=
  inferInstanceAs (Decidable (_ ∧ _))

/-- Whether a board is online after some acts, by the last word on it. -/
def onlineAfter : Bool → List Act → Bool
  | online, [] => online
  | online, .actuate _ :: acts => onlineAfter online acts
  | _, .setOnline online :: acts => onlineAfter online acts

/-- The actuations among some acts that a board accepts. -/
def accepted (config : BoardConfig) : Bool → List Act → List Actuation
  | _, [] => []
  | online, .actuate a :: acts =>
    if Accepts config online a then a :: accepted config online acts else accepted config online acts
  | _, .setOnline online :: acts => accepted config online acts

variable {b : Board} {a : Actuation}

theorem accepts_iff : Accepts b.config b.online a ↔ b.fault? a.coil = none := by
  have hwired : b.isWired a.coil = true ↔ b.config.wired = ∅ ∨ a.coil ∈ b.config.wired := by
    rw [isWired, Bool.or_eq_true, Std.ExtTreeSet.isEmpty_iff, Std.ExtTreeSet.contains_iff_mem]
  rw [Accepts, ← hwired, fault?]
  cases b.online <;> cases b.isWired a.coil <;> simp

theorem drive_of_accepts (h : Accepts b.config b.online a) : b.drive a = .ok (b.accept a) :=
  drive_of_no_fault (accepts_iff.mp h)

theorem drive_of_not_accepts (h : ¬Accepts b.config b.online a) :
    ∃ fault, b.drive a = .error fault := by
  obtain ⟨fault, hfault⟩ := Option.ne_none_iff_exists'.mp (mt accepts_iff.mpr h)
  exact ⟨fault, drive_of_fault hfault⟩

theorem drive_eq_ok {b' : Board} :
    b.drive a = .ok b' ↔ Accepts b.config b.online a ∧ b' = b.accept a := by
  constructor
  · intro hb
    by_cases h : Accepts b.config b.online a
    · rw [drive_of_accepts h] at hb
      exact ⟨h, (Except.ok.inj hb).symm⟩
    · obtain ⟨fault, hfault⟩ := drive_of_not_accepts h
      rw [hfault] at hb
      cases hb
  · rintro ⟨h, rfl⟩
    exact drive_of_accepts h

theorem enact_of_accepts (h : Accepts b.config b.online a) : b.enact (.actuate a) = b.accept a := by
  rw [enact, drive_of_accepts h]

theorem enact_of_not_accepts (h : ¬Accepts b.config b.online a) : b.enact (.actuate a) = b := by
  obtain ⟨fault, hfault⟩ := drive_of_not_accepts h
  rw [enact, hfault]

theorem config_enact (b : Board) (act : Act) : (b.enact act).config = b.config := by
  cases act with
  | setOnline online => rfl
  | actuate a =>
    by_cases h : Accepts b.config b.online a
    · rw [enact_of_accepts h, config_accept]
    · rw [enact_of_not_accepts h]

theorem online_enact (b : Board) (act : Act) : (b.enact act).online = onlineAfter b.online [act] := by
  cases act with
  | setOnline online => rfl
  | actuate a =>
    by_cases h : Accepts b.config b.online a
    · rw [enact_of_accepts h]
      rfl
    · rw [enact_of_not_accepts h]
      rfl

theorem Replays.enact (h : b.Replays) (act : Act) : (b.enact act).Replays := by
  cases act with
  | setOnline online => exact h.setOnline online
  | actuate a =>
    by_cases ha : Accepts b.config b.online a
    · rw [enact_of_accepts ha]
      exact h.accept a
    · rw [enact_of_not_accepts ha]
      exact h

theorem config_play (b : Board) (acts : List Act) : (b.play acts).config = b.config := by
  induction acts generalizing b with
  | nil => rfl
  | cons act acts ih => exact (ih (b.enact act)).trans (config_enact b act)

theorem online_play (b : Board) (acts : List Act) :
    (b.play acts).online = onlineAfter b.online acts := by
  induction acts generalizing b with
  | nil => rfl
  | cons act acts ih =>
    refine (ih (b.enact act)).trans ?_
    rw [online_enact]
    cases act with
    | actuate a => rfl
    | setOnline online => rfl

/-- What is accepted is appended to the history, and nothing else is. -/
theorem history_play (b : Board) (acts : List Act) :
    (b.play acts).history = b.history ++ accepted b.config b.online acts := by
  induction acts generalizing b with
  | nil => exact (List.append_nil _).symm
  | cons act acts ih =>
    refine (ih (b.enact act)).trans ?_
    rw [config_enact, online_enact]
    cases act with
    | setOnline online => rfl
    | actuate a =>
      rw [accepted]
      by_cases h : Accepts b.config b.online a
      · rw [if_pos h, enact_of_accepts h, history_accept, List.append_assoc]
        rfl
      · rw [if_neg h, enact_of_not_accepts h]
        rfl

theorem Replays.play (h : b.Replays) (acts : List Act) : (b.play acts).Replays := by
  induction acts generalizing b with
  | nil => exact h
  | cons act acts ih => exact ih (h.enact act)

/-- A board accepts what it is asked for just while it is online and for the coils that it is wired to. It
appends that to its history, and a refusal leaves it as it was. So its history is what it has accepted, in that
order, and each driver is where the actuations of its coil have taken it from rest: it shows the last of them,
and has counted those that were no disables. -/
theorem replays_what_it_accepts (config : BoardConfig) (acts : List Act) :
    let b := (ofConfig config).play acts
    let mine (c : CoilNumber) := b.history.filter (·.coil = c)
    b.online = onlineAfter true acts ∧
      (∀ a, (∃ b', b.drive a = .ok b') ↔
        b.online = true ∧ (config.wired = ∅ ∨ a.coil ∈ config.wired)) ∧
      (∀ a b', b.drive a = .ok b' → b'.history = b.history ++ [a] ∧ b.enact (.actuate a) = b') ∧
      (∀ a fault, b.drive a = .error fault → b.enact (.actuate a) = b) ∧
      b.history = accepted config true acts ∧
      ∀ c, b.driver c = (mine c).foldl (fun d a => d.apply a config.holdPower) .idle ∧
        (b.driver c).output = (mine c).getLast?.elim .off (CoilDriver.shows · config.holdPower) ∧
        (b.driver c).fired = (mine c).countP (!·.isDisable) := by
  intro b mine
  have hconfig : b.config = config := config_play _ acts
  have hreplay (c : CoilNumber) :
      b.driver c = (mine c).foldl (fun d a => d.apply a config.holdPower) .idle := by
    rw [← hconfig]
    exact (replays_ofConfig config).play acts c
  refine ⟨online_play _ acts, fun a => ?_, fun a b' hb => ?_, fun a fault hb => ?_, history_play _ acts,
    fun c => ⟨hreplay c, ?_, ?_⟩⟩
  · rw [← hconfig]
    constructor
    · rintro ⟨b', hb⟩
      exact (drive_eq_ok.mp hb).1
    · intro h
      exact ⟨b.accept a, drive_of_accepts h⟩
  · obtain ⟨h, rfl⟩ := drive_eq_ok.mp hb
    exact ⟨history_accept b a, enact_of_accepts h⟩
  · rw [enact, hb]
  · rw [hreplay c, CoilDriver.output_replay]
    rfl
  · rw [hreplay c, CoilDriver.fired_replay]
    exact Nat.zero_add _

end Board
end Playfield
