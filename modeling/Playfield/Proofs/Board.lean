import Mathlib.Data.List.Induction
import Playfield.Board
import Playfield.Proofs.Map

/-! What the board does with one actuation, and what its drivers show: each is the replay of the part of
the history that concerns its coil. -/
namespace Playfield

namespace Board

/-- Why the board refuses every actuation of a coil at present, if it does. -/
def fault? (b : Board) (coil : CoilNumber) : Option BoardFault :=
  if !b.online then some (.offline coil)
  else if !b.isWired coil then some (.unwired coil)
  else none

/-- The board once it has carried out an actuation. -/
def accept (b : Board) (a : Actuation) : Board :=
  { b with
    drivers := b.drivers.insert a.coil ((b.driver a.coil).apply a b.config.holdPower)
    history := b.history ++ [a] }

theorem drive_of_fault {b : Board} {a : Actuation} {fault : BoardFault}
    (h : b.fault? a.coil = some fault) : b.drive a = .error fault := by
  unfold fault? at h
  unfold drive
  split at h
  · next ho => simp_all
  · split at h <;> simp_all

theorem drive_of_no_fault {b : Board} {a : Actuation} (h : b.fault? a.coil = none) :
    b.drive a = .ok (b.accept a) := by
  unfold fault? at h
  split at h
  · cases h
  · split at h
    · cases h
    · simp_all [drive, accept]

@[simp] theorem driver_accept (b : Board) (a : Actuation) (c : CoilNumber) :
    (b.accept a).driver c =
      if a.coil = c then (b.driver c).apply a b.config.holdPower else b.driver c := by
  unfold accept driver
  rw [Map.getD_insert]
  by_cases h : a.coil = c <;> simp [h]

@[simp] theorem history_accept (b : Board) (a : Actuation) :
    (b.accept a).history = b.history ++ [a] := rfl

@[simp] theorem config_accept (b : Board) (a : Actuation) : (b.accept a).config = b.config := rfl

theorem fault?_congr {b b' : Board} (hc : b.config = b'.config) (ho : b.online = b'.online)
    (coil : CoilNumber) : b.fault? coil = b'.fault? coil := by
  cases b
  cases b'
  cases hc
  cases ho
  rfl

theorem fault?_setOnline {b b' : Board} (hc : b.config = b'.config) (coil : CoilNumber) :
    (b.setOnline b'.online).fault? coil = b'.fault? coil :=
  fault?_congr (b := b.setOnline b'.online) hc rfl coil

/-- Every driver is where the history of its coil has taken it from rest. -/
def Replays (b : Board) : Prop :=
  ∀ c, b.driver c =
    (b.history.filter (·.coil = c)).foldl (fun d a => d.apply a b.config.holdPower) .idle

theorem replays_ofConfig (config : BoardConfig) : (ofConfig config).Replays := by
  intro c
  simp [ofConfig, driver]

theorem Replays.accept {b : Board} (h : b.Replays) (a : Actuation) : (b.accept a).Replays := by
  intro c
  by_cases hc : a.coil = c
  · simp [hc, h c, List.filter_append]
  · simp [hc, h c, List.filter_append]

theorem Replays.setOnline {b : Board} (h : b.Replays) (online : Bool) :
    (b.setOnline online).Replays := h

end Board

namespace CoilDriver

/-- What a driver shows once it has carried out the actuation `a`. -/
def shows (a : Actuation) (canHold : Bool) : DriverOutput :=
  if a.isDisable then .off
  else if a.holds && canHold then .holding a.pulseMs a.pulsePower a.holdPower
  else .pulsed a.pulseMs a.pulsePower

theorem output_apply (d : CoilDriver) (a : Actuation) (canHold : Bool) :
    (d.apply a canHold).output = shows a canHold := by
  unfold apply shows
  split <;> rfl

/-- A driver after some actuations, each on a board that can hold or cannot. -/
def run (d : CoilDriver) (steps : List (Actuation × Bool)) : CoilDriver :=
  steps.foldl (fun d s => d.apply s.1 s.2) d

/-- Only the last actuation counts for the output. -/
theorem output_run (d : CoilDriver) (steps : List (Actuation × Bool)) :
    (d.run steps).output = steps.getLast?.elim d.output fun s => shows s.1 s.2 := by
  cases steps using List.reverseRecOn with
  | nil => rfl
  | append_singleton steps s => simp [run, List.foldl_append, output_apply]

theorem replay_eq_run (as : List Actuation) (canHold : Bool) (d : CoilDriver) :
    as.foldl (fun d a => d.apply a canHold) d = d.run (as.map fun a => (a, canHold)) := by
  rw [run, List.foldl_map]

theorem output_replay (as : List Actuation) (canHold : Bool) (d : CoilDriver) :
    (as.foldl (fun d a => d.apply a canHold) d).output =
      as.getLast?.elim d.output (shows · canHold) := by
  rw [replay_eq_run, output_run, List.getLast?_map]
  cases as.getLast? <;> rfl

end CoilDriver
end Playfield
