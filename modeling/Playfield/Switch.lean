import Playfield.Error

/-! Switches: binary sensors that report their transitions with a timestamp. -/
namespace Playfield

structure Switch where
  number : SwitchNumber
  isActive : Bool
  /-- When the last accepted report came that changed `isActive`. -/
  lastChangedAt : Option UInt64
  /-- When the last accepted report came. -/
  lastReportedAt : Option UInt64
deriving DecidableEq, Repr

namespace Switch

/-- A switch that nobody has reported yet. -/
def inactive (number : SwitchNumber) : Switch := ⟨number, false, none, none⟩

/-- Takes a report and says whether the state changed. A report that is older than the last accepted
one is refused; a report of the current state is accepted and changes only the time of report. -/
def report (s : Switch) (isActive : Bool) (timestamp : UInt64) : Except StaleReport (Bool × Switch) :=
  match s.lastReportedAt.filter (timestamp < ·) with
  | some last => .error ⟨s.number, timestamp, last⟩
  | none =>
    if s.isActive = isActive then .ok (false, { s with lastReportedAt := some timestamp })
    else
      .ok (true, { s with
        isActive, lastChangedAt := some timestamp, lastReportedAt := some timestamp })

end Switch
end Playfield
