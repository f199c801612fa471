/-! A clock in milliseconds that moves only when it is told to. -/
namespace Playfield

/-- The milliseconds since an arbitrary origin. -/
structure Clock where
  now : UInt64
deriving DecidableEq, Repr

namespace Clock

/-- Moves the clock on; past 2 ^ 64 - 1 it starts again at zero. -/
def advance (c : Clock) (ms : UInt64) : Clock := ⟨c.now + ms⟩

/-- Moves the clock to a moment, unless that lies in the past. -/
def set (c : Clock) (moment : UInt64) : Clock := ⟨max c.now moment⟩

end Clock
end Playfield
