import Playfield.Error
import Playfield.UnitInterval

/-! Checks on the raw values of a request. Each makes a value that the hardware accepts, or an error
that names the field. -/
namespace Playfield.Check

/-- A hardware number, which must not be blank. -/
def number (kind : Kind) (s : String) : Except PlatformError (Number kind) :=
  match Number.ofString? kind s with
  | some n => .ok n
  | none => .error (.validation (.emptyNumber kind.word))

def power (field : String) (value : Float) : Except PlatformError Power :=
  match Power.ofFloat? value with
  | some p => .ok p
  | none => .error (.range (.unitInterval field value))

def brightness (field : String) (value : Float) : Except PlatformError Brightness :=
  match Brightness.ofFloat? value with
  | some b => .ok b
  | none => .error (.range (.unitInterval field value))

/-- The longest duration, in milliseconds. -/
def maxDuration : Int := 4294967295

def duration (field : String) (value : Int) : Except PlatformError UInt32 :=
  if value < 0 then .error (.range (.negative field value))
  else if maxDuration < value then .error (.range (.tooLarge field value maxDuration))
  else .ok (.ofNat value.toNat)

def timestamp (value : Int) : Except PlatformError UInt64 :=
  if value < 0 then .error (.range (.negative "timestamp" value)) else .ok (.ofNat value.toNat)

end Playfield.Check
