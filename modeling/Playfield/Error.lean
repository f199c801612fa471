import Playfield.Decimal.Layout
import Playfield.Number

/-! The errors that platform operations answer with: six kinds, each with its cause. -/
namespace Playfield

inductive RangeError where
  /-- A power or brightness is not a number from 0 to 1. -/
  | unitInterval (field : String) (value : Float)
  | negative (field : String) (value : Int)
  | tooLarge (field : String) (value max : Int)
deriving DecidableEq, Repr

def RangeError.message : RangeError → String
  | .unitInterval field value =>
    field ++ " must be within [0, 1], got " ++ Decimal.render .text value
  | .negative field value => field ++ " must not be negative, got " ++ toString value
  | .tooLarge field value max =>
    field ++ " exceeds the maximum of " ++ toString max ++ ", got " ++ toString value

inductive ValidationError where
  /-- A hardware number is blank; `kind` is the word for the hardware. -/
  | emptyNumber (kind : String)
  | emptyName (kind : String)
  | noFadeTargets
deriving DecidableEq, Repr

def ValidationError.message : ValidationError → String
  | .emptyNumber kind => kind ++ " number must not be empty"
  | .emptyName kind => kind ++ " name must not be empty"
  | .noFadeTargets => "light fade must target at least one channel"

/-- A switch report that is older than the last accepted one. -/
structure StaleReport where
  switch : SwitchNumber
  timestamp : UInt64
  lastAccepted : UInt64
deriving DecidableEq, Repr

def StaleReport.message (e : StaleReport) : String :=
  "switch " ++ e.switch.text ++ " reported t=" ++ toString e.timestamp ++ " but last accepted t="
    ++ toString e.lastAccepted

structure Missing where
  entity : String
  id : String
deriving DecidableEq, Repr

def Missing.message (e : Missing) : String := e.entity ++ " " ++ e.id ++ " not found"

/-- A coil whose actuator cannot be reached, with the reason. -/
structure Unavailable where
  coil : CoilNumber
  reason : String
deriving DecidableEq, Repr

def Unavailable.message (e : Unavailable) : String :=
  "actuator unavailable for coil " ++ e.coil.text ++ ": " ++ e.reason

inductive PlatformError where
  | stale (cause : StaleReport)
  | notFound (cause : Missing)
  /-- The coil is executing another command, and commands are not queued. -/
  | busy (coil : CoilNumber)
  | range (cause : RangeError)
  | validation (cause : ValidationError)
  | unavailable (cause : Unavailable)
deriving DecidableEq, Repr

namespace PlatformError

def summary : PlatformError → String
  | .stale _ => "stale switch event"
  | .notFound _ => "not found"
  | .busy _ => "coil busy"
  | .range _ => "value out of range"
  | .validation _ => "validation error"
  | .unavailable _ => "hardware unavailable"

def message : PlatformError → String
  | .stale cause => cause.message
  | .notFound cause => cause.message
  | .busy coil => "coil " ++ coil.text ++ " is executing another command"
  | .range cause => cause.message
  | .validation cause => cause.message
  | .unavailable cause => cause.message

end PlatformError

end Playfield
