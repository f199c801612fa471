import Playfield.Platform

/-! The operations of a platform as values: what a client can ask for, and what it is answered. -/
namespace Playfield

inductive Call where
  | details
  | report (request : TransitionRequest)
  | switchState (number : String)
  | switches
  | pulse (request : PulseRequest)
  | enable (request : EnableRequest)
  | disable (request : DisableRequest)
  | disableCoils (request : BulkDisableRequest)
  | coilState (number : String)
  | configureRule (request : RuleRequest)
  | removeRule (request : RuleRemovalRequest)
  | rules
  | fadeChannels (request : FadeRequest)
  | fadeRgb (request : RgbFadeRequest)
  | fadeSingle (request : SingleFadeRequest)
  | lightState (number : String)
  | registerDevice (request : DeviceRequest)
  | device (kind : Kind) (name : String)
  | devices (query : DeviceQuery)
  | reset

inductive Answer where
  | done
  | details (details : PlatformDetails)
  /-- Whether a report changed its switch. -/
  | changed (changed : Bool)
  | switch (switch : Switch)
  | switches (switches : List Switch)
  | coil (coil : Coil)
  | coils (coils : List Coil)
  | rule (rule : HardwareRule)
  | rules (rules : List HardwareRule)
  | light (state : LightState)
  | device (device : Device)
  | devices (devices : List Device)
deriving DecidableEq

abbrev Outcome := Except PlatformError Answer

end Playfield
