import Playfield.Check
import Playfield.Device
import Playfield.Rule

/-! Requests as clients send them, with raw texts and numbers, and the checked commands that they
become. A request is checked as a whole before anything happens, and the error names the first fault
in the order of the checks. -/
namespace Playfield

structure TransitionRequest where
  switch : String
  isActive : Bool
  timestamp : Int

structure Transition where
  switch : SwitchNumber
  isActive : Bool
  timestamp : UInt64
deriving DecidableEq, Repr

def TransitionRequest.validate (r : TransitionRequest) : Except PlatformError Transition := do
  let switch ← Check.number .switch r.switch
  let timestamp ← Check.timestamp r.timestamp
  return { switch, isActive := r.isActive, timestamp }

structure PulseRequest where
  coil : String
  pulseMs : Int
  pulsePower : Float

structure Pulse where
  coil : CoilNumber
  pulseMs : UInt32
  pulsePower : Power
deriving DecidableEq, Repr

def PulseRequest.validate (r : PulseRequest) : Except PlatformError Pulse := do
  let coil ← Check.number .coil r.coil
  let pulseMs ← Check.duration "pulse_ms" r.pulseMs
  let pulsePower ← Check.power "pulse_power" r.pulsePower
  return { coil, pulseMs, pulsePower }

structure EnableRequest where
  coil : String
  pulseMs : Int
  pulsePower : Float
  holdPower : Float

structure Enable where
  coil : CoilNumber
  pulseMs : UInt32
  pulsePower : Power
  holdPower : Power
deriving DecidableEq, Repr

def EnableRequest.validate (r : EnableRequest) : Except PlatformError Enable := do
  let coil ← Check.number .coil r.coil
  let pulseMs ← Check.duration "pulse_ms" r.pulseMs
  let pulsePower ← Check.power "pulse_power" r.pulsePower
  let holdPower ← Check.power "hold_power" r.holdPower
  return { coil, pulseMs, pulsePower, holdPower }

structure DisableRequest where
  coil : String

def DisableRequest.validate (r : DisableRequest) : Except PlatformError CoilNumber :=
  Check.number .coil r.coil

structure RuleRequest where
  coil : String
  switch : String
  pulseMs : Int
  pulsePower : Float
  holdPower : Float

def RuleRequest.validate (r : RuleRequest) : Except PlatformError HardwareRule := do
  let switch ← Check.number .switch r.switch
  let coil ← Check.number .coil r.coil
  let pulseMs ← Check.duration "pulse_ms" r.pulseMs
  let pulsePower ← Check.power "pulse_power" r.pulsePower
  let holdPower ← Check.power "hold_power" r.holdPower
  return { switch, coil, pulseMs, pulsePower, holdPower }

structure RuleRemovalRequest where
  coil : String
  switch : String

def RuleRemovalRequest.validate (r : RuleRemovalRequest) : Except PlatformError RuleKey := do
  let switch ← Check.number .switch r.switch
  let coil ← Check.number .coil r.coil
  return { switch, coil }

structure FadeTarget where
  light : String
  brightness : Float

/-- A light fade: one duration for every listed channel. -/
structure FadeRequest where
  fadeMs : Int
  targets : List FadeTarget

structure ChannelFade where
  fadeMs : UInt32
  targets : List (LightNumber × Brightness)
deriving DecidableEq, Repr

def FadeTarget.validate (t : FadeTarget) : Except PlatformError (LightNumber × Brightness) := do
  let light ← Check.number .light t.light
  let brightness ← Check.brightness "target_brightness" t.brightness
  return (light, brightness)

/-- Checks the targets in their order, up to the first fault. -/
def FadeTarget.validateAll :
    List FadeTarget → Except PlatformError (List (LightNumber × Brightness))
  | [] => .ok []
  | t :: rest => do return (← t.validate) :: (← validateAll rest)

def FadeRequest.validate (r : FadeRequest) : Except PlatformError ChannelFade := do
  if r.targets.isEmpty then throw (.validation .noFadeTargets)
  let fadeMs ← Check.duration "common_fade_ms" r.fadeMs
  let targets ← FadeTarget.validateAll r.targets
  return { fadeMs, targets }

structure RgbFadeRequest where
  light : String
  r : Float
  g : Float
  b : Float
  fadeMs : Int

structure RgbFade where
  light : LightNumber
  r : Brightness
  g : Brightness
  b : Brightness
  fadeMs : UInt32
deriving DecidableEq, Repr

def RgbFadeRequest.validate (q : RgbFadeRequest) : Except PlatformError RgbFade := do
  let light ← Check.number .light q.light
  let r ← Check.brightness "r" q.r
  let g ← Check.brightness "g" q.g
  let b ← Check.brightness "b" q.b
  let fadeMs ← Check.duration "fade_ms" q.fadeMs
  return { light, r, g, b, fadeMs }

structure SingleFadeRequest where
  light : String
  brightness : Float
  fadeMs : Int

structure SingleFade where
  light : LightNumber
  target : Brightness
  fadeMs : UInt32
deriving DecidableEq, Repr

def SingleFadeRequest.validate (r : SingleFadeRequest) : Except PlatformError SingleFade := do
  let light ← Check.number .light r.light
  let target ← Check.brightness "target_brightness" r.brightness
  let fadeMs ← Check.duration "fade_ms" r.fadeMs
  return { light, target, fadeMs }

structure DeviceRequest where
  kind : Kind
  name : String
  number : String
  label : Option String
  tags : List String
deriving DecidableEq, Repr

/-- The tags of a device: the normal forms of the given ones that are not empty. -/
def DeviceRequest.normalTags (r : DeviceRequest) : Std.ExtTreeSet String :=
  .ofList ((r.tags.map normalize).filter (· ≠ ""))

/-- Checks the name before the number. A blank label counts as none. -/
def DeviceRequest.validate (r : DeviceRequest) : Except PlatformError Device := do
  let name := normalize r.name
  if name = "" then throw (.validation (.emptyName r.kind.word))
  let number ← Check.number r.kind r.number
  return {
    kind := r.kind
    name
    number := number.text
    label := r.label.filter fun label => !Text.isBlank label
    tags := r.normalTags }

/-- The filters of a device listing; every one that is present must match. -/
structure DeviceQuery where
  kind : Option Kind
  tag : Option String
  number : Option String
deriving DecidableEq, Repr

/-- Disables every coil, or only the coil devices with a tag. -/
structure BulkDisableRequest where
  tag : Option String
deriving DecidableEq, Repr

end Playfield
