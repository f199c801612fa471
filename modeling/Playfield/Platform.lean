import Playfield.Clock
import Playfield.Coil.Bank
import Playfield.Device.Inventory
import Playfield.Light.Engine
import Playfield.Rule.Table
import Playfield.Stream
import Playfield.Switch.Registry
import Playfield.Timestamp

/-! The platform: every hardware component behind one set of operations. Here are its state and the
operations that need no lock. -/
namespace Playfield

structure PlatformConfig where
  name : String
  policy : CommandPolicy
  streamCapacity : Nat
deriving DecidableEq, Repr

def PlatformConfig.default : PlatformConfig := ⟨"pinhub", .queue, 256⟩

def platformVersion : String := "0.1.0"

structure PlatformDetails where
  name : String
  version : String
  startedAt : Timestamp
  capabilities : Capabilities
  policy : CommandPolicy
  /-- How many changes are kept for a subscriber before it misses some. -/
  streamCapacity : Nat
deriving DecidableEq, Repr

structure Platform where
  name : String
  startedAt : Timestamp
  panel : CoilPanel
  switches : SwitchRegistry
  rules : RuleTable
  devices : Inventory
  lights : LightEngine
  clock : Clock
  stream : ChangeStream

namespace Platform

/-- A platform at rest, which drives the board `board`. -/
def ofConfig (config : PlatformConfig) (board : Board) (clock : Clock) (startedAt : Timestamp) :
    Platform where
  name := config.name
  startedAt
  panel := ⟨.empty config.policy, board, []⟩
  switches := .empty
  rules := .empty
  devices := .empty
  lights := .empty
  clock
  stream := .ofCapacity config.streamCapacity

/-- The platform of `ofConfig`, if there can be a stream for it. -/
def ofConfig? (config : PlatformConfig) (board : Board) (clock : Clock) (startedAt : Timestamp) :
    Option Platform :=
  (ChangeStream.ofCapacity? config.streamCapacity).map fun stream =>
    { ofConfig config board clock startedAt with stream }

def details (p : Platform) : PlatformDetails where
  name := p.name
  version := platformVersion
  startedAt := p.startedAt
  capabilities := p.panel.board.config.capabilities
  policy := p.panel.bank.policy
  streamCapacity := p.stream.capacity

def note (p : Platform) (notice : Notice) : Platform := { p with panel := p.panel.note notice }

def setOnline (p : Platform) (online : Bool) : Platform :=
  { p with panel := { p.panel with board := p.panel.board.setOnline online } }
    |>.note (.boardAvailability online)

/-- Installs or replaces a rule. Its switch is known from then on. -/
def configureRule (p : Platform) (r : RuleRequest) : Except PlatformError (HardwareRule × Platform) := do
  let rule ← r.validate
  let (previous, rules) := p.rules.configure rule
  let p := { p with switches := p.switches.touch rule.switch, rules }
  return (rule, p.note (previous.elim (.ruleConfigured rule.key) fun old => .ruleReplaced old.key))

/-- Removes a rule; that there is none is no error. -/
def removeRule (p : Platform) (r : RuleRemovalRequest) : Except PlatformError Platform := do
  let key ← r.validate
  let (removed, rules) := p.rules.remove key
  let notice : Notice :=
    match removed with
    | .ok _ => .ruleRemoved key
    | .error missing => .nothingToRemove missing
  return { p with rules }.note notice

def startFades (p : Platform) (targets : List Lighting) (fadeMs : UInt32) : Platform :=
  let p := targets.foldl (fun p t => p.note (.fadeStarted t.1 t.2 fadeMs)) p
  { p with lights := p.lights.start targets fadeMs p.clock.now }

def fadeChannels (p : Platform) (r : FadeRequest) : Except PlatformError Platform := do
  let fade ← r.validate
  return p.startFades fade.targets fade.fadeMs

def fadeRgb (p : Platform) (r : RgbFadeRequest) : Except PlatformError Platform := do
  let fade ← r.validate
  return p.startFades (LightEngine.rgbTargets fade) fade.fadeMs

def fadeSingle (p : Platform) (r : SingleFadeRequest) : Except PlatformError Platform := do
  let fade ← r.validate
  return p.startFades [(fade.light, fade.target)] fade.fadeMs

def lightState (p : Platform) (number : String) : Except PlatformError (LightState × Platform) := do
  let light ← Check.number .light number
  let (state, lights) := p.lights.read light p.clock.now
  return (state, { p with lights })

/-- Declares a device in place of any other of its kind and name. The switch of a switch device is
known from then on. -/
def registerDevice (p : Platform) (r : DeviceRequest) : Except PlatformError (Device × Platform) := do
  let device ← r.validate
  let switches := (device.number? .switch).elim p.switches p.switches.touch
  let (previous, devices) := p.devices.register device
  let notice : Notice :=
    match previous with
    | some old => .deviceReplaced old.kind old.name old.number
    | none => .deviceRegistered device.kind device.name device.number
  return (device, { p with switches, devices }.note notice)

def device (p : Platform) (kind : Kind) (name : String) : Except PlatformError Device :=
  match p.devices.get? kind name with
  | some device => .ok device
  | none => .error (.notFound ⟨"Device", kind.word ++ "/" ++ name⟩)

/-- The coils that a bulk disable addresses: those of the coil devices with a tag, or without a tag
every coil that is known or has a device. -/
def disableTargets (p : Platform) (r : BulkDisableRequest) : List CoilNumber :=
  let numbers (devices : List Device) := devices.filterMap (·.number? .coil)
  let targets : Std.ExtTreeSet CoilNumber :=
    match r.tag with
    | some tag => .ofList (numbers (p.devices.tagged .coil tag))
    | none =>
      .ofList (p.panel.bank.known ++ numbers (p.devices.query ⟨some .coil, none, none⟩))
  targets.toList

def subscribe (p : Platform) : SubscriptionId × Platform :=
  let (id, stream) := p.stream.subscribe
  (id, { p with stream }.note .subscriptionOpened)

/-- What there is to say when a subscription was in one state and is now in another. -/
def noteSubscription (p : Platform) (id : SubscriptionId) (stream : ChangeStream) : Platform :=
  let listens (s : ChangeStream) := ((s.subscriptions[id]?).bind (·.place)).isSome
  let closes := listens p.stream && !listens stream
  let p := { p with stream }
  if closes then p.note .subscriptionClosed else p

def recv (p : Platform) (id : SubscriptionId) : Delivery × Platform :=
  let (delivery, stream) := p.stream.recv id
  let p := p.noteSubscription id stream
  match delivery with
  | .item (.gap missed) => (delivery, p.note (.subscriberLagged missed))
  | _ => (delivery, p)

def closeSubscription (p : Platform) (id : SubscriptionId) : Platform :=
  p.noteSubscription id (p.stream.close id)

/-- Forgets a subscription, without a word. -/
def dropSubscription (p : Platform) (id : SubscriptionId) : Platform :=
  { p with stream := p.stream.drop id }

/-- Closes every subscription; commands keep working. -/
def shutdown (p : Platform) : Platform :=
  let stream := p.stream.shutdown
  { p with stream }.note (.streamShutDown stream.subscriberCount)

end Platform
end Playfield
