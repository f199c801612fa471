import Playfield.Board
import Playfield.Change
import Playfield.Light
import Playfield.Rule

/-! What the platform says about its work, as records for a log. -/
namespace Playfield

inductive Level where
  | trace
  | debug
  | info
  | warn
  | error
deriving DecidableEq, Repr

def Level.word : Level → String
  | .trace => "TRACE"
  | .debug => "DEBUG"
  | .info => "INFO"
  | .warn => "WARN"
  | .error => "ERROR"

inductive Notice where
  | platformReset (lights coils : Nat)
  | coilNotDisabled (coil : CoilNumber) (error : PlatformError)
  | ruleReplaced (key : RuleKey)
  | ruleConfigured (key : RuleKey)
  | ruleRemoved (key : RuleKey)
  | nothingToRemove (cause : Missing)
  | deviceReplaced (kind : Kind) (name number : String)
  | deviceRegistered (kind : Kind) (name number : String)
  | coilNotDisabledAfterPulse (coil : CoilNumber) (error : PlatformError)
  | coilDisabledAfterPulse (coil : CoilNumber)
  | holdUnsupported (coil : CoilNumber)
  | commandRejected (coil : CoilNumber)
  | fadeStarted (light : LightNumber) (target : Brightness) (fadeMs : UInt32)
  | reportDropped (cause : StaleReport)
  | stateRepeated (switch : SwitchNumber)
  | ruleNotFired (key : RuleKey) (error : PlatformError)
  | switchChanged (event : ChangeEvent)
  | subscriptionOpened
  | subscriptionClosed
  | clientSubscribed
  | subscriberLagged (missed : Nat)
  | streamShutDown (subscribers : Nat)
  | boardAvailability (online : Bool)
  | coilDriven (actuation : Actuation)
  | actuatorUnavailable (cause : Unavailable)
deriving DecidableEq, Repr

namespace Notice

def level : Notice → Level
  | .fadeStarted .. | .stateRepeated _ => .trace
  | .ruleReplaced _ | .nothingToRemove _ | .deviceReplaced .. | .coilDisabledAfterPulse _
  | .holdUnsupported _ | .commandRejected _ | .switchChanged _ | .subscriptionOpened
  | .subscriptionClosed | .clientSubscribed | .coilDriven _ => .debug
  | .platformReset .. | .ruleConfigured _ | .ruleRemoved _ | .deviceRegistered ..
  | .streamShutDown _ | .boardAvailability _ => .info
  | .reportDropped _ | .subscriberLagged _ | .actuatorUnavailable _ => .warn
  | .coilNotDisabled .. | .coilNotDisabledAfterPulse .. | .ruleNotFired .. => .error

def message : Notice → String
  | .platformReset .. => "platform reset"
  | .coilNotDisabled .. => "failed to disable coil"
  | .ruleReplaced _ => "replaced hardware rule"
  | .ruleConfigured _ => "configured hardware rule"
  | .ruleRemoved _ => "removed hardware rule"
  | .nothingToRemove _ => "nothing to remove"
  | .deviceReplaced .. => "replaced device"
  | .deviceRegistered .. => "registered device"
  | .coilNotDisabledAfterPulse .. => "failed to disable coil after pulse"
  | .coilDisabledAfterPulse _ => "disabled previously enabled coil after pulse"
  | .holdUnsupported _ => "actuator does not support hold power, it may be ignored"
  | .commandRejected _ => "rejecting command for busy coil"
  | .fadeStarted .. => "starting fade"
  | .reportDropped _ => "dropping stale switch report"
  | .stateRepeated _ => "repeated switch state ignored"
  | .ruleNotFired .. => "hardware rule failed to fire"
  | .switchChanged _ => "switch changed"
  | .subscriptionOpened => "switch change subscription opened"
  | .subscriptionClosed => "switch change subscription closed"
  | .clientSubscribed => "SSE client subscribed to switch changes"
  | .subscriberLagged _ => "switch change subscriber lagged"
  | .streamShutDown _ => "switch change stream shut down"
  | .boardAvailability _ => "virtual driver board availability changed"
  | .coilDriven _ => "virtual coil driven"
  | .actuatorUnavailable _ => "actuator unavailable"

/-- The named details of a notice, as texts. -/
def fields : Notice → List (String × String)
  | .platformReset lights coils => [("lights", toString lights), ("coils", toString coils)]
  | .coilNotDisabled coil error | .coilNotDisabledAfterPulse coil error =>
    [("coil", coil.text), ("error", error.summary)]
  | .ruleReplaced key | .ruleConfigured key | .ruleRemoved key => [("rule", key.text)]
  | .nothingToRemove cause => [("error", cause.message)]
  | .deviceReplaced kind name number | .deviceRegistered kind name number =>
    [("kind", kind.word), ("name", name), ("number", number)]
  | .coilDisabledAfterPulse coil | .holdUnsupported coil | .commandRejected coil =>
    [("coil", coil.text)]
  | .fadeStarted light target fadeMs =>
    [("light", light.text), ("target", Decimal.render .diagnostic target.value),
      ("fade_ms", toString fadeMs)]
  | .reportDropped cause =>
    [("switch", cause.switch.text), ("timestamp", toString cause.timestamp),
      ("last_accepted", toString cause.lastAccepted)]
  | .stateRepeated switch => [("switch", switch.text)]
  | .ruleNotFired key error => [("rule", key.text), ("error", error.summary)]
  | .switchChanged event =>
    [("switch", event.switch.text), ("is_active", toString event.isActive),
      ("sequence", toString event.sequence)]
  | .subscriptionOpened | .subscriptionClosed | .clientSubscribed => []
  | .subscriberLagged missed => [("missed", toString missed)]
  | .streamShutDown subscribers => [("subscribers", toString subscribers)]
  | .boardAvailability online => [("online", toString online)]
  | .coilDriven actuation => [("actuation", actuation.text)]
  | .actuatorUnavailable cause => [("error", cause.message)]

end Notice

inductive Cause where
  | command
  | rule (key : RuleKey)
deriving DecidableEq, Repr

/-- One entry of the journal, in which everything that happens is kept in order. -/
inductive Entry where
  /-- An actuation was sent to the board, which accepted or refused it. -/
  | attempted (cause : Cause) (actuation : Actuation) (fault : Option BoardFault)
  | published (event : ChangeEvent)
  | noted (notice : Notice)
deriving DecidableEq, Repr

abbrev Journal := List Entry

/-- The notice that an entry gives rise to. The board says nothing about what it refuses. -/
def Entry.notice? : Entry → Option Notice
  | .attempted _ actuation none => some (.coilDriven actuation)
  | .attempted _ _ (some _) => none
  | .published event => some (.switchChanged event)
  | .noted notice => some notice

end Playfield
