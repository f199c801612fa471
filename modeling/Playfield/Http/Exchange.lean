import Playfield.Http.Media
import Playfield.Http.Route
import Playfield.Platform.Workings
import Playfield.Wire.Platform
import Playfield.Wire.Request

/-! HTTP exchanges: how a request becomes a call, and how the outcome becomes a response. -/
namespace Playfield

def PlatformError.status : PlatformError → Nat
  | .stale _ | .busy _ => 409
  | .notFound _ => 404
  | .range _ | .validation _ => 400
  | .unavailable _ => 503

def PlatformError.body (e : PlatformError) : Json := .object [("error", .string e.message)]

def Answer.json : Answer → Json
  | .done => .null
  | .details d => PlatformDetails.codec.encode d
  | .changed b => changedCodec.encode b
  | .switch s => Switch.codec.encode s
  | .switches all => (Json.Codec.list Switch.codec).encode all
  | .coil c => Coil.codec.encode c
  | .coils all => (Json.Codec.list Coil.codec).encode all
  | .rule r => HardwareRule.codec.encode r
  | .rules all => (Json.Codec.list HardwareRule.codec).encode all
  | .light s => LightState.codec.encode s
  | .device d => Device.codec.encode d
  | .devices all => (Json.Codec.list Device.codec).encode all

namespace Http

inductive Action where
  | respond (response : Response)
  /-- It is a call, whose answer is sent if `tells`. -/
  | call (call : Call) (tells : Bool)
  | subscribe

def refuse (status : Nat) : Action := .respond (.ofContent status .explanation)

def largestBody : Nat := 2097152

/-- The call of a route that takes a JSON body. A body that is not JSON, or does not fit, is refused. -/
def bodyCall {α : Type} (codec : Json.Codec α) (r : Request) (tells : Bool) (call : α → Call) : Action :=
  if !r.contentType.any Media.isJson then refuse 415
  else if r.body.utf8ByteSize > largestBody then refuse 413
  else
    match codec.ofText r.body with
    | .ok a => .call (call a) tells
    | .error .malformed => refuse 400
    | .error .mismatch => refuse 422

def pathCall (segment : List Char) (call : String → Call) : Action :=
  match Percent.segment? segment with
  | some s => .call (call s) true
  | none => refuse 400

def deviceCall (kind name : List Char) : Action :=
  match Percent.segment? kind, Percent.segment? name with
  | some kind, some name =>
    match Kind.all.find? (·.word = kind) with
    | some kind => .call (.device kind name) true
    | none => refuse 400
  | _, _ => refuse 400

def Route.action (route : Route) (r : Request) (query : List Char) : Action :=
  match route with
  | .health => .respond (.ofContent 200 (.text "OK"))
  | .platform => .call .details true
  | .reset => .call .reset false
  | .switches => .call .switches true
  | .changes => .subscribe
  | .transitions => bodyCall TransitionRequest.codec r true .report
  | .switch number => pathCall number .switchState
  | .pulse => bodyCall PulseRequest.codec r false .pulse
  | .enable => bodyCall EnableRequest.codec r false .enable
  | .disable => bodyCall DisableRequest.codec r false .disable
  | .disableAll => bodyCall BulkDisableRequest.codec r true .disableCoils
  | .coil number => pathCall number .coilState
  | .fade => bodyCall FadeRequest.codec r false .fadeChannels
  | .rgb => bodyCall RgbFadeRequest.codec r false .fadeRgb
  | .single => bodyCall SingleFadeRequest.codec r false .fadeSingle
  | .light number => pathCall number .lightState
  | .rules =>
    if r.method = .post then bodyCall RuleRequest.codec r false .configureRule
    else .call .rules true
  | .removeRule => bodyCall RuleRemovalRequest.codec r false .removeRule
  | .devices =>
    if r.method = .post then bodyCall DeviceRequest.codec r true .registerDevice
    else
      match deviceQuery? query with
      | some q => .call (.devices q) true
      | none => refuse 400
  | .device kind name => deviceCall kind name

/-- What a request asks for. A fragment after the target plays no part. -/
def Request.action (r : Request) : Action :=
  let (target, _) := cutAt '#' (ofTarget r.target.toList)
  let (path, query) := cutAt '?' target
  match Route.ofPath? path with
  | none => .respond (.ofContent 404 .none)
  | some route =>
    if route.allows r.method then route.action r (query.getD [])
    else .respond (.ofContent 405 .none)

def respond (tells : Bool) : Outcome → Response
  | .ok answer => if tells then .ofContent 200 (.json answer.json) else .ofContent 204 .none
  | .error e => .ofContent e.status (.json e.body)

inductive Exchange where
  | start (request : Request)
  /-- Waits for the outcome of its call. -/
  | calling (method : Method) (task : Task) (tells : Bool)

namespace Exchange

/-- Leaves the content out where the method wants none. -/
def trim (method : Method) (response : Response) : Response :=
  if method = .head then response.withoutContent else response

/-- Opens a subscription whose events are the content. Nobody listens to a content that is left out. -/
def subscribe (method : Method) (p : Platform) : Response × Platform :=
  let (id, p) := p.subscribe
  let p := p.note .clientSubscribed
  (trim method (.ofContent 200 (.events id)), if method = .head then p.dropSubscription id else p)

def noteOutcome (p : Platform) : Outcome → Platform
  | .error (.unavailable cause) => p.note (.actuatorUnavailable cause)
  | _ => p

def step (me : TaskId) (now : Nat) (exchange : Exchange) (p : Platform) :
    Progress Exchange Response × Platform :=
  match exchange with
  | .start r =>
    match r.action with
    | .respond response => (.finished (trim r.method response), p)
    | .call call tells => (.next (.calling r.method (.start call) tells), p)
    | .subscribe =>
      let (response, p) := subscribe r.method p
      (.finished response, p)
  | .calling method task tells =>
    match task.step me now p with
    | (.blocked, p) => (.blocked, p)
    | (.next task, p) => (.next (.calling method task tells), p)
    | (.finished outcome, p) => (.finished (trim method (respond tells outcome)), noteOutcome p outcome)

def abandon (me : TaskId) (exchange : Exchange) (p : Platform) : Platform :=
  match exchange with
  | .start _ => p
  | .calling _ task _ => task.abandon me p

def pause (exchange : Exchange) (p : Platform) : Pause :=
  match exchange with
  | .start _ => .none
  | .calling _ task _ => task.pause p

def deadline? : Exchange → Option Nat
  | .start _ => none
  | .calling _ task _ => task.deadline?

end Exchange
end Http
end Playfield
