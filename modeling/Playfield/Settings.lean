import Playfield.Platform
import Playfield.Text.Utf8
import Playfield.Toml.Decode
import Playfield.Toml.Document

/-! Settings: what a server is started with. They come from a file, over which variables of the
environment have precedence; every setting has a default. -/
namespace Playfield

structure Settings where
  host : String
  port : UInt16
  /-- Which notices are logged. -/
  filter : String
  platform : PlatformConfig
  board : BoardConfig
  devices : List DeviceRequest
  rules : List RuleRequest

inductive SettingsError where
  /-- The file exists but cannot be read. -/
  | unreadable
  /-- The file is not TOML, or a setting has the wrong type. -/
  | malformed
  | zeroPort
  | zeroCapacity
  | device (index : Nat) (cause : PlatformError)
  | rule (index : Nat) (cause : PlatformError)
deriving DecidableEq, Repr

def SettingsError.message : SettingsError → String
  | .unreadable => "failed to read config file"
  | .malformed => "failed to parse config file"
  | .zeroPort => "invalid configuration: port must be non-zero"
  | .zeroCapacity => "invalid configuration: stream_capacity must be non-zero"
  | .device index _ => "invalid device at index " ++ toString index
  | .rule index _ => "invalid hardware rule at index " ++ toString index

inductive SettingsFile where
  | missing
  | unreadable
  | bytes (bytes : List UInt8)

namespace Settings

def default : Settings where
  host := "0.0.0.0"
  port := 5051
  filter := "pinhubd=info,pinhub=info,tower_http=debug"
  platform := .default
  board := .default
  devices := []
  rules := []

def address (s : Settings) : String := s.host ++ ":" ++ toString s.port

/-! The sections of the file -/

open Toml (required defaulting)

def readServer (s : Settings) (v : Toml.Value) : Option Settings := do
  let field ← v.fields? ["host", "port"]
  let host ← defaulting (field "host") (·.string?) s.host
  let port ← defaulting (field "port") (fun v => (v.integer? 0 (Bounds.word16 - 1)).map fun n => .ofNat n.toNat) s.port
  return { s with host, port }

def readLogging (s : Settings) (v : Toml.Value) : Option Settings := do
  let field ← v.fields? ["filter"]
  let filter ← defaulting (field "filter") (·.string?) s.filter
  return { s with filter }

def readPlatform (s : Settings) (v : Toml.Value) : Option Settings := do
  let field ← v.fields? ["name", "command_policy", "stream_capacity"]
  let name ← defaulting (field "name") (·.string?) s.platform.name
  let policy ←
    defaulting (field "command_policy") (·.named? CommandPolicy.word CommandPolicy.all) s.platform.policy
  let streamCapacity ←
    defaulting (field "stream_capacity") (fun v => (v.integer? 0 Bounds.greatestInt64).map Int.toNat)
      s.platform.streamCapacity
  return { s with platform := { name, policy, streamCapacity } }

def readCoilNumber (v : Toml.Value) : Option CoilNumber := v.string?.bind (Number.ofString? .coil)

def readBoard (s : Settings) (v : Toml.Value) : Option Settings := do
  let field ← v.fields? ["hold_power", "coils"]
  let holdPower ← defaulting (field "hold_power") (·.boolean?) s.board.holdPower
  let coils ← defaulting (field "coils") (·.list? readCoilNumber) []
  return { s with board := { holdPower, wired := .ofList coils } }

def readDevice (v : Toml.Value) : Option DeviceRequest := do
  let field ← v.fields? ["kind", "name", "number", "label", "tags"]
  let kind ← required (field "kind") (·.named? Kind.word Kind.all)
  let name ← required (field "name") (·.string?)
  let number ← required (field "number") (·.string?)
  let label ← defaulting (field "label") (·.string?.map some) none
  let tags ← defaulting (field "tags") (·.list? (·.string?)) []
  return { kind, name, number, label, tags }

def readRule (v : Toml.Value) : Option RuleRequest := do
  let field ← v.fields? ["switch_number", "coil_number", "pulse_ms", "pulse_power", "hold_power"]
  let switch ← required (field "switch_number") (·.string?)
  let coil ← required (field "coil_number") (·.string?)
  let pulseMs ← required (field "pulse_ms") (·.integer? Bounds.leastInt64 Bounds.greatestInt64)
  let pulsePower ← required (field "pulse_power") (·.float?)
  let holdPower ← defaulting (field "hold_power") (·.float?) 0.0
  return { switch, coil, pulseMs, pulsePower, holdPower }

/-- The settings that a document gives. Sections and settings that it lacks have their defaults, and
unknown ones are ignored. -/
def ofToml (v : Toml.Value) : Option Settings := do
  let field ← v.fields? []
  let part (name : String) (read : Settings → Toml.Value → Option Settings) (s : Settings) :=
    defaulting (field name) (read s) s
  let s ← part "server" readServer default
  let s ← part "logging" readLogging s
  let s ← part "platform" readPlatform s
  let s ← part "virtual" readBoard s
  let devices ← defaulting (field "devices") (·.list? readDevice) []
  let rules ← defaulting (field "rules") (·.list? readRule) []
  return { s with devices, rules }

def ofFile : SettingsFile → Except SettingsError Settings
  | .missing => .ok default
  | .unreadable => .error .unreadable
  | .bytes bytes =>
    match Text.Utf8.decode? bytes with
    | none => .error .unreadable
    | some cs => ((Toml.parse? (.ofList cs)).bind ofToml).elim (.error .malformed) .ok

/-! The environment -/

/-- The port that a text spells: digits, perhaps after a plus sign, with a value of 16 bits. -/
def port? (cs : List Char) : Option UInt16 :=
  let ds :=
    match cs with
    | '+' :: rest => rest
    | cs => cs
  if !ds.isEmpty && ds.all fun c => '0' ≤ c && c ≤ '9' then
    let n := ds.foldl (fun v c => 10 * v + (c.toNat - 48)) 0
    if n < Bounds.word16 then some (.ofNat n) else none
  else none

/-- The parts of a text before and after its last colon. -/
def splitLastColon? (cs : List Char) : Option (List Char × List Char) :=
  let after := (cs.reverse.takeWhile (· ≠ ':')).reverse
  if after.length < cs.length then some (cs.take (cs.length - after.length - 1), after) else none

/-- Puts a host and a port in place of the present ones. A port that is none is ignored. -/
def bind (s : Settings) (address : String) : Settings :=
  match splitLastColon? address.toList with
  | some (host, port) => { s with host := .ofList host, port := (port? port).getD s.port }
  | none => s

/-- Lets the variables of the environment override the settings, the last one first. -/
def override (s : Settings) (env : String → Option String) : Settings :=
  let s := { s with host := (env "PINHUB_HOST").getD s.host }
  let s := { s with port := ((env "PINHUB_PORT").bind (port? ·.toList)).getD s.port }
  let s := ((env "PINHUB_BIND").map s.bind).getD s
  { s with filter := ((env "RUST_LOG").or (env "PINHUB_LOG")).getD s.filter }

/-! Checks -/

/-- The first item that fails its check, with its place. -/
def firstFailure {α β : Type} (check : α → Except PlatformError β) : Nat → List α → Option (Nat × PlatformError)
  | _, [] => none
  | index, a :: rest =>
    match check a with
    | .error e => some (index, e)
    | .ok _ => firstFailure check (index + 1) rest

def fault? (s : Settings) : Option SettingsError :=
  if s.port = 0 then some .zeroPort
  else if s.platform.streamCapacity = 0 then some .zeroCapacity
  else
    ((firstFailure DeviceRequest.validate 0 s.devices).map fun f => SettingsError.device f.1 f.2).or
      ((firstFailure RuleRequest.validate 0 s.rules).map fun f => SettingsError.rule f.1 f.2)

def load (file : SettingsFile) (env : String → Option String) : Except SettingsError Settings := do
  let s := (← ofFile file).override env
  match s.fault? with
  | some e => .error e
  | none => .ok s

/-- Declares the devices and then the rules of the settings, one after another. -/
def furnish (s : Settings) (p : Platform) : Except PlatformError Platform := do
  let p ← s.devices.foldlM (fun p r => return (← p.registerDevice r).2) p
  s.rules.foldlM (fun p r => return (← p.configureRule r).2) p

/-- What the start comes to: the platform that the settings describe, furnished by them. Settings that ask for
a stream that there cannot be have none. -/
def launch? (s : Settings) (clock : Clock) (startedAt : Timestamp) :
    Option (Except PlatformError Platform) :=
  (Platform.ofConfig? s.platform (.ofConfig s.board) clock startedAt).map s.furnish

end Settings
end Playfield
