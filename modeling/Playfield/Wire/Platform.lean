import Playfield.Platform
import Playfield.Wire.Hardware

/-! The JSON forms of what a platform tells about itself, of its notices and of the changes that it
streams. -/
namespace Playfield

open Json (Codec Draft Fault Field Fields)

def Capabilities.codec : Codec Capabilities :=
  .record (.field (.required "hold_power" .bool) .done) (fun c => (c.holdPower, ()))
    (fun (holdPower, _) => { holdPower })

/-- Settings that are missing have their defaults. -/
def PlatformConfig.codec : Codec PlatformConfig :=
  .record
    (.field (.defaulting "name" .string PlatformConfig.default.name) <|
      .field (.defaulting "command_policy" CommandPolicy.codec PlatformConfig.default.policy) <|
      .field (.defaulting "stream_capacity" .nat64 PlatformConfig.default.streamCapacity) .done)
    (fun c => (c.name, c.policy, c.streamCapacity, ()))
    (fun (name, policy, streamCapacity, _) => { name, policy, streamCapacity })

/-- A board that is told nothing else can hold coils and drives every one. -/
def BoardConfig.codec : Codec BoardConfig :=
  .record
    (.field (.defaulting "hold_power" .bool true) <|
      .field (.defaulting "wired" (.list (Number.codec .coil)) []) .done)
    (fun c => (c.holdPower, c.wired.toList, ()))
    (fun (holdPower, wired, _) => { holdPower, wired := .ofList wired })

def PlatformDetails.codec : Codec PlatformDetails :=
  .record
    (.field (.required "name" .string) <|
      .field (.required "version" .string) <|
      .field (.required "started_at" Timestamp.codec) <|
      .field (.required "capabilities" Capabilities.codec) <|
      .field (.required "command_policy" CommandPolicy.codec) <|
      .field (.required "stream_capacity" .nat64) .done)
    (fun d => (d.name, d.version, d.startedAt, d.capabilities, d.policy, d.streamCapacity, ()))
    (fun (name, version, startedAt, capabilities, policy, streamCapacity, _) =>
      { name, version, startedAt, capabilities, policy, streamCapacity })

/-- A notice as a record of a log, in which all details are texts. -/
def Notice.json (n : Notice) : Json :=
  .object [("level", .string n.level.word), ("message", .string n.message),
    ("fields", .object (n.fields.map fun f => (f.1, .string f.2)))]

def ChangeEvent.codec : Codec ChangeEvent :=
  .record
    (.field (.required "sequence" .nat64) <|
      .field (.required "switch_number" (Number.codec .switch)) <|
      .field (.required "is_active" .bool) <|
      .field (.required "timestamp" .uint64) .done)
    (fun e => (e.sequence, e.switch, e.isActive, e.timestamp, ()))
    (fun (sequence, switch, isActive, timestamp, _) => { sequence, switch, isActive, timestamp })

namespace StreamItem

/-- The number of missed changes, alone in a record. -/
def gapCodec : Codec Nat :=
  .record (.field (.required "missed" .nat64) .done) (fun missed => (missed, ())) (fun (missed, _) => missed)

inductive Tag where
  | change
  | gap

def Tag.word : Tag → String
  | .change => "change"
  | .gap => "gap"

def decodeBody (d : Draft) : Tag → Except Fault StreamItem
  | .change => (ChangeEvent.codec.decode d).map .change
  | .gap => (gapCodec.decode d).map .gap

def tag? : Draft → Except Fault Tag
  | .string s => ([Tag.change, .gap].find? (·.word == s)).elim (.error .mismatch) .ok
  | d => .error (Codec.unexpected d)

def tagged (tag : Tag) : Json → Json
  | .object members => .object (("type", .string tag.word) :: members)
  | j => j

/-- An item is the record of its contents with the member `type`, or an array that starts with the
type. -/
def codec : Codec StreamItem where
  encode
    | .change event => tagged .change (ChangeEvent.codec.encode event)
    | .gap missed => tagged .gap (gapCodec.encode missed)
  decode
    | .object members closed =>
      match members.find? (·.1 == some "type") with
      | some (_, d) => do decodeBody (.object members closed) (← tag? d)
      | none => .error .mismatch
    | .array (d :: items) closed => do decodeBody (.array items closed) (← tag? d)
    | d => .error (Codec.unexpected d)

end StreamItem
end Playfield
