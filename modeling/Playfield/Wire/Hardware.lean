import Playfield.Light.Engine
import Playfield.Switch
import Playfield.Wire.Scalar

/-! The JSON forms of hardware: switches, coils and their drivers, rules, lights and devices. -/
namespace Playfield

open Json (Codec Field Fields)

def Switch.codec : Codec Switch :=
  .record
    (.field (.required "number" (Number.codec .switch)) <|
      .field (.required "is_active" .bool) <|
      .field (.optional "last_changed_at" .uint64) <|
      .field (.optional "last_reported_at" .uint64) .done)
    (fun s => (s.number, s.isActive, s.lastChangedAt, s.lastReportedAt, ()))
    (fun (number, isActive, lastChangedAt, lastReportedAt, _) =>
      { number, isActive, lastChangedAt, lastReportedAt })

def Coil.codec : Codec Coil :=
  .record
    (.field (.required "number" (Number.codec .coil)) <|
      .field (.required "enabled" .bool) <|
      .field (.required "pulse_ms" .uint32) <|
      .field (.required "pulse_power" Power.codec) <|
      .field (.required "hold_power" Power.codec) .done)
    (fun c => (c.number, c.enabled, c.pulseMs, c.pulsePower, c.holdPower, ()))
    (fun (number, enabled, pulseMs, pulsePower, holdPower, _) =>
      { number, enabled, pulseMs, pulsePower, holdPower })

def Actuation.codec : Codec Actuation :=
  .record
    (.field (.required "kind" ActuationKind.codec) <|
      .field (.required "coil" (Number.codec .coil)) <|
      .field (.required "pulse_ms" .uint32) <|
      .field (.required "pulse_power" Power.codec) <|
      .field (.required "hold_power" Power.codec) .done)
    (fun a => (a.kind, a.coil, a.pulseMs, a.pulsePower, a.holdPower, ()))
    (fun (kind, coil, pulseMs, pulsePower, holdPower, _) =>
      { kind, coil, pulseMs, pulsePower, holdPower })

/-- The output of a driver: a word, or the parameters under a word. -/
def DriverOutput.json : DriverOutput → Json
  | .off => .string "off"
  | .pulsed ms p => .object [("pulsed", .array [Codec.uint32.encode ms, Power.codec.encode p])]
  | .holding ms p hold =>
    .object [("holding", .array [Codec.uint32.encode ms, Power.codec.encode p, Power.codec.encode hold])]

def HardwareRule.codec : Codec HardwareRule :=
  .record
    (.field (.required "switch_number" (Number.codec .switch)) <|
      .field (.required "coil_number" (Number.codec .coil)) <|
      .field (.required "pulse_ms" .uint32) <|
      .field (.required "pulse_power" Power.codec) <|
      .field (.required "hold_power" Power.codec) .done)
    (fun r => (r.switch, r.coil, r.pulseMs, r.pulsePower, r.holdPower, ()))
    (fun (switch, coil, pulseMs, pulsePower, holdPower, _) =>
      { switch, coil, pulseMs, pulsePower, holdPower })

def RuleKey.codec : Codec RuleKey :=
  .record
    (.field (.required "switch_number" (Number.codec .switch)) <|
      .field (.required "coil_number" (Number.codec .coil)) .done)
    (fun k => (k.switch, k.coil, ()))
    (fun (switch, coil, _) => { switch, coil })

def Fade.codec : Codec Fade :=
  .record
    (.field (.required "start_brightness" Brightness.codec) <|
      .field (.required "target_brightness" Brightness.codec) <|
      .field (.required "start_time" .uint64) <|
      .field (.required "duration_ms" .uint32) .done)
    (fun f => (f.start, f.target, f.startTime, f.durationMs, ()))
    (fun (start, target, startTime, durationMs, _) => { start, target, startTime, durationMs })

def LightChannel.codec : Codec LightChannel :=
  .record
    (.field (.required "number" (Number.codec .light)) <|
      .field (.required "brightness" Brightness.codec) <|
      .field (.optional "fade" Fade.codec) .done)
    (fun c => (c.number, c.brightness, c.fade, ()))
    (fun (number, brightness, fade, _) => { number, brightness, fade })

def LightState.codec : Codec LightState :=
  .record
    (.field (.required "light_number" (Number.codec .light)) <|
      .field (.required "brightness" Brightness.codec) <|
      .field (.optional "fading_to" Brightness.codec) .done)
    (fun s => (s.light, s.brightness, s.fadingTo, ()))
    (fun (light, brightness, fadingTo, _) => { light, brightness, fadingTo })

/-- A label is written only if there is one. -/
def Device.codec : Codec Device :=
  .record
    (.field (.required "kind" Kind.codec) <|
      .field (.required "name" .string) <|
      .field (.required "number" .string) <|
      .field { Field.defaulting "label" (.option .string) none with written := Option.isSome } <|
      .field (.defaulting "tags" tagsCodec ∅) .done)
    (fun d => (d.kind, d.name, d.number, d.label, d.tags, ()))
    (fun (kind, name, number, label, tags, _) => { kind, name, number, label, tags })

end Playfield
