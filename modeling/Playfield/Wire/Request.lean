import Playfield.Wire.Scalar

/-! The JSON forms of requests. -/
namespace Playfield

open Json (Codec Field Fields)

def TransitionRequest.codec : Codec TransitionRequest :=
  .record
    (.field (.required "switch_number" .string) <|
      .field (.required "is_active" .bool) <|
      .field (.required "timestamp" .int64) .done)
    (fun r => (r.switch, r.isActive, r.timestamp, ()))
    (fun (switch, isActive, timestamp, _) => { switch, isActive, timestamp })

def PulseRequest.codec : Codec PulseRequest :=
  .record
    (.field (.required "coil_number" .string) <|
      .field (.required "pulse_ms" .int64) <|
      .field (.required "pulse_power" .float) .done)
    (fun r => (r.coil, r.pulseMs, r.pulsePower, ()))
    (fun (coil, pulseMs, pulsePower, _) => { coil, pulseMs, pulsePower })

def EnableRequest.codec : Codec EnableRequest :=
  .record
    (.field (.required "coil_number" .string) <|
      .field (.required "pulse_ms" .int64) <|
      .field (.required "pulse_power" .float) <|
      .field (.required "hold_power" .float) .done)
    (fun r => (r.coil, r.pulseMs, r.pulsePower, r.holdPower, ()))
    (fun (coil, pulseMs, pulsePower, holdPower, _) => { coil, pulseMs, pulsePower, holdPower })

def DisableRequest.codec : Codec DisableRequest :=
  .record (.field (.required "coil_number" .string) .done) (fun r => (r.coil, ()))
    (fun (coil, _) => { coil })

def RuleRequest.codec : Codec RuleRequest :=
  .record
    (.field (.required "coil_number" .string) <|
      .field (.required "switch_number" .string) <|
      .field (.required "pulse_ms" .int64) <|
      .field (.required "pulse_power" .float) <|
      .field (.required "hold_power" .float) .done)
    (fun r => (r.coil, r.switch, r.pulseMs, r.pulsePower, r.holdPower, ()))
    (fun (coil, switch, pulseMs, pulsePower, holdPower, _) =>
      { coil, switch, pulseMs, pulsePower, holdPower })

def RuleRemovalRequest.codec : Codec RuleRemovalRequest :=
  .record
    (.field (.required "coil_number" .string) <|
      .field (.required "switch_number" .string) .done)
    (fun r => (r.coil, r.switch, ()))
    (fun (coil, switch, _) => { coil, switch })

def FadeTarget.codec : Codec FadeTarget :=
  .record
    (.field (.required "light_number" .string) <|
      .field (.required "target_brightness" .float) .done)
    (fun t => (t.light, t.brightness, ()))
    (fun (light, brightness, _) => { light, brightness })

def FadeRequest.codec : Codec FadeRequest :=
  .record
    (.field (.required "common_fade_ms" .int64) <|
      .field (.required "fades" (.list FadeTarget.codec)) .done)
    (fun r => (r.fadeMs, r.targets, ()))
    (fun (fadeMs, targets, _) => { fadeMs, targets })

def RgbFadeRequest.codec : Codec RgbFadeRequest :=
  .record
    (.field (.required "light_number" .string) <|
      .field (.required "r" .float) <|
      .field (.required "g" .float) <|
      .field (.required "b" .float) <|
      .field (.required "fade_ms" .int64) .done)
    (fun q => (q.light, q.r, q.g, q.b, q.fadeMs, ()))
    (fun (light, r, g, b, fadeMs, _) => { light, r, g, b, fadeMs })

def SingleFadeRequest.codec : Codec SingleFadeRequest :=
  .record
    (.field (.required "light_number" .string) <|
      .field (.required "target_brightness" .float) <|
      .field (.required "fade_ms" .int64) .done)
    (fun r => (r.light, r.brightness, r.fadeMs, ()))
    (fun (light, brightness, fadeMs, _) => { light, brightness, fadeMs })

def DeviceRequest.codec : Codec DeviceRequest :=
  .record
    (.field (.required "kind" Kind.codec) <|
      .field (.required "name" .string) <|
      .field (.required "number" .string) <|
      .field (.defaulting "label" (.option .string) none) <|
      .field (.defaulting "tags" (.list .string) []) .done)
    (fun r => (r.kind, r.name, r.number, r.label, r.tags, ()))
    (fun (kind, name, number, label, tags, _) => { kind, name, number, label, tags })

def DeviceQuery.codec : Codec DeviceQuery :=
  .record
    (.field (.defaulting "kind" (.option Kind.codec) none) <|
      .field (.defaulting "tag" (.option .string) none) <|
      .field (.defaulting "number" (.option .string) none) .done)
    (fun q => (q.kind, q.tag, q.number, ()))
    (fun (kind, tag, number, _) => { kind, tag, number })

def BulkDisableRequest.codec : Codec BulkDisableRequest :=
  .record (.field (.defaulting "tag" (.option .string) none) .done) (fun r => (r.tag, ()))
    (fun (tag, _) => { tag })

/-- Whether a report changed its switch, alone in a record. -/
def changedCodec : Codec Bool :=
  .record (.field (.required "changed" .bool) .done) (fun changed => (changed, ()))
    (fun (changed, _) => changed)

end Playfield
