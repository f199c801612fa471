import Playfield.Proofs.Wire.Hardware
import Playfield.Wire.Request

/-! Requests as documents, and the laws of all documents together. Requests hold raw texts and numbers:
a whole number that is read has 64 bits, and a double is read back if it is finite, since others have no
JSON form. -/
namespace Playfield

open Json (Codec)

namespace TransitionRequest

def Sound (r : TransitionRequest) : Prop := Bounds.isInt64 r.timestamp = true

theorem lawful : codec.Lawful Sound Sound := by
  refine .of_yields (fun r hr => ?_) (fun r hr => ?_)
  · exact .record (by decide) rfl ⟨.required (.string _), .required (.bool _), .required (.int64 hr), trivial⟩
  · obtain ⟨⟨switch, isActive, timestamp, _⟩, ⟨_, _, htimestamp, _⟩, rfl⟩ := hr.record
    exact htimestamp.required.int64

end TransitionRequest

namespace PulseRequest

def Sound (r : PulseRequest) : Prop := Bounds.isInt64 r.pulseMs = true

structure Fit (r : PulseRequest) : Prop where
  pulseMs : Bounds.isInt64 r.pulseMs = true
  pulsePower : r.pulsePower.isFinite = true

theorem lawful : codec.Lawful Fit Sound := by
  refine .of_yields (fun r hr => ?_) (fun r hr => ?_)
  · exact .record (by decide) rfl
      ⟨.required (.string _), .required (.int64 hr.pulseMs), .required (.float hr.pulsePower), trivial⟩
  · obtain ⟨⟨coil, pulseMs, power, _⟩, ⟨_, hms, _⟩, rfl⟩ := hr.record
    exact hms.required.int64

end PulseRequest

namespace EnableRequest

def Sound (r : EnableRequest) : Prop := Bounds.isInt64 r.pulseMs = true

structure Fit (r : EnableRequest) : Prop where
  pulseMs : Bounds.isInt64 r.pulseMs = true
  pulsePower : r.pulsePower.isFinite = true
  holdPower : r.holdPower.isFinite = true

theorem lawful : codec.Lawful Fit Sound := by
  refine .of_yields (fun r hr => ?_) (fun r hr => ?_)
  · exact .record (by decide) rfl
      ⟨.required (.string _), .required (.int64 hr.pulseMs), .required (.float hr.pulsePower),
        .required (.float hr.holdPower), trivial⟩
  · obtain ⟨⟨coil, pulseMs, pulse, hold, _⟩, ⟨_, hms, _⟩, rfl⟩ := hr.record
    exact hms.required.int64

end EnableRequest

theorem DisableRequest.lawful : codec.Lawful (fun _ => True) (fun _ => True) :=
  .of_yields (fun _ _ => .record (by decide) rfl ⟨.required (.string _), trivial⟩) (fun _ _ => trivial)

namespace RuleRequest

def Sound (r : RuleRequest) : Prop := Bounds.isInt64 r.pulseMs = true

structure Fit (r : RuleRequest) : Prop where
  pulseMs : Bounds.isInt64 r.pulseMs = true
  pulsePower : r.pulsePower.isFinite = true
  holdPower : r.holdPower.isFinite = true

theorem lawful : codec.Lawful Fit Sound := by
  refine .of_yields (fun r hr => ?_) (fun r hr => ?_)
  · exact .record (by decide) rfl
      ⟨.required (.string _), .required (.string _), .required (.int64 hr.pulseMs),
        .required (.float hr.pulsePower), .required (.float hr.holdPower), trivial⟩
  · obtain ⟨⟨coil, switch, pulseMs, pulse, hold, _⟩, ⟨_, _, hms, _⟩, rfl⟩ := hr.record
    exact hms.required.int64

end RuleRequest

theorem RuleRemovalRequest.lawful : codec.Lawful (fun _ => True) (fun _ => True) :=
  .of_yields (fun _ _ => .record (by decide) rfl ⟨.required (.string _), .required (.string _), trivial⟩)
    (fun _ _ => trivial)

namespace FadeTarget

def Fit (t : FadeTarget) : Prop := t.brightness.isFinite = true

theorem readsBack {t : FadeTarget} (h : t.Fit) : codec.ReadsBack t :=
  .record (by decide) rfl ⟨.required (.string _), .required (.float h), trivial⟩

theorem lawful : codec.Lawful Fit (fun _ => True) :=
  .of_yields (fun _ => readsBack) (fun _ _ => trivial)

end FadeTarget

namespace FadeRequest

def Sound (r : FadeRequest) : Prop := Bounds.isInt64 r.fadeMs = true

structure Fit (r : FadeRequest) : Prop where
  fadeMs : Bounds.isInt64 r.fadeMs = true
  targets : ∀ t ∈ r.targets, t.Fit

theorem lawful : codec.Lawful Fit Sound := by
  refine .of_yields (fun r hr => ?_) (fun r hr => ?_)
  · exact .record (by decide) rfl
      ⟨.required (.int64 hr.fadeMs), .required (.list fun t ht => FadeTarget.readsBack (hr.targets t ht)),
        trivial⟩
  · obtain ⟨⟨fadeMs, targets, _⟩, ⟨hms, _⟩, rfl⟩ := hr.record
    exact hms.required.int64

end FadeRequest

namespace RgbFadeRequest

def Sound (r : RgbFadeRequest) : Prop := Bounds.isInt64 r.fadeMs = true

structure Fit (q : RgbFadeRequest) : Prop where
  r : q.r.isFinite = true
  g : q.g.isFinite = true
  b : q.b.isFinite = true
  fadeMs : Bounds.isInt64 q.fadeMs = true

theorem lawful : codec.Lawful Fit Sound := by
  refine .of_yields (fun r hr => ?_) (fun r hr => ?_)
  · exact .record (by decide) rfl
      ⟨.required (.string _), .required (.float hr.r), .required (.float hr.g), .required (.float hr.b),
        .required (.int64 hr.fadeMs), trivial⟩
  · obtain ⟨⟨light, red, green, blue, fadeMs, _⟩, ⟨_, _, _, _, hms, _⟩, rfl⟩ := hr.record
    exact hms.required.int64

end RgbFadeRequest

namespace SingleFadeRequest

def Sound (r : SingleFadeRequest) : Prop := Bounds.isInt64 r.fadeMs = true

structure Fit (r : SingleFadeRequest) : Prop where
  brightness : r.brightness.isFinite = true
  fadeMs : Bounds.isInt64 r.fadeMs = true

theorem lawful : codec.Lawful Fit Sound := by
  refine .of_yields (fun r hr => ?_) (fun r hr => ?_)
  · exact .record (by decide) rfl
      ⟨.required (.string _), .required (.float hr.brightness), .required (.int64 hr.fadeMs), trivial⟩
  · obtain ⟨⟨light, brightness, fadeMs, _⟩, ⟨_, _, hms, _⟩, rfl⟩ := hr.record
    exact hms.required.int64

end SingleFadeRequest

theorem DeviceRequest.lawful : codec.Lawful (fun _ => True) (fun _ => True) :=
  .of_yields
    (fun _ _ => .record (by decide) rfl
      ⟨.required (.kind _), .required (.string _), .required (.string _),
        .defaulting (.option ⟨_, rfl⟩ fun s _ => .string s), .defaulting (.list fun s _ => .string s), trivial⟩)
    (fun _ _ => trivial)

theorem DeviceQuery.lawful : codec.Lawful (fun _ => True) (fun _ => True) :=
  .of_yields
    (fun _ _ => .record (by decide) rfl
      ⟨.defaulting (.option ⟨_, rfl⟩ fun k _ => .kind k), .defaulting (.option ⟨_, rfl⟩ fun s _ => .string s),
        .defaulting (.option ⟨_, rfl⟩ fun s _ => .string s), trivial⟩)
    (fun _ _ => trivial)

theorem BulkDisableRequest.lawful : codec.Lawful (fun _ => True) (fun _ => True) :=
  .of_yields
    (fun _ _ => .record (by decide) rfl ⟨.defaulting (.option ⟨_, rfl⟩ fun s _ => .string s), trivial⟩)
    (fun _ _ => trivial)

/-- Everything that is reported, and every request, is read back from its document as it was; and no
document at all is read as something that breaks a bound. -/
theorem documents_are_lawful :
    (Switch.codec.Lawful Switch.Sound Switch.Sound ∧
      Coil.codec.Lawful Coil.Sound Coil.Sound ∧
      Actuation.codec.Lawful Actuation.Sound Actuation.Sound ∧
      HardwareRule.codec.Lawful HardwareRule.Sound HardwareRule.Sound ∧
      RuleKey.codec.Lawful RuleKey.Sound RuleKey.Sound ∧
      Fade.codec.Lawful Fade.Sound Fade.Sound ∧
      LightChannel.codec.Lawful LightChannel.Sound LightChannel.Sound ∧
      LightState.codec.Lawful LightState.Sound LightState.Sound ∧
      ChangeEvent.codec.Lawful ChangeEvent.Sound ChangeEvent.Sound ∧
      StreamItem.codec.Lawful StreamItem.Sound StreamItem.Sound ∧
      Device.codec.Lawful (fun _ => True) (fun _ => True) ∧
      Capabilities.codec.Lawful (fun _ => True) (fun _ => True)) ∧
    TransitionRequest.codec.Lawful TransitionRequest.Sound TransitionRequest.Sound ∧
      PulseRequest.codec.Lawful PulseRequest.Fit PulseRequest.Sound ∧
      EnableRequest.codec.Lawful EnableRequest.Fit EnableRequest.Sound ∧
      DisableRequest.codec.Lawful (fun _ => True) (fun _ => True) ∧
      RuleRequest.codec.Lawful RuleRequest.Fit RuleRequest.Sound ∧
      RuleRemovalRequest.codec.Lawful (fun _ => True) (fun _ => True) ∧
      FadeTarget.codec.Lawful FadeTarget.Fit (fun _ => True) ∧
      FadeRequest.codec.Lawful FadeRequest.Fit FadeRequest.Sound ∧
      RgbFadeRequest.codec.Lawful RgbFadeRequest.Fit RgbFadeRequest.Sound ∧
      SingleFadeRequest.codec.Lawful SingleFadeRequest.Fit SingleFadeRequest.Sound ∧
      DeviceRequest.codec.Lawful (fun _ => True) (fun _ => True) ∧
      DeviceQuery.codec.Lawful (fun _ => True) (fun _ => True) ∧
      BulkDisableRequest.codec.Lawful (fun _ => True) (fun _ => True) :=
  ⟨⟨Switch.lawful, Coil.lawful, Actuation.lawful, HardwareRule.lawful, RuleKey.lawful, Fade.lawful,
      LightChannel.lawful, LightState.lawful, ChangeEvent.lawful, StreamItem.lawful, Device.lawful,
      Capabilities.lawful⟩,
    TransitionRequest.lawful, PulseRequest.lawful, EnableRequest.lawful, DisableRequest.lawful,
    RuleRequest.lawful, RuleRemovalRequest.lawful, FadeTarget.lawful, FadeRequest.lawful,
    RgbFadeRequest.lawful, SingleFadeRequest.lawful, DeviceRequest.lawful, DeviceQuery.lawful,
    BulkDisableRequest.lawful⟩

/-- A light at negative zero and a device without label and tags are read back, and what an array of
items is read as is sound. -/
theorem documents_are_lawful_bare :
    let light : LightNumber := ⟨"L1", by decide⟩
    let dark : LightState := ⟨light, ⟨-0.0⟩, none⟩
    let device : Device := ⟨.coil, "", "", none, ∅⟩
    LightState.codec.ofJson (LightState.codec.encode dark) = .ok dark ∧
      Device.codec.ofJson (Device.codec.encode device) = .ok device ∧
      LightState.codec.ofJson (.array [.string "L1", .real 0.5, .null]) = .ok ⟨light, ⟨0.5⟩, none⟩ ∧
      LightState.Sound ⟨light, ⟨0.5⟩, none⟩ := by
  intro light dark device
  obtain ⟨⟨_, _, _, _, _, _, _, hstate, _, _, hdevice, _⟩, _⟩ := documents_are_lawful
  have hdark : dark.Sound := ⟨light.not_blank, isUnit_iff.mp (by decide), nofun⟩
  have hread : LightState.codec.ofJson (.array [.string "L1", .real 0.5, .null]) =
      .ok ⟨light, ⟨0.5⟩, none⟩ := rfl
  exact ⟨hstate.reads_back dark hdark, hdevice.reads_back device trivial, hread,
    hstate.reads_sound _ _ hread⟩

end Playfield
