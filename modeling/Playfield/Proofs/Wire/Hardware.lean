import Playfield.Proofs.Wire.Scalar
import Playfield.Wire.Platform

/-! The records of hardware and of its changes as documents: each is read back as it was written, and
whatever is read has numbers that are not blank, powers from 0 to 1 and counts in their words. -/
namespace Playfield

open Json (Codec Draft Field)
open Json.Codec (ReadsBack Yields)

namespace Switch

structure Sound (s : Switch) : Prop where
  number : s.number.Sound
  lastChangedAt : ∀ t, s.lastChangedAt = some t → t.toNat < Bounds.word64
  lastReportedAt : ∀ t, s.lastReportedAt = some t → t.toNat < Bounds.word64

theorem lawful : codec.Lawful Sound Sound := by
  refine .of_yields (fun s _ => ?_)
    (fun s _ => ⟨s.number.not_blank, fun t _ => t.toNat_lt, fun t _ => t.toNat_lt⟩)
  exact .record (by decide) rfl
    ⟨.required (.number _), .required (.bool _), .optional (.option ⟨_, rfl⟩ fun t _ => .uint64 t),
      .optional (.option ⟨_, rfl⟩ fun t _ => .uint64 t), trivial⟩

end Switch

namespace Coil

structure Sound (c : Coil) : Prop where
  number : c.number.Sound
  pulseMs : c.pulseMs.toNat < Bounds.word32
  pulsePower : c.pulsePower.Sound
  holdPower : c.holdPower.Sound

theorem lawful : codec.Lawful Sound Sound := by
  refine .of_yields (fun c hc => ?_) (fun c hc => ?_)
  · exact .record (by decide) rfl
      ⟨.required (.number _), .required (.bool _), .required (.uint32 _), .required (.power hc.pulsePower),
        .required (.power hc.holdPower), trivial⟩
  · obtain ⟨⟨number, enabled, pulseMs, pulse, hold, _⟩, ⟨_, _, _, hpulse, hhold, _⟩, rfl⟩ := hc.record
    exact ⟨number.not_blank, pulseMs.toNat_lt, hpulse.required.power, hhold.required.power⟩

end Coil

namespace Actuation

structure Sound (a : Actuation) : Prop where
  coil : a.coil.Sound
  pulseMs : a.pulseMs.toNat < Bounds.word32
  pulsePower : a.pulsePower.Sound
  holdPower : a.holdPower.Sound

theorem lawful : codec.Lawful Sound Sound := by
  refine .of_yields (fun a ha => ?_) (fun a ha => ?_)
  · exact .record (by decide) rfl
      ⟨.required (.actuationKind _), .required (.number _), .required (.uint32 _),
        .required (.power ha.pulsePower), .required (.power ha.holdPower), trivial⟩
  · obtain ⟨⟨kind, coil, pulseMs, pulse, hold, _⟩, ⟨_, _, _, hpulse, hhold, _⟩, rfl⟩ := ha.record
    exact ⟨coil.not_blank, pulseMs.toNat_lt, hpulse.required.power, hhold.required.power⟩

end Actuation

namespace HardwareRule

structure Sound (r : HardwareRule) : Prop where
  switch : r.switch.Sound
  coil : r.coil.Sound
  pulseMs : r.pulseMs.toNat < Bounds.word32
  pulsePower : r.pulsePower.Sound
  holdPower : r.holdPower.Sound

theorem lawful : codec.Lawful Sound Sound := by
  refine .of_yields (fun r hr => ?_) (fun r hr => ?_)
  · exact .record (by decide) rfl
      ⟨.required (.number _), .required (.number _), .required (.uint32 _),
        .required (.power hr.pulsePower), .required (.power hr.holdPower), trivial⟩
  · obtain ⟨⟨switch, coil, pulseMs, pulse, hold, _⟩, ⟨_, _, _, hpulse, hhold, _⟩, rfl⟩ := hr.record
    exact ⟨switch.not_blank, coil.not_blank, pulseMs.toNat_lt, hpulse.required.power,
      hhold.required.power⟩

end HardwareRule

namespace RuleKey

structure Sound (k : RuleKey) : Prop where
  switch : k.switch.Sound
  coil : k.coil.Sound

theorem lawful : codec.Lawful Sound Sound := by
  refine .of_yields (fun k _ => ?_) (fun k _ => ⟨k.switch.not_blank, k.coil.not_blank⟩)
  exact .record (by decide) rfl ⟨.required (.number _), .required (.number _), trivial⟩

end RuleKey

namespace Fade

structure Sound (f : Fade) : Prop where
  start : f.start.Sound
  target : f.target.Sound
  startTime : f.startTime.toNat < Bounds.word64
  durationMs : f.durationMs.toNat < Bounds.word32

theorem readsBack {f : Fade} (h : f.Sound) : codec.ReadsBack f :=
  .record (by decide) rfl
    ⟨.required (.brightness h.start), .required (.brightness h.target), .required (.uint64 _),
      .required (.uint32 _), trivial⟩

theorem sound_of_yields {f : Fade} (h : codec.Yields f) : f.Sound := by
  obtain ⟨⟨start, target, startTime, durationMs, _⟩, ⟨hstart, htarget, _⟩, rfl⟩ := h.record
  exact ⟨hstart.required.brightness, htarget.required.brightness, startTime.toNat_lt,
    durationMs.toNat_lt⟩

theorem lawful : codec.Lawful Sound Sound := .of_yields (fun _ => readsBack) (fun _ => sound_of_yields)

end Fade

namespace LightChannel

structure Sound (c : LightChannel) : Prop where
  number : c.number.Sound
  brightness : c.brightness.Sound
  fade : ∀ f, c.fade = some f → f.Sound

theorem lawful : codec.Lawful Sound Sound := by
  refine .of_yields (fun c hc => ?_) (fun c hc => ?_)
  · exact .record (by decide) rfl
      ⟨.required (.number _), .required (.brightness hc.brightness),
        .optional (.option ⟨_, rfl⟩ fun f hf => Fade.readsBack (hc.fade f hf)), trivial⟩
  · obtain ⟨⟨number, brightness, fade, _⟩, ⟨_, hbrightness, hfade, _⟩, rfl⟩ := hc.record
    exact ⟨number.not_blank, hbrightness.required.brightness,
      fun f hf => Fade.sound_of_yields (hfade.optional f hf)⟩

end LightChannel

namespace LightState

structure Sound (s : LightState) : Prop where
  light : s.light.Sound
  brightness : s.brightness.Sound
  fadingTo : ∀ b, s.fadingTo = some b → b.Sound

theorem lawful : codec.Lawful Sound Sound := by
  refine .of_yields (fun s hs => ?_) (fun s hs => ?_)
  · exact .record (by decide) rfl
      ⟨.required (.number _), .required (.brightness hs.brightness),
        .optional (.option ⟨_, rfl⟩ fun b hb => .brightness (hs.fadingTo b hb)), trivial⟩
  · obtain ⟨⟨light, brightness, fadingTo, _⟩, ⟨_, hbrightness, hfadingTo, _⟩, rfl⟩ := hs.record
    exact ⟨light.not_blank, hbrightness.required.brightness, fun b hb => (hfadingTo.optional b hb).brightness⟩

end LightState

/-- Any texts make a device, and a label that is not written is read as none. -/
theorem Device.lawful : codec.Lawful (fun _ => True) (fun _ => True) := by
  refine .of_yields (fun d _ => ?_) (fun _ _ => trivial)
  refine .record (by decide) rfl
    ⟨.required (.kind _), .required (.string _), .required (.string _),
      ⟨.option ⟨_, rfl⟩ fun s _ => .string s, ?_⟩, .defaulting (.tags _), trivial⟩
  intro hw
  exact congrArg some (Option.isSome_eq_false_iff.mp hw |> Option.isNone_iff_eq_none.mp).symm

theorem Capabilities.lawful : codec.Lawful (fun _ => True) (fun _ => True) :=
  .of_yields (fun _ _ => .record (by decide) rfl ⟨.required (.bool _), trivial⟩) (fun _ _ => trivial)

namespace ChangeEvent

structure Sound (e : ChangeEvent) : Prop where
  sequence : e.sequence < Bounds.word64
  switch : e.switch.Sound
  timestamp : e.timestamp.toNat < Bounds.word64

theorem readsBack {e : ChangeEvent} (h : e.Sound) : codec.ReadsBack e :=
  .record (by decide) rfl
    ⟨.required (.nat64 h.sequence), .required (.number _), .required (.bool _), .required (.uint64 _), trivial⟩

theorem sound_of_yields {e : ChangeEvent} (h : codec.Yields e) : e.Sound := by
  obtain ⟨⟨sequence, switch, isActive, timestamp, _⟩, ⟨hsequence, _⟩, rfl⟩ := h.record
  exact ⟨hsequence.required.nat64, switch.not_blank, timestamp.toNat_lt⟩

theorem lawful : codec.Lawful Sound Sound := .of_yields (fun _ => readsBack) (fun _ => sound_of_yields)

end ChangeEvent

namespace StreamItem

def Sound : StreamItem → Prop
  | .change e => e.Sound
  | .gap missed => missed < Bounds.word64

theorem readsBack_gap {missed : Nat} (h : missed < Bounds.word64) : gapCodec.ReadsBack missed :=
  .record (by decide) rfl ⟨.required (.nat64 h), trivial⟩

theorem lt_of_yields_gap {missed : Nat} (h : gapCodec.Yields missed) : missed < Bounds.word64 := by
  obtain ⟨⟨n, _⟩, ⟨hn, _⟩, rfl⟩ := h.record
  exact hn.required.nat64

/-- The type in front of a record says how the whole object is to be read. -/
theorem ofJson_tagged (tag : Tag) (members : List (String × Json)) :
    codec.ofJson (tagged tag (.object members)) =
      decodeBody (.object ((some "type", .string tag.word) :: Draft.ofMembers members) true) tag := by
  cases tag <;> rfl

/-- The record of an item does not mind the type in front of it. -/
theorem ofJson_change (e : ChangeEvent) :
    codec.ofJson (codec.encode (.change e)) =
      (ChangeEvent.codec.ofJson (ChangeEvent.codec.encode e)).map .change := by
  refine (ofJson_tagged .change _).trans ?_
  rw [decodeBody]
  exact congrArg (Except.map _) (Codec.record_decode_foreign "type" (.string Tag.change.word) (by decide) rfl)

theorem ofJson_gap (missed : Nat) :
    codec.ofJson (codec.encode (.gap missed)) = (gapCodec.ofJson (gapCodec.encode missed)).map .gap := by
  refine (ofJson_tagged .gap _).trans ?_
  rw [decodeBody]
  exact congrArg (Except.map _) (Codec.record_decode_foreign "type" (.string Tag.gap.word) (by decide) rfl)

theorem readsBack {item : StreamItem} (h : item.Sound) : codec.ReadsBack item := by
  cases item with
  | change e => exact (ofJson_change e).trans (congrArg (Except.map _) (ChangeEvent.readsBack h))
  | gap missed => exact (ofJson_gap missed).trans (congrArg (Except.map _) (readsBack_gap h))

theorem sound_of_decodeBody {d : Draft} {tag : Tag} {item : StreamItem}
    (h : decodeBody d tag = .ok item) : item.Sound := by
  cases tag with
  | change =>
    obtain ⟨e, he, rfl⟩ := Json.map_ok h
    exact ChangeEvent.sound_of_yields ⟨d, he⟩
  | gap =>
    obtain ⟨missed, hmissed, rfl⟩ := Json.map_ok h
    exact lt_of_yields_gap ⟨d, hmissed⟩

theorem sound_of_yields {item : StreamItem} (h : codec.Yields item) : item.Sound := by
  obtain ⟨d, h⟩ := h
  simp only [codec] at h
  split at h
  · split at h
    · obtain ⟨tag, _, h⟩ := Json.bind_ok h
      exact sound_of_decodeBody h
    · cases h
  · obtain ⟨tag, _, h⟩ := Json.bind_ok h
    exact sound_of_decodeBody h
  · cases h

theorem lawful : codec.Lawful Sound Sound := .of_yields (fun _ => readsBack) (fun _ => sound_of_yields)

end StreamItem
end Playfield
