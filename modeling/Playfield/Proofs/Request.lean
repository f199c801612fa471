import Playfield.Bounds
import Playfield.Proofs.Device.Inventory
import Playfield.Proofs.Wire.Scalar

/-! What a request must satisfy. Each kind of request has a list of demands, in the order in which they are
checked. A request is accepted if it meets them all, and is then carried over as it is; otherwise the error
is that of the first demand that it does not meet. -/
namespace Playfield

/-- What is demanded of a request, and the error if it is not met. -/
structure Demand where
  isMet : Bool
  error : PlatformError

namespace Demand

/-- A number of the hardware of a kind must not be blank. -/
def number (kind : Kind) (s : String) : Demand := ⟨!Text.isBlank s, .validation (.emptyNumber kind.word)⟩

/-- A duration must fit into 32 bits. -/
def duration (field : String) (value : Int) : Demand where
  isMet := decide (0 ≤ value ∧ value ≤ 4294967295)
  error := .range (if value < 0 then .negative field value else .tooLarge field value 4294967295)

/-- A timestamp must not be negative. -/
def timestamp (value : Int) : Demand := ⟨decide (0 ≤ value), .range (.negative "timestamp" value)⟩

/-- A power or brightness must be finite and from 0 to 1. -/
def fraction (field : String) (value : Float) : Demand where
  isMet := decide (value.isFinite = true ∧ 0.0 ≤ value ∧ value ≤ 1.0)
  error := .range (.unitInterval field value)

/-- Something must be left of the name of a device in its normal form. -/
def name (kind : Kind) (s : String) : Demand := ⟨decide (normalize s ≠ ""), .validation (.emptyName kind.word)⟩

/-- A light fade must list a channel. -/
def someTarget (targets : List FadeTarget) : Demand := ⟨decide (targets ≠ []), .validation .noFadeTargets⟩

end Demand

/-- A check is as the demands want it: what passes it meets all of them and is carried over, and what does not
is refused with the error of the first that is not met. -/
inductive Judged {α : Type} (demands : List Demand) (Carries : α → Prop) : Except PlatformError α → Prop
  | accepts {a} : (∀ d ∈ demands, d.isMet = true) → Carries a → Judged demands Carries (.ok a)
  | refuses {d} : demands.find? (!·.isMet) = some d → Judged demands Carries (.error d.error)

namespace Judged

variable {α β : Type} {ds ds' : List Demand} {d : Demand} {P : α → Prop} {Q : β → Prop}

theorem pure {a : α} (h : P a) : Judged [] P (Pure.pure a) := .accepts (by simp) h

theorem bind {check : Except PlatformError α} {f : α → Except PlatformError β} (h : Judged ds P check)
    (hf : ∀ a, P a → Judged ds' Q (f a)) : Judged (ds ++ ds') Q (check >>= f) := by
  cases h with
  | refuses hd => exact .refuses (by rw [List.find?_append, hd, Option.some_or])
  | @accepts a hmet ha =>
      -- Nothing is wrong with what is demanded first, so that the first fault is one of the others.
      have hnone : ds.find? (!·.isMet) = none := by simpa using hmet
      have hb := hf a ha
      change Judged (ds ++ ds') Q (f a)
      generalize f a = result at hb ⊢
      cases hb with
      | accepts hmet' hb =>
          refine .accepts (fun d hd => ?_) hb
          rcases List.mem_append.mp hd with hd | hd
          · exact hmet d hd
          · exact hmet' d hd
      | refuses hd => exact .refuses (by rw [List.find?_append, hnone, Option.none_or, hd])

/-- One check comes before the others. -/
theorem check {x : Except PlatformError α} {f : α → Except PlatformError β} (h : Judged [d] P x)
    (hf : ∀ a, P a → Judged ds Q (f a)) : Judged (d :: ds) Q (x >>= f) :=
  h.bind hf

theorem one_met {a : α} (hd : d.isMet = true) (h : P a) : Judged [d] P (.ok a) :=
  .accepts (by simpa using hd) h

theorem one_unmet (hd : d.isMet = false) : Judged [d] P (.error d.error) := .refuses (by simp [hd])

/-- A demand that gives nothing to carry over comes before the others. -/
theorem guard {x : Except PlatformError α} (hunmet : d.isMet = false → x = .error d.error)
    (hmet : d.isMet = true → Judged ds P x) : Judged (d :: ds) P x := by
  cases hd : d.isMet with
  | false =>
      rw [hunmet hd]
      exact .refuses (by simp [hd])
  | true =>
      have hchecked : Judged [d] (fun _ => True) (.ok ()) := one_met hd trivial
      exact hchecked.bind fun _ _ => hmet hd

theorem number (kind : Kind) (s : String) :
    Judged [.number kind s] (fun n : Number kind => n.text = s) (Check.number kind s) := by
  unfold Check.number Number.ofString?
  by_cases h : Text.isBlank s = false
  · rw [dif_pos h]
    exact one_met (by simp [Demand.number, h]) rfl
  · rw [dif_neg h]
    exact one_unmet (d := .number kind s) (by simpa [Demand.number] using h)

theorem duration (field : String) (value : Int) :
    Judged [.duration field value] (fun ms : UInt32 => (ms.toNat : Int) = value)
      (Check.duration field value) := by
  unfold Check.duration Check.maxDuration
  by_cases hneg : value < 0
  · have h := one_unmet (P := fun ms : UInt32 => (ms.toNat : Int) = value) (d := .duration field value)
      (by simp [Demand.duration]; omega)
    simpa only [Demand.duration, if_pos hneg] using h
  · rw [if_neg hneg]
    by_cases hbig : 4294967295 < value
    · have h := one_unmet (P := fun ms : UInt32 => (ms.toNat : Int) = value) (d := .duration field value)
        (by simp [Demand.duration]; omega)
      simpa only [Demand.duration, if_neg hneg, if_pos hbig] using h
    · rw [if_neg hbig]
      refine one_met (by simp [Demand.duration]; omega) ?_
      rw [UInt32.toNat_ofNat_of_lt' (by simp only [UInt32.size]; omega)]
      omega

/-- The moments of a request have 64 bits with a sign. -/
theorem timestamp (value : Int) : Judged [.timestamp value]
    (fun t : UInt64 => Bounds.isInt64 value = true → (t.toNat : Int) = value) (Check.timestamp value) := by
  unfold Check.timestamp
  by_cases h : value < 0
  · rw [if_pos h]
    exact one_unmet (d := .timestamp value) (by simpa [Demand.timestamp] using h)
  · rw [if_neg h]
    refine one_met (by simpa [Demand.timestamp] using h) fun hbits => ?_
    simp only [Bounds.isInt64, Bool.and_eq_true, decide_eq_true_eq] at hbits
    have hmax : value ≤ 9223372036854775807 := hbits.2
    rw [UInt64.toNat_ofNat_of_lt' (by simp only [UInt64.size]; omega)]
    omega

theorem fraction_met {value : Float} {field : String} (h : isUnit value = true) :
    (Demand.fraction field value).isMet = true :=
  decide_eq_true (isUnit_iff.mp h)

theorem fraction_unmet {value : Float} {field : String} (h : ¬isUnit value = true) :
    (Demand.fraction field value).isMet = false :=
  decide_eq_false (mt isUnit_iff.mpr h)

theorem power (field : String) (value : Float) :
    Judged [.fraction field value] (fun p : Power => p.value = value) (Check.power field value) := by
  unfold Check.power Power.ofFloat?
  by_cases h : isUnit value = true
  · rw [if_pos h]
    exact one_met (fraction_met h) rfl
  · rw [if_neg h]
    exact one_unmet (fraction_unmet h)

theorem brightness (field : String) (value : Float) :
    Judged [.fraction field value] (fun b : Brightness => b.value = value) (Check.brightness field value) := by
  unfold Check.brightness Brightness.ofFloat?
  by_cases h : isUnit value = true
  · rw [if_pos h]
    exact one_met (fraction_met h) rfl
  · rw [if_neg h]
    exact one_unmet (fraction_unmet h)

end Judged

namespace TransitionRequest

def demands (r : TransitionRequest) : List Demand := [.number .switch r.switch, .timestamp r.timestamp]

structure Carries (r : TransitionRequest) (t : Transition) : Prop where
  switch : t.switch.text = r.switch
  isActive : t.isActive = r.isActive
  timestamp : Bounds.isInt64 r.timestamp = true → (t.timestamp.toNat : Int) = r.timestamp

theorem judged (r : TransitionRequest) : Judged r.demands r.Carries r.validate :=
  .check (.number ..) fun _ hswitch => .check (.timestamp ..) fun _ htimestamp =>
    .pure ⟨hswitch, rfl, htimestamp⟩

end TransitionRequest

namespace PulseRequest

def demands (r : PulseRequest) : List Demand :=
  [.number .coil r.coil, .duration "pulse_ms" r.pulseMs, .fraction "pulse_power" r.pulsePower]

structure Carries (r : PulseRequest) (c : Pulse) : Prop where
  coil : c.coil.text = r.coil
  pulseMs : (c.pulseMs.toNat : Int) = r.pulseMs
  pulsePower : c.pulsePower.value = r.pulsePower

theorem judged (r : PulseRequest) : Judged r.demands r.Carries r.validate :=
  .check (.number ..) fun _ hcoil => .check (.duration ..) fun _ hms => .check (.power ..) fun _ hpower =>
    .pure ⟨hcoil, hms, hpower⟩

end PulseRequest

namespace EnableRequest

def demands (r : EnableRequest) : List Demand :=
  [.number .coil r.coil, .duration "pulse_ms" r.pulseMs, .fraction "pulse_power" r.pulsePower,
    .fraction "hold_power" r.holdPower]

structure Carries (r : EnableRequest) (c : Enable) : Prop where
  coil : c.coil.text = r.coil
  pulseMs : (c.pulseMs.toNat : Int) = r.pulseMs
  pulsePower : c.pulsePower.value = r.pulsePower
  holdPower : c.holdPower.value = r.holdPower

theorem judged (r : EnableRequest) : Judged r.demands r.Carries r.validate :=
  .check (.number ..) fun _ hcoil => .check (.duration ..) fun _ hms => .check (.power ..) fun _ hpower =>
    .check (.power ..) fun _ hhold => .pure ⟨hcoil, hms, hpower, hhold⟩

end EnableRequest

namespace DisableRequest

def demands (r : DisableRequest) : List Demand := [.number .coil r.coil]

def Carries (r : DisableRequest) (c : CoilNumber) : Prop := c.text = r.coil

theorem judged (r : DisableRequest) : Judged r.demands r.Carries r.validate := .number ..

end DisableRequest

namespace RuleRequest

def demands (r : RuleRequest) : List Demand :=
  [.number .switch r.switch, .number .coil r.coil, .duration "pulse_ms" r.pulseMs,
    .fraction "pulse_power" r.pulsePower, .fraction "hold_power" r.holdPower]

structure Carries (r : RuleRequest) (rule : HardwareRule) : Prop where
  switch : rule.switch.text = r.switch
  coil : rule.coil.text = r.coil
  pulseMs : (rule.pulseMs.toNat : Int) = r.pulseMs
  pulsePower : rule.pulsePower.value = r.pulsePower
  holdPower : rule.holdPower.value = r.holdPower

theorem judged (r : RuleRequest) : Judged r.demands r.Carries r.validate :=
  .check (.number ..) fun _ hswitch => .check (.number ..) fun _ hcoil => .check (.duration ..) fun _ hms =>
    .check (.power ..) fun _ hpower => .check (.power ..) fun _ hhold =>
      .pure ⟨hswitch, hcoil, hms, hpower, hhold⟩

end RuleRequest

namespace RuleRemovalRequest

def demands (r : RuleRemovalRequest) : List Demand := [.number .switch r.switch, .number .coil r.coil]

structure Carries (r : RuleRemovalRequest) (key : RuleKey) : Prop where
  switch : key.switch.text = r.switch
  coil : key.coil.text = r.coil

theorem judged (r : RuleRemovalRequest) : Judged r.demands r.Carries r.validate :=
  .check (.number ..) fun _ hswitch => .check (.number ..) fun _ hcoil => .pure ⟨hswitch, hcoil⟩

end RuleRemovalRequest

namespace FadeTarget

def demands (t : FadeTarget) : List Demand :=
  [.number .light t.light, .fraction "target_brightness" t.brightness]

/-- The checked targets have the lights and the brightnesses that were asked for, in the same order. -/
def Carry (targets : List FadeTarget) (checked : List (LightNumber × Brightness)) : Prop :=
  checked.map (fun x => (x.1.text, x.2.value)) = targets.map fun t => (t.light, t.brightness)

theorem judged (t : FadeTarget) : Judged t.demands (fun x => Carry [t] [x]) t.validate :=
  .check (.number ..) fun light hlight => .check (.brightness ..) fun brightness hbrightness =>
    .pure (by simp [Carry, hlight, hbrightness])

/-- The targets are checked one after the other, each as a whole. -/
theorem judged_validateAll (targets : List FadeTarget) :
    Judged (targets.flatMap demands) (Carry targets) (validateAll targets) := by
  induction targets with
  | nil => exact .pure rfl
  | cons t targets ih =>
      rw [List.flatMap_cons]
      refine t.judged.bind fun x hx => ?_
      rw [← List.append_nil (targets.flatMap demands)]
      refine ih.bind fun xs hxs => .pure ?_
      simp only [Carry, List.map_cons, List.map_nil, List.cons.injEq, and_true] at hx hxs ⊢
      exact ⟨hx, hxs⟩

end FadeTarget

namespace FadeRequest

def demands (r : FadeRequest) : List Demand :=
  .someTarget r.targets :: .duration "common_fade_ms" r.fadeMs :: r.targets.flatMap FadeTarget.demands

structure Carries (r : FadeRequest) (f : ChannelFade) : Prop where
  fadeMs : (f.fadeMs.toNat : Int) = r.fadeMs
  targets : FadeTarget.Carry r.targets f.targets

theorem judged (r : FadeRequest) : Judged r.demands r.Carries r.validate := by
  unfold validate demands
  refine .guard (fun h => ?_) fun h => ?_
  · have hnone : r.targets.isEmpty = true := by simpa [Demand.someTarget] using h
    rw [if_pos hnone]
    rfl
  · have hsome : ¬r.targets.isEmpty = true := by simpa [Demand.someTarget] using h
    rw [if_neg hsome, ← List.append_nil (r.targets.flatMap _)]
    exact .check (.duration ..) fun _ hms => (FadeTarget.judged_validateAll r.targets).bind fun _ htargets =>
      .pure ⟨hms, htargets⟩

end FadeRequest

namespace RgbFadeRequest

def demands (q : RgbFadeRequest) : List Demand :=
  [.number .light q.light, .fraction "r" q.r, .fraction "g" q.g, .fraction "b" q.b,
    .duration "fade_ms" q.fadeMs]

structure Carries (q : RgbFadeRequest) (f : RgbFade) : Prop where
  light : f.light.text = q.light
  r : f.r.value = q.r
  g : f.g.value = q.g
  b : f.b.value = q.b
  fadeMs : (f.fadeMs.toNat : Int) = q.fadeMs

theorem judged (q : RgbFadeRequest) : Judged q.demands q.Carries q.validate :=
  .check (.number ..) fun _ hlight => .check (.brightness ..) fun _ hr => .check (.brightness ..) fun _ hg =>
    .check (.brightness ..) fun _ hb => .check (.duration ..) fun _ hms => .pure ⟨hlight, hr, hg, hb, hms⟩

end RgbFadeRequest

namespace SingleFadeRequest

def demands (r : SingleFadeRequest) : List Demand :=
  [.number .light r.light, .fraction "target_brightness" r.brightness, .duration "fade_ms" r.fadeMs]

structure Carries (r : SingleFadeRequest) (f : SingleFade) : Prop where
  light : f.light.text = r.light
  target : f.target.value = r.brightness
  fadeMs : (f.fadeMs.toNat : Int) = r.fadeMs

theorem judged (r : SingleFadeRequest) : Judged r.demands r.Carries r.validate :=
  .check (.number ..) fun _ hlight => .check (.brightness ..) fun _ htarget =>
    .check (.duration ..) fun _ hms => .pure ⟨hlight, htarget, hms⟩

end SingleFadeRequest

namespace DeviceRequest

def demands (r : DeviceRequest) : List Demand := [.name r.kind r.name, .number r.kind r.number]

structure Carries (r : DeviceRequest) (d : Device) : Prop where
  kind : d.kind = r.kind
  name : d.name = normalize r.name
  number : d.number = r.number
  label : ∀ label, d.label = some label ↔ r.label = some label ∧ Text.isBlank label = false
  tags : ∀ tag, tag ∈ d.tags ↔ tag ≠ "" ∧ ∃ t ∈ r.tags, normalize t = tag

theorem judged (r : DeviceRequest) : Judged r.demands r.Carries r.validate := by
  unfold validate demands
  refine .guard (fun h => ?_) fun h => ?_
  · dsimp only
    rw [if_pos (by simpa [Demand.name] using h)]
    rfl
  · dsimp only
    rw [if_neg (by simpa [Demand.name] using h)]
    refine .check (.number ..) fun n hn => .pure ⟨rfl, rfl, hn, fun label => ?_, fun _ => mem_normalTags⟩
    rw [Option.filter_eq_some_iff, Bool.not_eq_true']

end DeviceRequest

/-- A check accepts exactly what meets all demands, carries it over, and otherwise names the first demand that
is not met. -/
structure Validates {α : Type} (demands : List Demand) (Carries : α → Prop) (result : Except PlatformError α) :
    Prop where
  accepts : (∃ a, result = .ok a) ↔ ∀ d ∈ demands, d.isMet = true
  carries : ∀ a, result = .ok a → Carries a
  refuses : ∀ e, result = .error e ↔ (demands.find? (!·.isMet)).map Demand.error = some e

theorem Judged.validates {α : Type} {demands : List Demand} {Carries : α → Prop}
    {result : Except PlatformError α} (h : Judged demands Carries result) :
    Validates demands Carries result := by
  cases h with
  | @accepts a hmet ha =>
      have hnone : demands.find? (!·.isMet) = none := by simpa using hmet
      refine ⟨⟨fun _ => hmet, fun _ => ⟨a, rfl⟩⟩, ?_, fun e => by simp [hnone]⟩
      rintro _ ⟨⟩
      exact ha
  | @refuses d hd =>
      have hunmet : d.isMet = false := by simpa using List.find?_some hd
      refine ⟨⟨fun ⟨_, h⟩ => (nomatch h), fun hmet => ?_⟩, nofun, fun e => by simp [hd]⟩
      exact absurd (hmet d (List.mem_of_find?_eq_some hd)) (by simp [hunmet])

/-- Requests of every kind are accepted exactly if they meet what is demanded of them. -/
theorem requests_validate :
    (∀ r : TransitionRequest, Validates r.demands r.Carries r.validate) ∧
    (∀ r : PulseRequest, Validates r.demands r.Carries r.validate) ∧
    (∀ r : EnableRequest, Validates r.demands r.Carries r.validate) ∧
    (∀ r : DisableRequest, Validates r.demands r.Carries r.validate) ∧
    (∀ r : RuleRequest, Validates r.demands r.Carries r.validate) ∧
    (∀ r : RuleRemovalRequest, Validates r.demands r.Carries r.validate) ∧
    (∀ r : FadeRequest, Validates r.demands r.Carries r.validate) ∧
    (∀ q : RgbFadeRequest, Validates q.demands q.Carries q.validate) ∧
    (∀ r : SingleFadeRequest, Validates r.demands r.Carries r.validate) ∧
    ∀ r : DeviceRequest, Validates r.demands r.Carries r.validate :=
  ⟨fun r => r.judged.validates, fun r => r.judged.validates, fun r => r.judged.validates,
    fun r => r.judged.validates, fun r => r.judged.validates, fun r => r.judged.validates,
    fun r => r.judged.validates, fun q => q.judged.validates, fun r => r.judged.validates,
    fun r => r.judged.validates⟩

/-- Of three faults, the first is named. -/
example : (⟨"L1", 0.5, 2.0, -1.0, -5⟩ : RgbFadeRequest).validate = .error (.range (.unitInterval "g" 2.0)) := by
  decide

end Playfield
