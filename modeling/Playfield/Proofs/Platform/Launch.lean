import Playfield.Proofs.Platform.Start

/-! What accepted settings come to. Settings are read from a file, overridden by the environment and checked;
the check looks at the capacity of the stream from below only, so that not all of them have a platform. -/
namespace Playfield

/-- What holds of the default and of all that can be read holds of a field that may be missing. -/
theorem Toml.of_defaulting {α : Type} {P : α → Prop} {field : Option Value} {read? : Value → Option α}
    {value a : α} (h : defaulting field read? value = some a) (hvalue : P value)
    (hread : ∀ v, read? v = some a → P a) : P a := by
  cases field with
  | none => exact Option.some.inj h ▸ hvalue
  | some v => exact hread v h

namespace Settings

theorem bind_eq (s : Settings) (address : String) :
    s.bind address = { s with host := (s.bind address).host, port := (s.bind address).port } := by
  unfold bind
  split <;> rfl

/-- The environment has no say in the platform and in what is declared. -/
theorem override_eq (s : Settings) (env : String → Option String) :
    ∃ host port filter, s.override env = { s with host, port, filter } := by
  unfold override
  cases env "PINHUB_BIND" with
  | none => exact ⟨_, _, _, rfl⟩
  | some address =>
    simp only [Option.map_some, Option.getD_some]
    rw [bind_eq]
    exact ⟨_, _, _, rfl⟩

/-- The capacity is a number that a file can hold. -/
def Moderate (s : Settings) : Prop := (s.platform.streamCapacity : Int) ≤ Bounds.greatestInt64

namespace Moderate

variable {s t : Settings} {v : Toml.Value}

theorem readServer (hs : s.Moderate) (h : s.readServer v = some t) : t.Moderate := by
  simp only [Settings.readServer, Option.bind_eq_bind, Option.bind_eq_some_iff] at h
  obtain ⟨field, -, host, -, port, -, h⟩ := h
  cases h
  exact hs

theorem readLogging (hs : s.Moderate) (h : s.readLogging v = some t) : t.Moderate := by
  simp only [Settings.readLogging, Option.bind_eq_bind, Option.bind_eq_some_iff] at h
  obtain ⟨field, -, filter, -, h⟩ := h
  cases h
  exact hs

theorem readPlatform (hs : s.Moderate) (h : s.readPlatform v = some t) : t.Moderate := by
  simp only [Settings.readPlatform, Option.bind_eq_bind, Option.bind_eq_some_iff] at h
  obtain ⟨field, -, name, -, policy, -, capacity, hcapacity, h⟩ := h
  cases h
  refine Toml.of_defaulting (P := fun n : Nat => (n : Int) ≤ Bounds.greatestInt64) hcapacity hs fun v hv => ?_
  obtain ⟨m, hm, rfl⟩ := Option.map_eq_some_iff.mp hv
  cases v with
  | integer k =>
    obtain ⟨⟨hlow, hhigh⟩, hkm⟩ := Option.ite_none_right_eq_some.mp hm
    rw [← Option.some.inj hkm, Int.toNat_of_nonneg hlow]
    exact hhigh
  | _ => cases hm

theorem readBoard (hs : s.Moderate) (h : s.readBoard v = some t) : t.Moderate := by
  simp only [Settings.readBoard, Option.bind_eq_bind, Option.bind_eq_some_iff] at h
  obtain ⟨field, -, holdPower, -, coils, -, h⟩ := h
  cases h
  exact hs

theorem default : default.Moderate := by
  unfold Moderate
  decide

theorem ofToml (h : Settings.ofToml v = some s) : s.Moderate := by
  simp only [Settings.ofToml, Option.bind_eq_bind, Option.bind_eq_some_iff] at h
  obtain ⟨field, -, s₁, h₁, s₂, h₂, s₃, h₃, s₄, h₄, devices, -, rules, -, h⟩ := h
  cases h
  have hserver : s₁.Moderate := Toml.of_defaulting h₁ .default fun _ => Moderate.default.readServer
  have hlogging : s₂.Moderate := Toml.of_defaulting h₂ hserver fun _ => hserver.readLogging
  have hplatform : s₃.Moderate := Toml.of_defaulting h₃ hlogging fun _ => hlogging.readPlatform
  have hboard : s₄.Moderate := Toml.of_defaulting h₄ hplatform fun _ => hplatform.readBoard
  exact hboard

theorem ofFile {file : SettingsFile} (h : Settings.ofFile file = .ok s) : s.Moderate := by
  cases file with
  | missing => exact Except.ok.inj h ▸ .default
  | unreadable => cases h
  | bytes bytes =>
    simp only [Settings.ofFile] at h
    split at h
    next => cases h
    next cs _ =>
      cases hread : (Toml.parse? (.ofList cs)).bind Settings.ofToml with
      | none =>
        rw [hread] at h
        cases h
      | some t =>
        rw [hread] at h
        obtain ⟨v, -, hv⟩ := Option.bind_eq_some_iff.mp hread
        exact Except.ok.inj h ▸ ofToml hv

theorem override (hs : s.Moderate) (env : String → Option String) : (s.override env).Moderate := by
  obtain ⟨host, port, filter, h⟩ := override_eq s env
  rw [h]
  exact hs

end Moderate

variable {s : Settings} {file : SettingsFile} {env : String → Option String}

theorem load_of_file {t : Settings} (h : ofFile file = .ok t) :
    load file env = (t.override env).fault?.elim (.ok (t.override env)) .error := by
  unfold load
  rw [h]
  cases hfault : (t.override env).fault? <;> simp only [Bind.bind, Except.bind, hfault, Option.elim]

/-- Settings are loaded if the file can be read and nothing is wrong with them once the environment has had
its say. -/
theorem load_eq_ok :
    load file env = .ok s ↔ ∃ t, ofFile file = .ok t ∧ t.override env = s ∧ s.fault? = none := by
  cases hfile : ofFile file with
  | error e =>
    rw [load, hfile]
    constructor
    · intro h
      cases h
    · rintro ⟨t, ht, -⟩
      cases ht
  | ok t =>
    rw [load_of_file hfile]
    constructor
    · intro h
      cases hfault : (t.override env).fault? with
      | some e =>
        rw [hfault] at h
        cases h
      | none =>
        rw [hfault] at h
        obtain rfl := Except.ok.inj h
        exact ⟨t, rfl, rfl, hfault⟩
    · rintro ⟨t', ht, rfl, hfault⟩
      cases ht
      rw [hfault]
      rfl

theorem capacity_ne_zero (h : s.fault? = none) : s.platform.streamCapacity ≠ 0 := by
  intro hzero
  rw [fault?, if_pos hzero] at h
  split at h <;> cases h

/-- Accepted settings ask for at least one change, and for no more than a file can say. -/
theorem capacity_of_load (h : load file env = .ok s) :
    0 < s.platform.streamCapacity ∧ s.platform.streamCapacity < 2 ^ 63 := by
  obtain ⟨t, hfile, rfl, hfault⟩ := load_eq_ok.mp h
  have hmoderate : (t.override env).Moderate := (Moderate.ofFile hfile).override env
  have hgreatest : Bounds.greatestInt64 = 2 ^ 63 - 1 := by decide
  rw [Moderate, hgreatest] at hmoderate
  have hne := capacity_ne_zero hfault
  omega

end Settings

namespace Platform

variable {p q : Platform}

theorem stream_registerDevice {r : DeviceRequest} {d : Device} (h : p.registerDevice r = .ok (d, q)) :
    q.stream = p.stream := by
  cases serves_registerDevice h
  rfl

theorem stream_configureRule {r : RuleRequest} {rule : HardwareRule}
    (h : p.configureRule r = .ok (rule, q)) : q.stream = p.stream := by
  cases serves_configureRule h
  rfl

/-- Devices and rules leave the stream as it was made. -/
theorem stream_furnish {s : Settings} (h : s.furnish p = .ok q) : q.stream = p.stream := by
  let R (p q : Platform) : Prop := q.stream = p.stream
  have hrefl (p : Platform) : R p p := rfl
  have htrans {p q r : Platform} (h : R p q) (h' : R q r) : R p r := h'.trans h
  refine of_bind h fun q hdevices hrules => ?_
  have hq := foldlM_relates hrefl htrans stream_registerDevice hdevices
  exact htrans hq (foldlM_relates hrefl htrans stream_configureRule hrules)

end Platform

namespace Settings

variable {s : Settings} {file : SettingsFile} {env : String → Option String}

/-- Any capacity but 0 passes the check. -/
theorem fault?_capacity (h : s.fault? = none) {capacity : Nat} (hcapacity : capacity ≠ 0) :
    ({ s with platform := { s.platform with streamCapacity := capacity } } : Settings).fault? = none := by
  rw [← h, fault?, fault?, if_neg hcapacity, if_neg (capacity_ne_zero h)]

/-- Accepted settings ask for a number of changes below 2^63, and with any other but 0 they would be accepted
too. The power of two that it is raised to is a number of 64 bits. Up to 2^62 there is a platform whose stream
keeps that many changes; beyond it this power is more than a channel can keep, and there is no platform. -/
theorem launches_up_to (h : load file env = .ok s) (clock : Clock) (startedAt : Timestamp) :
    let asked := s.platform.streamCapacity
    let kept := ChangeStream.powerAtLeast asked
    (0 < asked ∧ asked < 2 ^ 63) ∧
      (∀ capacity, 0 < capacity →
        ({ s with platform := { s.platform with streamCapacity := capacity } } : Settings).fault? = none) ∧
      IsLeast {k | asked ≤ k ∧ ∃ i, k = 2 ^ i} kept ∧ kept < Bounds.word64 ∧
      if asked ≤ 2 ^ 62 then
        kept ≤ Channel.maxCapacity ∧
          ∃ p, s.launch? clock startedAt = some (.ok p) ∧ p.stream = .ofCapacity asked ∧
            p.stream.capacity = kept
      else Channel.maxCapacity < kept ∧ s.launch? clock startedAt = none := by
  intro asked kept
  obtain ⟨t, -, -, hfault⟩ := load_eq_ok.mp h
  obtain ⟨hpos, hgreatest⟩ := capacity_of_load h
  have hword : kept ≤ 2 ^ 63 := ChangeStream.powerAtLeast_le_iff.mpr hgreatest.le
  refine ⟨⟨hpos, hgreatest⟩, fun capacity hcapacity => fault?_capacity hfault hcapacity.ne',
    ChangeStream.isLeast_powerAtLeast asked, hword.trans_lt (by decide), ?_⟩
  split
  next hasked =>
    obtain ⟨p, hp, -⟩ :=
      Platform.furnish_declares (accepted hfault) s.platform (.ofConfig s.board) clock startedAt
    have hstream : p.stream = .ofCapacity asked := Platform.stream_furnish hp
    refine ⟨ChangeStream.powerAtLeast_le_maxCapacity.mpr hasked, p, ?_, hstream, ?_⟩
    · rw [launch?_of_le hasked, hp]
    · rw [hstream]
      rfl
  next hasked =>
    exact ⟨Nat.not_le.mp (mt ChangeStream.powerAtLeast_le_maxCapacity.mp hasked),
      launch?_of_lt (Nat.not_le.mp hasked)⟩

/-- A file that asks for this capacity and for nothing else. -/
def capacityFile (capacity : Nat) : SettingsFile :=
  .bytes (Text.Utf8.encode ("[platform]\nstream_capacity = " ++ toString capacity ++ "\n").toList)

theorem loads_capacityFile (capacity : Nat)
    (h : (load (capacityFile capacity) fun _ => none).toOption.map (·.platform.streamCapacity) =
      some capacity) :
    ∃ s, load (capacityFile capacity) (fun _ => none) = .ok s ∧
      s.platform.streamCapacity = capacity := by
  cases hload : load (capacityFile capacity) fun _ => none with
  | error e =>
    rw [hload] at h
    cases h
  | ok s =>
    rw [hload] at h
    exact ⟨s, rfl, Option.some.inj h⟩

theorem launches_up_to_greatest :
    ∃ s, load (capacityFile 4611686018427387904) (fun _ => none) = .ok s ∧
      s.platform.streamCapacity = 4611686018427387904 ∧
      ∃ p, s.launch? ⟨0⟩ ⟨0, 0, 0⟩ = some (.ok p) ∧ p.stream.capacity = 4611686018427387904 := by
  obtain ⟨s, hload, hasked⟩ := loads_capacityFile 4611686018427387904 (by decide +kernel)
  obtain ⟨-, -, -, -, hlaunch⟩ := launches_up_to hload ⟨0⟩ ⟨0, 0, 0⟩
  rw [hasked, if_pos (by decide)] at hlaunch
  obtain ⟨-, p, hp, -, hkept⟩ := hlaunch
  exact ⟨s, hload, hasked, p, hp, hkept.trans (by decide)⟩

/-- A capacity of one more than 2^62 is accepted as well, but there is no channel for it. -/
theorem accepted_without_channel :
    ∃ s, load (capacityFile 4611686018427387905) (fun _ => none) = .ok s ∧
      s.platform.streamCapacity = 4611686018427387905 ∧
      Channel.maxCapacity < ChangeStream.powerAtLeast s.platform.streamCapacity ∧
      ChangeStream.ofCapacity? s.platform.streamCapacity = none ∧ s.launch? ⟨0⟩ ⟨0, 0, 0⟩ = none := by
  obtain ⟨s, hload, hasked⟩ := loads_capacityFile 4611686018427387905 (by decide +kernel)
  refine ⟨s, hload, hasked, ?_, ?_, launch?_of_lt (by rw [hasked]; decide)⟩
  · rw [hasked]
    decide
  · rw [hasked]
    rfl

end Settings
end Playfield
