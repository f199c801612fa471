import Playfield.Proofs.Last
import Playfield.Proofs.Platform.Devices
import Playfield.Proofs.Platform.Progress
import Playfield.Proofs.Rule.Flat
import Playfield.Proofs.Stream.Capacity

/-! The start of a platform. The entries of the settings are checked before the start and once more as they are
declared, one after another, and a later entry takes the place of an earlier one. Settings without a fault
start if there can be a stream of the capacity that they ask for, and each place is held by the last entry for
it. -/
namespace Playfield

/-- The check fails on the item at the place `i`, and on none before it. -/
structure FailsFirst {α β : Type} (check : α → Except PlatformError β) (l : List α) (i : Nat)
    (cause : PlatformError) : Prop where
  fails : ∃ a, l[i]? = some a ∧ check a = .error cause
  passes : ∀ j a, j < i → l[j]? = some a → ∃ b, check a = .ok b

namespace Settings

section FirstFailure

variable {α β : Type} {check : α → Except PlatformError β} {l : List α} {index i : Nat}
  {cause : PlatformError}

theorem firstFailure_eq_none (h : firstFailure check index l = none) : ∀ a ∈ l, ∃ b, check a = .ok b := by
  induction l generalizing index with
  | nil => simp
  | cons a l ih =>
    cases ha : check a with
    | error e => simp [firstFailure, ha] at h
    | ok b =>
      simp only [firstFailure, ha] at h
      exact List.forall_mem_cons.mpr ⟨⟨b, ha⟩, ih h⟩

theorem firstFailure_eq_some (h : firstFailure check index l = some (i, cause)) :
    ∃ j, i = index + j ∧ FailsFirst check l j cause := by
  induction l generalizing index with
  | nil => cases h
  | cons a l ih =>
    cases ha : check a with
    | error e =>
      simp only [firstFailure, ha, Option.some.injEq, Prod.mk.injEq] at h
      obtain ⟨rfl, rfl⟩ := h
      exact ⟨0, rfl, ⟨a, rfl, ha⟩, fun j b hj => absurd hj (Nat.not_lt_zero j)⟩
    | ok b =>
      simp only [firstFailure, ha] at h
      obtain ⟨j, rfl, hfails, hpasses⟩ := ih h
      refine ⟨j + 1, by omega, hfails, fun k c hk hc => ?_⟩
      cases k with
      | zero =>
        cases hc
        exact ⟨b, ha⟩
      | succ k => exact hpasses k c (Nat.lt_of_succ_lt_succ hk) hc

end FirstFailure

variable {s : Settings} {clock : Clock} {startedAt : Timestamp}

theorem launch?_of_le (h : s.platform.streamCapacity ≤ 2 ^ 62) : s.launch? clock startedAt =
    some (s.furnish (.ofConfig s.platform (.ofConfig s.board) clock startedAt)) := by
  rw [launch?, Platform.ofConfig?, ChangeStream.ofCapacity?_eq, if_pos h]
  rfl

theorem launch?_of_lt (h : 2 ^ 62 < s.platform.streamCapacity) : s.launch? clock startedAt = none := by
  rw [launch?, Platform.ofConfig?, ChangeStream.ofCapacity?_eq, if_neg (Nat.not_le.mpr h)]
  rfl

/-- Every entry passes its check. -/
structure Accepted (s : Settings) : Prop where
  devices : ∀ r ∈ s.devices, ∃ d, r.validate = .ok d
  rules : ∀ r ∈ s.rules, ∃ rule, r.validate = .ok rule

theorem accepted (h : s.fault? = none) : s.Accepted := by
  unfold fault? at h
  split at h
  · cases h
  · split at h
    · cases h
    · simp only [Option.or_eq_none_iff, Option.map_eq_none_iff] at h
      exact ⟨firstFailure_eq_none h.1, firstFailure_eq_none h.2⟩

/-- The fault of settings with a port and a capacity: the first entry that fails its check, the devices
coming before the rules. -/
def FirstFault (s : Settings) (e : SettingsError) : Prop :=
  (∃ i cause, e = .device i cause ∧ FailsFirst DeviceRequest.validate s.devices i cause) ∨
    (∀ r ∈ s.devices, ∃ d, r.validate = .ok d) ∧
      ∃ i cause, e = .rule i cause ∧ FailsFirst RuleRequest.validate s.rules i cause

theorem firstFault {e : SettingsError} (h : s.fault? = some e) (hp : s.port ≠ 0)
    (hc : s.platform.streamCapacity ≠ 0) : s.FirstFault e := by
  rw [fault?, if_neg hp, if_neg hc] at h
  cases hd : firstFailure DeviceRequest.validate 0 s.devices with
  | some f =>
    rw [hd] at h
    cases h
    obtain ⟨i, hi, hfirst⟩ := firstFailure_eq_some hd
    exact .inl ⟨f.1, f.2, rfl, by rwa [hi, Nat.zero_add]⟩
  | none =>
    rw [hd, Option.map_none, Option.none_or, Option.map_eq_some_iff] at h
    obtain ⟨f, hf, rfl⟩ := h
    obtain ⟨i, hi, hfirst⟩ := firstFailure_eq_some hf
    exact .inr ⟨firstFailure_eq_none hd, f.1, f.2, rfl, by rwa [hi, Nat.zero_add]⟩

end Settings

def DeviceRequest.place (r : DeviceRequest) : Kind × String := (r.kind, normalize r.name)

def RuleRequest.place (r : RuleRequest) : String × String := (r.switch, r.coil)

theorem DeviceRequest.validate_eq {r : DeviceRequest} {d : Device} (h : r.validate = .ok d) :
    (d.kind, d.name) = r.place ∧ d.number = r.number := by
  unfold validate at h
  dsimp only at h
  split at h
  · cases h
  · refine Platform.of_bind h fun n hn h => ?_
    cases h
    exact ⟨rfl, Platform.text_of_check hn⟩

theorem RuleRequest.validate_eq {r : RuleRequest} {rule : HardwareRule} (h : r.validate = .ok rule) :
    (rule.switch.text, rule.coil.text) = r.place := by
  refine Platform.of_bind h fun switch hswitch h => ?_
  refine Platform.of_bind h fun coil hcoil h => ?_
  refine Platform.of_bind h fun ms _ h => ?_
  refine Platform.of_bind h fun pulse _ h => ?_
  refine Platform.of_bind h fun hold _ h => ?_
  cases h
  exact Prod.ext (Platform.text_of_check hswitch) (Platform.text_of_check hcoil)

namespace Platform

/-- What a platform holds when these devices and rules have been declared. -/
structure Declared (devices : List DeviceRequest) (rules : List RuleRequest) (p : Platform) : Prop where
  device : ∀ d, p.devices.Holds d.kind d.name d ↔
    ∃ r, IsLast DeviceRequest.place devices r ∧ r.validate = .ok d
  rule : ∀ rule, p.rules.get? rule.key = some rule ↔
    ∃ r, IsLast RuleRequest.place rules r ∧ r.validate = .ok rule
  keyed : p.rules.Keyed
  switch : ∀ n, n ∈ p.switches.slots ↔
    (∃ r ∈ devices, r.kind = .switch ∧ r.number = n.text) ∨ ∃ r ∈ rules, r.switch = n.text

namespace Declared

variable {devices : List DeviceRequest} {rules : List RuleRequest} {p q : Platform}

theorem ofConfig (config : PlatformConfig) (board : Board) (clock : Clock) (startedAt : Timestamp) :
    Declared [] [] (.ofConfig config board clock startedAt) where
  device d := by simp [Platform.ofConfig, Inventory.Holds, Inventory.ofKind, Inventory.empty, IsLast]
  rule r := by simp [Platform.ofConfig, RuleTable.get?, RuleTable.ofSwitch, RuleTable.empty, IsLast]
  keyed := RuleTable.keyed_empty
  switch n := by simp [Platform.ofConfig, SwitchRegistry.empty]

theorem registerDevice (h : Declared devices rules p) {r : DeviceRequest} {d : Device}
    (hr : p.registerDevice r = .ok (d, q)) : Declared (devices ++ [r]) rules q := by
  obtain ⟨hv, hs, hd, hrules⟩ : r.validate = .ok d ∧
      q.switches = (d.number? .switch).elim p.switches p.switches.touch ∧
      q.devices = (p.devices.register d).2 ∧ q.rules = p.rules := by
    cases serves_registerDevice hr with
    | declares hv => exact ⟨hv, rfl, rfl, rfl⟩
  obtain ⟨hplace, hnumber⟩ := DeviceRequest.validate_eq hv
  refine ⟨?_, fun rule => hrules ▸ h.rule rule, hrules ▸ h.keyed, fun n => ?_⟩
  · refine IsLast.write (fun a b hb => (DeviceRequest.validate_eq hb).1) h.device hv (fun e he => ?_)
      (fun e he => ?_)
    · rw [hd, Inventory.holds_register, if_pos (Prod.mk.inj he)]
    · rw [hd, Inventory.holds_register, if_neg fun hsame => he (Prod.ext hsame.1 hsame.2)]
  · have hnew : d.number? .switch = some n ↔ r.kind = .switch ∧ r.number = n.text := by
      have hkind : d.kind = r.kind := congrArg Prod.fst hplace
      rw [Device.number?_eq_some, hnumber, eq_comm (a := n.text), hkind]
    have hslots : n ∈ q.switches.slots ↔ d.number? .switch = some n ∨ n ∈ p.switches.slots := by
      rw [hs]
      cases d.number? .switch with
      | none => simp
      | some m => simp
    simp only [hslots, hnew, h.switch n, List.mem_append, List.mem_singleton, or_and_right, exists_or,
      exists_eq_left]
    rw [← or_assoc, or_comm (a := r.kind = .switch ∧ r.number = n.text)]

theorem configureRule (h : Declared devices rules p) {r : RuleRequest} {rule : HardwareRule}
    (hr : p.configureRule r = .ok (rule, q)) : Declared devices (rules ++ [r]) q := by
  obtain ⟨hv, hs, hd, hrules⟩ : r.validate = .ok rule ∧ q.switches = p.switches.touch rule.switch ∧
      q.devices = p.devices ∧ q.rules = (p.rules.configure rule).2 := by
    cases serves_configureRule hr with
    | configures hv => exact ⟨hv, rfl, rfl, rfl⟩
  have hswitch : rule.switch.text = r.switch := congrArg Prod.fst (RuleRequest.validate_eq hv)
  refine ⟨fun d => hd ▸ h.device d, ?_, hrules ▸ h.keyed.configure, fun n => ?_⟩
  · have hkey (old : HardwareRule) :
        (rule.switch.text, rule.coil.text) = (old.switch.text, old.coil.text) ↔ rule.key = old.key := by
      rw [Prod.mk.injEq, HardwareRule.key, HardwareRule.key, RuleKey.mk.injEq]
      exact and_congr ⟨Number.text_inj, congrArg _⟩ ⟨Number.text_inj, congrArg _⟩
    refine IsLast.write (fun a b hb => RuleRequest.validate_eq hb) h.rule hv (fun old he => ?_)
      (fun old he => ?_)
    · rw [hrules, RuleTable.get?_configure, if_pos ((hkey old).mp he), Option.some_inj, eq_comm]
    · rw [hrules, RuleTable.get?_configure, if_neg (mt (hkey old).mpr he)]
  · have hnew : rule.switch = n ↔ r.switch = n.text := by
      rw [← hswitch]
      exact ⟨congrArg _, Number.text_inj⟩
    rw [hs, SwitchRegistry.mem_touch, hnew, h.switch n]
    simp only [List.mem_append, List.mem_singleton, or_and_right, exists_or, exists_eq_left]
    rw [or_comm, or_assoc]

end Declared

/-- Where each entry can be declared, all of them can, one after another. -/
theorem foldlM_declare {α β : Type} {f : Platform → α → Except PlatformError (β × Platform)}
    {P : List α → Platform → Prop} {l : List α}
    (hdeclare : ∀ done p a, P done p → a ∈ l → ∃ b q, f p a = .ok (b, q) ∧ P (done ++ [a]) q)
    {done : List α} {p : Platform} (hp : P done p) :
    ∃ q, l.foldlM (fun p a => return (← f p a).2) p = .ok q ∧ P (done ++ l) q := by
  induction l generalizing done p with
  | nil => exact ⟨p, rfl, by rwa [List.append_nil]⟩
  | cons a l ih =>
    obtain ⟨b, q, hq, hpq⟩ := hdeclare done p a hp List.mem_cons_self
    obtain ⟨r, hr, hpr⟩ := ih (fun done p a hp ha => hdeclare done p a hp (List.mem_cons_of_mem _ ha)) hpq
    refine ⟨r, ?_, by rwa [List.append_cons]⟩
    rw [List.foldlM_cons, hq]
    exact hr

theorem exists_registerDevice {r : DeviceRequest} {d : Device} (h : r.validate = .ok d) (p : Platform) :
    ∃ q, p.registerDevice r = .ok (d, q) := by
  rw [registerDevice, h]
  exact ⟨_, rfl⟩

theorem exists_configureRule {r : RuleRequest} {rule : HardwareRule} (h : r.validate = .ok rule)
    (p : Platform) : ∃ q, p.configureRule r = .ok (rule, q) := by
  rw [configureRule, h]
  exact ⟨_, rfl⟩

/-- Entries that pass their checks are all declared on a platform at rest. -/
theorem furnish_declares {s : Settings} (h : s.Accepted) (config : PlatformConfig) (board : Board)
    (clock : Clock) (startedAt : Timestamp) :
    ∃ p, s.furnish (.ofConfig config board clock startedAt) = .ok p ∧ Declared s.devices s.rules p := by
  have hrest := Declared.ofConfig config board clock startedAt
  obtain ⟨p, hp, hdevices⟩ := foldlM_declare (f := registerDevice) (P := fun done => Declared done [])
    (fun done p r hp hr => by
      obtain ⟨d, hd⟩ := h.devices r hr
      obtain ⟨q, hq⟩ := exists_registerDevice hd p
      exact ⟨d, q, hq, hp.registerDevice hq⟩) hrest
  obtain ⟨q, hq, hrules⟩ := foldlM_declare (f := configureRule) (P := Declared ([] ++ s.devices))
    (fun done p r hp hr => by
      obtain ⟨rule, hrule⟩ := h.rules r hr
      obtain ⟨q, hq⟩ := exists_configureRule hrule p
      exact ⟨rule, q, hq, hp.configureRule hq⟩) hdevices
  refine ⟨q, ?_, hrules⟩
  rw [Settings.furnish, hp]
  exact hq

/-- In a run in which nothing but the switches is asked for, the switches that are known stay the same. -/
theorem Idle.mem_known_iff {p : Platform} (hp : p.Idle) {events before : List (Event Call Outside)}
    (hcalls : calls events = [.switches]) (hbefore : ∃ after, events = before ++ after) (n : SwitchNumber) :
    n ∈ (scene.run (.ofState p) before).state.switches.known ↔ n ∈ p.switches.slots := by
  rw [SwitchRegistry.mem_known]
  constructor
  · intro hn
    by_contra hnot
    obtain ⟨first, id, call, hbegan, hswitch⟩ := (switch_known_iff hp before hnot).mp hn
    obtain ⟨after, rfl⟩ := hbefore
    have hc := Scene.getElem?_calls_append hbegan.call after
    rw [hcalls] at hc
    obtain rfl : call = .switches := List.mem_singleton.mp (List.mem_of_getElem? hc)
    cases hswitch
  · intro hn
    have hstart : n ∈ (scene.run (.ofState p) []).state.switches.slots := hn
    exact Scene.run_mono (hp.brings_switch · n) before hstart

/-- What the settings have put on a platform. -/
structure FurnishedBy (p : Platform) (s : Settings) : Prop where
  /-- For a kind and a name, in whatever case, there is the last device entry for them and no other. -/
  device : ∀ kind name d, p.device kind name = .ok d ↔
    ∃ r, IsLast DeviceRequest.place s.devices r ∧ r.place = (kind, normalize name) ∧ r.validate = .ok d
  /-- Just the devices of the last entries are listed, each once. -/
  devices : ∀ d, d ∈ p.devices.query ⟨none, none, none⟩ ↔
    ∃ r, IsLast DeviceRequest.place s.devices r ∧ r.validate = .ok d
  single : p.devices.toList.Pairwise fun d e => d.kind ≠ e.kind ∨ d.name ≠ e.name
  /-- For a switch and a coil there is the last rule entry for them and no other. -/
  rule : ∀ key rule, p.rules.get? key = some rule ↔
    ∃ r, IsLast RuleRequest.place s.rules r ∧ r.place = (key.switch.text, key.coil.text) ∧
      r.validate = .ok rule
  /-- Just the rules of the last entries are listed, in the order of their keys. -/
  rules : ∀ rule, rule ∈ p.rules.toList ↔ ∃ r, IsLast RuleRequest.place s.rules r ∧ r.validate = .ok rule
  ordered : p.rules.toList.Pairwise fun r r' => compare r.key r'.key = .lt
  /-- Who asks for the switches next is answered, -/
  answered : ∃ events, calls events = [.switches] ∧
    ∃ r, (scene.run (.ofState p) events).results[(0 : TaskId)]? = some r
  /-- and gets just those that a switch device or a rule names, be it overwritten or not. -/
  switches : ∀ events r, calls events = [.switches] →
    (scene.run (.ofState p) events).results[(0 : TaskId)]? = some r →
    ∃ found, r = .ok (.switches found) ∧ (found.map (·.number)).Pairwise (fun a b => compare a b = .lt) ∧
      ∀ n, n ∈ found.map (·.number) ↔
        (∃ r ∈ s.devices, r.kind = .switch ∧ r.number = n.text) ∨ ∃ r ∈ s.rules, r.switch = n.text

theorem device_eq_ok {p : Platform} {kind : Kind} {name : String} {d : Device} :
    p.device kind name = .ok d ↔ p.devices.Holds kind (normalize name) d := by
  unfold device Inventory.Holds
  rw [Inventory.get?]
  cases (p.devices.ofKind kind)[normalize name]? with
  | none => simp
  | some e => simp

theorem Declared.furnished {s : Settings} {p : Platform} (h : Declared s.devices s.rules p)
    (hp : p.Idle) (hs : p.Stocked) : p.FurnishedBy s where
  device := by
    intro kind name d
    rw [device_eq_ok]
    constructor
    · intro hd
      have hk := hs.proper.kind _ _ _ hd
      have hn := hs.proper.name _ _ _ hd
      obtain ⟨r, hlast, hr⟩ := (h.device d).mp (by rwa [hk, hn])
      exact ⟨r, hlast, by rw [← (DeviceRequest.validate_eq hr).1, hk, hn], hr⟩
    · rintro ⟨r, hlast, hplace, hr⟩
      obtain ⟨rfl, hn⟩ := Prod.mk.inj ((DeviceRequest.validate_eq hr).1.trans hplace)
      exact hn ▸ (h.device d).mpr ⟨r, hlast, hr⟩
  devices := by
    intro d
    rw [hs.proper.mem_query, ← h.device d]
    simp
  single := hs.proper.pairwise_toList
  rule := by
    intro key rule
    constructor
    · intro hr
      obtain rfl := h.keyed key rule hr
      obtain ⟨r, hlast, hv⟩ := (h.rule rule).mp hr
      exact ⟨r, hlast, (RuleRequest.validate_eq hv).symm, hv⟩
    · rintro ⟨r, hlast, hplace, hv⟩
      obtain ⟨hswitch, hcoil⟩ := Prod.mk.inj ((RuleRequest.validate_eq hv).trans hplace)
      have hkey : rule.key = key := by
        obtain ⟨switch, coil⟩ := key
        exact congrArg₂ RuleKey.mk (Number.text_inj hswitch) (Number.text_inj hcoil)
      exact hkey ▸ (h.rule rule).mpr ⟨r, hlast, hv⟩
  rules := by
    intro rule
    rw [RuleTable.mem_toList, ← h.rule rule]
    constructor
    · rintro ⟨key, hr⟩
      cases h.keyed key rule hr
      exact hr
    · exact fun hr => ⟨rule.key, hr⟩
  ordered := h.keyed.pairwise_toList
  answered := by
    have hcalled : (calls [(.call .switches : Event Call Outside)])[0]? = some .switches := rfl
    obtain ⟨more, hgo, r, hr⟩ :=
      call_completes (hp.run_lists [.call .switches]).toKept (hp.run_good _) hcalled (by simp)
    refine ⟨[.call .switches] ++ more, ?_, r, hr⟩
    have hmore : more.filterMap Event.call? = [] := by
      refine List.filterMap_eq_nil_iff.mpr fun e he => ?_
      have hgoes := hgo e he
      cases e <;> first | rfl | cases hgoes
    rw [calls, List.filterMap_append, hmore]
    rfl
  switches := by
    intro events r hcalls hr
    have hcalled : (calls events)[0]? = some .switches := by
      rw [hcalls]
      rfl
    obtain ⟨before, found, ⟨⟨after, rfl⟩, -⟩, rfl, hfound⟩ := survey_answers hp events hcalled hr
    refine ⟨found, rfl, hfound ▸ SwitchRegistry.pairwise_known, fun n => ?_⟩
    rw [hfound, hp.mem_known_iff hcalls ⟨_, rfl⟩, h.switch n]

/-- Settings without a fault start if they ask for a capacity of at most 2^62, and the last entry for each place
stands; with a greater capacity they do not, since there is no stream for them. If there is a fault although
the port and the capacity are set, it is the first entry that fails its check. -/
theorem starts_unless_faulty (s : Settings) (clock : Clock) (startedAt : Timestamp) :
    (s.fault? = none →
      if s.platform.streamCapacity ≤ 2 ^ 62 then
        ∃ p, s.launch? clock startedAt = some (.ok p) ∧ p.FurnishedBy s
      else s.launch? clock startedAt = none) ∧
      ∀ e, s.fault? = some e → s.port ≠ 0 → s.platform.streamCapacity ≠ 0 → s.FirstFault e := by
  refine ⟨fun h => ?_, fun e h hp hc => Settings.firstFault h hp hc⟩
  split
  next hcapacity =>
    obtain ⟨p, hfurnish, hdeclared⟩ :=
      furnish_declares (Settings.accepted h) s.platform (.ofConfig s.board) clock startedAt
    have hprepares := Prepares.furnish hfurnish
    refine ⟨p, ?_, hdeclared.furnished hprepares.idle (hprepares.stocked stocked_ofConfig)⟩
    rw [Settings.launch?_of_le hcapacity, hfurnish]
  next hcapacity => exact Settings.launch?_of_lt (Nat.not_le.mp hcapacity)

/-- A device and a rule that are declared twice, and a device without a number. -/
def redeclares : Settings :=
  { Settings.default with
    devices := [⟨.switch, "Ramp", "S1", none, []⟩, ⟨.switch, " RAMP", "S2", none, []⟩]
    rules := [⟨"C1", "S3", 10, 1.0, 0.5⟩, ⟨"C1", "S3", 20, 0.5, 0.25⟩] }

theorem starts_unless_faulty_redeclared :
    (∃ p, redeclares.launch? ⟨0⟩ ⟨0, 0, 0⟩ = some (.ok p) ∧ p.FurnishedBy redeclares ∧
      p.devices.toList.map (·.number) = ["S2"] ∧ p.rules.toList.map (·.pulseMs) = [20] ∧
      p.switches.known.map (·.text) = ["S1", "S2", "S3"]) ∧
    let unnumbered : DeviceRequest := ⟨.coil, "Flipper", " ", none, []⟩
    let faulty := { redeclares with devices := redeclares.devices ++ [unnumbered] }
    faulty.fault? = some (.device 2 (.validation (.emptyNumber "coil"))) ∧
      faulty.FirstFault (.device 2 (.validation (.emptyNumber "coil"))) := by
  refine ⟨?_, ?_⟩
  · have hstarts := (starts_unless_faulty redeclares ⟨0⟩ ⟨0, 0, 0⟩).1 (by decide +kernel)
    rw [if_pos (by decide)] at hstarts
    obtain ⟨p, hp, hfurnished⟩ := hstarts
    have hfacts : ((redeclares.launch? ⟨0⟩ ⟨0, 0, 0⟩).bind Except.toOption).map (fun p =>
        (p.devices.toList.map (·.number), p.rules.toList.map (·.pulseMs),
          p.switches.known.map (·.text))) = some (["S2"], [20], ["S1", "S2", "S3"]) := by
      decide +kernel
    simp only [hp, Option.bind_some, Except.toOption, Option.map_some, Option.some.injEq,
      Prod.mk.injEq] at hfacts
    exact ⟨p, hp, hfurnished, hfacts⟩
  · intro unnumbered faulty
    have hfault : faulty.fault? = some (.device 2 (.validation (.emptyNumber "coil"))) := by
      decide +kernel
    exact ⟨hfault, (starts_unless_faulty faulty ⟨0⟩ ⟨0, 0, 0⟩).2 _ hfault (by decide) (by decide)⟩

/-- The same settings with a capacity of one more than 2^62. -/
theorem accepted_without_platform :
    let greedy := { redeclares with platform := { redeclares.platform with streamCapacity := 4611686018427387905 } }
    greedy.fault? = none ∧ greedy.devices ≠ [] ∧ greedy.rules ≠ [] ∧ greedy.launch? ⟨0⟩ ⟨0, 0, 0⟩ = none := by
  intro greedy
  exact ⟨by decide +kernel, by decide, by decide, Settings.launch?_of_lt (by decide)⟩

end Platform
end Playfield
