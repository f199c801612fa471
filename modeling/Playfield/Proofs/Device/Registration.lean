import Playfield.Proofs.Device.Query
import Playfield.Proofs.Request

/-! The registration of a device, and what is found of it. Names and tags are put into normal form when a device is
registered and once more when it is asked for, which makes no difference. -/
namespace Playfield

/-- The request for a device as it is. -/
def Device.request (d : Device) : DeviceRequest := ⟨d.kind, d.name, d.number, d.label, d.tags.toList⟩

/-- A device that has passed its check passes it again, and stays as it is. -/
theorem Device.Proper.validate_request {d : Device} (h : d.Proper) : d.request.validate = .ok d := by
  have hnumber : Check.number d.kind d.number = .ok ⟨d.number, h.number⟩ := by
    rw [Check.number, Number.ofString?, dif_pos h.number]
  have hlabel : (d.label.filter fun label => !Text.isBlank label) = d.label := by
    cases hl : d.label with
    | none => rfl
    | some label => simp [h.label label hl]
  have htags : d.request.normalTags = d.tags := by
    refine Std.ExtTreeSet.ext_mem fun tag => ?_
    rw [DeviceRequest.mem_normalTags]
    constructor
    · rintro ⟨-, t, ht, rfl⟩
      have ht : t ∈ d.tags := Std.ExtTreeSet.mem_toList.mp ht
      rwa [(h.tags t ht).2]
    · intro ht
      exact ⟨(h.tags tag ht).1, tag, Std.ExtTreeSet.mem_toList.mpr ht, (h.tags tag ht).2⟩
  unfold DeviceRequest.validate
  dsimp only [request]
  rw [h.name, if_neg h.named, hnumber]
  show Except.ok (Device.mk d.kind d.name d.number (d.label.filter _) d.request.normalTags) = .ok d
  rw [hlabel, htags]

/-- A device carries the tags of its request that are not blank, and in whatever case. -/
theorem DeviceRequest.hasTag_iff {r : DeviceRequest} {d : Device} (h : r.validate = .ok d) {tag : String} :
    d.hasTag tag = true ↔ ∃ t ∈ r.tags, Text.isBlank t = false ∧ normalize t = normalize tag := by
  rw [Device.hasTag, Std.ExtTreeSet.contains_iff_mem, (r.judged.validates.carries d h).tags]
  constructor
  · rintro ⟨hne, t, ht, heq⟩
    refine ⟨t, ht, ?_, heq⟩
    rw [← Bool.not_eq_true, ← normalize_eq_empty_iff, heq]
    exact hne
  · rintro ⟨t, ht, hblank, heq⟩
    refine ⟨?_, t, ht, heq⟩
    rw [← heq, ne_eq, normalize_eq_empty_iff, hblank]
    exact Bool.false_ne_true

namespace Inventory

/-- The inventory once these requests have been made, one after another; one that is refused changes nothing. -/
def ofRequests (rs : List DeviceRequest) : Inventory := ofDevices (rs.filterMap (·.validate.toOption))

theorem proper_ofRequests (rs : List DeviceRequest) : (ofRequests rs).Proper := by
  have hplaced := placed_ofDevices (rs.filterMap (·.validate.toOption))
  refine ⟨hplaced.kind, hplaced.name, fun kind name d hd => ?_⟩
  obtain ⟨before, after, hlist, -⟩ := (holds_ofDevices.mp hd).2
  have hmem : d ∈ rs.filterMap (·.validate.toOption) := by
    rw [hlist]
    exact List.mem_append_right _ List.mem_cons_self
  obtain ⟨r, -, hr⟩ := List.mem_filterMap.mp hmem
  cases hv : r.validate with
  | error e =>
    rw [hv] at hr
    cases hr
  | ok e =>
    rw [hv] at hr
    cases hr
    exact DeviceRequest.proper hv

/-- Just the place of the device that is registered is looked up otherwise than before. -/
theorem get?_register (i : Inventory) (d : Device) (kind : Kind) (name : String) :
    (i.register d).2.get? kind name =
      if d.kind = kind ∧ d.name = normalize name then some d else i.get? kind name := by
  apply Option.ext
  intro e
  have hholds : (i.register d).2.Holds kind (normalize name) e ↔
      if d.kind = kind ∧ d.name = normalize name then e = d else i.Holds kind (normalize name) e :=
    holds_register
  refine hholds.trans ?_
  split
  · rw [Option.some_inj, eq_comm]
  · exact Iff.rfl

/-- What is found of the device `d` once it has been registered for the request `r`. -/
structure Registers (i : Inventory) (r : DeviceRequest) (d : Device) : Prop where
  carries : r.Carries d
  /-- It is found by every name with the same normal form, -/
  found : ∀ name, normalize name = normalize r.name → (i.register d).2.get? r.kind name = some d
  /-- as it was written or as it is stored. -/
  foundAsNamed : (i.register d).2.get? r.kind r.name = some d ∧ (i.register d).2.get? r.kind d.name = some d
  /-- It carries each tag that is not blank, as it was written and as it is stored, -/
  tagged : ∀ tag ∈ r.tags, Text.isBlank tag = false →
    d.hasTag tag = true ∧ normalize tag ∈ d.tags ∧ d.hasTag (normalize tag) = true
  /-- and nothing else for a tag. -/
  taggedOnly : ∀ tag, d.hasTag tag = true ↔
    ∃ t ∈ r.tags, Text.isBlank t = false ∧ normalize t = normalize tag
  /-- Elsewhere it is as it was. -/
  apart : ∀ kind name, ¬(kind = r.kind ∧ normalize name = normalize r.name) →
    (i.register d).2.get? kind name = i.get? kind name
  previous : (i.register d).1 = i.get? r.kind r.name
  /-- The check of any device that is stored gives that device. -/
  again : ∀ kind name e, (i.register d).2.Holds kind name e → e.request.validate = .ok e

/-- Whatever was registered before, who registers a device with a valid request finds it again. -/
theorem registers_and_finds (before : List DeviceRequest) {r : DeviceRequest} {d : Device}
    (h : r.validate = .ok d) : (ofRequests before).Registers r d := by
  have hcarries : r.Carries d := r.judged.validates.carries d h
  have hfound (name : String) (hname : normalize name = normalize r.name) :
      ((ofRequests before).register d).2.get? r.kind name = some d := by
    rw [get?_register, if_pos ⟨hcarries.kind, hcarries.name.trans hname.symm⟩]
  have htag (tag : String) : d.hasTag tag = true ↔
      ∃ t ∈ r.tags, Text.isBlank t = false ∧ normalize t = normalize tag :=
    DeviceRequest.hasTag_iff h
  refine ⟨hcarries, hfound, ⟨hfound r.name rfl, hfound d.name ?_⟩, fun tag ht hblank => ⟨?_, ?_, ?_⟩, htag,
    fun kind name hne => ?_, ?_, fun kind name e he => ?_⟩
  · rw [hcarries.name, normalize_normalize]
  · exact (htag tag).mpr ⟨tag, ht, hblank, rfl⟩
  · rw [hcarries.tags, ne_eq, normalize_eq_empty_iff, hblank]
    exact ⟨Bool.false_ne_true, tag, ht, rfl⟩
  · exact (htag _).mpr ⟨tag, ht, hblank, (normalize_normalize tag).symm⟩
  · rw [get?_register, if_neg]
    rintro ⟨hk, hn⟩
    exact hne ⟨hk.symm.trans hcarries.kind, hn.symm.trans hcarries.name⟩
  · rw [get?, ← hcarries.kind, ← hcarries.name]
    rfl
  · exact (((proper_ofRequests before).register (DeviceRequest.proper h)).device kind name e he).validate_request

/-- A device takes the place of another one. Its name is a word that ends in a sigma, its first tag has a capital
with two characters for its lower-case form, and its second tag and its label are blank. -/
theorem registers_and_finds_replaced :
    let before : List DeviceRequest := [⟨.coil, "οδοσ ", "C1", none, []⟩, ⟨.coil, "ΟΔΟς", "C2", none, []⟩,
      ⟨.light, " ", "L1", none, []⟩]
    let r : DeviceRequest := ⟨.coil, " ΟΔΟΣ", "C3", some " ", ["İ", "\t"]⟩
    let d : Device := ⟨.coil, "οδος", "C3", none, .ofList ["i\u0307"]⟩
    r.validate = .ok d ∧ (ofRequests before).Registers r d ∧
      ((ofRequests before).register d).1.map (·.number) = some "C2" ∧
      ((ofRequests before).register d).2.toList.map (·.number) = ["C3", "C1"] := by
  intro before r d
  have hvalid : r.validate = .ok d := by decide +kernel
  have hprevious : ((ofRequests before).register d).1.map (·.number) = some "C2" := by decide +kernel
  have hnumbers : ((ofRequests before).register d).2.toList.map (·.number) = ["C3", "C1"] := by
    decide +kernel
  exact ⟨hvalid, registers_and_finds before hvalid, hprevious, hnumbers⟩

end Inventory
end Playfield
