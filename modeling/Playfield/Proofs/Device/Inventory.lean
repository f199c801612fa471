import Mathlib.Data.List.Sort
import Mathlib.Data.String.Basic
import Playfield.Device.Inventory
import Playfield.Proofs.Map
import Playfield.Proofs.Text.Normal

/-! The inventory of devices. It holds each device in its own place, by kind and name, and nothing else, and lists
them in that order; every query is a filter of this list. A device that has passed its check is in normal form
and has a number of its own kind. -/
namespace Playfield

namespace Device

variable {d : Device} {kind : Kind}

/-- A device as it is once its request has been checked. -/
structure Proper (d : Device) : Prop where
  named : d.name ≠ ""
  name : normalize d.name = d.name
  tags : ∀ tag ∈ d.tags, tag ≠ "" ∧ normalize tag = tag
  label : ∀ label, d.label = some label → Text.isBlank label = false
  number : Text.isBlank d.number = false

theorem number?_eq_some {n : Number kind} : d.number? kind = some n ↔ d.kind = kind ∧ n.text = d.number := by
  rw [number?, Option.ite_none_right_eq_some]
  refine and_congr_right fun _ => ?_
  unfold Number.ofString?
  split
  · next hn =>
    rw [Option.some_inj]
    constructor
    · rintro rfl
      rfl
    · exact fun h => Number.text_inj h.symm
  · next hn =>
    constructor
    · rintro ⟨⟩
    · intro h
      exact absurd n.not_blank (h ▸ hn)

/-- Only as a device of its own kind does a device have a number. -/
theorem Proper.isSome_number? (h : d.Proper) : (d.number? kind).isSome = true ↔ kind = d.kind := by
  rw [Option.isSome_iff_exists]
  constructor
  · rintro ⟨n, hn⟩
    exact (number?_eq_some.mp hn).1.symm
  · rintro rfl
    exact ⟨⟨d.number, h.number⟩, number?_eq_some.mpr ⟨rfl, rfl⟩⟩

/-- Where an inventory keeps the device. -/
def place (d : Device) : Kind × String := (d.kind, d.name)

/-- Devices are listed by kind, and those of one kind by name. -/
def Precedes (d e : Device) : Prop := d.kind.rank < e.kind.rank ∨ d.kind = e.kind ∧ d.name < e.name

theorem Precedes.asymm {e : Device} (h : d.Precedes e) : ¬e.Precedes d := by
  intro h'
  rcases h with hlt | ⟨hk, hlt⟩
  · rcases h' with hgt | ⟨hk', -⟩
    · exact Nat.lt_asymm hlt hgt
    · exact absurd hlt (by rw [hk']; exact Nat.lt_irrefl _)
  · rcases h' with hgt | ⟨-, hgt⟩
    · exact absurd hgt (by rw [hk]; exact Nat.lt_irrefl _)
    · exact lt_asymm hlt hgt

instance : Std.Irrefl Precedes := ⟨fun _ h => h.asymm h⟩

instance : Std.Antisymm Precedes := ⟨fun _ _ h h' => absurd h' h.asymm⟩

end Device

namespace DeviceQuery

/-- Every filter of the query that is present fits the device. -/
structure Matches (q : DeviceQuery) (d : Device) : Prop where
  kind : ∀ kind, q.kind = some kind → d.kind = kind
  tag : ∀ tag, q.tag = some tag → normalize tag ∈ d.tags
  number : ∀ number, q.number = some number → d.number = number

theorem matches_iff {q : DeviceQuery} {d : Device} : q.Matches d ↔
    q.kind.all (· = d.kind) = true ∧ q.tag.all d.hasTag = true ∧ q.number.all (d.number = ·) = true := by
  simp only [Option.all_eq_true, Device.hasTag, Std.ExtTreeSet.contains_iff_mem, decide_eq_true_eq]
  constructor
  · intro h
    exact ⟨fun k hk => (h.kind k hk).symm, h.tag, h.number⟩
  · rintro ⟨hk, ht, hn⟩
    exact ⟨fun k hq => (hk k hq).symm, ht, hn⟩

instance (q : DeviceQuery) (d : Device) : Decidable (q.Matches d) := decidable_of_iff _ matches_iff.symm

end DeviceQuery

namespace DeviceRequest

variable {r : DeviceRequest} {d : Device}

theorem mem_normalTags {tag : String} : tag ∈ r.normalTags ↔ tag ≠ "" ∧ ∃ t ∈ r.tags, normalize t = tag := by
  rw [normalTags, Std.ExtTreeSet.mem_ofList, List.contains_iff_mem]
  simp [and_comm]

theorem proper (h : r.validate = .ok d) : d.Proper := by
  unfold validate at h
  dsimp only at h
  split at h
  · cases h
  · next hname =>
    cases hn : Check.number r.kind r.number with
    | error e =>
        rw [hn] at h
        cases h
    | ok n =>
        rw [hn] at h
        cases h
        exact {
          named := hname
          name := normalize_normalize r.name
          tags := by
            intro tag ht
            obtain ⟨hne, t, -, rfl⟩ := mem_normalTags.mp ht
            exact ⟨hne, normalize_normalize t⟩
          label := by
            intro label hl
            have hkept := (Option.filter_eq_some_iff.mp hl).2
            simpa using hkept
          number := n.not_blank }

end DeviceRequest

namespace Inventory

variable {i : Inventory} {d : Device} {kind : Kind} {name : String}

/-- The device `d` is stored under a kind and a name. -/
def Holds (i : Inventory) (kind : Kind) (name : String) (d : Device) : Prop :=
  (i.ofKind kind)[name]? = some d

/-- Every device is stored under its own kind and name. -/
structure Placed (i : Inventory) : Prop where
  kind : ∀ kind name d, i.Holds kind name d → d.kind = kind
  name : ∀ kind name d, i.Holds kind name d → d.name = name

/-- Every device is stored under its own kind and name, and is as its check has made it. -/
structure Proper (i : Inventory) : Prop where
  kind : ∀ kind name d, i.Holds kind name d → d.kind = kind
  name : ∀ kind name d, i.Holds kind name d → d.name = name
  device : ∀ kind name d, i.Holds kind name d → d.Proper

theorem proper_empty : empty.Proper := by
  have hnone : ∀ kind name d, ¬empty.Holds kind name d := by
    intro kind name d h
    simp [Holds, ofKind, empty] at h
  exact ⟨fun k n d h => (hnone k n d h).elim, fun k n d h => (hnone k n d h).elim,
    fun k n d h => (hnone k n d h).elim⟩

/-- A device that is registered takes its place, and no other device's. -/
theorem holds_register {new : Device} : (i.register new).2.Holds kind name d ↔
    if new.kind = kind ∧ new.name = name then d = new else i.Holds kind name d := by
  unfold Holds register ofKind
  dsimp only
  rw [Map.getD_insert]
  by_cases hk : new.kind = kind
  · rw [if_pos hk, Map.getElem?_insert]
    by_cases hn : new.name = name
    · rw [if_pos hn, if_pos ⟨hk, hn⟩, Option.some_inj, eq_comm]
    · rw [if_neg hn, if_neg fun h => hn h.2, hk]
  · rw [if_neg hk, if_neg fun h => hk h.1]

theorem Proper.register (h : i.Proper) (hd : d.Proper) : (i.register d).2.Proper := by
  have hnew : ∀ kind name e, (i.register d).2.Holds kind name e →
      e.kind = kind ∧ e.name = name ∧ e.Proper := by
    intro kind name e he
    rw [holds_register] at he
    split at he
    · next hplace =>
      subst he
      exact ⟨hplace.1, hplace.2, hd⟩
    · exact ⟨h.kind _ _ _ he, h.name _ _ _ he, h.device _ _ _ he⟩
  exact ⟨fun k n e he => (hnew k n e he).1, fun k n e he => (hnew k n e he).2.1,
    fun k n e he => (hnew k n e he).2.2⟩

theorem holds_iff : i.Holds kind name d ↔ ∃ named, i.kinds[kind]? = some named ∧ named[name]? = some d := by
  rw [Holds, ofKind, Std.ExtTreeMap.getD_eq_getD_getElem?]
  cases i.kinds[kind]? with
  | none => simp
  | some named => simp

theorem mem_toList : d ∈ i.toList ↔ ∃ kind name, i.Holds kind name d := by
  rw [toList, Map.mem_flatMap_values]
  simp only [holds_iff]
  constructor
  · rintro ⟨kind, named, hk, name, hn⟩
    exact ⟨kind, name, named, hk, hn⟩
  · rintro ⟨kind, name, named, hk, hn⟩
    exact ⟨kind, named, hk, name, hn⟩

/-- Where a list is taken apart, what passes a test that tells the parts from each other is taken from the parts
that pass. -/
theorem flatMap_filter {α β : Type} {l : List α} {f : α → List β} {p : α → Bool} {p' : β → Bool}
    (h : ∀ a ∈ l, ∀ b ∈ f a, p' b = p a) : (l.filter p).flatMap f = (l.flatMap f).filter p' := by
  induction l with
  | nil => rfl
  | cons a l ih =>
    have ha := h a List.mem_cons_self
    rw [List.flatMap_cons, List.filter_append, ← ih fun b hb => h b (List.mem_cons_of_mem a hb)]
    cases hp : p a with
    | true =>
      rw [List.filter_cons_of_pos hp, List.flatMap_cons,
        List.filter_eq_self.mpr fun b hb => (ha b hb).trans hp]
    | false =>
      have hnone : (f a).filter p' = [] :=
        List.filter_eq_nil_iff.mpr fun b hb => by rw [ha b hb, hp]; exact Bool.false_ne_true
      rw [List.filter_cons_of_neg (by rw [hp]; exact Bool.false_ne_true), hnone, List.nil_append]

theorem size_eq (i : Inventory) : i.size = i.toList.length := by
  rw [size, toList, Map.length_flatMap_values]

namespace Placed

variable (h : i.Placed)

include h

theorem mem_toList : d ∈ i.toList ↔ i.Holds d.kind d.name d := by
  rw [Inventory.mem_toList]
  constructor
  · rintro ⟨kind, name, hd⟩
    rwa [h.kind _ _ _ hd, h.name _ _ _ hd]
  · exact fun hd => ⟨d.kind, d.name, hd⟩

theorem kind_of_entry {named : Std.ExtTreeMap String Device} (hk : i.kinds[kind]? = some named)
    (hd : d ∈ named.values) : d.kind = kind := by
  obtain ⟨name, hn⟩ := (Map.mem_values named).mp hd
  exact h.kind _ _ _ (holds_iff.mpr ⟨named, hk, hn⟩)

theorem pairwise_entry {named : Std.ExtTreeMap String Device} (hk : i.kinds[kind]? = some named) :
    named.values.Pairwise Device.Precedes := by
  have hnames : named.values.Pairwise fun d e => compare d.name e.name = .lt :=
    Map.pairwise_values named fun name d hn => h.name _ _ _ (holds_iff.mpr ⟨named, hk, hn⟩)
  refine hnames.imp_of_mem fun {d e} hd he hlt => .inr ⟨?_, compare_lt_iff_lt.mp hlt⟩
  rw [h.kind_of_entry hk hd, h.kind_of_entry hk he]

theorem pairwise_toList : i.toList.Pairwise Device.Precedes := by
  refine Map.pairwise_flatMap_values (fun kind named hk => h.pairwise_entry hk)
    fun kind named kind' named' hk hk' hlt d hd e he => .inl ?_
  rw [h.kind_of_entry hk hd, h.kind_of_entry hk' he]
  exact Nat.compare_eq_lt.mp hlt

/-- A query picks those from the list of all devices that match it. -/
theorem query_eq (q : DeviceQuery) : i.query q = i.toList.filter fun d => q.Matches d := by
  have hkinds : ((i.kinds.toList.filter fun entry => q.kind.all (· = entry.1)).flatMap (·.2.values)) =
      i.toList.filter fun d => q.kind.all (· = d.kind) := by
    rw [toList, Map.values_eq, List.flatMap_map]
    refine flatMap_filter fun entry hentry d hd => ?_
    rw [h.kind_of_entry (Std.ExtTreeMap.mem_toList_iff_getElem?_eq_some.mp hentry) hd]
  rw [query, hkinds, List.filter_filter, List.filter_filter]
  refine List.filter_congr fun d _ => ?_
  rw [Bool.eq_iff_iff, decide_eq_true_eq, DeviceQuery.matches_iff, Bool.and_eq_true, Bool.and_eq_true]
  constructor
  · rintro ⟨⟨hn, ht⟩, hk⟩
    exact ⟨hk, ht, hn⟩
  · rintro ⟨hk, ht, hn⟩
    exact ⟨⟨hn, ht⟩, hk⟩

theorem mem_query {q : DeviceQuery} : d ∈ i.query q ↔ i.Holds d.kind d.name d ∧ q.Matches d := by
  rw [h.query_eq, List.mem_filter, h.mem_toList, decide_eq_true_eq]

theorem pairwise_query (q : DeviceQuery) : (i.query q).Pairwise Device.Precedes := by
  rw [h.query_eq]
  exact h.pairwise_toList.filter _

/-- The devices of one kind are listed alike by the inventory and in their own map. -/
theorem values_ofKind (kind : Kind) : (i.ofKind kind).values = i.toList.filter (·.kind = kind) := by
  have hvalues : (i.ofKind kind).values.Pairwise Device.Precedes := by
    cases hk : i.kinds[kind]? with
    | none =>
      rw [ofKind, Std.ExtTreeMap.getD_eq_getD_getElem?, hk, Map.values_eq]
      exact List.Pairwise.nil
    | some named =>
      rw [ofKind, Std.ExtTreeMap.getD_eq_getD_getElem?, hk]
      exact h.pairwise_entry hk
  refine hvalues.eq_of_mem_iff (h.pairwise_toList.filter _) fun d => ?_
  rw [Map.mem_values, List.mem_filter, h.mem_toList, decide_eq_true_eq]
  constructor
  · rintro ⟨name, hd⟩
    obtain rfl := h.kind _ _ _ hd
    obtain rfl := h.name _ _ _ hd
    exact ⟨hd, rfl⟩
  · rintro ⟨hd, rfl⟩
    exact ⟨d.name, hd⟩

theorem findByNumber?_eq (kind : Kind) (number : String) :
    i.findByNumber? kind number = (i.query ⟨some kind, none, some number⟩).head? := by
  rw [findByNumber?, h.values_ofKind, List.find?_filter, h.query_eq, List.head?_filter]
  congr 1
  funext d
  rw [Bool.eq_iff_iff]
  simp only [decide_eq_true_eq, DeviceQuery.matches_iff, Option.all_some, Option.all_none, true_and]
  rw [eq_comm (a := kind)]

theorem get?_eq_some : i.get? kind name = some d ↔
    d ∈ i.query ⟨some kind, none, none⟩ ∧ d.name = normalize name := by
  rw [h.mem_query, DeviceQuery.matches_iff]
  constructor
  · intro hd
    obtain rfl := h.kind kind (normalize name) d hd
    have hname := h.name d.kind (normalize name) d hd
    exact ⟨⟨by rw [hname]; exact hd, by simp⟩, hname⟩
  · rintro ⟨⟨hd, hq⟩, hname⟩
    obtain rfl : kind = d.kind := by simpa using hq
    rwa [hname] at hd

end Placed

namespace Proper

variable (h : i.Proper)

include h

theorem placed : i.Placed := ⟨h.kind, h.name⟩

/-- No two devices of one kind have one name. -/
theorem pairwise_toList : i.toList.Pairwise fun d e => d.kind ≠ e.kind ∨ d.name ≠ e.name := by
  refine h.placed.pairwise_toList.imp ?_
  rintro d e (hlt | ⟨-, hlt⟩)
  · exact .inl fun hk => Nat.ne_of_lt hlt (congrArg Kind.rank hk)
  · exact .inr hlt.ne

theorem mem_query {q : DeviceQuery} : d ∈ i.query q ↔ i.Holds d.kind d.name d ∧
    q.kind.all (· = d.kind) = true ∧ q.tag.all d.hasTag = true ∧ q.number.all (d.number = ·) = true := by
  rw [h.placed.mem_query, DeviceQuery.matches_iff]

end Proper
end Inventory
end Playfield
