import Mathlib.Data.List.Sort
import Mathlib.Order.Compare
import Playfield.Proofs.Rule.Table

/-! The table of hardware rules as one flat map. Both are edited by the same calls; they give the same
answers, and whatever is read from the table is what the flat map holds. -/
namespace Playfield

namespace RuleKey

/-- Keys are ordered by their switches, and those of one switch by their coils. -/
instance : Ord RuleKey := ⟨compareLex (compareOn switch) (compareOn coil)⟩

theorem compare_eq (a b : RuleKey) :
    compare a b = (compare a.switch b.switch).then (compare a.coil b.coil) := rfl

instance : Std.TransOrd RuleKey :=
  inferInstanceAs (Std.TransCmp (compareLex (compareOn switch) (compareOn coil)))

instance : Std.LawfulEqOrd RuleKey where
  compare_self := Std.ReflOrd.compare_self
  eq_of_compare {a b} h := by
    obtain ⟨s, c⟩ := a
    obtain ⟨s', c'⟩ := b
    rw [compare_eq, Ordering.then_eq_eq] at h
    cases Std.LawfulEqOrd.eq_of_compare h.1
    cases Std.LawfulEqOrd.eq_of_compare h.2
    rfl

theorem lt_of_switch {a b : RuleKey} (h : compare a.switch b.switch = .lt) : compare a b = .lt :=
  Ordering.then_eq_lt.mpr (.inl h)

theorem lt_of_coil {a b : RuleKey} (hs : a.switch = b.switch) (h : compare a.coil b.coil = .lt) :
    compare a b = .lt := by
  refine Ordering.then_eq_lt.mpr (.inr ⟨?_, h⟩)
  change compare a.switch b.switch = .eq
  rw [hs]
  exact Std.ReflOrd.compare_self

end RuleKey

/-- The rules as one map from their keys. -/
abbrev FlatRules := Std.ExtTreeMap RuleKey HardwareRule

/-- The calls that change the rules. -/
inductive RuleEdit where
  | configure (rule : HardwareRule)
  | remove (key : RuleKey)

/-- What such a call answers. -/
inductive RuleReply where
  | replaced (previous : Option HardwareRule)
  | removed (result : Except Missing HardwareRule)

/-- The answers of one call after another, and the state in the end. -/
def RuleEdit.run {σ : Type} (edit : σ → RuleEdit → RuleReply × σ) (s : σ) : List RuleEdit → List RuleReply × σ
  | [] => ([], s)
  | e :: edits => ((edit s e).1 :: (run edit (edit s e).2 edits).1, (run edit (edit s e).2 edits).2)

/-- A flat map gives what it holds, and does not change when there is nothing to remove. -/
def FlatRules.edit (m : FlatRules) : RuleEdit → RuleReply × FlatRules
  | .configure rule => (.replaced m[rule.key]?, m.insert rule.key rule)
  | .remove key =>
    match m[key]? with
    | some rule => (.removed (.ok rule), m.erase key)
    | none => (.removed (.error ⟨"HardwareRule", key.text⟩), m)

namespace RuleTable

def edit (t : RuleTable) : RuleEdit → RuleReply × RuleTable
  | .configure rule => (.replaced (t.configure rule).1, (t.configure rule).2)
  | .remove key => (.removed (t.remove key).1, (t.remove key).2)

/-- No switch is left with an empty entry. -/
def Filled (t : RuleTable) : Prop := ∀ (s : SwitchNumber) coils, t.switches[s]? = some coils → coils ≠ ∅

/-- The table holds the rules of the flat map, each under its own key. -/
structure Represents (t : RuleTable) (m : FlatRules) : Prop where
  get? : ∀ key, t.get? key = m[key]?
  keyed : t.Keyed
  filled : t.Filled

variable {t : RuleTable} {m : FlatRules} {rule : HardwareRule} {key : RuleKey} {s : SwitchNumber}

theorem represents_empty : empty.Represents ∅ where
  get? := fun _ => by simp [get?, ofSwitch, empty]
  keyed := keyed_empty
  filled := fun s coils h => by simp [empty] at h

theorem ofSwitch_of_getElem? {coils : Std.ExtTreeMap CoilNumber HardwareRule}
    (h : t.switches[s]? = some coils) : t.ofSwitch s = coils := by
  rw [ofSwitch, Std.ExtTreeMap.getD_eq_getD_getElem?, h]
  rfl

theorem get?_of_getElem? {coils : Std.ExtTreeMap CoilNumber HardwareRule} {c : CoilNumber}
    (h : t.switches[s]? = some coils) :
    t.get? ⟨s, c⟩ = coils[c]? := by
  rw [get?, ofSwitch_of_getElem? h]

theorem Filled.configure (h : t.Filled) : (t.configure rule).2.Filled := by
  intro s coils hc
  dsimp only [RuleTable.configure] at hc
  rw [Map.getElem?_insert] at hc
  split at hc
  · cases hc
    exact Std.ExtTreeMap.insert_ne_empty
  · exact h s coils hc

theorem Filled.remove (h : t.Filled) : (t.remove key).2.Filled := by
  intro s coils hc
  rw [getElem?_remove] at hc
  split at hc
  · -- The entry of a switch goes with its last rule.
    rintro rfl
    simpa using (Option.filter_eq_some_iff.mp hc).2
  · exact h s coils hc

/-- To remove a rule that is not there changes nothing: there is no empty entry that could go with it. -/
theorem Filled.remove_of_absent (h : t.Filled) (habsent : t.get? key = none) : (t.remove key).2 = t := by
  suffices hswitches : (t.remove key).2.switches = t.switches from congrArg RuleTable.mk hswitches
  refine Std.ExtTreeMap.ext_getElem? fun s => ?_
  rw [getElem?_remove]
  split
  next hs =>
    subst hs
    cases hcoils : t.switches[key.switch]? with
    | none => rfl
    | some coils =>
      have hkept : coils.erase key.coil = coils :=
        Map.erase_of_getElem? _ ((get?_of_getElem? hcoils).symm.trans habsent)
      have hfull : coils.isEmpty = false := by
        rw [Bool.eq_false_iff, ne_eq, Std.ExtTreeMap.isEmpty_iff]
        exact h _ _ hcoils
      rw [Option.map_some, hkept, Option.filter_some, hfull]
      rfl
  next => rfl

namespace Represents

variable (h : t.Represents m)

include h

theorem configure : (t.configure rule).2.Represents (m.insert rule.key rule) where
  get? := fun key => by rw [get?_configure, Map.getElem?_insert, h.get?]
  keyed := h.keyed.configure
  filled := h.filled.configure

theorem remove : (t.remove key).2.Represents (m.erase key) where
  get? := fun key' => by rw [get?_remove, Map.getElem?_erase, h.get?]
  keyed := h.keyed.remove
  filled := h.filled.remove

theorem edit (e : RuleEdit) :
    (t.edit e).1 = (m.edit e).1 ∧ (t.edit e).2.Represents (m.edit e).2 := by
  cases e with
  | configure rule =>
      refine ⟨?_, h.configure⟩
      exact congrArg RuleReply.replaced (h.get? rule.key)
  | remove key =>
      simp only [RuleTable.edit, FlatRules.edit, remove_fst, ← h.get?]
      cases hg : t.get? key with
      | some rule => exact ⟨rfl, h.remove⟩
      | none =>
          rw [h.filled.remove_of_absent hg]
          exact ⟨rfl, h⟩

theorem run (edits : List RuleEdit) :
    (RuleEdit.run RuleTable.edit t edits).1 = (RuleEdit.run FlatRules.edit m edits).1 ∧
      (RuleEdit.run RuleTable.edit t edits).2.Represents (RuleEdit.run FlatRules.edit m edits).2 := by
  induction edits generalizing t m with
  | nil => exact ⟨rfl, h⟩
  | cons e edits ih =>
      obtain ⟨hreply, hnext⟩ := h.edit e
      obtain ⟨hreplies, hlast⟩ := ih hnext
      refine ⟨?_, hlast⟩
      simp only [RuleEdit.run, hreply, hreplies]

end Represents

/-- Lists of rules in the strict order of their keys are equal if they have the same rules. -/
theorem eq_of_ordered {l l' : List HardwareRule}
    (h : l.Pairwise fun r r' => compare r.key r'.key = .lt)
    (h' : l'.Pairwise fun r r' => compare r.key r'.key = .lt) (hm : ∀ r, r ∈ l ↔ r ∈ l') : l = l' := by
  have hirrefl : Std.Irrefl fun r r' : HardwareRule => compare r.key r'.key = .lt := by
    refine ⟨fun r hlt => ?_⟩
    rw [Std.ReflOrd.compare_self] at hlt
    cases hlt
  have hantisymm : Std.Antisymm fun r r' : HardwareRule => compare r.key r'.key = .lt :=
    ⟨fun r r' hlt hgt => absurd hgt (Std.OrientedCmp.not_lt_of_lt hlt)⟩
  exact h.eq_of_mem_iff h' hm

section Entries

variable {coils : Std.ExtTreeMap CoilNumber HardwareRule}

theorem mem_toList : rule ∈ t.toList ↔ ∃ key, t.get? key = some rule := by
  rw [toList, Map.mem_flatMap_values]
  constructor
  · rintro ⟨s, coils, hs, c, hc⟩
    exact ⟨⟨s, c⟩, (get?_of_getElem? hs).trans hc⟩
  · rintro ⟨⟨s, c⟩, hg⟩
    cases hs : t.switches[s]? with
    | none => simp [get?, ofSwitch, Std.ExtTreeMap.getD_eq_getD_getElem?, hs] at hg
    | some coils => exact ⟨s, coils, hs, c, (get?_of_getElem? hs).symm.trans hg⟩

theorem Keyed.key_of_entry (h : t.Keyed) (hs : t.switches[s]? = some coils) {c : CoilNumber}
    (hc : coils[c]? = some rule) : rule.key = ⟨s, c⟩ :=
  h ⟨s, c⟩ rule ((get?_of_getElem? hs).trans hc)

theorem Keyed.switch_of_entry (h : t.Keyed) (hs : t.switches[s]? = some coils)
    (hr : rule ∈ coils.values) : rule.switch = s := by
  obtain ⟨c, hc⟩ := (Map.mem_values coils).mp hr
  exact congrArg RuleKey.switch (h.key_of_entry hs hc)

theorem Keyed.pairwise_toList (h : t.Keyed) :
    t.toList.Pairwise fun r r' => compare r.key r'.key = .lt := by
  refine Map.pairwise_flatMap_values (fun s coils hs => ?_) fun s coils s' coils' hs hs' hlt r hr r' hr' => ?_
  · have hcoils := Map.pairwise_values coils fun c rule hc => congrArg RuleKey.coil (h.key_of_entry hs hc)
    refine hcoils.imp_of_mem ?_
    intro r r' hr hr' hlt
    exact RuleKey.lt_of_coil ((h.switch_of_entry hs hr).trans (h.switch_of_entry hs hr').symm) hlt
  · refine RuleKey.lt_of_switch ?_
    change compare r.switch r'.switch = .lt
    rw [h.switch_of_entry hs hr, h.switch_of_entry hs' hr']
    exact hlt

end Entries

theorem length_toList (t : RuleTable) : t.size = t.toList.length := by
  rw [size, toList, Map.length_flatMap_values]

/-- What a table answers to whoever reads it, against the flat map. -/
structure Reads (t : RuleTable) (m : FlatRules) : Prop where
  toList : t.toList = m.values
  ordered : t.toList.Pairwise fun r r' => compare r.key r'.key = .lt
  size : t.size = t.toList.length
  isEmpty : t.isEmpty = true ↔ t.toList = []
  fires : ∀ s, t.evaluate s true = t.toList.filter (·.switch = s)
  inOrder : ∀ s, (t.evaluate s true).Pairwise fun r r' => compare r.coil r'.coil = .lt
  spares : ∀ s, t.evaluate s false = []

theorem Represents.reads (h : t.Represents m) : t.Reads m where
  toList := by
    refine eq_of_ordered h.keyed.pairwise_toList ?_ fun rule => ?_
    · exact Map.pairwise_values m fun key rule hk => h.keyed key rule ((h.get? key).trans hk)
    · simp only [mem_toList, Map.mem_values, h.get?]
  ordered := h.keyed.pairwise_toList
  size := t.length_toList
  isEmpty := by
    rw [RuleTable.isEmpty, decide_eq_true_eq, length_toList, List.length_eq_zero_iff]
  fires := by
    intro s
    -- Among the rules of one switch, the order by coils is that of the keys.
    refine eq_of_ordered ?_ (h.keyed.pairwise_toList.filter _) fun rule => ?_
    · refine (h.keyed.pairwise_evaluate s true).imp_of_mem ?_
      intro r r' hr hr' hlt
      exact RuleKey.lt_of_coil ((h.keyed.switch_of_mem hr).trans (h.keyed.switch_of_mem hr').symm) hlt
    · rw [List.mem_filter, mem_toList, decide_eq_true_eq]
      constructor
      · intro hr
        exact ⟨⟨rule.key, h.keyed.get?_of_mem hr⟩, h.keyed.switch_of_mem hr⟩
      · rintro ⟨⟨key, hk⟩, rfl⟩
        cases h.keyed key rule hk
        exact h.keyed.mem_evaluate.mpr ⟨rfl, hk⟩
  inOrder := fun s => h.keyed.pairwise_evaluate s true
  spares := by
    intro s
    simp [evaluate, HardwareRule.firesOn]

/-- However the rules are configured and removed, the table answers as the flat map does and holds the same
rules, each under its own key, with no empty entry left; and what is read from it is read from the flat map.
A removal that fails leaves the very table that it was asked of. -/
theorem table_is_flat_map (edits : List RuleEdit) :
    let table := RuleEdit.run RuleTable.edit empty edits
    let flat := RuleEdit.run FlatRules.edit ∅ edits
    table.1 = flat.1 ∧ table.2.Represents flat.2 ∧ table.2.Reads flat.2 ∧
      ∀ key, table.2.get? key = none →
        table.2.remove key = (.error ⟨"HardwareRule", key.text⟩, table.2) := by
  intro table flat
  obtain ⟨hreplies, hstate⟩ := represents_empty.run edits
  refine ⟨hreplies, hstate, hstate.reads, fun key habsent => ?_⟩
  exact Prod.ext (by rw [remove_fst, habsent]; rfl) (hstate.filled.remove_of_absent habsent)

end RuleTable
end Playfield
