import Std.Data.ExtTreeMap

/-! Maps, with equality of keys in place of their order. -/
namespace Playfield.Map

variable {κ α : Type} [Ord κ] [Std.TransOrd κ] [Std.LawfulEqOrd κ] [DecidableEq κ]
  (m : Std.ExtTreeMap κ α)

theorem getElem?_insert (i j : κ) (a : α) : (m.insert i a)[j]? = if i = j then some a else m[j]? := by
  rw [Std.ExtTreeMap.getElem?_insert]
  simp only [Std.LawfulEqCmp.compare_eq_iff_eq]

theorem getElem?_erase (i j : κ) : (m.erase i)[j]? = if i = j then none else m[j]? := by
  rw [Std.ExtTreeMap.getElem?_erase]
  simp only [Std.LawfulEqCmp.compare_eq_iff_eq]

theorem getElem?_modify (i j : κ) (f : α → α) :
    (m.modify i f)[j]? = if i = j then m[j]?.map f else m[j]? := by
  rw [Std.ExtTreeMap.getElem?_modify]
  simp only [Std.LawfulEqCmp.compare_eq_iff_eq]
  split
  next h => rw [h]
  next => rfl

theorem erase_of_getElem? {i : κ} (h : m[i]? = none) : m.erase i = m := by
  refine Std.ExtTreeMap.ext_getElem? fun j => ?_
  rw [getElem?_erase]
  split
  next hij => rw [← hij, h]
  next => rfl

theorem getD_insert (i j : κ) (a b : α) : (m.insert i a).getD j b = if i = j then a else m.getD j b := by
  rw [Std.ExtTreeMap.getD_insert]
  simp only [Std.LawfulEqCmp.compare_eq_iff_eq]

omit [Std.LawfulEqOrd κ] [DecidableEq κ] in
theorem eq_or_mem_iff {m : Std.ExtTreeMap κ α} {i j : κ} (h : i ∈ m) : i = j ∨ j ∈ m ↔ j ∈ m :=
  or_iff_right_of_imp fun hj => hj ▸ h

omit [Std.LawfulEqOrd κ] [DecidableEq κ] in
theorem values_eq : m.values = m.toList.map Prod.snd := by
  have h : m.values = m.foldr (fun _ a l => a :: l) [] := by
    obtain ⟨⟨q⟩⟩ := m
    rfl
  rw [h, Std.ExtTreeMap.foldr_eq_foldr_toList]
  induction m.toList with
  | nil => rfl
  | cons x xs ih => simp [ih]

omit [Std.LawfulEqOrd κ] [DecidableEq κ] in
theorem length_values : m.values.length = m.size := by
  rw [values_eq, List.length_map, Std.ExtTreeMap.length_toList]

omit [DecidableEq κ] in
theorem mem_values {a : α} : a ∈ m.values ↔ ∃ k : κ, m[k]? = some a := by
  rw [values_eq, List.mem_map]
  constructor
  · rintro ⟨⟨k, b⟩, hm, rfl⟩
    exact ⟨k, Std.ExtTreeMap.mem_toList_iff_getElem?_eq_some.mp hm⟩
  · rintro ⟨k, hk⟩
    exact ⟨(k, a), Std.ExtTreeMap.mem_toList_iff_getElem?_eq_some.mpr hk, rfl⟩

omit [DecidableEq κ] in
/-- If each value tells its key, the values come in the order of the keys. -/
theorem pairwise_values {key : α → κ} (h : ∀ (k : κ) a, m[k]? = some a → key a = k) :
    m.values.Pairwise fun a b => compare (key a) (key b) = .lt := by
  have hordered := Std.ExtTreeMap.ordered_keys_toList (t := m)
  rw [values_eq, List.pairwise_map]
  refine hordered.imp_of_mem ?_
  intro x y hx hy hxy
  rw [h x.1 x.2 (Std.ExtTreeMap.mem_toList_iff_getElem?_eq_some.mp hx),
    h y.1 y.2 (Std.ExtTreeMap.mem_toList_iff_getElem?_eq_some.mp hy)]
  exact hxy

omit [DecidableEq κ] in
/-- The values that pass a test are as many as the keys of such values. -/
theorem length_filter_values {p : α → Bool} {l : List κ} (hl : l.Nodup)
    (h : ∀ k, k ∈ l ↔ ∃ a, m[k]? = some a ∧ p a = true) : (m.values.filter p).length = l.length := by
  rw [values_eq, List.filter_map, List.length_map, ← List.length_map (f := Prod.fst)]
  refine ((List.perm_ext_iff_of_nodup ?_ hl).mpr fun k => ?_).length_eq
  · refine List.Pairwise.map _ ?_ (Std.ExtTreeMap.distinct_keys_toList.filter _)
    rintro x y hne heq
    exact hne (Std.LawfulEqOrd.compare_eq_iff_eq.mpr heq)
  · rw [h, List.mem_map]
    constructor
    · rintro ⟨x, hx, rfl⟩
      obtain ⟨hx, hp⟩ := List.mem_filter.mp hx
      exact ⟨x.2, Std.ExtTreeMap.mem_toList_iff_getElem?_eq_some.mp hx, hp⟩
    · rintro ⟨a, ha, hp⟩
      exact ⟨(k, a), List.mem_filter.mpr ⟨Std.ExtTreeMap.mem_toList_iff_getElem?_eq_some.mpr ha, hp⟩, rfl⟩

section Nested

variable {κ' : Type} [Ord κ'] [Std.TransOrd κ'] [Std.LawfulEqOrd κ']
  {m : Std.ExtTreeMap κ (Std.ExtTreeMap κ' α)}

omit [DecidableEq κ] in
theorem mem_flatMap_values {a : α} :
    a ∈ m.values.flatMap (·.values) ↔ ∃ (k : κ) (n : Std.ExtTreeMap κ' α),
      m[k]? = some n ∧ ∃ k' : κ', n[k']? = some a := by
  simp only [List.mem_flatMap, mem_values]
  constructor
  · rintro ⟨n, ⟨k, hk⟩, ha⟩
    exact ⟨k, n, hk, ha⟩
  · rintro ⟨k, n, hk, ha⟩
    exact ⟨n, ⟨k, hk⟩, ha⟩

omit [Std.LawfulEqOrd κ] [Std.LawfulEqOrd κ'] [DecidableEq κ] in
theorem length_flatMap_values :
    (m.values.flatMap (·.values)).length = (m.values.map (·.size)).foldr (· + ·) 0 := by
  rw [List.length_flatMap]
  simp only [length_values]
  rfl

omit [Std.LawfulEqOrd κ'] [DecidableEq κ] in
/-- A map of maps lists its values in order, if each inner map does and the order of the outer keys goes
before that of the inner ones. -/
theorem pairwise_flatMap_values {R : α → α → Prop}
    (hin : ∀ (k : κ) (n : Std.ExtTreeMap κ' α), m[k]? = some n → n.values.Pairwise R)
    (hout : ∀ (k : κ) (n : Std.ExtTreeMap κ' α) (k' : κ) (n' : Std.ExtTreeMap κ' α), m[k]? = some n →
      m[k']? = some n' → compare k k' = .lt → ∀ a ∈ n.values, ∀ b ∈ n'.values, R a b) :
    (m.values.flatMap (·.values)).Pairwise R := by
  have hget : ∀ x ∈ m.toList, m[x.1]? = some x.2 := fun x hx =>
    Std.ExtTreeMap.mem_toList_iff_getElem?_eq_some.mp hx
  rw [values_eq, List.flatMap_map, List.pairwise_flatMap]
  constructor
  · exact fun x hx => hin x.1 x.2 (hget x hx)
  · refine Std.ExtTreeMap.ordered_keys_toList.imp_of_mem ?_
    exact fun hx hy hlt => hout _ _ _ _ (hget _ hx) (hget _ hy) hlt

end Nested

end Playfield.Map
