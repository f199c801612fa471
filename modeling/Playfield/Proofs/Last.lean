import Mathlib.Data.List.Basic

/-! The last item of a list for each place. Where later entries take the place of earlier ones, it is these that
stand in the end. -/
namespace Playfield

/-- The item is in the list, and none after it has its place. -/
def IsLast {α κ : Type} (place : α → κ) (l : List α) (a : α) : Prop :=
  ∃ before after, l = before ++ a :: after ∧ ∀ b ∈ after, place b ≠ place a

theorem isLast_concat {α κ : Type} {place : α → κ} {l : List α} {new a : α} :
    IsLast place (l ++ [new]) a ↔ a = new ∨ place new ≠ place a ∧ IsLast place l a := by
  constructor
  · rintro ⟨before, after, hl, hafter⟩
    rcases List.eq_nil_or_concat after with rfl | ⟨after, last, rfl⟩
    · exact .inl (List.append_inj' hl rfl |>.2 |> List.cons.inj).1.symm
    · obtain ⟨rfl, hlast⟩ := List.append_inj' (hl.trans (by simp : _ = (before ++ a :: after) ++ [last])) rfl
      cases hlast
      exact .inr ⟨hafter new (by simp), before, after, rfl, fun b hb => hafter b (by simp [hb])⟩
  · rintro (rfl | ⟨hne, before, after, rfl, hafter⟩)
    · exact ⟨l, [], rfl, by simp⟩
    · refine ⟨before, after ++ [new], by simp, fun b hb => ?_⟩
      rcases List.mem_append.mp hb with hb | hb
      · exact hafter b hb
      · rwa [List.mem_singleton.mp hb]

/-- Where a value takes the place of any other for it, the values that are there are those of the last items
for their places. -/
theorem IsLast.write {α β κ ε : Type} {place : α → κ} {placeOf : β → κ} {check : α → Except ε β}
    {l : List α} {held held' : β → Prop} {new : α} {value : β}
    (hplace : ∀ a b, check a = .ok b → placeOf b = place a)
    (hheld : ∀ b, held b ↔ ∃ a, IsLast place l a ∧ check a = .ok b) (hnew : check new = .ok value)
    (hwritten : ∀ b, placeOf value = placeOf b → (held' b ↔ b = value))
    (hkept : ∀ b, placeOf value ≠ placeOf b → (held' b ↔ held b)) (b : β) :
    held' b ↔ ∃ a, IsLast place (l ++ [new]) a ∧ check a = .ok b := by
  by_cases hsame : placeOf value = placeOf b
  · rw [hwritten b hsame]
    constructor
    · rintro rfl
      exact ⟨new, isLast_concat.mpr (.inl rfl), hnew⟩
    · rintro ⟨a, hlast, ha⟩
      rcases isLast_concat.mp hlast with rfl | ⟨hne, -⟩
      · exact Except.ok.inj (ha.symm.trans hnew)
      · rw [← hplace _ _ hnew, hsame, hplace _ _ ha] at hne
        exact absurd rfl hne
  · rw [hkept b hsame, hheld]
    constructor
    · rintro ⟨a, hlast, ha⟩
      refine ⟨a, isLast_concat.mpr (.inr ⟨fun he => hsame ?_, hlast⟩), ha⟩
      rw [hplace _ _ hnew, he, hplace _ _ ha]
    · rintro ⟨a, hlast, ha⟩
      rcases isLast_concat.mp hlast with rfl | ⟨-, hlast⟩
      · cases hnew.symm.trans ha
        exact absurd rfl hsame
      · exact ⟨a, hlast, ha⟩

end Playfield
