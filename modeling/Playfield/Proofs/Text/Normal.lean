import Mathlib.Data.List.TakeWhile
import Playfield.Device

/-! Texts in normal form. No lower-case form has itself another one, or is blank, so that nothing is left to
trim or to lower once a text has been trimmed and lowered. -/
namespace Playfield

namespace Text

namespace LowerRun

/-- Whether it shows from the bounds that no form under this run is a character of the run `other`. -/
def isClearOf (run other : LowerRun) : Bool :=
  (run.lower + (run.last - run.first)).blt other.first || other.last.blt run.lower ||
    (run.stride == 2 || run.first == run.last) && other.stride == 2 &&
      (run.lower + other.first) % 2 == 1

/-- No form under this run has a code in a closed range. -/
def Avoids (run : LowerRun) (range : Nat × Nat) : Prop :=
  run.lower + (run.last - run.first) < range.1 ∨ range.2 < run.lower

instance (run : LowerRun) (range : Nat × Nat) : Decidable (run.Avoids range) :=
  inferInstanceAs (Decidable (_ ∨ _))

variable {run other : LowerRun} {code form : Nat}

theorem lower?_eq_some : run.lower? code = some form ↔
    (run.first ≤ code ∧ code ≤ run.last ∧ (code - run.first) % run.stride = 0) ∧
      run.lower + (code - run.first) = form := by
  rw [lower?, Option.ite_none_right_eq_some, Option.some_inj]

theorem lower?_of_isClearOf (h : run.isClearOf other = true) (hf : run.lower? code = some form) :
    other.lower? form = none := by
  obtain ⟨⟨hfirst, hlast, hstride⟩, rfl⟩ := lower?_eq_some.mp hf
  simp only [isClearOf, Bool.or_eq_true, Bool.and_eq_true, Nat.blt_eq, beq_iff_eq] at h
  rw [LowerRun.lower?, if_neg]
  rintro ⟨hfirst', hlast', hstride'⟩
  rcases h with (h | h) | ⟨⟨hs, hs'⟩, hodd⟩
  · omega
  · omega
  · -- Both runs take every second code, but one takes the even ones and the other one the odd ones.
    rw [hs'] at hstride'
    rcases hs with hs | hs
    · rw [hs] at hstride
      omega
    · omega

theorem Avoids.lower? {range : Nat × Nat} (h : run.Avoids range) (hf : run.lower? code = some form) :
    ¬(range.1 ≤ form ∧ form ≤ range.2) := by
  obtain ⟨⟨hfirst, hlast, -⟩, rfl⟩ := lower?_eq_some.mp hf
  rcases h with h | h <;> omega

end LowerRun

/-- Codes that no lower-case form has: those of blank characters and of the two capitals with rules of their
own, and those that are of no character. -/
def unlowered : List (Nat × Nat) :=
  [(0, 0x20), (0x85, 0x85), (0xA0, 0xA0), (0x130, 0x130), (0x3A3, 0x3A3), (0x1680, 0x1680),
    (0x2000, 0x205F), (0x3000, 0x3000), (0xD800, 0xDFFF)]

theorem lowerRuns_clear : (lowerRuns.all fun run => lowerRuns.all run.isClearOf) = true := by
  decide +kernel

theorem lowerRuns_avoid : ∀ run ∈ lowerRuns,
    (∀ range ∈ unlowered, run.Avoids range) ∧ run.lower + (run.last - run.first) < 0x110000 := by
  decide +kernel

theorem toNat_ofNat {n : Nat} (h : n.isValidChar) : (Char.ofNat n).toNat = n := by
  rw [Char.ofNat, dif_pos h]
  rfl

/-- A character that stays as it is when a text is lowered, wherever it stands. -/
structure IsLower (c : Char) : Prop where
  ne_sigma : c ≠ 'Σ'
  ne_dotted : c ≠ 'İ'
  fixed : lowerChar c = c

theorem lowerChar_of_none {c : Char} (h : ∀ run ∈ lowerRuns, run.lower? c.toNat = none) :
    lowerChar c = c := by
  have hnone : lowerRuns.findSome? (·.lower? c.toNat) = none := List.findSome?_eq_none_iff.mpr h
  rw [lowerChar, hnone]

/-- A character without a simple lower-case form stands for itself; the form of any other one has no
form itself, and is not among the codes that no form has. -/
theorem lowerChar_cases (c : Char) : lowerChar c = c ∨
    lowerChar (lowerChar c) = lowerChar c ∧ inRanges unlowered (lowerChar c).toNat = false := by
  cases hf : lowerRuns.findSome? (·.lower? c.toNat) with
  | none => exact .inl (lowerChar_of_none (List.findSome?_eq_none_iff.mp hf))
  | some form =>
      obtain ⟨run, hrun, hform⟩ := List.exists_of_findSome?_eq_some hf
      obtain ⟨havoids, hlt⟩ := lowerRuns_avoid run hrun
      have hout (range) (hr : range ∈ unlowered) : ¬(range.1 ≤ form ∧ form ≤ range.2) :=
        (havoids range hr).lower? hform
      have hvalid : form.isValidChar := by
        have hsurrogate := hout (0xD800, 0xDFFF) (by decide)
        obtain ⟨⟨-, hlast, -⟩, hsum⟩ := LowerRun.lower?_eq_some.mp hform
        simp only [Nat.isValidChar]
        omega
      have hcode : (lowerChar c).toNat = form := by
        rw [lowerChar, hf]
        exact toNat_ofNat hvalid
      refine .inr ⟨lowerChar_of_none fun other hother => ?_, ?_⟩
      · rw [hcode]
        have hclear := List.all_eq_true.mp (List.all_eq_true.mp lowerRuns_clear run hrun) other hother
        exact LowerRun.lower?_of_isClearOf hclear hform
      · rw [hcode, inRanges, List.any_eq_false]
        intro range hr
        simpa using hout range hr

theorem not_blank_of_lowered {c : Char} (h : inRanges unlowered c.toNat = false) :
    isBlankChar c = false := by
  simp [inRanges, unlowered] at h
  simp [isBlankChar]
  omega

theorem isLower_lowerChar {c : Char} (hs : c ≠ 'Σ') (hd : c ≠ 'İ') : IsLower (lowerChar c) := by
  rcases lowerChar_cases c with h | ⟨hfixed, hout⟩
  · rw [h]
    exact ⟨hs, hd, h⟩
  · refine ⟨?_, ?_, hfixed⟩
    · intro h
      rw [h] at hout
      revert hout
      decide
    · intro h
      rw [h] at hout
      revert hout
      decide

theorem not_blank_lowerChar {c : Char} (h : isBlankChar c = false) : isBlankChar (lowerChar c) = false := by
  rcases lowerChar_cases c with hc | ⟨-, hout⟩
  · rw [hc]
    exact h
  · exact not_blank_of_lowered hout

/-- What stands in a lowered text for a character. -/
structure FormOf (c : Char) (form : List Char) : Prop where
  ne_nil : form ≠ []
  lower : ∀ d ∈ form, IsLower d
  visible : isBlankChar c = false → ∀ d ∈ form, isBlankChar d = false

/-- The characters that the rules of their own for two capitals make. -/
def special : List Char := ['ς', 'σ', 'i', '\u0307']

theorem special_without_form :
    (lowerRuns.all fun run => special.all fun d => (run.lower? d.toNat).isNone) = true := by
  decide +kernel

theorem special_plain : ∀ d ∈ special, d ≠ 'Σ' ∧ d ≠ 'İ' ∧ isBlankChar d = false := by
  simp [special, isBlankChar]

theorem isLower_special {d : Char} (h : d ∈ special) : IsLower d := by
  obtain ⟨hs, hdot, -⟩ := special_plain d h
  refine ⟨hs, hdot, lowerChar_of_none fun run hrun => ?_⟩
  have hnone := List.all_eq_true.mp (List.all_eq_true.mp special_without_form run hrun) d h
  exact Option.isNone_iff_eq_none.mp hnone

theorem formOf_special {c : Char} {form : List Char} (hne : form ≠ []) (h : form ⊆ special) :
    FormOf c form where
  ne_nil := hne
  lower := fun _ hd => isLower_special (h hd)
  visible := fun _ _ hd => (special_plain _ (h hd)).2.2

theorem formOf_lowerChar {c : Char} (hs : c ≠ 'Σ') (hd : c ≠ 'İ') : FormOf c [lowerChar c] where
  ne_nil := List.cons_ne_nil _ _
  lower := by
    intro d hm
    rw [List.mem_singleton.mp hm]
    exact isLower_lowerChar hs hd
  visible := by
    intro hc d hm
    rw [List.mem_singleton.mp hm]
    exact not_blank_lowerChar hc

theorem lowerFrom_cons (before : List Char) (c : Char) (rest : List Char) :
    ∃ form, FormOf c form ∧ lowerFrom before (c :: rest) = form ++ lowerFrom (c :: before) rest := by
  refine ⟨_, ?_, rfl⟩
  split
  · refine formOf_special (List.cons_ne_nil _ _) ?_
    split <;> simp [special]
  · split
    · exact formOf_special (List.cons_ne_nil _ _) (by simp [special])
    · next hs hd => exact formOf_lowerChar hs hd

theorem lowerFrom_eq_nil_iff {before cs : List Char} : lowerFrom before cs = [] ↔ cs = [] := by
  cases cs with
  | nil => exact iff_of_true rfl rfl
  | cons c rest =>
      obtain ⟨form, hform, heq⟩ := lowerFrom_cons before c rest
      refine iff_of_false ?_ (List.cons_ne_nil c rest)
      rw [heq]
      exact List.append_ne_nil_of_left_ne_nil hform.ne_nil _

theorem isLower_lowerFrom (before cs : List Char) : ∀ d ∈ lowerFrom before cs, IsLower d := by
  induction cs generalizing before with
  | nil => exact fun d hd => absurd hd List.not_mem_nil
  | cons c rest ih =>
      obtain ⟨form, hform, heq⟩ := lowerFrom_cons before c rest
      intro d hd
      rw [heq, List.mem_append] at hd
      rcases hd with hd | hd
      · exact hform.lower d hd
      · exact ih (c :: before) d hd

theorem lowerFrom_eq_self {ds : List Char} (h : ∀ d ∈ ds, IsLower d) (before : List Char) :
    lowerFrom before ds = ds := by
  induction ds generalizing before with
  | nil => rfl
  | cons d rest ih =>
      have hd := h d List.mem_cons_self
      rw [lowerFrom, if_neg hd.ne_sigma, if_neg hd.ne_dotted, hd.fixed,
        ih (fun d hd => h d (List.mem_cons_of_mem _ hd))]
      rfl

/-- Neither the first nor the last character is blank. -/
structure Trimmed (cs : List Char) : Prop where
  first : ∀ c, cs.head? = some c → isBlankChar c = false
  last : ∀ c, cs.getLast? = some c → isBlankChar c = false

theorem head?_dropWhile_isBlankChar {cs : List Char} {c : Char}
    (h : (cs.dropWhile isBlankChar).head? = some c) : isBlankChar c = false := by
  have hnot := List.head?_dropWhile_not isBlankChar cs
  rw [h] at hnot
  exact hnot

theorem trimmed_trimChars (cs : List Char) : Trimmed (trimChars cs) where
  first := by
    intro c hc
    rw [trimChars, List.head?_reverse] at hc
    -- What is cut off at the end leaves the first character as it is.
    obtain ⟨cut, hcut⟩ := List.dropWhile_suffix isBlankChar (l := (cs.dropWhile isBlankChar).reverse)
    have hlast := congrArg List.getLast? hcut
    rw [List.getLast?_append, hc, Option.some_or, List.getLast?_reverse] at hlast
    exact head?_dropWhile_isBlankChar hlast.symm
  last := by
    intro c hc
    rw [trimChars, List.getLast?_reverse] at hc
    exact head?_dropWhile_isBlankChar hc

theorem dropWhile_isBlankChar_eq_self {cs : List Char}
    (h : ∀ c, cs.head? = some c → isBlankChar c = false) : cs.dropWhile isBlankChar = cs := by
  cases cs with
  | nil => rfl
  | cons c rest => rw [List.dropWhile_cons_of_neg (by simp [h c rfl])]

theorem Trimmed.trimChars_eq {cs : List Char} (h : Trimmed cs) : trimChars cs = cs := by
  rw [trimChars, dropWhile_isBlankChar_eq_self h.first, dropWhile_isBlankChar_eq_self,
    List.reverse_reverse]
  intro c hc
  rw [List.head?_reverse] at hc
  exact h.last c hc

theorem head?_lowerFrom {before cs : List Char} {d : Char}
    (h : ∀ c, cs.head? = some c → isBlankChar c = false) (hd : (lowerFrom before cs).head? = some d) :
    isBlankChar d = false := by
  cases cs with
  | nil => cases hd
  | cons c rest =>
      obtain ⟨form, hform, heq⟩ := lowerFrom_cons before c rest
      obtain ⟨e, more, rfl⟩ := List.exists_cons_of_ne_nil hform.ne_nil
      rw [heq] at hd
      cases hd
      exact hform.visible (h c rfl) _ List.mem_cons_self

theorem getLast?_lowerFrom {before cs : List Char} {d : Char}
    (h : ∀ c, cs.getLast? = some c → isBlankChar c = false)
    (hd : (lowerFrom before cs).getLast? = some d) : isBlankChar d = false := by
  induction cs generalizing before with
  | nil => cases hd
  | cons c rest ih =>
      obtain ⟨form, hform, heq⟩ := lowerFrom_cons before c rest
      rw [heq, List.getLast?_append] at hd
      cases hrest : (lowerFrom (c :: before) rest).getLast? with
      | some e =>
          rw [hrest, Option.some_or] at hd
          cases hd
          refine ih (fun c' hc' => h c' ?_) hrest
          rw [List.getLast?_cons, hc', Option.getD_some]
      | none =>
          -- Every character has a form, so nothing is left of a text only if there is none.
          have hnil : rest = [] := lowerFrom_eq_nil_iff.mp (List.getLast?_eq_none_iff.mp hrest)
          rw [hrest, Option.none_or] at hd
          exact hform.visible (h c (by rw [hnil]; rfl)) d (List.mem_of_getLast? hd)

theorem Trimmed.lowerFrom {cs : List Char} (h : Trimmed cs) : Trimmed (lowerFrom [] cs) :=
  ⟨fun _ => head?_lowerFrom h.first, fun _ => getLast?_lowerFrom h.last⟩

end Text

/-- The normal form of a text is its own normal form. -/
theorem normalize_normalize (s : String) : normalize (normalize s) = normalize s := by
  have htrimmed := (Text.trimmed_trimChars s.toList).lowerFrom
  simp only [normalize, Text.lowercase, Text.trim, String.toList_ofList, htrimmed.trimChars_eq,
    Text.lowerFrom_eq_self (Text.isLower_lowerFrom [] _)]

/-- Only of a blank text nothing is left. -/
theorem normalize_eq_empty_iff {s : String} : normalize s = "" ↔ Text.isBlank s = true := by
  rw [← Text.trim_eq_empty_iff, normalize, Text.lowercase, ← String.toList_inj, String.toList_ofList,
    String.toList_empty, Text.lowerFrom_eq_nil_iff, String.toList_eq_nil_iff]

end Playfield
