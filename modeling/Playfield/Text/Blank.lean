/-! Blank text. A character is blank when it has the property `White_Space`; `trim` cuts blank
characters off both ends, and a text is blank when nothing is left. -/
namespace Playfield.Text

/-- The characters with the property `White_Space`. -/
def isBlankChar (c : Char) : Bool :=
  let code := c.toNat
  (9 ≤ code && code ≤ 13) || code == 0x20 || code == 0x85 || code == 0xA0 || code == 0x1680
    || (0x2000 ≤ code && code ≤ 0x200A) || code == 0x2028 || code == 0x2029 || code == 0x202F
    || code == 0x205F || code == 0x3000

/-- Every character that is white space in ASCII is blank. -/
theorem isBlankChar_of_isWhitespace {c : Char} (h : c.isWhitespace) : isBlankChar c := by
  simp only [Char.isWhitespace, Bool.or_eq_true, decide_eq_true_eq] at h
  rcases h with ((rfl | rfl) | rfl) | rfl <;> decide

/-- `cs` without the blank characters at either end. -/
def trimChars (cs : List Char) : List Char :=
  ((cs.dropWhile isBlankChar).reverse.dropWhile isBlankChar).reverse

def trim (s : String) : String := .ofList (trimChars s.toList)

def isBlank (s : String) : Bool := s.toList.all isBlankChar

theorem dropWhile_isBlankChar_eq_nil {cs : List Char} :
    cs.dropWhile isBlankChar = [] ↔ ∀ c ∈ cs, isBlankChar c = true := by
  induction cs with
  | nil => simp
  | cons c rest ih =>
    cases h : isBlankChar c
    · simp [h]
    · simp [h, ih]

theorem trimChars_eq_nil_iff {cs : List Char} :
    trimChars cs = [] ↔ ∀ c ∈ cs, isBlankChar c = true := by
  rw [trimChars, List.reverse_eq_nil_iff, dropWhile_isBlankChar_eq_nil]
  constructor
  · intro h
    refine dropWhile_isBlankChar_eq_nil.mp ?_
    cases hd : cs.dropWhile isBlankChar with
    | nil => rfl
    | cons c rest =>
      have hc := List.head?_dropWhile_not isBlankChar cs
      rw [hd] at hc h
      have hb := h c (by simp)
      simp_all
  · exact fun h c hc => h c ((List.dropWhile_sublist _).subset (List.mem_reverse.mp hc))

theorem trim_eq_empty_iff {s : String} : trim s = "" ↔ isBlank s = true := by
  unfold trim isBlank
  rw [List.all_eq_true, ← trimChars_eq_nil_iff, ← String.toList_inj]
  simp

end Playfield.Text
