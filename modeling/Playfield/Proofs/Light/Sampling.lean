import Mathlib.Algebra.Order.Field.Basic
import Mathlib.Algebra.Order.Field.Rat
import Mathlib.Data.Nat.Cast.Order.Ring
import Mathlib.Tactic.GCongr
import Mathlib.Tactic.Linarith
import Mathlib.Tactic.NormNum
import Mathlib.Tactic.Ring
import Playfield.Proofs.Light.Order

/-! Fades reckoned in rational numbers, where nothing is rounded. A fade has done a part of its way at each
moment, from none to the whole, which never shrinks; the brightness is that part of the way from the start
to the target. -/
namespace Playfield

instance : Scalar ℚ where
  zero := 0
  one := 1
  ratio elapsed duration := elapsed / duration
  decidableLE := inferInstance
  decidableLT := inferInstance

instance : LawfulScalar ℚ where
  ratio_zero_le {n} _ _ := (zero_div (n : ℚ)).le
  not_one_le_ratio_zero {n} _ _ := by
    change ¬(1 : ℚ) ≤ ((0 : Nat) : ℚ) / n
    rw [Nat.cast_zero, zero_div]
    norm_num

/-- A brightness that a light can have. -/
def Brightness.Proper (b : Brightness ℚ) : Prop := 0 ≤ b.value ∧ b.value ≤ 1

namespace Scalar

variable {x start target part : ℚ}

theorem clamp_of_mem (h₀ : 0 ≤ x) (h₁ : x ≤ 1) : clamp x = x := by
  change (if x < 0 then 0 else if 1 < x then 1 else x) = x
  rw [if_neg (not_lt.mpr h₀), if_neg (not_lt.mpr h₁)]

/-- Between two brightnesses the clamp does nothing, and the ends need no case of their own. -/
theorem lerp_eq (hs : 0 ≤ start ∧ start ≤ 1) (ht : 0 ≤ target ∧ target ≤ 1) (h₀ : 0 ≤ part)
    (h₁ : part ≤ 1) : lerp start target part = start + (target - start) * part := by
  change (if 1 ≤ part then target else if part ≤ 0 then start
    else clamp (start + (target - start) * part)) = _
  split
  next h =>
    rw [le_antisymm h₁ h]
    ring
  next =>
    split
    next h =>
      rw [le_antisymm h h₀]
      ring
    next =>
      have hpart : start + (target - start) * part = start * (1 - part) + target * part := by ring
      have hrest : 0 ≤ 1 - part := sub_nonneg.mpr h₁
      rw [hpart]
      refine clamp_of_mem (add_nonneg (mul_nonneg hs.1 hrest) (mul_nonneg ht.1 h₀)) ?_
      calc start * (1 - part) + target * part
        _ ≤ 1 * (1 - part) + 1 * part := add_le_add (mul_le_mul_of_nonneg_right hs.2 hrest)
          (mul_le_mul_of_nonneg_right ht.2 h₀)
        _ = 1 := by ring

end Scalar

namespace Fade

variable {α : Type} {f : Fade ℚ} {t t₁ t₂ : UInt64}

/-- The part of its duration that a fade has run. -/
def progress [Scalar α] (f : Fade α) (now : UInt64) : α :=
  Scalar.ratio (f.elapsed now) f.durationMs.toNat

/-- The part of its way that a fade has done, which is the whole even if it has no duration. -/
def part (f : Fade ℚ) (now : UInt64) : ℚ := if f.isComplete now then 1 else f.progress now

theorem progress_eq : f.progress t = (f.elapsed t : ℚ) / f.durationMs.toNat := rfl

theorem isComplete_iff : f.isComplete t = true ↔ f.durationMs.toNat ≤ f.elapsed t := decide_eq_true_iff

theorem elapsed_mono (h : t₁ ≤ t₂) : f.elapsed t₁ ≤ f.elapsed t₂ :=
  Nat.sub_le_sub_right (UInt64.le_iff_toNat_le.mp h) _

/-- The division in a progress that is used is never by zero. -/
theorem duration_pos (h : f.isComplete t = false) : 0 < f.durationMs.toNat := by
  have hlt : ¬f.durationMs.toNat ≤ f.elapsed t := decide_eq_false_iff_not.mp h
  omega

theorem progress_nonneg : 0 ≤ f.progress t := div_nonneg (Nat.cast_nonneg _) (Nat.cast_nonneg _)

theorem progress_lt_one (h : f.isComplete t = false) : f.progress t < 1 := by
  have hlt : ¬f.durationMs.toNat ≤ f.elapsed t := decide_eq_false_iff_not.mp h
  rw [progress_eq, div_lt_one (by exact_mod_cast duration_pos h)]
  exact_mod_cast not_le.mp hlt

theorem part_mem : 0 ≤ f.part t ∧ f.part t ≤ 1 := by
  unfold part
  split
  next => exact ⟨zero_le_one, le_refl 1⟩
  next h => exact ⟨progress_nonneg, (progress_lt_one (Bool.eq_false_iff.mpr h)).le⟩

theorem part_mono (h : t₁ ≤ t₂) : f.part t₁ ≤ f.part t₂ := by
  cases h₂ : f.isComplete t₂ with
  | true =>
    rw [show f.part t₂ = 1 by rw [part, if_pos h₂]]
    exact part_mem.2
  | false =>
    have h₁ : f.isComplete t₁ = false := by
      rw [Bool.eq_false_iff, ne_eq, isComplete_iff] at h₂ ⊢
      have := elapsed_mono (f := f) h
      omega
    rw [part, part, if_neg (by simp [h₁]), if_neg (by simp [h₂]), progress_eq, progress_eq]
    gcongr
    exact elapsed_mono h

/-- Before the end a sample interpolates, also at the very start. -/
theorem sample_eq_lerp (h : f.isComplete t = false) : f.sample t = f.start.lerp f.target (f.progress t) :=
  if_neg (Bool.eq_false_iff.mp h)

theorem sample_of_complete (h : f.isComplete t = true) : f.sample t = f.target := if_pos h

/-- The brightness of a fade is its part of the way from the start to the target. -/
theorem value_sample (hs : f.start.Proper) (ht : f.target.Proper) (t : UInt64) :
    (f.sample t).value = f.start.value + (f.target.value - f.start.value) * f.part t := by
  cases h : f.isComplete t with
  | true =>
    rw [sample_of_complete h, part, if_pos h]
    ring
  | false =>
    rw [sample_eq_lerp h, part, if_neg (by simp [h])]
    exact Scalar.lerp_eq hs ht progress_nonneg (progress_lt_one h).le

/-- A fade goes from its start to its target, without a turn and without leaving the range between them. -/
structure Straight (f : Fade ℚ) : Prop where
  interpolates (t : UInt64) : f.isComplete t = false → f.durationMs.toNat ≠ 0 ∧ 0 ≤ f.progress t ∧
    f.progress t < 1 ∧ f.sample t = f.start.lerp f.target (f.progress t)
  starts (t : UInt64) : f.durationMs ≠ 0 → t ≤ f.startTime → f.sample t = f.start
  ends (t : UInt64) : f.durationMs.toNat ≤ t.toNat - f.startTime.toNat → f.sample t = f.target
  between (t : UInt64) : min f.start.value f.target.value ≤ (f.sample t).value ∧
    (f.sample t).value ≤ max f.start.value f.target.value
  rises : f.start.value ≤ f.target.value → ∀ t₁ t₂ : UInt64, t₁ ≤ t₂ →
    (f.sample t₁).value ≤ (f.sample t₂).value
  falls : f.target.value ≤ f.start.value → ∀ t₁ t₂ : UInt64, t₁ ≤ t₂ →
    (f.sample t₂).value ≤ (f.sample t₁).value

theorem Straight.of_proper (hs : f.start.Proper) (ht : f.target.Proper) : f.Straight where
  interpolates t h := ⟨(duration_pos h).ne', progress_nonneg, progress_lt_one h, sample_eq_lerp h⟩
  starts t hms hle := sample_of_le hms hle
  ends t h := sample_of_complete (isComplete_iff.mpr h)
  between t := by
    obtain ⟨h₀, h₁⟩ := part_mem (f := f) (t := t)
    rw [value_sample hs ht]
    rcases le_total f.start.value f.target.value with h | h
    · have hway : 0 ≤ f.target.value - f.start.value := sub_nonneg.mpr h
      have hdone := mul_nonneg hway h₀
      have hleft := mul_le_of_le_one_right hway h₁
      rw [min_eq_left h, max_eq_right h]
      constructor <;> linarith only [hdone, hleft]
    · have hway : f.target.value - f.start.value ≤ 0 := sub_nonpos.mpr h
      have hdone := mul_nonpos_of_nonpos_of_nonneg hway h₀
      have hleft := mul_le_mul_of_nonpos_left h₁ hway
      rw [mul_one] at hleft
      rw [min_eq_right h, max_eq_left h]
      constructor <;> linarith only [hdone, hleft]
  rises h t₁ t₂ hle := by
    rw [value_sample hs ht, value_sample hs ht]
    have hway : 0 ≤ f.target.value - f.start.value := sub_nonneg.mpr h
    exact add_le_add_right (mul_le_mul_of_nonneg_left (part_mono hle) hway) _
  falls h t₁ t₂ hle := by
    rw [value_sample hs ht, value_sample hs ht]
    have hway : f.target.value - f.start.value ≤ 0 := sub_nonpos.mpr h
    exact add_le_add_right (mul_le_mul_of_nonpos_left (part_mono hle) hway) _

/-- Every fade between two brightnesses is straight, whenever it begins and however long it lasts, and to
begin a fade that takes time changes nothing at that moment. -/
theorem runs_straight (f : Fade ℚ) (hs : f.start.Proper) (ht : f.target.Proper) : f.Straight ∧
    ∀ (c : LightChannel ℚ) (target : Brightness ℚ) (ms : UInt32) (now : UInt64), ms ≠ 0 →
      (c.startFade target ms now).brightnessAt now = c.brightnessAt now :=
  ⟨.of_proper hs ht, fun c target _ now hms => c.brightnessAt_startFade target hms now⟩

/-- A fade that begins a second before the last moment of the clock and would take half a second more. -/
theorem runs_straight_past_the_clock :
    let f : Fade ℚ := ⟨⟨1 / 4⟩, ⟨1⟩, 18446744073709550615, 1500⟩
    f.start.Proper ∧ f.target.Proper ∧ f.sample 0 = ⟨1 / 4⟩ ∧
      (f.sample 18446744073709551615).value = 3 / 4 ∧
      (f.sample 0).value ≤ (f.sample 18446744073709551615).value := by
  intro f
  have hs : f.start.Proper := by norm_num [Brightness.Proper, f]
  have ht : f.target.Proper := by norm_num [Brightness.Proper, f]
  obtain ⟨hstraight, -⟩ := runs_straight f hs ht
  refine ⟨hs, ht, hstraight.starts 0 (by decide) (by decide), ?_,
    hstraight.rises (by norm_num [f]) _ _ (by decide)⟩
  have hrunning : f.isComplete 18446744073709551615 = false := by decide
  have helapsed : f.elapsed 18446744073709551615 = 1000 := by decide
  have hduration : f.durationMs.toNat = 1500 := by decide
  rw [value_sample hs ht, part, if_neg (by simp [hrunning]), progress_eq, helapsed, hduration]
  norm_num [f]

end Fade
end Playfield
