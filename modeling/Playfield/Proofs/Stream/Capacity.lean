import Mathlib.Algebra.Group.Nat.Defs
import Mathlib.Order.Bounds.Basic
import Playfield.Proofs.Stream.Channel

/-! How many changes a stream keeps. The capacity that is asked for is raised to a power of two, and there
is a channel for these up to 2^62 only. -/
namespace Playfield

namespace ChangeStream

variable {n i : Nat}

theorem exists_powerAtLeast (n : Nat) : ∃ i, powerAtLeast n = 2 ^ i := by
  unfold powerAtLeast
  split
  · exact ⟨0, rfl⟩
  · exact ⟨_, rfl⟩

theorem le_powerAtLeast (n : Nat) : n ≤ powerAtLeast n := by
  unfold powerAtLeast
  split
  next h => exact h
  next => exact Nat.le_of_pred_lt Nat.lt_log2_self

theorem powerAtLeast_le_iff : powerAtLeast n ≤ 2 ^ i ↔ n ≤ 2 ^ i := by
  refine ⟨(le_powerAtLeast n).trans, fun h => ?_⟩
  unfold powerAtLeast
  split
  next => exact Nat.one_le_two_pow
  next hn =>
    have hlog : (n - 1).log2 < i := (Nat.log2_lt (by omega)).mpr (by omega)
    exact Nat.pow_le_pow_right (by decide) hlog

/-- The capacity of a stream is the least power of two that is at least what was asked for. -/
theorem isLeast_powerAtLeast (n : Nat) : IsLeast {k | n ≤ k ∧ ∃ i, k = 2 ^ i} (powerAtLeast n) := by
  refine ⟨⟨le_powerAtLeast n, exists_powerAtLeast n⟩, ?_⟩
  rintro _ ⟨hk, i, rfl⟩
  exact powerAtLeast_le_iff.mpr hk

/-- The next power of two above the greatest that a channel can keep is twice as much. -/
theorem powerAtLeast_le_maxCapacity : powerAtLeast n ≤ Channel.maxCapacity ↔ n ≤ 2 ^ 62 := by
  rw [← powerAtLeast_le_iff]
  obtain ⟨i, hi⟩ := exists_powerAtLeast n
  rw [hi, Nat.pow_le_pow_iff_right (by decide)]
  have hmax : Channel.maxCapacity = 2 ^ 63 - 1 := by decide
  rw [hmax, Nat.le_sub_one_iff_lt (by decide), Nat.pow_lt_pow_iff_right (by decide)]
  omega

theorem ofCapacity?_eq (n : Nat) :
    ofCapacity? n = if n ≤ 2 ^ 62 then some (.ofCapacity n) else none := by
  simp only [ofCapacity?, powerAtLeast_le_maxCapacity]

end ChangeStream
end Playfield
