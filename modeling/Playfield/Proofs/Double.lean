import Mathlib.Algebra.Order.Group.Nat
import Mathlib.Order.Compare

/-! Which sums, differences and products of doubles are numbers, and how these compare. A result is reckoned on
unpacked doubles and then packed; rounding may take it to zero or to infinity, but never to NaN. Whole numbers
that are not too large are not rounded. -/
namespace Playfield.Double

open Float.Model (UnpackedFloat Format totalExponent)
open Float.Model.UnpackedFloat

section Unpacked

variable {f : Format} {u v : UnpackedFloat}

theorem dite_of_forall {α : Sort*} {c : Prop} [Decidable c] {P : α → Prop} {a : c → α} {b : ¬c → α}
    (ha : ∀ h, P (a h)) (hb : ∀ h, P (b h)) : P (dite c a b) := by
  by_cases h : c
  · rw [dif_pos h]
    exact ha h
  · rw [dif_neg h]
    exact hb h

theorem isNaN_of_isFinite (hu : u.isFinite = true) : u.isNaN = false := by
  cases u with
  | notANumber => cases hu
  | _ => rfl

/-- Only an exponent of all ones stands for what is not finite. -/
theorem isFinite_unpack {b : BitVec f.numBits} (hb : unpackExponent b ≠ -1#f.exponentBits) :
    (unpack f b).isFinite = true := by
  unfold unpack
  dsimp only
  rw [if_neg hb]
  by_cases hzero : unpackExponent b = 0#f.exponentBits
  · rw [if_pos hzero]
    exact dite_of_forall (P := (isFinite · = true)) (fun _ => rfl) fun _ => rfl
  · rw [if_neg hzero]
    rfl

theorem isNaN_unpack_packComponents {s : Sign} {e : BitVec f.exponentBits}
    {m : BitVec f.mantissaBitsWithoutImplicit} :
    (unpack f (packComponents f s e m)).isNaN = true ↔
      e = -1#f.exponentBits ∧ m ≠ 0#f.mantissaBitsWithoutImplicit := by
  by_cases he : e = -1#f.exponentBits
  · unfold unpack
    dsimp only
    rw [if_pos (unpackExponent_packComponents.trans he)]
    by_cases hm : m = 0#f.mantissaBitsWithoutImplicit
    · rw [if_pos (unpackMantissa_packComponents.trans hm)]
      exact iff_of_false Bool.false_ne_true fun h => h.2 hm
    · rw [if_neg fun h => hm (unpackMantissa_packComponents.symm.trans h)]
      exact iff_of_true rfl ⟨he, hm⟩
  · have hfinite := isFinite_unpack (b := packComponents f s e m)
      fun h => he (unpackExponent_packComponents.symm.trans h)
    rw [isNaN_of_isFinite hfinite]
    exact iff_of_false Bool.false_ne_true fun h => he h.1

/-- No number is packed as NaN. -/
theorem isNaN_unpack_pack (u : UnpackedFloat) :
    (unpack .binary64 (pack .binary64 u)).isNaN = u.isNaN := by
  cases u with
  | notANumber => decide
  | infinity s => cases s <;> decide
  | zero s => cases s <;> decide
  | finite s m e hm =>
    suffices hnot : (unpack .binary64 (pack .binary64 (finite s m e hm))).isNaN ≠ true from
      Bool.eq_false_iff.mpr hnot
    rw [pack.eq_def]
    dsimp only
    have hones {k : Nat} (hk : k + 1 < 2 ^ 11) : BitVec.ofNat 11 k ≠ -1#11 := by
      intro h
      have hnat := congrArg BitVec.toNat h
      rw [BitVec.toNat_ofNat, Nat.mod_eq_of_lt (by omega), show (-1#11).toNat = 2047 by decide] at hnat
      omega
    split
    next => cases s <;> decide
    next he =>
      split
      next => exact fun h => hones (Nat.not_le.mp he) (isNaN_unpack_packComponents.mp h).1
      next => exact fun h => absurd (isNaN_unpack_packComponents.mp h).1 (by decide)

theorem isNaN_roundWithAccuracy (s : Sign) (m : Nat) (e : Int) (a : Accuracy) :
    (roundWithAccuracy f s m e a).isNaN = false := by
  unfold roundWithAccuracy
  exact dite_of_forall (P := (isNaN · = false)) (fun _ => rfl) fun _ => rfl

theorem isNaN_normalize (m e : Int) (s : Sign) : (UnpackedFloat.normalize f m e s).isNaN = false := by
  unfold UnpackedFloat.normalize
  split
  · exact isNaN_roundWithAccuracy ..
  · rfl
  · exact isNaN_roundWithAccuracy ..

theorem isNaN_sub_unpacked (hu : u.isFinite = true) (hv : v.isFinite = true) : (sub f u v).isNaN = false := by
  cases u with
  | notANumber => cases hu
  | infinity s => cases hu
  | zero s =>
    cases v with
    | notANumber => cases hv
    | infinity t => cases hv
    | zero t => cases s <;> cases t <;> rfl
    | finite t n d hn => rfl
  | finite s m e hm =>
    cases v with
    | notANumber => cases hv
    | infinity t => cases hv
    | zero t => rfl
    | finite t n d hn => exact isNaN_normalize ..

theorem isNaN_add_unpacked (hu : u.isFinite = true) : (add f u v).isNaN = v.isNaN := by
  cases u with
  | notANumber => cases hu
  | infinity s => cases hu
  | zero s =>
    cases v with
    | zero t => cases s <;> cases t <;> rfl
    | _ => rfl
  | finite s m e hm =>
    cases v with
    | finite t n d hn => exact isNaN_normalize ..
    | _ => rfl

theorem isNaN_mul_unpacked {s : Sign} {m : Nat} {e : Int} {hm : 0 < m} :
    (mul f u (finite s m e hm)).isNaN = u.isNaN := by
  cases u with
  | finite t n d hn => exact isNaN_roundWithAccuracy ..
  | _ => rfl

theorem isNaN_mul_unpacked_of_isNaN (hv : v.isNaN = true) : (mul f u v).isNaN = true := by
  cases v with
  | notANumber => cases u <;> rfl
  | _ => cases hv

theorem compare_swap (u v : UnpackedFloat) : v.compare u = (u.compare v).map Ordering.swap := by
  have hfinite (m n : Nat) (e d : Int) :
      (compare d e).then (compare n m) = ((compare e d).then (compare m n)).swap := by
    rw [Ordering.swap_then, Int.compare_swap, Nat.compare_swap]
  rcases u with s | _ | s | ⟨s, m, e, hm⟩ <;> rcases v with t | _ | t | ⟨t, n, d, hn⟩
  all_goals try cases s
  all_goals try cases t
  -- The kinds and the signs decide, except for two finite numbers of one sign.
  all_goals first
    | rfl
    | exact congrArg some (hfinite m n e d)
    | exact congrArg some (congrArg Ordering.swap (hfinite m n e d))

theorem exists_compare (hu : u.isNaN = false) (hv : v.isNaN = false) : ∃ o, u.compare v = some o := by
  rcases u with s | _ | s | ⟨s, m, e, hm⟩ <;> rcases v with t | _ | t | ⟨t, n, d, hn⟩
  all_goals try cases s
  all_goals try cases t
  all_goals first | exact ⟨_, rfl⟩ | exact absurd hu (by decide) | exact absurd hv (by decide)

/-- Any two numbers can be compared. -/
theorem le_or_lt_unpacked (hu : u.isNaN = false) (hv : v.isNaN = false) :
    u.le v = true ∨ v.lt u = true := by
  obtain ⟨o, ho⟩ := exists_compare hu hv
  rw [UnpackedFloat.le, UnpackedFloat.lt, compare_swap u v, ho]
  cases o with
  | lt => exact .inl rfl
  | eq => exact .inl rfl
  | gt => exact .inr rfl

/-- What can be compared is a number. -/
theorem isNaN_of_le_unpacked (h : u.le v = true) : u.isNaN = false ∧ v.isNaN = false := by
  cases u <;> cases v <;> first | exact ⟨rfl, rfl⟩ | cases h

/-- Zero goes into whatever is not zero itself not even once. -/
theorem zero_div_unpacked {s : Sign} (hv : v.isNaN = false) (hz : ∀ t, v ≠ zero t) :
    ∃ t, div f (zero s) v = zero t := by
  cases v with
  | notANumber => cases hv
  | zero t => exact absurd rfl (hz t)
  | infinity t => exact ⟨s / t, rfl⟩
  | finite t n d hn => exact ⟨s / t, rfl⟩

theorem mantissaBits_binary64 : Format.binary64.mantissaBits = 53 := rfl

/-- A mantissa of full length is kept as it is. -/
theorem roundWithAccuracy_of_full {s : Sign} {m : Nat} {e : Int} (hm : m.log2 = 52) (he : -1074 ≤ e) :
    ∃ hpos, roundWithAccuracy .binary64 s m e .exact = finite s m e hpos := by
  have hpos : 0 < m := by
    rw [Nat.pos_iff_ne_zero]
    rintro rfl
    cases hm
  have htarget : Format.binary64.targetExponent (totalExponent m e) = e := by
    simp only [Format.targetExponent, totalExponent, hm, mantissaBits_binary64, Format.minExponent]
    omega
  -- So nothing is shifted, before the mantissa is rounded and after.
  have hshift : (e - e).toNat = 0 := by omega
  have hkept : shiftToTargetExponent .binary64 m e .exact = (⟨m, false, false⟩, e) := by
    unfold shiftToTargetExponent shiftToExponent
    rw [htarget]
    dsimp only
    rw [hshift]
    exact Prod.ext rfl (Int.add_zero e)
  have hround : ExtendedMantissa.roundedMantissa ⟨m, false, false⟩ = m := rfl
  refine ⟨hpos, ?_⟩
  unfold roundWithAccuracy
  rw [hkept]
  dsimp only
  rw [hround, hkept]
  exact dif_neg hpos.ne'

theorem log2_mul_two_pow {n : Nat} (hn : 0 < n) (k : Nat) : (n * 2 ^ k).log2 = n.log2 + k := by
  have hpos : 0 < 2 ^ k := Nat.two_pow_pos k
  rw [Nat.log2_eq_iff (Nat.mul_pos hn hpos).ne', Nat.pow_add, Nat.add_right_comm, Nat.pow_add]
  exact ⟨Nat.mul_le_mul_right _ (Nat.log2_self_le hn.ne'), Nat.mul_lt_mul_of_pos_right Nat.lt_log2_self hpos⟩

/-- A natural number of at most 53 digits is a double, written with a mantissa of full length. -/
theorem ofNat_eq_finite {n : Nat} (hpos : 0 < n) (hlt : n < 2 ^ 53) :
    ∃ m e hm, UnpackedFloat.ofNat .binary64 n = finite .positive m e hm ∧ m.log2 = 52 ∧ -1074 ≤ e := by
  have hlog : n.log2 ≤ 52 := Nat.lt_succ_iff.mp ((Nat.log2_lt hpos.ne').mpr hlt)
  have htarget : Format.binary64.targetExponent (totalExponent n 0) = (n.log2 : Int) - 52 := by
    simp only [Format.targetExponent, totalExponent, mantissaBits_binary64, Format.minExponent]
    omega
  have hshift : (0 - ((n.log2 : Int) - 52)).toNat = 52 - n.log2 := by omega
  have hfull : (n <<< (52 - n.log2)).log2 = 52 := by
    rw [Nat.shiftLeft_eq, log2_mul_two_pow hpos]
    omega
  have hsign : compare (n : Int) 0 = .gt := compare_gt_iff_gt.mpr (by exact_mod_cast hpos)
  obtain ⟨hm, hround⟩ :=
    roundWithAccuracy_of_full (s := .positive) (e := 0 - ((52 - n.log2 : Nat) : Int)) hfull (by omega)
  have hofNat : UnpackedFloat.ofNat .binary64 n = roundWithAccuracy .binary64 .positive
      (n <<< (52 - n.log2)) (0 - ((52 - n.log2 : Nat) : Int)) .exact := by
    simp only [UnpackedFloat.ofNat, ofInt, UnpackedFloat.normalize, hsign, Int.toNat_natCast,
      UnpackedFloat.round, htarget, decreaseExponent, hshift]
  exact ⟨_, _, hm, hofNat.trans hround, hfull, by omega⟩

theorem unpack_packComponents_ne_zero {s t : Sign} {e : BitVec f.exponentBits}
    {m : BitVec f.mantissaBitsWithoutImplicit} (he : e ≠ 0) : unpack f (packComponents f s e m) ≠ zero t := by
  have hzero : unpackExponent (packComponents f s e m) ≠ 0#f.exponentBits := fun h =>
    he (unpackExponent_packComponents.symm.trans h)
  unfold unpack
  dsimp only
  by_cases hones : unpackExponent (packComponents f s e m) = -1#f.exponentBits
  · rw [if_pos hones]
    exact iteInduction (motive := (· ≠ zero t)) (fun _ h => nomatch h) fun _ h => nomatch h
  · rw [if_neg hones, if_neg hzero]
    exact fun h => nomatch h

/-- No number with a mantissa of full length is packed as zero. -/
theorem unpack_pack_ne_zero {s t : Sign} {m : Nat} {e : Int} {hpos : 0 < m} (hm : m.log2 = 52)
    (he : -1074 ≤ e) : unpack .binary64 (pack .binary64 (finite s m e hpos)) ≠ zero t := by
  rw [pack.eq_def]
  dsimp only
  split
  next => exact fun h => absurd (congrArg isFinite h) (by cases s <;> cases t <;> decide)
  next hlarge =>
    rw [if_pos (by rw [hm]; rfl)]
    refine unpack_packComponents_ne_zero fun h => ?_
    have hnat : (e + 1023 + 52).toNat % 2 ^ 11 = 0 := congrArg BitVec.toNat h
    change ¬2 ^ 11 ≤ (e + 1023 + 52).toNat + 1 at hlarge
    rw [Nat.mod_eq_of_lt (by omega)] at hnat
    omega

end Unpacked

section Packed

variable {x y : Float}

theorem isNaN_sub (hx : x.isFinite = true) (hy : y.isFinite = true) : (x - y).isNaN = false :=
  (isNaN_unpack_pack _).trans (isNaN_sub_unpacked hx hy)

theorem isNaN_add (hx : x.isFinite = true) : (x + y).isNaN = y.isNaN :=
  (isNaN_unpack_pack _).trans (isNaN_add_unpacked hx)

theorem unpack_zero : (0.0 : Float).toModel.unpack = zero .positive := rfl

theorem unpack_one : (1.0 : Float).toModel.unpack = finite .positive 4503599627370496 (-52) (by decide) := rfl

theorem lt_iff : x < y ↔ x.toModel.unpack.lt y.toModel.unpack = true := decide_eq_true_iff

theorem le_iff : x ≤ y ↔ x.toModel.unpack.le y.toModel.unpack = true := decide_eq_true_iff

theorem le_of_lt (h : x < y) : x ≤ y := by
  rw [lt_iff, UnpackedFloat.lt, beq_iff_eq] at h
  rw [le_iff, UnpackedFloat.le, h]
  rfl

theorem le_or_lt (hx : x.isNaN = false) (hy : y.isNaN = false) : x ≤ y ∨ y < x := by
  rw [le_iff, lt_iff]
  exact le_or_lt_unpacked hx hy

theorem isNaN_of_le (h : x ≤ y) : x.isNaN = false ∧ y.isNaN = false :=
  isNaN_of_le_unpacked (le_iff.mp h)

theorem isFinite_of_le_of_le (h0 : 0.0 ≤ x) (h1 : x ≤ 1.0) : x.isFinite = true := by
  rw [le_iff, unpack_zero] at h0
  rw [le_iff, unpack_one] at h1
  change x.toModel.unpack.isFinite = true
  cases hu : x.toModel.unpack with
  | notANumber =>
    rw [hu] at h0
    cases h0
  | infinity s =>
    rw [hu] at h0 h1
    cases s with
    | negative => cases h0
    | positive => cases h1
  | zero s => rfl
  | finite s m e hm => rfl

/-- A number times one between 0 and 1 is a number, even if it is infinite. -/
theorem isNaN_mul (h0 : 0.0 < y) (h1 : y < 1.0) : (x * y).isNaN = x.isNaN := by
  have hfinite : y.toModel.unpack.isFinite = true := isFinite_of_le_of_le (le_of_lt h0) (le_of_lt h1)
  rw [lt_iff, unpack_zero] at h0
  have hunpack : ∃ s m e hm, y.toModel.unpack = finite s m e hm := by
    cases hu : y.toModel.unpack with
    | notANumber =>
      rw [hu] at hfinite
      cases hfinite
    | infinity s =>
      rw [hu] at hfinite
      cases hfinite
    | zero s =>
      rw [hu] at h0
      cases h0
    | finite s m e hm => exact ⟨s, m, e, hm, rfl⟩
  obtain ⟨s, m, e, hm, hu⟩ := hunpack
  refine (isNaN_unpack_pack _).trans ?_
  rw [hu]
  exact isNaN_mul_unpacked

theorem isNaN_mul_of_isNaN (hy : y.isNaN = true) : (x * y).isNaN = true :=
  (isNaN_unpack_pack _).trans (isNaN_mul_unpacked_of_isNaN hy)

theorem unpack_toFloat {n : UInt64} (hpos : 0 < n.toNat) (hlt : n.toNat < 2 ^ 53) :
    n.toFloat.isNaN = false ∧ ∀ t, n.toFloat.toModel.unpack ≠ zero t := by
  obtain ⟨m, e, hm, hfinite, hfull, he⟩ := ofNat_eq_finite hpos hlt
  have hunpack : n.toFloat.toModel.unpack = unpack .binary64 (pack .binary64 (finite .positive m e hm)) := by
    rw [← hfinite]
    rfl
  refine ⟨?_, fun t => ?_⟩
  · change n.toFloat.toModel.unpack.isNaN = false
    rw [hunpack, isNaN_unpack_pack]
    rfl
  · rw [hunpack]
    exact unpack_pack_ne_zero hfull he

/-- No part has passed of a time that is not nothing. -/
theorem zero_div_toFloat {n : UInt64} (hpos : 0 < n.toNat) (hlt : n.toNat < 2 ^ 53) :
    (0.0 / n.toFloat : Float) ≤ 0.0 ∧ ¬1.0 ≤ (0.0 / n.toFloat : Float) := by
  obtain ⟨hnan, hzero⟩ := unpack_toFloat hpos hlt
  obtain ⟨t, ht⟩ := zero_div_unpacked (f := .binary64) (s := .positive) hnan hzero
  have hquotient : (0.0 / n.toFloat : Float).toModel.unpack = unpack .binary64 (pack .binary64 (zero t)) := by
    rw [← ht]
    rfl
  rw [le_iff, le_iff, hquotient]
  cases t <;> decide

end Packed
end Playfield.Double
