import Playfield.Check
import Playfield.Proofs.Double
import Playfield.Proofs.Wire.Scalar

/-! Powers and brightnesses stay between 0 and 1. The checks see to it where they are made from doubles, and
so does the interpolation between two brightnesses, unless it is asked for a point that is not a number. At
the beginning of the way it gives the brightness that the way begins with. -/
namespace Playfield

/-- Scalars in which the part that nothing is of a duration counts as nothing, however it is rounded. -/
class LawfulScalar (α : Type) [Scalar α] : Prop where
  ratio_zero_le {n : Nat} : 0 < n → n < 2 ^ 32 → (Scalar.ratio 0 n : α) ≤ Scalar.zero
  not_one_le_ratio_zero {n : Nat} : 0 < n → n < 2 ^ 32 → ¬(Scalar.one : α) ≤ Scalar.ratio 0 n

theorem Scalar.lerp_ratio_zero {α : Type} [Scalar α] [LawfulScalar α] (start target : α) {n : Nat}
    (hpos : 0 < n) (hlt : n < 2 ^ 32) : lerp start target (ratio 0 n) = start := by
  rw [lerp, if_neg (LawfulScalar.not_one_le_ratio_zero hpos hlt), if_pos (LawfulScalar.ratio_zero_le hpos hlt)]

theorem Double.ratio_zero {n : Nat} (hpos : 0 < n) (hlt : n < 2 ^ 32) :
    (Scalar.ratio 0 n : Float) ≤ 0.0 ∧ ¬1.0 ≤ (Scalar.ratio 0 n : Float) := by
  have hn : n.toUInt64.toNat = n := Nat.mod_eq_of_lt (by omega)
  exact zero_div_toFloat (n := n.toUInt64) (by omega) (by omega)

instance : LawfulScalar Float where
  ratio_zero_le hpos hlt := (Double.ratio_zero hpos hlt).1
  not_one_le_ratio_zero hpos hlt := (Double.ratio_zero hpos hlt).2

theorem InUnit.isNaN {x : Float} (h : InUnit x) : x.isNaN = false := (Double.isNaN_of_le h.2.1).2

namespace Scalar

variable {x start target progress : Float}

theorem inUnit_clamp (hx : x.isNaN = false) : InUnit (clamp x) := by
  unfold clamp
  split
  next => exact isUnit_iff.mp rfl
  next hzero =>
    split
    next => exact isUnit_iff.mp rfl
    next hone =>
      have h0 : 0.0 ≤ x := (Double.le_or_lt rfl hx).resolve_right hzero
      have h1 : x ≤ 1.0 := (Double.le_or_lt hx rfl).resolve_right hone
      exact ⟨Double.isFinite_of_le_of_le h0 h1, h0, h1⟩

theorem inUnit_lerp (hs : InUnit start) (ht : InUnit target) (hp : progress.isNaN = false) :
    InUnit (lerp start target progress) := by
  unfold lerp
  split
  next => exact ht
  next hone =>
    split
    next => exact hs
    next hzero =>
      have h0 : 0.0 < progress := (Double.le_or_lt hp rfl).resolve_left hzero
      have h1 : progress < 1.0 := (Double.le_or_lt rfl hp).resolve_left hone
      refine inUnit_clamp ?_
      rw [Double.isNaN_add hs.1, Double.isNaN_mul h0 h1, Double.isNaN_sub ht.1 hs.1]

/-- Neither of the comparisons catches a progress that is not a number, and neither does the clamp. -/
theorem isNaN_lerp (hs : InUnit start) (hp : progress.isNaN = true) :
    (lerp start target progress).isNaN = true := by
  have hne {x y : Float} (h : x ≤ y) : x.isNaN ≠ true ∧ y.isNaN ≠ true :=
    (Double.isNaN_of_le h).imp Bool.eq_false_iff.mp Bool.eq_false_iff.mp
  have hsum : (start + (target - start) * progress).isNaN = true := by
    rw [Double.isNaN_add hs.1, Double.isNaN_mul_of_isNaN hp]
  unfold lerp clamp
  rw [if_neg fun h => (hne h).2 hp, if_neg fun h => (hne h).1 hp,
    if_neg fun h => (hne (Double.le_of_lt h)).1 hsum, if_neg fun h => (hne (Double.le_of_lt h)).2 hsum]
  exact hsum

end Scalar

/-- The powers that can be made: by the constructor, by the check on a field of a request, and by reading a
document. -/
inductive Power.Obtainable : Power → Prop
  | made {x p} : ofFloat? x = some p → Obtainable p
  | checked {field x p} : Check.power field x = .ok p → Obtainable p
  | decoded {p} : codec.Yields p → Obtainable p

/-- The brightnesses that can be made: in the ways of a power, and between two others at a progress that is a
number. -/
inductive Brightness.Obtainable : Brightness → Prop
  | made {x b} : ofFloat? x = some b → Obtainable b
  | checked {field x b} : Check.brightness field x = .ok b → Obtainable b
  | decoded {b} : codec.Yields b → Obtainable b
  | between {start target progress} : Obtainable start → Obtainable target → progress.isNaN = false →
      Obtainable (start.lerp target progress)

/-- Just the powers from 0 to 1 can be made. -/
theorem Power.obtainable_iff {p : Power} : p.Obtainable ↔ p.Sound := by
  constructor
  · intro h
    cases h with
    | made h => exact (ofFloat?_eq_some.mp h).1
    | checked h =>
      unfold Check.power at h
      split at h
      next q hq => exact Except.ok.inj h ▸ (ofFloat?_eq_some.mp hq).1
      next => cases h
    | decoded h => exact Json.Codec.Yields.power h
  · exact fun h => .made (ofFloat?_eq_some.mpr ⟨h, rfl⟩)

/-- Just the brightnesses from 0 to 1 can be made. -/
theorem Brightness.obtainable_iff {b : Brightness} : b.Obtainable ↔ b.Sound := by
  constructor
  · intro h
    induction h with
    | made h => exact (ofFloat?_eq_some.mp h).1
    | checked h =>
      unfold Check.brightness at h
      split at h
      next q hq => exact Except.ok.inj h ▸ (ofFloat?_eq_some.mp hq).1
      next => cases h
    | decoded h => exact Json.Codec.Yields.brightness h
    | between _ _ hp hs ht => exact Scalar.inUnit_lerp hs ht hp
  · exact fun h => .made (ofFloat?_eq_some.mpr ⟨h, rfl⟩)

namespace Brightness

/-- All powers and brightnesses that can be made are from 0 to 1, and no more than these. Between two
brightnesses there is one from 0 to 1 at every progress that is a number, be it infinite; at one that is not,
there is none. -/
theorem lerp_sound_iff {start target : Brightness} (hs : start.Obtainable) (ht : target.Obtainable)
    (progress : Float) :
    (∀ p : Power, p.Obtainable ↔ InUnit p.value) ∧ (∀ b : Brightness, b.Obtainable ↔ InUnit b.value) ∧
      (InUnit (start.lerp target progress).value ↔ progress.isNaN = false) ∧
      (start.lerp target progress).value.isNaN = progress.isNaN := by
  refine ⟨fun p => Power.obtainable_iff, fun b => obtainable_iff, ?_⟩
  have hs : InUnit start.value := obtainable_iff.mp hs
  have ht : InUnit target.value := obtainable_iff.mp ht
  cases hp : progress.isNaN with
  | false =>
    have hunit : InUnit (start.lerp target progress).value := Scalar.inUnit_lerp hs ht hp
    exact ⟨iff_of_true hunit rfl, hunit.isNaN⟩
  | true =>
    have hnan : (start.lerp target progress).value.isNaN = true := Scalar.isNaN_lerp hs hp
    refine ⟨iff_of_false (fun hunit => ?_) Bool.noConfusion, hnan⟩
    exact Bool.noConfusion (hunit.isNaN.symm.trans hnan)

theorem lerp_sound_iff_infinite :
    let dim : Brightness := ⟨0.25⟩
    let bright : Brightness := ⟨0.75⟩
    dim.Obtainable ∧ bright.Obtainable ∧ InUnit (dim.lerp bright (1.0 / 0.0)).value ∧
      dim.lerp bright (1.0 / 0.0) = bright ∧ dim.lerp bright (-1.0 / 0.0) = dim ∧
      InUnit (dim.lerp bright 0.5).value ∧ dim.lerp bright 0.5 = ⟨0.5⟩ := by
  intro dim bright
  have hdim : dim.Obtainable := obtainable_iff.mpr (isUnit_iff.mp (by decide))
  have hbright : bright.Obtainable := obtainable_iff.mpr (isUnit_iff.mp (by decide))
  have hinfinite := (lerp_sound_iff hdim hbright (1.0 / 0.0)).2.2.1
  have hhalf := (lerp_sound_iff hdim hbright 0.5).2.2.1
  exact ⟨hdim, hbright, hinfinite.mpr rfl, by decide, by decide, hhalf.mpr rfl, by decide⟩

/-- Half a light that fades to half a light, at a progress of 0 / 0. -/
theorem lerp_not_a_number :
    let half : Brightness := ⟨0.5⟩
    half.Obtainable ∧ ¬InUnit (half.lerp half (0.0 / 0.0)).value := by
  exact ⟨obtainable_iff.mpr (isUnit_iff.mp (by decide)), mt isUnit_iff.mpr (by decide)⟩

end Brightness
end Playfield
