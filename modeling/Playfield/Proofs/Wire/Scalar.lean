import Playfield.Proofs.Json.Record
import Playfield.Wire.Scalar

/-! Numbers, powers and words in their JSON forms. What is read is a number that is not blank, or a
power or brightness from 0 to 1. -/
namespace Playfield

open Json (Codec)

/-- A double from 0 to 1. -/
def InUnit (x : Float) : Prop := x.isFinite = true ∧ 0.0 ≤ x ∧ x ≤ 1.0

theorem isUnit_iff {x : Float} : isUnit x = true ↔ InUnit x := by
  simp only [isUnit, InUnit, Bool.and_eq_true, decide_eq_true_eq, and_assoc]

def Number.Sound {kind : Kind} (n : Number kind) : Prop := Text.isBlank n.text = false

def Power.Sound (p : Power) : Prop := InUnit p.value

def Brightness.Sound (b : Brightness) : Prop := InUnit b.value

theorem Power.ofFloat?_eq_some {x : Float} {p : Power} : ofFloat? x = some p ↔ p.Sound ∧ p.value = x := by
  rw [ofFloat?, Option.ite_none_right_eq_some, isUnit_iff, Option.some_inj]
  constructor <;> rintro ⟨h, rfl⟩ <;> exact ⟨h, rfl⟩

theorem Brightness.ofFloat?_eq_some {x : Float} {b : Brightness} :
    ofFloat? x = some b ↔ b.Sound ∧ b.value = x := by
  rw [ofFloat?, Option.ite_none_right_eq_some, isUnit_iff, Option.some_inj]
  constructor <;> rintro ⟨h, rfl⟩ <;> exact ⟨h, rfl⟩

namespace Json.Codec

theorem ReadsBack.number {kind : Kind} (n : Number kind) : (Number.codec kind).ReadsBack n :=
  .refine (.string n.text) (dif_pos n.not_blank)

theorem ReadsBack.power {p : Power} (h : p.Sound) : Power.codec.ReadsBack p :=
  .refine (.float h.1) (if_pos (isUnit_iff.mpr h))

theorem ReadsBack.brightness {b : Brightness} (h : b.Sound) : Brightness.codec.ReadsBack b :=
  .refine (.float h.1) (if_pos (isUnit_iff.mpr h))

theorem ReadsBack.kind (k : Kind) : Kind.codec.ReadsBack k := .named (by cases k <;> decide)

theorem ReadsBack.actuationKind (k : ActuationKind) : ActuationKind.codec.ReadsBack k :=
  .named (by cases k <;> decide)

/-- The sorted array of a set of tags has just these tags. -/
theorem ReadsBack.tags (tags : Std.ExtTreeSet String) : tagsCodec.ReadsBack tags := by
  have hlist : (Codec.list .string).decode (.ofJson (.array (tags.toList.map .string))) = .ok tags.toList :=
    ReadsBack.list fun s _ => .string s
  simp only [ReadsBack, ofJson, tagsCodec, hlist, Except.map]
  congr 1
  ext tag
  rw [Std.ExtTreeSet.mem_ofList, List.contains_iff_mem, Std.ExtTreeSet.mem_toList]

theorem Yields.power {p : Power} (h : Power.codec.Yields p) : p.Sound := by
  obtain ⟨x, -, hx⟩ := Yields.refine h
  exact (Power.ofFloat?_eq_some.mp hx).1

theorem Yields.brightness {b : Brightness} (h : Brightness.codec.Yields b) : b.Sound := by
  obtain ⟨x, -, hx⟩ := Yields.refine h
  exact (Brightness.ofFloat?_eq_some.mp hx).1

end Json.Codec
end Playfield
