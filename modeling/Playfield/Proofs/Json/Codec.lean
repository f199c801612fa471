import Playfield.Json.Codec

/-! What codecs keep. Two things are told of a codec and a value: whether the value is read back from
its own document, and whether it can be read from anything at all. Both pass from the parts of a value
to the whole. -/
namespace Playfield.Json

theorem bind_ok {α β : Type} {x : Except Fault α} {f : α → Except Fault β} {b : β}
    (h : x >>= f = .ok b) : ∃ a, x = .ok a ∧ f a = .ok b := by
  cases x with
  | error fault => cases h
  | ok a => exact ⟨a, rfl, h⟩

theorem map_ok {α β : Type} {x : Except Fault α} {f : α → β} {b : β} (h : x.map f = .ok b) :
    ∃ a, x = .ok a ∧ f a = b := by
  cases x with
  | error fault => cases h
  | ok a => exact ⟨a, rfl, Except.ok.inj h⟩

namespace Codec

variable {α β : Type} {c : Codec α}

/-- The value is read back from its own document. -/
def ReadsBack (c : Codec α) (a : α) : Prop := c.ofJson (c.encode a) = .ok a

/-- The value can be read from some draft, be it the draft of a document or not. -/
def Yields (c : Codec α) (a : α) : Prop := ∃ d, c.decode d = .ok a

/-- Values that are fit for it are read back from their documents, and only sound values are read from
any document. -/
structure Lawful (c : Codec α) (Fit Sound : α → Prop) : Prop where
  reads_back : ∀ a, Fit a → c.ofJson (c.encode a) = .ok a
  reads_sound : ∀ (j : Json) (a : α), c.ofJson j = .ok a → Sound a

theorem Lawful.of_yields {Fit Sound : α → Prop} (hfit : ∀ a, Fit a → c.ReadsBack a)
    (hsound : ∀ a, c.Yields a → Sound a) : c.Lawful Fit Sound :=
  ⟨hfit, fun j a h => hsound a ⟨.ofJson j, h⟩⟩

theorem ReadsBack.string (s : String) : string.ReadsBack s := rfl

theorem ReadsBack.bool (b : Bool) : bool.ReadsBack b := rfl

theorem ReadsBack.float {x : Float} (h : x.isFinite = true) : float.ReadsBack x := by
  simp only [ReadsBack, ofJson, Codec.float, Json.ofFloat, h, if_true, Draft.ofJson]

section Integers

variable {write : α → Int} {read? : Int → Option α} {a : α}

theorem ReadsBack.integer (h : read? (write a) = some a) : (integer write read?).ReadsBack a := by
  simp only [ReadsBack, ofJson, Codec.integer, Draft.ofJson, h, Option.elim]

theorem Yields.integer (h : (integer write read?).Yields a) : ∃ n, read? n = some a := by
  obtain ⟨d, h⟩ := h
  simp only [Codec.integer] at h
  split at h
  · rename_i n
    cases hn : read? n with
    | none => simp [hn] at h
    | some b =>
      simp only [hn, Option.elim, Except.ok.injEq] at h
      exact ⟨n, h ▸ hn⟩
  · cases h

theorem ReadsBack.uint32 (n : UInt32) : uint32.ReadsBack n := by
  refine ReadsBack.integer ?_
  have h : n.toNat < Bounds.word32 := n.toNat_lt
  rw [if_pos ⟨Int.natCast_nonneg _, by exact_mod_cast h⟩, Int.toNat_natCast, UInt32.ofNat_toNat]

theorem ReadsBack.uint64 (n : UInt64) : uint64.ReadsBack n := by
  refine ReadsBack.integer ?_
  have h : n.toNat < Bounds.word64 := n.toNat_lt
  rw [if_pos ⟨Int.natCast_nonneg _, by exact_mod_cast h⟩, Int.toNat_natCast, UInt64.ofNat_toNat]

theorem ReadsBack.nat64 {n : Nat} (h : n < Bounds.word64) : nat64.ReadsBack n := by
  refine ReadsBack.integer ?_
  rw [if_pos ⟨Int.natCast_nonneg _, by exact_mod_cast h⟩, Int.toNat_natCast]

theorem ReadsBack.int64 {n : Int} (h : Bounds.isInt64 n = true) : int64.ReadsBack n := by
  simp only [Bounds.isInt64, Bool.and_eq_true, decide_eq_true_eq] at h
  exact ReadsBack.integer (if_pos h)

theorem Yields.nat64 {n : Nat} (h : nat64.Yields n) : n < Bounds.word64 := by
  obtain ⟨i, h⟩ := Yields.integer h
  simp only [Option.ite_none_right_eq_some, Option.some.injEq] at h
  omega

theorem Yields.int64 {n : Int} (h : int64.Yields n) : Bounds.isInt64 n = true := by
  obtain ⟨i, h⟩ := Yields.integer h
  simp only [Option.ite_none_right_eq_some, Option.some.injEq] at h
  simp only [Bounds.isInt64, Bool.and_eq_true, decide_eq_true_eq]
  omega

end Integers

section Refine

variable {write : α → β} {check : β → Option α} {inner : Codec β} {a : α}

theorem ReadsBack.refine (h : inner.ReadsBack (write a)) (hc : check (write a) = some a) :
    (refine inner write check).ReadsBack a := by
  have h : inner.decode (.ofJson (inner.encode (write a))) = .ok (write a) := h
  simp only [ReadsBack, ofJson, Codec.refine, h, bind, Except.bind, hc]

theorem Yields.refine (h : (refine inner write check).Yields a) :
    ∃ b, inner.Yields b ∧ check b = some a := by
  obtain ⟨d, h⟩ := h
  obtain ⟨b, hb, h⟩ := bind_ok h
  refine ⟨b, ⟨d, hb⟩, ?_⟩
  split at h
  · rename_i ha
    rw [ha, Except.ok.inj h]
  · cases h

end Refine

section Option

/-- A codec that refuses null leaves null to the absent value. -/
theorem ReadsBack.option (hnull : ∃ fault, c.decode .null = .error fault) {o : Option α}
    (h : ∀ a, o = some a → c.ReadsBack a) : c.option.ReadsBack o := by
  cases o with
  | none => rfl
  | some a =>
    have ha : c.decode (.ofJson (c.encode a)) = .ok a := h a rfl
    simp only [ReadsBack, ofJson, Codec.option, Option.elim]
    split
    · rename_i hn
      obtain ⟨fault, hnull⟩ := hnull
      rw [hn, hnull] at ha
      cases ha
    · rw [ha]
      rfl

theorem Yields.option {o : Option α} (h : c.option.Yields o) : ∀ a, o = some a → c.Yields a := by
  rintro a rfl
  obtain ⟨d, h⟩ := h
  simp only [Codec.option] at h
  split at h
  · cases h
  · obtain ⟨b, hb, h⟩ := map_ok h
    exact ⟨d, Option.some.inj h ▸ hb⟩

end Option

section List

theorem decodeItems_ofItems {l : List α} (h : ∀ a ∈ l, c.ReadsBack a) :
    decodeItems c.decode (Draft.ofItems (l.map c.encode)) = .ok l := by
  induction l with
  | nil => rfl
  | cons a l ih =>
    have ha : c.decode (.ofJson (c.encode a)) = .ok a := h a List.mem_cons_self
    have hl := ih fun b hb => h b (List.mem_cons_of_mem _ hb)
    simp only [List.map_cons, Draft.ofItems, decodeItems, ha, hl, bind, Except.bind, pure, Except.pure]

theorem ReadsBack.list {l : List α} (h : ∀ a ∈ l, c.ReadsBack a) : c.list.ReadsBack l := by
  simp only [ReadsBack, ofJson, Codec.list, Draft.ofJson, decodeItems_ofItems h, bind, Except.bind, if_true]

end List

theorem ReadsBack.named {name : α → String} {values : List α} {a : α}
    (h : values.find? (name · == name a) = some a) : (named name values).ReadsBack a := by
  simp only [ReadsBack, ofJson, Codec.named, Draft.ofJson, named.find, h, Option.elim]

end Codec
end Playfield.Json
