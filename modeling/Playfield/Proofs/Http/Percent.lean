import Playfield.Http.Percent
import Playfield.Proofs.Text.Utf8

/-! Percent-encoding is undone by the reader of a path, in whatever way it was done: letters, digits and some
marks may stand for themselves or be escaped, all other bytes are escaped, and the digits of an escape may be
large or small letters. -/
namespace Playfield.Http.Percent

open Json.Reader (hexDigit?)
open Text.Utf8 (encode decode?_encode)

/-- Whether a character may stand for itself in a segment of a path. -/
def isPlain (c : Char) : Bool :=
  'A' ≤ c && c ≤ 'Z' || 'a' ≤ c && c ≤ 'z' || '0' ≤ c && c ≤ '9' || "-._~!$&'()*+,;=:@".toList.contains c

/-- A percent-encoding of a string of bytes. -/
inductive Spells : List Char → List UInt8 → Prop where
  | nil : Spells [] []
  | plain {c : Char} {cs : List Char} {bytes : List UInt8} (h : isPlain c = true) (rest : Spells cs bytes) :
      Spells (c :: cs) (.ofNat c.toNat :: bytes)
  | escape {a b : Char} {high low : Nat} {cs : List Char} {bytes : List UInt8} (ha : hexDigit? a = some high)
      (hb : hexDigit? b = some low) (rest : Spells cs bytes) :
      Spells ('%' :: a :: b :: cs) (.ofNat (16 * high + low) :: bytes)

section Ascii

variable {c : Char} {n : Nat} {bytes : List UInt8}

theorem encode_cons_ascii (hc : c.toNat < 128) (cs : List Char) :
    encode (c :: cs) = .ofNat c.toNat :: encode cs := by
  have h : c.val.toNat ≤ 127 := Nat.le_of_lt_succ hc
  rw [encode, List.flatMap_cons, String.utf8EncodeChar, if_pos h]
  rfl

theorem ofNat_byte (hc : c.toNat < 128) : Char.ofNat (UInt8.ofNat c.toNat).toNat = c := by
  rw [UInt8.toNat_ofNat_of_lt' (by omega : c.toNat < 256), Char.ofNat_toNat]

theorem byte_ne (hc : c.toNat < 128) (hne : c.toNat ≠ 37) : UInt8.ofNat c.toNat ≠ 37 := by
  intro h
  have hbyte := congrArg UInt8.toNat h
  rw [UInt8.toNat_ofNat_of_lt' (by omega : c.toNat < 256)] at hbyte
  exact hne hbyte

theorem le_iff_toNat_le (a b : Char) : a ≤ b ↔ a.toNat ≤ b.toNat := by
  rw [Char.le_def, UInt32.le_iff_toNat_le, Char.toNat_val, Char.toNat_val]

theorem isPlain_iff : isPlain c = true ↔ ((65 ≤ c.toNat ∧ c.toNat ≤ 90 ∨ 97 ≤ c.toNat ∧ c.toNat ≤ 122) ∨
    48 ≤ c.toNat ∧ c.toNat ≤ 57) ∨ "-._~!$&'()*+,;=:@".toList.contains c = true := by
  simp only [isPlain, Bool.or_eq_true, Bool.and_eq_true, decide_eq_true_eq, le_iff_toNat_le, Char.reduceToNat]

theorem toNat_of_isPlain (h : isPlain c = true) : c.toNat < 128 ∧ c.toNat ≠ 37 := by
  rcases isPlain_iff.mp h with hrange | hmark
  · omega
  · have hmarks : "-._~!$&'()*+,;=:@".toList.all (fun c => c.toNat < 128 ∧ c.toNat ≠ 37) = true := by decide
    simpa using List.all_eq_true.mp hmarks c (List.contains_iff_mem.mp hmark)

theorem isPlain_of_hexDigit (h : hexDigit? c = some n) : isPlain c = true := by
  simp only [hexDigit?, le_iff_toNat_le, Char.reduceToNat] at h
  refine isPlain_iff.mpr (.inl ?_)
  split at h
  · omega
  · split at h
    · omega
    · split at h
      · omega
      · cases h

end Ascii

theorem decodeBytes_plain {b : UInt8} (hb : b ≠ 37) (rest : List UInt8) :
    decodeBytes (b :: rest) = b :: decodeBytes rest := by
  simp [decodeBytes, hb]

theorem decodeBytes_escape {a b : Char} {high low : Nat} (ha : hexDigit? a = some high)
    (hb : hexDigit? b = some low) (rest : List UInt8) :
    decodeBytes (37 :: .ofNat a.toNat :: .ofNat b.toNat :: rest) =
      .ofNat (16 * high + low) :: decodeBytes rest := by
  have ha' := (toNat_of_isPlain (isPlain_of_hexDigit ha)).1
  have hb' := (toNat_of_isPlain (isPlain_of_hexDigit hb)).1
  simp only [decodeBytes, ofNat_byte ha', ofNat_byte hb', ha, hb]

namespace Spells

variable {cs : List Char} {bytes : List UInt8}

theorem decodeBytes (h : Spells cs bytes) : decodeBytes (encode cs) = bytes := by
  induction h with
  | nil => rfl
  | plain hc _ ih =>
      obtain ⟨hascii, hne⟩ := toNat_of_isPlain hc
      rw [encode_cons_ascii hascii, decodeBytes_plain (byte_ne hascii hne), ih]
  | escape ha hb _ ih =>
      have ha' := (toNat_of_isPlain (isPlain_of_hexDigit ha)).1
      have hb' := (toNat_of_isPlain (isPlain_of_hexDigit hb)).1
      rw [encode_cons_ascii (by decide), encode_cons_ascii ha', encode_cons_ascii hb']
      change Percent.decodeBytes (37 :: _) = _
      rw [decodeBytes_escape ha hb, ih]

theorem segment? {n : String} (h : Spells cs (encode n.toList)) : segment? cs = some n := by
  rw [Percent.segment?, h.decodeBytes, decode?_encode, Option.map_some, String.ofList_toList]

/-- Nothing in an encoding ends the segment. -/
theorem isPlain_or (h : Spells cs bytes) {c : Char} (hc : c ∈ cs) : isPlain c = true ∨ c = '%' := by
  induction h with
  | nil => cases hc
  | plain hplain _ ih =>
      rcases List.mem_cons.mp hc with rfl | hc
      · exact .inl hplain
      · exact ih hc
  | escape ha hb _ ih =>
      rcases List.mem_cons.mp hc with rfl | hc
      · exact .inr rfl
      · rcases List.mem_cons.mp hc with rfl | hc
        · exact .inl (isPlain_of_hexDigit ha)
        · rcases List.mem_cons.mp hc with rfl | hc
          · exact .inl (isPlain_of_hexDigit hb)
          · exact ih hc

end Spells

theorem spells_plain {cs : List Char} (h : ∀ c ∈ cs, isPlain c = true) : Spells cs (encode cs) := by
  induction cs with
  | nil => exact .nil
  | cons c cs ih =>
      have hc := h c List.mem_cons_self
      rw [encode_cons_ascii (toNat_of_isPlain hc).1]
      exact .plain hc (ih fun d hd => h d (List.mem_cons_of_mem _ hd))

/-- The encoding that escapes every byte. -/
def escapes (bytes : List UInt8) : List Char :=
  bytes.flatMap fun b => ['%', (b.toNat / 16).digitChar, (b.toNat % 16).digitChar]

theorem spells_escapes (bytes : List UInt8) : Spells (escapes bytes) bytes := by
  induction bytes with
  | nil => exact .nil
  | cons b bytes ih =>
      have hdigit : ∀ n < 16, hexDigit? n.digitChar = some n := by decide
      have hb : b.toNat < 256 := b.toNat_lt
      have h := Spells.escape (hdigit (b.toNat / 16) (by omega)) (hdigit (b.toNat % 16) (by omega)) ih
      have hbyte : 16 * (b.toNat / 16) + b.toNat % 16 = b.toNat := by omega
      rw [hbyte, UInt8.ofNat_toNat] at h
      exact h

end Playfield.Http.Percent
