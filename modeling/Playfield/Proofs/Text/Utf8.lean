import Mathlib.Tactic.Basic
import Playfield.Text.Utf8

/-! Every text can be read back from its bytes. -/
namespace Playfield.Text.Utf8

variable {rest : List UInt8} {p : Partial} {b n : Nat}

theorem pieces_whole (hb : b < 0x80) :
    pieces none (.ofNat b :: rest) = some (.ofNat b) :: pieces none rest := by
  have hbyte : (UInt8.ofNat b).toNat = b := UInt8.toNat_ofNat_of_lt' (by omega : b < 256)
  simp only [pieces, hbyte, lead, if_pos hb]

theorem pieces_part (hb : b < 256) (hl : lead b = .part p) :
    pieces none (.ofNat b :: rest) = pieces (some p) rest := by
  have hbyte : (UInt8.ofNat b).toNat = b := UInt8.toNat_ofNat_of_lt' hb
  simp only [pieces, hbyte, hl]

/-- A byte within its bounds brings six more bits. -/
theorem pieces_next (hn : n < 64) (hlow : p.low ≤ n + 0x80) (hhigh : n + 0x80 ≤ p.high) :
    pieces (some p) (.ofNat (n + 0x80) :: rest) =
      if p.missing ≤ 1 then some (.ofNat (p.value * 64 + n)) :: pieces none rest
      else pieces (some ⟨p.value * 64 + n, p.missing - 1, 0x80, 0xBF⟩) rest := by
  have hbyte : (UInt8.ofNat (n + 0x80)).toNat = n + 0x80 :=
    UInt8.toNat_ofNat_of_lt' (by omega : n + 0x80 < 256)
  simp only [pieces, hbyte, if_pos (And.intro hlow hhigh), Nat.add_sub_cancel]

theorem lead_two (hlow : 2 ≤ n) (hhigh : n < 32) : lead (n + 0xC0) = .part ⟨n, 1, 0x80, 0xBF⟩ := by
  rw [lead, if_neg (by omega), if_neg (by omega), if_pos (by omega), Nat.add_sub_cancel]

theorem lead_three (hn : n < 16) : lead (n + 0xE0) =
    .part ⟨n, 2, if n = 0 then 0xA0 else 0x80, if n = 13 then 0x9F else 0xBF⟩ := by
  rw [lead, if_neg (by omega), if_neg (by omega), if_neg (by omega), if_pos (by omega), Nat.add_sub_cancel]
  simp

theorem lead_four (hn : n < 5) : lead (n + 0xF0) =
    .part ⟨n, 3, if n = 0 then 0x90 else 0x80, if n = 4 then 0x8F else 0xBF⟩ := by
  rw [lead, if_neg (by omega), if_neg (by omega), if_neg (by omega), if_neg (by omega), if_pos (by omega),
    Nat.add_sub_cancel]
  simp

/-- The bytes of a character are read as the character. The bounds of the second byte keep no character
out: they are where the shorter forms, the surrogates and the last character end. -/
theorem pieces_encodeChar (c : Char) (rest : List UInt8) :
    pieces none (String.utf8EncodeChar c ++ rest) = some c :: pieces none rest := by
  have hc : Char.ofNat c.val.toNat = c := Char.ofNat_toNat c
  have hvalid : c.val.toNat < 0xD800 ∨ 0xDFFF < c.val.toNat ∧ c.val.toNat < 0x110000 := c.valid
  simp only [String.utf8EncodeChar]
  generalize c.val.toNat = v at hc hvalid
  have hlast : v % 64 < 64 := Nat.mod_lt _ (by decide)
  have hmiddle : v / 64 % 64 < 64 := Nat.mod_lt _ (by decide)
  have hsecond : v / 4096 % 64 < 64 := Nat.mod_lt _ (by decide)
  split
  next h =>
    rw [List.singleton_append, pieces_whole (by omega), hc]
  next h =>
    split
    next h2 =>
      have hvalue : v / 64 % 32 * 64 + v % 64 = v := by omega
      simp only [List.cons_append, List.nil_append]
      rw [pieces_part (by omega) (lead_two (by omega) (by omega)),
        pieces_next hlast (by simp) (by simp; omega), if_pos (by simp), hvalue, hc]
    next h2 =>
      split
      next h3 =>
        have hvalue : (v / 4096 % 16 * 64 + v / 64 % 64) * 64 + v % 64 = v := by omega
        simp only [List.cons_append, List.nil_append]
        rw [pieces_part (by omega) (lead_three (by omega)), pieces_next hmiddle, if_neg (by simp),
          pieces_next hlast (by simp) (by simp; omega), if_pos (by simp), hvalue, hc]
        · dsimp only; split <;> omega
        · dsimp only; split <;> omega
      next h3 =>
        have hvalue : ((v / 262144 % 8 * 64 + v / 4096 % 64) * 64 + v / 64 % 64) * 64 + v % 64 = v := by omega
        simp only [List.cons_append, List.nil_append]
        rw [pieces_part (by omega) (lead_four (by omega)), pieces_next hsecond, if_neg (by simp),
          pieces_next hmiddle (by simp) (by simp; omega), if_neg (by simp),
          pieces_next hlast (by simp) (by simp; omega), if_pos (by simp), hvalue, hc]
        · dsimp only; split <;> omega
        · dsimp only; split <;> omega

theorem pieces_encode (cs : List Char) : pieces none (encode cs) = cs.map some := by
  induction cs with
  | nil => rfl
  | cons c cs ih => rw [encode, List.flatMap_cons, pieces_encodeChar, ← encode, ih, List.map_cons]

theorem decode?_encode (cs : List Char) : decode? (encode cs) = some cs := by
  simp [decode?, pieces_encode]

end Playfield.Text.Utf8
