/-! UTF-8. A string of bytes falls into pieces: each is a character, or the longest start of one that
is cut short, or a single byte that starts none. -/
namespace Playfield.Text.Utf8

/-- A character of which some bytes have been read. -/
structure Partial where
  value : Nat
  missing : Nat
  low : Nat
  high : Nat

/-- What a byte begins. -/
inductive Lead where
  | whole (c : Char)
  | part (p : Partial)
  | nothing

/-- The bounds of the second byte shut out longer forms than needed, halves of surrogate pairs and
values beyond the last character. -/
def lead (byte : Nat) : Lead :=
  if byte < 0x80 then .whole (.ofNat byte)
  else if byte < 0xC2 then .nothing
  else if byte < 0xE0 then .part ⟨byte - 0xC0, 1, 0x80, 0xBF⟩
  else if byte < 0xF0 then
    .part ⟨byte - 0xE0, 2, if byte = 0xE0 then 0xA0 else 0x80, if byte = 0xED then 0x9F else 0xBF⟩
  else if byte < 0xF5 then
    .part ⟨byte - 0xF0, 3, if byte = 0xF0 then 0x90 else 0x80, if byte = 0xF4 then 0x8F else 0xBF⟩
  else .nothing

/-- The pieces of a string of bytes; `none` stands for one that is no character. -/
def pieces : Option Partial → List UInt8 → List (Option Char)
  | none, [] => []
  | some _, [] => [none]
  | pending, byte :: rest =>
    let n := byte.toNat
    let fresh :=
      match lead n with
      | .whole c => some c :: pieces none rest
      | .part p => pieces (some p) rest
      | .nothing => none :: pieces none rest
    match pending with
    | none => fresh
    | some p =>
      if p.low ≤ n ∧ n ≤ p.high then
        let value := p.value * 64 + (n - 0x80)
        if p.missing ≤ 1 then some (.ofNat value) :: pieces none rest
        else pieces (some ⟨value, p.missing - 1, 0x80, 0xBF⟩) rest
      else none :: fresh

def encode (cs : List Char) : List UInt8 := cs.flatMap String.utf8EncodeChar

/-- The text that the bytes spell, if they spell one. -/
def decode? (bytes : List UInt8) : Option (List Char) :=
  let found := pieces none bytes
  if found.all Option.isSome then some (found.filterMap id) else none

/-- The text that the bytes spell, with a replacement character for every piece that is none. -/
def decodeLossy (bytes : List UInt8) : List Char := (pieces none bytes).map (·.getD '\uFFFD')

end Playfield.Text.Utf8
