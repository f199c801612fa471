import Playfield.Json.Draft
import Playfield.Text.Utf8

/-! Percent-encoded text, in paths and in forms. An escape that lacks a digit stands for itself. -/
namespace Playfield.Http.Percent

/-- Replaces every escape by its byte. -/
def decodeBytes : List UInt8 → List UInt8
  | [] => []
  | 37 :: a :: b :: rest =>
    match Json.Reader.hexDigit? (.ofNat a.toNat), Json.Reader.hexDigit? (.ofNat b.toNat) with
    | some high, some low => .ofNat (16 * high + low) :: decodeBytes rest
    | _, _ => 37 :: decodeBytes (a :: b :: rest)
  | byte :: rest => byte :: decodeBytes rest

/-- The text of a path segment, whose bytes must be UTF-8. -/
def segment? (cs : List Char) : Option String :=
  (Text.Utf8.decode? (decodeBytes (Text.Utf8.encode cs))).map .ofList

/-- The text of a name or value in a form, where a plus sign is a blank. -/
def formText (cs : List Char) : String :=
  .ofList (Text.Utf8.decodeLossy (decodeBytes (Text.Utf8.encode (cs.map fun c => if c = '+' then ' ' else c))))

end Playfield.Http.Percent
