import Playfield.Json.Draft

/-! Universally unique identifiers, by which clients know their subscriptions. -/
namespace Playfield

/-- An identifier: 32 hexadecimal digits. -/
structure Uuid where
  digits : List Nat
deriving DecidableEq, Repr

namespace Uuid

/-- The values of hexadecimal digits, in either case. -/
def digits? : List Char → Option (List Nat)
  | [] => some []
  | c :: rest => do return (← Json.Reader.hexDigit? c) :: (← digits? rest)

/-- Takes the hyphens out of the five groups of an identifier. -/
def ungroup? (cs : List Char) : Option (List Char) :=
  let hyphens := [8, 13, 18, 23]
  if hyphens.all fun i => cs[i]? = some '-' then
    some ((cs.zipIdx.filter fun c => !hyphens.contains c.2).map (·.1))
  else none

/-- The identifier that a text denotes. Its five groups may stand alone, in braces or after a URN
prefix in either case, and without hyphens the digits stand alone. -/
def ofString? (s : String) : Option Uuid :=
  let cs := s.toList
  let plain :=
    match cs.length with
    | 32 => some cs
    | 36 => ungroup? cs
    | 38 => if cs.head? = some '\x7b' ∧ cs.getLast? = some '\x7d' then ungroup? cs.tail.dropLast else none
    | 45 => if (cs.take 9).map Char.toLower = "urn:uuid:".toList then ungroup? (cs.drop 9) else none
    | _ => none
  (plain.bind digits?).map Uuid.mk

/-- The digits in five groups, in lower case. -/
def text (u : Uuid) : String :=
  let ds := u.digits.map fun d => Char.ofNat (if d < 10 then 48 + d else 87 + d)
  let group (start length : Nat) := (ds.drop start).take length
  .ofList (group 0 8 ++ '-' :: group 8 4 ++ '-' :: group 12 4 ++ '-' :: group 16 4 ++ '-' :: group 20 12)

end Uuid
end Playfield
