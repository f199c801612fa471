import Playfield.Bounds
import Playfield.Json.Basic

/-! How a JSON numeral is read. A whole number that fits into 64 bits is exact. Any other numeral is
read in the quick way: its leading digits are collected in one 64-bit word, and that word is scaled
by one power of ten. Digits that no longer fit are dropped, so the result may miss the nearest
double by a last place. -/
namespace Playfield.Json

/-- The parts of a numeral; the digits are values below ten. -/
structure Numeral where
  negative : Bool
  whole : List Nat
  fraction : List Nat
  exponent : Option Int
deriving DecidableEq, Repr

namespace Numeral

/-- A word of leading digits, scaled by a power of ten; `full` once a digit has been dropped. -/
structure Word where
  digits : Nat
  scale : Int
  full : Bool

/-- Takes a digit before the point: a digit that does not fit still counts as a place. -/
def Word.pushWhole (w : Word) (d : Nat) : Word :=
  if w.full || Bounds.word64 ≤ 10 * w.digits + d then { w with scale := w.scale + 1, full := true }
  else { w with digits := 10 * w.digits + d }

/-- Takes a digit after the point: from the first that does not fit, all are dropped. -/
def Word.pushFraction (w : Word) (d : Nat) : Word :=
  if w.full || Bounds.word64 ≤ 10 * w.digits + d then { w with full := true }
  else { w with digits := 10 * w.digits + d, scale := w.scale - 1 }

def word (n : Numeral) : Word :=
  let whole := n.whole.foldl Word.pushWhole ⟨0, 0, false⟩
  n.fraction.foldl Word.pushFraction { whole with full := false }

/-- The power of ten with the exponent `k`, at most 308. -/
def power (k : Nat) : Float := .ofScientific 1 false k

/-- Divides by a power of ten in steps of at most 10 ^ 308. -/
def scaleDown : Nat → Float → Nat → Float
  | 0, _, _ => 0.0
  | fuel + 1, x, k => if k ≤ 308 then x / power k else scaleDown fuel (x / power 308) (k - 308)

/-- Scales a word; `none` when the result exceeds every double. Two steps down already end at zero. -/
def scaled? (digits : Nat) (scale : Int) : Option Float :=
  let x := Float.ofNat digits
  if scale < 0 then some (scaleDown 3 x (-scale).toNat)
  else if digits = 0 then some 0.0
  else if scale ≤ 308 then
    let y := x * power scale.toNat
    if y.isInf then none else some y
  else none

/-- The whole number that the numeral denotes, if it has neither fraction nor exponent. -/
def whole? (n : Numeral) : Option Nat :=
  if n.fraction.isEmpty && n.exponent.isNone then some (n.whole.foldl (fun v d => 10 * v + d) 0)
  else none

/-- Whole numbers from -2 ^ 63 to 2 ^ 64 - 1 are exact, save that minus zero is a double. -/
def integer? (n : Numeral) : Option Int :=
  match n.whole? with
  | some v =>
    if n.negative then (if v ≠ 0 && Bounds.isInt64 (-v) then some (-(v : Int)) else none)
    else if v < Bounds.word64 then some (v : Int) else none
  | none => none

/-- The document that the numeral denotes; `none` when it lies beyond every double. -/
def value? (n : Numeral) : Option Json :=
  match n.integer? with
  | some v => some (.int v)
  | none =>
    let w := n.word
    (scaled? w.digits (w.scale + n.exponent.getD 0)).map fun x => .real (if n.negative then -x else x)

end Numeral
end Playfield.Json
