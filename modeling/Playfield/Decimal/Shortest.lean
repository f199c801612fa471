/-! The shortest decimal of a binary floating-point number. Every number has an interval of reals
that round to it; of the decimals in that interval the shortest is taken, and among decimals of one
length the nearest to the number. All arithmetic is exact, on natural numbers. -/
namespace Playfield.Decimal

/-- A positive binary number `significand · 2 ^ exponent` with the interval of reals that round to
it. The interval reaches half a unit upwards and half a unit downwards, or a quarter when the next
lower number is twice as near; its ends count when the significand is even. -/
structure Binary where
  significand : Nat
  exponent : Int
  nearLower : Bool

/-- Reads the magnitude in the bits of a finite double; zero has the significand zero. -/
def Binary.ofBits (bits : UInt64) : Binary :=
  let fraction : Nat := bits.toNat % Nat.pow 2 52
  let biased : Nat := bits.toNat / Nat.pow 2 52 % Nat.pow 2 11
  if biased = 0 then ⟨fraction, -1074, false⟩
  else ⟨Nat.pow 2 52 + fraction, (biased : Int) - 1075, fraction == 0 && biased != 1⟩

/-- A number, and the two ends of its interval, as numerators over one denominator. -/
structure Interval where
  lower : Nat
  value : Nat
  upper : Nat
  denominator : Nat
  closed : Bool

/-- The interval in quarters of a unit of the last place. -/
def Binary.interval (b : Binary) : Interval :=
  let up := Nat.pow 2 (b.exponent - 2).toNat
  let down := Nat.pow 2 (2 - b.exponent).toNat
  let lower := if b.nearLower then 4 * b.significand - 1 else 4 * b.significand - 2
  ⟨lower * up, 4 * b.significand * up, (4 * b.significand + 2) * up, down, b.significand % 2 == 0⟩

/-- Whether `digits · 10 ^ place` rounds to the number. -/
def Interval.contains (i : Interval) (digits : Nat) (place : Int) : Bool :=
  let x := digits * Nat.pow 10 place.toNat * i.denominator
  let scale := Nat.pow 10 (-place).toNat
  if i.closed then i.lower * scale ≤ x && x ≤ i.upper * scale
  else i.lower * scale < x && x < i.upper * scale

/-- Whether the number lies nearer to the grid point above than to the point `below` it on the grid
`10 ^ place`; a number halfway between them goes up. -/
def Interval.nearerAbove (i : Interval) (below : Nat) (place : Int) : Bool :=
  let scale := Nat.pow 10 (-place).toNat
  let unit := Nat.pow 10 place.toNat * i.denominator
  unit ≤ 2 * (i.value * scale - below * unit)

/-- The grid point of `10 ^ place` that stands for the number, if one of the number's two neighbours
on the grid rounds to it. -/
def Interval.onGrid? (i : Interval) (place : Int) : Option Nat :=
  let scale := Nat.pow 10 (-place).toNat
  let below := i.value * scale / (Nat.pow 10 place.toNat * i.denominator)
  match i.contains below place && below != 0, i.contains (below + 1) place with
  | true, true => some (if i.nearerAbove below place then below + 1 else below)
  | true, false => some below
  | false, true => some (below + 1)
  | false, false => none

/-- The place of the leading digit of `numerator / denominator`, at most `place`. -/
def leadingPlace (numerator denominator : Nat) : Nat → Int → Int
  | 0, place => place
  | fuel + 1, place =>
    if denominator * Nat.pow 10 place.toNat ≤ numerator * Nat.pow 10 (-place).toNat then place
    else leadingPlace numerator denominator fuel (place - 1)

/-- A decimal `digits · 10 ^ place` whose last digit is not zero. -/
structure Digits where
  digits : Nat
  place : Int
deriving DecidableEq, Repr

def Digits.normalize : Nat → Digits → Digits
  | 0, d => d
  | fuel + 1, d =>
    if d.digits ≠ 0 ∧ d.digits % 10 = 0 then normalize fuel ⟨d.digits / 10, d.place + 1⟩ else d

/-- The first of the grids from `place` downwards that has a point for the number. -/
def Interval.search (i : Interval) : Nat → Int → Digits
  | 0, place => ⟨i.value * Nat.pow 10 (-place).toNat / (Nat.pow 10 place.toNat * i.denominator), place⟩
  | fuel + 1, place =>
    match i.onGrid? place with
    | some digits => ⟨digits, place⟩
    | none => i.search fuel (place - 1)

/-- A place that the leading digit of `b` does not exceed, at most two too high: the logarithm of two
to the base ten is a little less than 30103 / 100000. -/
def Binary.topPlace (b : Binary) : Int :=
  ((b.significand.log2 : Int) + 1 + b.exponent) * 30103 / 100000 + 1

/-- The shortest decimal that rounds to the positive number `b`. A double never needs more than
seventeen digits. -/
def Binary.shortest (b : Binary) : Digits :=
  let i := b.interval
  (i.search 17 (leadingPlace i.value i.denominator 3 b.topPlace)).normalize 20

end Playfield.Decimal
