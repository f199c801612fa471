import Playfield.Bounds
import Playfield.Timestamp
import Playfield.Toml.Value

/-! TOML numbers, booleans and moments: the values that are written as a single word. -/
namespace Playfield.Toml.Scalar

def digit? (c : Char) : Option Nat := if '0' ≤ c ∧ c ≤ '9' then some (c.toNat - 48) else none

def hexDigit? (c : Char) : Option Nat :=
  (digit? c).or
    (if 'a' ≤ c ∧ c ≤ 'f' then some (c.toNat - 87)
     else if 'A' ≤ c ∧ c ≤ 'F' then some (c.toNat - 55)
     else none)

def digitOf? (base : Nat) (c : Char) : Option Nat := (hexDigit? c).filter (· < base)

/-- The values of digits in a base, of which there is at least one. A single underscore may stand
between two digits. -/
def digits? (base : Nat) : List Char → Option (List Nat)
  | [] => none
  | [c] => (digitOf? base c).map ([·])
  | c :: '_' :: rest => do return (← digitOf? base c) :: (← digits? base rest)
  | c :: rest => do return (← digitOf? base c) :: (← digits? base rest)

def natOf (base : Nat) (ds : List Nat) : Nat := ds.foldl (fun v d => base * v + d) 0

/-- Digits without a needless zero in front. -/
def plainDigits? (cs : List Char) : Option (List Nat) :=
  match digits? 10 cs with
  | some (0 :: _ :: _) => none
  | ds => ds

/-- Takes the sign off: whether it is a minus, and the rest. -/
def sign : List Char → Bool × List Char
  | '-' :: rest => (true, rest)
  | '+' :: rest => (false, rest)
  | cs => (false, cs)

/-- Whole numbers have 64 bits. Hexadecimal, octal and binary ones have no sign. -/
def integer? (cs : List Char) : Option Int :=
  let value : Option Int :=
    match cs with
    | '0' :: 'x' :: rest => (digits? 16 rest).map fun ds => (natOf 16 ds : Int)
    | '0' :: 'o' :: rest => (digits? 8 rest).map fun ds => (natOf 8 ds : Int)
    | '0' :: 'b' :: rest => (digits? 2 rest).map fun ds => (natOf 2 ds : Int)
    | _ =>
      let (negative, rest) := sign cs
      (plainDigits? rest).map fun ds => if negative then -(natOf 10 ds : Int) else (natOf 10 ds : Int)
  value.filter Bounds.isInt64

/-- The double nearest to `digits * 10 ^ place`. Beyond the bounds every number is zero or infinite. -/
def nearest (digits : List Nat) (place : Int) : Float :=
  let value := natOf 10 digits
  let point := (digits.length : Int) + place
  if value = 0 ∨ point < -400 then 0.0
  else if 400 < point - (digits.takeWhile (· = 0)).length then 1.0 / 0.0
  else if place < 0 then .ofScientific value true (-place).toNat
  else .ofScientific value false place.toNat

def fraction? : List Char → Option (List Nat × List Char)
  | '.' :: rest =>
    (digits? 10 (rest.takeWhile fun c => c ≠ 'e' && c ≠ 'E')).map fun ds =>
      (ds, rest.dropWhile fun c => c ≠ 'e' && c ≠ 'E')
  | cs => some ([], cs)

def exponent? : List Char → Option Int
  | [] => some 0
  | _ :: rest =>
    let (negative, ds) := sign rest
    (digits? 10 ds).map fun ds => if negative then -(natOf 10 ds : Int) else (natOf 10 ds : Int)

/-- A decimal with a fraction, an exponent or both. One that rounds to positive infinity is refused. -/
def decimal? (cs : List Char) : Option Float := do
  let (negative, rest) := sign cs
  let isWhole (c : Char) : Bool := c ≠ '.' && c ≠ 'e' && c ≠ 'E'
  let tail := rest.dropWhile isWhole
  if tail.isEmpty then none
  let whole ← plainDigits? (rest.takeWhile isWhole)
  let (fraction, tail) ← fraction? tail
  let exponent ← exponent? tail
  let x := nearest (whole ++ fraction) (exponent - fraction.length)
  if negative then some (-x) else if x.isInf then none else some x

def float? (cs : List Char) : Option Float :=
  match sign cs with
  | (negative, ['i', 'n', 'f']) => some (if negative then -1.0 / 0.0 else 1.0 / 0.0)
  | (_, ['n', 'a', 'n']) => some (0.0 / 0.0)
  | _ => decimal? cs

def field? (width : Nat) (cs : List Char) : Option Nat :=
  if cs.length = width ∧ cs.all (digit? · |>.isSome) then
    some (natOf 10 (cs.filterMap digit?))
  else none

def isDate (cs : List Char) : Bool :=
  match cs with
  | [y₁, y₂, y₃, y₄, '-', m₁, m₂, '-', d₁, d₂] =>
    match field? 4 [y₁, y₂, y₃, y₄], field? 2 [m₁, m₂], field? 2 [d₁, d₂] with
    | some year, some month, some day =>
      1 ≤ month && month ≤ 12 && 1 ≤ day && day ≤ Timestamp.monthLength year month
    | _, _, _ => false
  | _ => false

def isClock (h₁ h₂ m₁ m₂ : Char) : Bool :=
  match field? 2 [h₁, h₂], field? 2 [m₁, m₂] with
  | some hour, some minute => hour < 24 && minute < 60
  | _, _ => false

/-- The distance of a zone from universal time; nothing where a moment is local. -/
def isZone : List Char → Bool
  | [] | ['Z'] | ['z'] => true
  | [s, h₁, h₂, ':', m₁, m₂] => (s = '+' || s = '-') && isClock h₁ h₂ m₁ m₂
  | _ => false

/-- A time with seconds, perhaps with a fraction of a second, before something else. -/
def isTime (rest : List Char → Bool) : List Char → Bool
  | h₁ :: h₂ :: ':' :: m₁ :: m₂ :: ':' :: s₁ :: s₂ :: tail =>
    isClock h₁ h₂ m₁ m₂ && (field? 2 [s₁, s₂]).any (· ≤ 60) &&
      match tail with
      | '.' :: tail =>
        (tail.head?.bind digit?).isSome && rest (tail.dropWhile (digit? · |>.isSome))
      | tail => rest tail
  | _ => false

/-- A local time, a date, or a date and a time with or without a zone. -/
def isMoment (cs : List Char) : Bool :=
  isTime List.isEmpty cs || isDate cs ||
    (isDate (cs.take 10) &&
      match cs.drop 10 with
      | t :: tail => (t = 'T' || t = 't' || t = ' ') && isTime isZone tail
      | [] => false)

def isWordChar (c : Char) : Bool := c.isAlphanum || c = '+' || c = '-' || c = '.' || c = '_' || c = ':'

def ofWord? (cs : List Char) : Option Value :=
  if cs = ['t', 'r', 'u', 'e'] then some (.boolean true)
  else if cs = ['f', 'a', 'l', 's', 'e'] then some (.boolean false)
  else
    match integer? cs with
    | some n => some (.integer n)
    | none =>
      match float? cs with
      | some x => some (.float x)
      | none => if isMoment cs then some .moment else none

/-- The value at the start of a text that is written as a word. A date and a time may be separated by
one blank. -/
def read? (cs : List Char) : Option (Value × List Char) :=
  let word := cs.takeWhile isWordChar
  let rest := cs.drop word.length
  match rest with
  | ' ' :: c :: more =>
    if isDate word && (digit? c).isSome then
      let time := (c :: more).takeWhile isWordChar
      if isMoment (word ++ ' ' :: time) then some (.moment, (c :: more).drop time.length) else none
    else (ofWord? word).map fun v => (v, rest)
  | _ => (ofWord? word).map fun v => (v, rest)

end Playfield.Toml.Scalar
