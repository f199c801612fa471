import Playfield.Decimal.Layout
import Playfield.Text.Blank
import Playfield.Timestamp

/-! Timestamps as text. Moments are written in RFC 3339, in universal time. When they are read, blanks
may stand between the parts, numbers may be shorter, and a blank or a lower-case letter may stand for
the letters T and Z. -/
namespace Playfield.Timestamp

/-- The digits of `n`, with zeros in front up to `width`. -/
def padded (width n : Nat) : List Char :=
  let cs := Decimal.digitChars n
  List.replicate (width - cs.length) '0' ++ cs

/-- A year of four digits, or a sign and at least four digits. -/
def yearChars (year : Int) : List Char :=
  if 0 ≤ year ∧ year ≤ 9999 then padded 4 year.toNat
  else (if year < 0 then '-' else '+') :: padded 4 year.natAbs

/-- A fraction of a second in thousandths, millionths or billionths, whichever suffices. -/
def fractionChars (nanosecond : Nat) : List Char :=
  if nanosecond = 0 then []
  else if nanosecond % 1000000 = 0 then '.' :: padded 3 (nanosecond / 1000000)
  else if nanosecond % 1000 = 0 then '.' :: padded 6 (nanosecond / 1000)
  else '.' :: padded 9 nanosecond

def text (t : Timestamp) : String :=
  let (year, month, day) := civil t.day
  let isLeap := 1000000000 ≤ t.nanosecond
  let second := t.second % 60 + (if isLeap then 1 else 0)
  .ofList <|
    yearChars year ++ '-' :: padded 2 month ++ '-' :: padded 2 day
      ++ 'T' :: padded 2 (t.second / 3600) ++ ':' :: padded 2 (t.second / 60 % 60)
      ++ ':' :: padded 2 second ++ fractionChars (t.nanosecond % 1000000000) ++ ['Z']

/-! Reading -/

def skipBlanks (cs : List Char) : List Char := cs.dropWhile Text.isBlankChar

def isDigit (c : Char) : Bool := '0' ≤ c && c ≤ '9'

def valueOf (ds : List Char) : Nat := ds.foldl (fun v c => 10 * v + (c.toNat - 48)) 0

/-- At most `width` digits, and at least one. -/
def number? (width : Nat) (cs : List Char) : Option (Nat × List Char) :=
  let ds := (cs.take width).takeWhile isDigit
  if ds.isEmpty then none else some (valueOf ds, cs.drop ds.length)

def part? (width : Nat) (cs : List Char) : Option (Nat × List Char) := number? width (skipBlanks cs)

/-- A year: four digits at most, or a sign and any number of digits. -/
def year? (cs : List Char) : Option (Int × List Char) :=
  match skipBlanks cs with
  | '-' :: rest => (number? rest.length rest).map fun (v, rest) => (-(v : Int), rest)
  | '+' :: rest => (number? rest.length rest).map fun (v, rest) => ((v : Int), rest)
  | rest => (number? 4 rest).map fun (v, rest) => ((v : Int), rest)

def sign? (c : Char) (cs : List Char) : Option (List Char) :=
  match skipBlanks cs with
  | d :: rest => if d = c then some rest else none
  | [] => none

/-- A fraction of a second, in nanoseconds. Digits after the ninth are dropped. -/
def fraction? : List Char → Option (Nat × List Char)
  | '.' :: rest =>
    let ds := rest.takeWhile isDigit
    if ds.isEmpty then none
    else
      let kept := ds.take 9
      some (valueOf kept * Nat.pow 10 (9 - kept.length), rest.drop ds.length)
  | cs => some (0, cs)

/-- Two digits of which the first is at most `first`. -/
def twoDigits? (first : Char) : List Char → Option (Nat × List Char)
  | a :: b :: rest =>
    if '0' ≤ a ∧ a ≤ first ∧ isDigit b then some (valueOf [a, b], rest) else none
  | _ => none

/-- The distance from universal time, in seconds. -/
def offset? (cs : List Char) : Option (Int × List Char) :=
  let hoursAndMinutes (negative : Bool) (cs : List Char) := do
    let (hours, rest) ← twoDigits? '9' cs
    let rest := rest.dropWhile fun c => c = ':' || Text.isBlankChar c
    let (minutes, rest) ← twoDigits? '5' rest
    let seconds : Int := ((hours * 3600 + minutes * 60 : Nat) : Int)
    if 86400 ≤ seconds then none else some (if negative then -seconds else seconds, rest)
  match cs with
  | '+' :: rest => hoursAndMinutes false rest
  | '-' :: rest => hoursAndMinutes true rest
  | '\u2212' :: rest => hoursAndMinutes true rest
  | c :: rest =>
    if c = 'Z' ∨ c = 'z' then some (0, rest)
    else
      let word := (cs.take 3).map Char.toUpper
      if word = ['U', 'T', 'C'] then some (0, cs.drop 3) else none
  | [] => none

/-- Whether the calendar goes as far as a year. -/
def isYear (year : Int) : Bool := -262143 ≤ year && year ≤ 262142

/-- The moment that a text denotes. The calendar must reach both the local and the universal day. -/
def ofText? (s : String) : Option Timestamp := do
  let (year, rest) ← year? s.toList
  let rest ← sign? '-' rest
  let (month, rest) ← part? 2 rest
  let rest ← sign? '-' rest
  let (day, rest) ← part? 2 rest
  let rest ←
    match rest with
    | c :: rest => if c = 'T' ∨ c = 't' ∨ c = ' ' then some rest else none
    | [] => none
  let (hour, rest) ← part? 2 rest
  let rest ← sign? ':' rest
  let (minute, rest) ← part? 2 rest
  let rest ← sign? ':' rest
  let (second, rest) ← part? 2 rest
  let (nanosecond, rest) ← fraction? rest
  let (offset, rest) ← offset? (skipBlanks rest)
  if !(skipBlanks rest).isEmpty then none
  else if !isYear year ∨ month = 0 ∨ 12 < month ∨ day = 0
      ∨ monthLength year month < day ∨ 24 ≤ hour ∨ 60 ≤ minute ∨ 61 ≤ second then none
  else
    let leap := if second = 60 then 1 else 0
    let ofDay : Int := ((hour * 3600 + minute * 60 + (second - leap) : Nat) : Int) - offset
    let universal := dayNumber year month day + ofDay / 86400
    if !isYear (civil universal).1 then none
    else some {
      day := universal
      second := (ofDay % 86400).toNat
      nanosecond := nanosecond + leap * 1000000000 }

end Playfield.Timestamp
