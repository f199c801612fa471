import Playfield.Decimal.Shortest

/-! How a floating-point number is laid out as text. The digits are always the shortest that read
back; a layout says which magnitudes are written positionally and whether a whole number keeps a
decimal point. -/
namespace Playfield.Decimal

/-- The choices of one output format. A number whose point falls `p` digits after its first digit is
written positionally when `p` lies within the bounds, and with an exponent otherwise. -/
structure Layout where
  least : Option Int
  most : Option Int
  keepsPoint : Bool

/-- Messages write every digit and leave no point behind a whole number. -/
def Layout.text : Layout := ⟨none, none, false⟩

/-- Data keep the point; below 1e-5 and from 1e16 on they use an exponent. -/
def Layout.data : Layout := ⟨some (-4), some 16, true⟩

/-- Diagnostics keep the point; below 1e-4 and from 1e16 on they use an exponent. -/
def Layout.diagnostic : Layout := ⟨some (-3), some 16, true⟩

def Layout.isPositional (l : Layout) (point : Int) : Bool :=
  l.least.all (· ≤ point) && l.most.all (point ≤ ·)

def digitChars (n : Nat) : List Char := Nat.toDigits 10 n

def intChars : Int → List Char
  | .ofNat n => digitChars n
  | .negSucc n => '-' :: digitChars (n + 1)

def positional (keepsPoint : Bool) (d : Digits) : List Char :=
  let cs := digitChars d.digits
  let point := (cs.length : Int) + d.place
  if 0 ≤ d.place then
    cs ++ List.replicate d.place.toNat '0' ++ (if keepsPoint then ['.', '0'] else [])
  else if 0 < point then
    cs.take point.toNat ++ '.' :: cs.drop point.toNat
  else
    '0' :: '.' :: (List.replicate (-point).toNat '0' ++ cs)

/-- Lays out a positive decimal with one digit before the point. -/
def scientific (d : Digits) : List Char :=
  let cs := digitChars d.digits
  let exponent := intChars ((cs.length : Int) + d.place - 1)
  match cs with
  | [c] => c :: 'e' :: exponent
  | c :: rest => c :: '.' :: (rest ++ 'e' :: exponent)
  | [] => []

def layOut (l : Layout) (d : Digits) : List Char :=
  if l.isPositional ((digitChars d.digits).length + d.place) then positional l.keepsPoint d
  else scientific d

/-- The text of a floating-point number. Zero keeps its sign. -/
def render (l : Layout) (x : Float) : String :=
  if x.isNaN then "NaN"
  else
    let sign := if x.toBits.toNat / Nat.pow 2 63 = 1 then ['-'] else []
    let magnitude :=
      if x.isInf then ['i', 'n', 'f']
      else
        let b := Binary.ofBits x.toBits
        if b.significand = 0 then positional l.keepsPoint ⟨0, 0⟩
        else layOut l b.shortest
    .ofList (sign ++ magnitude)

end Playfield.Decimal
