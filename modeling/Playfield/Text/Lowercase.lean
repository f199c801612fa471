import Playfield.Text.CaseTable

/-! Full lower-casing of text. Three rules go beyond the simple mapping of characters: the capital
dotted I becomes an i with a combining dot, and a capital sigma becomes a final sigma at the end of
a word, where a word may be broken by characters that case rules look through. -/
namespace Playfield.Text

/-- The simple lower-case form of a character; a character without one stands for itself. -/
def lowerChar (c : Char) : Char :=
  match lowerRuns.findSome? (·.lower? c.toNat) with
  | some code => .ofNat code
  | none => c

def isCased (c : Char) : Bool := inRanges casedRanges c.toNat

def isCaseIgnorable (c : Char) : Bool := inRanges caseIgnorableRanges c.toNat

/-- Whether a cased letter comes next, once the characters that case rules ignore are skipped. -/
def meetsCased (cs : List Char) : Bool :=
  ((cs.dropWhile isCaseIgnorable).head?.map isCased).getD false

/-- Lower-cases `cs`, which follows the characters `before`, given in reverse. -/
def lowerFrom (before : List Char) : List Char → List Char
  | [] => []
  | c :: rest =>
    let form :=
      if c = 'Σ' then [if meetsCased before && !meetsCased rest then 'ς' else 'σ']
      else if c = 'İ' then ['i', '\u0307']
      else [lowerChar c]
    form ++ lowerFrom (c :: before) rest

def lowercase (s : String) : String := .ofList (lowerFrom [] s.toList)

end Playfield.Text
