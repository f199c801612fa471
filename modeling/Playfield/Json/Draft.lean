import Playfield.Json.Numeral

/-! Reading JSON text. Every text has a draft: the document as far as it could be read, with the
place where the text stops being JSON, and with the tokens that are well formed but denote nothing.
A decoder that walks a draft meets the faults in the order of the text. -/
namespace Playfield.Json

inductive Draft where
  | null
  | bool (value : Bool)
  | int (value : Int)
  | real (value : Float)
  | string (value : String)
  | array (items : List Draft) (closed : Bool)
  | object (members : List (Option String × Draft)) (closed : Bool)
  /-- A number beyond every double, or a text with half a surrogate pair. -/
  | unusable
  /-- The text stops being JSON here. -/
  | broken
deriving Repr

namespace Draft

mutual
/-- The draft of a document: nothing is missing from it. -/
def ofJson : Json → Draft
  | .null => .null
  | .bool b => .bool b
  | .int n => .int n
  | .real x => .real x
  | .string s => .string s
  | .array items => .array (ofItems items) true
  | .object members => .object (ofMembers members) true
termination_by structural j => j

def ofItems : List Json → List Draft
  | [] => []
  | item :: rest => ofJson item :: ofItems rest
termination_by structural items => items

def ofMembers : List (String × Json) → List (Option String × Draft)
  | [] => []
  | member :: rest => ofMember member :: ofMembers rest
termination_by structural members => members

def ofMember : String × Json → Option String × Draft
  | (name, value) => (some name, ofJson value)
termination_by structural member => member
end

mutual
/-- Whether the text of the draft is JSON throughout. Unusable tokens do no harm here. -/
def intact : Draft → Bool
  | .array items closed => closed && intactItems items
  | .object members closed => closed && intactMembers members
  | .broken => false
  | _ => true
termination_by structural d => d

def intactItems : List Draft → Bool
  | [] => true
  | item :: rest => intact item && intactItems rest
termination_by structural items => items

def intactMembers : List (Option String × Draft) → Bool
  | [] => true
  | member :: rest => intactMember member && intactMembers rest
termination_by structural members => members

def intactMember : Option String × Draft → Bool
  | (_, value) => intact value
termination_by structural member => member
end

mutual
def toJson? : Draft → Option Json
  | .null => some .null
  | .bool b => some (.bool b)
  | .int n => some (.int n)
  | .real x => some (.real x)
  | .string s => some (.string s)
  | .array items true => (toItems? items).map .array
  | .object members true => (toMembers? members).map .object
  | .array _ false | .object _ false | .unusable | .broken => none
termination_by structural d => d

def toItems? : List Draft → Option (List Json)
  | [] => some []
  | item :: rest => do return (← toJson? item) :: (← toItems? rest)
termination_by structural items => items

def toMembers? : List (Option String × Draft) → Option (List (String × Json))
  | [] => some []
  | member :: rest => do return (← toMember? member) :: (← toMembers? rest)
termination_by structural members => members

def toMember? : Option String × Draft → Option (String × Json)
  | (some name, value) => (toJson? value).map fun v => (name, v)
  | (none, _) => none
termination_by structural member => member
end

end Draft

namespace Reader

def isSpace (c : Char) : Bool := c == ' ' || c == '\n' || c == '\t' || c == '\r'

def skipSpace (cs : List Char) : List Char := cs.dropWhile isSpace

def digit? (c : Char) : Option Nat := if '0' ≤ c ∧ c ≤ '9' then some (c.toNat - 48) else none

def hexDigit? (c : Char) : Option Nat :=
  if '0' ≤ c ∧ c ≤ '9' then some (c.toNat - 48)
  else if 'a' ≤ c ∧ c ≤ 'f' then some (c.toNat - 87)
  else if 'A' ≤ c ∧ c ≤ 'F' then some (c.toNat - 55)
  else none

def digits : List Char → List Nat × List Char
  | [] => ([], [])
  | c :: rest =>
    match digit? c with
    | some d =>
      let (ds, after) := digits rest
      (d :: ds, after)
    | none => ([], c :: rest)

/-- The part of a numeral before the point: a single zero, or digits that start with another. -/
def whole? (cs : List Char) : Option (List Nat × List Char) :=
  match digits cs with
  | ([], _) => none
  | ([d], rest) => some ([d], rest)
  | (0 :: _ :: _, _) => none
  | (ds, rest) => some (ds, rest)

/-- The part after the point, which has at least one digit; empty when there is no point. -/
def fraction? : List Char → Option (List Nat × List Char)
  | '.' :: rest =>
    match digits rest with
    | ([], _) => none
    | (ds, rest) => some (ds, rest)
  | cs => some ([], cs)

def natOfDigits (ds : List Nat) : Nat := ds.foldl (fun v d => 10 * v + d) 0

def exponentDigits? (negative : Bool) (cs : List Char) : Option (Option Int × List Char) :=
  match digits cs with
  | ([], _) => none
  | (ds, rest) => some (some (if negative then -(natOfDigits ds : Int) else natOfDigits ds), rest)

def exponent? : List Char → Option (Option Int × List Char)
  | c :: rest =>
    if c = 'e' ∨ c = 'E' then
      match rest with
      | '+' :: rest => exponentDigits? false rest
      | '-' :: rest => exponentDigits? true rest
      | rest => exponentDigits? false rest
    else some (none, c :: rest)
  | [] => some (none, [])

def numeral? (negative : Bool) (cs : List Char) : Option (Numeral × List Char) := do
  let (whole, rest) ← whole? cs
  let (fraction, rest) ← fraction? rest
  let (exponent, rest) ← exponent? rest
  return (⟨negative, whole, fraction, exponent⟩, rest)

/-- The unit that four hexadecimal digits spell. -/
def unit? : List Char → Option (Nat × List Char)
  | a :: b :: c :: d :: rest => do
    let a ← hexDigit? a
    let b ← hexDigit? b
    let c ← hexDigit? c
    let d ← hexDigit? d
    return (((a * 16 + b) * 16 + c) * 16 + d, rest)
  | _ => none

/-- The characters of a text up to its closing quote, and what follows. A text that is not closed,
or that holds a control character or an unknown escape, is broken (`none`); one whose units do not
spell characters is unusable (`some (none, _)`). -/
def chars? : Nat → List Char → Option (Option (List Char) × List Char)
  | 0, _ => none
  | _, [] => none
  | fuel + 1, '"' :: rest => let _ := fuel; some (some [], rest)
  | fuel + 1, '\\' :: rest =>
    let simple (c : Char) (rest : List Char) :=
      (chars? fuel rest).map fun (cs, after) => (cs.map (c :: ·), after)
    match rest with
    | '"' :: rest => simple '"' rest
    | '\\' :: rest => simple '\\' rest
    | '/' :: rest => simple '/' rest
    | 'b' :: rest => simple '\x08' rest
    | 'f' :: rest => simple '\x0C' rest
    | 'n' :: rest => simple '\n' rest
    | 'r' :: rest => simple '\r' rest
    | 't' :: rest => simple '\t' rest
    | 'u' :: rest =>
      match unit? rest with
      | none => none
      | some (high, rest) =>
        if high < 0xD800 ∨ 0xE000 ≤ high then simple (.ofNat high) rest
        else
          let useless := (chars? fuel rest).map fun (_, after) => (none, after)
          if high < 0xDC00 then
            match rest with
            | '\\' :: 'u' :: rest =>
              match unit? rest with
              | none => none
              | some (low, rest) =>
                if 0xDC00 ≤ low ∧ low < 0xE000 then
                  simple (.ofNat (0x10000 + (high - 0xD800) * 0x400 + (low - 0xDC00))) rest
                else useless
            | _ => useless
          else useless
    | _ => none
  | fuel + 1, c :: rest =>
    if c.toNat < 0x20 then none
    else (chars? fuel rest).map fun (cs, after) => (cs.map (c :: ·), after)

def text? (cs : List Char) : Option (Option String × List Char) :=
  (chars? (cs.length + 1) cs).map fun (cs, rest) => (cs.map .ofList, rest)

def word? : List Char → List Char → Option (List Char)
  | [], cs => some cs
  | w :: word, c :: cs => if w = c then word? word cs else none
  | _ :: _, [] => none

def literal (word : String) (value : Draft) (cs : List Char) : Draft × Option (List Char) :=
  match word? word.toList cs with
  | some rest => (value, some rest)
  | none => (.broken, none)

def numberDraft (negative : Bool) (cs : List Char) : Draft × Option (List Char) :=
  match numeral? negative cs with
  | none => (.broken, none)
  | some (n, rest) =>
    match n.value? with
    | some (.int v) => (.int v, some rest)
    | some (.real x) => (.real x, some rest)
    | _ => (.unusable, some rest)

mutual
/-- Reads one value. The second part is the text after it, or nothing when the text broke. -/
def value : Nat → List Char → Draft × Option (List Char)
  | 0, _ => (.broken, none)
  | fuel + 1, cs =>
    match skipSpace cs with
    | [] => (.broken, none)
    | 'n' :: rest => literal "ull" .null rest
    | 't' :: rest => literal "rue" (.bool true) rest
    | 'f' :: rest => literal "alse" (.bool false) rest
    | '"' :: rest =>
      match text? rest with
      | some (some s, rest) => (.string s, some rest)
      | some (none, rest) => (.unusable, some rest)
      | none => (.broken, none)
    | '-' :: rest => numberDraft true rest
    | '[' :: rest =>
      match skipSpace rest with
      | ']' :: rest => (.array [] true, some rest)
      | rest =>
        let (found, after) := items fuel rest
        (.array found after.isSome, after)
    | '{' :: rest =>
      match skipSpace rest with
      | '}' :: rest => (.object [] true, some rest)
      | rest =>
        let (found, after) := members fuel rest
        (.object found after.isSome, after)
    | c :: rest => if (digit? c).isSome then numberDraft false (c :: rest) else (.broken, none)

def items : Nat → List Char → List Draft × Option (List Char)
  | 0, _ => ([], none)
  | fuel + 1, cs =>
    match value fuel cs with
    | (item, none) => ([item], none)
    | (item, some rest) =>
      match skipSpace rest with
      | ']' :: rest => ([item], some rest)
      | ',' :: rest =>
        match skipSpace rest with
        | ']' :: _ => ([item], none)
        | rest =>
          let (found, after) := items fuel rest
          (item :: found, after)
      | _ => ([item], none)

def members : Nat → List Char → List (Option String × Draft) × Option (List Char)
  | 0, _ => ([], none)
  | fuel + 1, cs =>
    match skipSpace cs with
    | '"' :: rest =>
      match text? rest with
      | none => ([], none)
      | some (name, rest) =>
        match skipSpace rest with
        | ':' :: rest =>
          match value fuel rest with
          | (found, none) => ([(name, found)], none)
          | (found, some rest) =>
            match skipSpace rest with
            | '}' :: rest => ([(name, found)], some rest)
            | ',' :: rest =>
              let (others, after) := members fuel rest
              ((name, found) :: others, after)
            | _ => ([(name, found)], none)
        | _ => ([(name, .broken)], none)
    | _ => ([], none)
end

end Reader

/-- The draft of a text, and whether nothing but blanks follows it. -/
def Draft.ofText (cs : List Char) : Draft × Bool :=
  let (draft, rest) := Reader.value (2 * cs.length + 2) cs
  (draft, rest.all fun rest => (Reader.skipSpace rest).isEmpty)

def parse? (s : String) : Option Json :=
  match Draft.ofText s.toList with
  | (draft, true) => draft.toJson?
  | (_, false) => none

end Playfield.Json
