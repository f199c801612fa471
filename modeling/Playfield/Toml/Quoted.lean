import Playfield.Toml.Scalar

/-! TOML strings. Basic strings stand between double quotes and know escapes, literal strings stand
between single quotes and do not. Three quotes delimit a string that may span lines. -/
namespace Playfield.Toml.Quoted

/-- Whether a character may stand for itself: a tab, or any but control characters. -/
def isPlain (c : Char) : Bool := c = '\t' || (0x20 ≤ c.toNat && c.toNat ≠ 0x7F)

def isBlank (c : Char) : Bool := c = ' ' || c = '\t'

def newline? : List Char → Option (List Char)
  | '\n' :: rest => some rest
  | '\r' :: '\n' :: rest => some rest
  | _ => none

/-- The character with the code that `width` hexadecimal digits spell. -/
def code? (width : Nat) (cs : List Char) : Option (Char × List Char) :=
  let ds := (cs.take width).filterMap Scalar.hexDigit?
  let code := Scalar.natOf 16 ds
  if ds.length = width ∧ (cs.take width).length = width
      ∧ (code < 0xD800 ∨ 0xE000 ≤ code) ∧ code < 0x110000 then
    some (.ofNat code, cs.drop width)
  else none

/-- The character that an escape denotes; the backslash has been read. -/
def escape? : List Char → Option (Char × List Char)
  | 'b' :: rest => some ('\x08', rest)
  | 't' :: rest => some ('\t', rest)
  | 'n' :: rest => some ('\n', rest)
  | 'f' :: rest => some ('\x0C', rest)
  | 'r' :: rest => some ('\r', rest)
  | '"' :: rest => some ('"', rest)
  | '\\' :: rest => some ('\\', rest)
  | 'u' :: rest => code? 4 rest
  | 'U' :: rest => code? 8 rest
  | _ => none

def skipLines : Nat → List Char → List Char
  | 0, cs => cs
  | fuel + 1, cs =>
    match cs with
    | c :: rest =>
      if isBlank c then skipLines fuel rest
      else
        match newline? (c :: rest) with
        | some rest => skipLines fuel rest
        | none => c :: rest
    | [] => []

/-- What follows a backslash at the end of a line: the next line with something on it. -/
def continued? (cs : List Char) : Option (List Char) :=
  (newline? (cs.dropWhile isBlank)).map fun rest => skipLines rest.length rest

def line? (quote : Char) : Nat → List Char → Option (List Char × List Char)
  | 0, _ => none
  | _, [] => none
  | fuel + 1, c :: rest =>
    if c = quote then some ([], rest)
    else if c = '\\' ∧ quote = '"' then
      match escape? rest with
      | some (c, rest) => (line? quote fuel rest).map fun (cs, after) => (c :: cs, after)
      | none => none
    else if isPlain c then (line? quote fuel rest).map fun (cs, after) => (c :: cs, after)
    else none

/-- The rest of a string that may span lines. Up to two quotes may stand before the three that end
it. -/
def lines? (quote : Char) : Nat → List Char → Option (List Char × List Char)
  | 0, _ => none
  | _, [] => none
  | fuel + 1, c :: rest =>
    let next (found : List Char) (rest : List Char) :=
      (lines? quote fuel rest).map fun (cs, after) => (found ++ cs, after)
    if c = quote then
      let run := 1 + (rest.takeWhile (· = quote)).length
      if run < 3 then next [c] rest
      else if run ≤ 5 then some (List.replicate (run - 3) quote, rest.drop (run - 1))
      else none
    else if c = '\\' ∧ quote = '"' then
      match continued? rest with
      | some rest => next [] rest
      | none =>
        match escape? rest with
        | some (c, rest) => next [c] rest
        | none => none
    else
      match newline? (c :: rest) with
      | some rest => next ['\n'] rest
      | none => if isPlain c then next [c] rest else none

/-- A string at the start of a text, on one line. -/
def short? (cs : List Char) : Option (String × List Char) :=
  match cs with
  | c :: rest =>
    if c = '"' ∨ c = '\'' then
      (line? c (rest.length + 1) rest).map fun (cs, after) => (.ofList cs, after)
    else none
  | [] => none

/-- A string at the start of a text. A line break right after three opening quotes is left out. -/
def read? (cs : List Char) : Option (String × List Char) :=
  match cs with
  | a :: b :: c :: rest =>
    if (a = '"' ∨ a = '\'') ∧ b = a ∧ c = a then
      let rest := (newline? rest).getD rest
      (lines? a (rest.length + 1) rest).map fun (cs, after) => (.ofList cs, after)
    else short? cs
  | _ => short? cs

end Playfield.Toml.Quoted
