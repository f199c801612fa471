import Playfield.Json.Basic
import Playfield.Decimal.Layout

/-! Compact JSON text: no blanks, and only what must be escaped is escaped. -/
namespace Playfield.Json

def hexChar (n : Nat) : Char := .ofNat (if n < 10 then 48 + n else 87 + n)

/-- Writes one character of a text. Quotes, backslashes and control characters are escaped, five of
the control characters by a letter. -/
def escapeChar (c : Char) : List Char :=
  if c = '"' then ['\\', '"']
  else if c = '\\' then ['\\', '\\']
  else if c = '\x08' then ['\\', 'b']
  else if c = '\x0C' then ['\\', 'f']
  else if c = '\n' then ['\\', 'n']
  else if c = '\r' then ['\\', 'r']
  else if c = '\t' then ['\\', 't']
  else if c.toNat < 0x20 then
    ['\\', 'u', '0', '0', hexChar (c.toNat / 16), hexChar (c.toNat % 16)]
  else [c]

def quote (s : String) : List Char := '"' :: (s.toList.flatMap escapeChar ++ ['"'])

mutual
def chars : Json → List Char
  | .null => ['n', 'u', 'l', 'l']
  | .bool true => ['t', 'r', 'u', 'e']
  | .bool false => ['f', 'a', 'l', 's', 'e']
  | .int n => Decimal.intChars n
  | .real x => (Decimal.render .data x).toList
  | .string s => quote s
  | .array items => '[' :: itemChars true items
  | .object members => '{' :: memberChars true members
termination_by structural j => j

/-- The items of an array and its closing bracket; commas stand before all items but the first. -/
def itemChars : Bool → List Json → List Char
  | _, [] => [']']
  | isFirst, item :: rest =>
    (if isFirst then [] else [',']) ++ chars item ++ itemChars false rest
termination_by structural _ items => items

def memberChars : Bool → List (String × Json) → List Char
  | _, [] => ['}']
  | isFirst, member :: rest =>
    (if isFirst then [] else [',']) ++ pairChars member ++ memberChars false rest
termination_by structural _ members => members

def pairChars : String × Json → List Char
  | (name, value) => quote name ++ ':' :: chars value
termination_by structural member => member
end

def print (j : Json) : String := .ofList (chars j)

end Playfield.Json
