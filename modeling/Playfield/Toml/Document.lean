import Playfield.Toml.Quoted

/-! TOML documents. A document is read line by line: a header opens a table, and a key with a value
adds to the table that was opened last. -/
namespace Playfield.Toml

namespace Reader

open Quoted (isBlank newline?)

def skipBlanks (cs : List Char) : List Char := cs.dropWhile isBlank

def skipComment : List Char → List Char
  | '#' :: rest => rest.dropWhile Quoted.isPlain
  | cs => cs

/-- What follows the line: nothing but blanks and a comment may be left on it. -/
def lineEnd? (cs : List Char) : Option (List Char) :=
  match skipComment (skipBlanks cs) with
  | [] => some []
  | rest => newline? rest

def skipLines : Nat → List Char → List Char
  | 0, cs => cs
  | fuel + 1, cs =>
    match newline? (skipComment (skipBlanks cs)) with
    | some rest => skipLines fuel rest
    | none => skipBlanks cs

def isBareKeyChar (c : Char) : Bool := c.isAlphanum || c = '_' || c = '-'

def keyPart? (cs : List Char) : Option (String × List Char) :=
  match cs.takeWhile isBareKeyChar with
  | [] => Quoted.short? cs
  | word => some (.ofList word, cs.drop word.length)

/-- The parts of a key, with dots between them. -/
def key? : Nat → List Char → Option (List String × List Char)
  | 0, _ => none
  | fuel + 1, cs => do
    let (part, rest) ← keyPart? (skipBlanks cs)
    match skipBlanks rest with
    | '.' :: rest =>
      let (parts, rest) ← key? fuel rest
      return (part :: parts, rest)
    | rest => return ([part], rest)

/-- Keys have fewer parts than this, and values are nested less deep. -/
def depthLimit : Nat := 80

def keyEquals? (cs : List Char) : Option (List String × List Char) := do
  let (key, rest) ← key? (cs.length + 1) cs
  match rest with
  | '=' :: rest => if key.length < depthLimit then some (key, skipBlanks rest) else none
  | _ => none

mutual
/-- A value at the start of a text; `depth` counts the arrays and tables around it. -/
def value? : Nat → Nat → List Char → Option (Value × List Char)
  | 0, _, _ => none
  | fuel + 1, depth, cs =>
    match cs with
    | '[' :: rest =>
      if depth + 1 < depthLimit then
        (items? fuel (depth + 1) (skipLines rest.length rest)).map fun (items, rest) =>
          (.array items false, rest)
      else none
    | '{' :: rest =>
      if depth + 1 < depthLimit then
        match skipBlanks rest with
        | '}' :: rest => some (.table [] .inline, rest)
        | rest =>
          (members? fuel (depth + 1) [] rest).map fun (members, rest) =>
            (.table members .inline, rest)
      else none
    | c :: _ =>
      if c = '"' ∨ c = '\'' then (Quoted.read? cs).map fun (s, rest) => (.string s, rest)
      else Scalar.read? cs
    | [] => none

/-- The items of an array up to its closing bracket. A comma may follow the last. -/
def items? : Nat → Nat → List Char → Option (List Value × List Char)
  | 0, _, _ => none
  | fuel + 1, depth, cs =>
    match cs with
    | ']' :: rest => some ([], rest)
    | _ => do
      let (item, rest) ← value? fuel depth cs
      match skipLines rest.length rest with
      | ']' :: rest => return ([item], rest)
      | ',' :: rest =>
        let (items, rest) ← items? fuel depth (skipLines rest.length rest)
        return (item :: items, rest)
      | _ => none

/-- The members of a table between braces. All stand on one line, and no comma follows the last. -/
def members? : Nat → Nat → Members → List Char → Option (Members × List Char)
  | 0, _, _, _ => none
  | fuel + 1, depth, found, cs => do
    let (key, rest) ← keyEquals? cs
    let (value, rest) ← value? fuel depth rest
    let found ← found.addDotted value true key
    match skipBlanks rest with
    | '}' :: rest => return (found, rest)
    | ',' :: rest => members? fuel depth found rest
    | _ => none
end

def pair? (cs : List Char) : Option (List String × Value × List Char) := do
  let (key, rest) ← keyEquals? cs
  let (value, rest) ← value? (2 * rest.length + 2) 0 rest
  return (key, value, ← lineEnd? rest)

/-- The key in a header, with the closing brackets after it. -/
def header? (closing : List Char) (cs : List Char) : Option (List String × List Char) := do
  let (key, rest) ← key? (cs.length + 1) cs
  if key.length < depthLimit ∧ closing.isPrefixOf rest then
    return (key, ← lineEnd? (rest.drop closing.length))
  else none

end Reader

/-- A document as far as it has been read, and the path of the table that was opened last. -/
structure Document where
  members : Members
  path : List String

namespace Document

def openAt? (d : Document) (key : List String) (change : String → Members → Option Members) :
    Option Document := do
  let last ← key.getLast?
  let members ← d.members.underHeader (change last) key.dropLast
  return ⟨members, key⟩

def line? (d : Document) (cs : List Char) : Option (Document × List Char) := do
  match Reader.skipBlanks cs with
  | '[' :: '[' :: rest =>
    let (key, rest) ← Reader.header? [']', ']'] rest
    return (← d.openAt? key Members.openItem, rest)
  | '[' :: rest =>
    let (key, rest) ← Reader.header? [']'] rest
    return (← d.openAt? key Members.openTable, rest)
  | rest =>
    match Reader.lineEnd? rest with
    | some rest => return (d, rest)
    | none =>
      let (key, value, rest) ← Reader.pair? rest
      return ({ d with members := ← d.members.underHeader (·.addDotted value true key) d.path }, rest)

def lines? : Nat → Document → List Char → Option Document
  | _, d, [] => some d
  | 0, _, _ => none
  | fuel + 1, d, cs => do
    let (d, rest) ← d.line? cs
    lines? fuel d rest

end Document

/-- The value of a document, if it is TOML. A byte order mark in front plays no part. -/
def parse? (s : String) : Option Value :=
  let cs :=
    match s.toList with
    | '\uFEFF' :: rest => rest
    | cs => cs
  (Document.lines? cs.length ⟨[], []⟩ cs).map fun d => .table d.members .header

end Playfield.Toml
