/-! TOML values, and how tables grow while a document is read. Every table remembers how it came to be,
because that decides what may still be added to it. -/
namespace Playfield.Toml

/-- How a table came to be. -/
inductive Origin where
  | header
  /-- By the header of a table inside it. -/
  | implied
  | dotted
  /-- Between braces. -/
  | inline
deriving DecidableEq, Repr

inductive Value where
  | string (value : String)
  | integer (value : Int)
  | float (value : Float)
  | boolean (value : Bool)
  /-- A date, a time or both. -/
  | moment
  /-- An array; one that was begun by a header still grows. -/
  | array (items : List Value) (growing : Bool)
  | table (members : List (String × Value)) (origin : Origin)
deriving Repr

abbrev Members := List (String × Value)

namespace Members

def get? (ms : Members) (key : String) : Option Value := (ms.find? (·.1 == key)).map (·.2)

def set (ms : Members) (key : String) (value : Value) : Members :=
  match ms with
  | [] => [(key, value)]
  | (k, v) :: rest => if k = key then (key, value) :: rest else (k, v) :: set rest key value

/-- Adds a key, which must be new. -/
def add? (ms : Members) (key : String) (value : Value) : Option Members :=
  if (ms.get? key).isSome then none else some (ms ++ [(key, value)])

def replaceLast (items : List Value) (item : Value) : List Value := items.dropLast ++ [item]

/-- Changes the table at the end of the path of a header. Tables on the way that do not exist are
implied, and an array of tables stands for its last table. -/
def underHeader (change : Members → Option Members) : List String → Members → Option Members
  | [], ms => change ms
  | key :: path, ms =>
    match ms.get? key with
    | none => (underHeader change path []).map fun inner => ms.set key (.table inner .implied)
    | some (.table inner origin) =>
      if origin = .inline then none
      else (underHeader change path inner).map fun inner => ms.set key (.table inner origin)
    | some (.array items true) =>
      match items.getLast? with
      | some (.table inner origin) =>
        (underHeader change path inner).map fun inner =>
          ms.set key (.array (replaceLast items (.table inner origin)) true)
      | _ => none
    | some _ => none

/-- Adds the value of a dotted key. Tables on the way may come into being by the dots, and only such a
table takes the value; `takes` tells that of the present table. -/
def addDotted (value : Value) (takes : Bool) : List String → Members → Option Members
  | [], _ => none
  | [key], ms => if takes then ms.add? key value else none
  | key :: path, ms =>
    match ms.get? key with
    | none => (addDotted value true path []).map fun inner => ms.set key (.table inner .dotted)
    | some (.table inner .dotted) =>
      (addDotted value true path inner).map fun inner => ms.set key (.table inner .dotted)
    | some (.table inner .implied) =>
      (addDotted value false path inner).map fun inner => ms.set key (.table inner .implied)
    | some (.array items true) =>
      match items.getLast? with
      | some (.table inner origin) =>
        (addDotted value false path inner).map fun inner =>
          ms.set key (.array (replaceLast items (.table inner origin)) true)
      | _ => none
    | some _ => none

/-- Opens the table that a header names. A table can be defined only once, though it may have been
implied before. -/
def openTable (key : String) (ms : Members) : Option Members :=
  match ms.get? key with
  | none => some (ms.set key (.table [] .header))
  | some (.table inner .implied) => some (ms.set key (.table inner .header))
  | some _ => none

/-- Opens a further table of an array of tables. -/
def openItem (key : String) (ms : Members) : Option Members :=
  match ms.get? key with
  | none => some (ms.set key (.array [.table [] .header] true))
  | some (.array items true) => some (ms.set key (.array (items ++ [.table [] .header]) true))
  | some _ => none

end Members
end Playfield.Toml
