/-! JSON documents. Numbers are whole numbers or doubles, and an object is a list of members in
order. -/
namespace Playfield

inductive Json where
  | null
  | bool (value : Bool)
  | int (value : Int)
  | real (value : Float)
  | string (value : String)
  | array (items : List Json)
  | object (members : List (String × Json))
deriving Repr

namespace Json

/-- The value of the first member called `name`. -/
def member? (name : String) : Json → Option Json
  | .object members => (members.find? (·.1 == name)).map (·.2)
  | _ => none

/-- A number as a document. A number that is not finite has no JSON form and is written as null. -/
def ofFloat (x : Float) : Json := if x.isFinite then .real x else .null

end Json
end Playfield
