import Playfield.Http.Percent
import Playfield.Request

/-! The query part of a request target: a form, whose fields filter a device listing. -/
namespace Playfield.Http

def splitAt (separator : Char) : List Char → List (List Char)
  | [] => [[]]
  | c :: rest =>
    match splitAt separator rest with
    | part :: parts => if c = separator then [] :: part :: parts else (c :: part) :: parts
    | [] => [[c]]

/-- The part before the first `separator`, and the part after it. -/
def cutAt (separator : Char) (cs : List Char) : List Char × Option (List Char) :=
  let before := cs.takeWhile (· ≠ separator)
  (before, if before.length < cs.length then some (cs.drop (before.length + 1)) else none)

/-- A request target without the scheme and the host that may come before its path. Without a path behind
them it names the root; a host alone names nothing. -/
def ofTarget (target : List Char) : List Char :=
  match target with
  | '/' :: _ => target
  | _ =>
    match (cutAt ':' target).2 with
    | some ('/' :: '/' :: rest) =>
      match rest.dropWhile fun c => c ≠ '/' ∧ c ≠ '?' ∧ c ≠ '#' with
      | '/' :: path => '/' :: path
      | others => '/' :: others
    | _ => []

/-- The fields of a form, in order. A field without an equals sign has an empty value. -/
def formFields (cs : List Char) : List (String × String) :=
  ((splitAt '&' cs).filter (!·.isEmpty)).map fun field =>
    let (name, value) := cutAt '=' field
    (Percent.formText name, Percent.formText (value.getD []))

/-- Adds a field to a query. Unknown fields are ignored; a field may appear only once. -/
def addFilter (q : DeviceQuery) (name value : String) : Option DeviceQuery :=
  if name = "kind" then
    if q.kind.isSome then none
    else (Kind.all.find? (·.word = value)).map fun kind => { q with kind := some kind }
  else if name = "tag" then if q.tag.isSome then none else some { q with tag := some value }
  else if name = "number" then
    if q.number.isSome then none else some { q with number := some value }
  else some q

def deviceQuery? (cs : List Char) : Option DeviceQuery :=
  (formFields cs).foldlM (fun q field => addFilter q field.1 field.2) ⟨none, none, none⟩

end Playfield.Http
