/-! Media types, as far as a body has to be known as JSON. -/
namespace Playfield.Http.Media

def isToken (c : Char) : Bool :=
  c.isAlphanum || "!#$%&'*+-.^_\x60|~".toList.contains c

/-- What follows a quoted value: blanks, and then a semicolon or the end. -/
def afterQuoted : List Char → Option (List Char)
  | [] => some []
  | ' ' :: rest => afterQuoted rest
  | ';' :: rest => some rest
  | _ => none

/-- What follows a quoted value after its first character. A backslash stands for itself. -/
def closing : List Char → Option (List Char)
  | [] => none
  | '"' :: rest => some rest
  | c :: rest => if c.toNat < 32 ∨ c.toNat = 127 then none else closing rest

/-- What follows a parameter value. A quoted value has at least one character, which may be a quote; an
unquoted value may be empty only at the end. -/
def afterValue : List Char → Option (List Char)
  | '"' :: c :: rest => if c.toNat < 32 ∨ c.toNat = 127 then none else (closing rest).bind afterQuoted
  | '"' :: [] => none
  | cs =>
    match cs.dropWhile isToken with
    | [] => some []
    | ';' :: rest => if (cs.takeWhile isToken).isEmpty then none else some rest
    | _ => none

def parametersOk : Nat → List Char → Bool
  | _, [] => true
  | 0, _ => false
  | fuel + 1, ' ' :: rest => parametersOk fuel rest
  | fuel + 1, cs =>
    match cs.dropWhile isToken with
    | '=' :: rest =>
      !(cs.takeWhile isToken).isEmpty && ((afterValue rest).elim false (parametersOk fuel))
    | _ => false

/-- The name of a subtype and its suffix, which stands behind the last plus sign inside. -/
def splitSuffix (subtype : List Char) : List Char × Option (List Char) :=
  let suffix := (subtype.reverse.takeWhile (· ≠ '+')).reverse
  let size := subtype.length - suffix.length
  if size ≤ 1 then (subtype, none) else (subtype.take (size - 1), some suffix)

/-- Whether a media type is JSON: `application/json`, or a type of `application` with the suffix
`json`. -/
def isJson (s : String) : Bool :=
  let cs := s.toList
  let type := cs.takeWhile isToken
  match cs.dropWhile isToken with
  | '/' :: rest =>
    let subtype := rest.takeWhile isToken
    let parameters := rest.dropWhile isToken
    let lower (cs : List Char) := String.ofList (cs.map Char.toLower)
    let (name, suffix) := splitSuffix subtype
    lower type == "application"
      && (lower name == "json" || suffix.map lower == some "json")
      && s.toList.all (fun c => c == '\t' || (32 ≤ c.toNat && c.toNat < 127))
      && (match parameters with
          | [] => true
          | ';' :: rest => !subtype.isEmpty && parametersOk (rest.length + 1) rest
          | _ => false)
  | _ => false

end Playfield.Http.Media
