import Playfield.Json.Basic
import Playfield.Stream

/-! HTTP requests and responses. -/
namespace Playfield.Http

inductive Method where
  | get
  | head
  | post
  | other
deriving DecidableEq, Repr

def Method.ofName (name : String) : Method :=
  if name = "GET" then .get else if name = "HEAD" then .head else if name = "POST" then .post
  else .other

structure Request where
  method : Method
  /-- The path and the query. -/
  target : String
  contentType : Option String
  body : String

inductive Content where
  | none
  | json (document : Json)
  | text (text : String)
  /-- An explanation for people. -/
  | explanation
  /-- The events of a subscription, as they come. -/
  | events (subscription : SubscriptionId)

structure Response where
  status : Nat
  contentType : Option String
  content : Content

namespace Content

def mediaType : Content → Option String
  | .none => Option.none
  | .json _ => some "application/json"
  | .text _ | .explanation => some "text/plain; charset=utf-8"
  | .events _ => some "text/event-stream"

end Content

namespace Response

def ofContent (status : Nat) (content : Content) : Response := ⟨status, content.mediaType, content⟩

/-- The same response without its content, as a HEAD request is answered. -/
def withoutContent (r : Response) : Response := { r with content := .none }

end Response
end Playfield.Http
