import Playfield.Http.Message
import Playfield.Http.Query

/-! The paths under which a platform is served. Numbers, kinds and names in a path are still
percent-encoded. A fixed word wins over a number in its place. -/
namespace Playfield.Http

inductive Route where
  | health
  | platform
  | reset
  | switches
  | changes
  | transitions
  | switch (number : List Char)
  | pulse
  | enable
  | disable
  | disableAll
  | coil (number : List Char)
  | fade
  | rgb
  | single
  | light (number : List Char)
  | rules
  | removeRule
  | devices
  | device (kind name : List Char)
deriving DecidableEq, Repr

namespace Route

def ofSegments? : List String → Option Route
  | ["platform"] => some .platform
  | ["platform", "reset"] => some .reset
  | ["switches"] => some .switches
  | ["switches", "changes"] => some .changes
  | ["switches", "transitions"] => some .transitions
  | ["switches", number] => some (.switch number.toList)
  | ["coils", "pulse"] => some .pulse
  | ["coils", "enable"] => some .enable
  | ["coils", "disable"] => some .disable
  | ["coils", "disable_all"] => some .disableAll
  | ["coils", number] => some (.coil number.toList)
  | ["lights", "fade"] => some .fade
  | ["lights", "rgb"] => some .rgb
  | ["lights", "single"] => some .single
  | ["lights", number] => some (.light number.toList)
  | ["rules"] => some .rules
  | ["rules", "remove"] => some .removeRule
  | ["devices"] => some .devices
  | ["devices", kind, name] => some (.device kind.toList name.toList)
  | _ => none

/-- The route of a path. Every segment must have at least one character. -/
def ofPath? (path : List Char) : Option Route :=
  match (splitAt '/' path).map String.ofList with
  | "" :: segments =>
    if segments.contains "" then none
    else
      match segments with
      | ["health"] => some .health
      | "api" :: rest => ofSegments? rest
      | _ => none
  | _ => none

/-- Whether a route is read with GET, and so with HEAD. -/
def hasGet : Route → Bool
  | .health | .platform | .switches | .changes | .switch _ | .coil _ | .light _ | .rules | .devices
  | .device .. => true
  | _ => false

def hasPost : Route → Bool
  | .reset | .transitions | .pulse | .enable | .disable | .disableAll | .fade | .rgb | .single
  | .rules | .removeRule | .devices => true
  | _ => false

def allows (r : Route) : Method → Bool
  | .get | .head => r.hasGet
  | .post => r.hasPost
  | .other => false

end Route
end Playfield.Http
