import Std.Data.ExtTreeSet
import Playfield.Number
import Playfield.Text.Lowercase

/-! Devices: hardware numbers with a name, and with tags that group them. Names and tags are kept in
a normal form, so that case and outer blanks do not matter. -/
namespace Playfield

/-- The normal form of a name or tag. -/
def normalize (s : String) : String := Text.lowercase (Text.trim s)

structure Device where
  kind : Kind
  name : String
  number : String
  label : Option String
  tags : Std.ExtTreeSet String
deriving DecidableEq

namespace Device

/-- Whether the device carries `tag`, in whatever case. -/
def hasTag (d : Device) (tag : String) : Bool := d.tags.contains (normalize tag)

def number? (d : Device) (kind : Kind) : Option (Number kind) :=
  if d.kind = kind then Number.ofString? kind d.number else none

end Device
end Playfield
