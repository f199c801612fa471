import Playfield.Coil.Bank
import Playfield.Json.Record
import Playfield.Timestamp.Text
import Playfield.Uuid

/-! The JSON forms of numbers, powers and the like. A value that its type does not admit is refused. -/
namespace Playfield

open Json (Codec)

def Number.codec (kind : Kind) : Codec (Number kind) :=
  .refine .string Number.text (Number.ofString? kind)

def Power.codec : Codec Power := .refine .float Power.value Power.ofFloat?

def Brightness.codec : Codec Brightness := .refine .float Brightness.value Brightness.ofFloat?

def Kind.codec : Codec Kind := .named Kind.word Kind.all

def ActuationKind.codec : Codec ActuationKind := .named ActuationKind.word ActuationKind.all

def CommandPolicy.codec : Codec CommandPolicy := .named CommandPolicy.word CommandPolicy.all

/-- A moment in RFC 3339. -/
def Timestamp.codec : Codec Timestamp := .refine .string Timestamp.text Timestamp.ofText?

def Uuid.codec : Codec Uuid := .refine .string Uuid.text Uuid.ofString?

/-- The tags of a device, as a sorted array. -/
def tagsCodec : Codec (Std.ExtTreeSet String) where
  encode tags := .array (tags.toList.map .string)
  decode d := ((Codec.list .string).decode d).map fun tags => .ofList tags

end Playfield
