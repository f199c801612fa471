import Playfield.Json.Printer
import Playfield.Wire.Platform

/-! Server-sent events: the text in which changes are streamed to a client. -/
namespace Playfield.Http.EventStream

def line (field : String) (value : List Char) : List Char :=
  field.toList ++ ':' :: ' ' :: (value ++ ['\n'])

/-- A change is an event whose id is its sequence number; a gap is an event without an id. A blank
line ends both. -/
def frame : StreamItem → List Char
  | .change event =>
    line "event" "change".toList ++ line "id" (Decimal.digitChars event.sequence)
      ++ line "data" (Json.chars (ChangeEvent.codec.encode event)) ++ ['\n']
  | .gap missed =>
    line "event" "gap".toList ++ line "data" (Json.chars (StreamItem.gapCodec.encode missed)) ++ ['\n']

inductive Chunk where
  | text (cs : List Char)
  | pending
  | ended

/-- The content asks the subscription, and ends with it. -/
def chunk : Delivery → Chunk
  | .item item => .text (frame item)
  | .pending => .pending
  | .closed => .ended

end Playfield.Http.EventStream
