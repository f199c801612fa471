import Playfield.Http.EventStream
import Playfield.Proofs.Json.Text
import Playfield.Proofs.Text.Utf8

/-! The client's side of an event stream. The text falls into lines and a line into a field and its value. The
fields up to a blank line make one event; without data there is none, and an event that the text breaks off in is
dropped. What matters to the sender: a line without control characters is one line, whatever else it holds. -/
namespace Playfield.Http.EventSource

open Json (Plain)

/-- The lines of a text. A line ends with a carriage return, a line feed, or both in this order; what stands
behind the last end is no line. -/
def lines : List Char → List (List Char)
  | [] => []
  | '\r' :: '\n' :: rest => [] :: lines rest
  | '\r' :: rest => [] :: lines rest
  | '\n' :: rest => [] :: lines rest
  | c :: rest =>
    match lines rest with
    | [] => []
    | first :: others => (c :: first) :: others

/-- The field of a line and its value, which is what stands behind the first colon and one blank. -/
def splitField (line : List Char) : List Char × List Char :=
  let field := line.takeWhile (· ≠ ':')
  match line.drop field.length with
  | ':' :: ' ' :: value => (field, value)
  | ':' :: value => (field, value)
  | _ => (field, [])

/-- An event as a client receives it. -/
structure Received where
  type : String
  /-- The id that the event brings along. -/
  id : Option String
  /-- The last id that any event has brought along so far. -/
  lastId : String
  data : String
deriving DecidableEq, Repr

/-- What has been read of an event that is not complete. -/
structure Buffer where
  type : List Char
  id : Option (List Char)
  lastId : List Char
  data : List Char

namespace Buffer

/-- Before the first field of an event. -/
def fresh (lastId : List Char) : Buffer := ⟨[], none, lastId, []⟩

/-- Takes in a field. The value of `data` is one line of the data. Unknown fields are ignored, and so is an id
with a null character. -/
def add (b : Buffer) (field value : List Char) : Buffer :=
  if field = "event".toList then { b with type := value }
  else if field = "data".toList then { b with data := b.data ++ value ++ ['\n'] }
  else if field = "id".toList ∧ '\x00' ∉ value then { b with id := some value, lastId := value }
  else b

theorem add_event (b : Buffer) (value : List Char) : b.add "event".toList value = { b with type := value } :=
  if_pos rfl

theorem add_data (b : Buffer) (value : List Char) :
    b.add "data".toList value = { b with data := b.data ++ value ++ ['\n'] } :=
  (if_neg (by decide)).trans (if_pos rfl)

theorem add_id (b : Buffer) {value : List Char} (h : '\x00' ∉ value) :
    b.add "id".toList value = { b with id := some value, lastId := value } :=
  (if_neg (by decide)).trans ((if_neg (by decide)).trans (if_pos ⟨rfl, h⟩))

/-- The event that a blank line completes. The last line of its data has no end. -/
def event? (b : Buffer) : Option Received :=
  if b.data.isEmpty then none
  else some {
    type := if b.type.isEmpty then "message" else .ofList b.type
    id := b.id.map .ofList
    lastId := .ofList b.lastId
    data := .ofList b.data.dropLast }

/-- The events of the lines that follow. A line that starts with a colon is a comment. -/
def events (b : Buffer) : List (List Char) → List Received
  | [] => []
  | [] :: rest => b.event?.toList ++ events (fresh b.lastId) rest
  | (':' :: _) :: rest => events b rest
  | line :: rest => events (b.add (splitField line).1 (splitField line).2) rest

end Buffer

/-- The events of a whole content. A byte order mark may stand before it. -/
def read (bytes : List UInt8) : List Received :=
  let text :=
    match Text.Utf8.decodeLossy bytes with
    | '\uFEFF' :: rest => rest
    | cs => cs
  Buffer.events (.fresh []) (lines text)

section Lines

variable {cs rest : List Char}

theorem lines_append (h : Plain cs) (rest : List Char) : lines (cs ++ '\n' :: rest) = cs :: lines rest := by
  induction cs with
  | nil => rfl
  | cons c cs ih =>
    obtain ⟨hc, hcs⟩ := List.forall_mem_cons.mp h
    rw [List.cons_append, lines, ih hcs]
    · rintro _ rfl
      exact absurd hc (by decide)
    · rintro rfl
      exact absurd hc (by decide)
    · rintro rfl
      exact absurd hc (by decide)

theorem lines_line {field : String} {value : List Char} (hfield : Plain field.toList) (h : Plain value)
    (rest : List Char) :
    lines (EventStream.line field value ++ rest) = (field.toList ++ ':' :: ' ' :: value) :: lines rest := by
  have htext : EventStream.line field value ++ rest =
      (field.toList ++ ':' :: ' ' :: value) ++ '\n' :: rest := by
    simp [EventStream.line]
  rw [htext, lines_append]
  exact Json.plain_append hfield (Json.plain_cons (by decide) (Json.plain_cons (by decide) h))

theorem splitField_append {field : List Char} (h : ':' ∉ field) (value : List Char) :
    splitField (field ++ ':' :: ' ' :: value) = (field, value) := by
  have hfield : (field ++ ':' :: ' ' :: value).takeWhile (· ≠ ':') = field := by
    rw [List.takeWhile_append_of_pos]
    · simp
    · intro c hc
      exact decide_eq_true fun he => h (he ▸ hc)
  unfold splitField
  simp only [hfield, List.drop_left]

end Lines

theorem decodeLossy_encode (cs : List Char) : Text.Utf8.decodeLossy (Text.Utf8.encode cs) = cs := by
  rw [Text.Utf8.decodeLossy, Text.Utf8.pieces_encode, List.map_map]
  exact List.map_id cs

theorem read_encode {cs : List Char} (h : cs.head? ≠ some '\uFEFF') :
    read (Text.Utf8.encode cs) = Buffer.events (.fresh []) (lines cs) := by
  unfold read
  rw [decodeLossy_encode]
  split
  next => exact absurd rfl h
  next => rfl

end Playfield.Http.EventSource
