import Playfield.Http.Exchange
import Playfield.Proofs.Http.EventSource
import Playfield.Proofs.Stream.Numbering

/-! The changes of switches as a client reads them. The data of an event are JSON, which has no control characters
and so stays on one line; whatever a switch is called, its name ends neither the line nor the event. -/
namespace Playfield.Http.EventStream

open ChangeStream (Act delivered)
open EventSource (Buffer Received lines)
open Json (Plain)

/-- What a client has been sent after the content was asked for more so many times. While nothing comes, a
comment may keep the connection alive. -/
inductive Sent : List Chunk → List Char → Prop
  | start : Sent [] []
  | text {chunks : List Chunk} {cs w : List Char} : Sent chunks w → Sent (.text cs :: chunks) (cs ++ w)
  | quiet {chunks : List Chunk} {w : List Char} : Sent chunks w → Sent (.pending :: chunks) w
  | comment {chunks : List Chunk} {cs w : List Char} : Plain cs → Sent chunks w →
      Sent (.pending :: chunks) (':' :: (cs ++ '\n' :: '\n' :: w))
  | ended {chunks : List Chunk} : Sent (.ended :: chunks) []

/-- Each event carries one item, in the order of the items. A change is the event `change` with its sequence
number as id; a gap is the event `gap`, which leaves the last id as it was. The data are JSON for the item. -/
inductive Carry : String → List Received → List StreamItem → Prop
  | done (lastId : String) : Carry lastId [] []
  | change {lastId data : String} {e : ChangeEvent} {received : List Received} {items : List StreamItem} :
      ChangeEvent.codec.ofText data = .ok e → Carry (toString e.sequence) received items →
      Carry lastId (⟨"change", some (toString e.sequence), toString e.sequence, data⟩ :: received)
        (.change e :: items)
  | gap {lastId data : String} {missed : Nat} {received : List Received} {items : List StreamItem} :
      StreamItem.gapCodec.ofText data = .ok missed → Carry lastId received items →
      Carry lastId (⟨"gap", none, lastId, data⟩ :: received) (.gap missed :: items)

section Frame

variable {e : ChangeEvent} {missed : Nat} {lastId rest : List Char}

theorem exact_nat {n : Nat} (h : n < Bounds.word64) : (Json.int n).Exact :=
  .int ⟨Int.le_trans (by decide) (Int.natCast_nonneg n), Int.ofNat_lt.mpr h⟩

theorem exact_change (h : e.Sound) : (ChangeEvent.codec.encode e).Exact := by
  have hencode : ChangeEvent.codec.encode e = .object [("sequence", .int e.sequence),
      ("switch_number", .string e.switch.text), ("is_active", .bool e.isActive),
      ("timestamp", .int e.timestamp.toNat)] := rfl
  rw [hencode]
  refine .object ?_
  simp only [List.forall_mem_cons]
  exact ⟨exact_nat h.sequence, .string _, .bool _, exact_nat h.timestamp, nofun⟩

theorem exact_gap (h : missed < Bounds.word64) : (StreamItem.gapCodec.encode missed).Exact := by
  have hencode : StreamItem.gapCodec.encode missed = .object [("missed", .int missed)] := rfl
  rw [hencode]
  exact .object (List.forall_mem_singleton.mpr (exact_nat h))

/-- A line of the sender is read as the field that it is, whatever its value. -/
theorem events_line {field : String} {value : List Char} {b : Buffer} (hfield : field ∈ ["event", "id", "data"])
    (h : Plain value) :
    b.events (lines (line field value ++ rest)) = (b.add field.toList value).events (lines rest) := by
  have hnames : ∀ name ∈ ["event", "id", "data"], name.toList ≠ [] ∧ ':' ∉ name.toList ∧
      name.toList.all (fun c => decide (0x20 ≤ c.toNat)) = true := by
    decide
  obtain ⟨hne, hcolon, hplain⟩ := hnames field hfield
  obtain ⟨c, cs, hcs⟩ := List.exists_cons_of_ne_nil hne
  have hc : c ≠ ':' := by
    rintro rfl
    exact hcolon (hcs ▸ List.mem_cons_self)
  rw [EventSource.lines_line (Json.plain_of_all hplain) h, hcs, List.cons_append, Buffer.events,
    ← List.cons_append, ← hcs, EventSource.splitField_append hcolon]
  · nofun
  · intro _ heq
    exact hc (List.cons.inj heq).1

/-- A blank line completes an event that has a type and data. -/
theorem events_blank {type data : List Char} {id : Option (List Char)} (h : type ≠ []) :
    (⟨type, id, lastId, data ++ ['\n']⟩ : Buffer).events (lines ('\n' :: rest)) =
      ⟨.ofList type, id.map .ofList, .ofList lastId, .ofList data⟩ ::
        (Buffer.fresh lastId).events (lines rest) := by
  have hdata : (data ++ ['\n']).isEmpty = false := by simp
  have htype : type.isEmpty = false := by simpa using h
  rw [lines, Buffer.events, Buffer.event?]
  simp only [hdata, htype, Bool.false_eq_true, if_false, List.dropLast_concat]
  rfl

theorem events_change (h : e.Sound) :
    (Buffer.fresh lastId).events (lines (frame (.change e) ++ rest)) =
      ⟨"change", some (toString e.sequence), toString e.sequence, (ChangeEvent.codec.encode e).print⟩ ::
        (Buffer.fresh (Decimal.digitChars e.sequence)).events (lines rest) := by
  have hframe : frame (.change e) ++ rest = line "event" "change".toList ++
      (line "id" (Decimal.digitChars e.sequence) ++
        (line "data" (Json.chars (ChangeEvent.codec.encode e)) ++ '\n' :: rest)) := by
    simp [frame]
  have hid := Json.plain_digitChars e.sequence
  have hnull : '\x00' ∉ Decimal.digitChars e.sequence := fun hmem => absurd (hid _ hmem) (by decide)
  rw [hframe, events_line (by decide) (Json.plain_of_all rfl), events_line (by decide) hid,
    events_line (by decide) (exact_change h).plain, Buffer.add_event, Buffer.add_id _ hnull, Buffer.add_data,
    Nat.toString_eq_ofList_toDigits]
  exact events_blank (by decide : "change".toList ≠ [])

theorem events_gap (h : missed < Bounds.word64) :
    (Buffer.fresh lastId).events (lines (frame (.gap missed) ++ rest)) =
      ⟨"gap", none, .ofList lastId, (StreamItem.gapCodec.encode missed).print⟩ ::
        (Buffer.fresh lastId).events (lines rest) := by
  have hframe : frame (.gap missed) ++ rest = line "event" "gap".toList ++
      (line "data" (Json.chars (StreamItem.gapCodec.encode missed)) ++ '\n' :: rest) := by
    simp [frame]
  rw [hframe, events_line (by decide) (Json.plain_of_all rfl),
    events_line (by decide) (exact_gap h).plain, Buffer.add_event, Buffer.add_data]
  exact events_blank (by decide : "gap".toList ≠ [])

theorem events_comment {cs : List Char} (h : Plain cs) :
    (Buffer.fresh lastId).events (lines (':' :: (cs ++ '\n' :: '\n' :: rest))) =
      (Buffer.fresh lastId).events (lines rest) := by
  have hcomment := EventSource.lines_append (Json.plain_cons (c := ':') (by decide) h) ('\n' :: rest)
  rw [List.cons_append] at hcomment
  rw [hcomment, Buffer.events]
  rfl

end Frame

section Items

variable {told : List Delivery} {w : List Char}

theorem ofText_change {e : ChangeEvent} (h : e.Sound) :
    ChangeEvent.codec.ofText (ChangeEvent.codec.encode e).print = .ok e :=
  ((exact_change h).ofText_print _).trans (ChangeEvent.readsBack h)

theorem ofText_gap {missed : Nat} (h : missed < Bounds.word64) :
    StreamItem.gapCodec.ofText (StreamItem.gapCodec.encode missed).print = .ok missed :=
  ((exact_gap h).ofText_print _).trans (StreamItem.readsBack_gap h)

theorem carry_events (hsound : ∀ item, .item item ∈ told → item.Sound) (h : Sent (told.map chunk) w)
    (lastId : List Char) :
    Carry (.ofList lastId) ((Buffer.fresh lastId).events (lines w)) (delivered told) := by
  -- Between two deliveries the buffer is fresh, so that only the last id is carried from one to the next.
  induction told generalizing w lastId with
  | nil =>
    cases h
    exact .done _
  | cons d told ih =>
    have hrest : ∀ item, .item item ∈ told → item.Sound := fun item hitem =>
      hsound item (List.mem_cons_of_mem _ hitem)
    cases d with
    | item item =>
      have hitem := hsound item List.mem_cons_self
      cases h with
      | text h =>
      cases item with
      | change e =>
        rw [events_change hitem]
        refine .change (ofText_change hitem) ?_
        rw [Nat.toString_eq_ofList_toDigits]
        exact ih hrest h _
      | gap missed =>
        rw [events_gap hitem]
        exact .gap (ofText_gap hitem) (ih hrest h lastId)
    | pending =>
      cases h with
      | quiet h => exact ih hrest h lastId
      | comment hcs h =>
        rw [events_comment hcs]
        exact ih hrest h lastId
    | closed =>
      cases h
      exact .done _

/-- No content starts with a byte order mark. -/
theorem head?_sent (h : Sent (told.map chunk) w) : w.head? ≠ some '\uFEFF' := by
  induction told generalizing w with
  | nil =>
    cases h
    nofun
  | cons d told ih =>
    cases d with
    | item item =>
      cases h
      cases item <;> exact fun heq => absurd (Option.some.inj heq) (by decide)
    | pending =>
      cases h with
      | quiet h => exact ih h
      | comment => exact fun heq => absurd (Option.some.inj heq) (by decide)
    | closed =>
      cases h
      nofun

/-- Whatever is delivered, a client reads one event for each item. -/
theorem carry_read (hsound : ∀ item, .item item ∈ told → item.Sound) (h : Sent (told.map chunk) w) :
    Carry "" (EventSource.read (Text.Utf8.encode w)) (delivered told) := by
  rw [EventSource.read_encode (head?_sent h)]
  exact carry_events hsound h []

end Items

theorem action_changes : (⟨.get, "/api/switches/changes", none, ""⟩ : Request).action = .subscribe := rfl

/-- Whatever a subscription is told, and whatever stands in the numbers of the switches, a client that asks for
the changes reads one event for each item, in their order, and nothing else; what has been sent is all there is
to come once the subscription has been told of its end. -/
theorem read_as_delivered :
    (∀ (told : List Delivery) (w : List Char), (∀ item, .item item ∈ told → item.Sound) →
      Sent (told.map chunk) w → Carry "" (EventSource.read (Text.Utf8.encode w)) (delivered told)) ∧
    ∀ (capacity : Nat) (before after : List Act) (p : Platform) (me : TaskId) (now : Nat),
      p.stream = (ChangeStream.ofCapacity capacity).play before →
      let id := p.stream.subscribe.1
      let opened := p.stream.subscribe.2
      let told := opened.answers id after
      (∃ q, Exchange.step me now (.start ⟨.get, "/api/switches/changes", none, ""⟩) p =
          (.finished ⟨200, some "text/event-stream", .events id⟩, q) ∧ q.stream = opened) ∧
        ((opened.play after).sequence < Bounds.word64 → ∀ w, Sent (told.map chunk) w →
          Carry "" (EventSource.read (Text.Utf8.encode w)) (told.filterMap Delivery.item?)) ∧
        (.closed ∈ told → ∀ more, ∀ d ∈ (opened.play after).answers id more, chunk d = .ended) := by
  refine ⟨fun told w => carry_read, fun capacity before after p me now hp => ?_⟩
  intro id opened told
  have hsettled : p.stream.Settled := by
    rw [hp]
    exact ChangeStream.settled_play (ChangeStream.settled_ofCapacity capacity) before
  have hnumbered : p.stream.Numbered := by
    rw [hp]
    exact (ChangeStream.Numbered.ofCapacity capacity).play before
  have hopened : ChangeStream.Told opened id false [] := ChangeStream.told_subscribe hsettled
  have htold := hopened.play after
  refine ⟨?_, fun hlast w hw => ?_, fun hclosed more d hd => ?_⟩
  · rw [Exchange.step, action_changes]
    exact ⟨_, rfl, rfl⟩
  · rw [← hopened.delivered after]
    refine carry_read (fun item hitem => ?_) hw
    exact ((hnumbered.enact (.op .subscribe)).answers hitem).sound hlast
  · have hover : ¬(opened.play after).Listens id := fun hlistens =>
      hlistens.1 (htold.place.mpr (.inr (by simpa using hclosed)))
    rw [htold.all_closed hover more d hd]
    rfl

/-- A switch whose number looks like the rest of one event and the whole of another. -/
def forged : SwitchNumber := ⟨"S1\"\n\nevent: gap\r\ndata: \x7b\"missed\":9\x7d\n\n", by decide⟩

/-- The forged number makes no event of its own: a client reads the change, and then the end. -/
theorem read_as_delivered_forged :
    let e : ChangeEvent := ⟨1, forged, true, 5⟩
    let p := Platform.ofConfig .default (.ofConfig .default) ⟨0⟩ ⟨0, 0, 0⟩
    let told := p.stream.subscribe.2.answers p.stream.subscribe.1
      [.op (.publish forged true 5), .op (.recv 0), .shutdown, .op (.recv 0)]
    told = [.item (.change e), .closed] ∧ Sent (told.map chunk) (frame (.change e)) ∧
      ∃ data, ChangeEvent.codec.ofText data = .ok e ∧
        EventSource.read (Text.Utf8.encode (frame (.change e))) = [⟨"change", some "1", "1", data⟩] := by
  intro e p told
  have hone : toString e.sequence = "1" := by decide +kernel
  have htold : told = [.item (.change e), .closed] := by decide +kernel
  have hsent : Sent (told.map chunk) (frame (.change e)) := by
    rw [htold, ← List.append_nil (frame (.change e))]
    exact .text .ended
  refine ⟨htold, hsent, ?_⟩
  have hcarry : Carry "" (EventSource.read (Text.Utf8.encode (frame (.change e)))) [.change e] := by
    have hitems : told.filterMap Delivery.item? = [.change e] := by rw [htold]; rfl
    rw [← hitems]
    exact (read_as_delivered.2 _ [] _ p 0 0 rfl).2.1 (by decide +kernel) _ hsent
  generalize EventSource.read (Text.Utf8.encode (frame (.change e))) = received at hcarry
  cases hcarry with
  | change hdata hrest =>
    cases hrest
    exact ⟨_, hdata, by rw [hone]⟩

end Playfield.Http.EventStream
