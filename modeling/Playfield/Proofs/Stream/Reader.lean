import Mathlib.Data.List.DropRight
import Mathlib.Data.List.Induction
import Playfield.Proofs.Map
import Playfield.Proofs.Stream.Channel

/-! One subscriber at a change stream. A reader knows the list of all changes that were published and its own
place in that list, and nothing of other subscribers; what a subscription is given is what its reader gets. -/
namespace Playfield

namespace ChangeStream

/-- What may happen to a stream before it is shut down. -/
inductive Op where
  | publish (switch : SwitchNumber) (isActive : Bool) (timestamp : UInt64)
  | subscribe
  | recv (id : SubscriptionId)
  | close (id : SubscriptionId)
  | drop (id : SubscriptionId)
deriving DecidableEq, Repr

def perform (s : ChangeStream) : Op → ChangeStream
  | .publish switch isActive timestamp => (s.publish switch isActive timestamp).2
  | .subscribe => s.subscribe.2
  | .recv id => (s.recv id).2
  | .close id => s.close id
  | .drop id => s.drop id

def run (s : ChangeStream) (ops : List Op) : ChangeStream := ops.foldl perform s

def published? (s : ChangeStream) : Op → Option ChangeEvent
  | .publish switch isActive timestamp => some (s.publish switch isActive timestamp).1
  | _ => none

def delivered? (id : SubscriptionId) (s : ChangeStream) : Op → Option Delivery
  | .recv i => if i = id then some (s.recv i).1 else none
  | _ => none

/-- What there is to see of a stream, operation by operation. -/
def observe {α : Type} (look : ChangeStream → Op → Option α) (s : ChangeStream) : List Op → List α
  | [] => []
  | op :: ops => (look s op).toList ++ observe look (s.perform op) ops

/-- Whether an operation is of concern to the subscription `id`: it is no doing of another subscriber. -/
def Op.concerns (id : SubscriptionId) : Op → Bool
  | .publish .. | .subscribe => true
  | .recv i | .close i | .drop i => decide (i = id)

def place (s : ChangeStream) (id : SubscriptionId) : Option Nat := (s.subscriptions[id]?).bind (·.place)

variable {s : ChangeStream} {id i : SubscriptionId}

@[simp] theorem run_nil : s.run [] = s := rfl

@[simp] theorem run_cons (op : Op) (ops : List Op) : s.run (op :: ops) = (s.perform op).run ops := rfl

@[simp] theorem run_append (ops ops' : List Op) : s.run (ops ++ ops') = (s.run ops).run ops' :=
  List.foldl_append ..

theorem observe_append {α : Type} (look : ChangeStream → Op → Option α) (ops ops' : List Op) :
    observe look s (ops ++ ops') = observe look s ops ++ observe look (s.run ops) ops' := by
  induction ops generalizing s with
  | nil => rfl
  | cons op ops ih => simp [observe, ih]

theorem place_close : (s.close i).place id = if i = id then none else s.place id := by
  simp only [place, close, Std.ExtTreeMap.getElem?_modify]
  by_cases h : i = id
  · subst h
    cases s.subscriptions[i]? <;> simp
  · simp [Std.LawfulEqCmp.compare_eq_iff_eq, h]

theorem place_drop : (s.drop i).place id = if i = id then none else s.place id := by
  simp only [place, drop, Map.getElem?_erase]
  split <;> rfl

theorem place_subscribe :
    s.subscribe.2.place id = if s.nextId = id then some s.channel.sent else s.place id := by
  simp only [place, subscribe, Map.getElem?_insert]
  split <;> rfl

/-- While somebody listens, what is published is sent. -/
theorem subscriberCount_ne_zero {k : Nat} (h : s.place id = some k) : s.subscriberCount ≠ 0 := by
  obtain ⟨sub, hs, hp⟩ := Option.bind_eq_some_iff.mp h
  have hm : sub ∈ s.subscriptions.values := (Map.mem_values _).mpr ⟨id, hs⟩
  have hf : sub ∈ s.subscriptions.values.filter (·.place.isSome) :=
    List.mem_filter.mpr ⟨hm, by rw [hp]; rfl⟩
  exact fun h0 => by simp [List.length_eq_zero_iff.mp h0] at hf

theorem recv_of_none (h : s.place i = none) : s.recv i = (.closed, s) := by
  rw [place] at h
  rw [recv, h]

theorem recv_of_some {k : Nat} (h : s.place i = some k) (hl : s.publisher = .live) :
    s.recv i =
      match s.channel.read? k with
      | none => (.pending, s)
      | some (item, next) =>
        (.item item, { s with subscriptions := s.subscriptions.insert i ⟨.streaming, some next⟩ }) := by
  rw [place] at h
  rw [recv, h]
  exact if_neg (not_not_intro hl)

theorem channel_recv (s : ChangeStream) (i : SubscriptionId) : (s.recv i).2.channel = s.channel := by
  unfold recv
  repeat' split
  all_goals rfl

theorem sequence_recv (s : ChangeStream) (i : SubscriptionId) : (s.recv i).2.sequence = s.sequence := by
  unfold recv
  repeat' split
  all_goals rfl

theorem place_insert (sub : Subscription) :
    ChangeStream.place { s with subscriptions := s.subscriptions.insert i sub } id =
      if i = id then sub.place else s.place id := by
  simp only [place, Map.getElem?_insert]
  split <;> rfl

/-- The event is published from `s` to `s'`: it has the next number, the channel has it last if anybody
listens, and nothing else becomes of the stream. -/
structure Publishes (s : ChangeStream) (event : ChangeEvent) (s' : ChangeStream) : Prop where
  number : event.sequence = s.sequence + 1
  others : s' = { s with sequence := event.sequence, channel := s'.channel }
  unheard : (∀ id, s.place id = none) → s'.channel = s.channel
  heard : ∀ id k, s.place id = some k → s'.channel =
    { s.channel with
      retained := (s.channel.retained ++ [event]).rtake s.channel.capacity
      sent := s.channel.sent + 1 }

theorem subscriberCount_eq_zero (h : ∀ id, s.place id = none) : s.subscriberCount = 0 := by
  refine List.length_eq_zero_iff.mpr (List.filter_eq_nil_iff.mpr fun sub hm => ?_)
  obtain ⟨id, hs⟩ := (Map.mem_values _).mp hm
  have hplace : sub.place = none := (congrArg (Option.bind · Subscription.place) hs).symm.trans (h id)
  simp [hplace]

theorem publishes_publish (s : ChangeStream) (switch : SwitchNumber) (isActive : Bool)
    (timestamp : UInt64) :
    s.Publishes (s.publish switch isActive timestamp).1 (s.publish switch isActive timestamp).2 where
  number := rfl
  others := rfl
  unheard := fun h => if_pos (subscriberCount_eq_zero h)
  heard := fun _ _ h => if_neg (subscriberCount_ne_zero h)

/-- What becomes of a stream in a step with these events to publish, which are none or one. -/
inductive Emits (s : ChangeStream) : List ChangeEvent → ChangeStream → Prop
  | nothing : Emits s [] s
  | change {event s'} : s.Publishes event s' → Emits s [event] s'

end ChangeStream

/-- One subscriber, who knows every change that was published and a place among them. -/
structure Reader where
  events : List ChangeEvent
  /-- How many subscriptions were opened. -/
  opened : Nat
  place : Option Nat

namespace Reader

open ChangeStream

def empty : Reader := ⟨[], 0, none⟩

/-- What a reader gets of a stream that keeps `capacity` events. -/
def recv (capacity : Nat) (r : Reader) : Delivery × Reader :=
  match r.place with
  | none => (.closed, r)
  | some p =>
    if p + capacity < r.events.length then
      (.item (.gap (r.events.length - capacity - p)),
        { r with place := some (r.events.length - capacity) })
    else
      match r.events[p]? with
      | some event => (.item (.change event), { r with place := some (p + 1) })
      | none => (.pending, r)

section Recv

variable {capacity p : Nat} {r : Reader}

theorem recv_of_away (hp : r.place = none) : r.recv capacity = (.closed, r) := by
  rw [recv, hp]

/-- A reader that is too far behind skips what is no longer kept. -/
theorem recv_of_behind (hp : r.place = some p) (hb : p + capacity < r.events.length) :
    r.recv capacity = (.item (.gap (r.events.length - capacity - p)),
      { r with place := some (r.events.length - capacity) }) := by
  rw [recv, hp]
  exact if_pos hb

theorem recv_of_near (hp : r.place = some p) (hb : ¬p + capacity < r.events.length)
    {event : ChangeEvent} (he : r.events[p]? = some event) :
    r.recv capacity = (.item (.change event), { r with place := some (p + 1) }) := by
  rw [recv, hp]
  dsimp only
  rw [if_neg hb, he]

theorem recv_of_done (hp : r.place = some p) (he : r.events[p]? = none) :
    r.recv capacity = (.pending, r) := by
  have hlen : r.events.length ≤ p := List.getElem?_eq_none_iff.mp he
  rw [recv, hp]
  dsimp only
  rw [if_neg (by omega), he]

end Recv

theorem events_recv (r : Reader) (capacity : Nat) : (r.recv capacity).2.events = r.events := by
  unfold recv
  repeat' split
  all_goals rfl

def perform (capacity : Nat) (id : SubscriptionId) (r : Reader) : Op → Reader
  | .publish switch isActive timestamp =>
    { r with events := r.events ++ [⟨r.events.length + 1, switch, isActive, timestamp⟩] }
  | .subscribe =>
    { r with
      opened := r.opened + 1
      place := if r.opened = id then some r.events.length else r.place }
  | .recv i => if i = id then (r.recv capacity).2 else r
  | .close i | .drop i => if i = id then { r with place := none } else r

def run (capacity : Nat) (id : SubscriptionId) (r : Reader) (ops : List Op) : Reader :=
  ops.foldl (perform capacity id) r

/-- The changes that the reader learns of with an operation. -/
def learns (r : Reader) : Op → List ChangeEvent
  | .publish switch isActive timestamp => [⟨r.events.length + 1, switch, isActive, timestamp⟩]
  | .subscribe | .recv _ | .close _ | .drop _ => []

/-- Only what is published is added to what the reader knows. -/
theorem events_perform (r : Reader) (capacity : Nat) (id : SubscriptionId) (op : Op) :
    (r.perform capacity id op).events = r.events ++ r.learns op := by
  cases op with
  | publish => rfl
  | subscribe => exact (List.append_nil _).symm
  | recv i =>
      refine Eq.trans ?_ (List.append_nil _).symm
      change (if i = id then (r.recv capacity).2 else r).events = r.events
      split
      · exact r.events_recv capacity
      · rfl
  | close i | drop i =>
      refine Eq.trans ?_ (List.append_nil _).symm
      change (if i = id then { r with place := none } else r).events = r.events
      split <;> rfl

def deliveries (capacity : Nat) (id : SubscriptionId) (r : Reader) : List Op → List Delivery
  | [] => []
  | op :: ops =>
    (if op = .recv id then [(r.recv capacity).1] else []) ++
      deliveries capacity id (r.perform capacity id op) ops

end Reader

/-- How a place in the channel corresponds to a place among all changes: what lies ahead is the same. -/
inductive Abreast (sent events : List ChangeEvent) : Option Nat → Option Nat → Prop
  | away : Abreast sent events none none
  | listens {k p : Nat} : k ≤ sent.length → p ≤ events.length → sent.drop k = events.drop p →
      Abreast sent events (some k) (some p)

namespace Abreast

variable {sent events : List ChangeEvent} {k p : Nat}

theorem publish {u v : Option Nat} (h : Abreast sent events u v) (e : ChangeEvent) :
    Abreast (sent ++ [e]) (events ++ [e]) u v := by
  cases h with
  | away => exact .away
  | listens hk hp hd =>
      refine .listens ?_ ?_ ?_
      · rw [List.length_append]
        omega
      · rw [List.length_append]
        omega
      · rw [List.drop_append_of_le_length hk, List.drop_append_of_le_length hp, hd]

/-- What is not sent makes no difference to one who does not listen. -/
theorem publish_away {v : Option Nat} (h : Abreast sent events none v) (events' : List ChangeEvent) :
    Abreast sent events' none v := by
  cases h
  exact .away

theorem ahead (h : Abreast sent events (some k) (some p)) :
    k ≤ sent.length ∧ p ≤ events.length ∧ sent.length - k = events.length - p := by
  cases h with
  | listens hk hp hd =>
      refine ⟨hk, hp, ?_⟩
      rw [← List.length_drop, hd, List.length_drop]

theorem getElem? (h : Abreast sent events (some k) (some p)) : sent[k]? = events[p]? := by
  cases h with
  | listens hk hp hd =>
      rw [← Nat.add_zero k, ← Nat.add_zero p, ← List.getElem?_drop, hd, List.getElem?_drop]

theorem move (h : Abreast sent events (some k) (some p)) {m : Nat} (hm : k + m ≤ sent.length) :
    Abreast sent events (some (k + m)) (some (p + m)) := by
  obtain ⟨hk, hp, hl⟩ := h.ahead
  cases h with
  | listens _ _ hd =>
      refine .listens hm (by omega) ?_
      rw [← List.drop_drop, hd, List.drop_drop]

end Abreast

structure Follows (id : SubscriptionId) (s : ChangeStream) (r : Reader) : Prop where
  live : s.publisher = .live
  sequence : s.sequence = r.events.length
  opened : s.nextId = r.opened
  abreast : ∃ sent, s.channel.Keeps sent ∧ Abreast sent r.events (s.place id) r.place

namespace Follows

open ChangeStream

variable {id i : SubscriptionId} {s : ChangeStream} {r : Reader}

theorem ofCapacity (id : SubscriptionId) (capacity : Nat) :
    Follows id (.ofCapacity capacity) .empty where
  live := rfl
  sequence := rfl
  opened := rfl
  abreast := ⟨[], Channel.keeps_nil _, by
    rw [show (ChangeStream.ofCapacity capacity).place id = none from rfl]
    exact .away⟩

variable (h : Follows id s r)

include h

theorem publish (switch : SwitchNumber) (isActive : Bool) (timestamp : UInt64) :
    (s.publish switch isActive timestamp).1 =
        ⟨r.events.length + 1, switch, isActive, timestamp⟩ ∧
      Follows id (s.publish switch isActive timestamp).2
        (r.perform s.capacity id (.publish switch isActive timestamp)) := by
  have he : (s.publish switch isActive timestamp).1 =
      ⟨r.events.length + 1, switch, isActive, timestamp⟩ := by
    rw [← h.sequence]
    rfl
  refine ⟨he, h.live, ?_, h.opened, ?_⟩
  · simp [ChangeStream.publish, Reader.perform, h.sequence]
  · obtain ⟨sent, hk, ha⟩ := h.abreast
    have hplace : (s.publish switch isActive timestamp).2.place id = s.place id := rfl
    rw [hplace]
    by_cases hc : s.subscriberCount = 0
    · have hn : s.place id = none := by
        cases hp : s.place id with
        | none => rfl
        | some k => exact absurd hc (subscriberCount_ne_zero hp)
      rw [hn] at ha ⊢
      refine ⟨sent, ?_, ha.publish_away _⟩
      simpa [ChangeStream.publish, hc] using hk
    · refine ⟨sent ++ [(s.publish switch isActive timestamp).1], ?_, ?_⟩
      · have hch : (s.publish switch isActive timestamp).2.channel =
            s.channel.send (s.publish switch isActive timestamp).1 := by
          simp [ChangeStream.publish, hc]
        rw [hch]
        exact hk.send _
      · rw [he]
        exact ha.publish _

theorem subscribe : Follows id s.subscribe.2 (r.perform s.capacity id .subscribe) := by
  obtain ⟨sent, hk, ha⟩ := h.abreast
  refine ⟨h.live, h.sequence, congrArg (· + 1) h.opened, sent, hk, ?_⟩
  rw [place_subscribe, h.opened, Reader.perform]
  dsimp only
  split
  · rw [hk.sent_eq]
    exact .listens (Nat.le_refl _) (Nat.le_refl _) (by rw [List.drop_length, List.drop_length])
  · exact ha

/-- A subscription ends, maybe another one. -/
theorem ends {s' : ChangeStream} (hl : s'.publisher = s.publisher) (hs : s'.sequence = s.sequence)
    (hn : s'.nextId = s.nextId) (hc : s'.channel = s.channel)
    (hp : s'.place id = if i = id then none else s.place id) :
    Follows id s' (if i = id then { r with place := none } else r) := by
  obtain ⟨sent, hk, ha⟩ := h.abreast
  split
  · next hi =>
    refine ⟨hl.trans h.live, hs.trans h.sequence, hn.trans h.opened, sent, hc ▸ hk, ?_⟩
    rw [hp, if_pos hi]
    exact .away
  · next hi =>
    refine ⟨hl.trans h.live, hs.trans h.sequence, hn.trans h.opened, sent, hc ▸ hk, ?_⟩
    rw [hp, if_neg hi]
    exact ha

theorem close (i : SubscriptionId) : Follows id (s.close i) (r.perform s.capacity id (.close i)) :=
  h.ends rfl rfl rfl rfl place_close

theorem drop (i : SubscriptionId) : Follows id (s.drop i) (r.perform s.capacity id (.drop i)) :=
  h.ends rfl rfl rfl rfl place_drop

theorem recv_other (hi : i ≠ id) : Follows id (s.recv i).2 r := by
  obtain ⟨sent, hk, ha⟩ := h.abreast
  cases hp : s.place i with
  | none => exact (recv_of_none hp) ▸ h
  | some k =>
      rw [recv_of_some hp h.live]
      cases s.channel.read? k with
      | none => exact h
      | some x =>
          refine ⟨h.live, h.sequence, h.opened, sent, hk, ?_⟩
          rw [show ChangeStream.place _ id = s.place id by
            simp only [place, Map.getElem?_insert, if_neg hi]]
          exact ha

/-- A poll of the subscription gives what the reader gets. -/
theorem recv : (s.recv id).1 = (r.recv s.capacity).1 ∧
    Follows id (s.recv id).2 (r.recv s.capacity).2 := by
  obtain ⟨sent, hk, ha⟩ := h.abreast
  cases hp : s.place id with
  | none =>
      rw [hp] at ha
      cases hr : r.place with
      | some p =>
          rw [hr] at ha
          cases ha
      | none =>
          rw [recv_of_none hp, Reader.recv_of_away hr]
          exact ⟨rfl, h⟩
  | some k =>
      rw [hp] at ha
      cases hr : r.place with
      | none =>
          rw [hr] at ha
          cases ha
      | some p =>
          rw [hr] at ha
          obtain ⟨hks, hpe, hl⟩ := ha.ahead
          have hcap : s.capacity = s.channel.capacity := rfl
          rw [recv_of_some hp h.live]
          by_cases hb : p + s.capacity < r.events.length
          · have hb' : k + s.channel.capacity < sent.length := by omega
            have hm := ha.move (m := sent.length - s.channel.capacity - k) (by omega)
            have hkm : k + (sent.length - s.channel.capacity - k) =
                sent.length - s.channel.capacity := by omega
            have hpm : p + (sent.length - s.channel.capacity - k) =
                r.events.length - s.capacity := by omega
            have hgap : sent.length - s.channel.capacity - k = r.events.length - s.capacity - p := by
              omega
            rw [hkm, hpm] at hm
            rw [hk.read?_of_behind hb', Reader.recv_of_behind hr hb, hgap]
            refine ⟨rfl, h.live, h.sequence, h.opened, sent, hk, ?_⟩
            rw [place_insert, if_pos rfl]
            exact hm
          · rw [hk.read?_of_near (by omega), ha.getElem?]
            cases he : r.events[p]? with
            | none =>
                rw [Reader.recv_of_done hr he]
                exact ⟨rfl, h⟩
            | some event =>
                have hlt := (List.getElem?_eq_some_iff.mp he).1
                rw [Reader.recv_of_near hr hb he]
                refine ⟨rfl, h.live, h.sequence, h.opened, sent, hk, ?_⟩
                dsimp only [Option.map_some]
                rw [place_insert, if_pos rfl]
                exact ha.move (by omega)

theorem perform (op : Op) : Follows id (s.perform op) (r.perform s.capacity id op) := by
  cases op with
  | publish switch isActive timestamp => exact (h.publish switch isActive timestamp).2
  | subscribe => exact h.subscribe
  | close i => exact h.close i
  | drop i => exact h.drop i
  | recv i =>
      rw [Reader.perform]
      split
      · next hi => exact hi ▸ h.recv.2
      · next hi => exact h.recv_other hi

omit h in
theorem capacity_perform (s : ChangeStream) (op : Op) : (s.perform op).capacity = s.capacity := by
  cases op with
  | publish switch isActive timestamp =>
      simp only [ChangeStream.perform, ChangeStream.publish, ChangeStream.capacity]
      split <;> rfl
  | subscribe => rfl
  | close i => rfl
  | drop i => rfl
  | recv i =>
      simp only [ChangeStream.perform, ChangeStream.recv]
      repeat' split
      all_goals rfl

omit h in
theorem capacity_run (s : ChangeStream) (ops : List Op) : (s.run ops).capacity = s.capacity := by
  induction ops generalizing s with
  | nil => rfl
  | cons op ops ih => rw [run_cons, ih, capacity_perform]

theorem run (ops : List Op) : Follows id (s.run ops) (r.run s.capacity id ops) := by
  induction ops generalizing s r with
  | nil => exact h
  | cons op ops ih =>
      have hr := ih (h.perform op)
      rw [capacity_perform] at hr
      exact hr

theorem deliveries (ops : List Op) :
    observe (delivered? id) s ops = r.deliveries s.capacity id ops := by
  induction ops generalizing s r with
  | nil => rfl
  | cons op ops ih =>
      rw [observe, ih (h.perform op), capacity_perform, Reader.deliveries]
      congr 1
      cases op with
      | recv i =>
          by_cases hi : i = id
          · subst hi
            simp [delivered?, h.recv.1]
          · simp [delivered?, hi]
      | _ => simp [delivered?]

theorem published (ops : List Op) :
    (r.run s.capacity id ops).events = r.events ++ observe published? s ops := by
  induction ops generalizing s r with
  | nil => exact (List.append_nil _).symm
  | cons op ops ih =>
      have hr := ih (h.perform op)
      rw [capacity_perform] at hr
      change ((r.perform s.capacity id op).run s.capacity id ops).events = _
      rw [hr, observe, ← List.append_assoc, r.events_perform]
      congr 2
      cases op with
      | publish switch isActive timestamp =>
          rw [published?, (h.publish switch isActive timestamp).1]
          rfl
      | _ => rfl

end Follows
end Playfield
