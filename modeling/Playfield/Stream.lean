import Std.Data.ExtTreeMap
import Playfield.Bounds
import Playfield.Change

/-! The change stream: published switch changes, fanned out to subscribers. All subscribers read one
bounded channel, each at its own place. One that falls further behind than the channel retains is
told how many changes it missed, and goes on with the oldest that is left. -/
namespace Playfield

/-- A channel that keeps the last `capacity` events sent. Events have places from 0 on. -/
structure Channel where
  capacity : Nat
  /-- The events still kept, oldest first. -/
  retained : List ChangeEvent
  sent : Nat
deriving DecidableEq, Repr

namespace Channel

/-- The most events that a channel can be made to keep. -/
def maxCapacity : Nat := (Bounds.word64 - 1) / 2

def oldest (c : Channel) : Nat := c.sent - c.retained.length

def send (c : Channel) (event : ChangeEvent) : Channel :=
  let retained := c.retained ++ [event]
  { c with retained := retained.drop (retained.length - c.capacity), sent := c.sent + 1 }

/-- Reads at the place `next`: the item there and the place after it, or nothing at the end. -/
def read? (c : Channel) (next : Nat) : Option (StreamItem × Nat) :=
  if next < c.oldest then some (.gap (c.oldest - next), c.oldest)
  else (c.retained[next - c.oldest]?).map fun event => (.change event, next + 1)

end Channel

inductive SubscriptionState where
  /-- Nothing delivered yet. -/
  | open
  /-- At least one item delivered. -/
  | streaming
  /-- Cancelled or shut down, for good. -/
  | closed
deriving DecidableEq, Repr

def SubscriptionState.word : SubscriptionState → String
  | .open => "open"
  | .streaming => "streaming"
  | .closed => "closed"

/-- One subscriber. It listens to the channel while it has a place there. -/
structure Subscription where
  state : SubscriptionState
  place : Option Nat
deriving DecidableEq, Repr

inductive Publisher where
  | live
  /-- Subscriptions are being closed; changes are still numbered. -/
  | shutDown
  | gone
deriving DecidableEq, Repr

inductive Delivery where
  | item (item : StreamItem)
  | pending
  | closed
deriving DecidableEq, Repr

abbrev SubscriptionId := Nat

structure ChangeStream where
  publisher : Publisher
  sequence : Nat
  channel : Channel
  subscriptions : Std.ExtTreeMap SubscriptionId Subscription
  nextId : SubscriptionId
deriving DecidableEq

namespace ChangeStream

/-- The least power of two that is at least `n`. -/
def powerAtLeast (n : Nat) : Nat := if n ≤ 1 then 1 else Nat.pow 2 ((n - 1).log2 + 1)

/-- A stream that keeps at least `capacity` events for its subscribers, and at least one. -/
def ofCapacity (capacity : Nat) : ChangeStream where
  publisher := .live
  sequence := 0
  channel := ⟨powerAtLeast capacity, [], 0⟩
  subscriptions := ∅
  nextId := 0

/-- The stream of `ofCapacity`, if there can be a channel for it. -/
def ofCapacity? (capacity : Nat) : Option ChangeStream :=
  if powerAtLeast capacity ≤ Channel.maxCapacity then some (.ofCapacity capacity) else none

def capacity (s : ChangeStream) : Nat := s.channel.capacity

def subscriberCount (s : ChangeStream) : Nat :=
  (s.subscriptions.values.filter (·.place.isSome)).length

def subscribe (s : ChangeStream) : SubscriptionId × ChangeStream :=
  (s.nextId, { s with
    subscriptions := s.subscriptions.insert s.nextId ⟨.open, some s.channel.sent⟩
    nextId := s.nextId + 1 })

/-- Publishes a change under the next sequence number. Without listeners the event is not kept. -/
def publish (s : ChangeStream) (switch : SwitchNumber) (isActive : Bool) (timestamp : UInt64) :
    ChangeEvent × ChangeStream :=
  let event : ChangeEvent := ⟨s.sequence + 1, switch, isActive, timestamp⟩
  let channel := if s.subscriberCount = 0 then s.channel else s.channel.send event
  (event, { s with sequence := s.sequence + 1, channel })

/-- Lets every subscription close, now and later. -/
def shutdown (s : ChangeStream) : ChangeStream :=
  { s with publisher := if s.publisher = .gone then .gone else .shutDown }

def dropPublisher (s : ChangeStream) : ChangeStream := { s with publisher := .gone }

/-- The state of a subscription; one that was dropped is closed. -/
def stateOf (s : ChangeStream) (id : SubscriptionId) : SubscriptionState :=
  (s.subscriptions[id]?).elim .closed (·.state)

def close (s : ChangeStream) (id : SubscriptionId) : ChangeStream :=
  { s with subscriptions := s.subscriptions.modify id fun _ => ⟨.closed, none⟩ }

def drop (s : ChangeStream) (id : SubscriptionId) : ChangeStream :=
  { s with subscriptions := s.subscriptions.erase id }

/-- Asks for the next item of a subscription. Once the stream is shut down or its publisher gone, the
subscription closes and what is left in the channel is not delivered. -/
def recv (s : ChangeStream) (id : SubscriptionId) : Delivery × ChangeStream :=
  match (s.subscriptions[id]?).bind (·.place) with
  | none => (.closed, s)
  | some place =>
    if s.publisher ≠ .live then (.closed, s.close id)
    else
      match s.channel.read? place with
      | none => (.pending, s)
      | some (item, next) =>
        (.item item,
          { s with subscriptions := s.subscriptions.insert id ⟨.streaming, some next⟩ })

end ChangeStream
end Playfield
