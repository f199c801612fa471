import Playfield.Proofs.Stream.Closing
import Playfield.Proofs.Wire.Hardware

/-! The numbers in what a subscription is told. No change has a greater number than was given out, and no more
changes are missed than were sent, so that all of them fit into a word as long as the numbers given out do. And
nothing comes after the end. -/
namespace Playfield

namespace StreamItem

variable {item : StreamItem} {m n : Nat}

/-- The number in the item is at most `n`. -/
def UpTo (n : Nat) : StreamItem → Prop
  | .change e => e.sequence ≤ n
  | .gap missed => missed ≤ n

theorem UpTo.mono (h : item.UpTo m) (hmn : m ≤ n) : item.UpTo n := by
  cases item <;> exact Nat.le_trans h hmn

theorem UpTo.sound (h : item.UpTo n) (hn : n < Bounds.word64) : item.Sound := by
  cases item with
  | change e => exact ⟨Nat.lt_of_le_of_lt h hn, e.switch.not_blank, e.timestamp.toNat_lt⟩
  | gap missed => exact Nat.lt_of_le_of_lt h hn

end StreamItem

namespace ChangeStream

variable {s : ChangeStream} {id : SubscriptionId}

theorem sequence_enact (s : ChangeStream) (act : Act) : s.sequence ≤ (s.enact act).sequence := by
  cases act with
  | op op =>
    cases op with
    | publish => exact Nat.le_succ _
    | recv i => exact Nat.le_of_eq (sequence_recv s i).symm
    | subscribe | close | drop => exact Nat.le_refl _
  | abandon | shutdown | dropPublisher => exact Nat.le_refl _

theorem sequence_play (s : ChangeStream) (acts : List Act) : s.sequence ≤ (s.play acts).sequence := by
  induction acts generalizing s with
  | nil => exact Nat.le_refl _
  | cons act acts ih => exact Nat.le_trans (sequence_enact s act) (ih (s.enact act))

/-- What was sent, and what is kept of it, has been numbered. -/
structure Numbered (s : ChangeStream) : Prop where
  sent : s.channel.sent ≤ s.sequence
  retained : ∀ e ∈ s.channel.retained, e.sequence ≤ s.sequence

namespace Numbered

theorem ofCapacity (capacity : Nat) : (ofCapacity capacity).Numbered := ⟨Nat.le_refl 0, nofun⟩

theorem publish (h : s.Numbered) (switch : SwitchNumber) (isActive : Bool) (timestamp : UInt64) :
    (s.publish switch isActive timestamp).2.Numbered := by
  have hold : ∀ e ∈ s.channel.retained, e.sequence ≤ s.sequence + 1 := fun e he =>
    Nat.le_succ_of_le (h.retained e he)
  by_cases hcount : s.subscriberCount = 0
  · have hchannel : (s.publish switch isActive timestamp).2.channel = s.channel := if_pos hcount
    constructor
    · exact hchannel ▸ Nat.le_succ_of_le h.sent
    · exact hchannel ▸ hold
  · have hchannel : (s.publish switch isActive timestamp).2.channel =
        s.channel.send ⟨s.sequence + 1, switch, isActive, timestamp⟩ := if_neg hcount
    constructor
    · rw [hchannel]
      exact Nat.succ_le_succ h.sent
    · rw [hchannel]
      intro e he
      rcases List.mem_append.mp (List.mem_of_mem_drop he) with he | he
      · exact hold e he
      · obtain rfl := List.mem_singleton.mp he
        exact Nat.le_refl _

theorem enact (h : s.Numbered) (act : Act) : (s.enact act).Numbered := by
  cases act with
  | op op =>
    cases op with
    | publish switch isActive timestamp => exact h.publish switch isActive timestamp
    | recv i =>
      have hchannel : (s.enact (.op (.recv i))).channel = s.channel := channel_recv s i
      have hsequence : (s.enact (.op (.recv i))).sequence = s.sequence := sequence_recv s i
      exact ⟨by rw [hchannel, hsequence]; exact h.sent, by rw [hchannel, hsequence]; exact h.retained⟩
    | subscribe | close | drop => exact ⟨h.sent, h.retained⟩
  | abandon | shutdown | dropPublisher => exact ⟨h.sent, h.retained⟩

theorem play (h : s.Numbered) (acts : List Act) : (s.play acts).Numbered := by
  induction acts generalizing s with
  | nil => exact h
  | cons act acts ih => exact ih (h.enact act)

theorem read? (h : s.Numbered) {place next : Nat} {item : StreamItem}
    (hread : s.channel.read? place = some (item, next)) : item.UpTo s.sequence := by
  unfold Channel.read? at hread
  split at hread
  · cases hread
    have holdest : s.channel.oldest ≤ s.channel.sent := Nat.sub_le _ _
    exact Nat.le_trans (Nat.le_trans (Nat.sub_le _ _) holdest) h.sent
  · obtain ⟨e, he, hitem⟩ := Option.map_eq_some_iff.mp hread
    cases hitem
    exact h.retained e (List.mem_of_getElem? he)

theorem recv (h : s.Numbered) {item : StreamItem} (hitem : (s.recv id).1 = .item item) :
    item.UpTo s.sequence := by
  unfold ChangeStream.recv at hitem
  split at hitem
  · cases hitem
  · split at hitem
    · cases hitem
    · split at hitem
      · cases hitem
      next hread =>
        cases hitem
        exact h.read? hread

theorem answer (h : s.Numbered) {act : Act} {item : StreamItem} (hitem : .item item ∈ s.answer id act) :
    item.UpTo s.sequence := by
  unfold ChangeStream.answer at hitem
  split at hitem
  next i =>
    split at hitem
    next hi =>
      subst hi
      exact h.recv (List.mem_singleton.mp hitem).symm
    next => cases hitem
  next => cases hitem

/-- Whatever is delivered in a run has a number that has been given out by its end. -/
theorem answers (h : s.Numbered) {acts : List Act} {item : StreamItem}
    (hitem : .item item ∈ s.answers id acts) : item.UpTo (s.play acts).sequence := by
  induction acts generalizing s with
  | nil => cases hitem
  | cons act acts ih =>
    rcases List.mem_append.mp hitem with hitem | hitem
    -- The numbers that have been given out when the item is delivered only grow from there.
    · exact (h.answer hitem).mono (sequence_play s (act :: acts))
    · exact ih (h.enact act) hitem

end Numbered

/-- The items that are told of before the end. -/
def delivered (told : List Delivery) : List StreamItem :=
  (told.takeWhile (· ≠ .closed)).filterMap Delivery.item?

theorem filterMap_of_closed {told : List Delivery} (h : ∀ d ∈ told, d = .closed) :
    told.filterMap Delivery.item? = [] := by
  refine List.filterMap_eq_nil_iff.mpr fun d hd => ?_
  rw [h d hd]
  rfl

/-- No item is told of after the end. -/
theorem Told.delivered {left : Bool} {told : List Delivery} (h : Told s id left told) (acts : List Act) :
    delivered (s.answers id acts) = (s.answers id acts).filterMap Delivery.item? := by
  induction acts generalizing s left told with
  | nil => rfl
  | cons act acts ih =>
    have hrest := ih (h.enact act)
    have hclosed (hover : ¬(s.enact act).Listens id) := (h.enact act).all_closed hover acts
    have hfares := fares h.opened act
    rw [answers]
    unfold ChangeStream.delivered at hrest ⊢
    generalize s.answer id act = answer, act.leaves id = leaves at hfares
    cases hfares with
    | aside | left => exact hrest
    | pending => exact hrest
    | @given item next _ _ => exact congrArg (item :: ·) hrest
    | shut _ hp => exact (filterMap_of_closed (hclosed (fun hlistens => hlistens.1 hp))).symm

end ChangeStream
end Playfield
