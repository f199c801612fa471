import Playfield.Proofs.Stream.Reader

/-! What a subscription is given. Its items walk through the numbers of the published changes without a break:
a change is the next one, and a gap stands for just those that the subscriber has missed. -/
namespace Playfield

def Delivery.item? : Delivery → Option StreamItem
  | .item i => some i
  | .pending | .closed => none

/-- How far an item takes one who has come as far as the change `p`. -/
def StreamItem.next? (p : Nat) : StreamItem → Option Nat
  | .change event => if event.sequence = p + 1 then some (p + 1) else none
  | .gap missed => if 1 ≤ missed then some (p + missed) else none

/-- How far items take one who has come as far as the change `p`. -/
def StreamItem.walk (p : Nat) (items : List StreamItem) : Option Nat := items.foldlM StreamItem.next? p

namespace Reader

open ChangeStream

/-- The subscription `id` was opened, has come as far as the change `q`, and has left or not. -/
structure At (id : SubscriptionId) (r : Reader) (q : Nat) (left : Bool) : Prop where
  place : r.place = if left then none else some q
  le : q ≤ r.events.length
  opened : id < r.opened
  numbered : r.events.map (·.sequence) = List.range' 1 r.events.length

/-- Whether the subscription `id` is given up with an operation. -/
def leaves (id : SubscriptionId) (op : Op) : Bool := decide (op = .close id ∨ op = .drop id)

/-- The item that the subscription `id` is given with an operation. -/
def item? (capacity : Nat) (id : SubscriptionId) (r : Reader) (op : Op) : Option StreamItem :=
  if op = .recv id then (r.recv capacity).1.item? else none

theorem numbered_append {events : List ChangeEvent} {event : ChangeEvent}
    (h : events.map (·.sequence) = List.range' 1 events.length)
    (he : event.sequence = events.length + 1) :
    (events ++ [event]).map (·.sequence) = List.range' 1 (events ++ [event]).length := by
  rw [List.map_append, h, List.length_append, List.length_singleton, List.range'_concat]
  simp [he, Nat.add_comm]

theorem sequence_of_getElem? {events : List ChangeEvent} {event : ChangeEvent} {q : Nat}
    (h : events.map (·.sequence) = List.range' 1 events.length) (he : events[q]? = some event) :
    event.sequence = q + 1 := by
  have hm : (events.map (·.sequence))[q]? = some event.sequence := by
    rw [List.getElem?_map, he]
    rfl
  have hq : q < events.length := (List.getElem?_eq_some_iff.mp he).1
  rw [h, List.getElem?_range' hq] at hm
  have hs := Option.some.inj hm
  omega

namespace At

variable {id : SubscriptionId} {r : Reader} {q : Nat} {left : Bool} (h : At id r q left)

include h

theorem recv_eq (capacity : Nat) :
    (r.recv capacity).1 =
      if left then .closed
      else if q + capacity < r.events.length then .item (.gap (r.events.length - capacity - q))
      else (r.events[q]?).elim .pending fun event => .item (.change event) := by
  rw [recv, h.place]
  cases left with
  | true => rfl
  | false =>
      simp only [Bool.false_eq_true, if_false]
      split
      · rfl
      · cases r.events[q]? <;> rfl

theorem recv (capacity : Nat) :
    ∃ q', StreamItem.walk q (r.recv capacity).1.item?.toList = some q' ∧
      At id (r.recv capacity).2 q' left ∧
      ∀ event, (r.recv capacity).1.item? = some (.change event) →
        r.events[event.sequence - 1]? = some event := by
  cases left with
  | true =>
      rw [recv_of_away h.place]
      exact ⟨q, rfl, h, fun event he => by cases he⟩
  | false =>
      have hp : r.place = some q := h.place
      by_cases hb : q + capacity < r.events.length
      · rw [recv_of_behind hp hb]
        refine ⟨r.events.length - capacity, ?_, ⟨rfl, Nat.sub_le _ _, h.opened, h.numbered⟩,
          fun event he => by cases he⟩
        have h1 : 1 ≤ r.events.length - capacity - q := by omega
        have h2 : q + (r.events.length - capacity - q) = r.events.length - capacity := by omega
        simp [StreamItem.walk, Delivery.item?, StreamItem.next?, h1, h2]
      · cases he : r.events[q]? with
        | none =>
            rw [recv_of_done hp he]
            exact ⟨q, rfl, h, fun event he => by cases he⟩
        | some event =>
            have hs := sequence_of_getElem? h.numbered he
            rw [recv_of_near hp hb he]
            refine ⟨q + 1, ?_, ⟨rfl, (List.getElem?_eq_some_iff.mp he).1, h.opened, h.numbered⟩, ?_⟩
            · simp [StreamItem.walk, Delivery.item?, StreamItem.next?, hs]
            · intro event' he'
              cases he'
              rw [hs]
              exact he

/-- Any operation takes the subscription as far as the item does that it is given. -/
theorem perform (capacity : Nat) (op : Op) :
    ∃ q', StreamItem.walk q (r.item? capacity id op).toList = some q' ∧
      At id (r.perform capacity id op) q' (left || leaves id op) ∧
      ∀ event, r.item? capacity id op = some (.change event) →
        r.events[event.sequence - 1]? = some event := by
  cases op with
  | publish switch isActive timestamp =>
      refine ⟨q, rfl, ⟨?_, ?_, h.opened, numbered_append h.numbered rfl⟩, fun event he => by cases he⟩
      · simpa [Reader.perform, leaves] using h.place
      · simpa [Reader.perform] using Nat.le_succ_of_le h.le
  | subscribe =>
      refine ⟨q, rfl, ⟨?_, h.le, Nat.lt_succ_of_lt h.opened, h.numbered⟩, fun event he => by cases he⟩
      simpa [Reader.perform, leaves, Nat.ne_of_gt h.opened] using h.place
  | recv i =>
      by_cases hi : i = id
      · subst hi
        obtain ⟨q', hw, ha, hm⟩ := h.recv capacity
        refine ⟨q', ?_, ?_, ?_⟩
        · simpa [item?] using hw
        · simpa [Reader.perform, leaves] using ha
        · simpa [item?] using hm
      · refine ⟨q, ?_, ?_, ?_⟩
        · simp [item?, hi, StreamItem.walk]
        · simpa [Reader.perform, leaves, hi] using h
        · simp [item?, hi]
  | close i | drop i =>
      refine ⟨q, rfl, ?_, fun event he => by cases he⟩
      by_cases hi : i = id
      · refine ⟨?_, ?_, ?_, ?_⟩
        all_goals simp [Reader.perform, leaves, hi, h.le, h.opened, h.numbered]
      · simpa [Reader.perform, leaves, hi] using h

end At

/-- What the reader knows only grows. -/
theorem events_run (capacity : Nat) (id : SubscriptionId) (r : Reader) (ops : List Op) :
    r.events <+: (r.run capacity id ops).events := by
  induction ops generalizing r with
  | nil => exact List.prefix_refl _
  | cons op ops ih =>
      have hstep : r.events <+: (r.perform capacity id op).events := by
        rw [r.events_perform]
        exact List.prefix_append _ _
      exact hstep.trans (ih _)

def items (capacity : Nat) (id : SubscriptionId) (r : Reader) (ops : List Op) : List StreamItem :=
  (r.deliveries capacity id ops).filterMap Delivery.item?

theorem items_cons (capacity : Nat) (id : SubscriptionId) (r : Reader) (op : Op) (ops : List Op) :
    r.items capacity id (op :: ops) =
      (r.item? capacity id op).toList ++ (r.perform capacity id op).items capacity id ops := by
  rw [items, deliveries, List.filterMap_append, item?]
  congr 1
  split
  · cases h : (r.recv capacity).1.item? <;> simp [h]
  · rfl

theorem At.run {id : SubscriptionId} {r : Reader} {q : Nat} {left : Bool} (h : At id r q left)
    (capacity : Nat) (ops : List Op) :
    ∃ q', StreamItem.walk q (r.items capacity id ops) = some q' ∧
      At id (r.run capacity id ops) q' (left || ops.any (leaves id)) ∧
      ∀ event, .change event ∈ r.items capacity id ops →
        (r.run capacity id ops).events[event.sequence - 1]? = some event := by
  induction ops generalizing r q left with
  | nil => exact ⟨q, rfl, by simpa [Reader.run] using h, fun event he => by cases he⟩
  | cons op ops ih =>
      obtain ⟨q₁, hw₁, h₁, hm₁⟩ := h.perform capacity op
      obtain ⟨q₂, hw₂, h₂, hm₂⟩ := ih h₁
      have hpre : r.events <+: ((r.perform capacity id op).run capacity id ops).events :=
        events_run capacity id r (op :: ops)
      rw [items_cons]
      refine ⟨q₂, ?_, ?_, ?_⟩
      · rw [StreamItem.walk, List.foldlM_append, ← StreamItem.walk, hw₁]
        exact hw₂
      · rw [List.any_cons, ← Bool.or_assoc]
        exact h₂
      · intro event he
        rcases List.mem_append.mp he with he | he
        · obtain ⟨rest, hrest⟩ := hpre
          have hx := hm₁ event (Option.mem_toList.mp he)
          have hlt := (List.getElem?_eq_some_iff.mp hx).1
          change ((r.perform capacity id op).run capacity id ops).events[event.sequence - 1]? = _
          rw [← hrest, List.getElem?_append_left hlt, hx]
        · exact hm₂ event he

theorem perform_of_not_concerns (capacity : Nat) {id : SubscriptionId} (r : Reader) {op : Op}
    (h : op.concerns id = false) : r.perform capacity id op = r ∧ op ≠ .recv id := by
  cases op with
  | publish => cases h
  | subscribe => cases h
  | recv i =>
      have hi : i ≠ id := of_decide_eq_false h
      exact ⟨if_neg hi, fun he => hi (by cases he; rfl)⟩
  | close i => exact ⟨if_neg (of_decide_eq_false h), fun he => by cases he⟩
  | drop i => exact ⟨if_neg (of_decide_eq_false h), fun he => by cases he⟩

/-- A reader gets what it would get if there were no other subscribers. -/
theorem deliveries_filter (capacity : Nat) (id : SubscriptionId) (r : Reader) (ops : List Op) :
    r.deliveries capacity id ops = r.deliveries capacity id (ops.filter (·.concerns id)) := by
  induction ops generalizing r with
  | nil => rfl
  | cons op ops ih =>
      cases hc : op.concerns id with
      | true =>
          rw [List.filter_cons_of_pos hc, deliveries, deliveries, ih]
      | false =>
          obtain ⟨hp, hne⟩ := perform_of_not_concerns capacity r hc
          rw [List.filter_cons_of_neg (by simp [hc]), deliveries, hp, if_neg hne, List.nil_append, ih]

/-- As long as nothing is published and the subscription does nothing, it stays where it is. -/
theorem run_idle {capacity : Nat} {id : SubscriptionId} {r : Reader} (ho : id < r.opened)
    {ops : List Op} (h : ∀ op ∈ ops, op = .subscribe ∨ op.concerns id = false) :
    (r.run capacity id ops).events = r.events ∧ (r.run capacity id ops).place = r.place := by
  induction ops generalizing r with
  | nil => exact ⟨rfl, rfl⟩
  | cons op ops ih =>
      have hops : ∀ op ∈ ops, op = .subscribe ∨ op.concerns id = false := fun op hm =>
        h op (List.mem_cons_of_mem _ hm)
      change ((r.perform capacity id op).run capacity id ops).events = _ ∧ _
      rcases h op List.mem_cons_self with rfl | hc
      · obtain ⟨he, hp⟩ := ih (r := r.perform capacity id .subscribe) (Nat.lt_succ_of_lt ho) hops
        refine ⟨he, hp.trans ?_⟩
        simp [perform, Nat.ne_of_gt ho]
      · have hp := (perform_of_not_concerns capacity r hc).1
        have hi := ih (r := r) ho hops
        rw [hp]
        change _ ∧ ((r.perform capacity id op).run capacity id ops).place = _
        rw [hp]
        exact hi

theorem numbered_run (capacity : Nat) (id : SubscriptionId) {r : Reader}
    (h : r.events.map (·.sequence) = List.range' 1 r.events.length) (ops : List Op) :
    (r.run capacity id ops).events.map (·.sequence) =
      List.range' 1 (r.run capacity id ops).events.length := by
  induction ops generalizing r with
  | nil => exact h
  | cons op ops ih =>
      refine ih (r := r.perform capacity id op) ?_
      rw [r.events_perform]
      cases op with
      | publish => exact numbered_append h rfl
      | _ => exact (List.append_nil r.events).symm ▸ h

theorem any_leaves (id : SubscriptionId) (ops : List Op) :
    ops.any (leaves id) = decide (.close id ∈ ops ∨ .drop id ∈ ops) := by
  rw [Bool.eq_iff_iff, List.any_eq_true, decide_eq_true_iff]
  constructor
  · rintro ⟨op, hm, hl⟩
    rcases of_decide_eq_true hl with rfl | rfl
    · exact .inl hm
    · exact .inr hm
  · rintro (hm | hm)
    · exact ⟨_, hm, by simp [leaves]⟩
    · exact ⟨_, hm, by simp [leaves]⟩

end Reader

namespace Follows

open ChangeStream

variable {id : SubscriptionId} {s : ChangeStream} {r : Reader} {q : Nat} {left : Bool}

/-- A gap leads to the oldest change that is kept, which is what comes next. -/
theorem after_gap (h : Follows id s r) (ha : r.At id q left) (hc : 0 < s.capacity) {missed : Nat}
    (hg : (s.recv id).1 = .item (.gap missed)) :
    q + missed = r.events.length - s.capacity ∧
      ∃ event, s.channel.retained.head? = some event ∧
        ∀ more : List Op, (∀ op ∈ more, op = .subscribe ∨ op.concerns id = false) →
          (((s.recv id).2.run more).recv id).1 = .item (.change event) := by
  obtain ⟨hd, hf⟩ := h.recv
  have hr := ha.recv_eq s.capacity
  rw [← hd, hg] at hr
  cases left with
  | true => cases hr
  | false =>
      simp only [Bool.false_eq_true, if_false] at hr
      split at hr
      · next hb =>
        have hm : missed = r.events.length - s.capacity - q := by simpa using hr
        refine ⟨by omega, ?_⟩
        rw [Reader.recv_of_behind ha.place hb] at hf
        have hlt : r.events.length - s.capacity < r.events.length := by omega
        obtain ⟨event, he⟩ : ∃ event, r.events[r.events.length - s.capacity]? = some event :=
          ⟨_, List.getElem?_eq_getElem hlt⟩
        refine ⟨event, ?_, fun more hmore => ?_⟩
        · obtain ⟨sent, hk, hab⟩ := hf.abreast
          rw [channel_recv] at hk
          cases hp : (s.recv id).2.place id with
          | none =>
              rw [hp] at hab
              cases hab
          | some k =>
              rw [hp] at hab
              obtain ⟨hks, hle, hl⟩ := hab.ahead
              have hcap : s.channel.capacity = s.capacity := rfl
              have hk' : sent.length - s.channel.capacity = k := by
                dsimp only at hl
                omega
              rw [hk.retained_eq, List.head?_drop, hk', hab.getElem?]
              exact he
        · have hcap : (s.recv id).2.capacity = s.capacity := capacity_perform s (.recv id)
          obtain ⟨hd', -⟩ := (hf.run more).recv
          have hnext (r' : Reader) (he' : r'.events = r.events)
              (hp' : r'.place = some (r.events.length - s.capacity)) :
              (r'.recv s.capacity).1 = .item (.change event) := by
            have hb' : ¬ r.events.length - s.capacity + s.capacity < r.events.length := by omega
            rw [Reader.recv_of_near hp' (by rw [he']; exact hb') (by rw [he']; exact he)]
          rw [hd', capacity_run, hcap]
          obtain ⟨hev, hpl⟩ := Reader.run_idle (r := { r with place := some (r.events.length - s.capacity) })
            ha.opened hmore
          exact hnext _ hev hpl
      · cases he : r.events[q]? with
        | none =>
            rw [he] at hr
            cases hr
        | some event =>
            rw [he] at hr
            cases hr

end Follows

namespace ChangeStream

/-- When a subscription is opened, its reader has come as far as what was published before. -/
theorem exists_reader (capacity : Nat) (before : List Op) :
    let start := ofCapacity capacity
    let id := (start.run before).subscribe.1
    let opened := (start.run before).subscribe.2
    ∃ r, Follows id opened r ∧ r.At id opened.sequence false ∧
      r.events = observe published? start before := by
  intro start id opened
  have hb : Follows id (start.run before) (Reader.empty.run start.capacity id before) :=
    (Follows.ofCapacity id capacity).run before
  obtain ⟨r₀, hr₀⟩ : ∃ r₀, r₀ = Reader.empty.run start.capacity id before := ⟨_, rfl⟩
  have hn : r₀.events.map (·.sequence) = List.range' 1 r₀.events.length := by
    rw [hr₀]
    exact Reader.numbered_run start.capacity id (r := .empty) rfl before
  have hevents : r₀.events = observe published? start before := by
    rw [hr₀]
    exact (Follows.ofCapacity id capacity).published before
  rw [← hr₀] at hb
  have hid : r₀.opened = id := hb.opened.symm
  have hseq : opened.sequence = r₀.events.length := hb.sequence
  refine ⟨r₀.perform (start.run before).capacity id .subscribe, hb.subscribe, ⟨?_, ?_, ?_, hn⟩, hevents⟩
  · rw [hseq]
    exact if_pos hid
  · exact Nat.le_of_eq hseq
  · exact Nat.lt_succ_of_le (Nat.le_of_eq hid.symm)

/-- A subscription that is opened after some operations is given, one by one, what is published from then on,
with gaps for just what it has missed, whatever the other subscribers do. -/
theorem walks_without_loss (capacity : Nat) (before after : List Op) :
    let start := ofCapacity capacity
    let ops := before ++ .subscribe :: after
    let id := (start.run before).subscribe.1
    let opened := (start.run before).subscribe.2
    let s := opened.run after
    let events := observe published? start ops
    let items := (observe (delivered? id) opened after).filterMap Delivery.item?
    (s = start.run ops ∧ s.capacity = powerAtLeast capacity) ∧
    (events.map (·.sequence) = List.range' 1 events.length ∧
      opened.sequence = (observe published? start before).length) ∧
    (∃ q, StreamItem.walk opened.sequence items = some q ∧ q ≤ events.length ∧
      (∀ event, .change event ∈ items → events[event.sequence - 1]? = some event) ∧
      (s.recv id).1 =
        (if .close id ∈ after ∨ .drop id ∈ after then .closed
        else if q + s.capacity < events.length then .item (.gap (events.length - s.capacity - q))
        else (events[q]?).elim .pending fun event => .item (.change event)) ∧
      (∀ missed, (s.recv id).1 = .item (.gap missed) →
        q + missed = events.length - s.capacity ∧
          ∃ event, s.channel.retained.head? = some event ∧
            ∀ more : List Op, (∀ op ∈ more, op = .subscribe ∨ op.concerns id = false) →
              (((s.recv id).2.run more).recv id).1 = .item (.change event))) ∧
    (∀ ops' : List Op, ops'.filter (·.concerns id) = ops.filter (·.concerns id) →
      observe (delivered? id) start ops' = observe (delivered? id) start ops) := by
  intro start ops id opened s events items
  obtain ⟨r, hf, hat, hr⟩ := exists_reader capacity before
  have hs : Follows id s (r.run opened.capacity id after) := hf.run after
  obtain ⟨q, hw, ha, hm⟩ := hat.run opened.capacity after
  have hopened : opened.capacity = start.capacity := Follows.capacity_run start before
  have hcap : s.capacity = powerAtLeast capacity := (Follows.capacity_run opened after).trans hopened
  have hrun : s = start.run ops := (run_append (s := start) before (.subscribe :: after)).symm
  have hevents : (r.run opened.capacity id after).events = events := by
    rw [hf.published after, hr]
    exact (observe_append published? before (.subscribe :: after)).symm
  have hitems : items = r.items opened.capacity id after :=
    congrArg (List.filterMap Delivery.item?) (hf.deliveries after)
  rw [Bool.false_or, Reader.any_leaves] at ha
  rw [hevents] at hm
  refine ⟨⟨hrun, hcap⟩, ⟨?_, ?_⟩, ⟨q, ?_, ?_, ?_, ?_, ?_⟩, ?_⟩
  · rw [← hevents]
    exact ha.numbered
  · rw [← hr]
    exact hf.sequence
  · rw [hitems]
    exact hw
  · rw [← hevents]
    exact ha.le
  · rw [hitems]
    exact hm
  · rw [hs.recv.1, ha.recv_eq, hevents]
    simp only [decide_eq_true_eq]
    rfl
  · intro missed hg
    have hpos : 0 < s.capacity := by
      rw [hcap]
      exact powerAtLeast_pos capacity
    have hafter := hs.after_gap ha hpos hg
    rw [hevents] at hafter
    exact hafter
  · intro ops' hops
    have hstart : Follows id start .empty := .ofCapacity id capacity
    rw [hstart.deliveries ops', hstart.deliveries ops, Reader.deliveries_filter, hops,
      ← Reader.deliveries_filter]

end ChangeStream
end Playfield
