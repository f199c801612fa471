import Playfield.Proofs.Stream.Delivery
import Playfield.Proofs.Stream.Signal

/-! The end of a subscription. Once a subscription is closed, or the stream is shut down or gone, nothing
more is delivered to it, whatever is still on its way; and nobody is told of an end before there is one. -/
namespace Playfield.ChangeStream

/-- Whether an act ends the stream for all. -/
def Act.stops (act : Act) : Bool := decide (act = .shutdown ∨ act = .dropPublisher)

/-- Whether the subscription `id` is given up with an act. -/
def Act.leaves (id : SubscriptionId) (act : Act) : Bool :=
  decide (act = .op (.close id) ∨ act = .op (.drop id))

/-- The state of a subscription that was given up or not, after what it was told. -/
def stateAfter (left : Bool) (told : List Delivery) : SubscriptionState :=
  if left ∨ .closed ∈ told then .closed
  else if told.filterMap Delivery.item? = [] then .open
  else .streaming

/-- Whether there may be something to come for the subscription `id`. -/
def Listens (s : ChangeStream) (id : SubscriptionId) : Prop :=
  s.place id ≠ none ∧ s.publisher = .live

variable {s s' : ChangeStream} {id : SubscriptionId}

/-- What an act means for the subscription `id`, and what it is told. -/
inductive Fares (s s' : ChangeStream) (id : SubscriptionId) : Bool → List Delivery → Prop
  | aside : s'.subscriptions[id]? = s.subscriptions[id]? → Fares s s' id false []
  | pending : s.Listens id → s'.subscriptions[id]? = s.subscriptions[id]? →
      Fares s s' id false [.pending]
  | given {item : StreamItem} {next : Nat} : s.Listens id →
      s'.subscriptions[id]? = some ⟨.streaming, some next⟩ → Fares s s' id false [.item item]
  | left : s'.place id = none → Fares s s' id true []
  | shut : ¬s.Listens id → s'.place id = none → Fares s s' id false [.closed]

theorem recv_of_stopped {place : Nat} (hp : s.place id = some place) (hl : s.publisher ≠ .live) :
    s.recv id = (.closed, s.close id) := by
  rw [ChangeStream.place] at hp
  rw [recv, hp]
  exact if_pos hl

theorem fares_recv (s : ChangeStream) (id : SubscriptionId) :
    Fares s (s.recv id).2 id false [(s.recv id).1] := by
  cases hp : s.place id with
  | none =>
    rw [recv_of_none hp]
    exact .shut (fun hl => hl.1 hp) hp
  | some place =>
    by_cases hl : s.publisher = .live
    · have hlistens : s.Listens id := ⟨hp ▸ Option.some_ne_none place, hl⟩
      rw [recv_of_some hp hl]
      cases s.channel.read? place with
      | none => exact .pending hlistens rfl
      | some x => exact .given hlistens ((Map.getElem?_insert ..).trans (if_pos rfl))
    · rw [recv_of_stopped hp hl]
      exact .shut (fun hlistens => hl hlistens.2) (place_close.trans (if_pos rfl))

theorem subscriptions_recv_ne {i : SubscriptionId} (hi : i ≠ id) :
    (s.recv i).2.subscriptions[id]? = s.subscriptions[id]? := by
  rcases subscriptions_recv (s := s) (i := i) with heq | ⟨next, heq⟩ | heq
  · rw [heq]
  · rw [heq, getElem?_insert_ne hi]
  · rw [heq, getElem?_close, if_neg hi]

theorem fares (hid : id < s.nextId) (act : Act) :
    Fares s (s.enact act) id (act.leaves id) (s.answer id act) := by
  cases act with
  | op op =>
    cases op with
    | publish switch isActive timestamp => exact .aside rfl
    | subscribe => exact .aside (getElem?_insert_ne (Nat.ne_of_gt hid) _)
    | recv i =>
      by_cases hi : i = id
      · subst hi
        have hleaves : (Act.op (.recv i)).leaves i = false := by simp [Act.leaves]
        have hanswer : s.answer i (.op (.recv i)) = [(s.recv i).1] := if_pos rfl
        rw [hleaves, hanswer]
        exact fares_recv s i
      · have hleaves : (Act.op (.recv i)).leaves id = false := by simp [Act.leaves]
        have hanswer : s.answer id (.op (.recv i)) = [] := if_neg hi
        rw [hleaves, hanswer]
        exact .aside (subscriptions_recv_ne hi)
    | close i =>
      by_cases hi : i = id
      · subst hi
        have hleaves : (Act.op (.close i)).leaves i = true := by simp [Act.leaves]
        rw [hleaves]
        exact .left (place_close.trans (if_pos rfl))
      · have hleaves : (Act.op (.close i)).leaves id = false := by simp [Act.leaves, hi]
        rw [hleaves]
        exact .aside (getElem?_close.trans (if_neg hi))
    | drop i =>
      by_cases hi : i = id
      · subst hi
        have hleaves : (Act.op (.drop i)).leaves i = true := by simp [Act.leaves]
        rw [hleaves]
        exact .left (place_drop.trans (if_pos rfl))
      · have hleaves : (Act.op (.drop i)).leaves id = false := by simp [Act.leaves, hi]
        rw [hleaves]
        exact .aside (getElem?_drop.trans (if_neg hi))
  | abandon i => exact .aside rfl
  | shutdown => exact .aside rfl
  | dropPublisher => exact .aside rfl

theorem publisher_recv (s : ChangeStream) (i : SubscriptionId) : (s.recv i).2.publisher = s.publisher := by
  unfold recv
  repeat' split
  all_goals rfl

theorem nextId_recv (s : ChangeStream) (i : SubscriptionId) : (s.recv i).2.nextId = s.nextId := by
  unfold recv
  repeat' split
  all_goals rfl

theorem publisher_enact (s : ChangeStream) (act : Act) :
    (s.enact act).publisher = .live ↔ s.publisher = .live ∧ act.stops = false := by
  cases act with
  | op op =>
    have hkeep : (s.perform op).publisher = s.publisher := by
      cases op with
      | recv i => exact publisher_recv s i
      | _ => rfl
    simp [enact, hkeep, Act.stops]
  | abandon i => simp [enact, Act.stops]
  | shutdown =>
    simp only [enact, shutdown, Act.stops, true_or, decide_true, Bool.true_eq_false, and_false, iff_false]
    split <;> nofun
  | dropPublisher => simp [enact, dropPublisher, Act.stops]

theorem nextId_enact (s : ChangeStream) (act : Act) : s.nextId ≤ (s.enact act).nextId := by
  cases act with
  | op op =>
    cases op with
    | subscribe => exact Nat.le_succ _
    | recv i => exact Nat.le_of_eq (nextId_recv s i).symm
    | publish | close | drop => exact Nat.le_refl _
  | abandon | shutdown | dropPublisher => exact Nat.le_refl _

theorem publisher_play (s : ChangeStream) (acts : List Act) :
    (s.play acts).publisher = .live ↔ s.publisher = .live ∧ acts.any Act.stops = false := by
  induction acts generalizing s with
  | nil => simp
  | cons act acts ih => rw [play_cons, ih, publisher_enact, List.any_cons, Bool.or_eq_false_iff, and_assoc]

/-- How a subscription stands that was given up or not, after what it was told. -/
structure Told (s : ChangeStream) (id : SubscriptionId) (left : Bool) (told : List Delivery) : Prop where
  opened : id < s.nextId
  settled : s.Settled
  place : s.place id = none ↔ left = true ∨ .closed ∈ told
  state : s.place id ≠ none →
    s.stateOf id = if told.filterMap Delivery.item? = [] then .open else .streaming

namespace Told

variable {left : Bool} {told : List Delivery}

theorem stateOf_eq (h : Told s id left told) : s.stateOf id = stateAfter left told := by
  unfold stateAfter
  by_cases hp : s.place id = none
  · rw [if_pos (h.place.mp hp)]
    rw [ChangeStream.place] at hp
    rw [stateOf]
    cases hs : s.subscriptions[id]? with
    | none => rfl
    | some sub =>
      rw [hs] at hp
      exact h.settled id sub hs hp
  · rw [if_neg (fun hend => hp (h.place.mpr hend))]
    exact h.state hp

theorem of_same (h : Told s id left told) (hid : id < s'.nextId) (hs : s'.Settled)
    (hsub : s'.subscriptions[id]? = s.subscriptions[id]?) {more : List Delivery}
    (hitems : more.filterMap Delivery.item? = []) (hmore : .closed ∉ more) :
    Told s' id left (told ++ more) := by
  have hp : s'.place id = s.place id := by rw [ChangeStream.place, ChangeStream.place, hsub]
  have hst : s'.stateOf id = s.stateOf id := by rw [stateOf, stateOf, hsub]
  refine ⟨hid, hs, ?_, ?_⟩
  · rw [hp, h.place, List.mem_append, or_iff_left hmore]
  · rw [hp, hst, List.filterMap_append, hitems, List.append_nil]
    exact h.state

theorem enact (h : Told s id left told) (act : Act) :
    Told (s.enact act) id (left || act.leaves id) (told ++ s.answer id act) := by
  have hopened : id < (s.enact act).nextId := Nat.lt_of_lt_of_le h.opened (nextId_enact s act)
  have hsettled : (s.enact act).Settled := h.settled.enact act
  have hfares := fares h.opened act
  generalize act.leaves id = leaves, s.answer id act = answer, s.enact act = s' at *
  cases hfares with
  | aside hsub =>
    rw [Bool.or_false]
    exact h.of_same hopened hsettled hsub rfl List.not_mem_nil
  | pending _ hsub =>
    rw [Bool.or_false]
    exact h.of_same hopened hsettled hsub rfl (by decide)
  | @given item next hlistens hsub =>
    have hp : s'.place id ≠ none := by
      rw [ChangeStream.place, hsub]
      exact Option.some_ne_none _
    have hgoes : ¬(left = true ∨ .closed ∈ told) := fun hend => hlistens.1 (h.place.mpr hend)
    have hitems : (told ++ [Delivery.item item]).filterMap Delivery.item? ≠ [] := by
      rw [List.filterMap_append]
      exact List.append_ne_nil_of_right_ne_nil _ (List.cons_ne_nil item [])
    refine ⟨hopened, hsettled, iff_of_false hp ?_, fun _ => ?_⟩
    · simpa using hgoes
    · rw [stateOf, hsub, if_neg hitems]
      rfl
  | left hp => exact ⟨hopened, hsettled, iff_of_true hp (by simp), fun hne => absurd hp hne⟩
  | shut _ hp => exact ⟨hopened, hsettled, iff_of_true hp (by simp), fun hne => absurd hp hne⟩

theorem play (h : Told s id left told) (acts : List Act) :
    Told (s.play acts) id (left || acts.any (Act.leaves id)) (told ++ s.answers id acts) := by
  induction acts generalizing s left told with
  | nil => simpa using h
  | cons act acts ih => simpa [answers, Bool.or_assoc] using ih (h.enact act)

/-- Nobody is told of an end before there is one. -/
theorem not_closed (h : Told s id left told) (hl : s.Listens id) {acts : List Act}
    (hstops : acts.any Act.stops = false) (hleaves : acts.any (Act.leaves id) = false) :
    .closed ∉ s.answers id acts := by
  induction acts generalizing s left told with
  | nil => exact List.not_mem_nil
  | cons act acts ih =>
    rw [List.any_cons, Bool.or_eq_false_iff] at hstops hleaves
    have hfares := fares h.opened act
    have hlive : (s.enact act).publisher = .live := (publisher_enact s act).mpr ⟨hl.2, hstops.1⟩
    have hrest := fun hp => ih (h.enact act) ⟨hp, hlive⟩ hstops.2 hleaves.2
    rw [hleaves.1] at hfares
    rw [answers, List.mem_append, not_or]
    generalize s.answer id act = answer at hfares
    cases hfares with
    | aside hsub | pending _ hsub =>
      refine ⟨by decide, hrest ?_⟩
      rw [ChangeStream.place, hsub]
      exact hl.1
    | given _ hsub =>
      refine ⟨by simp, hrest ?_⟩
      rw [ChangeStream.place, hsub]
      exact Option.some_ne_none _
    | shut hover _ => exact absurd hl hover

/-- Where nothing is to come, every answer is the end. -/
theorem all_closed (h : Told s id left told) (hover : ¬s.Listens id) (acts : List Act) :
    ∀ d ∈ s.answers id acts, d = .closed := by
  induction acts generalizing s left told with
  | nil => nofun
  | cons act acts ih =>
    intro d hd
    have hfares := fares h.opened act
    have hstopped : (s.enact act).Listens id → s.publisher = .live := fun hl =>
      ((publisher_enact s act).mp hl.2).1
    have hrest := fun hover => ih (h.enact act) hover d
    rw [answers, List.mem_append] at hd
    generalize act.leaves id = leaves, s.answer id act = answer at hfares hd
    cases hfares with
    | aside hsub =>
      refine hrest (fun hl => hover ⟨?_, hstopped hl⟩) (hd.resolve_left List.not_mem_nil)
      rw [ChangeStream.place, ← hsub]
      exact hl.1
    | pending hl | given hl => exact absurd hl hover
    | left hp => exact hrest (fun hl => hl.1 hp) (hd.resolve_left List.not_mem_nil)
    | shut _ hp =>
      rcases hd with hd | hd
      · exact List.mem_singleton.mp hd
      · exact hrest (fun hl => hl.1 hp) hd

end Told

theorem told_subscribe (hs : s.Settled) : Told s.subscribe.2 s.subscribe.1 false [] where
  opened := Nat.lt_succ_self _
  settled := hs.enact (.op .subscribe)
  place := by
    have hp : s.subscribe.2.place s.subscribe.1 = some s.channel.sent :=
      place_subscribe.trans (if_pos rfl)
    rw [hp]
    simp
  state _ := by
    rw [stateOf, getElem?_subscribe]
    rfl

theorem settled_play (hs : s.Settled) (acts : List Act) : (s.play acts).Settled := by
  induction acts generalizing s with
  | nil => exact hs
  | cons act acts ih => exact ih (hs.enact act)

/-- Once a subscription is closed, or the stream is shut down or gone, it is told of its end each time it
asks, and of nothing else; before, it is never told so. It is open until it is given an item, and
streaming from then on; once it has been closed or told of its end, it is closed for ever. A shutdown that
comes on a channel of its own, before, during or after a call that waits, makes no difference. -/
theorem closed_is_final (capacity : Nat) (before after more : List Act) :
    let start := ofCapacity capacity
    let id := (start.play before).subscribe.1
    let opened := (start.play before).subscribe.2
    let s := opened.play after
    let told := opened.answers id after
    let acts := before ++ .op .subscribe :: (after ++ more)
    let wired := Wired.ofCapacity capacity
    (before.any Act.stops ∨ after.any Act.stops ∨ after.any (Act.leaves id) →
      ∀ d ∈ s.answers id more, d = .closed) ∧
    (¬(before.any Act.stops ∨ after.any Act.stops ∨ after.any (Act.leaves id)) → .closed ∉ told) ∧
    (s.stateOf id = if after.any (Act.leaves id) ∨ .closed ∈ told then .closed
      else if told.filterMap Delivery.item? = [] then .open else .streaming) ∧
    (after.any (Act.leaves id) ∨ .closed ∈ told → (s.play more).stateOf id = .closed) ∧
    (start.play acts = s.play more ∧ ∀ i, wired.answers i acts = start.answers i acts ∧
      (wired.play acts).stream.stateOf i = (start.play acts).stateOf i) := by
  intro start id opened s told acts wired
  have hbefore : (start.play before).Settled := settled_play (settled_ofCapacity capacity) before
  have hopened : Told opened id false [] := told_subscribe hbefore
  have hs : Told s id (after.any (Act.leaves id)) told := by simpa using hopened.play after
  have hlive : opened.publisher = .live ↔ before.any Act.stops = false := by
    refine (publisher_play start before).trans ?_
    exact and_iff_right rfl
  have hlistens : s.publisher = .live ↔ before.any Act.stops = false ∧ after.any Act.stops = false := by
    rw [← hlive]
    exact publisher_play opened after
  refine ⟨fun hcut => hs.all_closed ?_ more, fun huncut => ?_, hs.stateOf_eq, fun hend => ?_, ?_, ?_⟩
  · rintro ⟨hplace, hpublisher⟩
    obtain ⟨hb, ha⟩ := hlistens.mp hpublisher
    rw [hb, ha] at hcut
    simp only [Bool.false_eq_true, false_or] at hcut
    exact hplace (hs.place.mpr (.inl hcut))
  · simp only [not_or, Bool.not_eq_true] at huncut
    obtain ⟨hb, ha, hl⟩ := huncut
    refine hopened.not_closed ⟨fun hp => ?_, hlive.mpr hb⟩ ha hl
    simpa using hopened.place.mp hp
  · rw [(hs.play more).stateOf_eq, stateAfter]
    refine if_pos ?_
    rcases hend with hleft | hclosed
    · exact .inl (by rw [hleft, Bool.true_or])
    · exact .inr (List.mem_append_left _ hclosed)
  · simp only [acts, play_append, play_cons]
    rfl
  · intro i
    obtain ⟨hplay, hanswers⟩ := (Wired.sound_ofCapacity capacity).play acts
    refine ⟨hanswers i, ?_⟩
    change (wired.play acts).toStream.stateOf i = _
    rw [hplay]
    rfl

/-- A call that waits is asked again after a change and two shutdowns. -/
theorem closed_is_final_while_waiting :
    let start := ofCapacity 4
    let id := (start.play []).subscribe.1
    let opened := (start.play []).subscribe.2
    let after : List Act := [.op (.publish ⟨"S1", by decide⟩ true 5), .op (.recv id), .op (.recv id),
      .op (.publish ⟨"S1", by decide⟩ false 6), .shutdown, .shutdown]
    opened.answers id after = [.item (.change ⟨1, ⟨"S1", by decide⟩, true, 5⟩), .pending] ∧
      (∀ d ∈ (opened.play after).answers id [.op (.recv id)], d = .closed) ∧
      (opened.play (after ++ [.op (.recv id)])).stateOf id = .closed := by
  intro start id opened after
  have htold : opened.answers id after =
      [.item (.change ⟨1, ⟨"S1", by decide⟩, true, 5⟩), .pending] := by decide +kernel
  have hclosed : .closed ∈ opened.answers id (after ++ [.op (.recv id)]) := by decide +kernel
  have hcut := (closed_is_final 4 [] after [.op (.recv id)]).1
  have hstate := (closed_is_final 4 [] (after ++ [.op (.recv id)]) []).2.2.1
  refine ⟨htold, hcut (.inr (.inl (by decide +kernel))), hstate.trans (if_pos (.inr hclosed))⟩

end Playfield.ChangeStream
