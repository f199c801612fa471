import Playfield.Proofs.Stream.Closing

/-! What a shutdown closes. It closes nothing by itself: a subscription stays as it was, and goes on counting,
until its subscriber asks for the next item or gives it up. From then on it is closed, and who has neither
asked nor given up since is who is counted. -/
namespace Playfield.ChangeStream

/-- Whether the subscription `id` is closed by an act once the stream is shut down: it is given up, or its
subscriber asks. -/
def Act.ends (id : SubscriptionId) (act : Act) : Bool := act.leaves id || decide (act = .op (.recv id))

/-- Each subscription has been opened, and is closed just when it has no place in the channel. -/
def Enrolled (s : ChangeStream) : Prop :=
  ∀ (i : SubscriptionId) (sub : Subscription), s.subscriptions[i]? = some sub →
    i < s.nextId ∧ (sub.state = .closed ↔ sub.place = none)

variable {s : ChangeStream} {id i : SubscriptionId}

namespace Enrolled

theorem ofCapacity (capacity : Nat) : (ofCapacity capacity).Enrolled := by
  intro i sub h
  simp [ChangeStream.ofCapacity] at h

variable (h : s.Enrolled)

include h

theorem insert {sub : Subscription} {n : SubscriptionId} (hi : i < n) (hn : s.nextId ≤ n)
    (hsub : sub.state = .closed ↔ sub.place = none) :
    Enrolled { s with subscriptions := s.subscriptions.insert i sub, nextId := n } := by
  intro j old hj
  rw [Map.getElem?_insert] at hj
  split at hj
  next hij =>
    cases hj
    exact ⟨hij ▸ hi, hsub⟩
  next =>
    obtain ⟨hopened, hclosed⟩ := h j old hj
    exact ⟨Nat.lt_of_lt_of_le hopened hn, hclosed⟩

theorem close : (s.close i).Enrolled := by
  intro j sub hj
  rw [getElem?_close] at hj
  split at hj
  · obtain ⟨old, hold, rfl⟩ := Option.map_eq_some_iff.mp hj
    exact ⟨(h j old hold).1, iff_of_true rfl rfl⟩
  · exact h j sub hj

theorem drop : (s.drop i).Enrolled := by
  intro j sub hj
  rw [getElem?_drop] at hj
  split at hj
  · cases hj
  · exact h j sub hj

theorem recv : (s.recv i).2.Enrolled := by
  cases hp : s.place i with
  | none =>
    rw [recv_of_none hp]
    exact h
  | some place =>
    by_cases hl : s.publisher = .live
    · rw [recv_of_some hp hl]
      cases s.channel.read? place with
      | none => exact h
      | some x =>
        obtain ⟨sub, hsub, -⟩ := Option.bind_eq_some_iff.mp hp
        exact h.insert (h i sub hsub).1 (Nat.le_refl _) (by simp)
    · rw [recv_of_stopped hp hl]
      exact h.close

theorem enact (act : Act) : (s.enact act).Enrolled := by
  cases act with
  | op op =>
    cases op with
    | publish => exact h
    | subscribe => exact h.insert (Nat.lt_succ_self _) (Nat.le_succ _) (by simp)
    | recv i => exact h.recv
    | close i => exact h.close
    | drop i => exact h.drop
  | abandon | shutdown | dropPublisher => exact h

theorem play (acts : List Act) : (s.play acts).Enrolled := by
  induction acts generalizing s with
  | nil => exact h
  | cons act acts ih => exact ih (h.enact act)

theorem stateOf_eq_closed : s.stateOf id = .closed ↔ s.place id = none := by
  rw [stateOf, ChangeStream.place]
  cases hs : s.subscriptions[id]? with
  | none => simp
  | some sub => exact (h id sub hs).2

/-- Those that listen to the channel are the subscriptions that are not closed. -/
theorem subscriberCount_eq :
    s.subscriberCount = ((List.range s.nextId).filter fun id => s.stateOf id ≠ .closed).length := by
  refine Map.length_filter_values _ (List.nodup_range.filter _) fun id => ?_
  rw [List.mem_filter, List.mem_range, decide_eq_true_eq, ne_eq, h.stateOf_eq_closed,
    ← ne_eq, Option.ne_none_iff_exists', ChangeStream.place]
  constructor
  · rintro ⟨-, place, hplace⟩
    obtain ⟨sub, hsub, hp⟩ := Option.bind_eq_some_iff.mp hplace
    exact ⟨sub, hsub, by rw [hp]; rfl⟩
  · rintro ⟨sub, hsub, hp⟩
    obtain ⟨place, hplace⟩ := Option.isSome_iff_exists.mp hp
    exact ⟨(h id sub hsub).1, place, Option.bind_eq_some_iff.mpr ⟨sub, hsub, hplace⟩⟩

end Enrolled

theorem answer_eq_nil {act : Act} : s.answer id act = [] ↔ act ≠ .op (.recv id) := by
  cases act with
  | op op =>
    cases op with
    | recv i =>
      by_cases hi : i = id
      · subst hi
        exact iff_of_false (by simp [answer]) (not_not_intro rfl)
      · exact iff_of_true (if_neg hi) (by simpa using hi)
    | publish | subscribe | close | drop =>
      refine iff_of_true rfl fun h => ?_
      cases h
  | abandon | shutdown | dropPublisher =>
    refine iff_of_true rfl fun h => ?_
    cases h

/-- Once a stream is shut down, an act closes a subscription or leaves its state as it was. -/
theorem stateOf_enact_of_stopped (h : s.Enrolled) (hp : s.publisher ≠ .live) (hid : id < s.nextId)
    (act : Act) : (s.enact act).stateOf id = if act.ends id then .closed else s.stateOf id := by
  have hfares := fares hid act
  have henrolled := h.enact act
  -- It shows in the answer whether the subscriber asks.
  have hasks : s.answer id act = [] ↔ act ≠ .op (.recv id) := answer_eq_nil
  rw [Act.ends]
  generalize act.leaves id = leaves, s.answer id act = answer, s.enact act = s' at *
  cases hfares with
  | aside hsub =>
    rw [stateOf, stateOf, hsub]
    simp [hasks.mp rfl]
  | pending hl | given hl => exact absurd hl.2 hp
  | left hplace => simp [henrolled.stateOf_eq_closed.mpr hplace]
  | shut _ hplace =>
    have hask : act = .op (.recv id) := by
      by_contra hne
      cases hasks.mpr hne
    simp [henrolled.stateOf_eq_closed.mpr hplace, hask]

theorem stateOf_play_of_stopped (h : s.Enrolled) (hp : s.publisher ≠ .live) (hid : id < s.nextId)
    (acts : List Act) :
    (s.play acts).stateOf id = if acts.any (Act.ends id) then .closed else s.stateOf id := by
  induction acts generalizing s with
  | nil => rfl
  | cons act acts ih =>
    have hstopped : (s.enact act).publisher ≠ .live := fun hl => hp ((publisher_enact s act).mp hl).1
    have hopened : id < (s.enact act).nextId := Nat.lt_of_lt_of_le hid (nextId_enact s act)
    rw [play_cons, ih (h.enact act) hstopped hopened, stateOf_enact_of_stopped h hp hid, List.any_cons]
    cases act.ends id <;> cases acts.any (Act.ends id) <;> rfl

theorem stateOf_subscribe (s : ChangeStream) : s.subscribe.2.stateOf s.subscribe.1 = .open := by
  rw [stateOf, getElem?_subscribe]
  rfl

/-- A shutdown closes no subscription: each stays as it was and goes on counting. Whatever happens next, one is
closed as soon as its subscriber has asked for an item or given it up, and until then it is as it was; one that
is opened now is open until then too. Whoever asks is told of the end, and who is counted are all that are not
closed. The shutdown may be on its way on a channel of its own, with calls that wait: that makes no difference. -/
theorem closes_on_asking (capacity : Nat) (before after : List Act) :
    let s := (ofCapacity capacity).play before
    let cut := s.shutdown
    let t := cut.play after
    let wired := (Wired.ofCapacity capacity).play (before ++ .shutdown :: after)
    ((∀ id, cut.stateOf id = s.stateOf id) ∧ cut.subscriberCount = s.subscriberCount) ∧
      (∀ id < s.nextId, t.stateOf id = if after.any (Act.ends id) then .closed else s.stateOf id) ∧
      (∀ first rest, after = first ++ .op .subscribe :: rest →
        let id := (cut.play first).nextId
        t.stateOf id = if rest.any (Act.ends id) then .closed else .open) ∧
      (∀ id, (t.recv id).1 = .closed ∧ (t.recv id).2.stateOf id = .closed) ∧
      t.subscriberCount = ((List.range t.nextId).filter fun id => t.stateOf id ≠ .closed).length ∧
      (∀ id, wired.stream.stateOf id = t.stateOf id) ∧
      wired.stream.subscriberCount = t.subscriberCount := by
  intro s cut t wired
  have hs : s.Enrolled := (Enrolled.ofCapacity capacity).play before
  have hcut : cut.Enrolled := hs.enact .shutdown
  have ht : t.Enrolled := hcut.play after
  have hstopped : cut.publisher ≠ .live := by
    intro hl
    have hstops := ((publisher_enact s .shutdown).mp hl).2
    simp [Act.stops] at hstops
  have hover : t.publisher ≠ .live := fun hl => hstopped ((publisher_play cut after).mp hl).1
  have hplay : wired.toStream = t := by
    obtain ⟨heq, -⟩ := (Wired.sound_ofCapacity capacity).play (before ++ .shutdown :: after)
    refine heq.trans ?_
    rw [play_append, play_cons]
    rfl
  refine ⟨⟨fun id => rfl, rfl⟩, fun id hid => stateOf_play_of_stopped hcut hstopped hid after,
    fun first rest hafter => ?_, fun id => ?_, ht.subscriberCount_eq, fun id => ?_, ?_⟩
  · intro id
    have hfirst : (cut.play first).publisher ≠ .live := fun hl =>
      hstopped ((publisher_play cut first).mp hl).1
    have hopened := (hcut.play first).enact (.op .subscribe)
    have hid : id < ((cut.play first).enact (.op .subscribe)).nextId := Nat.lt_succ_self _
    have hrest := stateOf_play_of_stopped hopened hfirst hid rest
    show (cut.play after).stateOf id = _
    rw [hafter, play_append, play_cons, hrest]
    exact congrArg (ite _ _) (stateOf_subscribe (cut.play first))
  · cases hp : t.place id with
    | none =>
      rw [recv_of_none hp]
      exact ⟨rfl, ht.stateOf_eq_closed.mpr hp⟩
    | some place =>
      rw [recv_of_stopped hp hover]
      exact ⟨rfl, ht.close.stateOf_eq_closed.mpr (place_close.trans (if_pos rfl))⟩
  · rw [← hplay]
    rfl
  · rw [← hplay]
    rfl

/-- One subscriber asks after the shutdown, one that has fallen behind gives up its call, and one is late. -/
theorem closes_on_asking_mixed :
    let before : List Act := [.op .subscribe, .op .subscribe, .op (.publish ⟨"S1", by decide⟩ true 5),
      .op (.recv 0), .op (.publish ⟨"S1", by decide⟩ false 6)]
    let after : List Act := [.op (.recv 0), .op .subscribe, .abandon 1]
    let t := ((ofCapacity 1).play before).shutdown.play after
    t.stateOf 0 = .closed ∧ t.stateOf 1 = .open ∧ t.stateOf 2 = .open ∧ t.subscriberCount = 2 := by
  intro before after t
  obtain ⟨-, hthere, hlate, -, hcount, -⟩ := closes_on_asking 1 before after
  refine ⟨(hthere 0 (by decide +kernel)).trans (if_pos (by decide)), ?_,
    hlate [.op (.recv 0)] [.abandon 1] rfl, hcount.trans (by decide +kernel)⟩
  exact (hthere 1 (by decide +kernel)).trans (by decide +kernel)

/-- A subscription that was open is not closed by a shutdown, and one that is opened afterwards is not closed
either; both of them count. -/
theorem open_after_shutdown :
    let s := (ofCapacity 4).play [.op .subscribe, .shutdown]
    s.stateOf 0 = .open ∧ s.subscriberCount = 1 ∧
      s.subscribe.2.stateOf s.subscribe.1 = .open ∧ s.subscribe.2.subscriberCount = 2 := by
  decide +kernel

end Playfield.ChangeStream
