import Mathlib.Logic.Function.Basic
import Playfield.Proofs.Stream.Reader

/-! The shutdown of a change stream, on its way to a subscriber. It travels apart from the changes: on a
second channel that holds one value and counts how often it was set, of which each subscriber remembers
the last count it has looked at. A call for the next item may wait, and is then asked again when either
channel has news. Here both channels and the waiting calls are spelled out; what a subscriber is given
is what it gets from a stream with one poll for each time it asks. -/
namespace Playfield

namespace ChangeStream

/-- What may happen to a stream and its subscriptions. To `recv` is to ask once: the call that waits, if
there is one, and else a new one. -/
inductive Act where
  | op (op : Op)
  /-- The subscriber gives up its call that waits. -/
  | abandon (id : SubscriptionId)
  | shutdown
  | dropPublisher
deriving DecidableEq, Repr

def enact (s : ChangeStream) : Act → ChangeStream
  | .op op => s.perform op
  | .abandon _ => s
  | .shutdown => s.shutdown
  | .dropPublisher => s.dropPublisher

def play (s : ChangeStream) (acts : List Act) : ChangeStream := acts.foldl enact s

def answer (id : SubscriptionId) (s : ChangeStream) : Act → List Delivery
  | .op (.recv i) => if i = id then [(s.recv i).1] else []
  | _ => []

/-- Everything that the subscription `id` is told. -/
def answers (id : SubscriptionId) (s : ChangeStream) : List Act → List Delivery
  | [] => []
  | act :: acts => s.answer id act ++ answers id (s.enact act) acts

variable {s : ChangeStream} {id i : SubscriptionId}

@[simp] theorem play_nil : s.play [] = s := rfl

@[simp] theorem play_cons (act : Act) (acts : List Act) :
    s.play (act :: acts) = (s.enact act).play acts := rfl

@[simp] theorem play_append (acts acts' : List Act) :
    s.play (acts ++ acts') = (s.play acts).play acts' :=
  List.foldl_append ..

@[simp] theorem answers_nil : s.answers id [] = [] := rfl

theorem getElem?_insert_ne (h : i ≠ id) (sub : Subscription) :
    (s.subscriptions.insert i sub)[id]? = s.subscriptions[id]? := by
  rw [Map.getElem?_insert, if_neg h]

theorem getElem?_subscribe :
    s.subscribe.2.subscriptions[s.subscribe.1]? = some ⟨.open, some s.channel.sent⟩ :=
  (Map.getElem?_insert ..).trans (if_pos rfl)

theorem getElem?_close :
    (s.close i).subscriptions[id]? =
      if i = id then (s.subscriptions[id]?).map fun _ => ⟨.closed, none⟩ else s.subscriptions[id]? := by
  rw [close, Std.ExtTreeMap.getElem?_modify]
  simp only [Std.LawfulEqCmp.compare_eq_iff_eq]
  split
  next h => rw [h]
  next => rfl

theorem getElem?_drop :
    (s.drop i).subscriptions[id]? = if i = id then none else s.subscriptions[id]? :=
  Map.getElem?_erase ..

/-- All that asking does to the subscriptions: nothing, a step ahead, or the end. -/
theorem subscriptions_recv : (s.recv i).2.subscriptions = s.subscriptions ∨
    (∃ next, (s.recv i).2.subscriptions = s.subscriptions.insert i ⟨.streaming, some next⟩) ∨
    (s.recv i).2.subscriptions = (s.close i).subscriptions := by
  unfold recv
  split
  · exact .inl rfl
  · split
    · exact .inr (.inr rfl)
    · split
      · exact .inl rfl
      next item next _ => exact .inr (.inl ⟨next, rfl⟩)

/-- Only a closed subscription has no place in the channel. -/
def Settled (s : ChangeStream) : Prop :=
  ∀ (i : SubscriptionId) (sub : Subscription),
    s.subscriptions[i]? = some sub → sub.place = none → sub.state = .closed

theorem settled_ofCapacity (capacity : Nat) : (ofCapacity capacity).Settled := by
  intro i sub h
  simp [ofCapacity] at h

theorem Settled.insert (h : s.Settled) {sub : Subscription} (hsub : sub.place ≠ none) :
    Settled { s with subscriptions := s.subscriptions.insert i sub } := by
  intro j sub' hj hp
  rw [Map.getElem?_insert] at hj
  split at hj
  · cases hj
    exact absurd hp hsub
  · exact h j sub' hj hp

theorem Settled.close (h : s.Settled) : (s.close i).Settled := by
  intro j sub hj hp
  rw [getElem?_close] at hj
  split at hj
  · obtain ⟨_, _, rfl⟩ := Option.map_eq_some_iff.mp hj
    rfl
  · exact h j sub hj hp

theorem Settled.enact (h : s.Settled) (act : Act) : (s.enact act).Settled := by
  cases act with
  | op op =>
    cases op with
    | publish => exact h
    | subscribe => exact h.insert nofun
    | recv i =>
      rcases subscriptions_recv (s := s) (i := i) with heq | ⟨next, heq⟩ | heq
      · intro j sub hj
        exact h j sub (heq ▸ hj)
      · intro j sub hj
        have hplace : (⟨.streaming, some next⟩ : Subscription).place ≠ none := nofun
        exact h.insert hplace j sub (heq ▸ hj)
      · intro j sub hj
        exact h.close (i := i) j sub (heq ▸ hj)
    | close i => exact h.close
    | drop i =>
      intro j sub hj
      have hj : (s.drop i).subscriptions[j]? = some sub := hj
      rw [getElem?_drop] at hj
      split at hj
      · cases hj
      · exact h j sub hj
  | abandon | shutdown | dropPublisher => exact h

/-- A subscription that has no place stays as it is when it is closed. -/
theorem Settled.close_of_none (h : s.Settled) (hp : s.place i = none) : s.close i = s := by
  have hsub : (s.close i).subscriptions = s.subscriptions := by
    apply Std.ExtTreeMap.ext_getElem?
    intro j
    rw [getElem?_close]
    split
    next hij =>
      subst hij
      cases hi : s.subscriptions[i]? with
      | none => rfl
      | some sub =>
        have hplace : sub.place = none := by simpa [ChangeStream.place, hi] using hp
        have hstate : sub.state = .closed := h i sub hi hplace
        rw [Option.map_some, ← hplace, ← hstate]
    next => rfl
  exact congrArg (fun subscriptions => { s with subscriptions }) hsub

end ChangeStream

open ChangeStream (Op Act)

/-- A stream whose shutdown has a channel of its own. -/
structure Wired where
  /-- The changes and the subscriptions. This stream is never shut down itself. -/
  stream : ChangeStream
  /-- The value that tells of the shutdown. -/
  raised : Bool
  /-- How often that value was set. -/
  version : Nat
  /-- The last setting that a subscriber has looked at. -/
  seen : SubscriptionId → Nat
  /-- Whether a call of the subscriber waits. -/
  waits : SubscriptionId → Bool

namespace Wired

def ofCapacity (capacity : Nat) : Wired where
  stream := .ofCapacity capacity
  raised := false
  version := 0
  seen _ := 0
  waits _ := false

/-- A call that waits on both channels is asked, and looks at the one for the shutdown first. That one
has news when it was set since the subscriber last looked, and when nobody can set it any more. -/
def select (w : Wired) (id : SubscriptionId) : Delivery × Wired :=
  if w.version ≠ w.seen id ∨ w.stream.publisher = .gone then
    (.closed, { w with
      stream := w.stream.close id
      seen := Function.update w.seen id w.version
      waits := Function.update w.waits id false })
  else
    match w.stream.place id with
    | none => (.closed, { w with waits := Function.update w.waits id false })
    | some place =>
      match w.stream.channel.read? place with
      | none => (.pending, { w with waits := Function.update w.waits id true })
      | some (item, next) =>
        (.item item, { w with
          stream := { w.stream with
            subscriptions := w.stream.subscriptions.insert id ⟨.streaming, some next⟩ }
          waits := Function.update w.waits id false })

/-- A new call looks at the value itself, which may have been set before the subscription was opened. -/
def look (w : Wired) (id : SubscriptionId) : Wired := { w with
  stream := if w.raised then w.stream.close id else w.stream
  seen := Function.update w.seen id w.version }

def recv (w : Wired) (id : SubscriptionId) : Delivery × Wired :=
  if w.waits id then w.select id
  else
    let w := w.look id
    match w.stream.place id with
    | none => (.closed, w)
    | some _ => w.select id

def enact (w : Wired) : Act → Wired
  | .op (.recv id) => (w.recv id).2
  | .op (.publish switch isActive timestamp) =>
    { w with stream := w.stream.perform (.publish switch isActive timestamp) }
  | .op .subscribe => { w with
      stream := w.stream.perform .subscribe
      seen := Function.update w.seen w.stream.nextId w.version
      waits := Function.update w.waits w.stream.nextId false }
  | .op (.close id) => { w with
      stream := w.stream.perform (.close id), waits := Function.update w.waits id false }
  | .op (.drop id) => { w with
      stream := w.stream.perform (.drop id), waits := Function.update w.waits id false }
  | .abandon id => { w with waits := Function.update w.waits id false }
  | .shutdown => { w with raised := true, version := w.version + 1 }
  | .dropPublisher => { w with stream := w.stream.dropPublisher }

def play (w : Wired) (acts : List Act) : Wired := acts.foldl enact w

def answer (id : SubscriptionId) (w : Wired) : Act → List Delivery
  | .op (.recv i) => if i = id then [(w.recv i).1] else []
  | _ => []

def answers (id : SubscriptionId) (w : Wired) : List Act → List Delivery
  | [] => []
  | act :: acts => w.answer id act ++ answers id (w.enact act) acts

/-- The publisher as a subscriber will find it. -/
def publisher (w : Wired) : Publisher :=
  if w.stream.publisher = .gone then .gone else if w.raised then .shutDown else .live

/-- The stream with one poll for each time that a subscriber asks. -/
def toStream (w : Wired) : ChangeStream := { w.stream with publisher := w.publisher }

variable {w : Wired} {id : SubscriptionId}

/-- The value is raised as soon as it was set once, and a call waits only where it was not. -/
structure Sound (w : Wired) : Prop where
  raised : w.raised = true ↔ w.version ≠ 0
  waits (id : SubscriptionId) : w.waits id = true → w.seen id = 0 ∧ w.stream.place id ≠ none
  settled : w.toStream.Settled

theorem sound_ofCapacity (capacity : Nat) : (ofCapacity capacity).Sound where
  raised := by simp [ofCapacity]
  waits := nofun
  settled := ChangeStream.settled_ofCapacity capacity

theorem publisher_ne_live : w.publisher ≠ .live ↔ w.raised = true ∨ w.stream.publisher = .gone := by
  unfold publisher
  split
  next h => simp [h]
  next h => cases w.raised <;> simp [h]

/-- The news that a waiting call finds is that the publisher is no longer there for it. -/
theorem Sound.signalled (h : w.Sound) (hw : w.waits id = true) :
    (w.version ≠ w.seen id ∨ w.stream.publisher = .gone) ↔ w.toStream.publisher ≠ .live := by
  show _ ↔ w.publisher ≠ .live
  rw [publisher_ne_live, h.raised, (h.waits id hw).1]

/-- Asking both channels gives what one poll gives, if the first has news just when the stream is over. -/
theorem select_eq (hp : w.stream.place id ≠ none)
    (hsignal : (w.version ≠ w.seen id ∨ w.stream.publisher = .gone) ↔ w.toStream.publisher ≠ .live) :
    (w.select id).1 = (w.toStream.recv id).1 ∧ (w.select id).2.toStream = (w.toStream.recv id).2 := by
  obtain ⟨place, hplace⟩ := Option.ne_none_iff_exists'.mp hp
  have hplace' : (w.toStream.subscriptions[id]?).bind (·.place) = some place := hplace
  unfold select ChangeStream.recv
  rw [hplace', hplace]
  dsimp only
  by_cases hover : w.toStream.publisher ≠ .live
  · rw [if_pos hover, if_pos (hsignal.mpr hover)]
    exact ⟨rfl, rfl⟩
  · rw [if_neg hover, if_neg (fun hs => hover (hsignal.mp hs))]
    have hchannel : w.toStream.channel = w.stream.channel := rfl
    rw [hchannel]
    cases w.stream.channel.read? place with
    | none => exact ⟨rfl, rfl⟩
    | some x => exact ⟨rfl, rfl⟩

theorem Sound.recv_eq (h : w.Sound) (id : SubscriptionId) :
    (w.recv id).1 = (w.toStream.recv id).1 ∧ (w.recv id).2.toStream = (w.toStream.recv id).2 := by
  unfold recv
  by_cases hw : w.waits id = true
  · rw [if_pos hw]
    exact select_eq (h.waits id hw).2 (h.signalled hw)
  · rw [if_neg hw]
    dsimp only
    by_cases hr : w.raised = true
    · -- a call that finds the value raised closes the subscription before it asks either channel
      have hlook : (w.look id).toStream = w.toStream.close id := by
        simp [look, hr, toStream, publisher, ChangeStream.close]
      have hgone : (w.look id).stream.place id = none := by
        show ChangeStream.place (w.look id).toStream id = none
        rw [hlook, ChangeStream.place_close, if_pos rfl]
      rw [hgone]
      dsimp only
      rw [hlook]
      cases hp : w.toStream.place id with
      | none =>
        rw [ChangeStream.recv_of_none hp, h.settled.close_of_none hp]
        exact ⟨rfl, rfl⟩
      | some place =>
        have hover : w.toStream.publisher ≠ .live := publisher_ne_live.mpr (.inl hr)
        have hplace : (w.toStream.subscriptions[id]?).bind (·.place) = some place := hp
        rw [ChangeStream.recv, hplace]
        dsimp only
        rw [if_pos hover]
        exact ⟨rfl, rfl⟩
    · have hlook : (w.look id).toStream = w.toStream := by
        simp [look, hr, toStream, publisher]
      cases hp : (w.look id).stream.place id with
      | none =>
        have hp' : w.toStream.place id = none := by
          rw [← hlook]
          exact hp
        rw [ChangeStream.recv_of_none hp']
        exact ⟨rfl, hlook⟩
      | some place =>
        have hsignal : ((w.look id).version ≠ (w.look id).seen id ∨
            (w.look id).stream.publisher = .gone) ↔ (w.look id).toStream.publisher ≠ .live := by
          show _ ↔ (w.look id).publisher ≠ .live
          rw [publisher_ne_live]
          simp [look, hr]
        obtain ⟨ha, hs⟩ := select_eq (w := w.look id) (hp ▸ Option.some_ne_none place) hsignal
        rw [hlook] at ha hs
        exact ⟨ha, hs⟩

theorem Sound.toStream_enact (h : w.Sound) (act : Act) :
    (w.enact act).toStream = w.toStream.enact act := by
  cases act with
  | op op =>
    cases op with
    | recv i => exact (h.recv_eq i).2
    | publish => rfl
    | subscribe => rfl
    | close i => rfl
    | drop i => rfl
  | abandon i => rfl
  | shutdown =>
    have hpublisher : (w.enact .shutdown).publisher =
        if w.publisher = .gone then .gone else .shutDown := by
      unfold publisher enact
      by_cases hg : w.stream.publisher = .gone
      · simp [hg]
      · cases w.raised <;> simp [hg]
    exact congrArg (fun publisher => { w.stream with publisher }) hpublisher
  | dropPublisher => rfl

/-- What is kept by all that leaves the signal alone and makes nobody wait. -/
theorem Sound.keep {w' : Wired} (h : w.Sound) (raised : w'.raised = w.raised)
    (version : w'.version = w.version) (waits : ∀ i, w'.waits i = true →
      w.waits i = true ∧ w'.seen i = w.seen i ∧ w'.stream.place i = w.stream.place i)
    (settled : w'.toStream.Settled) : w'.Sound where
  raised := by rw [raised, version, h.raised]
  waits i hi := by
    obtain ⟨hw, hs, hp⟩ := waits i hi
    rw [hs, hp]
    exact h.waits i hw
  settled := settled

theorem waits_of_update {f : SubscriptionId → Bool} {i j : SubscriptionId}
    (h : Function.update f i false j = true) : i ≠ j ∧ f j = true := by
  rw [Function.update_apply] at h
  split at h
  · cases h
  next hne => exact ⟨fun he => hne he.symm, h⟩

theorem Sound.look (h : w.Sound) (hw : w.waits id ≠ true) : (w.look id).Sound := by
  refine h.keep rfl rfl ?_ ?_
  · intro i hi
    have hne : id ≠ i := fun he => hw (he ▸ hi)
    refine ⟨hi, Function.update_of_ne hne.symm _ _, ?_⟩
    simp only [Wired.look]
    split
    · rw [ChangeStream.place_close, if_neg hne]
    · rfl
  · simp only [Wired.look]
    split
    · exact h.settled.enact (.op (.close id))
    · exact h.settled

/-- A call that has to wait has seen a stream that is not over. -/
theorem Sound.select (h : w.Sound) (hseen : w.seen id = w.version → w.version = 0)
    (hs : (w.select id).2.toStream.Settled) : (w.select id).2.Sound := by
  revert hs
  unfold Wired.select
  by_cases hsignal : w.version ≠ w.seen id ∨ w.stream.publisher = .gone
  · rw [if_pos hsignal]
    refine h.keep rfl rfl fun i hi => ?_
    obtain ⟨hne, hw⟩ := waits_of_update hi
    exact ⟨hw, Function.update_of_ne hne.symm _ _, ChangeStream.place_close.trans (if_neg hne)⟩
  · rw [if_neg hsignal]
    cases hplace : w.stream.place id with
    | none => exact h.keep rfl rfl fun i hi => ⟨(waits_of_update hi).2, rfl, rfl⟩
    | some place =>
      dsimp only
      cases w.stream.channel.read? place with
      | none =>
        refine fun hs => ⟨h.raised, fun i hi => ?_, hs⟩
        by_cases he : i = id
        · subst he
          have hversion : w.version = w.seen i := not_not.mp fun hne => hsignal (.inl hne)
          have hzero : w.version = 0 := hseen hversion.symm
          refine ⟨hversion.symm.trans hzero, ?_⟩
          show w.stream.place i ≠ none
          rw [hplace]
          exact Option.some_ne_none place
        · exact h.waits i ((Function.update_of_ne he true w.waits).symm.trans hi)
      | some x =>
        refine h.keep rfl rfl fun i hi => ?_
        obtain ⟨hne, hw⟩ := waits_of_update hi
        exact ⟨hw, rfl, (ChangeStream.place_insert _).trans (if_neg hne)⟩

theorem Sound.recv (h : w.Sound) (id : SubscriptionId) : (w.recv id).2.Sound := by
  have hs : (w.recv id).2.toStream.Settled := by
    rw [(h.recv_eq id).2]
    exact h.settled.enact (.op (.recv id))
  unfold Wired.recv at hs ⊢
  by_cases hw : w.waits id = true
  · rw [if_pos hw] at hs ⊢
    exact h.select (fun hseen => hseen ▸ (h.waits id hw).1) hs
  · rw [if_neg hw] at hs ⊢
    dsimp only at hs ⊢
    split at hs
    · exact h.look hw
    next place hp =>
      refine (h.look hw).select ?_ hs
      intro _
      by_contra hversion
      have hraised : w.raised = true := h.raised.mpr hversion
      have hgone : (w.look id).stream.place id = none := by
        simp only [Wired.look, hraised, if_true]
        rw [ChangeStream.place_close, if_pos rfl]
      rw [hgone] at hp
      cases hp

theorem Sound.enact (h : w.Sound) (act : Act) : (w.enact act).Sound := by
  have hs : (w.enact act).toStream.Settled := by
    rw [h.toStream_enact]
    exact h.settled.enact act
  cases act with
  | op op =>
    cases op with
    | recv i => exact h.recv i
    | publish => exact h.keep rfl rfl (fun i hi => ⟨hi, rfl, rfl⟩) hs
    | subscribe =>
      refine h.keep rfl rfl (fun i hi => ?_) hs
      obtain ⟨hne, hw⟩ := waits_of_update hi
      exact ⟨hw, Function.update_of_ne hne.symm _ _, ChangeStream.place_subscribe.trans (if_neg hne)⟩
    | close j =>
      refine h.keep rfl rfl (fun i hi => ?_) hs
      obtain ⟨hne, hw⟩ := waits_of_update hi
      exact ⟨hw, rfl, ChangeStream.place_close.trans (if_neg hne)⟩
    | drop j =>
      refine h.keep rfl rfl (fun i hi => ?_) hs
      obtain ⟨hne, hw⟩ := waits_of_update hi
      exact ⟨hw, rfl, ChangeStream.place_drop.trans (if_neg hne)⟩
  | abandon j => exact h.keep rfl rfl (fun i hi => ⟨(waits_of_update hi).2, rfl, rfl⟩) hs
  | shutdown => exact ⟨by simp [Wired.enact], h.waits, hs⟩
  | dropPublisher => exact h.keep rfl rfl (fun i hi => ⟨hi, rfl, rfl⟩) hs

/-- Whatever happens, and in whatever order the two channels have their news, each subscriber is told
what it would be told by the stream. -/
theorem Sound.play (h : w.Sound) (acts : List Act) :
    (w.play acts).toStream = w.toStream.play acts ∧
      ∀ id, w.answers id acts = w.toStream.answers id acts := by
  induction acts generalizing w with
  | nil => exact ⟨rfl, fun _ => rfl⟩
  | cons act acts ih =>
    obtain ⟨hplay, hanswers⟩ := ih (h.enact act)
    rw [h.toStream_enact] at hplay hanswers
    refine ⟨hplay, fun id => ?_⟩
    rw [answers, ChangeStream.answers, hanswers]
    congr 1
    cases act with
    | op op =>
      cases op with
      | recv i => simp only [answer, ChangeStream.answer, (h.recv_eq i).1]
      | _ => rfl
    | _ => rfl

end Wired
end Playfield
