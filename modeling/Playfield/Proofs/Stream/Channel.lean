import Playfield.Stream

/-! The channel behind a change stream. Whoever reads it sees the list of all events ever sent through it,
of which only the last ones are left. -/
namespace Playfield

theorem ChangeStream.powerAtLeast_pos (n : Nat) : 0 < ChangeStream.powerAtLeast n := by
  unfold powerAtLeast
  split
  · exact Nat.one_pos
  · exact Nat.pow_pos (by omega)

namespace Channel

/-- The channel keeps the end of the list of all events that were sent. -/
structure Keeps (c : Channel) (sent : List ChangeEvent) : Prop where
  sent_eq : c.sent = sent.length
  retained_eq : c.retained = sent.drop (sent.length - c.capacity)

theorem keeps_nil (capacity : Nat) : Keeps ⟨capacity, [], 0⟩ [] :=
  ⟨rfl, List.drop_nil.symm⟩

namespace Keeps

variable {c : Channel} {sent : List ChangeEvent} (h : c.Keeps sent) {k : Nat}

include h

theorem send (event : ChangeEvent) : (c.send event).Keeps (sent ++ [event]) := by
  refine ⟨?_, ?_⟩
  · simp [Channel.send, h.sent_eq]
  · have hd : c.retained ++ [event] = (sent ++ [event]).drop (sent.length - c.capacity) := by
      rw [h.retained_eq, List.drop_append_of_le_length (Nat.sub_le _ _)]
    change (c.retained ++ [event]).drop ((c.retained ++ [event]).length - c.capacity) = _
    rw [hd, List.drop_drop, List.length_drop, List.length_append, List.length_singleton]
    congr 1
    change _ = sent.length + 1 - c.capacity
    omega

theorem oldest_eq : c.oldest = sent.length - c.capacity := by
  rw [Channel.oldest, h.sent_eq, h.retained_eq, List.length_drop]
  omega

/-- A reader that is too far behind is told how many events it has missed. -/
theorem read?_of_behind (hk : k + c.capacity < sent.length) :
    c.read? k = some (.gap (sent.length - c.capacity - k), sent.length - c.capacity) := by
  rw [read?, h.oldest_eq, if_pos (by omega)]

theorem read?_of_near (hk : sent.length ≤ k + c.capacity) :
    c.read? k = (sent[k]?).map fun event => (.change event, k + 1) := by
  rw [read?, h.oldest_eq, if_neg (by omega), h.retained_eq, List.getElem?_drop]
  congr 2
  omega

end Keeps
end Channel
end Playfield
