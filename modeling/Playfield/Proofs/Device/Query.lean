import Mathlib.Data.List.Induction
import Playfield.Proofs.Device.Inventory
import Playfield.Proofs.Last

/-! Queries of an inventory, told from the devices that were registered. The last device for each kind and name is
stored, and all that can be asked of the inventory is read off one list of these. -/
namespace Playfield.Inventory

/-- The inventory once these devices have been registered, one after another. -/
def ofDevices (ds : List Device) : Inventory := ds.foldl (fun i d => (i.register d).2) empty

theorem ofDevices_concat (ds : List Device) (d : Device) :
    ofDevices (ds ++ [d]) = ((ofDevices ds).register d).2 := by
  rw [ofDevices, List.foldl_append]
  rfl

variable {ds : List Device} {d : Device} {kind : Kind} {name : String}

theorem holds_ofDevices :
    (ofDevices ds).Holds kind name d ↔ d.place = (kind, name) ∧ IsLast Device.place ds d := by
  -- The induction is on the last registration: it decides what its place holds, and no other.
  induction ds using List.reverseRecOn with
  | nil => simp [ofDevices, empty, Holds, ofKind, IsLast]
  | append_singleton ds new ih =>
    rw [ofDevices_concat, holds_register, isLast_concat]
    by_cases h : new.place = (kind, name)
    · rw [if_pos (Prod.mk.inj h)]
      constructor
      · rintro rfl
        exact ⟨h, .inl rfl⟩
      · rintro ⟨hd, rfl | ⟨hne, -⟩⟩
        · rfl
        · exact absurd (h.trans hd.symm) hne
    · rw [if_neg fun hsame => h (Prod.ext hsame.1 hsame.2), ih]
      refine and_congr_right fun hd => ?_
      constructor
      · intro hlast
        exact .inr ⟨fun he => h (he.trans hd), hlast⟩
      · rintro (rfl | ⟨-, hlast⟩)
        · exact absurd hd h
        · exact hlast

theorem placed_ofDevices (ds : List Device) : (ofDevices ds).Placed where
  kind _ _ _ h := congrArg Prod.fst (holds_ofDevices.mp h).1
  name _ _ _ h := congrArg Prod.snd (holds_ofDevices.mp h).1

/-- What an inventory answers once the devices `ds` have been registered. -/
structure Answers (ds : List Device) (i : Inventory) : Prop where
  /-- A query finds just the stored devices that match it, -/
  query : ∀ q d, d ∈ i.query q ↔ IsLast Device.place ds d ∧ q.Matches d
  /-- each once, by kind and then by name. -/
  ordered : ∀ q, (i.query q).Pairwise Device.Precedes ∧ (i.query q).Nodup
  tagged : ∀ kind tag, i.tagged kind tag = i.query ⟨some kind, some tag, none⟩
  /-- A number finds the first device that a query for it finds, and nothing just if that finds nothing. -/
  number : ∀ kind number, i.findByNumber? kind number = (i.query ⟨some kind, none, some number⟩).head? ∧
    (i.findByNumber? kind number = none ↔ i.query ⟨some kind, none, some number⟩ = [])
  size : i.size = (i.query ⟨none, none, none⟩).length
  /-- A name, in whatever case, finds the device of the kind that has its normal form for a name. -/
  get? : ∀ kind name d, i.get? kind name = some d ↔
    d ∈ i.query ⟨some kind, none, none⟩ ∧ d.name = normalize name

/-- However an inventory was filled, its queries are exact and agree with each other. -/
theorem answers_as_registered (ds : List Device) : (ofDevices ds).Answers ds := by
  have h := placed_ofDevices ds
  have hnumber := h.findByNumber?_eq
  refine ⟨fun q d => ?_, fun q => ⟨h.pairwise_query q, ?_⟩, fun kind tag => rfl,
    fun kind number => ⟨hnumber kind number, ?_⟩, ?_, fun kind name d => h.get?_eq_some⟩
  · rw [h.mem_query, holds_ofDevices]
    exact and_congr_left fun _ => and_iff_right rfl
  · refine (h.pairwise_query q).imp ?_
    rintro d _ hlt rfl
    exact hlt.asymm hlt
  · rw [hnumber, List.head?_eq_none_iff]
  · have hall : (ofDevices ds).query ⟨none, none, none⟩ = (ofDevices ds).toList := by
      rw [h.query_eq, List.filter_eq_self]
      intro d _
      exact decide_eq_true ⟨nofun, nofun, nofun⟩
    rw [hall, size_eq]

end Playfield.Inventory
