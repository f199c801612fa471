import Playfield.Json.Record
import Playfield.Proofs.Json.Codec

/-! Records are read back field by field. The members of a record have different names, so each one
fills the slot of its own field and passes by the others; and what is found in a slot was read there, or
stands in for a member or an item that is missing. -/
namespace Playfield.Json

namespace Field

variable {α : Type} {name : String} {c : Codec α} {a : α}

/-- The value is read back by its codec, or it is what a reader assumes when it is not written. -/
def ReadsBack (f : Field α) (a : α) : Prop :=
  f.codec.ReadsBack a ∧ (f.written a = false → f.absent = some a)

/-- The value can be read into the field, or is assumed there. -/
def Yields (f : Field α) (a : α) : Prop :=
  f.codec.Yields a ∨ f.absent = some a ∨ f.cut = some a

theorem ReadsBack.required (h : c.ReadsBack a) : (required name c).ReadsBack a := ⟨h, nofun⟩

theorem Yields.required (h : (required name c).Yields a) : c.Yields a := by
  simpa [Yields, Field.required] using h

theorem ReadsBack.optional {o : Option α} (h : c.option.ReadsBack o) : (optional name c).ReadsBack o :=
  ⟨h, nofun⟩

theorem Yields.optional {o : Option α} (h : (optional name c).Yields o) :
    ∀ a, o = some a → c.Yields a := by
  rintro a rfl
  exact Codec.Yields.option (by simpa [Yields, Field.optional] using h) a rfl

theorem ReadsBack.defaulting {value : α} (h : c.ReadsBack a) : (defaulting name c value).ReadsBack a :=
  ⟨h, nofun⟩

end Field

namespace Fields

variable {ρ : Type}

def ReadsBack : {ρ : Type} → Fields ρ → ρ → Prop
  | _, .done, _ => True
  | _, .field f rest, (a, others) => f.ReadsBack a ∧ rest.ReadsBack others

def Yields : {ρ : Type} → Fields ρ → ρ → Prop
  | _, .done, _ => True
  | _, .field f rest, (a, others) => f.Yields a ∧ rest.Yields others

/-- What has been found so far can be read into its field. -/
def Found : {ρ : Type} → (fs : Fields ρ) → fs.Slots → Prop
  | _, .done, _ => True
  | _, .field f rest, slots => (∀ a, slots.1 = some a → f.codec.Yields a) ∧ rest.Found slots.2

section Slots

variable {α : Type} {f : Field α} {rest : Fields ρ}

/-- The slot of a first field, and those of the others. -/
def Slots.cons (slot : Option α) (others : rest.Slots) : (Fields.field f rest).Slots := (slot, others)

theorem Slots.eq_cons (slots : (Fields.field f rest).Slots) :
    ∃ slot others, slots = Slots.cons slot others := ⟨slots.1, slots.2, rfl⟩

variable (slot : Option α) (others : rest.Slots) (name : String) (d : Draft)

theorem fill_cons : (Fields.field f rest).fill (.cons slot others) name d =
    if f.name = name then
      if slot.isSome then .error .mismatch
      else (f.codec.decode d).map fun a => .cons (some a) others
    else (rest.fill others name d).map (.cons slot) := rfl

theorem noSlots_field : (Fields.field f rest).noSlots = .cons none rest.noSlots := rfl

theorem finish_cons : (Fields.field f rest).finish (.cons slot others) =
    match slot.or f.absent with
    | some a => (rest.finish others).map fun found => (a, found)
    | none => .error .mismatch := rfl

end Slots

section Skip

variable {fs : Fields ρ}

/-- A member that belongs to no field leaves all slots as they are. -/
theorem fill_foreign {slots : fs.Slots} {name : String} {d : Draft} (hname : name ∉ fs.names)
    (hd : d.intact = true) : fs.fill slots name d = .ok slots := by
  induction fs with
  | done => exact if_pos hd
  | field f rest ih =>
    obtain ⟨slot, others, rfl⟩ := Slots.eq_cons slots
    obtain ⟨hf, hrest⟩ := not_or.mp (mt List.mem_cons.mpr hname)
    rw [fill_cons, if_neg (Ne.symm hf), ih hrest]
    rfl

/-- Members with other names than the first field pass it by. -/
theorem fillAll_pass {α : Type} {f : Field α} {slot : Option α} {slots : fs.Slots}
    {members : List (Option String × Draft)} (h : ∀ m ∈ members, m.1 ≠ some f.name) :
    (Fields.field f fs).fillAll (.cons slot slots) members =
      (fs.fillAll slots members).map (.cons slot) := by
  induction members generalizing slots with
  | nil => rfl
  | cons m members ih =>
    obtain ⟨hm, hmembers⟩ := List.forall_mem_cons.mp h
    obtain ⟨_ | name, d⟩ := m
    · rfl
    · have hname : ¬f.name = name := fun e => hm (congrArg some e.symm)
      rw [fillAll, fill_cons, if_neg hname, fillAll]
      cases fs.fill slots name d with
      | error fault => rfl
      | ok filled => exact ih hmembers

end Skip

section Encode

theorem mem_names_of_encode {fs : Fields ρ} {t : ρ} {m : String × Json} (h : m ∈ fs.encode t) :
    m.1 ∈ fs.names := by
  induction fs with
  | done => cases h
  | field f rest ih =>
    obtain ⟨a, others⟩ := t
    simp only [encode] at h
    split at h
    · obtain rfl | h := List.mem_cons.mp h
      · exact List.mem_cons_self
      · exact List.mem_cons_of_mem _ (ih h)
    · exact List.mem_cons_of_mem _ (ih h)

theorem mem_ofMembers {members : List (String × Json)} {m : Option String × Draft}
    (h : m ∈ Draft.ofMembers members) : ∃ n ∈ members, m.1 = some n.1 := by
  induction members with
  | nil => cases h
  | cons n members ih =>
    obtain rfl | h := List.mem_cons.mp h
    · exact ⟨n, List.mem_cons_self, by obtain ⟨name, value⟩ := n; rfl⟩
    · obtain ⟨n', hn', he⟩ := ih h
      exact ⟨n', List.mem_cons_of_mem _ hn', he⟩

/-- The members that a record is written as fill its slots with its values. -/
theorem fillAll_encode {fs : Fields ρ} {t : ρ} (hnames : fs.names.Nodup) (h : fs.ReadsBack t) :
    ∃ slots, fs.fillAll fs.noSlots (Draft.ofMembers (fs.encode t)) = .ok slots ∧
      fs.finish slots = .ok t := by
  induction fs with
  | done => exact ⟨(), rfl, rfl⟩
  | field f rest ih =>
    obtain ⟨a, others⟩ := t
    obtain ⟨⟨hback, habsent⟩, hothers⟩ := h
    obtain ⟨hf, hrest⟩ := List.nodup_cons.mp hnames
    obtain ⟨slots, hfill, hfinish⟩ := ih hrest hothers
    -- Whether or not the first field is written, the members of the others pass its slot by.
    have hpass (slot : Option _) :
        (Fields.field f rest).fillAll (.cons slot rest.noSlots) (Draft.ofMembers (rest.encode others)) =
          .ok (.cons slot slots) := by
      rw [fillAll_pass, hfill]
      · rfl
      · rintro m hm he
        obtain ⟨n, hn, hname⟩ := mem_ofMembers hm
        have hsame : n.1 = f.name := Option.some.inj (hname.symm.trans he)
        exact hf (hsame ▸ mem_names_of_encode hn)
    by_cases hw : f.written a = true
    · refine ⟨.cons (some a) slots, ?_, ?_⟩
      · have hread : f.codec.decode (.ofJson (f.codec.encode a)) = .ok a := hback
        rw [encode, if_pos hw, Draft.ofMembers, Draft.ofMember, fillAll, noSlots_field, fill_cons, if_pos rfl,
          hread]
        exact hpass (some a)
      · rw [finish_cons, hfinish]
        rfl
    · refine ⟨.cons none slots, ?_, ?_⟩
      · rw [encode, if_neg hw, noSlots_field]
        exact hpass none
      · rw [finish_cons, Option.none_or, habsent (Bool.eq_false_iff.mpr hw), hfinish]
        rfl

theorem decode_encode {fs : Fields ρ} {t : ρ} (hnames : fs.names.Nodup) (h : fs.ReadsBack t) :
    fs.decode (.ofJson (.object (fs.encode t))) = .ok t := by
  obtain ⟨slots, hfill, hfinish⟩ := fillAll_encode hnames h
  simp only [Draft.ofJson, decode, hfill, bind, Except.bind, if_true, hfinish]

/-- A first member that belongs to no field is ignored. -/
theorem decode_foreign {fs : Fields ρ} {name : String} {d : Draft}
    {members : List (Option String × Draft)} {closed : Bool} (hname : name ∉ fs.names)
    (hd : d.intact = true) :
    fs.decode (.object ((some name, d) :: members) closed) = fs.decode (.object members closed) := by
  simp only [decode, fillAll, fill_foreign hname hd, bind, Except.bind]

end Encode

section Decode

theorem found_noSlots (fs : Fields ρ) : fs.Found fs.noSlots := by
  induction fs with
  | done => trivial
  | field f rest ih => exact ⟨nofun, ih⟩

theorem found_fill {fs : Fields ρ} {slots slots' : fs.Slots} {name : String} {d : Draft}
    (hs : fs.Found slots) (h : fs.fill slots name d = .ok slots') : fs.Found slots' := by
  induction fs with
  | done => trivial
  | field f rest ih =>
    obtain ⟨slot, others, rfl⟩ := Slots.eq_cons slots
    obtain ⟨hslot, hothers⟩ := hs
    rw [fill_cons] at h
    split at h
    · split at h
      · cases h
      · obtain ⟨a, ha, rfl⟩ := map_ok h
        exact ⟨fun b hb => ⟨d, Option.some.inj hb ▸ ha⟩, hothers⟩
    · obtain ⟨others', ho, rfl⟩ := map_ok h
      exact ⟨hslot, ih hothers ho⟩

theorem found_fillAll {fs : Fields ρ} {members : List (Option String × Draft)} {slots slots' : fs.Slots}
    (hs : fs.Found slots) (h : fs.fillAll slots members = .ok slots') : fs.Found slots' := by
  induction members generalizing slots with
  | nil => exact Except.ok.inj h ▸ hs
  | cons m members ih =>
    obtain ⟨_ | name, d⟩ := m
    · cases h
    · obtain ⟨filled, hfilled, h⟩ := bind_ok h
      exact ih (found_fill hs hfilled) h

theorem yields_finish {fs : Fields ρ} {slots : fs.Slots} {t : ρ} (hs : fs.Found slots)
    (h : fs.finish slots = .ok t) : fs.Yields t := by
  induction fs with
  | done => trivial
  | field f rest ih =>
    obtain ⟨slot, others, rfl⟩ := Slots.eq_cons slots
    obtain ⟨hslot, hothers⟩ := hs
    rw [finish_cons] at h
    split at h
    · rename_i a ha
      obtain ⟨found, hfound, rfl⟩ := map_ok h
      refine ⟨?_, ih hothers hfound⟩
      cases slot with
      | none => exact .inr (.inl ha)
      | some b => exact .inl (hslot a ha)
    · cases h

theorem yields_decodeItems {fs : Fields ρ} {items : List Draft} {closed : Bool} {t : ρ}
    (h : fs.decodeItems items closed = .ok t) : fs.Yields t := by
  induction fs generalizing items closed with
  | done => trivial
  | field f rest ih =>
    cases items with
    | nil =>
      simp only [decodeItems] at h
      split at h
      · split at h
        · rename_i a ha
          obtain ⟨others, ho, rfl⟩ := map_ok h
          exact ⟨.inr (.inr ha), ih ho⟩
        · cases h
      · cases h
    | cons item items =>
      obtain ⟨a, ha, h⟩ := bind_ok h
      obtain ⟨others, ho, h⟩ := bind_ok h
      cases h
      exact ⟨.inl ⟨item, ha⟩, ih ho⟩

/-- However a record is read, each of its values can be read into its field or is assumed there. -/
theorem yields_decode {fs : Fields ρ} {d : Draft} {t : ρ} (h : fs.decode d = .ok t) : fs.Yields t := by
  cases d with
  | object members closed =>
    obtain ⟨slots, hslots, h⟩ := bind_ok h
    split at h
    · exact yields_finish (found_fillAll (found_noSlots fs) hslots) h
    · cases h
  | array items closed => exact yields_decodeItems h
  | _ => cases h

end Decode

end Fields

namespace Codec

variable {α ρ : Type} {fs : Fields ρ} {toTuple : α → ρ} {ofTuple : ρ → α} {a : α}

theorem ReadsBack.record (hnames : fs.names.Nodup) (htuple : ofTuple (toTuple a) = a)
    (h : fs.ReadsBack (toTuple a)) : (record fs toTuple ofTuple).ReadsBack a := by
  simp only [ReadsBack, ofJson, Codec.record, Fields.decode_encode hnames h, Except.map, htuple]

/-- A document with a first member that belongs to no field is read as it is without it. -/
theorem record_decode_foreign (name : String) (d : Draft) {members : List (Option String × Draft)}
    {closed : Bool} (hname : name ∉ fs.names) (hd : d.intact = true) :
    (record fs toTuple ofTuple).decode (.object ((some name, d) :: members) closed) =
      (record fs toTuple ofTuple).decode (.object members closed) :=
  congrArg (·.map ofTuple) (Fields.decode_foreign hname hd)

theorem Yields.record (h : (record fs toTuple ofTuple).Yields a) : ∃ t, fs.Yields t ∧ ofTuple t = a := by
  obtain ⟨d, h⟩ := h
  obtain ⟨t, ht, rfl⟩ := map_ok h
  exact ⟨t, Fields.yields_decode ht, rfl⟩

end Codec
end Playfield.Json
