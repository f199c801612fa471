import Playfield.Proofs.Switch.History

/-! Debounce in closed form. What a switch shows after any number of reports depends on which of them were as
late as all those before them, refused ones included, and on nothing else. -/
namespace Playfield

namespace Switch

/-- What a switch answers to a report, and the switch afterwards: a report that is refused leaves it as it was. -/
def receive (x : Switch) (report : Flip) : Except StaleReport Bool × Switch :=
  match x.report report.1 report.2 with
  | .ok (changed, y) => (.ok changed, y)
  | .error stale => (.error stale, x)

/-- The switch after reports, whatever it answers to them. -/
def afterAll (x : Switch) (reports : List Flip) : Switch := reports.foldl (fun x r => (x.receive r).2) x

theorem afterAll_concat (x : Switch) (reports : List Flip) (r : Flip) :
    x.afterAll (reports ++ [r]) = ((x.afterAll reports).receive r).2 :=
  List.foldl_append ..

end Switch

namespace Flip

/-- Each report, with those before it. -/
def inContext : List Flip → List (List Flip × Flip)
  | [] => []
  | r :: reports => ([], r) :: (inContext reports).map fun x => (r :: x.1, x.2)

/-- No report of the list is later than `r`. -/
def IsTimely (earlier : List Flip) (r : Flip) : Prop := ∀ e ∈ earlier, e.2 ≤ r.2

instance (earlier : List Flip) (r : Flip) : Decidable (IsTimely earlier r) :=
  List.decidableBAll (fun e : Flip => e.2 ≤ r.2) earlier

/-- The reports that are as late as every report before them. -/
def timely (reports : List Flip) : List Flip :=
  ((inContext reports).filter fun x => IsTimely x.1 x.2).map (·.2)

/-- What the last of the timely reports said. -/
def standing (reports : List Flip) : Bool := (timely reports).getLast?.any (·.1)

/-- The timely reports that said something else than the last timely one before them. -/
def turns (reports : List Flip) : List Flip :=
  ((inContext reports).filter fun x => IsTimely x.1 x.2 && x.2.1 != standing x.1).map (·.2)

/-- The moment of the latest report. -/
def IsLatest (reports : List Flip) (moment : UInt64) : Prop :=
  (∃ e ∈ reports, e.2 = moment) ∧ ∀ e ∈ reports, e.2 ≤ moment

variable {reports : List Flip} {r : Flip} {m : UInt64}

theorem inContext_concat (reports : List Flip) (r : Flip) :
    inContext (reports ++ [r]) = inContext reports ++ [(reports, r)] := by
  induction reports with
  | nil => rfl
  | cons e reports ih => simp [inContext, ih]

theorem timely_concat (reports : List Flip) (r : Flip) :
    timely (reports ++ [r]) = timely reports ++ if IsTimely reports r then [r] else [] := by
  rw [timely, inContext_concat, List.filter_append, List.map_append]
  by_cases h : IsTimely reports r <;> simp [timely, h]

theorem standing_concat (reports : List Flip) (r : Flip) :
    standing (reports ++ [r]) = if IsTimely reports r then r.1 else standing reports := by
  rw [standing, timely_concat]
  split <;> simp [standing]

theorem turns_concat (reports : List Flip) (r : Flip) : turns (reports ++ [r]) =
    turns reports ++ if IsTimely reports r ∧ r.1 ≠ standing reports then [r] else [] := by
  rw [turns, inContext_concat, List.filter_append, List.map_append]
  by_cases h : IsTimely reports r ∧ r.1 ≠ standing reports
  · rw [if_pos h]
    simp [turns, h.1, h.2]
  · rw [if_neg h]
    simp_all [turns]

theorem IsLatest.isTimely_iff (h : IsLatest reports m) : IsTimely reports r ↔ m ≤ r.2 := by
  obtain ⟨⟨e, he, rfl⟩, hle⟩ := h
  exact ⟨fun hr => hr e he, fun hr d hd => UInt64.le_trans (hle d hd) hr⟩

theorem IsLatest.unique {n : UInt64} (h : IsLatest reports m) (h' : IsLatest reports n) : m = n := by
  obtain ⟨⟨e, he, rfl⟩, hle⟩ := h
  obtain ⟨⟨d, hd, rfl⟩, hle'⟩ := h'
  exact UInt64.le_antisymm (hle' e he) (hle d hd)

theorem IsLatest.concat_late (h : IsLatest reports m) (hr : ¬IsTimely reports r) : IsLatest (reports ++ [r]) m := by
  obtain ⟨⟨e, he, rfl⟩, hle⟩ := h
  refine ⟨⟨e, List.mem_append_left _ he, rfl⟩, fun d hd => ?_⟩
  rcases List.mem_append.mp hd with hd | hd
  · exact hle d hd
  · rw [List.mem_singleton.mp hd]
    by_contra hlt
    exact hr fun c hc => UInt64.le_trans (hle c hc) (UInt64.le_of_lt (UInt64.not_le.mp hlt))

theorem isLatest_concat_timely (hr : IsTimely reports r) : IsLatest (reports ++ [r]) r.2 := by
  refine ⟨⟨r, by simp, rfl⟩, fun d hd => ?_⟩
  rcases List.mem_append.mp hd with hd | hd
  · exact hr d hd
  · rw [List.mem_singleton.mp hd]
    exact UInt64.le_refl _

end Flip

namespace Switch

open Flip (IsLatest)

/-- What a switch shows of all the reports about it. -/
structure Settled (x : Switch) (n : SwitchNumber) (reports : List Flip) : Prop where
  number : x.number = n
  isActive : x.isActive = Flip.standing reports
  lastChangedAt : x.lastChangedAt = (Flip.turns reports).getLast?.map (·.2)
  unreported : reports = [] → x.lastReportedAt = none
  reported : reports ≠ [] → ∃ m, x.lastReportedAt = some m ∧ IsLatest reports m

theorem settled_inactive (n : SwitchNumber) : (inactive n).Settled n [] where
  number := rfl
  isActive := rfl
  lastChangedAt := rfl
  unreported := fun _ => rfl
  reported := fun h => absurd rfl h

namespace Settled

variable {x : Switch} {n : SwitchNumber} {reports : List Flip} {r : Flip} (h : x.Settled n reports)

include h

theorem lastReportedAt_iff {m : UInt64} : x.lastReportedAt = some m ↔ IsLatest reports m := by
  by_cases hreports : reports = []
  · rw [h.unreported hreports, hreports]
    simp [IsLatest]
  · obtain ⟨m', hm', hlatest⟩ := h.reported hreports
    rw [hm', Option.some_inj]
    constructor
    · rintro rfl
      exact hlatest
    · exact hlatest.unique

/-- The last accepted report stands for all reports: to be as late is to be as late as every one of them. -/
theorem isTimely_iff : x.IsTimely r.2 ↔ Flip.IsTimely reports r := by
  by_cases hreports : reports = []
  · subst hreports
    simp [Switch.IsTimely, Flip.IsTimely, h.unreported rfl]
  · obtain ⟨m, hm, hlatest⟩ := h.reported hreports
    rw [hlatest.isTimely_iff, Switch.IsTimely, hm]
    simp

theorem stale {last : UInt64} (hl : x.lastReportedAt = some last) (hr : r.2 < last) :
    ¬Flip.IsTimely reports r := by
  rw [(h.lastReportedAt_iff.mp hl).isTimely_iff]
  exact UInt64.not_le.mpr hr

theorem accepts_iff (r : Flip) : (∃ changed, (x.receive r).1 = .ok changed) ↔ Flip.IsTimely reports r := by
  have hreported := x.report_reported r
  rw [Switch.receive]
  generalize x.report r.1 r.2 = answer at hreported ⊢
  cases hreported with
  | stale hl hr => simpa using h.stale hl hr
  | repeats ht => simpa using h.isTimely_iff.mp ht
  | changes ht => simpa using h.isTimely_iff.mp ht

theorem changes_iff (r : Flip) :
    (x.receive r).1 = .ok true ↔ Flip.IsTimely reports r ∧ r.1 ≠ x.isActive := by
  have hreported := x.report_reported r
  rw [Switch.receive]
  generalize x.report r.1 r.2 = answer at hreported ⊢
  cases hreported with
  | stale hl hr => simp [h.stale hl hr]
  | repeats ht ha => simp [ha]
  | changes ht ha => simp [h.isTimely_iff.mp ht, ha]

theorem of_refused {stale : StaleReport} (hs : (x.receive r).1 = .error stale) :
    (x.receive r).2 = x ∧ stale.switch = n ∧ stale.timestamp = r.2 ∧ IsLatest reports stale.lastAccepted := by
  have hreported := x.report_reported r
  rw [Switch.receive] at hs ⊢
  generalize x.report r.1 r.2 = answer at hreported hs ⊢
  cases hreported with
  | stale hl hr =>
      cases hs
      exact ⟨rfl, h.number, rfl, h.lastReportedAt_iff.mp hl⟩
  | repeats ht => cases hs
  | changes ht => cases hs

theorem settled_receive (r : Flip) : (x.receive r).2.Settled n (reports ++ [r]) := by
  have hreported := x.report_reported r
  rw [Switch.receive]
  generalize x.report r.1 r.2 = answer at hreported ⊢
  cases hreported with
  | @stale last hl hr =>
      -- The switch stays as it is, and so does the latest report, as this one is earlier.
      have hlate := h.stale hl hr
      have hlatest := (h.lastReportedAt_iff.mp hl).concat_late hlate
      refine ⟨h.number, ?_, ?_, by simp, fun _ => ⟨last, hl, hlatest⟩⟩
      · rw [Flip.standing_concat, if_neg hlate]
        exact h.isActive
      · rw [Flip.turns_concat, if_neg fun ht => hlate ht.1, List.append_nil]
        exact h.lastChangedAt
  | repeats ht ha =>
      have htimely := h.isTimely_iff.mp ht
      refine ⟨h.number, ?_, ?_, by simp, fun _ => ⟨r.2, rfl, Flip.isLatest_concat_timely htimely⟩⟩
      · rw [Flip.standing_concat, if_pos htimely]
        exact ha
      · rw [Flip.turns_concat, if_neg fun ht => ht.2 (by rw [← ha, h.isActive]), List.append_nil]
        exact h.lastChangedAt
  | changes ht ha =>
      have htimely := h.isTimely_iff.mp ht
      have hother : r.1 ≠ Flip.standing reports := by simp [← h.isActive, ha]
      refine ⟨h.number, ?_, ?_, by simp, fun _ => ⟨r.2, rfl, Flip.isLatest_concat_timely htimely⟩⟩
      · rw [Flip.standing_concat, if_pos htimely]
        rfl
      · rw [Flip.turns_concat, if_pos ⟨htimely, hother⟩, List.getLast?_concat]
        rfl

end Settled

/-- However many reports there were, the switch shows them all. -/
theorem settled_afterAll (n : SwitchNumber) (reports : List Flip) :
    ((inactive n).afterAll reports).Settled n reports := by
  induction reports using List.reverseRecOn with
  | nil => exact settled_inactive n
  | append_singleton reports r ih =>
      rw [afterAll_concat]
      exact ih.settled_receive r

/-- What the switch `n` shows after the reports `earlier`, and what it makes of a further report. -/
structure Debounces (n : SwitchNumber) (earlier : List Flip) (r : Flip) : Prop where
  isActive : ((inactive n).afterAll earlier).isActive = Flip.standing earlier
  lastReportedAt : ∀ m, ((inactive n).afterAll earlier).lastReportedAt = some m ↔ Flip.IsLatest earlier m
  lastChangedAt : ((inactive n).afterAll earlier).lastChangedAt = (Flip.turns earlier).getLast?.map (·.2)
  accepts : (∃ changed, (((inactive n).afterAll earlier).receive r).1 = .ok changed) ↔ Flip.IsTimely earlier r
  changes : (((inactive n).afterAll earlier).receive r).1 = .ok true ↔
    Flip.IsTimely earlier r ∧ r.1 ≠ ((inactive n).afterAll earlier).isActive
  refuses : ∀ stale, (((inactive n).afterAll earlier).receive r).1 = .error stale →
    (inactive n).afterAll (earlier ++ [r]) = (inactive n).afterAll earlier ∧
      stale.switch = n ∧ stale.timestamp = r.2 ∧ Flip.IsLatest earlier stale.lastAccepted

theorem debounces (n : SwitchNumber) (earlier : List Flip) (r : Flip) : Debounces n earlier r := by
  have h := settled_afterAll n earlier
  refine ⟨h.isActive, fun m => h.lastReportedAt_iff, h.lastChangedAt, h.accepts_iff r, h.changes_iff r, ?_⟩
  intro stale hs
  rw [afterAll_concat]
  exact h.of_refused hs

/-- The second report comes too late, the third only repeats the state. -/
example : Flip.turns [(true, 5), (false, 3), (true, 5), (false, 9)] = [(true, 5), (false, 9)] := by decide

end Switch
end Playfield
