import Playfield.Proofs.Map
import Playfield.Rule.Table

/-! The table of hardware rules as a map from pairs of a switch and a coil, and which rules it fires. -/
namespace Playfield.RuleTable

/-- Every rule is kept under its own key. -/
def Keyed (t : RuleTable) : Prop := ∀ key rule, t.get? key = some rule → rule.key = key

variable {t : RuleTable} {rule : HardwareRule} {key : RuleKey} {s : SwitchNumber}

theorem keyed_empty : empty.Keyed := by
  intro key rule h
  simp [get?, ofSwitch, empty] at h

theorem ofSwitch_configure : (t.configure rule).2.ofSwitch s =
    if rule.switch = s then (t.ofSwitch rule.switch).insert rule.coil rule else t.ofSwitch s := by
  simp only [configure, ofSwitch, Map.getD_insert]

theorem get?_configure : (t.configure rule).2.get? key =
    if rule.key = key then some rule else t.get? key := by
  obtain ⟨s, c⟩ := key
  rw [get?, get?, ofSwitch_configure]
  by_cases hs : rule.switch = s
  · subst hs
    rw [if_pos rfl, Map.getElem?_insert]
    by_cases hc : rule.coil = c <;> simp [HardwareRule.key, hc]
  · simp [HardwareRule.key, hs]

/-- The rules of a switch that are left, if any. -/
theorem getElem?_remove : (t.remove key).2.switches[s]? = if key.switch = s
    then (t.switches[s]?.map (·.erase key.coil)).filter (!·.isEmpty) else t.switches[s]? := by
  unfold remove
  dsimp only
  by_cases hs : key.switch = s
  · subst hs
    cases hcoils : t.switches[key.switch]? with
    | none => simp [hcoils]
    | some coils =>
      by_cases hempty : (coils.erase key.coil).isEmpty = true
      · simp [hcoils, hempty, Option.filter_some]
      · simp [hcoils, hempty, Option.filter_some]
  · rw [if_neg hs]
    split
    · rw [Map.getElem?_erase, if_neg hs, Map.getElem?_modify, if_neg hs]
    · rw [Map.getElem?_modify, if_neg hs]

theorem ofSwitch_remove : (t.remove key).2.ofSwitch s =
    if key.switch = s then (t.ofSwitch key.switch).erase key.coil else t.ofSwitch s := by
  simp only [ofSwitch, Std.ExtTreeMap.getD_eq_getD_getElem?, getElem?_remove]
  split
  next hs =>
    subst hs
    cases t.switches[key.switch]? with
    | none => simp
    | some coils =>
      rw [Option.map_some, Option.filter_some]
      by_cases hempty : coils.erase key.coil = ∅
      · simp [hempty]
      · simp [hempty]
  next => rfl

theorem get?_remove {key' : RuleKey} :
    (t.remove key).2.get? key' = if key = key' then none else t.get? key' := by
  obtain ⟨s, c⟩ := key
  obtain ⟨s', c'⟩ := key'
  rw [get?, get?, ofSwitch_remove]
  by_cases hs : s = s'
  · subst hs
    rw [if_pos rfl, Map.getElem?_erase]
    by_cases hc : c = c' <;> simp [hc]
  · simp [hs]

theorem remove_fst : (t.remove key).1 = (t.get? key).elim (.error ⟨"HardwareRule", key.text⟩) .ok := rfl

theorem Keyed.configure (h : t.Keyed) : (t.configure rule).2.Keyed := by
  intro key rule' hr
  rw [get?_configure] at hr
  split at hr
  · cases hr
    assumption
  · exact h key rule' hr

theorem Keyed.remove (h : t.Keyed) : (t.remove key).2.Keyed := by
  intro key' rule' hk
  rw [get?_remove] at hk
  split at hk
  · cases hk
  · exact h key' rule' hk

/-- Exactly the rules of the switch are fired when it becomes active, and none when it is released. -/
theorem Keyed.mem_evaluate (h : t.Keyed) {isActive : Bool} :
    rule ∈ t.evaluate s isActive ↔ isActive = true ∧ t.get? ⟨s, rule.coil⟩ = some rule := by
  rw [evaluate, List.mem_filter, Map.mem_values, HardwareRule.firesOn, and_comm]
  refine and_congr_right fun _ => ?_
  constructor
  · rintro ⟨c, hc⟩
    cases h ⟨s, c⟩ rule hc
    exact hc
  · intro hg
    exact ⟨rule.coil, hg⟩

theorem Keyed.get?_of_mem (h : t.Keyed) {isActive : Bool} (hr : rule ∈ t.evaluate s isActive) :
    t.get? rule.key = some rule := by
  have hg := (h.mem_evaluate.mp hr).2
  rw [h _ rule hg]
  exact hg

theorem Keyed.switch_of_mem (h : t.Keyed) {isActive : Bool} (hr : rule ∈ t.evaluate s isActive) :
    rule.switch = s :=
  congrArg RuleKey.switch (h _ rule (h.mem_evaluate.mp hr).2)

/-- Rules are fired in the order of their coils. -/
theorem Keyed.pairwise_evaluate (h : t.Keyed) (s : SwitchNumber) (isActive : Bool) :
    (t.evaluate s isActive).Pairwise fun r r' => compare r.coil r'.coil = .lt :=
  (Map.pairwise_values (t.ofSwitch s) fun c rule hc =>
    congrArg RuleKey.coil (h ⟨s, c⟩ rule hc)).filter _

end Playfield.RuleTable
