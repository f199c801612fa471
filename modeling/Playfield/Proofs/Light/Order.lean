import Mathlib.Data.List.Pairwise
import Mathlib.Data.List.Perm.Basic
import Playfield.Proofs.Light.History

/-! Fades that begin at one moment. A second fade of the same channel takes over from a fade that has only
just begun, and so from the same brightness; fades of different channels do not meet. Of a list of targets
only the last one of each light counts, and their order does not. -/
namespace Playfield

namespace LightChannel

variable {α : Type} [Scalar α] [LawfulScalar α]

/-- A fade starts from what is there. -/
theorem brightnessAt_startFade (c : LightChannel α) (target : Brightness α) {ms : UInt32} (hms : ms ≠ 0)
    (now : UInt64) : (c.startFade target ms now).brightnessAt now = c.brightnessAt now := by
  rw [startFade, if_neg hms]
  exact Fade.sample_of_le hms (UInt64.le_refl now)

theorem startFade_startFade (c : LightChannel α) (first target : Brightness α) (ms : UInt32)
    (now : UInt64) :
    (c.startFade first ms now).startFade target ms now = c.startFade target ms now := by
  by_cases hms : ms = 0
  · simp [startFade, hms]
  · have hstart := brightnessAt_startFade c first hms now
    simp only [startFade, if_neg hms] at hstart ⊢
    rw [hstart]

end LightChannel

namespace LightEngine

variable {e : LightEngine} {ms : UInt32} {now : UInt64} {light : LightNumber}

theorem ext_channels {e₁ e₂ : LightEngine}
    (h : ∀ light : LightNumber, e₁.channels[light]? = e₂.channels[light]?) : e₁ = e₂ :=
  congrArg mk (Std.ExtTreeMap.ext_getElem? fun {light} => h light)

theorem getElem?_startOne (x : Lighting) : (startOne ms now e x).channels[light]? =
    if x.1 = light then some ((e.channel x.1).startFade x.2 ms now) else e.channels[light]? :=
  Map.getElem?_insert ..

/-- A second fade of a light at the same moment leaves nothing of the first. -/
theorem startOne_startOne {x y : Lighting} (h : x.1 = y.1) :
    startOne ms now (startOne ms now e x) y = startOne ms now e y := by
  refine ext_channels fun light => ?_
  have hchannel : (startOne ms now e x).channel y.1 = (e.channel y.1).startFade x.2 ms now := by
    rw [channel_startOne, if_pos h]
  rw [getElem?_startOne, getElem?_startOne, getElem?_startOne, hchannel,
    LightChannel.startFade_startFade, h]
  split <;> rfl

/-- Fades of different lights do not meet, whatever their durations and moments. -/
theorem startOne_comm {x y : Lighting} (h : x.1 ≠ y.1) {ms' : UInt32} {now' : UInt64} :
    startOne ms' now' (startOne ms now e x) y = startOne ms now (startOne ms' now' e y) x := by
  refine ext_channels fun light => ?_
  simp only [getElem?_startOne, channel_startOne, if_neg h, if_neg h.symm]
  by_cases hx : x.1 = light
  · rw [if_neg fun hy => h (hx.trans hy.symm), if_pos hx, if_pos hx]
  · rw [if_neg hx, if_neg hx]

/-- The targets of which each is the last one for its light. -/
def lastTargets (targets : List Lighting) : List Lighting := targets.pwFilter fun x y => x.1 ≠ y.1

theorem start_cons (x : Lighting) (rest : List Lighting) :
    e.start (x :: rest) ms now = (startOne ms now e x).start rest ms now := rfl

/-- A target that is not the last one for its light makes no difference. -/
theorem start_cons_of_mem {x : Lighting} {rest : List Lighting} (h : x.1 ∈ rest.map (·.1)) :
    e.start (x :: rest) ms now = e.start rest ms now := by
  induction rest generalizing e with
  | nil => cases h
  | cons y rest ih =>
    rw [start_cons, start_cons, start_cons]
    by_cases hxy : x.1 = y.1
    · rw [startOne_startOne hxy]
    · have hrest : x.1 ∈ rest.map (·.1) := (List.mem_cons.mp h).resolve_left hxy
      rw [startOne_comm hxy, ← start_cons x, ih hrest]

theorem lastTargets_cons (x : Lighting) (rest : List Lighting) : lastTargets (x :: rest) =
    if x.1 ∈ rest.map (·.1) then lastTargets rest else x :: lastTargets rest := by
  have hlast : (∀ y ∈ lastTargets rest, x.1 ≠ y.1) ↔ x.1 ∉ rest.map (·.1) := by
    rw [lastTargets, List.forall_mem_pwFilter fun {x y z} hxz => ?_]
    · rw [List.mem_map]
      exact ⟨fun hne ⟨y, hy, hyx⟩ => hne y hy hyx.symm, fun hne y hy hxy => hne ⟨y, hy, hxy.symm⟩⟩
    · -- what is another light than `z` is another light than `y`, or `y` is
      exact or_iff_not_imp_left.mpr fun hxy => not_not.mp hxy ▸ hxz
  unfold lastTargets at hlast ⊢
  split
  next h => rw [List.pwFilter_cons_of_neg (mt hlast.mp (not_not.mpr h))]
  next h => rw [List.pwFilter_cons_of_pos (hlast.mpr h)]

theorem start_lastTargets (targets : List Lighting) :
    e.start (lastTargets targets) ms now = e.start targets ms now := by
  induction targets generalizing e with
  | nil => rfl
  | cons x rest ih =>
    rw [lastTargets_cons]
    split
    next h => rw [ih, start_cons_of_mem h]
    next => rw [start_cons, start_cons, ih]

/-- Fades of different lights may begin in any order. -/
theorem start_perm {targets targets' : List Lighting} (hperm : targets.Perm targets')
    (hlights : (targets.map (·.1)).Nodup) :
    e.start targets ms now = e.start targets' ms now := by
  refine hperm.foldl_eq' (fun x hx y hy e => ?_) e
  by_cases hxy : x = y
  · rw [hxy]
  · exact startOne_comm fun h => hxy (List.inj_on_of_nodup_map hlights hx hy h)

theorem getElem?_start_of_not_mem {targets : List Lighting} (h : light ∉ targets.map (·.1)) :
    (e.start targets ms now).channels[light]? = e.channels[light]? := by
  induction targets generalizing e with
  | nil => rfl
  | cons x rest ih =>
    rw [List.map_cons, List.mem_cons, not_or] at h
    rw [start_cons, ih h.2, getElem?_startOne, if_neg (Ne.symm h.1)]

theorem getElem?_start_of_mem {targets : List Lighting} (hlights : (targets.map (·.1)).Nodup)
    {x : Lighting} (hx : x ∈ targets) : (e.start targets ms now).channels[x.1]? =
      some ((e.channel x.1).startFade x.2 ms now) := by
  induction targets generalizing e with
  | nil => cases hx
  | cons y rest ih =>
    obtain ⟨hy, hrest⟩ := List.nodup_cons.mp hlights
    rw [start_cons]
    rcases List.mem_cons.mp hx with rfl | hx
    · rw [getElem?_start_of_not_mem hy, getElem?_startOne, if_pos rfl]
    · have hne : y.1 ≠ x.1 := fun h => hy (List.mem_map.mpr ⟨x, hx, h.symm⟩)
      rw [ih hrest hx, channel_startOne, if_neg hne]

/-- A fade of several channels stores what the last target of each light stores alone, in whatever order
these are taken: each of the lights goes from where it was to its last target, and every other channel
stays as it is. -/
theorem last_targets_count (e : LightEngine) {targets kept : List Lighting} (ms : UInt32) (now : UInt64)
    (hkept : kept.Perm (lastTargets targets)) :
    e.start targets ms now = e.start kept ms now ∧
      (∀ x ∈ kept, (e.start targets ms now).channels[x.1]? =
        some ((e.channel x.1).startFade x.2 ms now)) ∧
      ∀ light : LightNumber, light ∉ targets.map (·.1) →
        (e.start targets ms now).channels[light]? = e.channels[light]? := by
  have hlast : ((lastTargets targets).map (·.1)).Nodup :=
    List.pairwise_map.mpr (List.pairwise_pwFilter targets)
  have heq : e.start targets ms now = e.start kept ms now := by
    rw [start_perm hkept ((hkept.map _).nodup_iff.mpr hlast), start_lastTargets]
  refine ⟨heq, fun x hx => ?_, fun light hlight => getElem?_start_of_not_mem hlight⟩
  rw [heq, getElem?_start_of_mem ((hkept.map _).nodup_iff.mpr hlast) hx]

/-- `X` is asked to go to two brightnesses while it fades to a third, and `Y` stands between them. -/
theorem last_targets_count_twice_asked :
    let x : LightNumber := ⟨"X", by decide⟩
    let y : LightNumber := ⟨"Y", by decide⟩
    let e := empty.start [(x, ⟨1.0⟩)] 1000 0
    let faded := e.start [(x, ⟨0.0⟩), (y, ⟨0.5⟩), (x, ⟨0.25⟩)] 200 500
    faded = e.start [(x, ⟨0.25⟩), (y, ⟨0.5⟩)] 200 500 ∧
      faded.channels[x]? = some ⟨x, ⟨0.5⟩, some ⟨⟨0.5⟩, ⟨0.25⟩, 500, 200⟩⟩ := by
  intro x y e faded
  have hkept : [(x, ⟨0.25⟩), (y, ⟨0.5⟩)].Perm
      (lastTargets [(x, ⟨0.0⟩), (y, ⟨0.5⟩), (x, ⟨0.25⟩)]) := List.Perm.swap ..
  obtain ⟨heq, hstored, -⟩ := last_targets_count e 200 500 hkept
  refine ⟨heq, ?_⟩
  rw [hstored (x, ⟨0.25⟩) List.mem_cons_self]
  decide

end LightEngine
end Playfield
