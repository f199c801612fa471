import Mathlib.Data.List.Dedup
import Playfield.Light.Engine
import Playfield.Proofs.Map
import Playfield.Proofs.UnitInterval

/-! What the light engine shows of a channel is a function of the fades addressed to that channel since
the last reset. The engine keeps one fade for each channel and folds it into a number at some of the
reads, so the same history is stored in many forms; all of them read alike from the moment of the last
operation on. -/
namespace Playfield

/-- A fade as it is addressed to one channel. -/
structure Cue (α : Type := Float) where
  target : Brightness α
  durationMs : UInt32
  startTime : UInt64
deriving DecidableEq, Repr

namespace Cue

variable {α : Type}

def Over (c : Cue α) (now : UInt64) : Prop := c.durationMs.toNat ≤ now.toNat - c.startTime.toNat

instance (c : Cue α) (now : UInt64) : Decidable (c.Over now) :=
  inferInstanceAs (Decidable (_ ≤ _))

/-- The brightness at `now` that the fades of one channel make, the latest of them first: each leads
from the brightness just before it to its target. -/
def brightness [Scalar α] : List (Cue α) → UInt64 → Brightness α
  | [], _ => .off
  | c :: earlier, now =>
    if c.Over now then c.target
    else if now ≤ c.startTime then brightness earlier c.startTime
    else (brightness earlier c.startTime).lerp c.target
      (Scalar.ratio (now.toNat - c.startTime.toNat) c.durationMs.toNat)

def fadingTo : List (Cue α) → UInt64 → Option (Brightness α)
  | [], _ => none
  | c :: _, now => if c.Over now then none else some c.target

end Cue

namespace Fade

variable {α : Type} [Scalar α] [LawfulScalar α] {f : Fade α} {now : UInt64}

/-- A fade that takes time shows its start until it begins. -/
theorem sample_of_le (hms : f.durationMs ≠ 0) (hnow : now ≤ f.startTime) : f.sample now = f.start := by
  have hpos : 0 < f.durationMs.toNat := Nat.pos_of_ne_zero fun h => hms (UInt32.toNat_inj.mp h)
  have hzero : f.elapsed now = 0 := Nat.sub_eq_zero_of_le (UInt64.le_iff_toNat_le.mp hnow)
  have hrunning : ¬f.durationMs.toNat ≤ 0 := by omega
  rw [sample, isComplete, hzero, decide_eq_false hrunning, if_neg Bool.false_ne_true, Brightness.lerp,
    Scalar.lerp_ratio_zero _ _ hpos f.durationMs.toNat_lt]

end Fade

namespace LightChannel

variable {α : Type} [Scalar α] {c : LightChannel α} {cues : List (Cue α)} {s t : UInt64}

/-- From `since` on the channel reads as its fades say. Nothing is said about moments before: a fade
that was replaced by its target no longer knows where it came from. -/
def Shows (c : LightChannel α) (cues : List (Cue α)) (since : UInt64) : Prop :=
  ∀ t, since ≤ t →
    c.brightnessAt t = Cue.brightness cues t ∧ (c.activeFade t).map (·.target) = Cue.fadingTo cues t

theorem off_shows (number : LightNumber) : (off number : LightChannel α).Shows [] s := by
  intro t _
  exact ⟨rfl, rfl⟩

theorem Shows.later (h : c.Shows cues s) (hst : s ≤ t) : c.Shows cues t := by
  intro u hu
  exact h u (UInt64.le_trans hst hu)

theorem reads_of_complete {f : Fade α} (hf : c.fade = some f) (hs : f.isComplete s = true)
    (hst : s ≤ t) : c.brightnessAt t = f.target ∧ c.activeFade t = none := by
  have ht : f.isComplete t = true := by
    have hs : f.durationMs.toNat ≤ s.toNat - f.startTime.toNat := of_decide_eq_true hs
    rw [UInt64.le_iff_toNat_le] at hst
    exact decide_eq_true (show f.durationMs.toNat ≤ t.toNat - f.startTime.toNat by omega)
  constructor
  · simp [brightnessAt, hf, Fade.sample, ht]
  · simp [activeFade, hf, ht]

/-- A complete fade reads as its target for ever, so it may be replaced by it at any time. -/
theorem settle_reads (hst : s ≤ t) :
    (c.settle s).brightnessAt t = c.brightnessAt t ∧ (c.settle s).activeFade t = c.activeFade t := by
  unfold settle
  split
  next f hf =>
    obtain ⟨hfade, hs⟩ := Option.filter_eq_some_iff.mp hf
    obtain ⟨hb, ha⟩ := reads_of_complete hfade hs hst
    rw [hb, ha]
    exact ⟨rfl, rfl⟩
  next => exact ⟨rfl, rfl⟩

theorem Shows.settle (h : c.Shows cues s) (hst : s ≤ t) : (c.settle t).Shows cues t := by
  intro u hu
  obtain ⟨hb, ha⟩ := settle_reads (c := c) hu
  rw [hb, ha]
  exact h u (UInt64.le_trans hst hu)

/-- A new fade starts from what the channel reads at that moment. -/
theorem Shows.startFade [LawfulScalar α] (h : c.Shows cues s) (hst : s ≤ t) (target : Brightness α) (ms : UInt32) :
    (c.startFade target ms t).Shows (⟨target, ms, t⟩ :: cues) t := by
  intro u hu
  have hstart : c.brightnessAt t = Cue.brightness cues t := (h t hst).1
  by_cases hms : ms = 0
  · subst hms
    have hover : (⟨target, 0, t⟩ : Cue α).Over u := Nat.zero_le _
    simp [LightChannel.startFade, brightnessAt, activeFade, Cue.brightness, Cue.fadingTo, hover]
  · have hfade : (c.startFade target ms t).fade = some ⟨c.brightnessAt t, target, t, ms⟩ := by
      simp [LightChannel.startFade, hms]
    rw [brightnessAt, activeFade, hfade, hstart]
    by_cases hover : ms.toNat ≤ u.toNat - t.toNat
    · simp [Cue.brightness, Cue.fadingTo, Cue.Over, Fade.sample, Fade.isComplete, Fade.elapsed, hover]
    · refine ⟨?_, by simp [Cue.fadingTo, Cue.Over, Fade.isComplete, Fade.elapsed, hover]⟩
      by_cases hle : u ≤ t
      · simp [Cue.brightness, Cue.Over, Fade.sample_of_le, hms, hle, hover]
      · simp [Cue.brightness, Cue.Over, Fade.sample, Fade.isComplete, Fade.elapsed, hover, hle]

end LightChannel

namespace LightEngine

/-- An operation on the engine. To ask for the brightness alone is a read as well. -/
inductive Op where
  | channels (fade : ChannelFade)
  | rgb (fade : RgbFade)
  | single (fade : SingleFade)
  | read (light : LightNumber)
  | reset
deriving DecidableEq

def perform (e : LightEngine) (now : UInt64) : Op → LightEngine
  | .channels fade => e.start fade.targets fade.fadeMs now
  | .rgb fade => e.start (rgbTargets fade) fade.fadeMs now
  | .single fade => e.start [(fade.light, fade.target)] fade.fadeMs now
  | .read light => (e.read light now).2
  | .reset => e.reset.2

/-- The engine after operations at the moments that stand with them. -/
def run (ops : List (UInt64 × Op)) : LightEngine :=
  ops.foldl (fun e op => e.perform op.1 op.2) empty

/-- The fades that targets stand for, each with the channel that it is addressed to. -/
def cuesOf (targets : List Lighting) (durationMs : UInt32) (now : UInt64) :
    List (LightNumber × Cue) :=
  targets.map fun t => (t.1, ⟨t.2, durationMs, now⟩)

def Op.cues (now : UInt64) : Op → List (LightNumber × Cue)
  | .channels fade => cuesOf fade.targets fade.fadeMs now
  | .rgb fade => cuesOf (rgbTargets fade) fade.fadeMs now
  | .single fade => cuesOf [(fade.light, fade.target)] fade.fadeMs now
  | .read _ => []
  | .reset => []

/-- The fades since the last reset, the latest of them first, after one more operation. -/
def Op.record (cues : List (LightNumber × Cue)) (now : UInt64) (op : Op) : List (LightNumber × Cue) :=
  if op = .reset then [] else (op.cues now).reverse ++ cues

/-- The fades since the last reset, the latest of them first. -/
def played (ops : List (UInt64 × Op)) : List (LightNumber × Cue) :=
  ops.foldl (fun cues op => op.2.record cues op.1) []

def cuesOn (light : LightNumber) (cues : List (LightNumber × Cue)) : List Cue :=
  (cues.filter (·.1 = light)).map (·.2)

/-- The fades addressed to a channel since the last reset, the latest of them first. -/
def history (light : LightNumber) (ops : List (UInt64 × Op)) : List Cue := cuesOn light (played ops)

/-- Whether an operation is a reset or starts a fade on the channel. -/
def Op.concerns (light : LightNumber) (op : Op) : Bool :=
  op = .reset || (op.cues 0).any (·.1 = light)

/-- The engine holds exactly the channels of the fades, and each channel reads as its fades say. -/
structure Shows (e : LightEngine) (cues : List (LightNumber × Cue)) (since : UInt64) : Prop where
  reads (light : LightNumber) : (e.channel light).Shows (cuesOn light cues) since
  stored (light : LightNumber) : light ∈ e.channels ↔ light ∈ cues.map (·.1)

variable {e : LightEngine} {cues : List (LightNumber × Cue)} {s now : UInt64} {light : LightNumber}

theorem cuesOn_cons (x : LightNumber × Cue) :
    cuesOn light (x :: cues) = if x.1 = light then x.2 :: cuesOn light cues else cuesOn light cues := by
  unfold cuesOn
  split
  next h => rw [List.filter_cons_of_pos (by simp [h]), List.map_cons]
  next h => rw [List.filter_cons_of_neg (by simp [h])]

theorem cuesOn_append (a b : List (LightNumber × Cue)) :
    cuesOn light (a ++ b) = cuesOn light a ++ cuesOn light b := by
  simp [cuesOn]

/-- What a read returns, in terms of the channel as it is stored. -/
theorem read_fst : (e.read light now).1 = ⟨light, (e.channel light).brightnessAt now,
    ((e.channel light).activeFade now).map (·.target)⟩ := by
  unfold read channel
  rw [Std.ExtTreeMap.getD_eq_getD_getElem?]
  cases h : e.channels[light]? with
  | none => rfl
  | some c =>
    obtain ⟨hb, ha⟩ := LightChannel.settle_reads (c := c) (UInt64.le_refl now)
    simp only [hb, ha, Option.getD_some]

theorem channel_startOne (ms : UInt32) (x : Lighting) : (startOne ms now e x).channel light =
    if x.1 = light then (e.channel light).startFade x.2 ms now else e.channel light := by
  unfold channel startOne
  rw [Map.getD_insert]
  split
  next h =>
    subst h
    rfl
  next => rfl

theorem mem_insert_channels (i j : LightNumber) (c : LightChannel) :
    j ∈ e.channels.insert i c ↔ i = j ∨ j ∈ e.channels := by
  rw [Std.ExtTreeMap.mem_insert, Std.LawfulEqCmp.compare_eq_iff_eq]

theorem empty_shows : empty.Shows [] s where
  reads light := by
    have h : empty.channel light = .off light := by simp [empty, channel]
    rw [h]
    exact LightChannel.off_shows light
  stored light := by simp [empty]

theorem Shows.startOne (h : e.Shows cues s) (hs : s ≤ now) (ms : UInt32) (x : Lighting) :
    (startOne ms now e x).Shows ((x.1, ⟨x.2, ms, now⟩) :: cues) now where
  reads light := by
    rw [channel_startOne, cuesOn_cons]
    split
    · exact (h.reads light).startFade hs x.2 ms
    · exact (h.reads light).later hs
  stored light := by
    rw [LightEngine.startOne, mem_insert_channels, h.stored light, List.map_cons, List.mem_cons, eq_comm]

theorem Shows.later (h : e.Shows cues s) (hs : s ≤ now) : e.Shows cues now where
  reads light := (h.reads light).later hs
  stored := h.stored

theorem Shows.start (h : e.Shows cues s) (hs : s ≤ now) (targets : List Lighting) (ms : UInt32) :
    (e.start targets ms now).Shows ((cuesOf targets ms now).reverse ++ cues) now := by
  induction targets generalizing e cues s with
  | nil => exact h.later hs
  | cons x rest ih =>
    have hrest := ih (h.startOne hs ms x) (UInt64.le_refl now)
    simpa [LightEngine.start, cuesOf] using hrest

/-- A read may store a channel in another form, and nothing else. -/
theorem Shows.read (h : e.Shows cues s) (hs : s ≤ now) (light : LightNumber) :
    (e.read light now).2.Shows cues now := by
  unfold LightEngine.read
  cases hc : e.channels[light]? with
  | none => exact h.later hs
  | some c =>
    have hchannel : e.channel light = c := by
      rw [channel, Std.ExtTreeMap.getD_eq_getD_getElem?, hc, Option.getD_some]
    refine ⟨fun other => ?_, fun other => ?_⟩
    · show (LightChannel.Shows ((e.channels.insert light (c.settle now)).getD other _) _ _)
      rw [Map.getD_insert]
      split
      next heq =>
        subst heq hchannel
        exact (h.reads light).settle hs
      next => exact (h.reads other).later hs
    · show other ∈ e.channels.insert light (c.settle now) ↔ _
      rw [mem_insert_channels, ← h.stored other, or_iff_right_iff_imp]
      rintro rfl
      exact Std.ExtTreeMap.mem_iff_isSome_getElem?.mpr (by rw [hc]; rfl)

theorem Shows.perform (h : e.Shows cues s) (hs : s ≤ now) (op : Op) :
    (e.perform now op).Shows (op.record cues now) now := by
  cases op with
  | channels fade => exact h.start hs fade.targets fade.fadeMs
  | rgb fade => exact h.start hs (rgbTargets fade) fade.fadeMs
  | single fade => exact h.start hs [(fade.light, fade.target)] fade.fadeMs
  | read light => exact h.read hs light
  | reset => exact empty_shows

/-- A run under a clock that never goes back keeps to the record of its fades. -/
theorem Shows.foldl (h : e.Shows cues s) {ops : List (UInt64 × Op)}
    (hclock : (s :: (ops.map (·.1) ++ [now])).Pairwise (· ≤ ·)) :
    (ops.foldl (fun e op => e.perform op.1 op.2) e).Shows
      (ops.foldl (fun cues op => op.2.record cues op.1) cues) now := by
  induction ops generalizing e cues s with
  | nil =>
    simp only [List.map_nil, List.nil_append, List.pairwise_cons, List.mem_singleton] at hclock
    exact h.later (hclock.1 now rfl)
  | cons op rest ih =>
    simp only [List.map_cons, List.cons_append] at hclock
    have hop : s ≤ op.1 := List.rel_of_pairwise_cons hclock (List.mem_cons_self)
    exact ih (h.perform hop op.2) hclock.of_cons

theorem run_shows {ops : List (UInt64 × Op)} (hclock : (ops.map (·.1) ++ [now]).Pairwise (· ≤ ·)) :
    (run ops).Shows (played ops) now := by
  refine empty_shows (s := 0).foldl (List.pairwise_cons.mpr ⟨fun t _ => ?_, hclock⟩)
  exact UInt64.zero_le

theorem Shows.size (h : e.Shows cues s) : e.channels.size = (cues.map (·.1)).dedup.length := by
  have hperm : e.channels.keys.Perm (cues.map (·.1)).dedup := by
    refine (List.perm_ext_iff_of_nodup Std.ExtTreeMap.nodup_keys (List.nodup_dedup _)).mpr ?_
    intro light
    rw [Std.ExtTreeMap.mem_keys, List.mem_dedup, h.stored light]
  rw [← Std.ExtTreeMap.length_keys, hperm.length_eq]

theorem cuesOn_record (op : Op) : cuesOn light (op.record cues now) =
    if op = .reset then [] else cuesOn light (op.cues now).reverse ++ cuesOn light cues := by
  unfold Op.record
  split
  · rfl
  · exact cuesOn_append _ _

theorem cuesOn_cues_of_not_concerns {op : Op} (h : op.concerns light = false) :
    cuesOn light (op.cues now).reverse = [] := by
  -- which channels are addressed does not depend on the moment
  have hlights : (op.cues now).map (·.1) = (op.cues 0).map (·.1) := by
    cases op <;> simp [Op.cues, cuesOf]
  have hnone : light ∉ (op.cues now).map (·.1) := by
    rw [hlights]
    simp only [Op.concerns, Bool.or_eq_false_iff, List.any_eq_false, decide_eq_true_eq] at h
    simpa using fun c hc => h.2 (light, c) hc rfl
  have hfilter : (op.cues now).reverse.filter (·.1 = light) = [] := by
    rw [List.filter_eq_nil_iff]
    intro x hx hxl
    exact hnone (List.mem_map.mpr ⟨x, List.mem_reverse.mp hx, of_decide_eq_true hxl⟩)
  rw [cuesOn, hfilter, List.map_nil]

theorem cuesOn_foldl_filter (ops : List (UInt64 × Op)) {a b : List (LightNumber × Cue)}
    (hab : cuesOn light a = cuesOn light b) :
    cuesOn light ((ops.filter (·.2.concerns light)).foldl (fun cues op => op.2.record cues op.1) a) =
      cuesOn light (ops.foldl (fun cues op => op.2.record cues op.1) b) := by
  induction ops generalizing a b with
  | nil => exact hab
  | cons op rest ih =>
    by_cases hop : op.2.concerns light = true
    · rw [List.filter_cons_of_pos (by exact hop), List.foldl_cons, List.foldl_cons]
      apply ih
      rw [cuesOn_record, cuesOn_record, hab]
    · rw [List.filter_cons_of_neg (by exact hop), List.foldl_cons]
      apply ih
      -- an operation that is left out adds nothing to the fades of this channel
      have hreset : op.2 ≠ .reset := by
        intro heq
        simp [Op.concerns, heq] at hop
      rw [cuesOn_record, if_neg hreset, cuesOn_cues_of_not_concerns (by simpa using hop),
        List.nil_append, hab]

/-- Reads and the fades of other channels leave no trace in the history of a channel. -/
theorem history_filter (light : LightNumber) (ops : List (UInt64 × Op)) :
    history light (ops.filter (·.2.concerns light)) = history light ops :=
  cuesOn_foldl_filter ops rfl

theorem read_run {ops : List (UInt64 × Op)} (hclock : (ops.map (·.1) ++ [now]).Pairwise (· ≤ ·))
    (light : LightNumber) : ((run ops).read light now).1 =
      ⟨light, Cue.brightness (history light ops) now, Cue.fadingTo (history light ops) now⟩ := by
  obtain ⟨hb, ha⟩ := (run_shows hclock).reads light now (UInt64.le_refl now)
  rw [read_fst, hb, ha, history]

/-- Under a clock that never goes back, a channel reads as the fades addressed to it since the last
reset say: reads in between, the fades of other channels and the order in which the channels are
stored make no difference. A reset gives the number of the channels that have been faded since the one
before. -/
theorem reads_as_history {ops : List (UInt64 × Op)} {now : UInt64}
    (hclock : (ops.map (·.1) ++ [now]).Pairwise (· ≤ ·)) (light : LightNumber) :
    ((run ops).read light now).1 = ⟨light, Cue.brightness (history light ops) now,
        Cue.fadingTo (history light ops) now⟩ ∧
      ((run (ops.filter (·.2.concerns light))).read light now).1 = ((run ops).read light now).1 ∧
      (run ops).reset.1 = ((played ops).map (·.1)).dedup.length := by
  have hkept : ((ops.filter (·.2.concerns light)).map (·.1) ++ [now]).Sublist
      (ops.map (·.1) ++ [now]) := (List.filter_sublist.map _).append_right _
  refine ⟨read_run hclock light, ?_, (run_shows hclock).size⟩
  calc ((run (ops.filter (·.2.concerns light))).read light now).1
    _ = ⟨light, Cue.brightness (history light ops) now, Cue.fadingTo (history light ops) now⟩ := by
      rw [read_run (hclock.sublist hkept), history_filter]
    _ = ((run ops).read light now).1 := (read_run hclock light).symm

/-- A fade of `X`, one of the light `X` with three colours, a read on the way and a second fade of `X`
that takes over from the first. -/
theorem reads_as_history_taken_over :
    let x : LightNumber := ⟨"X", by decide⟩
    let first : Cue := ⟨⟨1.0⟩, 1000, 0⟩
    let second : Cue := ⟨⟨0.25⟩, 500, 600⟩
    let ops : List (UInt64 × Op) :=
      [(0, .single ⟨x, ⟨1.0⟩, 1000⟩), (100, .rgb ⟨x, ⟨0.0⟩, ⟨0.5⟩, ⟨1.0⟩, 50⟩), (400, .read x),
        (600, .channels ⟨500, [(x, ⟨0.25⟩)]⟩)]
    ((run ops).read x 700).1 = ⟨x, Cue.brightness [second, first] 700, some ⟨0.25⟩⟩ ∧
      ((run ops).read (Color.green.channelOf x) 700).1 =
        ⟨Color.green.channelOf x, ⟨0.5⟩, none⟩ ∧
      (run ops).reset.1 = 4 := by
  intro x first second ops
  have hclock : (ops.map Prod.fst ++ [700]).Pairwise (· ≤ ·) := by decide
  obtain ⟨hx, -, hreset⟩ := reads_as_history hclock x
  obtain ⟨hgreen, -, -⟩ := reads_as_history hclock (Color.green.channelOf x)
  have hxs : history x ops = [second, first] := by decide
  have hgs : history (Color.green.channelOf x) ops = [⟨⟨0.5⟩, 50, 100⟩] := by decide
  refine ⟨?_, ?_, ?_⟩
  · rw [hx, hxs]
    rfl
  · rw [hgreen, hgs]
    rfl
  · rw [hreset]
    decide

end LightEngine
end Playfield
