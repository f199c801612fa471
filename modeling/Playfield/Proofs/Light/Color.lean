import Playfield.Proofs.Light.Order

/-! The channels of RGB lights. A channel is named by the number of its light, a colon and a letter, and both
can be read off the name again, whatever the number is. So the channels of a light differ from each other, from
the light itself and from those of every other light, and fades of two lights do not meet. -/
namespace Playfield

namespace Color

theorem suffix_inj {a b : Color} (h : a.suffix = b.suffix) : a = b := by
  cases a <;> cases b <;> first | rfl | exact absurd h (by decide)

/-- What is put behind the number of a light has one length for all colours. -/
theorem length_ending (a : Color) : (":" ++ a.suffix).toList.length = 2 := by
  cases a <;> decide

theorem text_channelOf (a : Color) (x : LightNumber) :
    (a.channelOf x).text.toList = x.text.toList ++ (":" ++ a.suffix).toList :=
  String.toList_append

theorem channelOf_inj {a b : Color} {x y : LightNumber} (h : a.channelOf x = b.channelOf y) :
    a = b ∧ x = y := by
  have htext : x.text.toList ++ (":" ++ a.suffix).toList = y.text.toList ++ (":" ++ b.suffix).toList := by
    rw [← text_channelOf, ← text_channelOf, h]
  obtain ⟨hlight, hending⟩ := List.append_inj' htext ((length_ending a).trans (length_ending b).symm)
  constructor
  · exact suffix_inj (String.append_right_inj ":" |>.mp (String.toList_inj.mp hending))
  · exact Number.text_inj (String.toList_inj.mp hlight)

theorem channelOf_ne (a : Color) (x : LightNumber) : a.channelOf x ≠ x := by
  intro h
  have hlength := congrArg List.length (text_channelOf a x)
  rw [h, List.length_append, length_ending] at hlength
  omega

/-- The name of a channel is a number as it stands, so that no other has to be taken in its place. -/
theorem ofString?_channel (a : Color) (x : LightNumber) :
    Number.ofString? .light (x.text ++ ":" ++ a.suffix) = some (a.channelOf x) := by
  have htext : x.text ++ ":" ++ a.suffix = (a.channelOf x).text := String.append_assoc ..
  rw [htext]
  exact dif_pos (a.channelOf x).not_blank

theorem nodup_channels (x : LightNumber) : (all.map (·.channelOf x)).Nodup := by
  refine List.Nodup.map (fun a b h => (channelOf_inj h).1) ?_
  decide

end Color

namespace LightEngine

variable {e : LightEngine} {ms ms' : UInt32} {now now' : UInt64}

theorem start_startOne {x : Lighting} {targets : List Lighting} (h : ∀ y ∈ targets, x.1 ≠ y.1) :
    (startOne ms now e x).start targets ms' now' = startOne ms now (e.start targets ms' now') x := by
  induction targets generalizing e with
  | nil => rfl
  | cons y rest ih =>
    obtain ⟨hy, hrest⟩ := List.forall_mem_cons.mp h
    rw [start_cons, start_cons, startOne_comm hy, ih hrest]

/-- Fades of different channels may begin in either order. -/
theorem start_comm {targets targets' : List Lighting} (h : ∀ x ∈ targets, ∀ y ∈ targets', x.1 ≠ y.1) :
    (e.start targets ms now).start targets' ms' now' =
      (e.start targets' ms' now').start targets ms now := by
  induction targets generalizing e with
  | nil => rfl
  | cons x rest ih =>
    obtain ⟨hx, hrest⟩ := List.forall_mem_cons.mp h
    rw [start_cons, start_cons, ih hrest, start_startOne hx]

theorem map_rgbTargets (fade : RgbFade) :
    (rgbTargets fade).map (·.1) = Color.all.map (·.channelOf fade.light) := rfl

theorem rgbTargets_apart {f g : RgbFade} (h : f.light ≠ g.light) :
    ∀ x ∈ rgbTargets f, ∀ y ∈ rgbTargets g, x.1 ≠ y.1 := by
  have hnames (fade : RgbFade) {x : Lighting} (hx : x ∈ rgbTargets fade) :
      ∃ color : Color, color.channelOf fade.light = x.1 := by
    have hname : x.1 ∈ Color.all.map (·.channelOf fade.light) :=
      map_rgbTargets fade ▸ List.mem_map_of_mem hx
    obtain ⟨color, -, hcolor⟩ := List.mem_map.mp hname
    exact ⟨color, hcolor⟩
  intro x hx y hy hxy
  obtain ⟨a, ha⟩ := hnames f hx
  obtain ⟨b, hb⟩ := hnames g hy
  exact h (Color.channelOf_inj (ha.trans (hxy.trans hb.symm))).2

/-- The channels of RGB lights never collide. Two of them are the same only for one colour of one light, and
none is the light itself: each is a number of its own. So an RGB fade drives three channels and no other, each
from where it was to its component, and fades of two lights come to the same in either order. -/
theorem colors_have_channels_of_their_own :
    (∀ (a b : Color) (x y : LightNumber), a.channelOf x = b.channelOf y → a = b ∧ x = y) ∧
      (∀ (a : Color) (x : LightNumber),
        Number.ofString? .light (x.text ++ ":" ++ a.suffix) = some (a.channelOf x) ∧ a.channelOf x ≠ x) ∧
      (∀ (e : LightEngine) (fade : RgbFade) (now : UInt64),
        let names := Color.all.map (·.channelOf fade.light)
        let faded := e.perform now (.rgb fade)
        let goesTo (c : Color) (target : Brightness) : Prop :=
          faded.channels[c.channelOf fade.light]? =
            some ((e.channel (c.channelOf fade.light)).startFade target fade.fadeMs now)
        names.Nodup ∧ names.length = 3 ∧
          goesTo .red fade.r ∧ goesTo .green fade.g ∧ goesTo .blue fade.b ∧
          ∀ light : LightNumber, light ∉ names → faded.channels[light]? = e.channels[light]?) ∧
      ∀ (e : LightEngine) (f g : RgbFade) (s t : UInt64), f.light ≠ g.light →
        (e.perform s (.rgb f)).perform t (.rgb g) = (e.perform t (.rgb g)).perform s (.rgb f) := by
  refine ⟨fun a b x y => Color.channelOf_inj,
    fun a x => ⟨Color.ofString?_channel a x, Color.channelOf_ne a x⟩, fun e fade now => ?_,
    fun e f g s t h => start_comm (rgbTargets_apart h)⟩
  intro names faded goesTo
  have hnodup : ((rgbTargets fade).map (·.1)).Nodup := Color.nodup_channels fade.light
  have hgoes {x : Lighting} (hx : x ∈ rgbTargets fade) :
      faded.channels[x.1]? = some ((e.channel x.1).startFade x.2 fade.fadeMs now) :=
    getElem?_start_of_mem hnodup hx
  refine ⟨hnodup, rfl, ?_, ?_, ?_, fun light hlight => getElem?_start_of_not_mem hlight⟩
  · exact hgoes (x := (Color.red.channelOf fade.light, fade.r)) (by simp [rgbTargets])
  · exact hgoes (x := (Color.green.channelOf fade.light, fade.g)) (by simp [rgbTargets])
  · exact hgoes (x := (Color.blue.channelOf fade.light, fade.b)) (by simp [rgbTargets])

/-- The second light has the number of the red channel of the first, which its own channels do not meet. -/
theorem colors_have_channels_of_their_own_nested :
    let x : LightNumber := ⟨"X", by decide⟩
    let y : LightNumber := ⟨"X:r", by decide⟩
    let f : RgbFade := ⟨x, ⟨1.0⟩, ⟨0.5⟩, ⟨0.25⟩, 100⟩
    let g : RgbFade := ⟨y, ⟨0.25⟩, ⟨0.5⟩, ⟨1.0⟩, 0⟩
    x ≠ y ∧ Color.red.channelOf x = y ∧ Color.green.channelOf y ≠ Color.green.channelOf x ∧
      (empty.perform 5 (.rgb f)).perform 7 (.rgb g) = (empty.perform 7 (.rgb g)).perform 5 (.rgb f) := by
  intro x y f g
  obtain ⟨hinj, -, -, hcomm⟩ := colors_have_channels_of_their_own
  have hne : x ≠ y := by decide
  exact ⟨hne, by decide, fun h => hne (hinj .green .green y x h).2.symm, hcomm empty f g 5 7 hne⟩

end LightEngine
end Playfield
