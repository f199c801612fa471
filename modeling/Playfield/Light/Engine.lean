import Std.Data.ExtTreeMap
import Playfield.Light
import Playfield.Request

/-! The light engine: every channel that has been driven, with its fade. It has no clock of its own;
each operation is given the moment at which it happens. -/
namespace Playfield

structure LightState where
  light : LightNumber
  brightness : Brightness
  /-- The target of the fade that still runs. -/
  fadingTo : Option Brightness
deriving DecidableEq, Repr

/-- One channel of a fade, and its target. -/
abbrev Lighting := LightNumber × Brightness

structure LightEngine where
  channels : Std.ExtTreeMap LightNumber LightChannel
deriving DecidableEq

namespace LightEngine

def empty : LightEngine := ⟨∅⟩

/-- The channel `light`, which is off until it has been driven. -/
def channel (e : LightEngine) (light : LightNumber) : LightChannel :=
  e.channels.getD light (.off light)

def startOne (durationMs : UInt32) (now : UInt64) (e : LightEngine) (target : Lighting) :
    LightEngine :=
  ⟨e.channels.insert target.1 ((e.channel target.1).startFade target.2 durationMs now)⟩

/-- Starts fades of one duration at one moment, in the order of the list. -/
def start (e : LightEngine) (targets : List Lighting) (durationMs : UInt32) (now : UInt64) :
    LightEngine :=
  targets.foldl (startOne durationMs now) e

def rgbTargets (fade : RgbFade) : List Lighting :=
  [(Color.red.channelOf fade.light, fade.r), (Color.green.channelOf fade.light, fade.g),
    (Color.blue.channelOf fade.light, fade.b)]

/-- The reading of `light` at `now`. A complete fade is settled on the way. -/
def read (e : LightEngine) (light : LightNumber) (now : UInt64) : LightState × LightEngine :=
  match e.channels[light]? with
  | none => (⟨light, .off, none⟩, e)
  | some c =>
    let c := c.settle now
    (⟨light, c.brightnessAt now, (c.activeFade now).map (·.target)⟩, ⟨e.channels.insert light c⟩)

/-- Forgets every channel, and gives their number. -/
def reset (e : LightEngine) : Nat × LightEngine := (e.channels.size, empty)

end LightEngine
end Playfield
