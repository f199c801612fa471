import Std.Data.ExtTreeMap
import Std.Data.ExtTreeSet
import Playfield.Coil
import Playfield.Error

/-! The virtual driver board: what the output stages of real hardware would be doing. It can be taken
offline, may drive only some coils, and keeps the history of everything that it accepted. -/
namespace Playfield

inductive DriverOutput where
  | off
  /-- Fired once, then released. -/
  | pulsed (pulseMs : UInt32) (power : Power)
  /-- Fired, then held. -/
  | holding (pulseMs : UInt32) (power hold : Power)
deriving DecidableEq, Repr

structure CoilDriver where
  output : DriverOutput
  /-- How many actuations other than a disable it has carried out. -/
  fired : Nat
deriving DecidableEq, Repr

namespace CoilDriver

def idle : CoilDriver := ⟨.off, 0⟩

/-- Carries out an actuation. A board that cannot hold only pulses. -/
def apply (d : CoilDriver) (a : Actuation) (canHold : Bool) : CoilDriver :=
  if a.isDisable then { d with output := .off }
  else
    { output :=
        if a.holds && canHold then .holding a.pulseMs a.pulsePower a.holdPower
        else .pulsed a.pulseMs a.pulsePower
      fired := d.fired + 1 }

end CoilDriver

structure BoardConfig where
  holdPower : Bool
  /-- The coils that the board drives; none listed means every coil. -/
  wired : Std.ExtTreeSet CoilNumber
deriving DecidableEq

structure Capabilities where
  holdPower : Bool
deriving DecidableEq, Repr

def BoardConfig.capabilities (c : BoardConfig) : Capabilities := ⟨c.holdPower⟩

def BoardConfig.default : BoardConfig := ⟨true, ∅⟩

inductive BoardFault where
  | offline (coil : CoilNumber)
  | unwired (coil : CoilNumber)
deriving DecidableEq, Repr

namespace BoardFault

def message : BoardFault → String
  | .offline coil => "virtual driver board offline, cannot drive coil " ++ coil.text
  | .unwired coil => "coil " ++ coil.text ++ " is not wired to the virtual driver board"

def unavailable : BoardFault → Unavailable
  | .offline coil => ⟨coil, "driver board offline"⟩
  | .unwired coil => ⟨coil, "coil not wired"⟩

end BoardFault

structure Board where
  config : BoardConfig
  online : Bool
  drivers : Std.ExtTreeMap CoilNumber CoilDriver
  /-- Every accepted actuation, oldest first. -/
  history : List Actuation
deriving DecidableEq

namespace Board

def ofConfig (config : BoardConfig) : Board := ⟨config, true, ∅, []⟩

def setOnline (b : Board) (online : Bool) : Board := { b with online }

def driver (b : Board) (coil : CoilNumber) : CoilDriver := b.drivers.getD coil .idle

def isWired (b : Board) (coil : CoilNumber) : Bool :=
  b.config.wired.isEmpty || b.config.wired.contains coil

/-- Carries out an actuation and keeps it, or refuses it. An offline board refuses everything. -/
def drive (b : Board) (a : Actuation) : Except BoardFault Board :=
  if !b.online then .error (.offline a.coil)
  else if !b.isWired a.coil then .error (.unwired a.coil)
  else
    .ok { b with
      drivers := b.drivers.insert a.coil ((b.driver a.coil).apply a b.config.holdPower)
      history := b.history ++ [a] }

end Board
end Playfield
