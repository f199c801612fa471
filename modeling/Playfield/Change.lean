import Playfield.Number

/-! Switch changes as they are streamed to subscribers. -/
namespace Playfield

structure ChangeEvent where
  /-- The place in the order of publication, from 1 on. -/
  sequence : Nat
  switch : SwitchNumber
  isActive : Bool
  timestamp : UInt64
deriving DecidableEq, Repr

inductive StreamItem where
  | change (event : ChangeEvent)
  /-- The subscriber fell behind, and so many changes were dropped. -/
  | gap (missed : Nat)
deriving DecidableEq, Repr

def StreamItem.change? : StreamItem → Option ChangeEvent
  | .change event => some event
  | .gap _ => none

end Playfield
