import Playfield.Text.Blank

/-! Hardware numbers. A piece of hardware is addressed by an opaque text that its platform chose, such
as `A0-B1-3`; any text that is not blank will do, and it is kept as it is. Numbers of the three kinds
of hardware do not mix. -/
namespace Playfield

inductive Kind where
  | switch
  | coil
  | light
deriving DecidableEq, Repr

def Kind.word : Kind → String
  | .switch => "switch"
  | .coil => "coil"
  | .light => "light"

/-- Kinds in their order: switches, coils, lights. -/
def Kind.all : List Kind := [.switch, .coil, .light]

def Kind.rank : Kind → Nat
  | .switch => 0
  | .coil => 1
  | .light => 2

instance : Ord Kind := ⟨fun a b => compare a.rank b.rank⟩

theorem Kind.rank_inj {a b : Kind} (h : a.rank = b.rank) : a = b := by
  cases a <;> cases b <;> simp_all [Kind.rank]

instance : Std.TransOrd Kind where
  eq_swap {a b} := Std.OrientedOrd.eq_swap (α := Nat) (a := a.rank) (b := b.rank)
  isLE_trans {a b c} := Std.TransOrd.isLE_trans (α := Nat) (a := a.rank) (b := b.rank) (c := c.rank)

instance : Std.LawfulEqOrd Kind where
  compare_self {a} := Std.ReflOrd.compare_self (α := Nat) (a := a.rank)
  eq_of_compare {_ _} h := Kind.rank_inj (Std.LawfulEqOrd.eq_of_compare (α := Nat) h)

structure Number (kind : Kind) where
  text : String
  not_blank : Text.isBlank text = false
deriving DecidableEq, Repr

abbrev SwitchNumber := Number .switch
abbrev CoilNumber := Number .coil
abbrev LightNumber := Number .light

namespace Number

variable {kind : Kind}

/-- The number with the text `s`, if that is not blank. -/
def ofString? (kind : Kind) (s : String) : Option (Number kind) :=
  if h : Text.isBlank s = false then some ⟨s, h⟩ else none

instance : ToString (Number kind) := ⟨text⟩

theorem text_inj {a b : Number kind} (h : a.text = b.text) : a = b := by
  cases a; cases b; simp_all

/-- Numbers are ordered by their texts, character by character. -/
instance : Ord (Number kind) := ⟨fun a b => compare a.text b.text⟩

instance : Std.TransOrd (Number kind) where
  eq_swap {a b} := Std.OrientedOrd.eq_swap (α := String) (a := a.text) (b := b.text)
  isLE_trans {a b c} :=
    Std.TransOrd.isLE_trans (α := String) (a := a.text) (b := b.text) (c := c.text)

instance : Std.LawfulEqOrd (Number kind) where
  compare_self {a} := Std.ReflOrd.compare_self (α := String) (a := a.text)
  eq_of_compare {_ _} h := text_inj (Std.LawfulEqOrd.eq_of_compare (α := String) h)

end Number
end Playfield
