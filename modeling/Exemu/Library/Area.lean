import Mathlib.Algebra.Order.Ring.Nat
import Mathlib.Order.Lattice

/-! # Areas

An area of a plane between two borders in each direction, with the lower ones and without the
upper ones.
-/
namespace Exemu

universe u v

structure Area (α : Type u) where
  left : α
  top : α
  right : α
  bottom : α
  deriving DecidableEq, Repr

namespace Area

def map {α : Type u} {β : Type v} (f : α → β) (a : Area α) : Area β := ⟨f a.left, f a.top, f a.right, f a.bottom⟩

variable {α : Type u} [LinearOrder α]

structure Covers (a : Area α) (x y : α) : Prop where
  left : a.left ≤ x
  top : a.top ≤ y
  right : x < a.right
  bottom : y < a.bottom

theorem covers_iff {a : Area α} {x y : α} : a.Covers x y ↔ a.left ≤ x ∧ a.top ≤ y ∧ x < a.right ∧ y < a.bottom :=
  ⟨fun h => ⟨h.left, h.top, h.right, h.bottom⟩, fun h => ⟨h.1, h.2.1, h.2.2.1, h.2.2.2⟩⟩

instance (a : Area α) (x y : α) : Decidable (a.Covers x y) := decidable_of_iff' _ covers_iff

def meet (a b : Area α) : Area α := ⟨max a.left b.left, max a.top b.top, min a.right b.right, min a.bottom b.bottom⟩

theorem covers_meet {a b : Area α} {x y : α} : (a.meet b).Covers x y ↔ a.Covers x y ∧ b.Covers x y := by
  rw [covers_iff, covers_iff, covers_iff, meet, max_le_iff, max_le_iff, lt_min_iff, lt_min_iff]
  constructor
  · rintro ⟨⟨hl, hl'⟩, ⟨ht, ht'⟩, ⟨hr, hr'⟩, hb, hb'⟩
    exact ⟨⟨hl, ht, hr, hb⟩, hl', ht', hr', hb'⟩
  · rintro ⟨⟨hl, ht, hr, hb⟩, hl', ht', hr', hb'⟩
    exact ⟨⟨hl, hl'⟩, ⟨ht, ht'⟩, ⟨hr, hr'⟩, hb, hb'⟩

theorem meet_assoc (a b c : Area α) : (a.meet b).meet c = a.meet (b.meet c) := by
  simp only [meet, max_assoc, min_assoc]

end Area
end Exemu
