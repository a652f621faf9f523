import Mathlib.Algebra.Order.Ring.Nat
import Mathlib.Data.List.Basic

/-! # Bloom filters

A filter in one word is the union of the words of its keys.
-/
namespace Exemu.Bloom

variable {w : Nat} {α : Type} {f : α → BitVec w} {l : List α} {x : α} {a b c : BitVec w}

/-- The bits of `b` are all in the filter. -/
def Hits (filter b : BitVec w) : Prop := filter &&& b = b

def union (f : α → BitVec w) (l : List α) : BitVec w := l.foldl (fun acc x => acc ||| f x) 0

theorem hits_iff : Hits a b ↔ ∀ i, b.getLsbD i = true → a.getLsbD i = true := by
  unfold Hits
  constructor
  · intro h i hBit
    rw [← h, BitVec.getLsbD_and, Bool.and_eq_true] at hBit
    exact hBit.1
  · intro h
    refine BitVec.eq_of_getLsbD_eq fun i _ => ?_
    rw [BitVec.getLsbD_and, Bool.and_eq_right_iff_imp]
    exact h i

theorem hits_trans (hOuter : Hits a b) (hInner : Hits b c) : Hits a c :=
  hits_iff.mpr fun i hBit => hits_iff.mp hOuter i (hits_iff.mp hInner i hBit)

theorem hits_allOnes (b : BitVec w) : Hits (BitVec.allOnes w) b := BitVec.allOnes_and

theorem hits_foldl (hStart : Hits a b) : Hits (l.foldl (fun acc x => acc ||| f x) a) b := by
  induction l generalizing a with
  | nil => exact hStart
  | cons y l ih =>
    refine ih (hits_iff.mpr fun i hBit => ?_)
    rw [BitVec.getLsbD_or, hits_iff.mp hStart i hBit, Bool.true_or]

theorem hits_union (h : x ∈ l) : Hits (union f l) (f x) := by
  unfold union
  generalize (0 : BitVec w) = start
  induction l generalizing start with
  | nil => exact absurd h List.not_mem_nil
  | cons y l ih =>
    rcases List.mem_cons.mp h with rfl | hLater
    · refine hits_foldl (a := start ||| f x) (hits_iff.mpr fun i hBit => ?_)
      rw [BitVec.getLsbD_or, hBit, Bool.or_true]
    · exact ih hLater _

theorem ne_zero_of_hits (hHits : Hits a b) (hb : b ≠ 0) : a ≠ 0 := by
  rintro rfl
  exact hb (hHits.symm.trans BitVec.zero_and)

end Exemu.Bloom
