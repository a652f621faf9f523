import Mathlib.Algebra.Order.Ring.Nat
import Mathlib.Data.Int.Order.Basic
import Mathlib.Order.Lattice

/-! # Signed words

Sums and differences of signed words that have to fit, and the smaller and the larger of two,
against the numbers they stand for.
-/
namespace Exemu.Signed

variable {w : Nat}

def Fits (w : Nat) (v : Int) : Prop := -(2 ^ w) ≤ 2 * v ∧ 2 * v < 2 ^ w

instance (w : Nat) (v : Int) : Decidable (Fits w v) := inferInstanceAs (Decidable (_ ∧ _))

def fit (v : Int) : Option (BitVec w) := if Fits w v then some (BitVec.ofInt w v) else none

def checkedAdd (a b : BitVec w) : Option (BitVec w) := fit (a.toInt + b.toInt)

def smax (a b : BitVec w) : BitVec w := if a.slt b then b else a

def smin (a b : BitVec w) : BitVec w := if b.slt a then b else a

theorem fits_toInt (a : BitVec w) : Fits w a.toInt := ⟨a.le_two_mul_toInt, a.two_mul_toInt_lt⟩

theorem toInt_ofInt_of_fits {v : Int} (h : Fits w v) : (BitVec.ofInt w v).toInt = v := by
  rw [BitVec.toInt_ofInt]
  obtain ⟨hLow, hHigh⟩ := h
  exact Int.bmod_eq_of_le_mul_two (by push_cast; omega) (by push_cast; omega)

variable {a b c : BitVec w} {v : Int}

theorem fit_eq_some : fit v = some c ↔ c.toInt = v := by
  unfold fit
  split
  · rename_i hFits
    have hInt := toInt_ofInt_of_fits hFits
    refine ⟨fun h => ?_, fun h => ?_⟩
    · rw [← Option.some.inj h, hInt]
    · exact congrArg some (BitVec.toInt_inj.mp (hInt.trans h.symm))
  · rename_i hOut
    refine ⟨fun h => (by cases h), fun h => absurd ?_ hOut⟩
    rw [← h]
    exact fits_toInt c

theorem fit_of_fits (h : Fits w v) : ∃ c : BitVec w, fit v = some c ∧ c.toInt = v :=
  ⟨BitVec.ofInt w v, if_pos h, toInt_ofInt_of_fits h⟩

theorem fits_of_fit (h : fit v = some c) : Fits w v := by
  rw [← fit_eq_some.mp h]
  exact fits_toInt c

theorem toInt_smax (a b : BitVec w) : (smax a b).toInt = max a.toInt b.toInt := by
  unfold smax
  split
  · rename_i hLess
    exact (max_eq_right (le_of_lt (BitVec.slt_iff_toInt_lt.mp hLess))).symm
  · rename_i hLess
    exact (max_eq_left (not_lt.mp fun h => hLess (BitVec.slt_iff_toInt_lt.mpr h))).symm

theorem toInt_smin (a b : BitVec w) : (smin a b).toInt = min a.toInt b.toInt := by
  unfold smin
  split
  · rename_i hLess
    exact (min_eq_right (le_of_lt (BitVec.slt_iff_toInt_lt.mp hLess))).symm
  · rename_i hLess
    exact (min_eq_left (not_lt.mp fun h => hLess (BitVec.slt_iff_toInt_lt.mpr h))).symm

end Exemu.Signed
