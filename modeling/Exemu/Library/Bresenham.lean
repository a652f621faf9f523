import Mathlib.Tactic.LinearCombination
import Mathlib.Tactic.Ring

/-! # Lines of points

The points nearest to a line, one in each column or row along its longer side, and the error term
that tells which step comes next.
-/
namespace Exemu.Bresenham

def nearest (d e k : Nat) : Nat := (2 * (e * k) + d) / (2 * d)

def point (d e k : Nat) : Nat × Nat := if e ≤ d then (k, nearest d e k) else (nearest e d k, k)

def err (d e k : Nat) : Int := d * (1 + (point d e k).2) - e * (1 + (point d e k).1)

def IsErr (d e : Nat) (v : Int) : Prop :=
  (Nat.gcd d e : Int) ∣ v ∧
    if e ≤ d then 2 * (d - e : Int) - d < 2 * v ∧ 2 * v ≤ 2 * (d - e : Int) + d
    else 2 * (d - e : Int) - e ≤ 2 * v ∧ 2 * v < 2 * (d - e : Int) + e

variable {d e k n : Nat} {v : Int}

theorem point_flat (h : e ≤ d) : point d e k = (k, nearest d e k) := if_pos h

theorem point_steep (h : d < e) : point d e k = (nearest e d k, k) := if_neg (Nat.not_le.mpr h)

theorem point_swap (h : d < e) : point d e k = (point e d k).swap := by
  rw [point_steep h, point_flat h.le]
  rfl

theorem err_swap (h : d < e) : err d e k = -err e d k := by
  unfold err
  rw [point_swap h]
  exact (neg_sub _ _).symm

theorem isErr_swap (h : d < e) : IsErr d e v ↔ IsErr e d (-v) := by
  unfold IsErr
  rw [if_neg (Nat.not_le.mpr h), if_pos h.le, Nat.gcd_comm, Int.dvd_neg]
  exact and_congr_right fun _ => by omega

theorem nearest_iff (hd : 0 < d) : nearest d e k = n ↔ 2 * (d * n : Int) ≤ 2 * (e * k : Int) + d ∧ 2 * (e * k : Int) < 2 * (d * n : Int) + d := by
  have hBounds : nearest d e k = n ↔ n * (2 * d) ≤ 2 * (e * k) + d ∧ 2 * (e * k) + d ≤ n * (2 * d) + 2 * d - 1 :=
    Nat.div_eq_iff (Nat.mul_pos Nat.two_pos hd)
  have hTwice : n * (2 * d) = 2 * (d * n) := by ring
  rw [hBounds, hTwice, ← Int.natCast_mul, ← Int.natCast_mul]
  omega

theorem err_flat (h : e ≤ d) : err d e k = d + d * nearest d e k - (e + e * k) := by
  unfold err
  rw [point_flat h]
  ring

theorem flat_next (hd : 0 < d) (h : e ≤ d) (k : Nat) :
    -(e : Int) ≤ 2 * err d e k ∧ nearest d e (k + 1) = nearest d e k + if 2 * err d e k ≤ d then 1 else 0 := by
  obtain ⟨hLow, hHigh⟩ := (nearest_iff hd).mp (rfl : nearest d e k = nearest d e k)
  have hErr := @err_flat d e k h
  have hStep : (e * ((k + 1 : Nat) : Int)) = e * k + e := by
    push_cast
    ring
  refine ⟨by omega, (nearest_iff hd).mpr ?_⟩
  rw [hStep]
  split
  · have hRow : (d * ((nearest d e k + 1 : Nat) : Int)) = d * nearest d e k + d := by
      push_cast
      ring
    rw [hRow]
    omega
  · rw [Nat.add_zero]
    omega

theorem point_zero (d e : Nat) : point d e 0 = (0, 0) := by
  have hZero : ∀ a b : Nat, nearest a b 0 = 0 := fun a b => by
    rw [nearest, Nat.mul_zero, Nat.mul_zero, Nat.zero_add]
    rcases Nat.eq_zero_or_pos a with rfl | ha
    · rfl
    · exact Nat.div_eq_of_lt (by omega)
  unfold point
  rw [hZero, hZero, ite_self]

theorem point_last (d e : Nat) : point d e (max d e) = (d, e) := by
  have hLast : ∀ a b : Nat, b ≤ a → nearest a b a = b := fun a b hLe => by
    rcases Nat.eq_zero_or_pos a with rfl | ha
    · obtain rfl := Nat.le_zero.mp hLe
      rfl
    · rw [nearest_iff ha, mul_comm (b : Int)]
      omega
  rcases Nat.lt_or_ge d e with hSteep | hFlat
  · rw [max_eq_right hSteep.le, point_steep hSteep, hLast e d hSteep.le]
  · rw [max_eq_left hFlat, point_flat hFlat, hLast d e hFlat]

theorem point_ne_last (hk : k < max d e) : point d e k ≠ (d, e) := by
  intro h
  rcases Nat.lt_or_ge d e with hSteep | hFlat
  · rw [point_steep hSteep] at h
    rw [max_eq_right hSteep.le] at hk
    exact hk.ne (Prod.ext_iff.mp h).2
  · rw [point_flat hFlat] at h
    rw [max_eq_left hFlat] at hk
    exact hk.ne (Prod.ext_iff.mp h).1

theorem point_next (hk : k < max d e) :
    point d e (k + 1) = ((point d e k).1 + (if -(e : Int) ≤ 2 * err d e k then 1 else 0), (point d e k).2 + if 2 * err d e k ≤ d then 1 else 0) := by
  rcases Nat.lt_or_ge d e with hSteep | hFlat
  · obtain ⟨hRow, hCol⟩ := flat_next (Nat.zero_lt_of_lt hSteep) hSteep.le k
    have hErr := @err_swap d e k hSteep
    rw [point_steep hSteep, point_steep hSteep, hCol, if_pos (by omega : 2 * err d e k ≤ d)]
    exact Prod.ext (congrArg (nearest e d k + ·) (if_congr (by omega) rfl rfl)) rfl
  · obtain ⟨hCol, hRow⟩ := flat_next (by omega) hFlat k
    rw [point_flat hFlat, point_flat hFlat, hRow, if_pos hCol]

theorem point_le (hk : k ≤ max d e) : (point d e k).1 ≤ d ∧ (point d e k).2 ≤ e := by
  induction h : max d e - k generalizing k with
  | zero =>
    rw [show k = max d e by omega, point_last]
    exact ⟨Nat.le_refl d, Nat.le_refl e⟩
  | succ n ih =>
    obtain ⟨hCol, hRow⟩ := @ih (k + 1) (by omega) (by omega)
    rw [point_next (by omega)] at hCol hRow
    exact ⟨Nat.le_of_add_right_le hCol, Nat.le_of_add_right_le hRow⟩

theorem err_next (hk : k < max d e) :
    err d e (k + 1) = err d e k + (if -(e : Int) ≤ 2 * err d e k then -(e : Int) else 0) + if 2 * err d e k ≤ d then (d : Int) else 0 := by
  have hNext := point_next hk
  have hOld : err d e k = d * (1 + (point d e k).2) - e * (1 + (point d e k).1) := rfl
  unfold err at hNext ⊢
  rw [hNext]
  split <;> split <;> (push_cast; ring)

theorem err_zero (d e : Nat) : err d e 0 = d - e := by
  unfold err
  rw [point_zero]
  push_cast
  ring

theorem err_last (d e : Nat) : err d e (max d e) = d - e := by
  unfold err
  rw [point_last]
  ring

theorem isErr_err (hk : k < max d e) : IsErr d e (err d e k) := by
  have hFlat : ∀ a b : Nat, b ≤ a → 0 < a → IsErr a b (err a b k) := fun a b hLe ha => by
    refine ⟨Int.dvd_sub ((Int.natCast_dvd_natCast.mpr (Nat.gcd_dvd_left a b)).mul_right _)
      ((Int.natCast_dvd_natCast.mpr (Nat.gcd_dvd_right a b)).mul_right _), ?_⟩
    obtain ⟨hLow, hHigh⟩ := (nearest_iff ha).mp (rfl : nearest a b k = nearest a b k)
    rw [if_pos hLe, err_flat hLe]
    omega
  rcases Nat.lt_or_ge d e with hSteep | hGe
  · rw [isErr_swap hSteep, err_swap hSteep, neg_neg]
    exact hFlat e d hSteep.le (by omega)
  · exact hFlat d e hGe (by omega)

theorem exists_err_flat (h : e ≤ d) (hv : IsErr d e v) : ∃ k < d, err d e k = v := by
  obtain ⟨hDvd, hWindow⟩ := hv
  rw [if_pos h] at hWindow
  have hd : (0 : Int) < d := by omega
  have hRest : (Nat.gcd d e : Int) ∣ v - (d - e) :=
    Int.dvd_sub hDvd (Int.dvd_sub (Int.natCast_dvd_natCast.mpr (Nat.gcd_dvd_left d e)) (Int.natCast_dvd_natCast.mpr (Nat.gcd_dvd_right d e)))
  obtain ⟨t, ht⟩ := hRest
  rw [Nat.gcd_eq_gcd_ab] at ht
  -- the column is the one at which the short side leaves just this remainder
  obtain ⟨k, hk⟩ := Int.eq_ofNat_of_zero_le (Int.emod_nonneg (-(d.gcdB e * t)) hd.ne')
  have hLess : (k : Int) < d := hk ▸ Int.emod_lt_of_pos _ hd
  have hSplit := Int.emod_add_mul_ediv (-(d.gcdB e * t)) d
  rw [hk] at hSplit
  have hRow : d * (d.gcdA e * t - e * (-(d.gcdB e * t) / d)) = v - (d - e) + e * k := by
    linear_combination -ht - e * hSplit
  have hNonneg : 0 ≤ d.gcdA e * t - e * (-(d.gcdB e * t) / d) := by
    by_contra hNeg
    have hBelow : (d : Int) * (d.gcdA e * t - e * (-(d.gcdB e * t) / d)) ≤ d * (-1) := Int.mul_le_mul_of_nonneg_left (by omega) hd.le
    have hSide : 0 ≤ (e * k : Int) := Int.mul_nonneg (Int.natCast_nonneg e) (Int.natCast_nonneg k)
    omega
  obtain ⟨j, hj⟩ := Int.eq_ofNat_of_zero_le hNonneg
  rw [hj] at hRow
  refine ⟨k, by omega, ?_⟩
  have hNear : nearest d e k = j := (nearest_iff (by omega)).mpr (by omega)
  rw [err_flat h, hNear]
  omega

theorem isErr_iff : IsErr d e v ↔ ∃ k < max d e, err d e k = v := by
  refine ⟨fun hv => ?_, fun ⟨k, hk, hErr⟩ => hErr ▸ isErr_err hk⟩
  rcases Nat.lt_or_ge d e with hSteep | hFlat
  · obtain ⟨k, hk, hErr⟩ := exists_err_flat hSteep.le ((isErr_swap hSteep).mp hv)
    rw [max_eq_right hSteep.le]
    exact ⟨k, hk, by rw [err_swap hSteep, hErr, neg_neg]⟩
  · rw [max_eq_left hFlat]
    exact exists_err_flat hFlat hv

end Exemu.Bresenham
