import Mathlib.Algebra.Order.Ring.Abs

/-! # Words as numbers

A word is a signed or an unsigned number. Arithmetic in a wide word is that of the integers as
long as these fit, and a narrow word keeps what its own arithmetic would have given.
-/
namespace Exemu.Words

variable {v w : Nat} {i j lo hi : Int}

def number (signed : Bool) (x : BitVec w) : Int := if signed then x.toInt else x.toNat

def bring (lo hi i : Int) : Int := if i < lo then lo else if hi < i then hi else i

theorem bring_mem (h : lo ≤ hi) (i : Int) : lo ≤ bring lo hi i ∧ bring lo hi i ≤ hi := by
  unfold bring
  split
  · exact ⟨le_rfl, h⟩
  · split
    · exact ⟨h, le_rfl⟩
    · exact ⟨by omega, by omega⟩

def least (w : Nat) (signed : Bool) : Int := if signed then -2 ^ (w - 1) else 0

def greatest (w : Nat) (signed : Bool) : Int := if signed then 2 ^ (w - 1) - 1 else 2 ^ w - 1

def saturate (w : Nat) (signed : Bool) (i : Int) : BitVec w := BitVec.ofInt w (bring (least w signed) (greatest w signed) i)

def Fits (w : Nat) (i : Int) : Prop := -2 ^ (w - 1) ≤ i ∧ i < 2 ^ (w - 1)

theorem Fits.mono (h : Fits v i) (hWide : v ≤ w) : Fits w i := by
  have hPow : (2 : Int) ^ (v - 1) ≤ 2 ^ (w - 1) := pow_le_pow_right₀ (by decide) (by omega)
  exact ⟨by have := h.1; omega, lt_of_lt_of_le h.2 hPow⟩

variable (x : BitVec w)

theorem fits_toInt : Fits w x.toInt := ⟨x.le_toInt, BitVec.toInt_lt⟩

theorem fits_number (signed : Bool) (x : BitVec w) : Fits (w + 1) (number signed x) := by
  cases signed with
  | true => exact (fits_toInt x).mono (Nat.le_succ w)
  | false =>
    have hLess : (x.toNat : Int) < 2 ^ w := by exact_mod_cast x.isLt
    exact ⟨by change -2 ^ w ≤ (x.toNat : Int); have : (0 : Int) ≤ 2 ^ w := pow_nonneg (by decide) w; omega, hLess⟩

theorem Fits.size (h : Fits w i) : |i| ≤ 2 ^ (w - 1) := abs_le.mpr ⟨h.1, h.2.le⟩

theorem Fits.mul (hv : 0 < v) (hw : 0 < w) (hi : Fits v i) (hj : Fits w j) : Fits (v + w) (i * j) := by
  have hSize : |i * j| ≤ 2 ^ (v - 1) * 2 ^ (w - 1) := by
    rw [abs_mul]
    exact mul_le_mul hi.size hj.size (abs_nonneg j) (pow_nonneg (by decide) _)
  have hLess : (2 : Int) ^ (v - 1) * 2 ^ (w - 1) < 2 ^ (v + w - 1) := by
    rw [← pow_add]
    exact pow_lt_pow_right₀ (by decide) (by omega)
  have hBounds := abs_le.mp hSize
  exact ⟨by omega, by omega⟩

theorem toInt_ofInt (hw : 0 < w) (h : Fits w i) : (BitVec.ofInt w i).toInt = i := BitVec.toInt_ofInt_eq_self hw h.1 h.2

theorem ofInt_sub (i j : Int) : BitVec.ofInt w (i - j) = BitVec.ofInt w i - BitVec.ofInt w j := by
  rw [Int.sub_eq_add_neg, BitVec.ofInt_add, BitVec.ofInt_neg, BitVec.sub_eq_add_neg]

theorem setWidth_ofInt (h : v ≤ w) (i : Int) : (BitVec.ofInt w i).setWidth v = BitVec.ofInt v i := by
  refine BitVec.eq_of_toNat_eq ?_
  have hPow : ((2 ^ v : Nat) : Int) ∣ ((2 ^ w : Nat) : Int) := by exact_mod_cast Nat.pow_dvd_pow 2 h
  have hNonneg : ∀ k : Nat, 0 ≤ i % ((2 ^ k : Nat) : Int) := fun k => Int.emod_nonneg _ (by exact_mod_cast (Nat.two_pow_pos k).ne')
  rw [BitVec.toNat_setWidth, BitVec.toNat_ofInt, BitVec.toNat_ofInt]
  apply Int.ofNat_inj.mp
  rw [Int.natCast_emod, Int.toNat_of_nonneg (hNonneg w), Int.toNat_of_nonneg (hNonneg v)]
  exact Int.emod_emod_of_dvd i hPow

theorem ofInt_toNat : BitVec.ofInt w (x.toNat : Int) = x := by
  rw [BitVec.ofInt_natCast, BitVec.ofNat_toNat, BitVec.setWidth_eq]

theorem ofInt_number (signed : Bool) (x : BitVec w) : BitVec.ofInt w (number signed x) = x := by
  cases signed with
  | true => exact BitVec.ofInt_toInt
  | false => exact ofInt_toNat x

theorem setWidth_eq_ofInt : x.setWidth v = BitVec.ofInt v (x.toNat : Int) := by
  rw [BitVec.ofInt_natCast, BitVec.ofNat_toNat]

theorem sshiftRight_ofInt (hw : 0 < w) (h : Fits w i) (k : Nat) : (BitVec.ofInt w i).sshiftRight k = BitVec.ofInt w (i / 2 ^ k) := by
  rw [BitVec.sshiftRight, toInt_ofInt hw h, Int.shiftRight_eq_div_pow]
  push_cast
  rfl

theorem slt_ofInt (hw : 0 < w) (hi : Fits w i) (hj : Fits w j) : (BitVec.ofInt w i).slt (BitVec.ofInt w j) = decide (i < j) := by
  rw [BitVec.slt_eq_decide, toInt_ofInt hw hi, toInt_ofInt hw hj]

theorem slt_zero (hw : 0 < w) (h : Fits w i) : (BitVec.ofInt w i).slt 0 = decide (i < 0) := by
  have hPow : (0 : Int) < 2 ^ (w - 1) := pow_pos (by decide) _
  exact slt_ofInt (j := 0) hw h ⟨by omega, hPow⟩

def Counts (w : Nat) (i : Int) : Prop := 0 ≤ i ∧ i < 2 ^ w

theorem counts_number : Counts w (number false x) := by
  have hLess : (x.toNat : Int) < 2 ^ w := by exact_mod_cast x.isLt
  exact ⟨Int.natCast_nonneg _, hLess⟩

theorem Counts.mono (h : Counts v i) (hWide : v ≤ w) : Counts w i :=
  ⟨h.1, lt_of_lt_of_le h.2 (pow_le_pow_right₀ (by decide) hWide)⟩

theorem toNat_ofInt (h : Counts w i) : ((BitVec.ofInt w i).toNat : Int) = i := by
  rw [BitVec.toNat_ofInt, Int.natCast_pow]
  change ((i % 2 ^ w).toNat : Int) = i
  rw [Int.emod_eq_of_lt h.1 h.2, Int.toNat_of_nonneg h.1]

theorem lt_ofInt (hi : Counts w i) (hj : Counts w j) : BitVec.ofInt w i < BitVec.ofInt w j ↔ i < j := by
  rw [BitVec.lt_def, ← Int.ofNat_lt, toNat_ofInt hi, toNat_ofInt hj]

theorem ushiftRight_ofInt (h : Counts w i) (k : Nat) : BitVec.ofInt w i >>> k = BitVec.ofInt w (i / 2 ^ k) := by
  have hPow : (0 : Int) < 2 ^ k := pow_pos (by decide) k
  have hDiv : Counts w (i / 2 ^ k) := ⟨Int.ediv_nonneg h.1 hPow.le, (Int.ediv_le_self _ h.1).trans_lt h.2⟩
  refine BitVec.eq_of_toNat_eq (Int.ofNat_inj.mp ?_)
  rw [toNat_ofInt hDiv, BitVec.toNat_ushiftRight, Nat.shiftRight_eq_div_pow, Int.natCast_ediv, toNat_ofInt h]
  push_cast
  rfl

theorem setWidth_up (h : Counts v i) : (BitVec.ofInt v i).setWidth w = BitVec.ofInt w i := by
  rw [setWidth_eq_ofInt, toNat_ofInt h]

theorem min_ofInt {top : Int} (hi : Counts w i) (hTop : Counts w top) :
    (if BitVec.ofInt w i < BitVec.ofInt w top then BitVec.ofInt w i else BitVec.ofInt w top) = BitVec.ofInt w (bring 0 top i) := by
  rw [if_congr (lt_ofInt hi hTop) rfl rfl]
  unfold bring
  rw [if_neg (Int.not_lt.mpr hi.1)]
  rcases lt_trichotomy i top with hLess | rfl | hMore
  · rw [if_pos hLess, if_neg (by omega)]
  · rw [if_neg (by omega), if_neg (by omega)]
  · rw [if_neg (by omega), if_pos hMore]

theorem sub_ofInt {top : Int} (hi : Counts w i) (hj : Counts w j) (hTop : i ≤ top) :
    (if BitVec.ofInt w i < BitVec.ofInt w j then 0 else BitVec.ofInt w i - BitVec.ofInt w j) = BitVec.ofInt w (bring 0 top (i - j)) := by
  rw [if_congr (lt_ofInt hi hj) rfl rfl, ← ofInt_sub]
  unfold bring
  split
  · rw [if_pos (by omega)]
    rfl
  · have := hj.1
    rw [if_neg (by omega), if_neg (by omega)]

end Exemu.Words
