import Mathlib.Algebra.Order.Ring.Nat

/-! # Rounding to powers of two

Masking the low bits of a word rounds it down to a multiple of a power of two, and rounds it up
once what is missing has been added, as long as that addition does not wrap.
-/
namespace Exemu

variable {w : Nat}

theorem testBit_div_mul (n k i : Nat) : (n / 2 ^ k * 2 ^ k).testBit i = (decide (k ≤ i) && n.testBit i) := by
  rw [← Nat.shiftRight_eq_div_pow, ← Nat.shiftLeft_eq, Nat.testBit_shiftLeft, Nat.testBit_shiftRight]
  by_cases hLow : k ≤ i
  · simp [hLow]
  · simp [hLow]

theorem toNat_and_not_mask (x : BitVec w) {a : BitVec w} {k : Nat} (ha : a.toNat = 2 ^ k) :
    (x &&& ~~~(a - 1)).toNat = x.toNat / 2 ^ k * 2 ^ k := by
  have hLt := a.isLt
  rw [ha] at hLt
  have hWidth : 0 < w := by
    by_contra hZero
    obtain rfl : w = 0 := by omega
    have := Nat.two_pow_pos k
    omega
  have hPos := Nat.two_pow_pos k
  have hOne : (1 : BitVec w).toNat = 1 := by
    change 1 % 2 ^ w = 1
    exact Nat.mod_eq_of_lt (Nat.one_lt_two_pow (by omega))
  have hMask : (a - 1).toNat = 2 ^ k - 1 := by
    rw [BitVec.toNat_sub, ha, hOne]
    have hSum : 2 ^ w - 1 + 2 ^ k = (2 ^ k - 1) + 2 ^ w := by omega
    rw [hSum, Nat.add_mod_right, Nat.mod_eq_of_lt (by omega)]
  apply Nat.eq_of_testBit_eq
  intro i
  rw [testBit_div_mul, BitVec.testBit_toNat, BitVec.getLsbD_and, BitVec.getLsbD_not, ← BitVec.testBit_toNat (x := a - 1),
    hMask, Nat.testBit_two_pow_sub_one, BitVec.testBit_toNat]
  by_cases hi : i < w
  · by_cases hLow : i < k <;> simp [hi, hLow, Nat.not_le.mpr, Nat.not_lt.mp]
  · simp [BitVec.getLsbD_of_ge x i (by omega)]

theorem toNat_alignUp (x : BitVec w) {a : BitVec w} {k : Nat} (ha : a.toNat = 2 ^ k)
    (hFits : x.toNat + (2 ^ k - 1) < 2 ^ w) :
    ((x + a - 1) &&& ~~~(a - 1)).toNat = (x.toNat + (2 ^ k - 1)) / 2 ^ k * 2 ^ k := by
  rw [toNat_and_not_mask _ ha]
  have hPos := Nat.two_pow_pos k
  have hSum : (x + a - 1).toNat = x.toNat + (2 ^ k - 1) := by
    have hLt := a.isLt
    rw [ha] at hLt
    have hOne : (1 : BitVec w).toNat = 1 % 2 ^ w := rfl
    have hWide : 1 % 2 ^ w = 1 ∨ 2 ^ w = 1 := by
      rcases Nat.lt_or_ge 1 (2 ^ w) with h | h
      · exact .inl (Nat.mod_eq_of_lt h)
      · exact .inr (by omega)
    have hx := x.isLt
    rw [BitVec.toNat_sub, BitVec.toNat_add, ha, hOne]
    rcases hWide with h | h
    · rw [h]
      rcases Nat.lt_or_ge (x.toNat + 2 ^ k) (2 ^ w) with hIn | hOut
      · rw [Nat.mod_eq_of_lt hIn]
        have hMove : 2 ^ w - 1 + (x.toNat + 2 ^ k) = x.toNat + (2 ^ k - 1) + 2 ^ w := by omega
        rw [hMove, Nat.add_mod_right, Nat.mod_eq_of_lt hFits]
      · have hFull : x.toNat + 2 ^ k = 2 ^ w := by omega
        rw [hFull, Nat.mod_self, Nat.add_zero, Nat.mod_eq_of_lt (by omega)]
        omega
    · omega
  rw [hSum]

end Exemu
