import Exemu.Library.Binary
import Mathlib.Data.BitVec

/-! # Double precision

The operations on doubles that round to the nearest, on the bits.
-/
namespace Exemu.Double

open Binary (units round power)

def top : ℕ := 0x7FF0000000000000

def magnitude (x : BitVec 64) : ℕ := x.toNat % 2 ^ 63

def ofParts (negative : Bool) (n : ℕ) : BitVec 64 := BitVec.ofNat 64 (2 ^ 63 * negative.toNat + n)

def nan : BitVec 64 := 0x7FF8000000000000

def isNan (x : BitVec 64) : Bool := top < magnitude x

def isInfinite (x : BitVec 64) : Bool := magnitude x = top

def isFinite (x : BitVec 64) : Bool := magnitude x < top

def isZero (x : BitVec 64) : Bool := magnitude x = 0

/-- The value, in units of `2 ^ -1074`. -/
def value (x : BitVec 64) : ℤ := if x.msb then -(units 52 (magnitude x) : ℤ) else units 52 (magnitude x)

/-- The nearest pattern to `v / 2 ^ k` units, or the infinity. -/
def encode (k v : ℕ) : ℕ := min (round 52 k v) top

def ofInt (n : ℤ) : BitVec 64 := ofParts (decide (n < 0)) (encode 0 (n.natAbs * 2 ^ 1074))

def neg (x : BitVec 64) : BitVec 64 := ofParts (!x.msb) (magnitude x)

def mul (x y : BitVec 64) : BitVec 64 :=
  if isNan x || isNan y then nan
  else if isInfinite x || isInfinite y then
    if isZero x || isZero y then nan else ofParts (x.msb ^^ y.msb) top
  else ofParts (x.msb ^^ y.msb) (encode 1074 (units 52 (magnitude x) * units 52 (magnitude y)))

/-- The number of whole ones, given what is left and the sign, decides the result of rounding to an integer. -/
def toIntegral (f : Bool → ℕ → ℕ → ℕ) (x : BitVec 64) : BitVec 64 :=
  if isFinite x then ofParts x.msb (encode 0 (f x.msb (units 52 (magnitude x) / 2 ^ 1074) (units 52 (magnitude x) % 2 ^ 1074) * 2 ^ 1074)) else x

def trunc : BitVec 64 → BitVec 64 := toIntegral fun _ q _ => q
def floor : BitVec 64 → BitVec 64 := toIntegral fun negative q r => if negative ∧ r ≠ 0 then q + 1 else q
def ceil : BitVec 64 → BitVec 64 := toIntegral fun negative q r => if ¬negative ∧ r ≠ 0 then q + 1 else q

def roundAway : BitVec 64 → BitVec 64 := toIntegral fun _ q r => if 2 ^ 1074 ≤ 2 * r then q + 1 else q

def add (x y : BitVec 64) : BitVec 64 :=
  if isNan x || isNan y then nan
  else if isInfinite x then if isInfinite y && (x.msb != y.msb) then nan else x
  else if isInfinite y then y
  else ofParts (if value x + value y = 0 then x.msb && y.msb else decide (value x + value y < 0)) (encode 0 (value x + value y).natAbs)

def sub (x y : BitVec 64) : BitVec 64 := add x (neg y)

def abs (x : BitVec 64) : BitVec 64 := ofParts false (magnitude x)

def lt (x y : BitVec 64) : Bool := !isNan x && !isNan y && decide (value x < value y)

def eq (x y : BitVec 64) : Bool := !isNan x && !isNan y && decide (value x = value y)

/-- `x as i64`: towards zero, and to the end of the range for what is out of it. -/
def toInt64 (x : BitVec 64) : ℤ :=
  if isNan x then 0
  else max (-2 ^ 63) (min (2 ^ 63 - 1) (if x.msb then -((units 52 (magnitude x) / 2 ^ 1074 : ℕ) : ℤ) else (units 52 (magnitude x) / 2 ^ 1074 : ℕ)))

variable {x y : BitVec 64} {n j k v : ℕ} {negative : Bool}

theorem top_eq : top = power 52 2098 := by decide

theorem parts (hn : n < 2 ^ 63) (negative : Bool) : (ofParts negative n).msb = negative ∧ magnitude (ofParts negative n) = n := by
  have hBool : negative.toNat ≤ 1 := negative.toNat_le
  have hNat : (ofParts negative n).toNat = 2 ^ 63 * negative.toNat + n := by
    rw [ofParts, BitVec.toNat_ofNat, Nat.mod_eq_of_lt (by omega)]
  constructor
  · rw [BitVec.msb_eq_decide, hNat]
    cases negative
    · exact decide_eq_false (by simp; omega)
    · exact decide_eq_true (by simp)
  · rw [magnitude, hNat, Nat.mul_add_mod, Nat.mod_eq_of_lt hn]

theorem ofParts_self (x : BitVec 64) : ofParts x.msb (magnitude x) = x := by
  have hLt := x.isLt
  apply BitVec.eq_of_toNat_eq
  rw [ofParts, BitVec.toNat_ofNat, BitVec.msb_eq_decide, magnitude]
  by_cases hTop : 2 ^ 63 ≤ x.toNat
  · rw [decide_eq_true hTop]
    change (2 ^ 63 * 1 + x.toNat % 2 ^ 63) % 2 ^ 64 = _
    omega
  · rw [decide_eq_false hTop]
    change (2 ^ 63 * 0 + x.toNat % 2 ^ 63) % 2 ^ 64 = _
    omega

theorem top_lt : top < 2 ^ 63 := by decide

theorem encode_le (k v : ℕ) : encode k v ≤ top := Nat.min_le_right ..

theorem encode_units (hn : n ≤ top) (k : ℕ) : encode k (units 52 n * 2 ^ k) = n := by
  rw [encode, Binary.round_units (by decide), Nat.min_eq_left hn]

theorem top_le_round_iff (k v : ℕ) : top ≤ round 52 k v ↔ (units 52 (top - 1) + units 52 top) * 2 ^ k ≤ 2 * v := by
  rw [Binary.le_round_iff (by decide) k v (by decide)]
  constructor
  · rintro (h | ⟨h, -⟩)
    · exact h.le
    · exact h.le
  · intro h
    rcases Nat.lt_or_eq_of_le h with h | h
    · exact .inl h
    · exact .inr ⟨h, by decide⟩

theorem encode_zero (k : ℕ) : encode k 0 = 0 := by
  have hUnits := encode_units (Nat.zero_le top) k
  rwa [Binary.units_of_lt (Nat.two_pow_pos _), Nat.zero_mul] at hUnits

end Exemu.Double
