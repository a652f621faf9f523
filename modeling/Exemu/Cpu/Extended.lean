import Exemu.Cpu.X87

/-! # What the conversions keep

A double has a value in units of `2 ^ -1074`, and an extended number in units of `2 ^ -16445`.
-/
namespace Exemu.Interp

open Binary (units power)
open Double (magnitude ofParts encode)

/-! ## Powers of two in the host -/

section Scale

variable {z k b fuel : Nat} {n : Int}

/-- The pattern of `2 ^ n` units: nothing below them, and the infinity above all numbers. -/
def scale (n : Int) : Nat := if n < 0 then 0 else min (power 52 n.toNat) Double.top

theorem scale_natCast (z : Nat) : scale z = min (power 52 z) Double.top := by
  unfold scale
  rw [if_neg (by omega), Int.toNat_natCast]

theorem scale_of_lt (hz : z < 2098) : scale z = power 52 z := by
  rw [scale_natCast, Double.top_eq, Nat.min_eq_left ((Binary.power_strictMono 52).monotone hz.le)]

theorem scale_of_le (hz : 2098 ≤ z) : scale z = Double.top := by
  rw [scale_natCast, Double.top_eq, Nat.min_eq_right ((Binary.power_strictMono 52).monotone hz)]

theorem power_lt_top (hz : z < 2098) : power 52 z < Double.top := by
  rw [Double.top_eq]
  exact Binary.power_strictMono 52 hz

theorem mul_finite {a : Nat} (ha : a < Double.top) (hb : b < Double.top) (neg neg' : Bool) :
    Double.mul (ofParts neg a) (ofParts neg' b) = ofParts (neg ^^ neg') (encode 1074 (units 52 a * units 52 b)) := by
  obtain ⟨hSign, hMag⟩ := Double.parts (ha.trans Double.top_lt) neg
  obtain ⟨hSign', hMag'⟩ := Double.parts (hb.trans Double.top_lt) neg'
  unfold Double.mul Double.isNan Double.isInfinite
  rw [hSign, hSign', hMag, hMag', decide_eq_false ha.le.not_gt, decide_eq_false hb.le.not_gt, decide_eq_false ha.ne, decide_eq_false hb.ne]
  rfl

theorem encode_power (z b : Nat) : encode 1074 (2 ^ z * 2 ^ b) = scale ((z : Int) + b - 1074) := by
  unfold encode scale
  rw [← Nat.pow_add]
  rcases Nat.lt_or_ge (z + b) 1074 with hLow | hHigh
  · have hHalf := Binary.two_mul_pow_le hLow
    rw [if_pos (by omega), Binary.round, Binary.cut_of_lt (Nat.pow_lt_pow_right (by decide) (by omega)), Binary.roundShift_eq_zero hHalf, Nat.sub_self,
      Nat.zero_mul]
    exact Nat.zero_min _
  · rw [if_neg (by omega), show z + b = z + b - 1074 + 1074 by omega, Binary.round_power (by decide), show ((z : Int) + b - 1074).toNat = z + b - 1074 by omega]

theorem mul_power (hz : z < 2098) (hb : b < 2098) :
    Double.mul (ofParts false (power 52 z)) (ofParts false (power 52 b)) = ofParts false (scale ((z : Int) + b - 1074)) := by
  rw [mul_finite (power_lt_top hz) (power_lt_top hb), Binary.units_power, Binary.units_power, encode_power]
  rfl

theorem exponent_power {e : Nat} (hLow : 1 ≤ e) (hHigh : e < 2047) : (BitVec.ofNat 64 e) <<< 52 = ofParts false (power 52 (51 + e)) := by
  apply BitVec.eq_of_toNat_eq
  rw [BitVec.toNat_shiftLeft, BitVec.toNat_ofNat, Nat.mod_eq_of_lt (show e < 2 ^ 64 by omega), Nat.shiftLeft_eq, ofParts, BitVec.toNat_ofNat, power,
    if_neg (by omega), show 51 + e - 52 + 1 = e by omega, Bool.toNat_false, Nat.mul_zero, Nat.zero_add]

theorem mul_scale_top (hb : b < 2098) : Double.mul (ofParts false Double.top) (ofParts false (power 52 b)) = ofParts false Double.top := by
  obtain ⟨hSign, hMag⟩ := Double.parts Double.top_lt false
  obtain ⟨hSign', hMag'⟩ := Double.parts ((power_lt_top hb).trans Double.top_lt) false
  unfold Double.mul Double.isNan Double.isInfinite Double.isZero
  rw [hSign, hSign', hMag, hMag', decide_eq_false (power_lt_top hb).le.not_gt, decide_eq_false (Binary.power_pos 52 b).ne']
  rfl

theorem exp2Up_eq (hk : k ≤ fuel) (z : Nat) : exp2Up fuel k (ofParts false (scale z)) = ofParts false (scale (z + k : Nat)) := by
  induction fuel generalizing k z with
  | zero =>
    rw [Nat.le_zero.mp hk]
    rfl
  | succ fuel ih =>
    unfold exp2Up
    split
    · rename_i hZero
      rw [hZero, Nat.add_zero]
    · rename_i hSome
      have hStep : Double.mul (ofParts false (scale z)) (ofParts false (power 52 (1074 + min k 1000))) = ofParts false (scale (z + min k 1000 : Nat)) := by
        rcases Nat.lt_or_ge z 2098 with hNumber | hOver
        · rw [scale_of_lt hNumber, mul_power hNumber (by omega)]
          congr 2
          omega
        · rw [scale_of_le hOver, mul_scale_top (by omega), scale_of_le (by omega)]
      rw [exponent_power (by omega) (by omega), show 51 + (1023 + min k 1000) = 1074 + min k 1000 by omega, hStep, ih (by omega), Nat.add_assoc, Nat.add_sub_cancel' (Nat.min_le_left ..)]

theorem exp2Down_eq (hk : k ≤ fuel) (hn : n < 2098 ∨ k = 0) : exp2Down fuel k (ofParts false (scale n)) = ofParts false (scale (n - k)) := by
  induction fuel generalizing k n with
  | zero =>
    rw [Nat.le_zero.mp hk]
    exact congrArg (fun n => ofParts false (scale n)) (Int.sub_zero n).symm
  | succ fuel ih =>
    unfold exp2Down
    split
    · rename_i hZero
      rw [hZero]
      exact congrArg (fun n => ofParts false (scale n)) (Int.sub_zero n).symm
    · rename_i hSome
      have hStep : Double.mul (ofParts false (scale n)) (ofParts false (power 52 (1074 - min k 1000))) = ofParts false (scale (n - (min k 1000 : Nat))) := by
        rcases lt_or_ge n 0 with hNone | hNumber
        · have hZero : ∀ n : Int, n < 0 → scale n = 0 := fun n h => if_pos h
          rw [hZero n hNone, hZero _ (by omega), mul_finite (by decide) (power_lt_top (by omega)), Binary.units_of_lt (Nat.two_pow_pos _), Nat.zero_mul, Double.encode_zero]
          rfl
        · obtain ⟨z, rfl⟩ := Int.eq_ofNat_of_zero_le hNumber
          rw [scale_of_lt (by omega), mul_power (by omega) (by omega)]
          congr 2
          omega
      rw [exponent_power (by omega) (by omega), show 51 + (1023 - min k 1000) = 1074 - min k 1000 by omega, hStep, ih (by omega) (by omega)]
      congr 2
      omega

theorem exp2_eq (n : Int) : exp2 n = ofParts false (scale (n + 1074)) := by
  have hOne : (0x3FF0000000000000 : U64) = ofParts false (scale (1074 : Nat)) := by
    rw [scale_of_lt (by decide)]
    decide
  unfold exp2
  split
  · obtain ⟨z, rfl⟩ := Int.eq_ofNat_of_zero_le (show 0 ≤ n by omega)
    rw [show (z : Int) + 1074 = (z + 1074 : Nat) by omega, scale_of_le (by omega)]
  · split
    · have hNone : scale (n + 1074) = 0 := if_pos (by omega)
      rw [hNone]
      decide
    · rw [hOne, exp2Up_eq le_rfl, exp2Down_eq le_rfl (by omega)]
      congr 2
      omega

end Scale

/-! ## Fields -/

section Fields

variable {x : U64} {v : U128} {e : U32} {s : U64}

theorem double_exp (x : U64) : (((x >>> 52) &&& 0x7ff).setWidth 32 : U32).toNat = magnitude x / 2 ^ 52 := by
  have hMask : ((x >>> 52) &&& 0x7ff).toNat = (x.toNat >>> 52) % 2 ^ 11 := Nat.and_two_pow_sub_one_eq_mod (x.toNat >>> 52) 11
  rw [BitVec.toNat_setWidth, hMask, Nat.shiftRight_eq_div_pow, magnitude]
  omega

theorem double_frac (x : U64) : (x &&& 0x000fffffffffffff).toNat = magnitude x % 2 ^ 52 := by
  have hMask : (x &&& 0x000fffffffffffff).toNat = x.toNat % 2 ^ 52 := Nat.and_two_pow_sub_one_eq_mod x.toNat 52
  rw [hMask, magnitude]
  omega

theorem double_value (x : U64) : units 52 (magnitude x) =
    (magnitude x % 2 ^ 52 + if magnitude x / 2 ^ 52 = 0 then 0 else 2 ^ 52) * 2 ^ (magnitude x / 2 ^ 52 - 1) := Binary.units_eq ..

def extOf (x : U64) (e : U32) (s : U64) : U128 := (((x >>> 63) &&& 1).setWidth 128 <<< 79) ||| (e.setWidth 128 <<< 64) ||| s.setWidth 128

theorem toNat_extOf (x : U64) (he : e.toNat < 2 ^ 15) (s : U64) : (extOf x e s).toNat = 2 ^ 79 * x.msb.toNat + (2 ^ 64 * e.toNat + s.toNat) := by
  have hSign : (((x >>> 63) &&& 1).setWidth 128 : U128).toNat = x.msb.toNat := by
    have hMask : ((x >>> 63) &&& 1).toNat = (x.toNat >>> 63) % 2 ^ 1 := Nat.and_two_pow_sub_one_eq_mod _ 1
    have hLt := x.isLt
    rw [BitVec.toNat_setWidth, hMask, Nat.shiftRight_eq_div_pow, BitVec.msb_eq_decide]
    by_cases hTop : 2 ^ 63 ≤ x.toNat
    · rw [decide_eq_true hTop, Bool.toNat_true]
      omega
    · rw [decide_eq_false hTop, Bool.toNat_false]
      omega
  have hLow := s.isLt
  have hMsb := x.msb.toNat_le
  have hExp : ((e.setWidth 128 : U128) <<< 64 ||| s.setWidth 128).toNat = 2 ^ 64 * e.toNat + s.toNat := by
    rw [BitVec.toNat_or, BitVec.toNat_shiftLeft, BitVec.toNat_setWidth, BitVec.toNat_setWidth, Nat.shiftLeft_eq, Nat.mod_eq_of_lt (show e.toNat < 2 ^ 128 by omega),
      Nat.mod_eq_of_lt (show s.toNat < 2 ^ 128 by omega), Nat.mod_eq_of_lt (by omega), Nat.mul_comm, Nat.two_pow_add_eq_or_of_lt hLow]
  rw [extOf, BitVec.or_assoc, BitVec.toNat_or, hExp, BitVec.toNat_shiftLeft, hSign, Nat.shiftLeft_eq, Nat.mod_eq_of_lt (by omega), Nat.mul_comm _ (2 ^ 79)]
  exact (Nat.two_pow_add_eq_or_of_lt (by omega) _).symm

theorem extOf_fields (x : U64) (he : e.toNat < 2 ^ 15) (s : U64) :
    extSign (extOf x e s) = x.msb ∧ extExponent (extOf x e s) = e ∧ extSignificand (extOf x e s) = s := by
  have hNat := toNat_extOf x he s
  have hLow := s.isLt
  refine ⟨?_, BitVec.eq_of_toNat_eq ?_, BitVec.eq_of_toNat_eq ?_⟩
  · have hBit : (extOf x e s).getLsbD 79 = decide ((extOf x e s).toNat / 2 ^ 79 % 2 = 1) := by
      rw [BitVec.getLsbD, Nat.testBit_eq_decide_div_mod_eq]
    have hDiv : (extOf x e s).toNat / 2 ^ 79 = x.msb.toNat := by omega
    rw [extSign, carried _ (by decide), hBit, hDiv]
    cases x.msb <;> rfl
  · have hMask : ((extOf x e s >>> 64) &&& 0x7fff).toNat = ((extOf x e s).toNat >>> 64) % 2 ^ 15 := Nat.and_two_pow_sub_one_eq_mod _ 15
    rw [extExponent, BitVec.toNat_setWidth, hMask, hNat, Nat.shiftRight_eq_div_pow]
    omega
  · rw [extSignificand, BitVec.toNat_setWidth, hNat]
    omega

theorem f64ToExt_eq (x : U64) : f64ToExt x =
    (extFields (((x >>> 52) &&& 0x7ff).setWidth 32) (x &&& 0x000fffffffffffff)).map fun p => extOf x p.1 p.2 := by
  unfold f64ToExt
  dsimp only
  cases extFields (((x >>> 52) &&& 0x7ff).setWidth 32) (x &&& 0x000fffffffffffff) with
  | none => rfl
  | some p => rfl

/-- A normalised number, or zero, with the same sign and value. -/
structure Keeps (x : U64) (v : U128) : Prop where
  sign : extSign v = x.msb
  normalised : 2 ^ 63 ≤ (extSignificand v).toNat ∧ extExponent v ≠ 0 ∧ extExponent v ≠ 0x7fff ∨ extSignificand v = 0 ∧ extExponent v = 0
  value : (extSignificand v).toNat * 2 ^ ((extExponent v).toNat - 1) = units 52 (magnitude x) * 2 ^ 15371
  width : v.toNat < 2 ^ 80

def isSubnormal (x : U64) : Bool := 0 < magnitude x && magnitude x < 2 ^ 52

theorem double_fields (x : U64) : magnitude x = magnitude x / 2 ^ 52 * 2 ^ 52 + magnitude x % 2 ^ 52 ∧ magnitude x % 2 ^ 52 < 2 ^ 52 ∧ magnitude x / 2 ^ 52 < 2048 := by
  have hWide : magnitude x < 2 ^ 63 := Nat.mod_lt _ (by decide)
  omega

theorem f64ToExt_normal (hLow : magnitude x / 2 ^ 52 ≠ 0) (hHigh : magnitude x / 2 ^ 52 ≠ 2047) :
    ∃ e s, f64ToExt x = some (extOf x e s) ∧ e.toNat = magnitude x / 2 ^ 52 + 15360 ∧ s.toNat = (2 ^ 52 + magnitude x % 2 ^ 52) * 2 ^ 11 := by
  obtain ⟨-, hFracLt, hExpLt⟩ := double_fields x
  have hExp := double_exp x
  have hFrac := double_frac x
  have hLowBits : (((x >>> 52) &&& 0x7ff).setWidth 32 : U32) ≠ 0 := fun h => hLow (by rw [← hExp, h]; rfl)
  have hHighBits : (((x >>> 52) &&& 0x7ff).setWidth 32 : U32) ≠ 0x7ff := fun h => hHigh (by rw [← hExp, h]; rfl)
  refine ⟨((x >>> 52) &&& 0x7ff).setWidth 32 + (16383 - 1023), 0x8000000000000000 ||| ((x &&& 0x000fffffffffffff) <<< 11), ?_, ?_, ?_⟩
  · rw [f64ToExt_eq, extFields, if_neg hHighBits, if_neg hLowBits]
    rfl
  · rw [BitVec.toNat_add, hExp]
    exact Nat.mod_eq_of_lt (show magnitude x / 2 ^ 52 + 15360 < 2 ^ 32 by omega)
  · rw [BitVec.toNat_or, BitVec.toNat_shiftLeft, hFrac, Nat.shiftLeft_eq, Nat.mod_eq_of_lt (by omega)]
    have hOr := Nat.two_pow_add_eq_or_of_lt (show magnitude x % 2 ^ 52 * 2 ^ 11 < 2 ^ 63 by omega) 1
    rw [Nat.mul_one] at hOr
    refine hOr.symm.trans ?_
    omega

theorem f64ToExt_zero (hZero : magnitude x = 0) : f64ToExt x = some (extOf x 0 0) := by
  have hExp : (((x >>> 52) &&& 0x7ff).setWidth 32 : U32) = 0 := BitVec.eq_of_toNat_eq (by rw [double_exp, hZero]; rfl)
  have hFrac : x &&& 0x000fffffffffffff = 0 := BitVec.eq_of_toNat_eq (by rw [double_frac, hZero]; rfl)
  rw [f64ToExt_eq, hExp, hFrac]
  rfl

theorem f64ToExt_subnormal (hSub : isSubnormal x = true) (h : f64ToExt x = some v) :
    (extSignificand v).toNat * 2 ^ ((extExponent v).toNat - 1) < units 52 (magnitude x) * 2 ^ 15371 := by
  rw [isSubnormal, Bool.and_eq_true, decide_eq_true_iff, decide_eq_true_iff] at hSub
  have hExp : (((x >>> 52) &&& 0x7ff).setWidth 32 : U32) = 0 := BitVec.eq_of_toNat_eq (by rw [double_exp, Nat.div_eq_of_lt hSub.2]; rfl)
  have hFrac : (x &&& 0x000fffffffffffff).toNat = magnitude x := (double_frac x).trans (Nat.mod_eq_of_lt hSub.2)
  have hFracNe : x &&& 0x000fffffffffffff ≠ 0 := fun hZero => hSub.1.ne (by rw [← hFrac, hZero]; rfl)
  have hLog := Nat.log2_self_le hSub.1.ne'
  have hLogLt : (magnitude x).log2 < 52 := (Nat.log2_lt hSub.1.ne').mpr hSub.2
  have hLead : leadingZeros64 (x &&& 0x000fffffffffffff) - 11 = 52 - (magnitude x).log2 := by
    rw [leadingZeros64, if_neg hFracNe, hFrac]
    omega
  rw [f64ToExt_eq, hExp, extFields, if_neg (by decide), if_pos rfl, if_neg hFracNe, hLead] at h
  unfold hostShl at h
  dsimp only at h
  split at h
  · cases h
    have hField : (BitVec.ofInt 32 (1 - 1023 - ((52 - (magnitude x).log2 : Nat) : Int) - 1 + 16383)).toNat = 15308 + (magnitude x).log2 := by
      rw [show (1 - 1023 - ((52 - (magnitude x).log2 : Nat) : Int) - 1 + 16383) = ((15308 + (magnitude x).log2 : Nat) : Int) by omega, BitVec.ofInt_natCast, BitVec.toNat_ofNat]
      exact Nat.mod_eq_of_lt (by omega)
    obtain ⟨-, hExponent, hSignificand⟩ := extOf_fields x (show (BitVec.ofInt 32 (1 - 1023 - ((52 - (magnitude x).log2 : Nat) : Int) - 1 + 16383)).toNat < 2 ^ 15 by omega)
      (0x8000000000000000 ||| (x &&& 0x000fffffffffffff) <<< (11 + (52 - (magnitude x).log2) + 1))
    rw [hExponent, hSignificand, hField, Binary.units_of_lt (hSub.2.trans (by decide))]
    calc _ < 2 ^ 64 * 2 ^ (15308 + (magnitude x).log2 - 1) := Nat.mul_lt_mul_of_pos_right (BitVec.isLt _) (Nat.two_pow_pos _)
      _ = 2 ^ (magnitude x).log2 * 2 ^ 15371 := by
        rw [← Nat.pow_add, ← Nat.pow_add]
        congr 1
        omega
      _ ≤ magnitude x * 2 ^ 15371 := Nat.mul_le_mul_right _ hLog
  · cases h

theorem keeps_zero (hZero : magnitude x = 0) : Keeps x (extOf x 0 0) := by
  have hNat := toNat_extOf x (e := 0) (by decide) 0
  have hMsb := x.msb.toNat_le
  obtain ⟨hSign, hExponent, hSignificand⟩ := extOf_fields x (e := 0) (by decide) 0
  refine ⟨hSign, .inr ⟨hSignificand, hExponent⟩, ?_, ?_⟩
  · rw [hSignificand, hZero, Binary.units_of_lt (Nat.two_pow_pos _), Nat.zero_mul]
    exact Nat.zero_mul _
  · rw [hNat]
    change 2 ^ 79 * x.msb.toNat + (2 ^ 64 * 0 + 0) < 2 ^ 80
    omega

theorem keeps_normal (hLow : magnitude x / 2 ^ 52 ≠ 0) (hHigh : magnitude x / 2 ^ 52 ≠ 2047) (he : e.toNat = magnitude x / 2 ^ 52 + 15360)
    (hs : s.toNat = (2 ^ 52 + magnitude x % 2 ^ 52) * 2 ^ 11) : Keeps x (extOf x e s) := by
  obtain ⟨-, hFracLt, hExpLt⟩ := double_fields x
  have hRange : e.toNat < 2 ^ 15 := by omega
  have hNat := toNat_extOf x hRange s
  have hMsb := x.msb.toNat_le
  have hLt := s.isLt
  obtain ⟨hSign, hExponent, hSignificand⟩ := extOf_fields x hRange s
  refine ⟨hSign, .inl ⟨?_, ?_, ?_⟩, ?_, by omega⟩
  · rw [hSignificand, hs]
    omega
  · rw [hExponent]
    intro hZero
    rw [hZero] at he
    change 0 = _ at he
    omega
  · rw [hExponent]
    intro hTop
    rw [hTop] at he
    change 0x7fff = _ at he
    omega
  · rw [hExponent, hSignificand, he, hs, double_value, if_neg hLow, Nat.mul_assoc, ← Nat.pow_add, Nat.mul_assoc, ← Nat.pow_add, Nat.add_comm (2 ^ 52),
      show 11 + (magnitude x / 2 ^ 52 + 15360 - 1) = magnitude x / 2 ^ 52 - 1 + 15371 by omega]

theorem exact_back (hLow : magnitude x / 2 ^ 52 ≠ 0) (hHigh : magnitude x / 2 ^ 52 ≠ 2047) (he : e.toNat = magnitude x / 2 ^ 52 + 15360)
    (hs : s.toNat = (2 ^ 52 + magnitude x % 2 ^ 52) * 2 ^ 11) : extToF64Exact (extOf x e s) = x := by
  obtain ⟨hParts, hFracLt, hExpLt⟩ := double_fields x
  obtain ⟨hSign, hExponent, hSignificand⟩ := extOf_fields x (show e.toNat < 2 ^ 15 by omega) s
  have hValue : s.toNat * 2 ^ (e.toNat + 1074) = units 52 (magnitude x) * 2 ^ 16446 := by
    rw [he, hs, double_value, if_neg hLow, Nat.mul_assoc, ← Nat.pow_add, Nat.mul_assoc, ← Nat.pow_add, Nat.add_comm (2 ^ 52),
      show 11 + (magnitude x / 2 ^ 52 + 15360 + 1074) = magnitude x / 2 ^ 52 - 1 + 16446 by omega]
  have hFinite : magnitude x ≤ Double.top := by
    unfold Double.top
    omega
  rw [extToF64Exact, hSign, hExponent, hSignificand, hValue, Double.encode_units hFinite, Double.ofParts_self]

/-! ## The host's product -/

theorem toNat_mul_pow_le (s : U64) (k : Nat) : s.toNat * 2 ^ k ≤ 2 ^ (64 + k + 0) := by
  rw [Nat.add_zero, Nat.pow_add]
  exact Nat.mul_le_mul_right _ s.isLt.le

theorem encode_significand (s : U64) : encode 0 (s.toNat * 2 ^ 1074) < Double.top ∧ encode 0 (s.toNat * 2 ^ 1074) = Binary.round 52 0 (s.toNat * 2 ^ 1074) := by
  have hRound := Binary.round_le_power (p := 52) (by decide) (toNat_mul_pow_le s 1074)
  have hTop := hRound.trans_lt (power_lt_top (show 64 + 1074 < 2098 by decide))
  unfold encode
  rw [Nat.min_eq_left hTop.le]
  exact ⟨hTop, rfl⟩

theorem ofInt_significand (s : U64) : Double.ofInt (s.toNat : Int) = ofParts false (encode 0 (s.toNat * 2 ^ 1074)) := by
  unfold Double.ofInt
  rw [decide_eq_false (by omega), Int.natAbs_natCast]

theorem neg_ofParts {n : Nat} (hn : n < 2 ^ 63) (negative : Bool) : Double.neg (ofParts negative n) = ofParts (!negative) n := by
  obtain ⟨hSign, hMag⟩ := Double.parts hn negative
  rw [Double.neg, hSign, hMag]

theorem scale_lt_top {n : Int} (hn : n < 2098) : scale n < Double.top := by
  rcases lt_or_ge n 0 with hNone | hSome
  · rw [show scale n = 0 from if_pos hNone]
    decide
  · obtain ⟨z, rfl⟩ := Int.eq_ofNat_of_zero_le hSome
    rw [scale_of_lt (by omega)]
    exact power_lt_top (by omega)

def hostProduct (v : U128) : Nat :=
  encode 1074 (units 52 (encode 0 ((extSignificand v).toNat * 2 ^ 1074)) * units 52 (scale (((extExponent v).toNat : Int) - 15372)))

theorem extToF64_product (hTop : extExponent v ≠ 0x7fff) (hSome : ¬(extExponent v = 0 ∧ extSignificand v = 0)) (hRange : (extExponent v).toNat < 17470) :
    extToF64 v = ofParts (extSign v) (hostProduct v) := by
  have hScale : (((extExponent v).toNat : Int) - 16383 - 63) + 1074 = ((extExponent v).toNat : Int) - 15372 := by omega
  have hProduct := mul_finite (encode_significand (extSignificand v)).1 (scale_lt_top (show ((extExponent v).toNat : Int) - 15372 < 2098 by omega)) false false
  have hWide : hostProduct v < 2 ^ 63 := (Double.encode_le ..).trans_lt Double.top_lt
  unfold extToF64
  dsimp only
  rw [if_neg hTop, if_neg hSome, exp2_eq, hScale, ofInt_significand, hProduct]
  cases extSign v with
  | false => rfl
  | true => exact neg_ofParts hWide false

theorem host_back_iff (hLow : magnitude x / 2 ^ 52 ≠ 0) (hHigh : magnitude x / 2 ^ 52 ≠ 2047) (he : e.toNat = magnitude x / 2 ^ 52 + 15360)
    (hs : s.toNat = (2 ^ 52 + magnitude x % 2 ^ 52) * 2 ^ 11) : extToF64 (extOf x e s) = x ↔ 12 ≤ magnitude x / 2 ^ 52 := by
  obtain ⟨hParts, hFracLt, hExpLt⟩ := double_fields x
  obtain ⟨hSign, hExponent, hSignificand⟩ := extOf_fields x (show e.toNat < 2 ^ 15 by omega) s
  have hTop : extExponent (extOf x e s) ≠ 0x7fff := fun h => by
    rw [hExponent] at h
    rw [h] at he
    change 0x7fff = _ at he
    omega
  have hSome : ¬(extExponent (extOf x e s) = 0 ∧ extSignificand (extOf x e s) = 0) := fun h => by
    rw [hExponent] at h
    rw [h.1] at he
    change 0 = _ at he
    omega
  have hSignificandValue : units 52 (encode 0 (s.toNat * 2 ^ 1074)) = s.toNat * 2 ^ 1074 := by
    rw [(encode_significand s).2, hs]
    exact Binary.units_round_shifted (p := 52) (by omega) 11 1074
  have hMagnitude : hostProduct (extOf x e s) = if 12 ≤ magnitude x / 2 ^ 52 then magnitude x else 0 := by
    rw [hostProduct, hExponent, hSignificand, hSignificandValue, he]
    split
    · rename_i hEnough
      have hValue : s.toNat * 2 ^ 1074 * 2 ^ (magnitude x / 2 ^ 52 - 12) = units 52 (magnitude x) * 2 ^ 1074 := by
        rw [hs, double_value, if_neg hLow, Nat.mul_right_comm, Nat.mul_assoc (2 ^ 52 + magnitude x % 2 ^ 52), ← Nat.pow_add, Nat.add_comm (2 ^ 52),
          show 11 + (magnitude x / 2 ^ 52 - 12) = magnitude x / 2 ^ 52 - 1 by omega]
      rw [show ((magnitude x / 2 ^ 52 + 15360 : Nat) : Int) - 15372 = ((magnitude x / 2 ^ 52 - 12 : Nat) : Int) by omega, scale_of_lt (by omega), Binary.units_power, hValue,
        Double.encode_units (by unfold Double.top; omega)]
    · rename_i hFew
      rw [show scale (((magnitude x / 2 ^ 52 + 15360 : Nat) : Int) - 15372) = 0 from if_pos (by omega), Binary.units_of_lt (Nat.two_pow_pos _), Nat.mul_zero,
        Double.encode_zero]
  rw [extToF64_product hTop hSome (by rw [hExponent]; omega), hSign, hMagnitude]
  split
  · rename_i hEnough
    exact iff_of_true (Double.ofParts_self x) hEnough
  · rename_i hFew
    refine iff_of_false (fun h => ?_) hFew
    have hZero := congrArg magnitude h
    rw [(Double.parts (by decide) x.msb).2] at hZero
    rw [← hZero] at hLow
    exact hLow rfl

theorem zero_back (hZero : magnitude x = 0) : extToF64Exact (extOf x 0 0) = x ∧ extToF64 (extOf x 0 0) = x := by
  obtain ⟨hSign, hExponent, hSignificand⟩ := extOf_fields x (e := 0) (by decide) 0
  have hSelf := Double.ofParts_self x
  rw [hZero] at hSelf
  constructor
  · rw [extToF64Exact, hSign, hSignificand]
    change ofParts x.msb (encode 16446 (0 * _)) = x
    rw [Nat.zero_mul, Double.encode_zero, hSelf]
  · unfold extToF64
    dsimp only
    rw [hExponent, hSignificand, if_neg (by decide), if_pos ⟨rfl, rfl⟩, hSign]
    refine Eq.trans ?_ hSelf
    cases x.msb <;> decide

theorem f64ToExt_back (h : magnitude x = 0 ∨ 12 ≤ magnitude x / 2 ^ 52 ∧ magnitude x / 2 ^ 52 < 2047) :
    ∃ v, f64ToExt x = some v ∧ v.toNat < 2 ^ 80 ∧ extToF64 v = x := by
  rcases h with hZero | ⟨hLow, hHigh⟩
  · exact ⟨_, f64ToExt_zero hZero, (keeps_zero hZero).width, (zero_back hZero).2⟩
  · obtain ⟨e, s, hRun, he, hs⟩ := f64ToExt_normal (x := x) (by omega) (by omega)
    exact ⟨_, hRun, (keeps_normal (by omega) (by omega) he hs).width, (host_back_iff (by omega) (by omega) he hs).mpr hLow⟩

end Fields

/-- A finite double keeps its value as an extended number, and comes back, unless it is subnormal; through the host's product, unless it is
one of the least. -/
theorem f64ToExt_iff (x : U64) (hFinite : Double.isFinite x = true) :
    ((∃ v, f64ToExt x = some v ∧ Keeps x v ∧ extToF64Exact v = x) ↔ isSubnormal x = false) ∧
    ((∃ v, f64ToExt x = some v ∧ Keeps x v ∧ extToF64 v = x) ↔ magnitude x = 0 ∨ 12 ≤ magnitude x / 2 ^ 52) := by
  obtain ⟨hParts, hFracLt, hExpLt⟩ := double_fields x
  have hSubnormal : isSubnormal x = true → ¬∃ v, f64ToExt x = some v ∧ Keeps x v := by
    rintro hSub ⟨v, hv, hKeeps⟩
    exact (f64ToExt_subnormal hSub hv).ne hKeeps.value
  have hSub : isSubnormal x = true ↔ 0 < magnitude x ∧ magnitude x < 2 ^ 52 := by
    rw [isSubnormal, Bool.and_eq_true, decide_eq_true_iff, decide_eq_true_iff]
  have hTop : magnitude x < Double.top := of_decide_eq_true hFinite
  have hHigh : magnitude x / 2 ^ 52 ≠ 2047 := by
    unfold Double.top at hTop
    omega
  rcases Nat.eq_zero_or_pos (magnitude x) with hZero | hPos
  · have hNot : isSubnormal x = false := by rw [← Bool.not_eq_true, hSub, hZero]; exact fun h => absurd h.1 (Nat.lt_irrefl 0)
    obtain ⟨hExact, hHost⟩ := zero_back hZero
    exact ⟨iff_of_true ⟨_, f64ToExt_zero hZero, keeps_zero hZero, hExact⟩ hNot, iff_of_true ⟨_, f64ToExt_zero hZero, keeps_zero hZero, hHost⟩ (.inl hZero)⟩
  · rcases Nat.lt_or_ge (magnitude x) (2 ^ 52) with hLow | hNormal
    · have hYes := hSub.mpr ⟨hPos, hLow⟩
      refine ⟨iff_of_false ?_ (by rw [hYes]; decide), iff_of_false ?_ (by omega)⟩
      · rintro ⟨v, hv, hKeeps, -⟩
        exact hSubnormal hYes ⟨v, hv, hKeeps⟩
      · rintro ⟨v, hv, hKeeps, -⟩
        exact hSubnormal hYes ⟨v, hv, hKeeps⟩
    · have hLow : magnitude x / 2 ^ 52 ≠ 0 := by omega
      have hNot : isSubnormal x = false := by
        rw [← Bool.not_eq_true, hSub]
        omega
      obtain ⟨e, s, hRun, he, hs⟩ := f64ToExt_normal hLow hHigh
      have hKeeps := keeps_normal hLow hHigh he hs
      have hHost := host_back_iff hLow hHigh he hs
      refine ⟨iff_of_true ⟨_, hRun, hKeeps, exact_back hLow hHigh he hs⟩ hNot, ?_⟩
      constructor
      · rintro ⟨v, hv, -, hBack⟩
        cases hRun.symm.trans hv
        exact .inr (hHost.mp hBack)
      · rintro (hZero | hEnough)
        · exact absurd hZero hPos.ne'
        · exact ⟨_, hRun, hKeeps, hHost.mpr hEnough⟩

/-- `1.5`. -/
theorem f64ToExt_iff_of_number : (∃ v, f64ToExt 0x3FF8000000000000 = some v ∧ Keeps 0x3FF8000000000000 v ∧ extToF64Exact v = 0x3FF8000000000000) ∧
    ∃ v, f64ToExt 0x3FF8000000000000 = some v ∧ Keeps 0x3FF8000000000000 v ∧ extToF64 v = 0x3FF8000000000000 :=
  have hBoth := f64ToExt_iff 0x3FF8000000000000 (by decide)
  ⟨hBoth.1.mpr (by decide), hBoth.2.mpr (.inr (by decide))⟩

/-- The least double asks for a shift by 64, and twice that loses half of its value. -/
theorem f64ToExt_of_least : f64ToExt 1 = none ∧ ¬∃ v, f64ToExt 2 = some v ∧ Keeps 2 v := by
  refine ⟨by decide, ?_⟩
  rintro ⟨v, hv, hKeeps⟩
  exact (f64ToExt_subnormal (by decide) hv).ne hKeeps.value

end Exemu.Interp
