import Exemu.Library.Binary
import Exemu.Cpu.Alu

/-! # Half precision

The conversions between half and single precision work on the bits.
-/
namespace Exemu.Interp

open BitVec Nat

open Binary (units IsNearest roundShift)

def f16Normalise : Nat → U32 → Int → Option (U32 × Int)
  | 0, _, _ => none
  | fuel + 1, m, e => if m &&& 0x400 = 0 then f16Normalise fuel (m <<< 1) (e - 1) else some (m, e)

def f16ToF32 (h : U16) : Option U32 :=
  let sign := (h.setWidth 32 &&& 0x8000 : U32) <<< 16
  let exp := (h >>> 10) &&& 0x1F
  let mant := (h &&& 0x3FF).setWidth 32
  if exp = 0 then
    if mant = 0 then some sign
    else do
      let (m, e) ← f16Normalise 32 mant (-1)
      return sign ||| ((BitVec.ofInt 32 (127 - 15 + 1 + e)) <<< 23) ||| ((m &&& 0x3FF) <<< 13)
  else if exp = 0x1F then some (sign ||| 0x7F800000 ||| (mant <<< 13))
  else some (sign ||| ((exp.setWidth 32 - 15 + 127) <<< 23) ||| (mant <<< 13))

def f32ToF16 (bits : U32) : U16 :=
  let sign : U16 := ((bits >>> 16) &&& 0x8000).setWidth 16
  let exp : Int := ((bits >>> 23) &&& 0xFF).toNat
  let mant := bits &&& 0x007FFFFF
  if exp = 0xFF then
    if mant ≠ 0 then sign ||| 0x7E00 else sign ||| 0x7C00
  else
    let e := exp - 127 + 15
    if 0x1F ≤ e then sign ||| 0x7C00
    else if e ≤ 0 then
      if e < -10 then sign
      else
        let m := mant ||| 0x00800000
        let shift := (14 - e).toNat
        let halfShifted := m >>> shift
        let remainder := m &&& ((1 : U32) <<< shift - 1)
        let halfway : U32 := 1 <<< (shift - 1)
        let r : U16 := halfShifted.setWidth 16
        sign ||| if halfway < remainder ∨ (remainder = halfway ∧ halfShifted &&& 1 ≠ 0) then r + 1 else r
    else
      let halfExp := BitVec.ofInt 16 e
      let roundBits := mant &&& 0x1FFF
      let halfMant : U16 := (mant >>> 13).setWidth 16
      let halfway : U32 := 0x1000
      if halfway < roundBits ∨ (roundBits = halfway ∧ halfMant &&& 1 ≠ 0) then
        if halfMant + 1 = 0x400 then
          if 0x1F ≤ halfExp + 1 then sign ||| 0x7C00 else sign ||| ((halfExp + 1) <<< 10) ||| 0
        else sign ||| (halfExp <<< 10) ||| (halfMant + 1)
      else sign ||| (halfExp <<< 10) ||| halfMant

/-! ## What they are to give -/

def halfMagnitude (h : U16) : Nat := h.toNat % 2 ^ 15

def singleMagnitude (x : U32) : Nat := x.toNat % 2 ^ 31

def halfTop : Nat := 0x7C00

def singleTop : Nat := 0x7F800000

/-- The value of the one that is rounded, in units of the least single. From halfway between the largest half and the next power of two
on, it is an infinity. -/
structure Rounds (x : U32) (h : U16) : Prop where
  sign : h.msb = x.msb
  number : singleMagnitude x < singleTop →
    if 2 * units 23 (singleMagnitude x) < (units 10 (halfTop - 1) + units 10 halfTop) * 2 ^ 125 then
      halfMagnitude h < halfTop ∧ IsNearest 10 125 (units 23 (singleMagnitude x)) (halfMagnitude h)
    else halfMagnitude h = halfTop
  infinity : singleMagnitude x = singleTop → halfMagnitude h = halfTop
  nan : singleTop < singleMagnitude x → halfTop < halfMagnitude h

/-- The same value: a half's least unit is `2 ^ 125` of those of a single. -/
structure Widens (h : U16) (x : U32) : Prop where
  sign : x.msb = h.msb
  number : halfMagnitude h < halfTop → singleMagnitude x < singleTop ∧ units 23 (singleMagnitude x) = units 10 (halfMagnitude h) * 2 ^ 125
  infinity : halfMagnitude h = halfTop → singleMagnitude x = singleTop
  nan : halfTop < halfMagnitude h → singleTop < singleMagnitude x

def isSubnormalHalf (h : U16) : Bool := 0 < halfMagnitude h && halfMagnitude h < 0x400

/-! ## Fields -/

section Fields

variable {x : U32} {h : U16}

def signOf (x : U32) : U16 := ((x >>> 16) &&& 0x8000).setWidth 16

theorem single_exp (x : U32) : ((x >>> 23) &&& 0xFF).toNat = singleMagnitude x / 2 ^ 23 := by
  have hMask := Nat.and_two_pow_sub_one_eq_mod (x.toNat >>> 23) 8
  refine hMask.trans ?_
  rw [shiftRight_eq_div_pow, singleMagnitude]
  omega

theorem single_mant (x : U32) : (x &&& 0x007FFFFF).toNat = singleMagnitude x % 2 ^ 23 := by
  have hMask := Nat.and_two_pow_sub_one_eq_mod x.toNat 23
  refine hMask.trans ?_
  rw [singleMagnitude]
  omega

theorem toNat_signOf (x : U32) : (signOf x).toNat = 2 ^ 15 * x.msb.toNat := by
  have hBit : (x >>> 16).getLsbD 15 = x.msb := by
    rw [getLsbD_ushiftRight, msb_eq_getLsbD_last]
  rw [signOf, show (0x8000 : U32) = BitVec.twoPow 32 15 by decide, and_twoPow, hBit]
  cases x.msb <;> rfl

theorem signOf_or {r : U16} (hr : r.toNat < 2 ^ 15) : (signOf x ||| r).msb = x.msb ∧ halfMagnitude (signOf x ||| r) = r.toNat := by
  have hSum : (signOf x ||| r).toNat = 2 ^ 15 * x.msb.toNat + r.toNat := by
    rw [BitVec.toNat_or, toNat_signOf, Nat.two_pow_add_eq_or_of_lt hr]
  constructor
  · rw [msb_eq_decide, hSum]
    cases x.msb
    · exact decide_eq_false (by simp; omega)
    · exact decide_eq_true (by simp)
  · rw [halfMagnitude, hSum, mul_add_mod, Nat.mod_eq_of_lt hr]

theorem toNat_one_shl {s : Nat} (hs : s < 32) : ((1 : U32) <<< s).toNat = 2 ^ s := by
  rw [show (1 : U32) <<< s = BitVec.twoPow 32 s from (twoPow_eq 32 s).symm, toNat_twoPow]
  exact Nat.mod_eq_of_lt (Nat.pow_lt_pow_right (by decide) hs)

theorem toNat_and_below (m : U32) {s : Nat} (hs : s < 32) : (m &&& ((1 : U32) <<< s - 1)).toNat = m.toNat % 2 ^ s := by
  have hPow : 2 ^ s < 2 ^ 32 := Nat.pow_lt_pow_right (by decide) hs
  have hOne : ((1 : U32) <<< s).toNat = 2 ^ s := toNat_one_shl hs
  have hPos : 0 < 2 ^ s := Nat.two_pow_pos s
  have hMask : ((1 : U32) <<< s - 1).toNat = 2 ^ s - 1 := by
    rw [toNat_sub_of_le (by rw [le_def, hOne]; exact hPos), hOne]
    rfl
  rw [BitVec.toNat_and, hMask, Nat.and_two_pow_sub_one_eq_mod]

theorem odd_iff {w : Nat} (v : BitVec w) (hw : 1 < w) : v &&& 1 ≠ 0 ↔ v.toNat % 2 = 1 := by
  have hOne : (v &&& 1).toNat = v.toNat % 2 := by
    rw [BitVec.toNat_and, show (1 : BitVec w).toNat = 2 ^ 1 - 1 by simp [Nat.mod_eq_of_lt (Nat.one_lt_two_pow (by omega : w ≠ 0))], Nat.and_two_pow_sub_one_eq_mod]
  rw [ne_eq, ← BitVec.toNat_inj, hOne]
  simp

theorem subnormal_rounded {m : U32} (hm : m.toNat < 2 ^ 24) {s : Nat} (hLow : 14 ≤ s + 1) (hHigh : s + 1 ≤ 24) :
    ((if (1 : U32) <<< s < m &&& ((1 : U32) <<< (s + 1) - 1) ∨ (m &&& ((1 : U32) <<< (s + 1) - 1) = (1 : U32) <<< s ∧ m >>> (s + 1) &&& 1 ≠ 0)
      then (m >>> (s + 1)).setWidth 16 + 1 else (m >>> (s + 1)).setWidth 16 : U16)).toNat = roundShift m.toNat (s + 1) := by
  have hOne : ((1 : U32) <<< s).toNat = 2 ^ s := toNat_one_shl (by omega)
  have hShifted : (m >>> (s + 1)).toNat = m.toNat / 2 ^ (s + 1) := by rw [toNat_ushiftRight, shiftRight_eq_div_pow]
  have hSmall : m.toNat / 2 ^ (s + 1) < 2 ^ 10 := (Nat.div_lt_iff_lt_mul (Nat.two_pow_pos _)).mpr <|
    hm.trans_le (by rw [← Nat.pow_add]; exact Nat.pow_le_pow_right (by decide) (by omega))
  have hNarrow : ((m >>> (s + 1)).setWidth 16 : U16).toNat = m.toNat / 2 ^ (s + 1) := by
    rw [toNat_setWidth, hShifted, Nat.mod_eq_of_lt (by omega)]
  have hRest := toNat_and_below m (show s + 1 < 32 by omega)
  rw [Binary.roundShift_succ]
  have hUp : ((1 : U32) <<< s < m &&& ((1 : U32) <<< (s + 1) - 1) ∨ (m &&& ((1 : U32) <<< (s + 1) - 1) = (1 : U32) <<< s ∧ m >>> (s + 1) &&& 1 ≠ 0)) ↔
      (2 ^ s < m.toNat % 2 ^ (s + 1) ∨ (m.toNat % 2 ^ (s + 1) = 2 ^ s ∧ m.toNat / 2 ^ (s + 1) % 2 = 1)) := by
    rw [lt_def, hOne, hRest, ← BitVec.toNat_inj, hRest, hOne, odd_iff _ (by decide), hShifted]
  by_cases hCond : (2 ^ s < m.toNat % 2 ^ (s + 1) ∨ (m.toNat % 2 ^ (s + 1) = 2 ^ s ∧ m.toNat / 2 ^ (s + 1) % 2 = 1))
  · rw [if_pos (hUp.mpr hCond), if_pos hCond, toNat_add, hNarrow]
    exact Nat.mod_eq_of_lt (show m.toNat / 2 ^ (s + 1) + 1 < 2 ^ 16 by omega)
  · rw [if_neg (hCond ∘ hUp.mp), if_neg hCond, hNarrow]
    rfl

variable {e : Nat}

theorem normal_rounded {mant : U32} (hMant : mant.toNat < 2 ^ 23) (hLow : 1 ≤ e) (hHigh : e ≤ 30) (x : U32) :
    ∃ r : U16, (if (0x1000 : U32) < mant &&& 0x1FFF ∨ (mant &&& 0x1FFF = 0x1000 ∧ ((mant >>> 13).setWidth 16 : U16) &&& 1 ≠ 0) then
        if ((mant >>> 13).setWidth 16 : U16) + 1 = 0x400 then
          if 0x1F ≤ BitVec.ofInt 16 (e : Int) + 1 then signOf x ||| 0x7C00 else signOf x ||| ((BitVec.ofInt 16 (e : Int) + 1) <<< 10) ||| 0
        else signOf x ||| (BitVec.ofInt 16 (e : Int) <<< 10) ||| ((mant >>> 13).setWidth 16 + 1)
      else signOf x ||| (BitVec.ofInt 16 (e : Int) <<< 10) ||| (mant >>> 13).setWidth 16) = signOf x ||| r ∧
      r.toNat = e * 2 ^ 10 + roundShift mant.toNat 13 := by
  have hExp : (BitVec.ofInt 16 (e : Int)).toNat = e := by
    rw [ofInt_natCast, toNat_ofNat, Nat.mod_eq_of_lt (by omega)]
  have hNarrow : ((mant >>> 13).setWidth 16 : U16).toNat = mant.toNat / 2 ^ 13 := by
    rw [toNat_setWidth, toNat_ushiftRight, shiftRight_eq_div_pow, Nat.mod_eq_of_lt (by omega)]
  have hRest : (mant &&& 0x1FFF).toNat = mant.toNat % 2 ^ 13 := Nat.and_two_pow_sub_one_eq_mod mant.toNat 13
  have hUp : ((0x1000 : U32) < mant &&& 0x1FFF ∨ (mant &&& 0x1FFF = 0x1000 ∧ ((mant >>> 13).setWidth 16 : U16) &&& 1 ≠ 0)) ↔
      (2 ^ 12 < mant.toNat % 2 ^ 13 ∨ (mant.toNat % 2 ^ 13 = 2 ^ 12 ∧ mant.toNat / 2 ^ 13 % 2 = 1)) := by
    rw [lt_def, hRest, ← BitVec.toNat_inj, hRest, odd_iff _ (by decide), hNarrow]
    rfl
  have hField : ∀ (a b : U16), a.toNat < 32 → b.toNat < 2 ^ 10 → (a <<< 10 ||| b).toNat = a.toNat * 2 ^ 10 + b.toNat := by
    intro a b ha hb
    rw [BitVec.toNat_or, BitVec.toNat_shiftLeft, Nat.shiftLeft_eq, Nat.mod_eq_of_lt (by omega), Nat.mul_comm, Nat.two_pow_add_eq_or_of_lt hb]
  rw [Binary.roundShift_succ]
  by_cases hCond : (2 ^ 12 < mant.toNat % 2 ^ 13 ∨ (mant.toNat % 2 ^ 13 = 2 ^ 12 ∧ mant.toNat / 2 ^ 13 % 2 = 1))
  · have hNext : ((mant >>> 13).setWidth 16 + 1 : U16).toNat = mant.toNat / 2 ^ 13 + 1 := by
      rw [toNat_add, hNarrow]
      exact Nat.mod_eq_of_lt (show mant.toNat / 2 ^ 13 + 1 < 2 ^ 16 by omega)
    have hExpNext : (BitVec.ofInt 16 (e : Int) + 1 : U16).toNat = e + 1 := by
      rw [toNat_add, hExp]
      exact Nat.mod_eq_of_lt (show e + 1 < 2 ^ 16 by omega)
    rw [if_pos (hUp.mpr hCond), if_pos hCond]
    split
    · rename_i hCarry
      have hFull : mant.toNat / 2 ^ 13 + 1 = 0x400 := hNext.symm.trans (congrArg BitVec.toNat hCarry)
      split
      · rename_i hTop
        rw [le_def, hExpNext] at hTop
        refine ⟨0x7C00, rfl, ?_⟩
        have hLast : e = 30 := le_antisymm hHigh (le_of_succ_le_succ hTop)
        rw [hFull, hLast]
        rfl
      · rename_i hTop
        rw [le_def, hExpNext] at hTop
        have hRoom : e + 1 < 31 := Nat.not_le.mp hTop
        refine ⟨_, BitVec.or_assoc .., ?_⟩
        rw [hField _ _ (by omega) (by decide), hExpNext, hFull]
        change (e + 1) * 2 ^ 10 + 0 = e * 2 ^ 10 + 0x400
        omega
    · rename_i hCarry
      have hRoom : mant.toNat / 2 ^ 13 + 1 ≠ 0x400 := fun h => hCarry (eq_of_toNat_eq (hNext.trans h))
      refine ⟨_, BitVec.or_assoc .., ?_⟩
      rw [hField _ _ (by omega) (by omega), hExp, hNext]
  · rw [if_neg (hCond ∘ hUp.mp), if_neg hCond]
    refine ⟨_, BitVec.or_assoc .., ?_⟩
    rw [hField _ _ (by omega) (by omega), hExp, hNarrow]
    rfl

theorem single_value (x : U32) : units 23 (singleMagnitude x) =
    (singleMagnitude x % 2 ^ 23 + if singleMagnitude x / 2 ^ 23 = 0 then 0 else 2 ^ 23) * 2 ^ (singleMagnitude x / 2 ^ 23 - 1) := Binary.units_eq ..

theorem round_tiny {f : Nat} (hf : f < 2 ^ 23) (he : e < 102) : Binary.round 10 125 ((f + if e = 0 then 0 else 2 ^ 23) * 2 ^ (e - 1)) = 0 := by
  have hSmall : (f + if e = 0 then 0 else 2 ^ 23) * 2 ^ (e - 1) < 2 ^ 124 := by
    have hPow : 2 ^ (e - 1) ≤ 2 ^ 100 := Nat.pow_le_pow_right (by decide) (by omega)
    have hSum : (f + if e = 0 then 0 else 2 ^ 23) < 2 ^ 24 := by split <;> omega
    have hLess := Nat.mul_lt_mul_of_lt_of_le hSum hPow (Nat.two_pow_pos _)
    rwa [← Nat.pow_add] at hLess
  rw [Binary.round, Binary.cut_of_lt (hSmall.trans (Nat.pow_lt_pow_right (by decide) (by decide))), Binary.roundShift_eq_zero (by omega), Nat.sub_self,
    Nat.zero_mul]

theorem round_subnormal {f : Nat} (hf : f < 2 ^ 23) (hLow : 102 ≤ e) (hHigh : e ≤ 112) :
    Binary.round 10 125 ((f + 2 ^ 23) * 2 ^ (e - 1)) = roundShift (f + 2 ^ 23) (126 - e) := by
  have hSmall : (f + 2 ^ 23) * 2 ^ (e - 1) < 2 ^ (125 + 10 + 1) := by
    have hPow : 2 ^ (e - 1) ≤ 2 ^ 111 := Nat.pow_le_pow_right (by decide) (by omega)
    have hLess := Nat.mul_lt_mul_of_lt_of_le (show f + 2 ^ 23 < 2 ^ 24 by omega) hPow (Nat.two_pow_pos _)
    omega
  have hMul := Binary.roundShift_mul (f + 2 ^ 23) (126 - e) (e - 1)
  rw [show 126 - e + (e - 1) = 125 by omega] at hMul
  rw [Binary.round, Binary.cut_of_lt hSmall, hMul, Nat.sub_self, Nat.zero_mul, Nat.add_zero]

theorem round_normal {f : Nat} (hf : f < 2 ^ 23) (hLow : 113 ≤ e) :
    Binary.round 10 125 ((f + 2 ^ 23) * 2 ^ (e - 1)) = (e - 112) * 2 ^ 10 + roundShift f 13 := by
  have hCut : Binary.cut 10 125 ((f + 2 ^ 23) * 2 ^ (e - 1)) = 13 + (e - 1) := by
    have hHere := Binary.cut_eq (p := 10) (k := 125) (s := 13 + (e - 1)) (v := (f + 2 ^ 23) * 2 ^ (e - 1))
      (by rw [show 10 + (13 + (e - 1)) = 23 + (e - 1) by omega, Nat.pow_add]; exact mul_le_mul_right _ (by omega))
      (by rw [show 10 + (13 + (e - 1)) + 1 = 24 + (e - 1) by omega, Nat.pow_add]; exact Nat.mul_lt_mul_of_pos_right (by omega) (Nat.two_pow_pos _))
    omega
  have hSplit := Binary.roundShift_add f 13 (show 2 ^ 10 % 2 = 0 by decide)
  rw [← Nat.pow_add] at hSplit
  rw [Binary.round, hCut, Binary.roundShift_mul, Nat.add_comm f, hSplit]
  omega

theorem f32ToF16_number (x : U32) (hExp : singleMagnitude x / 2 ^ 23 < 255) :
    ∃ r : U16, f32ToF16 x = signOf x ||| r ∧ r.toNat = min (Binary.round 10 125 (units 23 (singleMagnitude x))) halfTop := by
  have hMant := single_mant x
  have hMantLt : singleMagnitude x % 2 ^ 23 < 2 ^ 23 := mod_lt _ (by decide)
  rw [single_value]
  unfold f32ToF16
  rw [single_exp]
  generalize singleMagnitude x / 2 ^ 23 = e at hExp ⊢
  generalize singleMagnitude x % 2 ^ 23 = f at hMant hMantLt ⊢
  generalize x &&& 0x007FFFFF = mant at hMant ⊢
  dsimp only
  have hValue : e ≠ 0 → (f + if e = 0 then 0 else 2 ^ 23) = f + 2 ^ 23 := fun h => by rw [if_neg h]
  rw [if_neg (by omega)]
  rcases lt_or_ge e 143 with hFinite | hLarge
  · rcases lt_or_ge e 113 with hSub | hNormal
    · rw [if_neg (by omega), if_pos (by omega)]
      rcases lt_or_ge e 102 with hTiny | hSome
      · rw [if_pos (by omega), round_tiny hMantLt hTiny]
        exact ⟨0, (BitVec.or_zero ..).symm, rfl⟩
      · have hOr : (mant ||| 0x00800000).toNat = f + 2 ^ 23 := by
          rw [BitVec.toNat_or, hMant, Nat.or_comm, Nat.add_comm]
          exact (Nat.two_pow_add_eq_or_of_lt hMantLt 1).symm
        have hShift : (14 - ((e : Int) - 127 + 15)).toNat = 125 - e + 1 := by omega
        rw [hValue (by omega), if_neg (by omega), round_subnormal hMantLt hSome (by omega), hShift]
        refine ⟨_, rfl, (subnormal_rounded (by rw [hOr]; omega) (by omega) (by omega)).trans ?_⟩
        have hLe := Binary.roundShift_le (v := f + 2 ^ 23) (s := 126 - e) (e := 10) (by
          exact (show f + 2 ^ 23 < 2 ^ 24 by omega).trans_le (Nat.pow_le_pow_right (by decide) (by omega)))
        rw [hOr, Nat.min_eq_left (by unfold halfTop; omega)]
        congr 1
        omega
    · have hInt : (e : Int) - 127 + 15 = ((e - 112 : Nat) : Int) := by omega
      obtain ⟨r, hr, hBits⟩ := normal_rounded (hMant ▸ hMantLt) (show 1 ≤ e - 112 by omega) (by omega) x
      rw [hValue (by omega), if_neg (by omega), if_neg (by omega), hInt, round_normal hMantLt hNormal]
      refine ⟨r, hr, hBits.trans ?_⟩
      have hLe := Binary.roundShift_le (v := f) (s := 13) (e := 10) hMantLt
      rw [hMant, Nat.min_eq_left (by unfold halfTop; omega)]
  · rw [hValue (by omega), if_pos (by omega), round_normal hMantLt (by omega)]
    refine ⟨0x7C00, rfl, ?_⟩
    rw [min_eq_right (by unfold halfTop; omega)]
    rfl

theorem f32ToF16_rounds (x : U32) : Rounds x (f32ToF16 x) := by
  have hExp := single_exp x
  have hMant := single_mant x
  rcases lt_or_ge (singleMagnitude x / 2 ^ 23) 255 with hNumber | hLast
  · obtain ⟨r, hr, hBits⟩ := f32ToF16_number x hNumber
    have hBelow : singleMagnitude x < singleTop := (Nat.div_lt_iff_lt_mul (by decide)).mp hNumber
    have hTop : r.toNat < 2 ^ 15 := hBits.trans_lt ((min_le_right ..).trans_lt (by decide))
    obtain ⟨hSign, hMagnitude⟩ := signOf_or (x := x) hTop
    rw [← hr] at hSign hMagnitude
    have hOver := Binary.le_round_iff (p := 10) (n := halfTop) (by decide) 125 (units 23 (singleMagnitude x)) (by decide)
    refine ⟨hSign, fun _ => ?_, fun h => absurd h hBelow.ne, fun h => absurd h hBelow.le.not_gt⟩
    rw [hMagnitude, hBits]
    split
    · rename_i hLess
      have hRound : Binary.round 10 125 (units 23 (singleMagnitude x)) < halfTop := by
        refine Nat.not_le.mp fun h => ?_
        rcases hOver.mp h with h | ⟨h, -⟩ <;> omega
      rw [Nat.min_eq_left hRound.le]
      exact ⟨hRound, Binary.round_isNearest (by decide) _ _⟩
    · rename_i hMore
      refine min_eq_right (hOver.mpr ?_)
      rcases lt_or_eq_of_le (Nat.not_lt.mp hMore) with h | h
      · exact .inl h
      · exact .inr ⟨h, by decide⟩
  · have hAbove : singleTop ≤ singleMagnitude x := (le_div_iff_mul_le (by decide)).mp hLast
    have hWide : singleMagnitude x < 2 ^ 31 := mod_lt _ (by decide)
    have hDiv : singleMagnitude x / 2 ^ 23 = 255 := le_antisymm (by omega) hLast
    have hParts : singleMagnitude x = singleTop + singleMagnitude x % 2 ^ 23 := by
      rw [show singleTop = 255 * 2 ^ 23 by decide]
      omega
    obtain ⟨hSignNan, hNan⟩ := signOf_or (x := x) (r := 0x7E00) (by decide)
    obtain ⟨hSignInf, hInf⟩ := signOf_or (x := x) (r := 0x7C00) (by decide)
    unfold f32ToF16
    rw [single_exp, hDiv]
    dsimp only
    rw [if_pos (by rfl)]
    by_cases hZero : x &&& 0x007FFFFF = 0
    · rw [hZero] at hMant
      rw [if_neg (not_not_intro hZero)]
      exact ⟨hSignInf, fun h => absurd h hAbove.not_gt, fun _ => hInf, fun h => absurd (hParts.trans (congrArg (singleTop + ·) hMant.symm)) h.ne'⟩
    · rw [if_pos hZero]
      refine ⟨hSignNan, fun h => absurd h hAbove.not_gt, fun h => absurd (eq_of_toNat_eq (hMant.trans ?_)) hZero, fun _ => ?_⟩
      · change singleMagnitude x % 2 ^ 23 = 0
        omega
      · change halfTop < halfMagnitude (signOf x ||| 0x7E00)
        rw [hNan]
        decide

theorem half_exp (h : U16) : ((h >>> 10) &&& 0x1F).toNat = halfMagnitude h / 2 ^ 10 := by
  have hMask := Nat.and_two_pow_sub_one_eq_mod (h.toNat >>> 10) 5
  refine hMask.trans ?_
  rw [shiftRight_eq_div_pow, halfMagnitude]
  omega

theorem half_mant (h : U16) : ((h &&& 0x3FF).setWidth 32 : U32).toNat = halfMagnitude h % 2 ^ 10 := by
  have hMask : (h &&& 0x3FF).toNat = h.toNat % 2 ^ 10 := Nat.and_two_pow_sub_one_eq_mod h.toNat 10
  rw [toNat_setWidth, hMask, halfMagnitude]
  omega

def wideSign (h : U16) : U32 := (h.setWidth 32 &&& 0x8000 : U32) <<< 16

theorem toNat_wideSign (h : U16) : (wideSign h).toNat = 2 ^ 31 * h.msb.toNat := by
  have hBit : (h.setWidth 32 : U32).getLsbD 15 = h.msb := by
    rw [getLsbD_setWidth, msb_eq_getLsbD_last]
    rfl
  rw [wideSign, show (0x8000 : U32) = BitVec.twoPow 32 15 by decide, and_twoPow, hBit]
  cases h.msb <;> rfl

theorem wideSign_or {r : U32} (hr : r.toNat < 2 ^ 31) : (wideSign h ||| r).msb = h.msb ∧ singleMagnitude (wideSign h ||| r) = r.toNat := by
  have hSum : (wideSign h ||| r).toNat = 2 ^ 31 * h.msb.toNat + r.toNat := by
    rw [BitVec.toNat_or, toNat_wideSign, Nat.two_pow_add_eq_or_of_lt hr]
  constructor
  · rw [msb_eq_decide, hSum]
    cases h.msb
    · exact decide_eq_false (by simp; omega)
    · exact decide_eq_true (by simp)
  · rw [singleMagnitude, hSum, mul_add_mod, Nat.mod_eq_of_lt hr]

theorem half_ext {h' : U16} (hSign : h.msb = h'.msb) (hMagnitude : halfMagnitude h = halfMagnitude h') : h = h' := by
  have hParts : ∀ h : U16, h.toNat = 2 ^ 15 * h.msb.toNat + halfMagnitude h := by
    intro h
    have hLt := h.isLt
    rw [msb_eq_decide, halfMagnitude]
    by_cases hTop : 2 ^ 15 ≤ h.toNat
    · rw [decide_eq_true hTop]
      change h.toNat = 2 ^ 15 * 1 + h.toNat % 2 ^ 15
      omega
    · rw [decide_eq_false hTop]
      change h.toNat = 2 ^ 15 * 0 + h.toNat % 2 ^ 15
      omega
  exact eq_of_toNat_eq (by rw [hParts h, hParts h', hSign, hMagnitude])

theorem Widens.rounds_back {h' : U16} (hWide : Widens h x) (hRound : Rounds x h') (hNumber : halfMagnitude h ≤ halfTop) : h' = h := by
  refine half_ext (hRound.sign.trans hWide.sign) ?_
  rcases lt_or_eq_of_le hNumber with hNumber | hInfinity
  · obtain ⟨hFinite, hValue⟩ := hWide.number hNumber
    have hStep : units 10 (halfMagnitude h) ≤ units 10 (halfTop - 1) := (Binary.units_strictMono 10).monotone (le_sub_one_of_lt hNumber)
    have hLast : units 10 (halfTop - 1) < units 10 halfTop := Binary.units_strictMono 10 (by decide)
    have hBelow : 2 * units 23 (singleMagnitude x) < (units 10 (halfTop - 1) + units 10 halfTop) * 2 ^ 125 := by
      rw [hValue, ← Nat.mul_assoc]
      exact Nat.mul_lt_mul_of_pos_right (by omega) (by decide)
    have hNear := hRound.number hFinite
    rw [if_pos hBelow, hValue] at hNear
    have hBack := Binary.round_isNearest (p := 10) (by decide) 125 (units 10 (halfMagnitude h) * 2 ^ 125)
    rw [Binary.round_units (by decide)] at hBack
    exact hNear.2.unique hBack
  · rw [hInfinity, hRound.infinity (hWide.infinity hInfinity)]

theorem leading_iff (m : U32) : m &&& 0x400 = 0 ↔ m.toNat / 2 ^ 10 % 2 = 0 := by
  have hBit := and_twoPow_ne_zero m (show 10 < 32 by decide)
  rw [show BitVec.twoPow 32 10 = 0x400 by decide] at hBit
  have hTest : m.getLsbD 10 = decide (m.toNat / 2 ^ 10 % 2 = 1) := by
    rw [BitVec.getLsbD, testBit_eq_decide_div_mod_eq]
  rw [← not_iff_not, ← ne_eq, ← bne_iff_ne, hBit, hTest, decide_eq_true_iff]
  omega

theorem f16Normalise_run {j : Nat} : ∀ {fuel : Nat} {m : U32} {e : Int}, j < fuel → 2 ^ 10 ≤ m.toNat * 2 ^ j → m.toNat * 2 ^ j < 2 ^ 11 →
    f16Normalise fuel m e = some (m <<< j, e - j) := by
  induction j with
  | zero =>
    intro fuel m e hFuel hLow hHigh
    obtain ⟨fuel, rfl⟩ := exists_eq_succ_of_ne_zero (ne_of_gt hFuel)
    rw [pow_zero, mul_one] at hLow hHigh
    have hOn : ¬m &&& 0x400 = 0 := by
      rw [leading_iff]
      omega
    rw [f16Normalise, if_neg hOn, BitVec.shiftLeft_zero]
    simp
  | succ j ih =>
    intro fuel m e hFuel hLow hHigh
    obtain ⟨fuel, rfl⟩ := exists_eq_succ_of_ne_zero (ne_of_gt (zero_lt_of_lt hFuel))
    have hPos : 0 < 2 ^ j := Nat.two_pow_pos j
    rw [show 2 ^ (j + 1) = 2 * 2 ^ j from Nat.pow_succ', ← Nat.mul_assoc] at hLow hHigh
    have hSmall : m.toNat * 2 < 2 ^ 11 := (Nat.le_mul_of_pos_right _ hPos).trans_lt hHigh
    have hOff : m &&& 0x400 = 0 := by
      rw [leading_iff]
      omega
    have hDouble : (m <<< 1).toNat = m.toNat * 2 := by
      rw [BitVec.toNat_shiftLeft, Nat.shiftLeft_eq, Nat.mod_eq_of_lt (by omega)]
    rw [f16Normalise, if_pos hOff, ih (by omega) (by rwa [hDouble]) (by rwa [hDouble]), ← BitVec.shiftLeft_add, Nat.add_comm 1 j]
    congr 2
    push_cast
    omega

theorem wide_fields (h : U16) {a b : U32} (ha : a.toNat < 256) (hb : b.toNat < 2 ^ 10) :
    (wideSign h ||| (a <<< 23) ||| (b <<< 13)).msb = h.msb ∧
      singleMagnitude (wideSign h ||| (a <<< 23) ||| (b <<< 13)) = a.toNat * 2 ^ 23 + b.toNat * 2 ^ 13 := by
  have hFraction : (b <<< 13).toNat = b.toNat * 2 ^ 13 := by
    rw [BitVec.toNat_shiftLeft, Nat.shiftLeft_eq, Nat.mod_eq_of_lt (by omega)]
  have hFields : (a <<< 23 ||| b <<< 13).toNat = a.toNat * 2 ^ 23 + b.toNat * 2 ^ 13 := by
    rw [BitVec.toNat_or, hFraction, BitVec.toNat_shiftLeft, Nat.shiftLeft_eq, Nat.mod_eq_of_lt (by omega), Nat.mul_comm,
      Nat.two_pow_add_eq_or_of_lt (by omega)]
  rw [BitVec.or_assoc, ← hFields]
  exact wideSign_or (by omega)

theorem half_fields (h : U16) : halfMagnitude h = halfMagnitude h / 2 ^ 10 * 2 ^ 10 + halfMagnitude h % 2 ^ 10 ∧
    halfMagnitude h % 2 ^ 10 < 2 ^ 10 ∧ halfMagnitude h / 2 ^ 10 < 32 := by
  have hWide : halfMagnitude h < 2 ^ 15 := mod_lt _ (by decide)
  omega

theorem half_exp_eq_iff (h : U16) (e : U16) : (h >>> 10) &&& 0x1F = e ↔ halfMagnitude h / 2 ^ 10 = e.toNat := by
  rw [← BitVec.toNat_inj, half_exp]

theorem widens_zero (hNone : halfMagnitude h = 0) : ∃ x, f16ToF32 h = some x ∧ Widens h x := by
  have hMant : ((h &&& 0x3FF).setWidth 32 : U32) = 0 := eq_of_toNat_eq (by rw [half_mant, hNone]; rfl)
  obtain ⟨hSign, hMagnitude⟩ := wideSign_or (h := h) (r := 0) (by decide)
  rw [show wideSign h ||| 0 = wideSign h from BitVec.or_zero] at hSign hMagnitude
  refine ⟨wideSign h, ?_, hSign, fun _ => ?_, fun hTop => ?_, fun hTop => ?_⟩
  · unfold f16ToF32
    rw [if_pos ((half_exp_eq_iff h 0).mpr (by rw [hNone]; rfl)), if_pos hMant]
    rfl
  · rw [hMagnitude, hNone]
    exact ⟨by decide, rfl⟩
  · exact absurd (hNone.symm.trans hTop) (by decide)
  · exact absurd (hNone ▸ hTop) (by decide)

theorem widens_special (hExp : halfMagnitude h / 2 ^ 10 = 31) : ∃ x, f16ToF32 h = some x ∧ Widens h x := by
  obtain ⟨hParts, hMantLt, -⟩ := half_fields h
  have hMant := half_mant h
  obtain ⟨hSign, hMagnitude⟩ := wide_fields h (a := 255) (b := (h &&& 0x3FF).setWidth 32) (by decide) (by rwa [hMant])
  rw [hMant] at hMagnitude
  change _ = 255 * 2 ^ 23 + _ at hMagnitude
  refine ⟨_, ?_, hSign, fun hNumber => ?_, fun hInf => hMagnitude.trans ?_, fun hNan => lt_of_lt_of_eq ?_ hMagnitude.symm⟩
  · unfold f16ToF32
    rw [if_neg (mt (half_exp_eq_iff h 0).mp (by rw [hExp]; decide)), if_pos ((half_exp_eq_iff h 0x1F).mpr hExp)]
    rfl
  · unfold halfTop at hNumber
    omega
  · unfold halfTop at hInf
    unfold singleTop
    omega
  · unfold halfTop at hNan
    unfold singleTop
    omega

theorem widens_normal (hLow : halfMagnitude h / 2 ^ 10 ≠ 0) (hHigh : halfMagnitude h / 2 ^ 10 ≠ 31) : ∃ x, f16ToF32 h = some x ∧ Widens h x := by
  obtain ⟨hParts, hMantLt, hExpLt⟩ := half_fields h
  have hMant := half_mant h
  have hRebias : ((((h >>> 10) &&& 0x1F).setWidth 32 : U32) - 15 + 127).toNat = halfMagnitude h / 2 ^ 10 + 112 := by
    rw [toNat_add, toNat_sub, toNat_setWidth, half_exp]
    change ((2 ^ 32 - 15 + halfMagnitude h / 2 ^ 10 % 2 ^ 32) % 2 ^ 32 + 127) % 2 ^ 32 = _
    omega
  obtain ⟨hSign, hMagnitude⟩ := wide_fields h (a := (((h >>> 10) &&& 0x1F).setWidth 32 : U32) - 15 + 127) (b := (h &&& 0x3FF).setWidth 32)
    (by rw [hRebias]; omega) (by rwa [hMant])
  rw [hRebias, hMant] at hMagnitude
  have hNumber : halfMagnitude h < halfTop := by
    unfold halfTop
    omega
  refine ⟨_, ?_, hSign, fun _ => ⟨hMagnitude.trans_lt ?_, ?_⟩, fun hTop => absurd hTop hNumber.ne, fun hTop => absurd hTop hNumber.le.not_gt⟩
  · unfold f16ToF32
    rw [if_neg (mt (half_exp_eq_iff h 0).mp hLow), if_neg (mt (half_exp_eq_iff h 0x1F).mp hHigh)]
    rfl
  · unfold singleTop
    omega
  · obtain ⟨e, he⟩ := exists_eq_succ_of_ne_zero hLow
    rw [hMagnitude, he, Binary.units_eq 10, he, if_neg (succ_ne_zero e), show e.succ + 112 = e + 112 + 1 by omega,
      Binary.units_scale _ (by omega), succ_sub_one, show e + 112 = e + 112 from rfl, Nat.pow_add]
    ring

theorem f16ToF32_widens (hSub : isSubnormalHalf h = false) : ∃ x, f16ToF32 h = some x ∧ Widens h x := by
  by_cases hLow : halfMagnitude h / 2 ^ 10 = 0
  · refine widens_zero ?_
    by_contra hSome
    have hSubnormal : isSubnormalHalf h = true := by
      rw [isSubnormalHalf, decide_eq_true (pos_of_ne_zero hSome), decide_eq_true (by omega), Bool.and_self]
    exact Bool.false_ne_true (hSub.symm.trans hSubnormal)
  · by_cases hHigh : halfMagnitude h / 2 ^ 10 = 31
    · exact widens_special hHigh
    · exact widens_normal hLow hHigh

theorem f16ToF32_halves (hSub : isSubnormalHalf h = true) :
    ∃ x, f16ToF32 h = some x ∧ 2 * units 23 (singleMagnitude x) = units 10 (halfMagnitude h) * 2 ^ 125 := by
  rw [isSubnormalHalf, Bool.and_eq_true, decide_eq_true_iff, decide_eq_true_iff] at hSub
  have hMant : ((h &&& 0x3FF).setWidth 32 : U32).toNat = halfMagnitude h := (half_mant h).trans (Nat.mod_eq_of_lt hSub.2)
  have hMantNe : ((h &&& 0x3FF).setWidth 32 : U32) ≠ 0 := fun hZero => hSub.1.ne (by rw [← hMant, hZero]; rfl)
  -- The leading bit is `j` places below the one that is hidden.
  obtain ⟨j, hj, hLow, hHigh⟩ := Binary.exists_leading (p := 10) hSub.1 (hSub.2.trans (by decide))
  have hRun := @f16Normalise_run j 32 ((h &&& 0x3FF).setWidth 32) (-1) (by omega) (by rwa [hMant]) (by rwa [hMant])
  have hExp : (BitVec.ofInt 32 (127 - 15 + 1 + (-1 - (j : Int)))).toNat = 112 - j := by
    rw [show (127 - 15 + 1 + (-1 - (j : Int))) = ((112 - j : Nat) : Int) by omega, ofInt_natCast, toNat_ofNat]
    exact Nat.mod_eq_of_lt (by omega)
  have hFraction : (((h &&& 0x3FF).setWidth 32 : U32) <<< j &&& 0x3FF).toNat = halfMagnitude h * 2 ^ j - 2 ^ 10 := by
    refine (Nat.and_two_pow_sub_one_eq_mod _ 10).trans ?_
    rw [BitVec.toNat_shiftLeft, hMant, Nat.shiftLeft_eq, Nat.mod_eq_of_lt (show halfMagnitude h * 2 ^ j < 2 ^ 32 by omega)]
    omega
  obtain ⟨-, hMagnitude⟩ := wide_fields h (a := BitVec.ofInt 32 (127 - 15 + 1 + (-1 - (j : Int)))) (b := ((h &&& 0x3FF).setWidth 32 : U32) <<< j &&& 0x3FF)
    (by rw [hExp]; omega) (by rw [hFraction]; omega)
  have hOut : f16ToF32 h = some (wideSign h ||| BitVec.ofInt 32 (127 - 15 + 1 + (-1 - (j : Int))) <<< 23 |||
      (((h &&& 0x3FF).setWidth 32 : U32) <<< j &&& 0x3FF) <<< 13) := by
    unfold f16ToF32
    rw [if_pos ((half_exp_eq_iff h 0).mpr (div_eq_of_lt hSub.2)), if_neg hMantNe, hRun]
    rfl
  refine ⟨_, hOut, ?_⟩
  rw [hMagnitude, hExp, hFraction, show 112 - j = 111 - j + 1 by omega, Binary.units_scale _ (by omega), Binary.units_of_lt (show halfMagnitude h < 2 ^ (10 + 1) by omega)]
  have hPow : 2 ^ 125 = 2 ^ j * 2 ^ 13 * 2 ^ (111 - j) * 2 := by
    rw [← Nat.pow_add, ← Nat.pow_add, ← pow_succ]
    congr 1
    omega
  have hSignificand : 2 ^ 23 + (halfMagnitude h * 2 ^ j - 2 ^ 10) * 2 ^ 13 = halfMagnitude h * 2 ^ j * 2 ^ 13 := by omega
  rw [hSignificand, hPow]
  ring

end Fields

/-- The conversion to half rounds to the nearest; the conversion from half is exact, and undone by the other, but for the subnormals. -/
theorem f16_iff (x : U32) (h : U16) : Rounds x (f32ToF16 x) ∧
    (((∃ y, f16ToF32 h = some y ∧ Widens h y) ∧ (halfMagnitude h ≤ halfTop → (f16ToF32 h).map f32ToF16 = some h)) ↔ isSubnormalHalf h = false) := by
  refine ⟨f32ToF16_rounds x, ?_, fun hSub => ?_⟩
  · rintro ⟨⟨x, hx, hWide⟩, -⟩
    cases hSub : isSubnormalHalf h with
    | false => rfl
    | true =>
      obtain ⟨x', hx', hHalf⟩ := f16ToF32_halves hSub
      cases hx.symm.trans hx'
      rw [isSubnormalHalf, Bool.and_eq_true, decide_eq_true_iff, decide_eq_true_iff] at hSub
      have hValue := (hWide.number (hSub.2.trans (by decide))).2
      rw [hValue, Binary.units_of_lt (show halfMagnitude h < 2 ^ (10 + 1) by omega)] at hHalf
      omega
  · obtain ⟨x, hx, hWide⟩ := f16ToF32_widens hSub
    refine ⟨⟨x, hx, hWide⟩, fun hNumber => ?_⟩
    rw [hx, Option.map_some, hWide.rounds_back (f32ToF16_rounds x) hNumber]

/-- The least half becomes half of it, which is rounded to zero. -/
theorem f16_of_least : ¬(∃ x, f16ToF32 1 = some x ∧ Widens 1 x) ∧ (f16ToF32 1).map f32ToF16 = some 0 := by
  refine ⟨?_, by decide⟩
  rintro ⟨x, hx, hWide⟩
  have hRun : f16ToF32 1 = some 0x33000000 := by decide
  cases hx.symm.trans hRun
  exact absurd (hWide.number (by decide)).2 (by decide)

end Exemu.Interp
