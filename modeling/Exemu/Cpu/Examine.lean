import Exemu.Cpu.Extended

/-! # FXAM

The class of the register on top of the stack is found on its value as a double, which is another
one for numbers out of the range of doubles.
-/
namespace Exemu.Interp

open Binary (units power roundShift)
open Double (magnitude ofParts encode)

def SW_C0 : U16 := 1 <<< 8
def SW_C1 : U16 := 1 <<< 9
def SW_C2 : U16 := 1 <<< 10
def SW_C3 : U16 := 1 <<< 14

def isExtDenormal (v : U128) : Bool := extExponent v = 0 && extSignificand v != 0

def topTag (x : X87) : U16 := (x.tw >>> (x.top * 2)) &&& 3

def fxamCodes (tag : U16) (v : U128) : Bool × Bool × Bool :=
  let x := extToF64 v
  if tag = 0b11 then (true, false, true)
  else if Double.isNan x then (false, false, true)
  else if Double.isInfinite x then (false, true, true)
  else if Double.isZero x then (true, false, false)
  else if isExtDenormal v then (true, true, false)
  else (false, true, false)

def setCodes (sw : U16) (sign : Bool) (codes : Bool × Bool × Bool) : U16 :=
  let sw := sw &&& ~~~(SW_C0 ||| SW_C1 ||| SW_C2 ||| SW_C3)
  let sw := if sign then sw ||| SW_C1 else sw
  let sw := if codes.1 then sw ||| SW_C3 else sw
  let sw := if codes.2.1 then sw ||| SW_C2 else sw
  if codes.2.2 then sw ||| SW_C0 else sw

def fxam (x : X87) : X87 :=
  let v := x.st (x.phys 0)
  { x with sw := setCodes x.sw (extSign v) (fxamCodes (topTag x) v) }

/-! ## The class of the number itself -/

inductive ExtClass where
  | Unsupported
  | NaN
  | Normal
  | Infinity
  | Zero
  | Empty
  | Denormal
  deriving DecidableEq, Repr

def ExtClass.codes : ExtClass → Bool × Bool × Bool
  | .Unsupported => (false, false, false)
  | .NaN => (false, false, true)
  | .Normal => (false, true, false)
  | .Infinity => (false, true, true)
  | .Zero => (true, false, false)
  | .Empty => (true, false, true)
  | .Denormal => (true, true, false)

def leadingBit (v : U128) : Bool := 2 ^ 63 ≤ (extSignificand v).toNat

def classOf (tag : U16) (v : U128) : ExtClass :=
  if tag = 0b11 then .Empty
  else if extExponent v = 0x7fff then
    if leadingBit v then if (extSignificand v).toNat = 2 ^ 63 then .Infinity else .NaN else .Unsupported
  else if extExponent v = 0 then if extSignificand v = 0 then .Zero else .Denormal
  else if leadingBit v then .Normal
  else .Unsupported

def InReach (v : U128) : Prop :=
  (extExponent v).toNat = 0x7fff ∨ 15372 ≤ (extExponent v).toNat ∧ (extExponent v).toNat ≤ 17405 ∨
    (extExponent v).toNat = 17406 ∧ (extSignificand v).toNat < 2 ^ 64 - 2 ^ 10

/-- The status word tells this class and sign, and nothing else has changed. -/
structure Reports (x y : X87) (cls : ExtClass) (sign : Bool) : Prop where
  c3 : y.sw.getLsbD 14 = cls.codes.1
  c2 : y.sw.getLsbD 10 = cls.codes.2.1
  c1 : y.sw.getLsbD 9 = sign
  c0 : y.sw.getLsbD 8 = cls.codes.2.2
  others : ∀ i, i ∉ [8, 9, 10, 14] → y.sw.getLsbD i = x.sw.getLsbD i
  rest : y = { x with sw := y.sw }

section Codes

variable {sw tag : U16} {v : U128} {i : Nat}

theorem getLsbD_code (i k : Nat) : ((1 : U16) <<< k).getLsbD i = (decide (i < 16) && decide (i = k)) := by
  rw [show (1 : U16) <<< k = BitVec.twoPow 16 k from (BitVec.twoPow_eq 16 k).symm, BitVec.getLsbD_twoPow]
  by_cases hi : k = i
  · rw [hi]
  · simp [hi, Ne.symm hi]

theorem getLsbD_orIf (sw m : U16) (b : Bool) (i : Nat) : (if b then sw ||| m else sw).getLsbD i = (sw.getLsbD i || (b && m.getLsbD i)) := by
  cases b with
  | false => simp
  | true => simp

theorem getLsbD_setCodes (sw : U16) (sign : Bool) (c : Bool × Bool × Bool) (hi : i < 16) : (setCodes sw sign c).getLsbD i =
    if i = 14 then c.1 else if i = 10 then c.2.1 else if i = 9 then sign else if i = 8 then c.2.2 else sw.getLsbD i := by
  have h0 : SW_C0.getLsbD i = (decide (i < 16) && decide (i = 8)) := getLsbD_code i 8
  have h1 : SW_C1.getLsbD i = (decide (i < 16) && decide (i = 9)) := getLsbD_code i 9
  have h2 : SW_C2.getLsbD i = (decide (i < 16) && decide (i = 10)) := getLsbD_code i 10
  have h3 : SW_C3.getLsbD i = (decide (i < 16) && decide (i = 14)) := getLsbD_code i 14
  unfold setCodes
  simp only [getLsbD_orIf, BitVec.getLsbD_and, BitVec.getLsbD_not, BitVec.getLsbD_or, h0, h1, h2, h3, decide_eq_true hi, Bool.true_and]
  by_cases h14 : i = 14
  · simp [h14]
  · by_cases h10 : i = 10
    · simp [h10]
    · by_cases h9 : i = 9
      · simp [h9]
      · by_cases h8 : i = 8
        · simp [h8]
        · simp [h14, h10, h9, h8]

theorem fxam_reports_iff (x : X87) (cls : ExtClass) :
    Reports x (fxam x) cls (extSign (x.st (x.phys 0))) ↔ fxamCodes (topTag x) (x.st (x.phys 0)) = cls.codes := by
  have hBits : ∀ i < 16, (fxam x).sw.getLsbD i = _ := fun i hi => getLsbD_setCodes x.sw (extSign (x.st (x.phys 0))) (fxamCodes (topTag x) (x.st (x.phys 0))) hi
  constructor
  · intro h
    have h3 := (hBits 14 (by decide)).symm.trans h.c3
    have h2 := (hBits 10 (by decide)).symm.trans h.c2
    have h0 := (hBits 8 (by decide)).symm.trans h.c0
    exact Prod.ext h3 (Prod.ext h2 h0)
  · intro h
    rw [h] at hBits
    refine ⟨hBits 14 (by decide), hBits 10 (by decide), hBits 9 (by decide), hBits 8 (by decide), fun i hi => ?_, rfl⟩
    rw [List.mem_cons, List.mem_cons, List.mem_cons, List.mem_singleton] at hi
    rcases Nat.lt_or_ge i 16 with hLow | hHigh
    · rw [hBits i hLow, if_neg (by omega), if_neg (by omega), if_neg (by omega), if_neg (by omega)]
    · rw [BitVec.getLsbD_of_ge _ _ hHigh, BitVec.getLsbD_of_ge _ _ hHigh]

/-! ## The value as a double -/

theorem middle_le_iff {q j t a : Nat} (hLow : 2 ^ 52 ≤ q) (hHigh : q ≤ 2 ^ 53) (ha : a + 2 ^ t = 2 ^ 53 * 2 ^ t) :
    a + 2 ^ 53 * 2 ^ t ≤ 2 * (q * 2 ^ 11 * 2 ^ j) ↔ t ≤ j + 10 ∨ j + 11 = t ∧ q = 2 ^ 53 := by
  have hPos : 0 < 2 ^ t := Nat.two_pow_pos t
  have hProduct : 2 * (q * 2 ^ 11 * 2 ^ j) = q * 2 ^ (j + 12) := by
    rw [Nat.pow_add]
    ring
  rw [hProduct]
  rcases Nat.lt_trichotomy (j + 11) t with hBelow | rfl | hAbove
  · have hLess := Nat.mul_le_mul hHigh (Nat.pow_le_pow_right (show 0 < 2 by decide) (show j + 12 ≤ t by omega))
    refine iff_of_false (by omega) (by omega)
  · rw [show 2 ^ (j + 12) = 2 ^ (j + 11) * 2 from Nat.pow_succ .., ← Nat.mul_assoc]
    rcases Nat.lt_or_eq_of_le hHigh with hLess | rfl
    · have hLess := Nat.mul_le_mul_right (2 ^ (j + 11)) (Nat.le_sub_one_of_lt hLess)
      rw [Nat.sub_mul, Nat.one_mul] at hLess
      exact iff_of_false (by omega) (by omega)
    · exact iff_of_true (by omega) (.inr ⟨rfl, rfl⟩)
  · have hMore := Nat.mul_le_mul hLow (Nat.pow_le_pow_right (show 0 < 2 by decide) (show t + 2 ≤ j + 12 by omega))
    rw [show 2 ^ (t + 2) = 2 ^ t * 2 ^ 2 from Nat.pow_add .., Nat.mul_comm (2 ^ t), ← Nat.mul_assoc] at hMore
    exact iff_of_true (by omega) (by omega)

theorem overflow_iff {q j : Nat} (hLow : 2 ^ 52 ≤ q) (hHigh : q ≤ 2 ^ 53) (k : Nat) :
    Double.top ≤ Binary.round 52 k (q * 2 ^ 11 * 2 ^ k * 2 ^ j) ↔ 2035 ≤ j ∨ j = 2034 ∧ q = 2 ^ 53 := by
  obtain ⟨t, ht⟩ : ∃ t, t = 2045 := ⟨_, rfl⟩
  have hTopEq : Double.top = power 52 (52 + 1 + t) := by rw [ht, Double.top_eq]
  have hLast := Binary.units_below_power 52 t
  have hTop : units 52 Double.top = 2 ^ 53 * 2 ^ t := by rw [hTopEq, Binary.units_power, Nat.pow_add]
  rw [← hTopEq, Nat.pow_add] at hLast
  rw [Double.top_le_round_iff, hTop, Nat.mul_right_comm _ (2 ^ k), ← Nat.mul_assoc, Nat.mul_le_mul_right_iff (Nat.two_pow_pos k), middle_le_iff hLow hHigh hLast]
  omega

theorem roundShift_significand {s : Nat} (hLow : 2 ^ 63 ≤ s) (hHigh : s < 2 ^ 64) :
    2 ^ 52 ≤ roundShift s 11 ∧ roundShift s 11 ≤ 2 ^ 53 ∧ (roundShift s 11 = 2 ^ 53 ↔ 2 ^ 64 - 2 ^ 10 ≤ s) := by
  refine ⟨Binary.le_roundShift (s := 11) (e := 52) hLow, Binary.roundShift_le (s := 11) (e := 53) hHigh, ?_⟩
  unfold roundShift
  split <;> omega

theorem extSignificand_lt (v : U128) : (extSignificand v).toNat < 2 ^ 64 := BitVec.isLt _

theorem hostProduct_low (hExp : (extExponent v).toNat < 15372) : hostProduct v = 0 := by
  rw [hostProduct, show scale (((extExponent v).toNat : Int) - 15372) = 0 from if_pos (by omega), Binary.units_of_lt (Nat.two_pow_pos _), Nat.mul_zero,
    Double.encode_zero]

theorem hostProduct_normal (hLead : leadingBit v = true) (hLow : 15372 ≤ (extExponent v).toNat) (hHigh : (extExponent v).toNat < 17470) :
    hostProduct v ≠ 0 ∧ (hostProduct v = Double.top ↔ ¬InReach v) := by
  have hLeadNat : 2 ^ 63 ≤ (extSignificand v).toNat := of_decide_eq_true hLead
  obtain ⟨hqLow, hqHigh, hqTop⟩ := roundShift_significand hLeadNat (extSignificand_lt v)
  obtain ⟨j, hj⟩ := Nat.exists_eq_add_of_le hLow
  have hUnits : units 52 (encode 0 ((extSignificand v).toNat * 2 ^ 1074)) = roundShift (extSignificand v).toNat 11 * 2 ^ 11 * 2 ^ 1074 := by
    rw [(encode_significand _).2]
    exact Binary.units_round_full (p := 52) (i := 11) hLeadNat (extSignificand_lt v) 1074
  have hProduct : hostProduct v = encode 1074 (roundShift (extSignificand v).toNat 11 * 2 ^ 11 * 2 ^ 1074 * 2 ^ j) := by
    rw [hostProduct, hUnits, show ((extExponent v).toNat : Int) - 15372 = (j : Int) by omega, scale_of_lt (by omega), Binary.units_power]
  have hOver := overflow_iff (j := j) hqLow hqHigh 1074
  constructor
  · have hSome : ∀ k, 2 ^ k ≤ roundShift (extSignificand v).toNat 11 * 2 ^ 11 * 2 ^ k * 2 ^ j := fun k => by
      rw [Nat.mul_right_comm]
      exact Nat.le_mul_of_pos_left _ (Nat.mul_pos (by omega) (Nat.two_pow_pos j))
    have hPos := Binary.round_pos (p := 52) (by decide) (hSome 1074)
    rw [hProduct, encode]
    exact (lt_min hPos (by decide)).ne'
  · rw [hProduct, encode, min_eq_right_iff, hOver]
    unfold InReach
    omega

/-! ## The codes -/

theorem fxamCodes_supported (tag : U16) (v : U128) : fxamCodes tag v ≠ ExtClass.Unsupported.codes := by
  unfold fxamCodes
  dsimp only
  split_ifs <;> decide

theorem fxamCodes_of_parts {sign : Bool} {n : Nat} (hTag : tag ≠ 0b11) (hDouble : extToF64 v = ofParts sign n) (hn : n ≤ Double.top) :
    fxamCodes tag v = if n = Double.top then (false, true, true) else if n = 0 then (true, false, false)
      else if isExtDenormal v then (true, true, false) else (false, true, false) := by
  obtain ⟨-, hMag⟩ := Double.parts (hn.trans_lt Double.top_lt) sign
  unfold fxamCodes Double.isNan Double.isInfinite Double.isZero
  dsimp only
  rw [hDouble, hMag, if_neg hTag, decide_eq_false hn.not_gt, if_neg Bool.false_ne_true]
  simp only [decide_eq_true_eq]

theorem fraction_zero_iff (v : U128) : extSignificand v &&& 0x7fffffffffffffff = 0 ↔ (extSignificand v).toNat % 2 ^ 63 = 0 := by
  have hMask : (extSignificand v &&& 0x7fffffffffffffff).toNat = (extSignificand v).toNat % 2 ^ 63 := Nat.and_two_pow_sub_one_eq_mod _ 63
  rw [← BitVec.toNat_inj, hMask]
  rfl

theorem quiet_isNan (sign payload : U64) : Double.isNan (sign ||| ((0x7ff : U64) <<< 52) ||| payload ||| 0x0008000000000000) = true := by
  have hParts : sign ||| ((0x7ff : U64) <<< 52) ||| payload ||| 0x0008000000000000 = sign ||| payload ||| 0x7FF8000000000000 := by
    rw [show (0x7FF8000000000000 : U64) = ((0x7ff : U64) <<< 52) ||| 0x0008000000000000 by decide, BitVec.or_assoc sign, BitVec.or_comm ((0x7ff : U64) <<< 52),
      ← BitVec.or_assoc, ← BitVec.or_assoc]
  have hQuiet : (0x7FF8000000000000 : U64).toNat % 2 ^ 63 ≤ magnitude (sign ||| payload ||| 0x7FF8000000000000) := by
    rw [magnitude, BitVec.toNat_or, Nat.or_mod_two_pow]
    exact Nat.right_le_or
  rw [hParts, Double.isNan]
  exact decide_eq_true (Nat.lt_of_lt_of_le (by decide) hQuiet)

theorem fxamCodes_last (hTag : tag ≠ 0b11) (hExp : extExponent v = 0x7fff) :
    fxamCodes tag v = if (extSignificand v).toNat % 2 ^ 63 = 0 then ExtClass.Infinity.codes else ExtClass.NaN.codes := by
  by_cases hFrac : extSignificand v &&& 0x7fffffffffffffff = 0
  · have hDouble : extToF64 v = ofParts (extSign v) Double.top := by
      unfold extToF64
      dsimp only
      rw [if_pos hExp, if_pos hFrac]
    rw [fxamCodes_of_parts hTag hDouble le_rfl, if_pos rfl, if_pos ((fraction_zero_iff v).mp hFrac)]
    rfl
  · have hNan : Double.isNan (extToF64 v) = true := by
      unfold extToF64
      dsimp only
      rw [if_pos hExp, if_neg hFrac]
      exact quiet_isNan _ _
    unfold fxamCodes
    dsimp only
    rw [if_neg hTag, if_pos hNan, if_neg (mt (fraction_zero_iff v).mpr hFrac)]
    rfl

theorem fxamCodes_above (hTag : tag ≠ 0b11) (hLead : leadingBit v = true) (hExp : extExponent v ≠ 0x7fff) (hHigh : 17470 ≤ (extExponent v).toNat) :
    fxamCodes tag v = ExtClass.Infinity.codes := by
  have hLeadNat : 2 ^ 63 ≤ (extSignificand v).toNat := of_decide_eq_true hLead
  have hSome : ¬(extExponent v = 0 ∧ extSignificand v = 0) := fun h => by
    rw [h.2] at hLeadNat
    exact absurd hLeadNat (by decide)
  have hFinite := (encode_significand (extSignificand v)).1
  have hPositive : ∀ k, 2 ^ 0 ≤ (extSignificand v).toNat * 2 ^ k := fun k => Nat.mul_pos (by omega) (Nat.two_pow_pos k)
  have hPos : encode 0 ((extSignificand v).toNat * 2 ^ 1074) ≠ 0 := by
    rw [(encode_significand _).2]
    exact (Binary.round_pos (p := 52) (by decide) (hPositive 1074)).ne'
  have hDouble : extToF64 v = ofParts (extSign v) Double.top := by
    have hProduct : Double.mul (ofParts false (encode 0 ((extSignificand v).toNat * 2 ^ 1074))) (ofParts false Double.top) = ofParts false Double.top := by
      obtain ⟨hSign, hMag⟩ := Double.parts (hFinite.trans Double.top_lt) false
      obtain ⟨hSign', hMag'⟩ := Double.parts Double.top_lt false
      unfold Double.mul Double.isNan Double.isInfinite Double.isZero
      rw [hSign, hSign', hMag, hMag', decide_eq_false hFinite.le.not_gt, decide_eq_false hFinite.ne, decide_eq_false hPos]
      rfl
    unfold extToF64
    dsimp only
    rw [if_neg hExp, if_neg hSome, exp2_eq, ofInt_significand, show (((extExponent v).toNat : Int) - 16383 - 63) + 1074 = (((extExponent v).toNat - 15372 : Nat) : Int) by omega,
      scale_of_le (by omega), hProduct]
    cases extSign v with
    | false => rfl
    | true => exact neg_ofParts Double.top_lt false
  rw [fxamCodes_of_parts hTag hDouble le_rfl, if_pos rfl]
  rfl

theorem fxamCodes_product (hTag : tag ≠ 0b11) (hSome : ¬(extExponent v = 0 ∧ extSignificand v = 0)) (hRange : (extExponent v).toNat < 17470) :
    fxamCodes tag v = if hostProduct v = Double.top then (false, true, true) else if hostProduct v = 0 then (true, false, false)
      else if isExtDenormal v then (true, true, false) else (false, true, false) := by
  have hExp : extExponent v ≠ 0x7fff := fun h => by
    rw [h] at hRange
    exact absurd hRange (by decide)
  exact fxamCodes_of_parts hTag (extToF64_product hExp hSome hRange) (Double.encode_le ..)

theorem fxamCodes_zero (hTag : tag ≠ 0b11) (hZero : extExponent v = 0 ∧ extSignificand v = 0) : fxamCodes tag v = ExtClass.Zero.codes := by
  have hDouble : extToF64 v = ofParts (extSign v) 0 := by
    unfold extToF64
    dsimp only
    rw [if_neg (by rw [hZero.1]; decide), if_pos hZero]
    cases extSign v <;> decide
  rw [fxamCodes_of_parts hTag hDouble (by decide)]
  rfl

theorem extExponent_iff (v : U128) (e : U32) : extExponent v = e ↔ (extExponent v).toNat = e.toNat := BitVec.toNat_inj.symm

theorem fxamCodes_iff (tag : U16) (v : U128) :
    fxamCodes tag v = (classOf tag v).codes ↔ tag = 0b11 ∨ (extExponent v = 0 ∧ extSignificand v = 0) ∨ leadingBit v = true ∧ InReach v := by
  by_cases hTag : tag = 0b11
  · refine iff_of_true ?_ (.inl hTag)
    rw [classOf, if_pos hTag, fxamCodes, if_pos hTag]
    rfl
  · rw [or_iff_right hTag, classOf, if_neg hTag]
    by_cases hLast : extExponent v = 0x7fff
    · have hReach : InReach v := .inl ((extExponent_iff v _).mp hLast)
      have hNone : ¬(extExponent v = 0 ∧ extSignificand v = 0) := fun h => absurd (hLast.symm.trans h.1) (by decide)
      rw [if_pos hLast, or_iff_right hNone]
      cases hLead : leadingBit v with
      | true =>
        have hLeadNat : 2 ^ 63 ≤ (extSignificand v).toNat := of_decide_eq_true hLead
        have hLt := extSignificand_lt v
        refine iff_of_true ?_ ⟨rfl, hReach⟩
        rw [fxamCodes_last hTag hLast, if_pos rfl, apply_ite ExtClass.codes]
        exact if_congr (by omega) rfl rfl
      | false => exact iff_of_false (fxamCodes_supported tag v) fun h => absurd h.1 Bool.false_ne_true
    · rw [if_neg hLast]
      by_cases hLow : extExponent v = 0
      · have hLowNat := (extExponent_iff v 0).mp hLow
        have hOut : ¬InReach v := by
          unfold InReach
          rw [hLowNat]
          change ¬(0 = 0x7fff ∨ 15372 ≤ 0 ∧ 0 ≤ 17405 ∨ 0 = 17406 ∧ _)
          omega
        rw [if_pos hLow]
        by_cases hZero : extSignificand v = 0
        · rw [if_pos hZero]
          exact iff_of_true (fxamCodes_zero hTag ⟨hLow, hZero⟩) (.inl ⟨hLow, hZero⟩)
        · have hProduct := fxamCodes_product hTag (fun h => hZero h.2) (show (extExponent v).toNat < 17470 by rw [hLowNat]; decide)
          rw [hostProduct_low (by rw [hLowNat]; decide), if_neg (by decide), if_pos rfl] at hProduct
          rw [if_neg hZero]
          refine iff_of_false (fun h => absurd (hProduct.symm.trans h) (by decide)) ?_
          rintro (h | h)
          · exact hZero h.2
          · exact hOut h.2
      · rw [if_neg hLow, or_iff_right (fun h => hLow h.1)]
        cases hLead : leadingBit v with
        | false => exact iff_of_false (fxamCodes_supported tag v) fun h => absurd h.1 Bool.false_ne_true
        | true =>
          rw [if_pos rfl, and_iff_right rfl]
          have hLastNat := mt (extExponent_iff v _).mpr hLast
          change (extExponent v).toNat ≠ 0x7fff at hLastNat
          rcases Nat.lt_or_ge (extExponent v).toNat 17470 with hRange | hAbove
          · rw [fxamCodes_product hTag (fun h => hLow h.1) hRange]
            rcases Nat.lt_or_ge (extExponent v).toNat 15372 with hTiny | hHost
            · rw [hostProduct_low hTiny, if_neg (by decide), if_pos rfl]
              refine iff_of_false (by decide) ?_
              unfold InReach
              omega
            · obtain ⟨hSome, hOver⟩ := hostProduct_normal hLead hHost hRange
              have hDenormal : ¬isExtDenormal v = true := by
                rw [isExtDenormal, decide_eq_false hLow, Bool.false_and]
                decide
              rw [if_neg hSome, if_neg hDenormal]
              split
              · rename_i hTop
                exact iff_of_false (by decide) (hOver.mp hTop)
              · rename_i hNumber
                exact iff_of_true rfl (not_not.mp (mt hOver.mpr hNumber))
          · rw [fxamCodes_above hTag hLead hLast hAbove]
            refine iff_of_false (by decide) ?_
            unfold InReach
            omega

end Codes

/-- FXAM is right about the sign, and about the class of what is empty, of zero, of infinities and what is not a number, and of the normal
numbers that doubles reach. -/
theorem fxam_iff (x : X87) :
    Reports x (fxam x) (classOf (topTag x) (x.st (x.phys 0))) (extSign (x.st (x.phys 0))) ↔
      topTag x = 0b11 ∨ (extExponent (x.st (x.phys 0)) = 0 ∧ extSignificand (x.st (x.phys 0)) = 0) ∨
        leadingBit (x.st (x.phys 0)) = true ∧ InReach (x.st (x.phys 0)) :=
  (fxam_reports_iff x _).trans (fxamCodes_iff _ _)

/-- `2 ^ 2000` is reported as an infinity, and the least denormal as zero. -/
theorem fxam_of_large : (classOf 0 0x47CF8000000000000000 = .Normal ∧ classOf 0 1 = .Denormal) ∧
    ¬Reports { st := fun _ => 0x47CF8000000000000000, tw := 0 } (fxam { st := fun _ => 0x47CF8000000000000000, tw := 0 }) .Normal false ∧
      ¬Reports { st := fun _ => 1, tw := 0 } (fxam { st := fun _ => 1, tw := 0 }) .Denormal false := by
  refine ⟨by decide, ?_, ?_⟩
  · intro h
    exact absurd h.c0 (by decide +kernel)
  · intro h
    exact absurd h.c2 (by decide +kernel)

end Exemu.Interp
