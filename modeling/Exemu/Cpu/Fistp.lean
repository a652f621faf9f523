import Exemu.Cpu.Extended
import Exemu.Cpu.Bmi

/-! # Integers in memory and on the x87 stack

An integer that is loaded becomes a double, and a double becomes an integer by the rounding mode
of the control word.
-/
namespace Exemu

namespace X87

/-- `set_top` -/
def setTop (x : X87) (top : Nat) : X87 := { x with sw := (x.sw &&& ~~~(0x3800 : U16)) ||| ((BitVec.ofNat 16 top &&& 7) <<< 11) }

end X87

namespace Interp

open Binary (units power roundShift)
open Double (magnitude ofParts encode)

def tagOf (v : U128) : U16 :=
  if extExponent v = 0 ∧ extSignificand v = 0 then 0b01
  else if extExponent v = 0x7fff ∨ (extExponent v ≠ 0 ∧ extSignificand v &&& 0x8000000000000000 = 0) ∨ (extExponent v = 0 ∧ extSignificand v ≠ 0) then 0b10
  else 0b00

def fpuSetTag (x : X87) (phys : Nat) (tag : U16) : X87 :=
  { x with tw := (x.tw &&& ~~~((0b11 : U16) <<< (phys * 2))) ||| ((tag &&& 0b11) <<< (phys * 2)) }

def fpuPush (x : X87) (val : U128) : X87 :=
  let newTop := (x.top + 7) % 8
  let v := val &&& (((1 : U128) <<< 80) - 1)
  let x := x.setTop newTop
  fpuSetTag { x with st := Function.update x.st (Fin.ofNat 8 newTop) v } newTop (tagOf v)

def fpuPushF64 (x : X87) (d : U64) : Option X87 := (f64ToExt d).map (fpuPush x)

def fpuPop (x : X87) : X87 := (fpuSetTag x x.top 0b11).setTop ((x.top + 1) % 8)

def fpuRead (x : X87) (i : Nat) : U64 := extToF64 (x.st (x.phys i))

def roundHalfEven (x : U64) : U64 :=
  if Double.eq (Double.abs (Double.sub x (Double.trunc x))) 0x3FE0000000000000 then
    let f := Double.floor x
    if (Double.toInt64 f).tmod 2 = 0 then f else Double.add f 0x3FF0000000000000
  else Double.roundAway x

def fpuRoundInt (cw : U16) (x : U64) : U64 :=
  if ¬Double.isFinite x then x
  else
    let mode := (cw >>> 10) &&& 3
    let r := if mode = 0 then roundHalfEven x else if mode = 1 then Double.floor x else if mode = 2 then Double.ceil x else Double.trunc x
    if Double.eq r 0 ∧ x.msb then 0x8000000000000000 else r

def toSignedInt (cw : U16) (x : U64) (bytes : Nat) (trunc : Bool) : Int :=
  let r := if trunc then Double.trunc x else fpuRoundInt cw x
  let bound : Int := 2 ^ (if bytes = 2 then 15 else if bytes = 4 then 31 else 63)
  if ¬Double.isFinite r then -bound
  else if Double.lt r (Double.ofInt (-bound)) ∨ ¬Double.lt r (Double.ofInt bound) then -bound
  else Double.toInt64 r

def loadInt (addr : U64) (size : Nat) (toInt : U64 → Int) : Exec Unit := do
  let v ← readUint addr size
  .step fun m => (orPanic (fpuPushF64 m.state.x87 (Double.ofInt (toInt v)))).map fun x => ((), { m with state := { m.state with x87 := x } })

def storeInt (addr : U64) (bytes : Nat) (trunc pop : Bool) : Exec Unit := do
  let m ← Fallible.get
  writeUint addr bytes (BitVec.ofInt 64 (toSignedInt m.state.x87.cw (fpuRead m.state.x87 0) bytes trunc))
  onState fun s => if pop then { s with x87 := fpuPop s.x87 } else s

/-- The arms of the memory form with the escape `0xDF`. -/
def x87MemFormDF (reg : U8) (addr : U64) : Exec Unit :=
  if reg = 0 then loadInt addr 2 fun v => (v.setWidth 16 : U16).toInt
  else if reg = 1 then storeInt addr 2 true true
  else if reg = 2 then storeInt addr 2 false false
  else if reg = 3 then storeInt addr 2 false true
  else if reg = 5 then loadInt addr 8 fun v => v.toInt
  else if reg = 7 then storeInt addr 8 false true
  else .step fun _ => .error (.err (.unsupported "x87 DF mem"))

def fildFistp (src dst : U64) : Exec Unit := do
  x87MemFormDF 5 src
  x87MemFormDF 7 dst

/-! ## The stack -/

section Stack

variable {x : X87} {v : U128} {i j p t : Nat}

theorem top_lt (x : X87) : x.top < 8 := by
  have hMask : ((x.sw >>> 11) &&& 7).toNat = (x.sw >>> 11).toNat % 2 ^ 3 := Nat.and_two_pow_sub_one_eq_mod _ 3
  rw [X87.top, hMask]
  exact Nat.mod_lt _ (by decide)

theorem top_setTop (x : X87) (ht : t < 8) : (x.setTop t).top = t := by
  have hField : ((x.setTop t).sw >>> 11) &&& 7 = BitVec.ofNat 16 t &&& 7 := by
    apply BitVec.eq_of_getLsbD_eq
    intro i hi
    have hSeven : (7 : U16).getLsbD i = decide (i < 3) := by
      rw [show (7 : U16) = BitVec.ofNat 16 (2 ^ 3 - 1) by decide, BitVec.getLsbD_ofNat, decide_eq_true hi, Bool.true_and, Nat.testBit_two_pow_sub_one]
    unfold X87.setTop
    dsimp only
    rw [BitVec.getLsbD_and, BitVec.getLsbD_and, hSeven]
    by_cases hLow : i < 3
    · have hClear : ∀ i < 3, (0x3800 : U16).getLsbD (11 + i) = true := by decide
      rw [BitVec.getLsbD_ushiftRight, BitVec.getLsbD_or, BitVec.getLsbD_and, BitVec.getLsbD_not, hClear i hLow, BitVec.getLsbD_shiftLeft, BitVec.getLsbD_and,
        Nat.add_sub_cancel_left, hSeven, decide_eq_true hLow, decide_eq_true (show 11 + i < 16 by omega), decide_eq_false (show ¬11 + i < 11 by omega)]
      simp
    · rw [decide_eq_false hLow, Bool.and_false, Bool.and_false]
  have hNat : (BitVec.ofNat 16 t &&& 7).toNat = t % 2 ^ 16 % 2 ^ 3 := Nat.and_two_pow_sub_one_eq_mod _ 3
  rw [X87.top, hField, hNat]
  omega

theorem tagAt_setTag (x : X87) (hp : p < 8) (hj : j < 8) (tag : U16) : tagAt (fpuSetTag x p tag).tw j = if j = p then tag &&& 0b11 else tagAt x.tw j := by
  have hThree : ∀ k, (3 : U16).getLsbD k = decide (k < 2) := by
    intro k
    rw [show (3 : U16) = BitVec.ofNat 16 (2 ^ 2 - 1) by decide, BitVec.getLsbD_ofNat, Nat.testBit_two_pow_sub_one]
    by_cases hk : k < 2
    · rw [decide_eq_true hk, decide_eq_true (show k < 16 by omega)]
      rfl
    · rw [decide_eq_false hk, Bool.and_false]
  apply BitVec.eq_of_getLsbD_eq
  intro i _
  unfold fpuSetTag tagAt
  dsimp only
  rw [BitVec.getLsbD_and, BitVec.getLsbD_ushiftRight, BitVec.getLsbD_or, BitVec.getLsbD_and, BitVec.getLsbD_not, BitVec.getLsbD_shiftLeft,
    BitVec.getLsbD_shiftLeft, hThree, hThree]
  by_cases hi : i < 2
  · rw [decide_eq_true (show j * 2 + i < 16 by omega)]
    split
    · rename_i hSame
      subst hSame
      rw [Nat.add_sub_cancel_left, decide_eq_true hi, decide_eq_false (show ¬j * 2 + i < j * 2 by omega)]
      simp
    · rename_i hOther
      have hApart : (!decide (j * 2 + i < p * 2) && decide (j * 2 + i - p * 2 < 2)) = false := by
        rw [Bool.and_eq_false_iff, Bool.not_eq_false', decide_eq_true_iff, decide_eq_false_iff_not]
        omega
      rw [BitVec.getLsbD_and, hThree, BitVec.getLsbD_and, hThree, BitVec.getLsbD_ushiftRight, decide_eq_true hi, Bool.true_and, Bool.true_and, hApart,
        Bool.and_comm (tag.getLsbD _), ← Bool.and_assoc (!decide _), hApart]
      simp
  · rw [decide_eq_false hi, Bool.and_false]
    split
    · rw [BitVec.getLsbD_and, hThree, decide_eq_false hi, Bool.and_false]
    · rw [BitVec.getLsbD_and, hThree, decide_eq_false hi, Bool.and_false]

theorem fpuRead_push (x : X87) (hv : v.toNat < 2 ^ 80) : fpuRead (fpuPush x v) 0 = extToF64 v := by
  have hTop : (fpuPush x v).top = (x.top + 7) % 8 := top_setTop x (Nat.mod_lt _ (by decide))
  have hMask : v &&& (((1 : U128) <<< 80) - 1) = v := by
    apply BitVec.eq_of_toNat_eq
    have hAnd : (v &&& (((1 : U128) <<< 80) - 1)).toNat = v.toNat % 2 ^ 80 := Nat.and_two_pow_sub_one_eq_mod v.toNat 80
    rw [hAnd, Nat.mod_eq_of_lt hv]
  have hPhys : (fpuPush x v).phys 0 = Fin.ofNat 8 ((x.top + 7) % 8) := by
    rw [X87.phys, hTop, Nat.add_zero]
  rw [fpuRead, hPhys]
  unfold fpuPush fpuSetTag
  dsimp only
  rw [hMask, Function.update_self]

end Stack

/-! ## Integers as doubles -/

def nearestInt (n : Int) : Int := if n < 0 then -(Binary.significant 52 n.natAbs : Int) else Binary.significant 52 n.natAbs

section Integers

variable {n : Int} {x : U64}

structure IsWhole (x : U64) (n : Int) (a : Nat) : Prop where
  finite : Double.isFinite x = true
  units : units 52 (magnitude x) = a * 2 ^ 1074
  value : (if x.msb then -(a : Int) else a) = n
  zero : n = 0 → x.msb = false

variable {a : Nat}

theorem encode_natAbs {k : Nat} (ha : a ≤ 2 ^ 63) (hk : 63 + k < 2098) :
    encode 0 (a * 2 ^ k) = Binary.round 52 0 (a * 2 ^ k) ∧ encode 0 (a * 2 ^ k) < Double.top := by
  have hLe : a * 2 ^ k ≤ 2 ^ (63 + k + 0) := by
    rw [Nat.add_zero, Nat.pow_add]
    exact Nat.mul_le_mul_right _ ha
  have hRound := (Binary.round_le_power (p := 52) (by decide) hLe).trans_lt (power_lt_top hk)
  unfold encode
  rw [Nat.min_eq_left hRound.le]
  exact ⟨rfl, hRound⟩

theorem ofInt_whole (hn : n.natAbs ≤ 2 ^ 63) : IsWhole (Double.ofInt n) (nearestInt n) (Binary.significant 52 n.natAbs) := by
  obtain ⟨hRound, hTop⟩ := encode_natAbs (k := 1074) hn (by decide)
  obtain ⟨hSign, hMag⟩ := Double.parts (hTop.trans Double.top_lt) (decide (n < 0))
  have hUnits := Binary.units_round_significant 52 n.natAbs 1074
  refine ⟨?_, ?_, ?_, fun hZero => ?_⟩
  · rw [Double.isFinite, Double.ofInt, hMag]
    exact decide_eq_true hTop
  · rw [Double.ofInt, hMag, hRound, hUnits]
  · rw [Double.ofInt, hSign, nearestInt]
    simp only [decide_eq_true_eq]
  · rw [Double.ofInt, hSign, decide_eq_false_iff_not]
    intro hNeg
    have hPositive : ∀ k, 2 ^ 0 ≤ n.natAbs * 2 ^ k := fun k => Nat.mul_pos (by omega) (Nat.two_pow_pos k)
    have hSome := Binary.units_strictMono 52 (Binary.round_pos (p := 52) (by decide) (hPositive 1074))
    rw [nearestInt, if_pos hNeg] at hZero
    rw [hUnits, show Binary.significant 52 n.natAbs = 0 by omega, Nat.zero_mul] at hSome
    exact absurd hSome (Nat.not_lt_zero _)

theorem toIntegral_whole (h : IsWhole x n a) {f : Bool → Nat → Nat → Nat} (hf : f x.msb a 0 = a) : Double.toIntegral f x = x := by
  have hPos := Nat.two_pow_pos 1074
  have hTop : magnitude x ≤ Double.top := (of_decide_eq_true h.finite : magnitude x < Double.top).le
  have hEncode := Double.encode_units hTop 0
  rw [Nat.pow_zero, Nat.mul_one, h.units] at hEncode
  rw [Double.toIntegral, if_pos h.finite, h.units, Nat.mul_div_cancel _ hPos, Nat.mul_mod_left, hf, hEncode, Double.ofParts_self]

theorem not_half (k : Nat) : ¬2 ^ k ≤ 2 * 0 := Nat.not_le.mpr (Nat.two_pow_pos k)

theorem eq_zero_of_mul_pow {k : Nat} (h : a * 2 ^ k = 0) : a = 0 := (Nat.mul_eq_zero.mp h).resolve_right (Nat.two_pow_pos k).ne'

theorem floor_whole (h : IsWhole x n a) : Double.floor x = x := toIntegral_whole h (if_neg fun h => h.2 rfl)

theorem ceil_whole (h : IsWhole x n a) : Double.ceil x = x := toIntegral_whole h (if_neg fun h => h.2 rfl)

theorem trunc_whole (h : IsWhole x n a) : Double.trunc x = x := toIntegral_whole h rfl

theorem roundAway_whole (h : IsWhole x n a) : Double.roundAway x = x :=
  toIntegral_whole h (if_neg (not_half 1074))

theorem sub_self (h : Double.isFinite x = true) : Double.sub x x = 0 := by
  have hTop : magnitude x < Double.top := of_decide_eq_true h
  obtain ⟨hSign, hMag⟩ := Double.parts (hTop.trans Double.top_lt) (!x.msb)
  have hValue : Double.value x + Double.value (Double.neg x) = 0 := by
    rw [Double.value, Double.value, Double.neg, hSign, hMag]
    cases x.msb <;> simp
  unfold Double.sub Double.add Double.isNan Double.isInfinite
  rw [hValue, Double.neg, hSign, hMag, decide_eq_false hTop.le.not_gt, decide_eq_false hTop.ne, Int.natAbs_zero, Double.encode_zero]
  cases x.msb <;> rfl

theorem roundHalfEven_whole (h : IsWhole x n a) : roundHalfEven x = x := by
  have hNot : Double.eq (Double.abs 0) 0x3FE0000000000000 = false := by decide +kernel
  unfold roundHalfEven
  rw [trunc_whole h, sub_self h.finite, hNot, if_neg Bool.false_ne_true, roundAway_whole h]

theorem fpuRoundInt_whole (h : IsWhole x n a) (cw : U16) : fpuRoundInt cw x = x := by
  have hMode : (if (cw >>> 10) &&& 3 = 0 then roundHalfEven x else if (cw >>> 10) &&& 3 = 1 then Double.floor x else if (cw >>> 10) &&& 3 = 2 then Double.ceil x
      else Double.trunc x) = x := by
    split_ifs
    · exact roundHalfEven_whole h
    · exact floor_whole h
    · exact ceil_whole h
    · exact trunc_whole h
  unfold fpuRoundInt
  dsimp only
  rw [if_neg (not_not.mpr h.finite), hMode, if_neg]
  rintro ⟨hZero, hSign⟩
  have hValue : Double.value x = Double.value 0 := by
    rw [Double.eq, Bool.and_eq_true, Bool.and_eq_true, decide_eq_true_iff] at hZero
    exact hZero.2
  have hNone : n = 0 := by
    rw [show Double.value 0 = 0 by decide, Double.value, if_pos hSign, h.units] at hValue
    have hUnits : a * 2 ^ 1074 = 0 := by omega
    rw [← h.value, if_pos hSign, eq_zero_of_mul_pow hUnits]
    rfl
  exact absurd (hSign.symm.trans (h.zero hNone)) (by decide)

theorem lt_whole {x' : U64} {n' : Int} {a' : Nat} (h : IsWhole x n a) (h' : IsWhole x' n' a') : Double.lt x x' = decide (n < n') := by
  have hValue : ∀ {x : U64} {n : Int} {a : Nat}, IsWhole x n a → Double.value x = n * ((2 ^ 1074 : Nat) : Int) := by
    intro x n a h
    rw [Double.value, h.units, ← h.value]
    split
    · rw [Int.neg_mul, Int.natCast_mul]
    · rw [Int.natCast_mul]
  have hNumber : ∀ {x : U64} {n : Int} {a : Nat}, IsWhole x n a → Double.isNan x = false := by
    intro x n a h
    have hTop : magnitude x < Double.top := of_decide_eq_true h.finite
    exact decide_eq_false hTop.le.not_gt
  rw [Double.lt, hNumber h, hNumber h', hValue h, hValue h']
  have hPos : ∀ k, (0 : Int) < ((2 ^ k : Nat) : Int) := fun k => Int.natCast_pos.mpr (Nat.two_pow_pos k)
  exact decide_eq_decide.mpr (Int.mul_lt_mul_right (hPos 1074))

theorem significant_le (ha : a ≤ 2 ^ 63) : Binary.significant 52 a ≤ 2 ^ 63 := by
  have hUnits := Binary.units_round_significant 52 a 0
  have hRound := (Binary.units_strictMono 52).monotone (Binary.round_le_power (p := 52) (k := 0) (v := a * 2 ^ 0) (j := 63) (by decide) (by omega))
  rw [hUnits, Binary.units_power, Nat.pow_zero, Nat.mul_one] at hRound
  exact hRound

theorem toSignedInt_whole (hn : n.natAbs ≤ 2 ^ 63) (cw : U16) (trunc : Bool) :
    BitVec.ofInt 64 (toSignedInt cw (Double.ofInt n) 8 trunc) = BitVec.ofInt 64 (nearestInt n) := by
  have hWhole := ofInt_whole hn
  have hLow := ofInt_whole (n := -2 ^ 63) (by decide)
  have hHigh := ofInt_whole (n := 2 ^ 63) (by decide)
  have hRounded : (if trunc = true then Double.trunc (Double.ofInt n) else fpuRoundInt cw (Double.ofInt n)) = Double.ofInt n := by
    split
    · exact trunc_whole hWhole
    · exact fpuRoundInt_whole hWhole cw
  have hRange := significant_le hn
  have hInRange : -2 ^ 63 ≤ nearestInt n ∧ nearestInt n ≤ 2 ^ 63 := by
    unfold nearestInt
    split <;> omega
  have hBelow : Double.lt (Double.ofInt n) (Double.ofInt (-2 ^ 63)) = false := by
    rw [lt_whole hWhole hLow, show nearestInt (-2 ^ 63) = -2 ^ 63 by decide]
    exact decide_eq_false (by omega)
  have hAbove : Double.lt (Double.ofInt n) (Double.ofInt (2 ^ 63)) = decide (nearestInt n < 2 ^ 63) := by
    rw [lt_whole hWhole hHigh, show nearestInt (2 ^ 63) = 2 ^ 63 by decide]
  have hInt : nearestInt n < 2 ^ 63 → Double.toInt64 (Double.ofInt n) = nearestInt n := by
    intro hLess
    have hTop : magnitude (Double.ofInt n) < Double.top := of_decide_eq_true hWhole.finite
    rw [Double.toInt64, Double.isNan, decide_eq_false hTop.le.not_gt, if_neg Bool.false_ne_true, hWhole.units, Nat.mul_div_cancel _ (Nat.two_pow_pos 1074), hWhole.value]
    omega
  unfold toSignedInt
  rw [hRounded]
  change BitVec.ofInt 64 (if ¬Double.isFinite (Double.ofInt n) = true then -2 ^ 63
    else if Double.lt (Double.ofInt n) (Double.ofInt (-2 ^ 63)) = true ∨ ¬Double.lt (Double.ofInt n) (Double.ofInt (2 ^ 63)) = true then -2 ^ 63
      else Double.toInt64 (Double.ofInt n)) = _
  rw [if_neg (not_not.mpr hWhole.finite), hBelow, hAbove]
  rcases Int.lt_or_eq_of_le hInRange.2 with hLess | hFull
  · have hNumber : ¬(false = true ∨ ¬decide (nearestInt n < 2 ^ 63) = true) := by
      rintro (h | h)
      · exact Bool.false_ne_true h
      · exact h (decide_eq_true hLess)
    rw [if_neg hNumber, hInt hLess]
  · have hOver : false = true ∨ ¬decide (nearestInt n < 2 ^ 63) = true := .inr fun h => absurd (of_decide_eq_true h) (by omega)
    rw [if_pos hOver, hFull]
    decide

theorem ofInt_back (hn : n.natAbs ≤ 2 ^ 63) : ∃ v, f64ToExt (Double.ofInt n) = some v ∧ v.toNat < 2 ^ 80 ∧ extToF64 v = Double.ofInt n := by
  obtain ⟨hRound, hTop⟩ := encode_natAbs (k := 1074) hn (by decide)
  obtain ⟨-, hMag⟩ := Double.parts (hTop.trans Double.top_lt) (decide (n < 0))
  have hTopParts : Double.top = 2047 * 2 ^ 52 := by decide
  refine f64ToExt_back ?_
  rw [Double.ofInt, hMag]
  rcases Nat.eq_zero_or_pos n.natAbs with hZero | hPos
  · rw [hZero, Nat.zero_mul, Double.encode_zero]
    exact .inl rfl
  · have hPositive : ∀ k, 2 ^ (k + 0) ≤ n.natAbs * 2 ^ k := fun k => Nat.le_mul_of_pos_left _ hPos
    have hLow := Binary.power_le_round (p := 52) (by decide) (hPositive 1074)
    rw [← hRound, show power 52 1074 = 1023 * 2 ^ 52 by decide] at hLow
    rw [hTopParts] at hTop
    exact .inr (by omega)

end Integers

/-! ## The run -/

theorem copied_tags (x : X87) (v : U128) {j : Nat} (hj : j < 8) :
    (fpuPop (fpuPush x v)).top = x.top ∧ tagAt (fpuPop (fpuPush x v)).tw j = if j = (x.top + 7) % 8 then 0b11 else tagAt x.tw j := by
  have hLt := top_lt x
  have hTop : (fpuPush x v).top = (x.top + 7) % 8 := top_setTop x (Nat.mod_lt _ (by decide))
  constructor
  · rw [fpuPop, top_setTop _ (Nat.mod_lt _ (by decide)), hTop]
    omega
  · change tagAt (fpuSetTag (fpuPush x v) (fpuPush x v).top 0b11).tw j = _
    rw [tagAt_setTag _ (by rw [hTop]; omega) hj, hTop]
    split
    · rfl
    · rename_i hOther
      change tagAt (fpuSetTag _ ((x.top + 7) % 8) _).tw j = _
      rw [tagAt_setTag _ (by omega) hj, if_neg hOther]
      rfl

/-- FILD and FISTP copy an integer with 53 significant bits of it. TOP comes back, and so do the tags, but for that of the register below the
top, which is empty then. -/
theorem fildFistp_copies (m : Machine) (src dst n : U64) (mem : VirtualMemory) (hRead : m.mem.readUint src 8 = .ok n)
    (hWrite : m.mem.writeUint dst 8 (BitVec.ofInt 64 (nearestInt n.toInt)) = .ok mem) :
    (∃ x : X87, fildFistp src dst m = some (.ok (), { state := { m.state with x87 := x }, mem }) ∧ x.top = m.state.x87.top ∧
      ∀ j < 8, tagAt x.tw j = if j = (m.state.x87.top + 7) % 8 then 0b11 else tagAt m.state.x87.tw j) ∧
    (BitVec.ofInt 64 (nearestInt n.toInt) = n ↔ ∃ q k, n.toInt.natAbs = q * 2 ^ k ∧ q < 2 ^ 53) := by
  have hRange : n.toInt.natAbs ≤ 2 ^ 63 := by
    have hLow := BitVec.le_toInt n
    have hHigh := BitVec.toInt_lt (x := n)
    omega
  obtain ⟨v, hExt, hWidth, hBack⟩ := ofInt_back hRange
  constructor
  · refine ⟨fpuPop (fpuPush m.state.x87 v), ?_, (copied_tags m.state.x87 v (show 0 < 8 by decide)).1, fun j hj => (copied_tags m.state.x87 v hj).2⟩
    have hLoad : x87MemFormDF 5 src m = some (.ok (), { m with state := { m.state with x87 := fpuPush m.state.x87 v } }) := by
      have hHere : readUint src 8 m = some (.ok n, m) := Fallible.step_of_ok (by rw [hRead]; rfl)
      have hPush : fpuPushF64 m.state.x87 (Double.ofInt n.toInt) = some (fpuPush m.state.x87 v) := by rw [fpuPushF64, hExt, Option.map_some]
      change (readUint src 8 >>= _) m = _
      rw [Fallible.bind_of_ok hHere]
      exact Fallible.step_of_ok (by rw [hPush]; rfl)
    have hStore : x87MemFormDF 7 dst { m with state := { m.state with x87 := fpuPush m.state.x87 v } } =
        some (.ok (), { state := { m.state with x87 := fpuPop (fpuPush m.state.x87 v) }, mem }) := by
      have hThere : writeUint dst 8 (BitVec.ofInt 64 (toSignedInt (fpuPush m.state.x87 v).cw (fpuRead (fpuPush m.state.x87 v) 0) 8 false))
          { m with state := { m.state with x87 := fpuPush m.state.x87 v } } = some (.ok (), { state := { m.state with x87 := fpuPush m.state.x87 v }, mem }) := by
        rw [fpuRead_push _ hWidth, hBack, toSignedInt_whole hRange]
        exact Fallible.step_of_ok (by rw [hWrite]; rfl)
      change (writeUint dst 8 _ >>= fun _ => onState _) _ = _
      rw [Fallible.bind_of_ok hThere]
      rfl
    unfold fildFistp
    rw [Fallible.bind_of_ok hLoad, hStore]
  · rw [← Binary.significant_iff 52]
    have hSmall := significant_le hRange
    have hLow := BitVec.le_toInt n
    have hHigh := BitVec.toInt_lt (x := n)
    constructor
    · intro hSame
      have hInt := congrArg BitVec.toInt hSame
      rw [BitVec.toInt_ofInt, nearestInt, Int.bmod] at hInt
      split at hInt <;> split at hInt <;> omega
    · intro hSame
      have hInt : nearestInt n.toInt = n.toInt := by
        rw [nearestInt, hSame]
        split <;> omega
      rw [hInt, BitVec.ofInt_toInt]

/-- The number 5 is copied from `0x1800` to `0x1000`. -/
theorem fildFistp_copies_five : ∃ mem, fiveAt.writeUint 0x1000 8 (BitVec.ofInt 64 (nearestInt 5)) = .ok mem ∧
    (∃ x : X87, fildFistp 0x1800 0x1000 { state := {}, mem := fiveAt } = some (.ok (), { state := { x87 := x }, mem }) ∧ x.top = 0 ∧
      ∀ j < 8, tagAt x.tw j = if j = 7 then 0b11 else tagAt 0xFFFF j) ∧
    (BitVec.ofInt 64 (nearestInt 5) = (5 : U64) ↔ ∃ q k, 5 = q * 2 ^ k ∧ q < 2 ^ 53) := by
  have hRead : fiveAt.readUint 0x1800 8 = .ok 5 := by decide
  have hSome : (fiveAt.writeUint 0x1000 8 (BitVec.ofInt 64 (nearestInt 5))).toOption.isSome = true := by decide
  cases hWrite : fiveAt.writeUint 0x1000 8 (BitVec.ofInt 64 (nearestInt 5)) with
  | error e =>
    rw [hWrite] at hSome
    cases hSome
  | ok mem => exact ⟨mem, rfl, fildFistp_copies { state := {}, mem := fiveAt } 0x1800 0x1000 5 mem hRead hWrite⟩

/-- `2 ^ 53 + 1` at `0x1000`. -/
def oddAt : VirtualMemory := (onePage.writeUint 0x1000 8 0x20000000000001).toOption.getD .new

theorem fildFistp_of_odd : oddAt.readUint 0x1000 8 = .ok 0x20000000000001 ∧
    ((fildFistp 0x1000 0x1100 { state := {}, mem := oddAt }).bind fun r => (r.2.mem.readUint 0x1100 8).toOption) = some 0x20000000000000 := by
  constructor <;> decide +kernel

end Interp

end Exemu
