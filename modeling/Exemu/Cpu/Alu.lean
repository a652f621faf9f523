import Exemu.Core.Cpu
import Exemu.Memory.Virtual
import Mathlib.Tactic.NormNum
import Mathlib.Tactic.Positivity

/-! # Sums and differences of the interpreter

The carries, the overflow and the adjust flag come out of XORs of the operands and the result.
-/
namespace Exemu

namespace Interp

open VirtualMemory (isUintSize)
open BitVec hiding not_or or_assoc

def signBit (size : Nat) : U64 := 1 <<< (size * 8 - 1)

def sext (v : U64) (size : Nat) : U64 :=
  match size with
  | 1 => (v.setWidth 8).signExtend 64
  | 2 => (v.setWidth 16).signExtend 64
  | 4 => (v.setWidth 32).signExtend 64
  | _ => v

/-- `(v as u8).count_ones()` -/
def countOnes (v : U64) : Nat := (List.range 8).countP fun i => v.getLsbD i

def parity (v : U64) : Bool := countOnes v % 2 == 0

def setSzp (s : CpuState) (res : U64) (size : Nat) : CpuState :=
  let r := res &&& mask size
  ((s.setFlag flags.ZF (r == 0)).setFlag flags.SF (r &&& signBit size != 0)).setFlag flags.PF (parity r)

def add (s : CpuState) (a b carryIn : U64) (size : Nat) : CpuState × U64 :=
  let m := mask size
  let a := a &&& m
  let b := b &&& m
  let full : U128 := a.setWidth 128 + b.setWidth 128 + carryIn.setWidth 128
  let res := full.setWidth 64 &&& m
  let s := s.setFlag flags.CF ((full >>> (size * 8)) &&& 1 != 0)
  let s := s.setFlag flags.AF ((a ^^^ b ^^^ res) &&& 0x10 != 0)
  let s := s.setFlag flags.OF ((~~~(a ^^^ b) &&& (a ^^^ res)) &&& signBit size != 0)
  (setSzp s res size, res)

def sub (s : CpuState) (a b borrowIn : U64) (size : Nat) : CpuState × U64 :=
  let m := mask size
  let a := a &&& m
  let b := b &&& m
  let rhs : U128 := b.setWidth 128 + borrowIn.setWidth 128
  let s := s.setFlag flags.CF ((a.setWidth 128).ult rhs)
  let res := (a - b - borrowIn) &&& m
  let s := s.setFlag flags.AF ((a ^^^ b ^^^ res) &&& 0x10 != 0)
  let s := s.setFlag flags.OF (((a ^^^ b) &&& (a ^^^ res)) &&& signBit size != 0)
  (setSzp s res size, res)

def inc (s : CpuState) (a : U64) (size : Nat) : CpuState × U64 :=
  let cf := s.flag flags.CF
  let (s, r) := add s a 1 0 size
  (s.setFlag flags.CF cf, r)

def dec (s : CpuState) (a : U64) (size : Nat) : CpuState × U64 :=
  let cf := s.flag flags.CF
  let (s, r) := sub s a 1 0 size
  (s.setFlag flags.CF cf, r)

/-! ## Flags by their number -/

section Flags

variable {s : CpuState} {k i : Nat} {on : Bool}

theorem and_twoPow_ne_zero {w : Nat} (v : BitVec w) (hk : k < w) : (v &&& BitVec.twoPow w k != 0) = v.getLsbD k := by
  rw [and_twoPow]
  cases hOn : v.getLsbD k with
  | false =>
    rw [if_neg (by decide)]
    simp
  | true =>
    rw [if_pos rfl, bne, Bool.not_eq_true', beq_eq_false_iff_ne]
    intro hZero
    have hSet := congrArg (fun w : BitVec w => w.getLsbD k) hZero
    rw [getLsbD_twoPow] at hSet
    simp [hk] at hSet

theorem carried {w : Nat} (v : BitVec w) (hw : 0 < w) (k : Nat) : (v >>> k &&& 1 != 0) = v.getLsbD k := by
  rw [show (1 : BitVec w) = BitVec.twoPow w 0 from BitVec.twoPow_zero.symm, and_twoPow_ne_zero _ hw, getLsbD_ushiftRight, Nat.add_zero]

theorem flag_eq (s : CpuState) (hk : k < 64) : s.flag (BitVec.twoPow 64 k) = s.rflags.getLsbD k := and_twoPow_ne_zero s.rflags hk

/-- The value with one bit put to `b`. -/
def putBit {w : Nat} (v : BitVec w) (k : Nat) (b : Bool) : BitVec w := if b then v ||| BitVec.twoPow w k else v &&& ~~~BitVec.twoPow w k

theorem getLsbD_putBit {w : Nat} (v : BitVec w) (b : Bool) (hi : i < w) : (putBit v k b).getLsbD i = if i = k then b else v.getLsbD i := by
  have hOne : (BitVec.twoPow w k).getLsbD i = decide (k = i) := by
    rw [getLsbD_twoPow]
    by_cases hSame : k = i
    · simp [hSame, hi]
    · simp [hSame]
  unfold putBit
  cases b with
  | true =>
    rw [if_pos rfl, getLsbD_or, hOne]
    split <;> simp_all [eq_comm]
  | false =>
    rw [if_neg (by decide), getLsbD_and, getLsbD_not, hOne]
    split <;> simp_all [eq_comm]

theorem getLsbD_setFlag (s : CpuState) (on : Bool) (hi : i < 64) :
    (s.setFlag (BitVec.twoPow 64 k) on).rflags.getLsbD i = if i = k then on else s.rflags.getLsbD i := getLsbD_putBit s.rflags on hi

theorem flag_setFlag {j : Nat} (s : CpuState) (on : Bool) (hj : j < 64) :
    (s.setFlag (BitVec.twoPow 64 k) on).flag (BitVec.twoPow 64 j) = if j = k then on else s.flag (BitVec.twoPow 64 j) := by
  rw [flag_eq _ hj, flag_eq _ hj, getLsbD_setFlag s on hj]

theorem setFlag_gpr (s : CpuState) (k : U64) (on : Bool) : (s.setFlag k on).gpr = s.gpr := rfl
theorem setFlag_rip (s : CpuState) (k : U64) (on : Bool) : (s.setFlag k on).rip = s.rip := rfl

theorem sub_gpr (s : CpuState) (a b c : U64) (size : Nat) : (sub s a b c size).1.gpr = s.gpr := by
  simp only [sub, setSzp, setFlag_gpr]

theorem sub_rip (s : CpuState) (a b c : U64) (size : Nat) : (sub s a b c size).1.rip = s.rip := by
  simp only [sub, setSzp, setFlag_rip]

theorem cf_eq : flags.CF = BitVec.twoPow 64 0 := by decide
theorem pf_eq : flags.PF = BitVec.twoPow 64 2 := by decide
theorem af_eq : flags.AF = BitVec.twoPow 64 4 := by decide
theorem zf_eq : flags.ZF = BitVec.twoPow 64 6 := by decide
theorem sf_eq : flags.SF = BitVec.twoPow 64 7 := by decide
theorem of_eq : flags.OF = BitVec.twoPow 64 11 := by decide

end Flags

def ARITHMETIC : List Nat := [0, 2, 4, 6, 7, 11]

/-- The result is in range, the flags are set by it and by these, and all else is as it was. -/
structure Sets (s s' : CpuState) (size : Nat) (r : U64) (cf af of : Prop) : Prop where
  range : r.toNat < 2 ^ (8 * size)
  rest : s' = { s with rflags := s'.rflags }
  kept : ∀ i, i < 64 → i ∉ ARITHMETIC → s'.rflags.getLsbD i = s.rflags.getLsbD i
  cf : s'.flag flags.CF = true ↔ cf
  af : s'.flag flags.AF = true ↔ af
  of : s'.flag flags.OF = true ↔ of
  zf : s'.flag flags.ZF = true ↔ r = 0
  sf : s'.flag flags.SF = true ↔ 2 ^ (8 * size - 1) ≤ r.toNat
  pf : s'.flag flags.PF = true ↔ Even (countOnes r)

def unsigned (size : Nat) (v : U64) : Nat := v.toNat % 2 ^ (8 * size)

def signed (size : Nat) (v : U64) : Int := (v.setWidth (8 * size)).toInt

def Overflows (size : Nat) (n : Int) : Prop := n < -2 ^ (8 * size - 1) ∨ 2 ^ (8 * size - 1) ≤ n

section Sizes

variable {size : Nat}

theorem isUintSize_iff : isUintSize size = true ↔ size = 1 ∨ size = 2 ∨ size = 4 ∨ size = 8 := by
  simp [isUintSize, or_assoc]

variable (v : U64)

theorem toNat_and_mask (hSize : isUintSize size = true) : (v &&& mask size).toNat = unsigned size v := by
  have hMask : (mask size).toNat = 2 ^ (8 * size) - 1 := by
    rcases isUintSize_iff.mp hSize with rfl | rfl | rfl | rfl <;> decide
  rw [toNat_and, hMask, Nat.and_two_pow_sub_one_eq_mod, unsigned]

theorem unsigned_lt (size : Nat) (v : U64) : unsigned size v < 2 ^ (8 * size) := Nat.mod_lt _ (by positivity)

theorem signed_eq (hSize : isUintSize size = true) :
    signed size v = if unsigned size v < 2 ^ (8 * size - 1) then (unsigned size v : Int) else unsigned size v - 2 ^ (8 * size) := by
  unfold signed unsigned
  rw [toInt_eq_toNat_cond, toNat_setWidth]
  rcases isUintSize_iff.mp hSize with rfl | rfl | rfl | rfl <;> norm_num <;> split <;> split <;> omega

theorem getLsbD_toNat (k : Nat) : v.getLsbD k = decide (v.toNat / 2 ^ k % 2 = 1) := Nat.testBit_eq_decide_div_mod_eq

theorem signBit_eq (hSize : isUintSize size = true) : signBit size = BitVec.twoPow 64 (8 * size - 1) := by
  rcases isUintSize_iff.mp hSize with rfl | rfl | rfl | rfl <;> decide

theorem sign_lt (hSize : isUintSize size = true) : 8 * size - 1 < 64 := by
  rcases isUintSize_iff.mp hSize with rfl | rfl | rfl | rfl <;> decide

theorem signBit_ne_zero (hSize : isUintSize size = true) : (v &&& signBit size != 0) = v.getLsbD (8 * size - 1) := by
  rw [signBit_eq hSize, and_twoPow_ne_zero _ (sign_lt hSize)]

theorem sign_of_lt {v : U64} (hSize : isUintSize size = true) (hRange : v.toNat < 2 ^ (8 * size)) :
    v.getLsbD (8 * size - 1) = decide (2 ^ (8 * size - 1) ≤ v.toNat) := by
  rw [getLsbD_toNat, decide_eq_decide]
  rcases isUintSize_iff.mp hSize with rfl | rfl | rfl | rfl <;> norm_num at hRange ⊢ <;> omega

end Sizes

section Results

variable {size : Nat} {s : CpuState} {r : U64}

theorem setSzp_sets (hSize : isUintSize size = true) (hRange : r.toNat < 2 ^ (8 * size)) (cf af of : Bool) :
    Sets s (setSzp (((s.setFlag flags.CF cf).setFlag flags.AF af).setFlag flags.OF of) r size) size r (cf = true) (af = true) (of = true) := by
  have hMasked : r &&& mask size = r := eq_of_toNat_eq (by rw [toNat_and_mask r hSize, unsigned, Nat.mod_eq_of_lt hRange])
  have hSign : (r &&& signBit size != 0) = decide (2 ^ (8 * size - 1) ≤ r.toNat) := by
    rw [signBit_ne_zero r hSize, sign_of_lt hSize hRange]
  have hParity : parity r = decide (Even (countOnes r)) := by
    unfold parity
    rw [Bool.eq_iff_iff, beq_iff_eq, decide_eq_true_iff, Nat.even_iff]
  unfold setSzp
  dsimp only
  rw [hMasked, hSign, hParity]
  refine ⟨hRange, rfl, fun i hi hOut => ?_, ?_, ?_, ?_, ?_, ?_, ?_⟩
  · simp only [ARITHMETIC, List.mem_cons, List.not_mem_nil, or_false, not_or] at hOut
    simp only [cf_eq, pf_eq, af_eq, zf_eq, sf_eq, of_eq]
    simp only [getLsbD_setFlag _ _ hi, hOut, if_false]
  all_goals
    simp only [cf_eq, pf_eq, af_eq, zf_eq, sf_eq, of_eq]
    simp [flag_setFlag]

theorem Sets.congr {s' : CpuState} {cf af of cf' af' of' : Prop} (h : Sets s s' size r cf af of) (hCf : cf ↔ cf') (hAf : af ↔ af')
    (hOf : of ↔ of') : Sets s s' size r cf' af' of' := by
  rw [hCf, hAf, hOf] at h
  exact h

theorem Sets.keepCarry {s' : CpuState} {cf af of : Prop} (h : Sets s s' size r cf af of) (c : Bool) :
    Sets s (s'.setFlag flags.CF c) size r (c = true) af of where
  range := h.range
  rest := by rw [h.rest]; rfl
  kept i hi hOut := by
    have hKept := h.kept i hi hOut
    simp only [ARITHMETIC, List.mem_cons, List.not_mem_nil, or_false, not_or] at hOut
    rw [cf_eq, getLsbD_setFlag _ _ hi, if_neg hOut.1, hKept]
  cf := by
    rw [cf_eq, flag_setFlag _ _ (by decide), if_pos rfl]
  af := by
    have hAf := h.af
    rw [af_eq] at hAf ⊢
    rw [cf_eq, flag_setFlag _ _ (by decide), if_neg (by decide), hAf]
  of := by
    have hOf := h.of
    rw [of_eq] at hOf ⊢
    rw [cf_eq, flag_setFlag _ _ (by decide), if_neg (by decide), hOf]
  zf := by
    have hZf := h.zf
    rw [zf_eq] at hZf ⊢
    rw [cf_eq, flag_setFlag _ _ (by decide), if_neg (by decide), hZf]
  sf := by
    have hSf := h.sf
    rw [sf_eq] at hSf ⊢
    rw [cf_eq, flag_setFlag _ _ (by decide), if_neg (by decide), hSf]
  pf := by
    have hPf := h.pf
    rw [pf_eq] at hPf ⊢
    rw [cf_eq, flag_setFlag _ _ (by decide), if_neg (by decide), hPf]

/-- `carry_in` of the callers, which pass a flag. -/
def carryOf (c : Bool) : U64 := if c then 1 else 0

theorem toNat_carryOf (c : Bool) : (carryOf c).toNat = c.toNat := by cases c <;> rfl

/-! ## Sums of bits -/

theorem xor_odd (x y : Nat) : (decide (x % 2 = 1) ^^ decide (y % 2 = 1)) = decide ((x + y) % 2 = 1) := by
  rcases Nat.mod_two_eq_zero_or_one x with hx | hx <;> rcases Nat.mod_two_eq_zero_or_one y with hy | hy <;>
    simp [hx, hy, Nat.add_mod]

theorem adjust_eq (a b r : U64) : ((a ^^^ b ^^^ r) &&& 0x10 != 0) = decide ((a.toNat / 16 + b.toNat / 16 + r.toNat / 16) % 2 = 1) := by
  rw [show (0x10 : U64) = BitVec.twoPow 64 4 by decide, and_twoPow_ne_zero _ (by decide), getLsbD_xor, getLsbD_xor,
    getLsbD_toNat, getLsbD_toNat, getLsbD_toNat, xor_odd, xor_odd]
  rfl

theorem overflow_add {h a b c r : Nat} (ha : a < 2 * h) (hb : b < 2 * h) (hr : r < 2 * h) (hc : c ≤ 1)
    (hSum : a + b + c = r ∨ a + b + c = r + 2 * h) :
    (!(decide (h ≤ a) ^^ decide (h ≤ b)) && (decide (h ≤ a) ^^ decide (h ≤ r))) = true ↔
      ((if a < h then (a : Int) else a - 2 * h) + (if b < h then (b : Int) else b - 2 * h) + c < -h ∨
        (h : Int) ≤ (if a < h then (a : Int) else a - 2 * h) + (if b < h then (b : Int) else b - 2 * h) + c) := by
  by_cases hA : h ≤ a <;> by_cases hB : h ≤ b <;> by_cases hR : h ≤ r <;> simp [hA, hB, hR, ← Nat.not_le] <;> omega

theorem overflow_sub {h a b c r : Nat} (ha : a < 2 * h) (hb : b < 2 * h) (hr : r < 2 * h) (hc : c ≤ 1)
    (hSum : r + b + c = a ∨ r + b + c = a + 2 * h) :
    ((decide (h ≤ a) ^^ decide (h ≤ b)) && (decide (h ≤ a) ^^ decide (h ≤ r))) = true ↔
      ((if a < h then (a : Int) else a - 2 * h) - (if b < h then (b : Int) else b - 2 * h) - c < -h ∨
        (h : Int) ≤ (if a < h then (a : Int) else a - 2 * h) - (if b < h then (b : Int) else b - 2 * h) - c) := by
  by_cases hA : h ≤ a <;> by_cases hB : h ≤ b <;> by_cases hR : h ≤ r <;> simp [hA, hB, hR, ← Nat.not_le] <;> omega

theorem two_halves (hSize : isUintSize size = true) : 2 ^ (8 * size) = 2 * 2 ^ (8 * size - 1) := by
  rcases isUintSize_iff.mp hSize with rfl | rfl | rfl | rfl <;> rfl

theorem signed_halves (v : U64) (hSize : isUintSize size = true) :
    signed size v = if unsigned size v < 2 ^ (8 * size - 1) then (unsigned size v : Int) else unsigned size v - 2 * (2 ^ (8 * size - 1) : Nat) := by
  rw [signed_eq v hSize]
  have hHalves : (2 : Int) ^ (8 * size) = 2 * (2 ^ (8 * size - 1) : Nat) := by exact_mod_cast two_halves hSize
  rw [hHalves]

theorem sign_cut (v : U64) (hSize : isUintSize size = true) :
    (v &&& mask size).getLsbD (8 * size - 1) = decide (2 ^ (8 * size - 1) ≤ unsigned size v) := by
  have hRange : (v &&& mask size).toNat < 2 ^ (8 * size) := by
    rw [toNat_and_mask v hSize]
    exact unsigned_lt size v
  rw [sign_of_lt hSize hRange, toNat_and_mask v hSize]

/-! ## The two operations -/

section Sum

variable {a b : U64} {c : Bool}

theorem add_full (hSize : isUintSize size = true) (a b : U64) (c : Bool) :
    ((a &&& mask size).setWidth 128 + (b &&& mask size).setWidth 128 + (carryOf c).setWidth 128 : U128).toNat =
      unsigned size a + unsigned size b + c.toNat := by
  have hA := (a &&& mask size).isLt
  have hB := (b &&& mask size).isLt
  have hC := Bool.toNat_le c
  rw [toNat_add, toNat_add, toNat_setWidth, toNat_setWidth, toNat_setWidth, toNat_carryOf]
  rw [toNat_and_mask a hSize] at hA ⊢
  rw [toNat_and_mask b hSize] at hB ⊢
  omega

theorem mod_word (hSize : isUintSize size = true) (n : Nat) : n % 2 ^ 64 % 2 ^ (8 * size) = n % 2 ^ (8 * size) :=
  Nat.mod_mod_of_dvd n (Nat.pow_dvd_pow 2 (by rcases isUintSize_iff.mp hSize with rfl | rfl | rfl | rfl <;> decide))

theorem add_result (hSize : isUintSize size = true) (s : CpuState) (a b : U64) (c : Bool) :
    (add s a b (carryOf c) size).2.toNat = (unsigned size a + unsigned size b + c.toNat) % 2 ^ (8 * size) := by
  unfold add
  dsimp only
  rw [toNat_and_mask _ hSize, unsigned, toNat_setWidth, add_full hSize, mod_word hSize]

theorem add_carry (hSize : isUintSize size = true) (a b : U64) (c : Bool) :
    ((((a &&& mask size).setWidth 128 + (b &&& mask size).setWidth 128 + (carryOf c).setWidth 128 : U128) >>> (size * 8)) &&& 1 != 0) =
      decide (2 ^ (8 * size) ≤ unsigned size a + unsigned size b + c.toNat) := by
  have hA := unsigned_lt size a
  have hB := unsigned_lt size b
  have hC := Bool.toNat_le c
  rw [Bool.eq_iff_iff, bne_iff_ne, decide_eq_true_iff, ne_eq, ← toNat_inj, toNat_and, toNat_ushiftRight,
    add_full hSize, Nat.shiftRight_eq_div_pow, show (1 : U128).toNat = 2 ^ 1 - 1 by rfl, Nat.and_two_pow_sub_one_eq_mod,
    Nat.mul_comm size 8, show (0 : U128).toNat = 0 by rfl]
  rcases isUintSize_iff.mp hSize with rfl | rfl | rfl | rfl <;> simp only [Nat.reduceMul, Nat.reducePow] at hA hB ⊢ <;> omega

theorem overflows_iff (size : Nat) (n : Int) :
    Overflows size n ↔ n < -((2 ^ (8 * size - 1) : Nat) : Int) ∨ ((2 ^ (8 * size - 1) : Nat) : Int) ≤ n := by
  unfold Overflows
  push_cast
  rfl

theorem add_sets (hSize : isUintSize size = true) (s : CpuState) (a b : U64) (c : Bool) :
    Sets s (add s a b (carryOf c) size).1 size (add s a b (carryOf c) size).2 (2 ^ (8 * size) ≤ unsigned size a + unsigned size b + c.toNat)
      (16 ≤ unsigned size a % 16 + unsigned size b % 16 + c.toNat) (Overflows size (signed size a + signed size b + c.toNat)) := by
  have hA := unsigned_lt size a
  have hB := unsigned_lt size b
  have hC := Bool.toNat_le c
  have hResult := add_result hSize s a b c
  have hRange : (add s a b (carryOf c) size).2.toNat < 2 ^ (8 * size) := hResult ▸ Nat.mod_lt _ (by positivity)
  have hCut : ((a &&& mask size).setWidth 128 + (b &&& mask size).setWidth 128 + (carryOf c).setWidth 128 : U128).setWidth 64 &&& mask size =
      (add s a b (carryOf c) size).2 := rfl
  refine (setSzp_sets hSize hRange _ _ _).congr ?_ ?_ ?_
  · rw [add_carry hSize, decide_eq_true_iff]
  · rw [adjust_eq, decide_eq_true_iff, toNat_and_mask a hSize, toNat_and_mask b hSize, hCut, hResult]
    rcases isUintSize_iff.mp hSize with rfl | rfl | rfl | rfl <;> simp only [Nat.reduceMul, Nat.reducePow] at hA hB ⊢ <;> omega
  · have hHalves := two_halves hSize
    rw [signBit_ne_zero _ hSize, hCut, getLsbD_and, getLsbD_not, getLsbD_xor, getLsbD_xor, sign_cut a hSize,
      sign_cut b hSize, sign_of_lt hSize hRange, decide_eq_true (sign_lt hSize), Bool.true_and, overflows_iff, signed_halves a hSize,
      signed_halves b hSize]
    rw [hHalves] at hA hB hRange
    refine overflow_add hA hB hRange hC ?_
    rw [hResult, hHalves]
    rcases Nat.lt_or_ge (unsigned size a + unsigned size b + c.toNat) (2 * 2 ^ (8 * size - 1)) with hFits | hOver
    · exact .inl (Nat.mod_eq_of_lt hFits).symm
    · refine .inr ?_
      rw [Nat.mod_eq_sub_mod hOver, Nat.mod_eq_of_lt (by omega)]
      omega

theorem sub_wraps (hSize : isUintSize size = true) (s : CpuState) (a b : U64) (c : Bool) :
    (sub s a b (carryOf c) size).2.toNat + unsigned size b + c.toNat = unsigned size a ∨
      (sub s a b (carryOf c) size).2.toNat + unsigned size b + c.toNat = unsigned size a + 2 ^ (8 * size) := by
  have hA := unsigned_lt size a
  have hB := unsigned_lt size b
  have hC := Bool.toNat_le c
  unfold sub
  dsimp only
  rw [toNat_and_mask _ hSize, unsigned, toNat_sub, toNat_sub, toNat_carryOf, toNat_and_mask a hSize, toNat_and_mask b hSize,
    mod_word hSize]
  rcases isUintSize_iff.mp hSize with rfl | rfl | rfl | rfl <;> simp only [Nat.reduceMul, Nat.reducePow] at hA hB ⊢ <;> omega

theorem sub_range (hSize : isUintSize size = true) (s : CpuState) (a b : U64) (c : Bool) :
    (sub s a b (carryOf c) size).2.toNat < 2 ^ (8 * size) := by
  unfold sub
  dsimp only
  rw [toNat_and_mask _ hSize]
  exact unsigned_lt size _

theorem sub_result (hSize : isUintSize size = true) (s : CpuState) (a b : U64) (c : Bool) :
    ((sub s a b (carryOf c) size).2.toNat : Int) = ((unsigned size a : Int) - unsigned size b - c.toNat) % (2 ^ (8 * size) : Nat) := by
  have hRange := sub_range hSize s a b c
  have hA := unsigned_lt size a
  rcases sub_wraps hSize s a b c with hSame | hOver
  · rw [show (unsigned size a : Int) - unsigned size b - c.toNat = (sub s a b (carryOf c) size).2.toNat by omega]
    exact (Int.emod_eq_of_lt (by omega) (by exact_mod_cast hRange)).symm
  · rw [show (unsigned size a : Int) - unsigned size b - c.toNat = (sub s a b (carryOf c) size).2.toNat - (2 ^ (8 * size) : Nat) by omega,
      Int.sub_emod_right]
    exact (Int.emod_eq_of_lt (by omega) (by exact_mod_cast hRange)).symm

theorem sub_sets (hSize : isUintSize size = true) (s : CpuState) (a b : U64) (c : Bool) :
    Sets s (sub s a b (carryOf c) size).1 size (sub s a b (carryOf c) size).2 (unsigned size a < unsigned size b + c.toNat)
      (unsigned size a % 16 < unsigned size b % 16 + c.toNat) (Overflows size (signed size a - signed size b - c.toNat)) := by
  have hA := unsigned_lt size a
  have hB := unsigned_lt size b
  have hC := Bool.toNat_le c
  have hWraps := sub_wraps hSize s a b c
  have hRange := sub_range hSize s a b c
  have hCut : ((a &&& mask size) - (b &&& mask size) - carryOf c) &&& mask size = (sub s a b (carryOf c) size).2 := rfl
  refine (setSzp_sets hSize hRange _ _ _).congr ?_ ?_ ?_
  · have hHere := (a &&& mask size).isLt
    have hThere := (b &&& mask size).isLt
    rw [BitVec.ult, decide_eq_true_iff, toNat_add, toNat_setWidth, toNat_setWidth, toNat_setWidth, toNat_carryOf]
    rw [toNat_and_mask a hSize] at hHere ⊢
    rw [toNat_and_mask b hSize] at hThere ⊢
    omega
  · rw [adjust_eq, decide_eq_true_iff, toNat_and_mask a hSize, toNat_and_mask b hSize, hCut]
    rcases isUintSize_iff.mp hSize with rfl | rfl | rfl | rfl <;> simp only [Nat.reduceMul, Nat.reducePow] at hA hB hWraps ⊢ <;> omega
  · have hHalves := two_halves hSize
    rw [signBit_ne_zero _ hSize, hCut, getLsbD_and, getLsbD_xor, getLsbD_xor, sign_cut a hSize, sign_cut b hSize,
      sign_of_lt hSize hRange, overflows_iff, signed_halves a hSize, signed_halves b hSize]
    rw [hHalves] at hA hB hRange hWraps
    exact overflow_sub hA hB hRange hC hWraps

theorem inc_eq (s : CpuState) (a : U64) (size : Nat) :
    inc s a size = ((add s a 1 (carryOf false) size).1.setFlag flags.CF (s.flag flags.CF), (add s a 1 (carryOf false) size).2) := rfl

theorem dec_eq (s : CpuState) (a : U64) (size : Nat) :
    dec s a size = ((sub s a 1 (carryOf false) size).1.setFlag flags.CF (s.flag flags.CF), (sub s a 1 (carryOf false) size).2) := rfl

/-- All four operations are those of the numbers; `inc` and `dec` let the carry be. -/
theorem arithmetic (hSize : VirtualMemory.isUintSize size = true) (s : CpuState) (a b : U64) (c : Bool) :
    ((add s a b (carryOf c) size).2.toNat = (unsigned size a + unsigned size b + c.toNat) % 2 ^ (8 * size) ∧
      Sets s (add s a b (carryOf c) size).1 size (add s a b (carryOf c) size).2 (2 ^ (8 * size) ≤ unsigned size a + unsigned size b + c.toNat)
        (16 ≤ unsigned size a % 16 + unsigned size b % 16 + c.toNat) (Overflows size (signed size a + signed size b + c.toNat))) ∧
    (((sub s a b (carryOf c) size).2.toNat : Int) = ((unsigned size a : Int) - unsigned size b - c.toNat) % (2 ^ (8 * size) : Nat) ∧
      Sets s (sub s a b (carryOf c) size).1 size (sub s a b (carryOf c) size).2 (unsigned size a < unsigned size b + c.toNat)
        (unsigned size a % 16 < unsigned size b % 16 + c.toNat) (Overflows size (signed size a - signed size b - c.toNat))) ∧
    ((inc s a size).2.toNat = (unsigned size a + 1) % 2 ^ (8 * size) ∧
      Sets s (inc s a size).1 size (inc s a size).2 (s.flag flags.CF = true) (16 ≤ unsigned size a % 16 + 1)
        (Overflows size (signed size a + signed size 1))) ∧
    ((dec s a size).2.toNat : Int) = ((unsigned size a : Int) - 1) % (2 ^ (8 * size) : Nat) ∧
      Sets s (dec s a size).1 size (dec s a size).2 (s.flag flags.CF = true) (unsigned size a % 16 < 1)
        (Overflows size (signed size a - signed size 1)) := by
  have hOne : unsigned size 1 = 1 := by rcases isUintSize_iff.mp hSize with rfl | rfl | rfl | rfl <;> rfl
  have hInc := add_result hSize s a 1 false
  have hDec := sub_result hSize s a 1 false
  have hInced := (add_sets hSize s a 1 false).keepCarry (s.flag flags.CF)
  have hDeced := (sub_sets hSize s a 1 false).keepCarry (s.flag flags.CF)
  rw [hOne] at hInc hDec hInced hDeced
  refine ⟨⟨add_result hSize s a b c, add_sets hSize s a b c⟩, ⟨sub_result hSize s a b c, sub_sets hSize s a b c⟩, ⟨?_, ?_⟩, ?_, ?_⟩
  · rw [inc_eq]
    exact hInc
  · rw [inc_eq]
    simpa only [Bool.toNat_false, Nat.cast_zero, Int.add_zero, Nat.add_zero] using hInced
  · rw [dec_eq]
    simpa only [Bool.toNat_false, Nat.cast_zero, Nat.cast_one, Int.sub_zero] using hDec
  · rw [dec_eq]
    simpa only [Bool.toNat_false, Nat.cast_zero, Int.sub_zero, Nat.add_zero] using hDeced

theorem arithmetic_of_bytes : (add {} 0x7f 0 (carryOf true) 1).1.flag flags.OF = true ∧ ¬(sub {} 0x80 0x80 (carryOf false) 1).1.flag flags.CF = true := by
  obtain ⟨⟨-, hAdd⟩, -⟩ := arithmetic (show VirtualMemory.isUintSize 1 = true by decide) {} 0x7f 0 true
  obtain ⟨-, ⟨-, hSub⟩, -⟩ := arithmetic (show VirtualMemory.isUintSize 1 = true by decide) {} 0x80 0x80 false
  exact ⟨hAdd.of.mpr (by unfold Overflows; decide), fun hOn => absurd (hSub.cf.mp hOn) (by decide)⟩

end Sum

end Results

end Interp

end Exemu
