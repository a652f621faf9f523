import Exemu.Cpu.Divide
import Mathlib.Tactic.Ring

/-! # Multiplication

The products are formed in 128 bits out of operands of at most 64, so none of them is cut before
it is taken apart.
-/
namespace Exemu

namespace Interp

open VirtualMemory (isUintSize)
open Fallible

def signedProduct (a b : U64) (size : Nat) : U128 := (sext a size).signExtend 128 * (sext b size).signExtend 128

def setCarries (s : CpuState) (flag : Bool) : CpuState := (s.setFlag flags.CF flag).setFlag flags.OF flag

def imulTrunc (s : CpuState) (a b : U64) (size : Nat) : CpuState × U64 :=
  let prod := signedProduct a b size
  let res := prod.setWidth 64 &&& mask size
  let overflow := (sext res size).signExtend 128 != prod
  (setCarries s overflow, res)

def mulParts (a src : U64) (size : Nat) (sign : Bool) : U64 × U64 × Bool :=
  if sign then
    let prod := signedProduct a src size
    let lo := prod.setWidth 64 &&& mask size
    let hi := (prod.sshiftRight (size * 8)).setWidth 64 &&& mask size
    (lo, hi, (sext lo size).signExtend 128 != prod)
  else
    let prod : U128 := a.setWidth 128 * src.setWidth 128
    let lo := prod.setWidth 64 &&& mask size
    let hi := (prod >>> (size * 8)).setWidth 64 &&& mask size
    (lo, hi, hi != 0)

def mulWrite (s : CpuState) (size : Nat) (lo hi : U64) : CpuState :=
  if size = 1 then s.gprWrite 0 2 (lo ||| (hi <<< 8)) else (s.gprWrite 0 size lo).gprWrite 2 size hi

def mulOp (ctx : Ctx) (size : Nat) (sign : Bool) : Exec Unit := do
  let src ← readRm ctx size
  onState fun s =>
    let p := mulParts (s.gprRead 0 size) src size sign
    setCarries (mulWrite s size p.1 p.2.1) p.2.2

/-- Two of the group of `0xF6` and `0xF7`. -/
def executeMul (ctx : Ctx) (size : Nat) (sign : Bool) : Exec Exit := do
  mulOp ctx size sign
  proceed ctx

def immOf (opcode : U8) (raw : U64) (size : Nat) : U64 :=
  if opcode = 0x6B then sext raw 1 else sext raw (if size = 2 then 2 else 4) &&& mask size

/-- `0x69` and `0x6B`. -/
def executeImulImm (ctx : Ctx) (opcode : U8) (raw : U64) : Exec Exit := do
  let size := ctx.opsize
  let src ← readRm ctx size
  onState fun s =>
    let p := imulTrunc s src (immOf opcode raw size) size
    writeRegField ctx p.1 size p.2
  proceed ctx

/-- `0x0F 0xAF` -/
def executeImul (ctx : Ctx) : Exec Exit := do
  let size := ctx.opsize
  let a := readRegField ctx (← Fallible.get).state size
  let b ← readRm ctx size
  onState fun s =>
    let p := imulTrunc s a b size
    writeRegField ctx p.1 size p.2
  proceed ctx

/-! ## What the instructions are to do -/

/-- The instruction has been run: carry and overflow say this, and of the rest only these registers have changed. -/
structure Multiplied (ctx : Ctx) (s s' : CpuState) (written : List (Fin 16)) (wide : Prop) : Prop where
  carry : s'.flag flags.CF = true ↔ wide
  overflow : s'.flag flags.OF = true ↔ wide
  flags : ∀ i < 64, i ∉ [0, 11] → s'.rflags.getLsbD i = s.rflags.getLsbD i
  others : ∀ r ∉ written, s'.gpr r = s.gpr r
  rest : s' = { s with gpr := s'.gpr, rflags := s'.rflags, rip := ctx.cur &&& ctx.bits.addrMask }

def extension (n low : Nat) (sign : Bool) : Nat := if sign ∧ 2 ^ (n - 1) ≤ low then 2 ^ n - 1 else 0

def MultipliesPair (ctx : Ctx) (size : Nat) (sign : Bool) (s s' : CpuState) (src : U64) : Prop :=
  let pair := dividendBits s' size
  numberOf (16 * size) pair sign = numberOf (8 * size) (s.gprRead 0 size).toNat sign * numberOf (8 * size) src.toNat sign ∧
    Multiplied ctx s s' (if size = 1 then [regIdx 0] else [regIdx 0, regIdx 2])
      (pair / 2 ^ (8 * size) ≠ extension (8 * size) (pair % 2 ^ (8 * size)) sign)

def MultipliesLow (ctx : Ctx) (size : Nat) (product : Int) (s s' : CpuState) : Prop :=
  ((s'.gprRead ctx.reg size).toNat : Int) = product % (2 ^ (8 * size) : Nat) ∧ Multiplied ctx s s' [regIdx ctx.reg] (Overflows size product)

def immNumber (opcode : U8) (raw : U64) (size : Nat) : Int := signed (if opcode = 0x6B then 1 else if size = 2 then 2 else 4) raw

/-! ## Products -/

section Products

variable {size : Nat} {a b v : U64}

theorem toInt_sext_signed (hSize : isUintSize size = true) (v : U64) : (sext v size).toInt = signed size v := by
  unfold signed
  rcases isUintSize_iff.mp hSize with rfl | rfl | rfl | rfl
  · exact BitVec.toInt_signExtend_of_le (by decide)
  · exact BitVec.toInt_signExtend_of_le (by decide)
  · exact BitVec.toInt_signExtend_of_le (by decide)
  · exact (congrArg BitVec.toInt (BitVec.setWidth_eq v)).symm

theorem number_signed (size : Nat) (v : U64) : numberOf (8 * size) v.toNat true = signed size v := by
  rw [number_true, BitVec.ofNat_toNat]
  rfl

theorem signed_bounds (size : Nat) (v : U64) : -2 ^ (8 * size - 1) ≤ signed size v ∧ signed size v < 2 ^ (8 * size - 1) :=
  ⟨BitVec.le_toInt _, BitVec.toInt_lt⟩

theorem product_bounds (size : Nat) (a b : U64) :
    (signed size a * signed size b).natAbs ≤ 2 ^ (8 * size - 1) * 2 ^ (8 * size - 1) := by
  have hPow : (2 : Int) ^ (8 * size - 1) = ((2 ^ (8 * size - 1) : Nat) : Int) := by push_cast; rfl
  have hBound : ∀ v : U64, (signed size v).natAbs ≤ 2 ^ (8 * size - 1) := by
    intro v
    have hv := signed_bounds size v
    rw [hPow] at hv
    omega
  rw [Int.natAbs_mul]
  exact Nat.mul_le_mul (hBound a) (hBound b)

theorem toInt_signedProduct (hSize : isUintSize size = true) (a b : U64) :
    (signedProduct a b size).toInt = signed size a * signed size b := by
  have hBound := product_bounds size a b
  have hLess : 2 ^ (8 * size - 1) * 2 ^ (8 * size - 1) < 2 ^ 127 := by
    rcases isUintSize_iff.mp hSize with rfl | rfl | rfl | rfl <;> decide
  unfold signedProduct
  rw [BitVec.toInt_mul, BitVec.toInt_signExtend_of_le (by decide), BitVec.toInt_signExtend_of_le (by decide), toInt_sext_signed hSize,
    toInt_sext_signed hSize]
  exact Int.bmod_eq_of_le (by omega) (by omega)

theorem toNat_low (hSize : isUintSize size = true) (x : U128) :
    ((x.setWidth 64 &&& mask size).toNat : Int) = x.toInt % (2 ^ (8 * size) : Nat) := by
  have hBits : 8 * size ≤ 64 := by
    rcases isUintSize_iff.mp hSize with rfl | rfl | rfl | rfl <;> decide
  rw [toNat_and_mask _ hSize, unsigned, Int.natCast_mod, setWidth_emod x hBits, toNat_emod_toInt x (by omega)]

theorem halves_emod (n : Nat) (p : Int) {lo hi : Nat} (hLo : (lo : Int) = p % (2 ^ n : Nat)) (hHi : (hi : Int) = p / (2 ^ n : Nat) % (2 ^ n : Nat)) :
    ((hi * 2 ^ n + lo : Nat) : Int) % (2 ^ (n + n) : Nat) = p % (2 ^ (n + n) : Nat) := by
  have hWhole : p = ((hi * 2 ^ n + lo : Nat) : Int) + (2 ^ (n + n) : Nat) * (p / (2 ^ n : Nat) / (2 ^ n : Nat)) := by
    have hLow := Int.mul_ediv_add_emod p (2 ^ n : Nat)
    have hHigh := Int.mul_ediv_add_emod (p / (2 ^ n : Nat)) (2 ^ n : Nat)
    rw [← hLo] at hLow
    rw [← hHi] at hHigh
    calc p = (2 ^ n : Nat) * (p / (2 ^ n : Nat)) + lo := hLow.symm
      _ = (2 ^ n : Nat) * ((2 ^ n : Nat) * (p / (2 ^ n : Nat) / (2 ^ n : Nat)) + hi) + lo := by rw [hHigh]
      _ = _ := by
        push_cast
        ring
  conv_rhs => rw [hWhole, Int.add_mul_emod_self_left]

theorem pair_lt {n lo hi : Nat} (hLo : lo < 2 ^ n) (hHi : hi < 2 ^ n) : hi * 2 ^ n + lo < 2 ^ (n + n) := by
  rw [Nat.pow_add]
  calc hi * 2 ^ n + lo < hi * 2 ^ n + 2 ^ n := by omega
    _ = (hi + 1) * 2 ^ n := by ring
    _ ≤ 2 ^ n * 2 ^ n := Nat.mul_le_mul_right _ hHi

theorem signed_pair (hSize : isUintSize size = true) (a b : U64) :
    let prod := signedProduct a b size
    numberOf (16 * size) (((prod.sshiftRight (size * 8)).setWidth 64 &&& mask size).toNat * 2 ^ (8 * size) +
      (prod.setWidth 64 &&& mask size).toNat) true = signed size a * signed size b := by
  intro prod
  have hProduct : prod.toInt = signed size a * signed size b := toInt_signedProduct hSize a b
  have hBound := product_bounds size a b
  have hLo := toNat_low hSize prod
  have hHi := toNat_low hSize (prod.sshiftRight (size * 8))
  rw [BitVec.toInt_sshiftRight, Int.shiftRight_eq_div_pow, Nat.mul_comm size 8, hProduct] at hHi
  rw [hProduct] at hLo
  have hSame := halves_emod (8 * size) _ hLo hHi
  have hRange := pair_lt (n := 8 * size) ((toNat_and_mask (prod.setWidth 64) hSize).trans_lt (unsigned_lt size _))
    ((toNat_and_mask ((prod.sshiftRight (8 * size)).setWidth 64) hSize).trans_lt (unsigned_lt size _))
  rw [Nat.mul_comm size 8]
  rw [show 8 * size + 8 * size = 16 * size by omega] at hSame hRange
  refine number_of_fits (by rcases isUintSize_iff.mp hSize with rfl | rfl | rfl | rfl <;> decide) hSame hRange ?_
  rw [if_pos rfl]
  have hRoom : 2 ^ (8 * size - 1) * 2 ^ (8 * size - 1) < 2 ^ (16 * size - 1) := by
    rcases isUintSize_iff.mp hSize with rfl | rfl | rfl | rfl <;> decide
  have hPow : (2 : Int) ^ (16 * size - 1) = ((2 ^ (16 * size - 1) : Nat) : Int) := by push_cast; rfl
  rw [hPow]
  omega

theorem sext_ne_iff (hSize : isUintSize size = true) (v : U64) (x : U128) :
    ((sext v size).signExtend 128 != x) = true ↔ signed size v ≠ x.toInt := by
  rw [bne_iff_ne, ne_eq, ne_eq, ← BitVec.toInt_inj, BitVec.toInt_signExtend_of_le (by decide), toInt_sext_signed hSize]

theorem signed_ne_iff (hSize : isUintSize size = true) {lo : U64} {hi : Nat} (hLo : lo.toNat < 2 ^ (8 * size)) (hHi : hi < 2 ^ (8 * size)) :
    signed size lo ≠ numberOf (16 * size) (hi * 2 ^ (8 * size) + lo.toNat) true ↔ hi ≠ extension (8 * size) lo.toNat true := by
  rw [← number_signed, number_true, number_true, BitVec.toInt_eq_toNat_cond, BitVec.toInt_eq_toNat_cond, BitVec.toNat_ofNat, BitVec.toNat_ofNat]
  unfold extension
  rcases isUintSize_iff.mp hSize with rfl | rfl | rfl | rfl <;>
    (simp only [Nat.reduceMul, Nat.reducePow, Nat.reduceSub, true_and] at hLo hHi ⊢
     split <;> split <;> split <;> omega)

theorem unsigned_pair (hSize : isUintSize size = true) (ha : a.toNat < 2 ^ (8 * size)) (hb : b.toNat < 2 ^ (8 * size)) :
    let prod : U128 := a.setWidth 128 * b.setWidth 128
    ((prod >>> (size * 8)).setWidth 64 &&& mask size).toNat * 2 ^ (8 * size) + (prod.setWidth 64 &&& mask size).toNat = a.toNat * b.toNat := by
  intro prod
  have hBits : 8 * size ≤ 64 := by
    rcases isUintSize_iff.mp hSize with rfl | rfl | rfl | rfl <;> decide
  have hLess : a.toNat * b.toNat < 2 ^ (8 * size) * 2 ^ (8 * size) := Nat.mul_lt_mul'' ha hb
  have hCut : ∀ x : U128, (x.setWidth 64 &&& mask size).toNat = x.toNat % 2 ^ (8 * size) := by
    intro x
    rw [toNat_and_mask _ hSize, unsigned, BitVec.toNat_setWidth]
    exact Nat.mod_mod_of_dvd _ (Nat.pow_dvd_pow 2 hBits)
  have hWide : 2 ^ (8 * size) * 2 ^ (8 * size) ≤ 2 ^ 128 := by
    rw [← Nat.pow_add]
    exact Nat.pow_le_pow_right (by decide) (by omega)
  have hProduct : prod.toNat = a.toNat * b.toNat := by
    rw [BitVec.toNat_mul, BitVec.toNat_setWidth, BitVec.toNat_setWidth, Nat.mod_eq_of_lt (by omega : a.toNat < 2 ^ 128),
      Nat.mod_eq_of_lt (by omega : b.toNat < 2 ^ 128), Nat.mod_eq_of_lt (by omega)]
  rw [hCut, hCut, BitVec.toNat_ushiftRight, Nat.shiftRight_eq_div_pow, Nat.mul_comm size 8, hProduct,
    Nat.mod_eq_of_lt (Nat.div_lt_of_lt_mul hLess)]
  exact Nat.div_add_mod' _ _

end Products

/-! ## What is written -/

section Writing

variable {ctx : Ctx} {size : Nat} {s s' : CpuState} {lo hi : U64} {flag : Bool} {wide : Prop} {written : List (Fin 16)}

theorem gpr_gprWrite_ne (s : CpuState) (i : U8) (n : Nat) (v : U64) {r : Fin 16} (h : r ≠ regIdx i) : (s.gprWrite i n v).gpr r = s.gpr r :=
  Function.update_of_ne h _ _

theorem pair_mulWrite (hSize : isUintSize size = true) (s : CpuState) (hLo : lo.toNat < 2 ^ (8 * size)) (hHi : hi.toNat < 2 ^ (8 * size)) :
    dividendBits (mulWrite s size lo hi) size = hi.toNat * 2 ^ (8 * size) + lo.toNat := by
  unfold dividendBits mulWrite
  split
  · rename_i hByte
    subst hByte
    have hOr : (lo ||| hi <<< 8).toNat = hi.toNat * 2 ^ (8 * 1) + lo.toNat := by
      have hWhole := Nat.shiftLeft_add_eq_or_of_lt hLo hi.toNat
      rw [Nat.shiftLeft_eq] at hWhole
      rw [BitVec.toNat_or, BitVec.toNat_shiftLeft, Nat.or_comm, hWhole, Nat.shiftLeft_eq, Nat.mod_eq_of_lt (by omega)]
    rw [toNat_gprRead_gprWrite _ _ _ (by decide), unsigned, hOr]
    exact Nat.mod_eq_of_lt (by omega)
  · rw [toNat_gprRead_gprWrite _ _ _ hSize, gprRead_gprWrite_ne _ _ _ _ (by decide), toNat_gprRead_gprWrite _ _ _ hSize, unsigned, unsigned,
      Nat.mod_eq_of_lt hLo, Nat.mod_eq_of_lt hHi]

theorem mulWrite_rest (s : CpuState) (size : Nat) (lo hi : U64) : mulWrite s size lo hi = { s with gpr := (mulWrite s size lo hi).gpr } := by
  unfold mulWrite
  split <;> rfl

theorem mulWrite_others (s : CpuState) (size : Nat) (lo hi : U64) {r : Fin 16} (h : r ∉ if size = 1 then [regIdx 0] else [regIdx 0, regIdx 2]) :
    (mulWrite s size lo hi).gpr r = s.gpr r := by
  unfold mulWrite
  split
  · rename_i hByte
    rw [if_pos hByte, List.mem_singleton] at h
    exact gpr_gprWrite_ne s 0 2 _ h
  · rename_i hWide
    rw [if_neg hWide, List.mem_cons, List.mem_singleton, not_or] at h
    rw [gpr_gprWrite_ne _ 2 size _ h.2, gpr_gprWrite_ne _ 0 size _ h.1]

theorem setCarries_flags (s : CpuState) (flag : Bool) :
    (setCarries s flag).flag flags.CF = flag ∧ (setCarries s flag).flag flags.OF = flag ∧
      ∀ i < 64, i ∉ [0, 11] → (setCarries s flag).rflags.getLsbD i = s.rflags.getLsbD i := by
  unfold setCarries
  rw [cf_eq, of_eq]
  refine ⟨?_, ?_, fun i hi hOut => ?_⟩
  · rw [flag_setFlag _ _ (by decide), if_neg (by decide), flag_setFlag _ _ (by decide), if_pos rfl]
  · rw [flag_setFlag _ _ (by decide), if_pos rfl]
  · rw [List.mem_cons, List.mem_singleton, not_or] at hOut
    rw [getLsbD_setFlag _ _ hi, if_neg hOut.2, getLsbD_setFlag _ _ hi, if_neg hOut.1]

theorem multiplied_of (hRest : s' = { s with gpr := s'.gpr }) (hOthers : ∀ r ∉ written, s'.gpr r = s.gpr r) (hFlag : flag = true ↔ wide) :
    Multiplied ctx s { setCarries s' flag with rip := ctx.cur &&& ctx.bits.addrMask } written wide := by
  obtain ⟨hCarry, hOverflow, hKept⟩ := setCarries_flags s' flag
  refine ⟨?_, ?_, fun i hi hOut => ?_, hOthers, ?_⟩
  · exact (congrArg (· = true) hCarry).to_iff.trans hFlag
  · exact (congrArg (· = true) hOverflow).to_iff.trans hFlag
  · refine (hKept i hi hOut).trans ?_
    rw [hRest]
  · rw [hRest]
    rfl

end Writing

/-! ## The instructions -/

section Instructions

variable {ctx : Ctx} {size : Nat} {sign : Bool} {m : Machine} {v a b : U64}

theorem mulParts_pair (hSize : isUintSize size = true) (ha : a.toNat < 2 ^ (8 * size)) (hb : b.toNat < 2 ^ (8 * size)) (sign : Bool) :
    let p := mulParts a b size sign
    p.1.toNat < 2 ^ (8 * size) ∧ p.2.1.toNat < 2 ^ (8 * size) ∧
      numberOf (16 * size) (p.2.1.toNat * 2 ^ (8 * size) + p.1.toNat) sign = numberOf (8 * size) a.toNat sign * numberOf (8 * size) b.toNat sign ∧
      (p.2.2 = true ↔ p.2.1.toNat ≠ extension (8 * size) p.1.toNat sign) := by
  have hCut : ∀ x : U64, (x &&& mask size).toNat < 2 ^ (8 * size) := fun x => (toNat_and_mask x hSize).trans_lt (unsigned_lt size x)
  cases sign with
  | true =>
    have hPair := signed_pair hSize a b
    refine ⟨hCut _, hCut _, ?_, ?_⟩
    · rw [number_signed, number_signed]
      exact hPair
    · refine (sext_ne_iff hSize _ _).trans (Iff.trans ?_ (signed_ne_iff hSize (hCut _) (hCut _)))
      rw [toInt_signedProduct hSize, ← hPair]
      exact Iff.rfl
  | false =>
    have hPair := unsigned_pair hSize ha hb
    refine ⟨hCut _, hCut _, ?_, ?_⟩
    · rw [number_false, number_false, number_false, ← Int.natCast_mul]
      exact congrArg Nat.cast hPair
    · unfold extension
      rw [if_neg (by simp)]
      exact bne_iff_ne.trans (not_congr ⟨congrArg BitVec.toNat, fun h => BitVec.eq_of_toNat_eq (y := 0) h⟩)

theorem executeMul_run (hSize : isUintSize size = true) (hRead : readRm ctx size m = some (.ok v, m)) :
    ∃ s', executeMul ctx size sign m = some (.ok .Continue, { m with state := s' }) ∧ MultipliesPair ctx size sign m.state s' v := by
  have hAcc := gprRead_lt m.state 0 hSize
  have hSrc := (readRm_run hSize hRead).1
  obtain ⟨hLo, hHi, hProduct, hFlag⟩ := mulParts_pair hSize hAcc hSrc sign
  let p := mulParts (m.state.gprRead 0 size) v size sign
  have hPair := pair_mulWrite hSize m.state hLo hHi
  refine ⟨{ setCarries (mulWrite m.state size p.1 p.2.1) p.2.2 with rip := ctx.cur &&& ctx.bits.addrMask }, ?_, ?_, ?_⟩
  · have hOp : mulOp ctx size sign m = some (.ok (), { m with state := setCarries (mulWrite m.state size p.1 p.2.1) p.2.2 }) := by
      unfold mulOp
      rw [bind_of_ok hRead]
      rfl
    unfold executeMul
    rw [bind_of_ok hOp]
    rfl
  · exact (congrArg (numberOf (16 * size) · sign) hPair).trans hProduct
  · have hHigh : dividendBits (mulWrite m.state size p.1 p.2.1) size / 2 ^ (8 * size) = p.2.1.toNat := by
      rw [hPair, Nat.mul_comm, Nat.mul_add_div (Nat.two_pow_pos _), Nat.div_eq_of_lt hLo, Nat.add_zero]
    have hLow : dividendBits (mulWrite m.state size p.1 p.2.1) size % 2 ^ (8 * size) = p.1.toNat := by
      rw [hPair, Nat.mul_comm, Nat.mul_add_mod, Nat.mod_eq_of_lt hLo]
    refine multiplied_of (mulWrite_rest _ _ _ _) (fun r hr => mulWrite_others _ _ _ _ hr) (hFlag.trans ?_)
    rw [← hHigh, ← hLow]
    rfl

theorem opsize_ne_one (ctx : Ctx) : ctx.opsize ≠ 1 := by
  rcases opsize_cases ctx with h | h | h <;> rw [h] <;> decide

theorem multipliesLow_of (hSize : isUintSize size = true) (hWide : size ≠ 1) (ctx : Ctx) (s : CpuState) (a b : U64) :
    let p := imulTrunc s a b size
    MultipliesLow ctx size (signed size a * signed size b) s { writeRegField ctx p.1 size p.2 with rip := ctx.cur &&& ctx.bits.addrMask } := by
  intro p
  let lo := (signedProduct a b size).setWidth 64 &&& mask size
  let wide := (sext lo size).signExtend 128 != signedProduct a b size
  have hProduct := toInt_signedProduct hSize a b
  have hLow := toNat_low hSize (signedProduct a b size)
  rw [hProduct] at hLow
  have hLess : lo.toNat < 2 ^ (8 * size) := (toNat_and_mask _ hSize).trans_lt (unsigned_lt size _)
  have hWrite : writeRegField ctx p.1 size p.2 = setCarries (s.gprWrite ctx.reg size lo) wide := by
    unfold writeRegField writeGpr
    rw [if_neg (fun h => hWide h.1)]
    rfl
  have hOver : wide = true ↔ Overflows size (signed size a * signed size b) := by
    refine (sext_ne_iff hSize lo _).trans ?_
    rw [hProduct]
    constructor
    · intro hNot
      by_contra hFits
      unfold Overflows at hFits
      refine hNot ((number_signed size lo).symm.trans (number_of_fits ?_ ?_ hLess ?_))
      · rcases isUintSize_iff.mp hSize with rfl | rfl | rfl | rfl <;> decide
      · rw [hLow, Int.emod_emod_of_dvd _ (dvd_refl _)]
      · rw [if_pos rfl]
        omega
    · intro hOut hSame
      have hIn := signed_bounds size lo
      rw [hSame] at hIn
      unfold Overflows at hOut
      omega
  rw [hWrite]
  refine ⟨?_, multiplied_of rfl (fun r hr => gpr_gprWrite_ne s _ _ _ (List.mem_singleton.not.mp hr)) hOver⟩
  rw [← hLow]
  refine congrArg Nat.cast ((toNat_gprRead_gprWrite s ctx.reg lo hSize).trans ?_)
  exact Nat.mod_eq_of_lt hLess

theorem executeImul_run (hRead : readRm ctx ctx.opsize m = some (.ok v, m)) :
    ∃ s', executeImul ctx m = some (.ok .Continue, { m with state := s' }) ∧
      MultipliesLow ctx ctx.opsize (signed ctx.opsize (readRegField ctx m.state ctx.opsize) * signed ctx.opsize v) m.state s' := by
  have hSize := opsize_uintSize ctx
  have hWide := opsize_ne_one ctx
  refine ⟨_, ?_, multipliesLow_of hSize hWide ctx m.state (readRegField ctx m.state ctx.opsize) v⟩
  unfold executeImul
  dsimp only
  rw [bind_of_ok (rfl : Fallible.get m = some (.ok m, m)), bind_of_ok hRead]
  rfl

theorem signed_bmod (size : Nat) (hBits : 8 * size ≤ 64) (v : U64) : signed size v = v.toInt.bmod (2 ^ (8 * size)) := by
  unfold signed
  rw [BitVec.toInt_setWidth, ← Int.emod_bmod, toNat_emod_toInt v hBits, Int.emod_bmod]

theorem signed_sext {k : Nat} (hSize : isUintSize size = true) (hFrom : isUintSize k = true) (hLe : k ≤ size) (v : U64) :
    signed size (sext v k) = signed k v := by
  have hBits : 8 * size ≤ 64 := by
    rcases isUintSize_iff.mp hSize with rfl | rfl | rfl | rfl <;> decide
  have hIn := signed_bounds k v
  have hPow : (2 : Int) ^ (8 * k - 1) = ((2 ^ (8 * k - 1) : Nat) : Int) := by push_cast; rfl
  rw [hPow] at hIn
  have hRoom : 2 * 2 ^ (8 * k - 1) ≤ 2 ^ (8 * size) := by
    rw [← Nat.pow_succ']
    have hPos : 0 < k := by rcases isUintSize_iff.mp hFrom with rfl | rfl | rfl | rfl <;> decide
    exact Nat.pow_le_pow_right (by decide) (by omega)
  rw [signed_bmod size hBits, toInt_sext_signed hFrom]
  exact Int.bmod_eq_of_le (by omega) (by omega)

theorem signed_cut (hSize : isUintSize size = true) (v : U64) : signed size (v &&& mask size) = signed size v := by
  rw [← number_signed, ← number_signed, toNat_and_mask v hSize, unsigned, number_true, number_true]
  congr 1
  exact BitVec.eq_of_toNat_eq (by rw [BitVec.toNat_ofNat, BitVec.toNat_ofNat, Nat.mod_mod])

theorem signed_immOf (hSize : size = 2 ∨ size = 4 ∨ size = 8) (opcode : U8) (raw : U64) :
    signed size (immOf opcode raw size) = immNumber opcode raw size := by
  have hSizes := isUintSize_iff.mpr (.inr hSize)
  unfold immOf immNumber
  split
  · exact signed_sext hSizes (by decide) (by omega) raw
  · rw [signed_cut hSizes]
    split
    · exact signed_sext hSizes (by decide) (by omega) raw
    · exact signed_sext hSizes (by decide) (by omega) raw

theorem executeImulImm_run (opcode : U8) (raw : U64) (hRead : readRm ctx ctx.opsize m = some (.ok v, m)) :
    ∃ s', executeImulImm ctx opcode raw m = some (.ok .Continue, { m with state := s' }) ∧
      MultipliesLow ctx ctx.opsize (signed ctx.opsize v * immNumber opcode raw ctx.opsize) m.state s' := by
  have hSize := opsize_uintSize ctx
  have hWide := opsize_ne_one ctx
  rw [← signed_immOf (opsize_cases ctx) opcode raw]
  refine ⟨_, ?_, multipliesLow_of hSize hWide ctx m.state v (immOf opcode raw ctx.opsize)⟩
  unfold executeImulImm
  dsimp only
  rw [bind_of_ok hRead]
  rfl

/-- Every form that can read its operand gives the exact product, or its low bits, and says which. -/
theorem multiplications (m : Machine) (ctx : Ctx) :
    (∀ size sign v, VirtualMemory.isUintSize size = true → readRm ctx size m = some (.ok v, m) →
      ∃ s', executeMul ctx size sign m = some (.ok .Continue, { m with state := s' }) ∧ MultipliesPair ctx size sign m.state s' v) ∧
    ∀ v, readRm ctx ctx.opsize m = some (.ok v, m) →
      (∃ s', executeImul ctx m = some (.ok .Continue, { m with state := s' }) ∧
        MultipliesLow ctx ctx.opsize (signed ctx.opsize (readRegField ctx m.state ctx.opsize) * signed ctx.opsize v) m.state s') ∧
      ∀ opcode raw, ∃ s', executeImulImm ctx opcode raw m = some (.ok .Continue, { m with state := s' }) ∧
        MultipliesLow ctx ctx.opsize (signed ctx.opsize v * immNumber opcode raw ctx.opsize) m.state s' :=
  ⟨fun _ _ _ hSize hRead => executeMul_run hSize hRead, fun _ hRead => ⟨executeImul_run hRead, fun opcode raw => executeImulImm_run opcode raw hRead⟩⟩

/-- The least number of 16 bits, in a register, by itself. -/
theorem multiplications_of_word : ∃ s',
    executeImul { cur := 0x1000, reg := 1, rm := .Reg 1, pfx := { p66 := true }, bits := .B64 } ⟨CpuState.setReg {} 1 0x8000, VirtualMemory.new⟩ =
      some (.ok .Continue, ⟨s', VirtualMemory.new⟩) ∧
    MultipliesLow { cur := 0x1000, reg := 1, rm := .Reg 1, pfx := { p66 := true }, bits := .B64 } 2 (-32768 * -32768) (CpuState.setReg {} 1 0x8000) s' :=
  (((multiplications ⟨CpuState.setReg {} 1 0x8000, VirtualMemory.new⟩ { cur := 0x1000, reg := 1, rm := .Reg 1, pfx := { p66 := true }, bits := .B64 }).2
    0x8000 rfl).1)

end Instructions

end Interp

end Exemu
