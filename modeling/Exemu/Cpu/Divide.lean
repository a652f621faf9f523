import Exemu.Cpu.Interpreter

/-! # Division

`div_op` checks the quotient in the signed byte form only, and there after the host has divided.
-/
namespace Exemu

namespace Interp

open BitVec

open Fallible

/-- `n / d` and `n % d` of the host's unsigned numbers. -/
def hostDivMod {w : Nat} (n d : BitVec w) : Exec (BitVec w × BitVec w) := if d = 0 then panic else return (n / d, n % d)

def hostSdivMod {w : Nat} (n d : BitVec w) : Exec (BitVec w × BitVec w) :=
  if d = 0 ∨ (n = BitVec.intMin w ∧ d = -1) then panic else return (n.sdiv d, n.srem d)

/-- The wide dividend, `(num << (128 - 2 * bits)) >> (128 - 2 * bits)` when signed. -/
def wideDividend (hi lo : U64) (size : Nat) (signed : Bool) : U128 :=
  let bits := size * 8
  if signed then
    let num : U128 := (hi.setWidth 128 <<< bits) ||| (lo.setWidth 128 &&& (mask size).setWidth 128)
    (num <<< (128 - 2 * bits)).sshiftRight (128 - 2 * bits)
  else (hi.setWidth 128 <<< bits) ||| lo.setWidth 128

def divOp (ctx : Ctx) (size : Nat) (signed : Bool) : Exec (Option Exit) := do
  let divisor ← readRm ctx size
  if divisor = 0 then return some (.Interrupt 0)
  else if size = 1 then
    let num := (← Fallible.get).state.gprRead 0 2
    if signed then
      let (q, r) ← hostSdivMod (num.setWidth 16 : U16) ((divisor.setWidth 8).signExtend 16)
      if ¬(-128 ≤ q.toInt ∧ q.toInt ≤ 127) then return some (.Interrupt 0)
      else
        onState fun s => (s.gprWrite 0 1 (q.signExtend 64)).gprWriteHigh8 0 (r.signExtend 64)
        return none
    else
      let (q, r) ← hostDivMod num (divisor &&& 0xff)
      onState fun s => (s.gprWrite 0 1 ((q.setWidth 16).signExtend 64)).gprWriteHigh8 0 ((r.setWidth 16).signExtend 64)
      return none
  else
    let s := (← Fallible.get).state
    let num := wideDividend (s.gprRead 2 size) (s.gprRead 0 size) size signed
    if signed then
      let (q, r) ← hostSdivMod num ((sext divisor size).signExtend 128)
      onState fun s => (s.gprWrite 0 size (q.setWidth 64)).gprWrite 2 size (r.setWidth 64)
      return none
    else
      let (q, r) ← hostDivMod num (divisor.setWidth 128)
      onState fun s => (s.gprWrite 0 size (q.setWidth 64)).gprWrite 2 size (r.setWidth 64)
      return none

/-- The last two of the group of `0xF6` and `0xF7`. -/
def executeDiv (ctx : Ctx) (size : Nat) (signed : Bool) : Exec Exit := do
  match ← divOp ctx size signed with
  | some e => return e
  | none => proceed ctx

/-! ## The numbers -/

def dividendBits (s : CpuState) (size : Nat) : Nat :=
  if size = 1 then (s.gprRead 0 2).toNat else (s.gprRead 2 size).toNat * 2 ^ (8 * size) + (s.gprRead 0 size).toNat

def numberOf (bits n : Nat) (sign : Bool) : Int := if sign then (BitVec.ofNat bits n).toInt else n

def dividend (s : CpuState) (size : Nat) (sign : Bool) : Int := numberOf (16 * size) (dividendBits s size) sign

def quotientBits (s : CpuState) (size : Nat) : Nat := (s.gprRead 0 size).toNat

def remainderBits (s : CpuState) (size : Nat) : Nat := if size = 1 then (s.gprReadHigh8 0).toNat else (s.gprRead 2 size).toNat

def QuotientFits (size : Nat) (sign : Bool) (q : Int) : Prop :=
  if sign then -2 ^ (8 * size - 1) ≤ q ∧ q < 2 ^ (8 * size - 1) else 0 ≤ q ∧ q < 2 ^ (8 * size)

structure Divides (ctx : Ctx) (size : Nat) (sign : Bool) (n d : Int) (m : Machine) (out : Option (Except Stop Exit × Machine)) : Prop where
  faults : d = 0 ∨ ¬QuotientFits size sign (n.tdiv d) → out = some (.ok (.Interrupt 0), m)
  divides : d ≠ 0 → QuotientFits size sign (n.tdiv d) → ∃ s', out = some (.ok .Continue, { m with state := s' }) ∧
    s'.rip = ctx.cur &&& ctx.bits.addrMask ∧ s'.rflags = m.state.rflags ∧
    ∃ q r, q = numberOf (8 * size) (quotientBits s' size) sign ∧ r = numberOf (8 * size) (remainderBits s' size) sign ∧
      n = q * d + r ∧ r.natAbs < d.natAbs ∧ (r = 0 ∨ r.sign = n.sign)

def InRange (size : Nat) (sign : Bool) (n d : Int) : Prop :=
  if sign then n.natAbs < d.natAbs * 2 ^ (8 * size - 1) ∨ (n.sign ≠ d.sign ∧ n.natAbs < d.natAbs * (2 ^ (8 * size - 1) + 1))
  else n.natAbs < d.natAbs * 2 ^ (8 * size)

section Numbers

variable {n d q : Int}

theorem fits_iff_inRange {size : Nat} {sign : Bool} (hd : d ≠ 0) (hPos : sign = false → 0 ≤ n ∧ 0 ≤ d) :
    QuotientFits size sign (n.tdiv d) ↔ InRange size sign n d := by
  have hAbs : (n.tdiv d).natAbs = n.natAbs / d.natAbs := Int.natAbs_tdiv n d
  have hDivisor : 0 < d.natAbs := Int.natAbs_pos.mpr hd
  unfold QuotientFits InRange
  cases sign with
  | false =>
    obtain ⟨hn, hd'⟩ := hPos rfl
    have hq := Int.tdiv_nonneg hn hd'
    simp only [Bool.false_eq_true, if_false]
    rw [Nat.mul_comm d.natAbs (2 ^ (8 * size)), ← Nat.div_lt_iff_lt_mul hDivisor, ← hAbs]
    have hPow : (2 : Int) ^ (8 * size) = ((2 ^ (8 * size) : Nat) : Int) := by push_cast; rfl
    rw [hPow]
    omega
  | true =>
    simp only [if_true]
    have hPow : (2 : Int) ^ (8 * size - 1) = ((2 ^ (8 * size - 1) : Nat) : Int) := by push_cast; rfl
    rw [Nat.mul_comm d.natAbs, Nat.mul_comm d.natAbs, ← Nat.div_lt_iff_lt_mul hDivisor, ← Nat.div_lt_iff_lt_mul hDivisor, ← hAbs, hPow]
    have hHalf : 0 < 2 ^ (8 * size - 1) := by positivity
    by_cases hSigns : n.sign = d.sign
    · have hq : 0 ≤ n.tdiv d := by
        rcases lt_or_gt_of_ne hd with hNeg | hPos
        · have hn : n < 0 := Int.sign_eq_neg_one_iff_neg.mp (hSigns.trans (Int.sign_eq_neg_one_iff_neg.mpr hNeg))
          exact Int.tdiv_nonneg_of_nonpos_of_nonpos hn.le hNeg.le
        · have hn : 0 < n := Int.sign_eq_one_iff_pos.mp (hSigns.trans (Int.sign_eq_one_iff_pos.mpr hPos))
          exact Int.tdiv_nonneg hn.le hPos.le
      simp only [hSigns, ne_eq, not_true, false_and, or_false]
      omega
    · have hq : n.tdiv d ≤ 0 := by
        rcases lt_or_gt_of_ne hd with hNeg | hPos
        · have hn : 0 ≤ n := not_lt.mp fun hn => hSigns ((Int.sign_eq_neg_one_iff_neg.mpr hn).trans (Int.sign_eq_neg_one_iff_neg.mpr hNeg).symm)
          exact Int.tdiv_nonpos_of_nonneg_of_nonpos hn hNeg.le
        · have hn : n ≤ 0 := not_lt.mp fun hn => hSigns ((Int.sign_eq_one_iff_pos.mpr hn).trans (Int.sign_eq_one_iff_pos.mpr hPos).symm)
          have hBack := Int.tdiv_nonneg (Int.neg_nonneg.mpr hn) hPos.le
          rw [Int.neg_tdiv] at hBack
          omega
      simp only [hSigns, ne_eq, not_false_iff, true_and]
      omega

theorem number_of_fits {w R : Nat} {sign : Bool} (hw : 0 < w) (hSame : (R : Int) % (2 ^ w : Nat) = q % (2 ^ w : Nat)) (hR : R < 2 ^ w)
    (hFits : if sign then -2 ^ (w - 1) ≤ q ∧ q < 2 ^ (w - 1) else 0 ≤ q ∧ q < 2 ^ w) : numberOf w R sign = q := by
  have hHalves : 2 ^ w = 2 * 2 ^ (w - 1) := by rw [← Nat.pow_succ']; congr 1; omega
  unfold numberOf
  cases sign with
  | false =>
    simp only [Bool.false_eq_true, if_false] at hFits ⊢
    have hq : q < ((2 ^ w : Nat) : Int) := by exact_mod_cast hFits.2
    rw [Int.emod_eq_of_lt (by omega) (by exact_mod_cast hR), Int.emod_eq_of_lt hFits.1 hq] at hSame
    exact hSame
  | true =>
    simp only [if_true] at hFits ⊢
    rw [toInt_eq_toNat_bmod, toNat_ofNat, Nat.mod_eq_of_lt hR, ← Int.emod_bmod, hSame, Int.emod_bmod]
    have hLow : -((2 ^ (w - 1) : Nat) : Int) ≤ q := by exact_mod_cast hFits.1
    have hHigh : q < ((2 ^ (w - 1) : Nat) : Int) := by exact_mod_cast hFits.2
    rw [Int.bmod_eq_of_le] <;> omega

theorem toNat_emod_toInt {W w : Nat} (x : BitVec W) (h : w ≤ W) : (x.toNat : Int) % (2 ^ w : Nat) = x.toInt % (2 ^ w : Nat) := by
  have hDvd : ((2 ^ w : Nat) : Int) ∣ (2 ^ W : Nat) := by exact_mod_cast Nat.pow_dvd_pow 2 h
  rw [toInt_eq_toNat_bmod, ← Int.emod_emod_of_dvd ((x.toNat : Int).bmod (2 ^ W)) hDvd, Int.bmod_emod, Int.emod_emod_of_dvd _ hDvd]

theorem setWidth_emod {W w : Nat} (x : BitVec W) (h : w ≤ 64) : ((x.setWidth 64).toNat : Int) % (2 ^ w : Nat) = (x.toNat : Int) % (2 ^ w : Nat) := by
  rw [toNat_setWidth, Int.natCast_mod, Int.emod_emod_of_dvd]
  exact_mod_cast Nat.pow_dvd_pow 2 h

end Numbers

/-! ## The host's division -/

section Host

variable {w : Nat} {m : Machine}

theorem hostSdivMod_run (n d : BitVec w) (hd : d.toInt ≠ 0) :
    (hostSdivMod n d m = some (.error .panic, m) ∧ n = BitVec.intMin w ∧ d = -1) ∨
      ((n ≠ BitVec.intMin w ∨ d ≠ -1) ∧ ∃ q r, hostSdivMod n d m = some (.ok (q, r), m) ∧ q.toInt = n.toInt.tdiv d.toInt ∧
        r.toInt = n.toInt.tmod d.toInt) := by
  have hZero : d ≠ 0 := by
    rintro rfl
    exact hd toInt_zero
  unfold hostSdivMod
  by_cases hWraps : n = BitVec.intMin w ∧ d = -1
  · exact .inl ⟨by rw [if_pos (.inr hWraps)]; rfl, hWraps⟩
  · have hNot : n ≠ BitVec.intMin w ∨ d ≠ -1 := by
      by_cases hn : n = BitVec.intMin w
      · exact .inr fun hd => hWraps ⟨hn, hd⟩
      · exact .inl hn
    refine .inr ⟨hNot, n.sdiv d, n.srem d, ?_, toInt_sdiv_of_ne_or_ne n d hNot, toInt_srem n d⟩
    rw [if_neg (by rintro (h | h); exacts [hZero h, hWraps h])]
    rfl

theorem hostDivMod_run (n d : BitVec w) (hd : d.toNat ≠ 0) : ∃ q r : BitVec w, hostDivMod n d m = some (.ok (q, r), m) ∧
    (q.toNat : Int) = (n.toNat : Int).tdiv d.toNat ∧ (r.toNat : Int) = (n.toNat : Int).tmod d.toNat := by
  refine ⟨n / d, n % d, ?_, ?_, ?_⟩
  · unfold hostDivMod
    rw [if_neg (fun h => hd (by rw [h]; exact toNat_zero))]
    rfl
  · rw [toNat_udiv, Int.ofNat_tdiv]
  · rw [toNat_umod, Int.ofNat_tmod]

end Host

/-! ## The operands -/

section Operands

variable {hi lo v : U64} {size : Nat}

theorem number_true (bits n : Nat) : numberOf bits n true = (BitVec.ofNat bits n).toInt := rfl

theorem number_false (bits n : Nat) : numberOf bits n false = n := rfl

theorem toInt_setWidth (v : U64) (w : Nat) : (v.setWidth w).toInt = numberOf w v.toNat true := by
  rw [number_true, ofNat_toNat]

theorem toNat_wide (hSize : size = 2 ∨ size = 4 ∨ size = 8) (hHi : hi.toNat < 2 ^ (8 * size)) (hLo : lo.toNat < 2 ^ (8 * size)) :
    ((hi.setWidth 128 <<< (size * 8)) ||| lo.setWidth 128 : U128).toNat = hi.toNat * 2 ^ (8 * size) + lo.toNat := by
  rw [toNat_or, toNat_shiftLeft, toNat_setWidth, toNat_setWidth]
  have hOr := Nat.shiftLeft_add_eq_or_of_lt hLo hi.toNat
  rw [Nat.shiftLeft_eq] at hOr
  rw [Nat.shiftLeft_eq, Nat.mul_comm size 8, Nat.mod_eq_of_lt (by omega : hi.toNat < 2 ^ 128), Nat.mod_eq_of_lt (by omega : lo.toNat < 2 ^ 128),
    Nat.mod_eq_of_lt, ← hOr]
  rcases hSize with rfl | rfl | rfl <;> simp only [Nat.reduceMul, Nat.reducePow] at hHi ⊢ <;> omega

theorem toInt_wide (hSize : size = 2 ∨ size = 4 ∨ size = 8) (hHi : hi.toNat < 2 ^ (8 * size)) (hLo : lo.toNat < 2 ^ (8 * size)) :
    (wideDividend hi lo size true).toInt = numberOf (16 * size) (hi.toNat * 2 ^ (8 * size) + lo.toNat) true := by
  have hMask : lo.setWidth 128 &&& (mask size).setWidth 128 = lo.setWidth 128 := by
    rw [← setWidth_and]
    congr 1
    refine eq_of_toNat_eq ?_
    rw [toNat_and_mask lo (isUintSize_iff.mpr (.inr hSize)), unsigned, Nat.mod_eq_of_lt hLo]
  have hNum := toNat_wide hSize hHi hLo
  unfold wideDividend
  dsimp only
  rw [if_pos rfl, hMask, toInt_sshiftRight, toInt_eq_toNat_cond, toNat_shiftLeft, hNum, number_true,
    toInt_eq_toNat_cond, toNat_ofNat, Int.shiftRight_eq_div_pow, Nat.shiftLeft_eq]
  rcases hSize with rfl | rfl | rfl <;> simp only [Nat.reduceMul, Nat.reducePow, Nat.reduceSub] at hHi hLo ⊢ <;>
    split <;> split <;> omega

theorem toInt_sext (hSize : size = 2 ∨ size = 4 ∨ size = 8) (v : U64) : ((sext v size).signExtend 128).toInt = numberOf (8 * size) v.toNat true := by
  rw [toInt_signExtend_of_le (by decide), ← toInt_setWidth]
  rcases hSize with rfl | rfl | rfl
  · exact toInt_signExtend_of_le (by decide)
  · exact toInt_signExtend_of_le (by decide)
  · exact (congrArg BitVec.toInt (setWidth_eq v)).symm

theorem number_ne_zero {sign : Bool} (hv : v ≠ 0) (hRange : v.toNat < 2 ^ (8 * size)) : numberOf (8 * size) v.toNat sign ≠ 0 := by
  have hPos : v.toNat ≠ 0 := fun h => hv (eq_of_toNat_eq h)
  cases sign with
  | false =>
    rw [number_false]
    omega
  | true =>
    rw [number_true]
    intro hZero
    have hNone := eq_of_toInt_eq (hZero.trans BitVec.toInt_zero.symm)
    have hNat := congrArg BitVec.toNat hNone
    rw [toNat_ofNat, Nat.mod_eq_of_lt hRange] at hNat
    exact hPos hNat

end Operands

/-! ## What is written -/

/-- Quotient and remainder have been written, each cut to its place, and no flag has changed. -/
structure Written (s s' : CpuState) (size : Nat) (q r : Int) : Prop where
  rip : s'.rip = s.rip
  rflags : s'.rflags = s.rflags
  quotientRange : quotientBits s' size < 2 ^ (8 * size)
  quotient : (quotientBits s' size : Int) % (2 ^ (8 * size) : Nat) = q % (2 ^ (8 * size) : Nat)
  remainderRange : remainderBits s' size < 2 ^ (8 * size)
  remainder : (remainderBits s' size : Int) % (2 ^ (8 * size) : Nat) = r % (2 ^ (8 * size) : Nat)

section Writing

variable {s s' : CpuState} {size : Nat} {q r n d : Int} {sign : Bool}

theorem unsigned_emod (v : U64) (h : (v.toNat : Int) % (2 ^ (8 * size) : Nat) = q % (2 ^ (8 * size) : Nat)) :
    (unsigned size v : Int) % (2 ^ (8 * size) : Nat) = q % (2 ^ (8 * size) : Nat) := by
  unfold unsigned
  rw [Int.natCast_mod, Int.emod_emod_of_dvd _ (dvd_refl _), h]

theorem written_wide (hSize : size = 2 ∨ size = 4 ∨ size = 8) (s : CpuState) {x y : U64}
    (hq : (x.toNat : Int) % (2 ^ (8 * size) : Nat) = q % (2 ^ (8 * size) : Nat))
    (hr : (y.toNat : Int) % (2 ^ (8 * size) : Nat) = r % (2 ^ (8 * size) : Nat)) :
    Written s ((s.gprWrite 0 size x).gprWrite 2 size y) size q r := by
  have hSizes := isUintSize_iff.mpr (.inr hSize)
  have hQuotient : quotientBits ((s.gprWrite 0 size x).gprWrite 2 size y) size = unsigned size x := by
    unfold quotientBits
    rw [gprRead_gprWrite_ne _ _ _ _ (by decide), toNat_gprRead_gprWrite _ _ _ hSizes]
  have hRemainder : remainderBits ((s.gprWrite 0 size x).gprWrite 2 size y) size = unsigned size y := by
    unfold remainderBits
    rw [if_neg (by omega), toNat_gprRead_gprWrite _ _ _ hSizes]
  refine ⟨rfl, rfl, ?_, ?_, ?_, ?_⟩
  · rw [hQuotient]
    exact unsigned_lt size x
  · rw [hQuotient]
    exact unsigned_emod x hq
  · rw [hRemainder]
    exact unsigned_lt size y
  · rw [hRemainder]
    exact unsigned_emod y hr

theorem getLsbD_low (k : Nat) : (0xff : U64).getLsbD k = decide (k < 8) := by
  rw [show (0xff : U64) = (BitVec.allOnes 8).setWidth 64 by decide, getLsbD_setWidth, getLsbD_allOnes]
  by_cases hk : k < 8
  · simp [hk, show k < 64 by omega]
  · simp [hk]

theorem getLsbD_high (k : Nat) : (0xff00 : U64).getLsbD k = decide (8 ≤ k ∧ k < 16) := by
  rw [show (0xff00 : U64) = (0xff : U64) <<< 8 by decide, getLsbD_shiftLeft, getLsbD_low, Bool.eq_iff_iff]
  simp only [Bool.and_eq_true, decide_eq_true_iff, Bool.not_eq_true', decide_eq_false_iff_not]
  omega

theorem low_of_high (slot y : U64) : ((slot &&& ~~~(0xff00 : U64)) ||| ((y &&& 0xff) <<< 8)) &&& 0xff = slot &&& 0xff := by
  apply eq_of_getLsbD_eq
  intro k hk
  simp only [getLsbD_and, getLsbD_or, getLsbD_not, getLsbD_shiftLeft, getLsbD_low, getLsbD_high]
  by_cases hLow : k < 8
  · simp [hLow, hk, show ¬8 ≤ k by omega]
  · simp [hLow]

theorem high_of_high (slot y : U64) : (((slot &&& ~~~(0xff00 : U64)) ||| ((y &&& 0xff) <<< 8)) >>> 8) &&& 0xff = y &&& 0xff := by
  apply eq_of_getLsbD_eq
  intro k hk
  simp only [getLsbD_and, getLsbD_or, getLsbD_not, getLsbD_shiftLeft, getLsbD_ushiftRight, getLsbD_low,
    getLsbD_high]
  by_cases hLow : k < 8
  · simp [hLow, show 8 + k < 16 by omega, show 8 + k < 64 by omega]
  · simp [hLow]

theorem written_byte (s : CpuState) {x y : U64} (hq : (x.toNat : Int) % (2 ^ (8 * 1) : Nat) = q % (2 ^ (8 * 1) : Nat))
    (hr : (y.toNat : Int) % (2 ^ (8 * 1) : Nat) = r % (2 ^ (8 * 1) : Nat)) : Written s ((s.gprWrite 0 1 x).gprWriteHigh8 0 y) 1 q r := by
  have hHere : regIdx (0 &&& 3) = regIdx 0 := rfl
  have hQuotient : quotientBits ((s.gprWrite 0 1 x).gprWriteHigh8 0 y) 1 = unsigned 1 x := by
    rw [← toNat_gprRead_gprWrite s 0 x (show VirtualMemory.isUintSize 1 = true by decide)]
    unfold quotientBits CpuState.gprRead CpuState.gprWriteHigh8 CpuState.setReg
    dsimp only
    rw [hHere, Function.update_self]
    exact congrArg BitVec.toNat (low_of_high _ y)
  have hRemainder : remainderBits ((s.gprWrite 0 1 x).gprWriteHigh8 0 y) 1 = unsigned 1 y := by
    rw [← toNat_and_mask y (by decide)]
    unfold remainderBits CpuState.gprReadHigh8 CpuState.gprWriteHigh8 CpuState.setReg
    rw [if_pos rfl]
    dsimp only
    rw [hHere, Function.update_self]
    exact congrArg BitVec.toNat (high_of_high _ y)
  refine ⟨rfl, rfl, ?_, ?_, ?_, ?_⟩
  · rw [hQuotient]
    exact unsigned_lt 1 x
  · rw [hQuotient]
    exact unsigned_emod x hq
  · rw [hRemainder]
    exact unsigned_lt 1 y
  · rw [hRemainder]
    exact unsigned_emod y hr

theorem remainder_fits (hd : d ≠ 0) (hPos : sign = false → 0 ≤ n ∧ 0 ≤ d) (hDivisor : d.natAbs ≤ if sign then 2 ^ (8 * size - 1) else 2 ^ (8 * size)) :
    if sign then -2 ^ (8 * size - 1) ≤ n.tmod d ∧ n.tmod d < 2 ^ (8 * size - 1) else 0 ≤ n.tmod d ∧ n.tmod d < 2 ^ (8 * size) := by
  have hLess : (n.tmod d).natAbs < d.natAbs := by
    rw [Int.natAbs_tmod]
    exact Nat.mod_lt _ (Int.natAbs_pos.mpr hd)
  cases sign with
  | false =>
    have hNonneg := Int.tmod_nonneg d (hPos rfl).1
    simp only [Bool.false_eq_true, if_false] at hDivisor ⊢
    have hPow : (2 : Int) ^ (8 * size) = ((2 ^ (8 * size) : Nat) : Int) := by push_cast; rfl
    rw [hPow]
    omega
  | true =>
    simp only [if_true] at hDivisor ⊢
    have hPow : (2 : Int) ^ (8 * size - 1) = ((2 ^ (8 * size - 1) : Nat) : Int) := by push_cast; rfl
    rw [hPow]
    omega

theorem Written.divides (h : Written s s' size (n.tdiv d) (n.tmod d)) (hSize : 0 < size) (hd : d ≠ 0) (hPos : sign = false → 0 ≤ n ∧ 0 ≤ d)
    (hDivisor : d.natAbs ≤ if sign then 2 ^ (8 * size - 1) else 2 ^ (8 * size)) (hFits : QuotientFits size sign (n.tdiv d)) :
    ∃ q r, q = numberOf (8 * size) (quotientBits s' size) sign ∧ r = numberOf (8 * size) (remainderBits s' size) sign ∧
      n = q * d + r ∧ r.natAbs < d.natAbs ∧ (r = 0 ∨ r.sign = n.sign) := by
  have hQuotient := number_of_fits (by omega) h.quotient h.quotientRange hFits
  have hRemainder := number_of_fits (by omega) h.remainder h.remainderRange (remainder_fits hd hPos hDivisor)
  refine ⟨_, _, hQuotient.symm, hRemainder.symm, ?_, ?_, ?_⟩
  · rw [Int.mul_comm]
    exact (Int.mul_tdiv_add_tmod n d).symm
  · rw [Int.natAbs_tmod]
    exact Nat.mod_lt _ (Int.natAbs_pos.mpr hd)
  · by_cases hDvd : d ∣ n
    · exact .inl (Int.tmod_eq_zero_of_dvd hDvd)
    · refine .inr ?_
      rw [Int.sign_tmod, if_neg hDvd]

end Writing

/-! ## The operation -/

section Operation

variable {ctx : Ctx} {size : Nat} {sign : Bool} {m : Machine} {v : U64} {n d : Int}

theorem dividend_wide (hSize : size = 2 ∨ size = 4 ∨ size = 8) (s : CpuState) (sign : Bool) :
    dividend s size sign = numberOf (16 * size) ((s.gprRead 2 size).toNat * 2 ^ (8 * size) + (s.gprRead 0 size).toNat) sign := by
  unfold dividend dividendBits
  rw [if_neg (by omega)]

theorem divOp_wide (hSize : size = 2 ∨ size = 4 ∨ size = 8) (hRead : readRm ctx size m = some (.ok v, m)) (hv : v ≠ 0)
    (hn : n = dividend m.state size sign) (hd : d = numberOf (8 * size) v.toNat sign) :
    (divOp ctx size sign m = some (.error .panic, m) ∧ ¬QuotientFits size sign (n.tdiv d)) ∨
      ∃ s', divOp ctx size sign m = some (.ok none, { m with state := s' }) ∧ Written m.state s' size (n.tdiv d) (n.tmod d) := by
  have hSizes := isUintSize_iff.mpr (.inr hSize)
  have hRange := (readRm_run hSizes hRead).1
  have hHi := gprRead_lt m.state 2 hSizes
  have hLo := gprRead_lt m.state 0 hSizes
  have hWidth : 8 * size ≤ 64 := by omega
  rw [dividend_wide hSize] at hn
  unfold divOp
  rw [bind_of_ok hRead, if_neg hv, if_neg (show ¬size = 1 by omega), bind_of_ok rfl]
  dsimp only
  cases sign with
  | true =>
    rw [if_pos rfl]
    have hDividend := toInt_wide hSize hHi hLo
    have hDivisor := toInt_sext hSize v
    rw [← hn] at hDividend
    rw [← hd] at hDivisor
    have hNonzero : ((sext v size).signExtend 128).toInt ≠ 0 := by
      rw [hDivisor, hd]
      exact number_ne_zero hv hRange
    rcases hostSdivMod_run (m := m) (wideDividend (m.state.gprRead 2 size) (m.state.gprRead 0 size) size true) ((sext v size).signExtend 128)
      hNonzero with ⟨hPanic, hMin, hMinus⟩ | ⟨-, q, r, hDone, hQuotient, hRemainder⟩
    · refine .inl ⟨bind_of_error hPanic, ?_⟩
      rw [hMin] at hDividend
      rw [hMinus] at hDivisor
      rw [← hDividend, ← hDivisor]
      rintro ⟨-, hHigh⟩
      have hLess : (2 : Int) ^ (8 * size - 1) ≤ 2 ^ 63 := by
        rcases hSize with rfl | rfl | rfl <;> decide
      exact absurd (hHigh.trans_le hLess) (by decide)
    · rw [hDividend, hDivisor] at hQuotient hRemainder
      refine .inr ⟨(m.state.gprWrite 0 size (q.setWidth 64)).gprWrite 2 size (r.setWidth 64), ?_, written_wide hSize m.state ?_ ?_⟩
      · rw [bind_of_ok hDone]
        rfl
      · rw [setWidth_emod q hWidth, toNat_emod_toInt q (by omega), hQuotient]
      · rw [setWidth_emod r hWidth, toNat_emod_toInt r (by omega), hRemainder]
  | false =>
    rw [if_neg (by decide)]
    have hDividend : (wideDividend (m.state.gprRead 2 size) (m.state.gprRead 0 size) size false).toNat = n := by
      rw [hn, number_false]
      exact congrArg Nat.cast (toNat_wide hSize hHi hLo)
    have hDivisor : (v.setWidth 128 : U128).toNat = v.toNat := by
      rw [toNat_setWidth, Nat.mod_eq_of_lt (by omega)]
    have hNonzero : (v.setWidth 128 : U128).toNat ≠ 0 := by
      rw [hDivisor]
      exact fun h => hv (eq_of_toNat_eq h)
    obtain ⟨q, r, hDone, hQuotient, hRemainder⟩ := hostDivMod_run (m := m)
      (wideDividend (m.state.gprRead 2 size) (m.state.gprRead 0 size) size false) (v.setWidth 128) hNonzero
    rw [hDividend, hDivisor, ← number_false (8 * size) v.toNat, ← hd] at hQuotient hRemainder
    refine .inr ⟨(m.state.gprWrite 0 size (q.setWidth 64)).gprWrite 2 size (r.setWidth 64), ?_, written_wide hSize m.state ?_ ?_⟩
    · rw [bind_of_ok hDone]
      rfl
    · rw [setWidth_emod q hWidth, hQuotient]
    · rw [setWidth_emod r hWidth, hRemainder]

theorem dividend_byte (s : CpuState) (sign : Bool) : dividend s 1 sign = numberOf 16 (s.gprRead 0 2).toNat sign := rfl

theorem divOp_byte_signed (hRead : readRm ctx 1 m = some (.ok v, m)) (hv : v ≠ 0) (hn : n = dividend m.state 1 true)
    (hd : d = numberOf 8 v.toNat true) :
    (divOp ctx 1 true m = some (.error .panic, m) ∧ n = -32768 ∧ d = -1) ∨
      (¬(n = -32768 ∧ d = -1) ∧ ¬QuotientFits 1 true (n.tdiv d) ∧ divOp ctx 1 true m = some (.ok (some (.Interrupt 0)), m)) ∨
        (¬(n = -32768 ∧ d = -1) ∧ QuotientFits 1 true (n.tdiv d) ∧
          ∃ s', divOp ctx 1 true m = some (.ok none, { m with state := s' }) ∧ Written m.state s' 1 (n.tdiv d) (n.tmod d)) := by
  have hDividend : ((m.state.gprRead 0 2).setWidth 16 : U16).toInt = n := by
    rw [hn, dividend_byte, toInt_setWidth]
  have hDivisor : ((v.setWidth 8).signExtend 16 : U16).toInt = d := by
    rw [hd, toInt_signExtend_of_le (by decide), toInt_setWidth]
  have hNonzero : ((v.setWidth 8).signExtend 16 : U16).toInt ≠ 0 := by
    rw [hDivisor, hd]
    exact number_ne_zero hv (readRm_run (by decide) hRead).1
  unfold divOp
  rw [bind_of_ok hRead, if_neg hv, if_pos rfl, bind_of_ok rfl]
  dsimp only
  rw [if_pos rfl]
  rcases hostSdivMod_run (m := m) ((m.state.gprRead 0 2).setWidth 16 : U16) ((v.setWidth 8).signExtend 16) hNonzero with
    ⟨hPanic, hMin, hMinus⟩ | ⟨hNot, q, r, hDone, hQuotient, hRemainder⟩
  · rw [hMin] at hDividend
    rw [hMinus] at hDivisor
    exact .inl ⟨bind_of_error hPanic, hDividend.symm, hDivisor.symm⟩
  · rw [hDividend, hDivisor] at hQuotient hRemainder
    have hSafe : ¬(n = -32768 ∧ d = -1) := by
      rintro ⟨hMin, hMinus⟩
      rcases hNot with hNot | hNot
      · exact hNot (eq_of_toInt_eq (hDividend.trans hMin))
      · exact hNot (eq_of_toInt_eq (hDivisor.trans hMinus))
    have hFits : (-128 ≤ q.toInt ∧ q.toInt ≤ 127) ↔ QuotientFits 1 true (n.tdiv d) := by
      rw [hQuotient]
      unfold QuotientFits
      norm_num
      omega
    rw [bind_of_ok hDone]
    dsimp only
    by_cases hPlace : QuotientFits 1 true (n.tdiv d)
    · refine .inr (.inr ⟨hSafe, hPlace, (m.state.gprWrite 0 1 (q.signExtend 64)).gprWriteHigh8 0 (r.signExtend 64), ?_,
        written_byte m.state ?_ ?_⟩)
      · rw [if_neg (not_not.mpr (hFits.mpr hPlace))]
        rfl
      · rw [toNat_emod_toInt _ (by decide), toInt_signExtend_of_le (by decide), hQuotient]
      · rw [toNat_emod_toInt _ (by decide), toInt_signExtend_of_le (by decide), hRemainder]
    · refine .inr (.inl ⟨hSafe, hPlace, ?_⟩)
      rw [if_pos (mt hFits.mp hPlace)]
      rfl

theorem divOp_byte_unsigned (hRead : readRm ctx 1 m = some (.ok v, m)) (hv : v ≠ 0) (hn : n = dividend m.state 1 false)
    (hd : d = numberOf 8 v.toNat false) :
    ∃ s', divOp ctx 1 false m = some (.ok none, { m with state := s' }) ∧ Written m.state s' 1 (n.tdiv d) (n.tmod d) := by
  have hByte : v &&& 0xff = v := by
    refine eq_of_toNat_eq ((toNat_and_mask v (show VirtualMemory.isUintSize 1 = true by decide)).trans ?_)
    exact Nat.mod_eq_of_lt (readRm_run (by decide) hRead).1
  have hNonzero : (v &&& 0xff).toNat ≠ 0 := by
    rw [hByte]
    exact fun h => hv (eq_of_toNat_eq h)
  unfold divOp
  rw [bind_of_ok hRead, if_neg hv, if_pos rfl, bind_of_ok rfl]
  dsimp only
  rw [if_neg (by decide)]
  obtain ⟨q, r, hDone, hQuotient, hRemainder⟩ := hostDivMod_run (m := m) (m.state.gprRead 0 2) (v &&& 0xff) hNonzero
  rw [hByte, ← number_false 8 v.toNat, ← hd, ← number_false 16 (m.state.gprRead 0 2).toNat, ← dividend_byte, ← hn] at hQuotient hRemainder
  have hCut : ∀ x : U64, (((x.setWidth 16).signExtend 64).toNat : Int) % (2 ^ (8 * 1) : Nat) = (x.toNat : Int) % (2 ^ (8 * 1) : Nat) := by
    intro x
    rw [toNat_emod_toInt _ (by decide), toInt_signExtend_of_le (by decide), ← toNat_emod_toInt _ (by decide), toNat_setWidth]
    omega
  refine ⟨(m.state.gprWrite 0 1 ((q.setWidth 16).signExtend 64)).gprWriteHigh8 0 ((r.setWidth 16).signExtend 64), ?_, written_byte m.state ?_ ?_⟩
  · rw [bind_of_ok hDone]
    rfl
  · rw [hCut, hQuotient]
  · rw [hCut, hRemainder]

/-! ## The instruction -/

theorem executeDiv_panic (h : divOp ctx size sign m = some (.error .panic, m)) : executeDiv ctx size sign m = some (.error .panic, m) :=
  bind_of_error h

theorem executeDiv_interrupt (h : divOp ctx size sign m = some (.ok (some (.Interrupt 0)), m)) :
    executeDiv ctx size sign m = some (.ok (.Interrupt 0), m) := bind_of_ok h

theorem executeDiv_continue {s' : CpuState} (h : divOp ctx size sign m = some (.ok none, { m with state := s' })) :
    executeDiv ctx size sign m = some (.ok .Continue, { m with state := { s' with rip := ctx.cur &&& ctx.bits.addrMask } }) := bind_of_ok h

theorem divides_of_written {s' : CpuState} (hSize : 0 < size) (hd : d ≠ 0) (hPos : sign = false → 0 ≤ n ∧ 0 ≤ d)
    (hDivisor : d.natAbs ≤ if sign then 2 ^ (8 * size - 1) else 2 ^ (8 * size))
    (hRun : divOp ctx size sign m = some (.ok none, { m with state := s' })) (hWritten : Written m.state s' size (n.tdiv d) (n.tmod d)) :
    Divides ctx size sign n d m (executeDiv ctx size sign m) ↔ QuotientFits size sign (n.tdiv d) := by
  rw [executeDiv_continue hRun]
  constructor
  · intro h
    by_contra hNot
    have hFaults := Option.some.inj (h.faults (.inr hNot))
    cases (Prod.mk.inj hFaults).1
  · intro hFits
    refine ⟨fun h => ?_, fun _ _ => ⟨_, rfl, rfl, hWritten.rflags, hWritten.divides hSize hd hPos hDivisor hFits⟩⟩
    rcases h with h | h
    · exact absurd h hd
    · exact absurd hFits h

theorem not_divides_of_panic (hRun : divOp ctx size sign m = some (.error .panic, m)) (hNot : ¬QuotientFits size sign (n.tdiv d)) :
    ¬Divides ctx size sign n d m (executeDiv ctx size sign m) := by
  intro h
  have hFaults := h.faults (.inr hNot)
  rw [executeDiv_panic hRun] at hFaults
  cases (Prod.mk.inj (Option.some.inj hFaults)).1

theorem number_bounds (hSize : 0 < size) (hRange : v.toNat < 2 ^ (8 * size)) (sign : Bool) :
    (numberOf (8 * size) v.toNat sign).natAbs ≤ if sign then 2 ^ (8 * size - 1) else 2 ^ (8 * size) := by
  cases sign with
  | false =>
    rw [number_false]
    simp only [Bool.false_eq_true, if_false, Int.natAbs_natCast]
    omega
  | true =>
    have hHalves : 2 ^ (8 * size) = 2 * 2 ^ (8 * size - 1) := by rw [← Nat.pow_succ']; congr 1; omega
    rw [number_true, toInt_eq_toNat_cond, toNat_ofNat, Nat.mod_eq_of_lt hRange]
    simp only [if_true]
    split <;> omega

theorem dividend_nonneg (s : CpuState) (size : Nat) : 0 ≤ dividend s size false := Int.natCast_nonneg _

/-- A division does what it has to when the divisor is zero or the quotient fits; of the others only those of signed bytes
are found out, unless the host panics. -/
theorem executeDiv_divides_iff (hSize : VirtualMemory.isUintSize size = true) (hRead : readRm ctx size m = some (.ok v, m)) :
    Divides ctx size sign (dividend m.state size sign) (numberOf (8 * size) v.toNat sign) m (executeDiv ctx size sign m) ↔
      v = 0 ∨ InRange size sign (dividend m.state size sign) (numberOf (8 * size) v.toNat sign) ∨
        (size = 1 ∧ sign = true ∧ ¬(dividend m.state size sign = -32768 ∧ numberOf (8 * size) v.toNat sign = -1)) := by
  have hRange := (readRm_run hSize hRead).1
  have hPositive : 0 < size := by rcases isUintSize_iff.mp hSize with rfl | rfl | rfl | rfl <;> decide
  by_cases hv : v = 0
  · have hZero : numberOf (8 * size) v.toNat sign = 0 := by
      rw [hv]
      cases sign with
      | false => rfl
      | true =>
        rw [number_true]
        exact BitVec.toInt_zero
    have hRun : divOp ctx size sign m = some (.ok (some (.Interrupt 0)), m) := by
      unfold divOp
      rw [bind_of_ok hRead, if_pos hv]
      rfl
    refine iff_of_true ⟨fun _ => executeDiv_interrupt hRun, fun hd => absurd hZero hd⟩ (.inl hv)
  · have hd : numberOf (8 * size) v.toNat sign ≠ 0 := number_ne_zero hv hRange
    have hBounds := number_bounds hPositive hRange sign
    have hPos : sign = false → 0 ≤ dividend m.state size sign ∧ 0 ≤ numberOf (8 * size) v.toNat sign := by
      rintro rfl
      exact ⟨dividend_nonneg _ _, Int.natCast_nonneg _⟩
    rw [← fits_iff_inRange hd hPos]
    rcases isUintSize_iff.mp hSize with rfl | hWide
    · cases sign with
      | false =>
        obtain ⟨s', hRun, hWritten⟩ := divOp_byte_unsigned hRead hv rfl rfl
        rw [divides_of_written hPositive hd hPos hBounds hRun hWritten]
        refine ⟨fun hFits => .inr (.inl hFits), ?_⟩
        rintro (hZero | hFits | ⟨-, hSigned, -⟩)
        · exact absurd hZero hv
        · exact hFits
        · cases hSigned
      | true =>
        rcases divOp_byte_signed hRead hv rfl rfl with ⟨hPanic, hMin, hMinus⟩ | ⟨hSafe, hNot, hRun⟩ | ⟨hSafe, hFits, s', hRun, hWritten⟩
        · have hNot : ¬QuotientFits 1 true ((dividend m.state 1 true).tdiv (numberOf (8 * 1) v.toNat true)) := by
            rw [hMin, show numberOf (8 * 1) v.toNat true = -1 from hMinus]
            unfold QuotientFits
            decide
          refine iff_of_false (not_divides_of_panic hPanic hNot) ?_
          rintro (hZero | hFits | ⟨-, -, hSafe⟩)
          · exact hv hZero
          · exact hNot hFits
          · exact hSafe ⟨hMin, hMinus⟩
        · refine iff_of_true ⟨fun _ => executeDiv_interrupt hRun, fun _ hFits => absurd hFits hNot⟩ (.inr (.inr ⟨rfl, rfl, hSafe⟩))
        · exact iff_of_true ((divides_of_written hPositive hd hPos hBounds hRun hWritten).mpr hFits) (.inr (.inl hFits))
    · have hOther : ¬size = 1 := by omega
      rcases divOp_wide hWide hRead hv rfl rfl with ⟨hPanic, hNot⟩ | ⟨s', hRun, hWritten⟩
      · refine iff_of_false (not_divides_of_panic hPanic hNot) ?_
        rintro (hZero | hFits | ⟨hByte, -⟩)
        · exact hv hZero
        · exact hNot hFits
        · exact hOther hByte
      · rw [divides_of_written hPositive hd hPos hBounds hRun hWritten]
        refine ⟨fun hFits => .inr (.inl hFits), ?_⟩
        rintro (hZero | hFits | ⟨hByte, -⟩)
        · exact absurd hZero hv
        · exact hFits
        · exact absurd hByte hOther

end Operation

/-! ## Three divisions -/

/-- AX is `0x8000`, RDX:RAX is `2 ^ 64`, and the divisors are in RBX, RCX and RSI. -/
def dividing : Machine :=
  { state := { gpr := fun i => if i = 0 then 0x8000 else if i = 2 then 1 else if i = 3 then 0xff else if i = 1 then 1 else if i = 6 then 7 else 0 }
    mem := .new }

theorem executeDiv_of_seven : Divides ⟨{}, 0x1003, 6, .Reg 6, .B64⟩ 4 false (dividend dividing.state 4 false) 7 dividing
    (executeDiv ⟨{}, 0x1003, 6, .Reg 6, .B64⟩ 4 false dividing) :=
  (executeDiv_divides_iff (v := 7) (by decide) rfl).mpr (.inr (.inl (by unfold InRange; decide)))

/-- `IDIV BL` of -32768 by -1 stops the host, and `DIV RCX` of `2 ^ 64 + 0x8000` by one goes through. -/
theorem executeDiv_misses :
    ¬Divides ⟨{}, 0x1002, 7, .Reg 3, .B64⟩ 1 true (dividend dividing.state 1 true) (-1) dividing
        (executeDiv ⟨{}, 0x1002, 7, .Reg 3, .B64⟩ 1 true dividing) ∧
      ¬Divides ⟨{ rex := 0x48, hasRex := true }, 0x1003, 6, .Reg 1, .B64⟩ 8 false (dividend dividing.state 8 false) 1 dividing
        (executeDiv ⟨{ rex := 0x48, hasRex := true }, 0x1003, 6, .Reg 1, .B64⟩ 8 false dividing) := by
  constructor
  · intro h
    have hFaults := h.faults (.inr (by unfold QuotientFits; decide))
    have hRun : (executeDiv ⟨{}, 0x1002, 7, .Reg 3, .B64⟩ 1 true dividing).map (fun p => p.1) = some (.error .panic) := by decide
    rw [hFaults] at hRun
    cases hRun
  · intro h
    have hFaults := h.faults (.inr (by unfold QuotientFits; decide))
    have hRun : (executeDiv ⟨{ rex := 0x48, hasRex := true }, 0x1003, 6, .Reg 1, .B64⟩ 8 false dividing).map (fun p => p.1) =
        some (.ok .Continue) := by decide
    rw [hFaults] at hRun
    cases hRun

end Interp

end Exemu
