import Exemu.Cpu.Interpreter
import Exemu.Cpu.Shift
import Exemu.Library.Runs

/-! # Bit manipulation with a VEX prefix

These instructions take one operand from a register that the prefix names.
-/
namespace Exemu

namespace Interp

open VirtualMemory (isUintSize)
open Nat
open BitVec hiding or_assoc

open Scatter (rank packed spread)

/-- The prefix, without the parts that go into the registers' numbers. -/
structure Vex where
  w : Bool := false
  vvvv : U8 := 0
  l : Bool := false
  pp : BitVec 2 := 0
  mmmmm : U8 := 1
  deriving DecidableEq

def bmiSize (vex : Vex) : Nat := if vex.w then 8 else 4

def orPanic {α : Type} : Option α → Except Stop α
  | some a => .ok a
  | none => .error .panic

/-- The operand is read, and the rest of the instruction changes registers and flags alone. -/
def bmiArm (ctx : Ctx) (vex : Vex) (f : CpuState → U64 → Except Stop CpuState) : Exec Unit := do
  let src ← readRm ctx (bmiSize vex)
  Fallible.step fun m => (f m.state src).map fun s => ((), { m with state := s })

def bmiSzf (s : CpuState) (res : U64) (size : Nat) : CpuState :=
  ((s.setFlag flags.SF (res &&& signBit size != 0)).setFlag flags.ZF (res == 0)).setFlag flags.OF false

def bmiAndn (ctx : Ctx) (vex : Vex) : Exec Unit :=
  let size := bmiSize vex
  bmiArm ctx vex fun s src =>
    let res := (~~~s.gprRead vex.vvvv size &&& src) &&& mask size
    .ok (bmiSzf ((writeRegField ctx s size res).setFlag flags.CF false) res size)

def bmiGroup17 (ctx : Ctx) (vex : Vex) : Exec Unit :=
  let size := bmiSize vex
  let m := mask size
  let digit := ctx.reg &&& 7
  bmiArm ctx vex fun s src => do
    let src := src &&& m
    let (res, cf) ←
      if digit = 1 then .ok (src &&& (src - 1) &&& m, src == 0)
      else if digit = 2 then .ok (((src - 1) ^^^ src) &&& m, src == 0)
      else if digit = 3 then .ok (-src &&& src &&& m, src != 0)
      else .error (.err (.unsupported "VEX 0F38 F3"))
    let s := (s.gprWrite vex.vvvv size res).setFlag flags.CF cf
    if digit = 2 then
      return ((s.setFlag flags.SF (res &&& signBit size != 0)).setFlag flags.ZF false).setFlag flags.OF false
    else return bmiSzf s res size

def bzhiResult (src : U64) (idx bits : Nat) : Option U64 :=
  if bits ≤ idx then some src else do return src &&& ((← hostShl 1 idx) - 1)

/-- The bits of `val` under the mask: `n` rounds from bit `i` on, of which `k` were under it so far. -/
def pextLoop (val mask : U64) : Nat → Nat → U64 → Nat → Option U64
  | 0, _, res, _ => some res
  | n + 1, i, res, k => do
    if (← hostShr mask i) &&& 1 != 0 then
      let res ← if (← hostShr val i) &&& 1 != 0 then do pure (res ||| (← hostShl 1 k)) else some res
      pextLoop val mask n (i + 1) res (k + 1)
    else pextLoop val mask n (i + 1) res k

def pdepLoop (val mask : U64) : Nat → Nat → U64 → Nat → Option U64
  | 0, _, res, _ => some res
  | n + 1, i, res, k => do
    if (← hostShr mask i) &&& 1 != 0 then
      let res ← if (← hostShr val k) &&& 1 != 0 then do pure (res ||| (← hostShl 1 i)) else some res
      pdepLoop val mask n (i + 1) res (k + 1)
    else pdepLoop val mask n (i + 1) res k

def pext (size : Nat) (val mask' : U64) : Option U64 := do
  return (← pextLoop (val &&& mask size) (mask' &&& mask size) (size * 8) 0 0 0) &&& mask size

def pdep (size : Nat) (val mask' : U64) : Option U64 := do
  return (← pdepLoop (val &&& mask size) (mask' &&& mask size) (size * 8) 0 0 0) &&& mask size

def bmiF5 (ctx : Ctx) (vex : Vex) : Exec Unit :=
  let size := bmiSize vex
  let m := mask size
  if vex.pp = 0 then
    bmiArm ctx vex fun s src => do
      let idx := (s.gprRead vex.vvvv size &&& 0xFF).toNat
      let res ← orPanic (bzhiResult (src &&& m) idx (size * 8))
      return bmiSzf ((writeRegField ctx s size (res &&& m)).setFlag flags.CF (decide (size * 8 ≤ idx))) (res &&& m) size
  else if vex.pp = 2 then
    bmiArm ctx vex fun s src => do return writeRegField ctx s size (← orPanic (pext size (s.gprRead vex.vvvv size) src))
  else if vex.pp = 3 then
    bmiArm ctx vex fun s src => do return writeRegField ctx s size (← orPanic (pdep size (s.gprRead vex.vvvv size) src))
  else .step fun _ => .error (.err (.unsupported "VEX 0F38 F5 pp"))

def bmiMulx (ctx : Ctx) (vex : Vex) : Exec Unit :=
  let size := bmiSize vex
  let m := mask size
  if vex.pp ≠ 3 then .step fun _ => .error (.err (.unsupported "VEX 0F38 F6 non-F2"))
  else
    bmiArm ctx vex fun s src =>
      let prod : U128 := (s.gprRead 2 size &&& m).setWidth 128 * (src &&& m).setWidth 128
      .ok (writeRegField ctx (s.gprWrite vex.vvvv size (prod.setWidth 64 &&& m)) size ((prod >>> (size * 8)).setWidth 64 &&& m))

def bextrShifted (src : U64) (start bits : Nat) : Option U64 := if bits ≤ start then some 0 else hostShr src start

def bextrResult (src : U64) (start len bits : Nat) (m : U64) : Option U64 := do
  let shifted ← bextrShifted src start bits
  if bits ≤ len then return shifted &&& m
  else if len = 0 then return 0
  else return shifted &&& ((← hostShl 1 len) - 1)

def shiftxResult (pp : BitVec 2) (src : U64) (cnt bits : Nat) (m : U64) : Option U64 :=
  if pp = 1 then do return (← hostShl src cnt) &&& m
  else if pp = 3 then hostShr src cnt
  else do
    let sb ← hostShl 1 (bits - 1)
    return (← hostSar (if src &&& sb != 0 then src ||| ~~~m else src) cnt) &&& m

def bmiF7 (ctx : Ctx) (vex : Vex) : Exec Unit :=
  let size := bmiSize vex
  let m := mask size
  if vex.pp = 0 then
    bmiArm ctx vex fun s src => do
      let ctrl := s.gprRead vex.vvvv size
      let res ← orPanic (bextrResult (src &&& m) (ctrl &&& 0xFF).toNat ((ctrl >>> 8) &&& 0xFF).toNat (size * 8) m)
      return (((writeRegField ctx s size (res &&& m)).setFlag flags.ZF (res &&& m == 0)).setFlag flags.CF false).setFlag flags.OF false
  else
    bmiArm ctx vex fun s src => do
      let cnt := (s.gprRead vex.vvvv size &&& (BitVec.ofNat 64 (size * 8) - 1)).toNat
      return writeRegField ctx s size (← orPanic (shiftxResult vex.pp (src &&& m) cnt (size * 8) m))

def rorxResult (src : U64) (n bits : Nat) (m : U64) : Option U64 :=
  if n = 0 then some src else do return ((← hostShr src n) ||| (← hostShl src (bits - n))) &&& m

def bmiRorx (ctx : Ctx) (vex : Vex) (imm : U8) : Exec Unit :=
  let size := bmiSize vex
  let m := mask size
  bmiArm ctx vex fun s src => do
    return writeRegField ctx s size (← orPanic (rorxResult (src &&& m) ((imm.setWidth 32 : U32) &&& (BitVec.ofNat 32 (size * 8) - 1)).toNat (size * 8) m))

/-- The bit manipulation arms of `vex_0f38` and `vex_0f3a`. -/
def vexBmi (ctx : Ctx) (vex : Vex) (op imm : U8) : Option (Exec Unit) :=
  if vex.mmmmm = 2 then
    if op = 0xF2 then some (bmiAndn ctx vex)
    else if op = 0xF3 then some (bmiGroup17 ctx vex)
    else if op = 0xF5 then some (bmiF5 ctx vex)
    else if op = 0xF6 then some (bmiMulx ctx vex)
    else if op = 0xF7 then some (bmiF7 ctx vex)
    else none
  else if vex.mmmmm = 3 ∧ op = 0xF0 ∧ vex.pp = 3 then some (bmiRorx ctx vex imm)
  else none

/-! ## What the instructions are to do -/

inductive Bmi where
  | Andn
  | Blsr
  | Blsmsk
  | Blsi
  | Bzhi
  | Pext
  | Pdep
  | Mulx
  | Bextr
  | Shlx
  | Sarx
  | Shrx
  | Rorx
  deriving DecidableEq, Repr

def Bmi.of (vex : Vex) (op reg : U8) : Option Bmi :=
  if vex.mmmmm = 2 then
    if op = 0xF2 then some .Andn
    else if op = 0xF3 then
      if reg &&& 7 = 1 then some .Blsr else if reg &&& 7 = 2 then some .Blsmsk else if reg &&& 7 = 3 then some .Blsi else none
    else if op = 0xF5 then if vex.pp = 0 then some .Bzhi else if vex.pp = 2 then some .Pext else if vex.pp = 3 then some .Pdep else none
    else if op = 0xF6 then if vex.pp = 3 then some .Mulx else none
    else if op = 0xF7 then if vex.pp = 0 then some .Bextr else if vex.pp = 1 then some .Shlx else if vex.pp = 3 then some .Shrx else some .Sarx
    else none
  else if vex.mmmmm = 3 ∧ op = 0xF0 ∧ vex.pp = 3 then some .Rorx
  else none

/-- The registers that are written, in this order, with the bits of each result, and the flags. -/
structure Meaning where
  results : List (U8 × (Nat → Bool))
  flags : List (U64 × Bool) := []

def clearBelow (s : U64) (i : Nat) : Bool := decide (∀ j < i, s.getLsbD j = false)

def clearBits (n : Nat) (f : Nat → Bool) : Bool := decide (∀ i < n, f i = false)

def szFlags (n : Nat) (f : Nat → Bool) : List (U64 × Bool) := [(flags.SF, f (n - 1)), (flags.ZF, clearBits n f), (flags.OF, false)]

def andnBits (v s : U64) (i : Nat) : Bool := !v.getLsbD i && s.getLsbD i
def blsrBits (s : U64) (i : Nat) : Bool := s.getLsbD i && !clearBelow s i
def blsiBits (s : U64) (i : Nat) : Bool := s.getLsbD i && clearBelow s i
def bzhiBits (s : U64) (idx i : Nat) : Bool := decide (i < idx) && s.getLsbD i
def mulBits (d s : U64) (i : Nat) : Bool := (d.toNat * s.toNat).testBit i
def bextrBits (n start len : Nat) (s : U64) (i : Nat) : Bool := decide (i < len) && (decide (start + i < n) && s.getLsbD (start + i))
def shlBits (c : Nat) (s : U64) (i : Nat) : Bool := decide (c ≤ i) && s.getLsbD (i - c)
def shrBits (n c : Nat) (s : U64) (i : Nat) : Bool := decide (i + c < n) && s.getLsbD (i + c)
def sarBits (n c : Nat) (s : U64) (i : Nat) : Bool := s.getLsbD (min (i + c) (n - 1))
def rorBits (n c : Nat) (s : U64) (i : Nat) : Bool := s.getLsbD ((i + c) % n)

/-- The definitions, `n` bits wide: `v` is the register in the prefix, `s` the operand and `d` RDX. -/
def Bmi.meaning (n : Nat) (vvvv reg imm : U8) (v s d : U64) : Bmi → Meaning
  | .Andn => ⟨[(reg, andnBits v s)], (flags.CF, false) :: szFlags n (andnBits v s)⟩
  | .Blsr => ⟨[(vvvv, blsrBits s)], (flags.CF, s == 0) :: szFlags n (blsrBits s)⟩
  | .Blsmsk => ⟨[(vvvv, clearBelow s)], [(flags.CF, s == 0), (flags.SF, clearBelow s (n - 1)), (flags.ZF, false), (flags.OF, false)]⟩
  | .Blsi => ⟨[(vvvv, blsiBits s)], (flags.CF, s != 0) :: szFlags n (blsiBits s)⟩
  | .Bzhi => ⟨[(reg, bzhiBits s (v.toNat % 256))], (flags.CF, decide (n ≤ v.toNat % 256)) :: szFlags n (bzhiBits s (v.toNat % 256))⟩
  | .Pext => ⟨[(reg, packed n v.getLsbD s.getLsbD)], []⟩
  | .Pdep => ⟨[(reg, spread v.getLsbD s.getLsbD)], []⟩
  | .Mulx => ⟨[(vvvv, mulBits d s), (reg, fun i => mulBits d s (n + i))], []⟩
  | .Bextr =>
    let f := bextrBits n (v.toNat % 256) (v.toNat / 256 % 256) s
    ⟨[(reg, f)], [(flags.ZF, clearBits n f), (flags.CF, false), (flags.OF, false)]⟩
  | .Shlx => ⟨[(reg, shlBits (v.toNat % n) s)], []⟩
  | .Sarx => ⟨[(reg, sarBits n (v.toNat % n) s)], []⟩
  | .Shrx => ⟨[(reg, shrBits n (v.toNat % n) s)], []⟩
  | .Rorx => ⟨[(reg, rorBits n (imm.toNat % n) s)], []⟩

def IsWord (n : Nat) (f : Nat → Bool) (r : U64) : Prop := ∀ i, r.getLsbD i = (decide (i < n) && f i)

def Meaning.apply (mean : Meaning) (size : Nat) (values : List U64) (s : CpuState) : CpuState :=
  mean.flags.foldl (fun s p => s.setFlag p.1 p.2) ((mean.results.zip values).foldl (fun s p => s.gprWrite p.1.1 size p.2) s)

/-- The instruction has written what it means, set its flags and left everything else as it was. -/
def Meaning.Done (mean : Meaning) (size : Nat) (m m' : Machine) : Prop :=
  ∃ values, List.Forall₂ (fun p r => IsWord (8 * size) p.2 r) mean.results values ∧ m' = { m with state := mean.apply size values m.state }

/-! ## Bits of the results -/

section Bits

variable {size n i j k c : Nat} {s v val mask' res : U64}

theorem isWord_cut {r : U64} {f : Nat → Bool} (hSize : isUintSize size = true) (h : ∀ i < 8 * size, r.getLsbD i = f i) :
    IsWord (8 * size) f (r &&& mask size) := by
  intro i
  rw [getLsbD_cut r hSize]
  cases hi : decide (i < 8 * size) with
  | false => rfl
  | true => rw [Bool.true_and, Bool.true_and, h i (of_decide_eq_true hi)]

theorem isWord_of_lt {r : U64} {f : Nat → Bool} (hr : ∀ i, n ≤ i → r.getLsbD i = false) (h : ∀ i < n, r.getLsbD i = f i) : IsWord n f r := by
  intro i
  rcases lt_or_ge i n with hi | hi
  · rw [h i hi, decide_eq_true hi, Bool.true_and]
  · rw [hr i hi, decide_eq_false (Nat.not_lt.mpr hi), Bool.false_and]

theorem getLsbD_pred (s : U64) (hi : i < 64) : (s - 1).getLsbD i = (s.getLsbD i ^^ clearBelow s i) := by
  have hBelow : decide (∃ j < i, s.getLsbD j = true) = !clearBelow s i := by
    rw [clearBelow, ← decide_not]
    refine decide_eq_decide.mpr ⟨?_, ?_⟩
    · rintro ⟨j, hj, hOn⟩ hAll
      exact Bool.false_ne_true ((hAll j hj).symm.trans hOn)
    · intro hNot
      by_contra hNone
      refine hNot fun j hj => ?_
      cases hOn : s.getLsbD j with
      | false => rfl
      | true => exact absurd ⟨j, hj, hOn⟩ hNone
  rw [show s - 1 = ~~~(-s) from (not_neg s).symm, getLsbD_not, getLsbD_neg, hBelow, decide_eq_true hi]
  cases s.getLsbD i <;> cases clearBelow s i <;> rfl

theorem getLsbD_neg (s : U64) (hi : i < 64) : (-s).getLsbD i = !(s.getLsbD i ^^ clearBelow s i) := by
  rw [← getLsbD_pred s hi, show s - 1 = ~~~(-s) from (not_neg s).symm, getLsbD_not, decide_eq_true hi, Bool.true_and, Bool.not_not]

theorem blsr_bit (hi : i < 64) : (s &&& (s - 1)).getLsbD i = blsrBits s i := by
  rw [getLsbD_and, getLsbD_pred s hi, blsrBits]
  cases s.getLsbD i <;> cases clearBelow s i <;> rfl

theorem blsmsk_bit (hi : i < 64) : ((s - 1) ^^^ s).getLsbD i = clearBelow s i := by
  rw [getLsbD_xor, getLsbD_pred s hi]
  cases s.getLsbD i <;> cases clearBelow s i <;> rfl

theorem blsi_bit (hi : i < 64) : (-s &&& s).getLsbD i = blsiBits s i := by
  rw [getLsbD_and, getLsbD_neg s hi, blsiBits]
  cases s.getLsbD i <;> cases clearBelow s i <;> rfl

theorem getLsbD_one_shl_pred (hc : c < 64) (hi : i < 64) : ((1 : U64) <<< c - 1).getLsbD i = decide (i < c) := by
  have hBit : ∀ j, ((1 : U64) <<< c).getLsbD j = decide (c = j) := by
    intro j
    rw [show (1 : U64) <<< c = BitVec.twoPow 64 c from (twoPow_eq 64 c).symm, getLsbD_twoPow]
    by_cases hj : c = j
    · simp [hj, hj ▸ hc]
    · simp [hj]
  rw [getLsbD_pred _ hi, hBit, clearBelow]
  simp only [hBit, decide_eq_false_iff_not]
  rw [Bool.eq_iff_iff, decide_eq_true_iff]
  rcases Nat.lt_trichotomy i c with h | rfl | h
  · have hNone : ∀ j < i, ¬c = j := fun j hj => by omega
    simpa [h, ne_of_gt h] using hNone
  · simp
  · have hSome : ¬∀ j < i, ¬c = j := fun hAll => hAll c h rfl
    simp [hSome, Nat.ne_of_lt h, Nat.le_of_lt h]

theorem tested (v : U64) (hi : i < 64) : hostShr v i = some (v >>> i) ∧ (v >>> i &&& 1 != 0) = v.getLsbD i :=
  ⟨hostShr_eq hi, carried v (by decide) i⟩

theorem getLsbD_or_one (res : U64) (hk : k < 64) : (res ||| (1 : U64) <<< k).getLsbD j = true ↔ res.getLsbD j = true ∨ j = k := by
  rw [getLsbD_or, Bool.or_eq_true, show (1 : U64) <<< k = BitVec.twoPow 64 k from (twoPow_eq 64 k).symm, getLsbD_twoPow]
  refine or_congr_right ?_
  rw [Bool.and_eq_true, decide_eq_true_iff, decide_eq_true_iff]
  omega

theorem pextLoop_bits (val mask' : U64) (hTop : i + n ≤ 64) : ∃ r, pextLoop val mask' n i res (rank mask'.getLsbD i) = some r ∧
    ∀ j, r.getLsbD j = true ↔ res.getLsbD j = true ∨
      ∃ i', i ≤ i' ∧ i' < i + n ∧ mask'.getLsbD i' = true ∧ rank mask'.getLsbD i' = j ∧ val.getLsbD i' = true := by
  induction n generalizing i res with
  | zero =>
    refine ⟨res, rfl, fun j => (or_iff_left ?_).symm⟩
    rintro ⟨i', hLow, hHigh, -⟩
    omega
  | succ n ih =>
    have hRank := Scatter.rank_succ mask'.getLsbD i
    have hRankLe := Scatter.rank_le mask'.getLsbD i
    obtain ⟨hShift, hTest⟩ := tested mask' (show i < 64 by omega)
    obtain ⟨hShift', hTest'⟩ := tested val (show i < 64 by omega)
    rw [pextLoop, hShift, Option.bind_eq_bind, Option.bind_some, hTest]
    cases hOn : mask'.getLsbD i with
    | false =>
      rw [hOn, if_neg Bool.false_ne_true, add_zero] at hRank
      obtain ⟨r, hRun, hBits⟩ := @ih (i + 1) res (by omega)
      rw [hRank] at hRun
      refine ⟨r, hRun, fun j => (hBits j).trans (or_congr_right ⟨?_, ?_⟩)⟩
      · rintro ⟨i', hLow, hHigh, hRest⟩
        exact ⟨i', by omega, by omega, hRest⟩
      · rintro ⟨i', hLow, hHigh, hOn', hRest⟩
        rcases eq_or_lt_of_le hLow with rfl | hLow
        · exact absurd (hOn.symm.trans hOn') Bool.false_ne_true
        · exact ⟨i', hLow, by omega, hOn', hRest⟩
    | true =>
      rw [hOn, if_pos rfl] at hRank
      rw [if_pos rfl, hShift', Option.bind_some, hTest']
      have hRest : ∀ res', (∀ j, res'.getLsbD j = true ↔ res.getLsbD j = true ∨ j = rank mask'.getLsbD i ∧ val.getLsbD i = true) →
          ∃ r, pextLoop val mask' n (i + 1) res' (rank mask'.getLsbD i + 1) = some r ∧ ∀ j, r.getLsbD j = true ↔ res.getLsbD j = true ∨
            ∃ i', i ≤ i' ∧ i' < i + (n + 1) ∧ mask'.getLsbD i' = true ∧ rank mask'.getLsbD i' = j ∧ val.getLsbD i' = true := by
        intro res' hRes
        obtain ⟨r, hRun, hBits⟩ := @ih (i + 1) res' (by omega)
        rw [hRank] at hRun
        refine ⟨r, hRun, fun j => ?_⟩
        rw [hBits, hRes, or_assoc]
        refine or_congr_right ⟨?_, ?_⟩
        · rintro (⟨rfl, hVal⟩ | ⟨i', hLow, hHigh, hRest⟩)
          · exact ⟨i, le_rfl, by omega, hOn, rfl, hVal⟩
          · exact ⟨i', by omega, by omega, hRest⟩
        · rintro ⟨i', hLow, hHigh, hOn', hSame, hVal⟩
          rcases eq_or_lt_of_le hLow with rfl | hLow
          · exact .inl ⟨hSame.symm, hVal⟩
          · exact .inr ⟨i', hLow, by omega, hOn', hSame, hVal⟩
      cases hVal : val.getLsbD i with
      | false =>
        rw [if_neg Bool.false_ne_true]
        exact hRest res fun j => by simp [hVal]
      | true =>
        rw [if_pos rfl, hostShl_eq (by omega)]
        exact hRest _ fun j => by rw [getLsbD_or_one res (by omega), hVal]; simp

theorem pdepLoop_bits (val mask' : U64) (hTop : i + n ≤ 64) : ∃ r, pdepLoop val mask' n i res (rank mask'.getLsbD i) = some r ∧
    ∀ j, r.getLsbD j = true ↔ res.getLsbD j = true ∨ i ≤ j ∧ j < i + n ∧ spread val.getLsbD mask'.getLsbD j = true := by
  induction n generalizing i res with
  | zero =>
    refine ⟨res, rfl, fun j => (or_iff_left ?_).symm⟩
    rintro ⟨hLow, hHigh, -⟩
    omega
  | succ n ih =>
    have hRank := Scatter.rank_succ mask'.getLsbD i
    have hRankLe := Scatter.rank_le mask'.getLsbD i
    obtain ⟨hShift, hTest⟩ := tested mask' (show i < 64 by omega)
    obtain ⟨hShift', hTest'⟩ := tested val (show rank mask'.getLsbD i < 64 by omega)
    rw [pdepLoop, hShift, Option.bind_eq_bind, Option.bind_some, hTest]
    cases hOn : mask'.getLsbD i with
    | false =>
      rw [hOn, if_neg Bool.false_ne_true, add_zero] at hRank
      obtain ⟨r, hRun, hBits⟩ := @ih (i + 1) res (by omega)
      rw [hRank] at hRun
      refine ⟨r, hRun, fun j => (hBits j).trans (or_congr_right ⟨?_, ?_⟩)⟩
      · rintro ⟨hLow, hHigh, hBit⟩
        exact ⟨by omega, by omega, hBit⟩
      · rintro ⟨hLow, hHigh, hBit⟩
        rcases eq_or_lt_of_le hLow with rfl | hLow
        · rw [spread, hOn] at hBit
          cases hBit
        · exact ⟨hLow, by omega, hBit⟩
    | true =>
      rw [hOn, if_pos rfl] at hRank
      rw [if_pos rfl, hShift', Option.bind_some, hTest']
      have hHere : spread val.getLsbD mask'.getLsbD i = val.getLsbD (rank mask'.getLsbD i) := by rw [spread, hOn, Bool.true_and]
      have hRest : ∀ res', (∀ j, res'.getLsbD j = true ↔ res.getLsbD j = true ∨ j = i ∧ val.getLsbD (rank mask'.getLsbD i) = true) →
          ∃ r, pdepLoop val mask' n (i + 1) res' (rank mask'.getLsbD i + 1) = some r ∧ ∀ j, r.getLsbD j = true ↔ res.getLsbD j = true ∨
            i ≤ j ∧ j < i + (n + 1) ∧ spread val.getLsbD mask'.getLsbD j = true := by
        intro res' hRes
        obtain ⟨r, hRun, hBits⟩ := @ih (i + 1) res' (by omega)
        rw [hRank] at hRun
        refine ⟨r, hRun, fun j => ?_⟩
        rw [hBits, hRes, or_assoc]
        refine or_congr_right ⟨?_, ?_⟩
        · rintro (⟨rfl, hVal⟩ | ⟨hLow, hHigh, hBit⟩)
          · exact ⟨le_rfl, by omega, hHere.trans hVal⟩
          · exact ⟨by omega, by omega, hBit⟩
        · rintro ⟨hLow, hHigh, hBit⟩
          rcases eq_or_lt_of_le hLow with rfl | hLow
          · exact .inl ⟨rfl, hHere.symm.trans hBit⟩
          · exact .inr ⟨hLow, by omega, hBit⟩
      cases hVal : val.getLsbD (rank mask'.getLsbD i) with
      | false =>
        rw [if_neg Bool.false_ne_true]
        exact hRest res fun j => by simp [hVal]
      | true =>
        rw [if_pos rfl, hostShl_eq (by omega)]
        exact hRest _ fun j => by rw [getLsbD_or_one res (by omega), hVal]; simp

end Bits

section Results

variable {size : Nat} {v s x m : U64}

theorem size_le (hSize : size = 4 ∨ size = 8) : isUintSize size = true ∧ size * 8 = 8 * size ∧ 8 * size ≤ 64 ∧ 8 * size - 1 < 64 := by
  rcases hSize with rfl | rfl <;> decide

theorem cut_of_lt {r : U64} (hSize : isUintSize size = true) (h : r.toNat < 2 ^ (8 * size)) : r &&& mask size = r := by
  apply eq_of_toNat_eq
  rw [toNat_and_mask r hSize, unsigned, Nat.mod_eq_of_lt h]

theorem pext_word (hSize : size = 4 ∨ size = 8) (x m : U64) :
    ∃ r, pext size x m = some r ∧ IsWord (8 * size) (packed (8 * size) (x &&& mask size).getLsbD (m &&& mask size).getLsbD) r := by
  obtain ⟨hUint, hBits, hTop, -⟩ := size_le hSize
  obtain ⟨r, hRun, hWord⟩ := @pextLoop_bits (8 * size) 0 0 (x &&& mask size) (m &&& mask size) (by omega)
  have hZero : rank (m &&& mask size).getLsbD 0 = 0 := rfl
  rw [hZero] at hRun
  refine ⟨r &&& mask size, by rw [pext, hBits, hRun]; rfl, isWord_cut hUint fun j _ => ?_⟩
  rw [Bool.eq_iff_iff, hWord, Scatter.packed_iff]
  simp

theorem pdep_word (hSize : size = 4 ∨ size = 8) (x m : U64) :
    ∃ r, pdep size x m = some r ∧ IsWord (8 * size) (spread (x &&& mask size).getLsbD (m &&& mask size).getLsbD) r := by
  obtain ⟨hUint, hBits, hTop, -⟩ := size_le hSize
  obtain ⟨r, hRun, hWord⟩ := @pdepLoop_bits (8 * size) 0 0 (x &&& mask size) (m &&& mask size) (by omega)
  have hZero : rank (m &&& mask size).getLsbD 0 = 0 := rfl
  rw [hZero] at hRun
  refine ⟨r &&& mask size, by rw [pdep, hBits, hRun]; rfl, isWord_cut hUint fun j hj => ?_⟩
  rw [Bool.eq_iff_iff, hWord]
  simp [hj]

def popcount (size : Nat) (m : U64) : Nat := rank (m &&& mask size).getLsbD (8 * size)

structure RoundTrips (size : Nat) (x m : U64) : Prop where
  pdepPext : ∃ r, pext size x m = some r ∧ pdep size r m = some (x &&& m &&& mask size)
  pextPdep : ∃ r, pdep size x m = some r ∧ pext size r m = some (BitVec.ofNat 64 (x.toNat % 2 ^ popcount size m))

theorem round_trips (hSize : size = 4 ∨ size = 8) (x m : U64) : RoundTrips size x m := by
  obtain ⟨hUint, -, hTop, -⟩ := size_le hSize
  constructor
  · obtain ⟨r, hPext, hr⟩ := pext_word hSize x m
    obtain ⟨r', hPdep, hr'⟩ := pdep_word hSize r m
    refine ⟨r, hPext, hPdep.trans (congrArg some (eq_of_getLsbD_eq fun i _ => ?_))⟩
    rw [hr', getLsbD_cut _ hUint, getLsbD_and]
    cases hi : decide (i < 8 * size) with
    | false => rfl
    | true =>
      have hIn := of_decide_eq_true hi
      have hRank := Scatter.rank_le (m &&& mask size).getLsbD i
      have hBoth := Scatter.spread_packed (x &&& mask size).getLsbD (m &&& mask size).getLsbD hIn
      have hBit : (r &&& mask size).getLsbD (rank (m &&& mask size).getLsbD i) =
          packed (8 * size) (x &&& mask size).getLsbD (m &&& mask size).getLsbD (rank (m &&& mask size).getLsbD i) := by
        rw [getLsbD_cut r hUint, hr, decide_eq_true (show rank (m &&& mask size).getLsbD i < 8 * size by omega), Bool.true_and, Bool.true_and]
      rw [spread, hBit]
      refine (congrArg (true && ·) hBoth).trans ?_
      rw [getLsbD_cut m hUint, getLsbD_cut x hUint, hi, Bool.true_and, Bool.true_and, Bool.true_and, Bool.true_and, Bool.and_comm]
  · obtain ⟨r, hPdep, hr⟩ := pdep_word hSize x m
    obtain ⟨r', hPext, hr'⟩ := pext_word hSize r m
    refine ⟨r, hPdep, hPext.trans (congrArg some (eq_of_getLsbD_eq fun k hk => ?_))⟩
    have hSame : packed (8 * size) (r &&& mask size).getLsbD (m &&& mask size).getLsbD k =
        packed (8 * size) (spread (x &&& mask size).getLsbD (m &&& mask size).getLsbD) (m &&& mask size).getLsbD k := by
      rw [Bool.eq_iff_iff, Scatter.packed_iff, Scatter.packed_iff]
      refine exists_congr fun i => and_congr_right fun hi => ?_
      rw [getLsbD_cut r hUint, hr, decide_eq_true hi, Bool.true_and, Bool.true_and]
    have hCount := Scatter.rank_le (m &&& mask size).getLsbD (8 * size)
    rw [hr', hSame, Scatter.packed_spread, getLsbD_ofNat, testBit_mod_two_pow, decide_eq_true hk, Bool.true_and, popcount, getLsbD_cut x hUint]
    by_cases hLow : k < rank (m &&& mask size).getLsbD (8 * size)
    · rw [decide_eq_true hLow, decide_eq_true (show k < 8 * size by omega), Bool.true_and, Bool.true_and, Bool.true_and, Bool.true_and]
      rfl
    · rw [decide_eq_false hLow, Bool.false_and, Bool.and_false, Bool.false_and]

/-! ## The other results -/

section Words

variable {n c idx start len : Nat} {r : U64} {f : Nat → Bool}

theorem high_clear (h : s.toNat < 2 ^ n) {i : Nat} (hi : n ≤ i) : s.getLsbD i = false :=
  Nat.testBit_lt_two_pow (h.trans_le (Nat.pow_le_pow_right (by decide) hi))

theorem isWord_andn (hUint : isUintSize size = true) (hTop : 8 * size ≤ 64) (v s : U64) :
    IsWord (8 * size) (andnBits v s) ((~~~v &&& s) &&& mask size) := by
  refine isWord_cut hUint fun i hi => ?_
  rw [getLsbD_and, getLsbD_not, decide_eq_true (show i < 64 by omega), Bool.true_and]
  rfl

theorem bzhi_word (hUint : isUintSize size = true) (hTop : 8 * size ≤ 64) (s : U64) (idx : Nat) :
    ∃ r, bzhiResult s idx (8 * size) = some r ∧ IsWord (8 * size) (bzhiBits s idx) (r &&& mask size) := by
  unfold bzhiResult
  split
  · rename_i hWide
    refine ⟨s, rfl, isWord_cut hUint fun i hi => ?_⟩
    rw [bzhiBits, decide_eq_true (show i < idx by omega), Bool.true_and]
  · rename_i hIn
    rw [hostShl_eq (by omega)]
    refine ⟨_, rfl, isWord_cut hUint fun i hi => ?_⟩
    rw [getLsbD_and, getLsbD_one_shl_pred (by omega) (by omega), Bool.and_comm]
    rfl

theorem bextr_word (hUint : isUintSize size = true) (hTop : 8 * size ≤ 64) (hs : s.toNat < 2 ^ (8 * size)) (start len : Nat) :
    ∃ r, bextrResult s start len (8 * size) (mask size) = some r ∧ IsWord (8 * size) (bextrBits (8 * size) start len s) (r &&& mask size) := by
  obtain ⟨shifted, hShift, hBits⟩ : ∃ shifted, bextrShifted s start (8 * size) = some shifted ∧
      ∀ i, shifted.getLsbD i = (decide (start + i < 8 * size) && s.getLsbD (start + i)) := by
    unfold bextrShifted
    split
    · refine ⟨0, rfl, fun i => ?_⟩
      rw [decide_eq_false (show ¬start + i < 8 * size by omega), Bool.false_and]
      exact getLsbD_zero
    · refine ⟨s >>> start, hostShr_eq (by omega), fun i => ?_⟩
      rw [getLsbD_ushiftRight]
      by_cases hIn : start + i < 8 * size
      · rw [decide_eq_true hIn, Bool.true_and]
      · rw [high_clear hs (Nat.not_lt.mp hIn), Bool.and_false]
  rw [bextrResult, hShift, Option.bind_eq_bind, Option.bind_some]
  split
  · rename_i hLong
    refine ⟨_, rfl, isWord_cut hUint fun i hi => ?_⟩
    rw [getLsbD_cut _ hUint, hBits, bextrBits, decide_eq_true hi, decide_eq_true (show i < len by omega)]
  · split
    · rename_i hNone
      refine ⟨_, rfl, isWord_cut hUint fun i hi => ?_⟩
      rw [bextrBits, decide_eq_false (show ¬i < len by omega), Bool.false_and]
      exact getLsbD_zero
    · rw [hostShl_eq (by omega)]
      refine ⟨_, rfl, isWord_cut hUint fun i hi => ?_⟩
      rw [getLsbD_and, getLsbD_one_shl_pred (by omega) (by omega), hBits, Bool.and_comm]
      rfl

def shiftxBits (pp : BitVec 2) (n c : Nat) (s : U64) : Nat → Bool := if pp = 1 then shlBits c s else if pp = 3 then shrBits n c s else sarBits n c s

theorem shiftx_word (hUint : isUintSize size = true) (hTop : 8 * size ≤ 64) (hPos : 0 < 8 * size) (hs : s.toNat < 2 ^ (8 * size))
    (pp : BitVec 2) (hc : c < 8 * size) :
    ∃ r, shiftxResult pp s c (8 * size) (mask size) = some r ∧ IsWord (8 * size) (shiftxBits pp (8 * size) c s) r := by
  have hCut : s &&& mask size = s := cut_of_lt hUint hs
  unfold shiftxResult shiftxBits
  split
  · rw [hostShl_eq (by omega)]
    refine ⟨_, rfl, isWord_cut hUint fun i hi => ?_⟩
    rw [getLsbD_shiftLeft, decide_eq_true (show i < 64 by omega), Bool.true_and, shlBits]
    by_cases hLow : i < c
    · rw [decide_eq_true hLow, decide_eq_false (Nat.not_le.mpr hLow)]
      rfl
    · rw [decide_eq_false hLow, decide_eq_true (Nat.not_lt.mp hLow)]
      rfl
  · split
    · refine ⟨s >>> c, hostShr_eq (by omega), isWord_of_lt (fun i hi => ?_) fun i hi => ?_⟩
      · rw [getLsbD_ushiftRight]
        exact high_clear hs (by omega)
      · rw [getLsbD_ushiftRight, shrBits, add_comm c i]
        by_cases hIn : i + c < 8 * size
        · rw [decide_eq_true hIn, Bool.true_and]
        · rw [high_clear hs (Nat.not_lt.mp hIn), Bool.and_false]
    · rw [hostShl_eq (by omega), Option.bind_eq_bind, Option.bind_some, hostSar_eq (by omega)]
      refine ⟨_, rfl, isWord_cut hUint fun i hi => ?_⟩
      -- Above the operand, all bits are its sign.
      have hSign : (s &&& (1 : U64) <<< (8 * size - 1) != 0) = s.getLsbD (8 * size - 1) := by
        rw [show (1 : U64) <<< (8 * size - 1) = BitVec.twoPow 64 (8 * size - 1) from (twoPow_eq 64 _).symm, and_twoPow_ne_zero _ (by omega)]
      have hWide : ∀ j < 64, (if (s &&& (1 : U64) <<< (8 * size - 1) != 0) = true then s ||| ~~~mask size else s).getLsbD j =
          s.getLsbD (min j (8 * size - 1)) := by
        intro j hj
        rw [hSign]
        by_cases hLow : j ≤ 8 * size - 1
        · rw [min_eq_left hLow]
          split
          · rw [getLsbD_or, getLsbD_not, getLsbD_mask hUint, decide_eq_true (show j < 8 * size by omega)]
            simp
          · rfl
        · rw [min_eq_right (by omega)]
          split
          · rename_i hOn
            rw [getLsbD_or, getLsbD_not, getLsbD_mask hUint, decide_eq_false (show ¬j < 8 * size by omega), decide_eq_true hj, hOn]
            simp
          · rename_i hOff
            rw [high_clear hs (by omega)]
            exact (Bool.eq_false_iff.mpr hOff).symm
      rw [getLsbD_sshiftRight, decide_eq_false (show ¬64 ≤ i by omega), Bool.not_false, Bool.true_and, sarBits]
      split
      · rw [hWide _ (by omega), add_comm c i]
      · rw [msb_eq_getLsbD_last, hWide _ (by omega), min_eq_right (by omega), min_eq_right (by omega)]

theorem rorx_word (hUint : isUintSize size = true) (hTop : 8 * size ≤ 64) (hs : s.toNat < 2 ^ (8 * size)) (hc : c < 8 * size) :
    ∃ r, rorxResult s c (8 * size) (mask size) = some r ∧ IsWord (8 * size) (rorBits (8 * size) c s) r := by
  unfold rorxResult
  split
  · rename_i hZero
    subst hZero
    refine ⟨s, rfl, isWord_of_lt (fun i hi => high_clear hs hi) fun i hi => ?_⟩
    rw [rorBits, add_zero, Nat.mod_eq_of_lt hi]
  · rw [hostShr_eq (by omega), hostShl_eq (by omega)]
    refine ⟨_, rfl, isWord_cut hUint fun i hi => ?_⟩
    rw [getLsbD_or, getLsbD_ushiftRight, getLsbD_shiftLeft, decide_eq_true (show i < 64 by omega), Bool.true_and, rorBits]
    by_cases hIn : i + c < 8 * size
    · rw [Nat.mod_eq_of_lt hIn, decide_eq_true (show i < 8 * size - c by omega), add_comm c i]
      simp
    · have hTurn : (i + c) % (8 * size) = i - (8 * size - c) := by
        rw [mod_eq_sub_mod (Nat.not_lt.mp hIn), Nat.mod_eq_of_lt (by omega)]
        omega
      rw [hTurn, decide_eq_false (show ¬i < 8 * size - c by omega), high_clear hs (show 8 * size ≤ c + i by omega)]
      simp

theorem mulx_words (hUint : isUintSize size = true) (hTop : 8 * size ≤ 64) (d s : U64) :
    IsWord (8 * size) (mulBits d s) ((d.setWidth 128 * s.setWidth 128 : U128).setWidth 64 &&& mask size) ∧
      IsWord (8 * size) (fun i => mulBits d s (8 * size + i)) (((d.setWidth 128 * s.setWidth 128 : U128) >>> (8 * size)).setWidth 64 &&& mask size) := by
  have hProduct : (d.setWidth 128 * s.setWidth 128 : U128).toNat = d.toNat * s.toNat := by
    have hdLt := d.isLt
    have hsLt := s.isLt
    have hLess := Nat.mul_lt_mul'' hdLt hsLt
    rw [BitVec.toNat_mul, BitVec.toNat_setWidth, BitVec.toNat_setWidth, Nat.mod_eq_of_lt (hdLt.trans (by decide)), Nat.mod_eq_of_lt (hsLt.trans (by decide)),
      Nat.mod_eq_of_lt (hLess.trans_le (by decide))]
  have hBit : ∀ i, (d.setWidth 128 * s.setWidth 128 : U128).getLsbD i = mulBits d s i := fun i => congrArg (·.testBit i) hProduct
  constructor
  · refine isWord_cut hUint fun i hi => ?_
    rw [getLsbD_setWidth, decide_eq_true (show i < 64 by omega), Bool.true_and, hBit]
  · refine isWord_cut hUint fun i hi => ?_
    rw [getLsbD_setWidth, decide_eq_true (show i < 64 by omega), Bool.true_and, getLsbD_ushiftRight, hBit]

end Words

end Results

/-! ## The instructions -/

section Arms

variable {ctx : Ctx} {vex : Vex} {m : Machine} {s v : U64}

theorem bmiSize_cases (vex : Vex) : bmiSize vex = 4 ∨ bmiSize vex = 8 := by
  unfold bmiSize
  cases vex.w with
  | false => exact .inl rfl
  | true => exact .inr rfl

theorem writeRegField_eq (ctx : Ctx) (st : CpuState) (vex : Vex) (r : U64) : writeRegField ctx st (bmiSize vex) r = st.gprWrite ctx.reg (bmiSize vex) r := by
  have hWide : ¬(bmiSize vex = 1 ∧ ¬ctx.pfx.hasRex ∧ 4 ≤ ctx.reg ∧ ctx.reg < 8) := by
    rcases bmiSize_cases vex with hSize | hSize <;> rw [hSize] <;> exact fun h => absurd h.1 (by decide)
  exact if_neg hWide

variable {f : Nat → Bool} {r : U64} {size : Nat} {b : Bmi}

theorem IsWord.zero {n : Nat} (h : IsWord n f r) : (r == 0) = clearBits n f := by
  rw [Bool.eq_iff_iff, beq_iff_eq, clearBits, decide_eq_true_iff]
  constructor
  · intro hZero i hi
    have hBit := h i
    rw [hZero, decide_eq_true hi, Bool.true_and] at hBit
    exact hBit.symm.trans getLsbD_zero
  · intro hClear
    refine eq_of_getLsbD_eq fun i _ => ?_
    rw [h i]
    cases hi : decide (i < n) with
    | false => exact (Bool.false_and _).trans BitVec.getLsbD_zero.symm
    | true => exact (Bool.true_and _).trans ((hClear i (of_decide_eq_true hi)).trans BitVec.getLsbD_zero.symm)

theorem IsWord.sign (hUint : isUintSize size = true) (h : IsWord (8 * size) f r) : (r &&& signBit size != 0) = f (8 * size - 1) := by
  have hPos := sign_lt hUint
  rw [signBit_eq hUint, and_twoPow_ne_zero _ hPos, h, decide_eq_true (by rcases isUintSize_iff.mp hUint with rfl | rfl | rfl | rfl <;> decide), Bool.true_and]

theorem bmiSzf_eq (hUint : isUintSize size = true) (h : IsWord (8 * size) f r) (st : CpuState) :
    bmiSzf st r size = (szFlags (8 * size) f).foldl (fun st p => st.setFlag p.1 p.2) st := by
  unfold bmiSzf
  rw [h.sign hUint, h.zero]
  rfl

theorem bmiArm_done {f : CpuState → U64 → Except Stop CpuState} {mean : Meaning} (values : List U64) (hRead : readRm ctx (bmiSize vex) m = some (.ok s, m))
    (hf : f m.state s = .ok (mean.apply (bmiSize vex) values m.state)) (hValues : List.Forall₂ (fun p r => IsWord (8 * bmiSize vex) p.2 r) mean.results values) :
    ∃ m', bmiArm ctx vex f m = some (.ok (), m') ∧ mean.Done (bmiSize vex) m m' := by
  refine ⟨_, ?_, values, hValues, rfl⟩
  unfold bmiArm
  rw [Fallible.bind_of_ok hRead]
  exact Fallible.step_of_ok (by rw [hf]; rfl)

theorem bmiArm_run {f : CpuState → U64 → Except Stop CpuState} {m' : Machine} (h : bmiArm ctx vex f m = some (.ok (), m')) :
    ∃ s st, readRm ctx (bmiSize vex) m = some (.ok s, m) ∧ f m.state s = .ok st ∧ m' = { m with state := st } := by
  obtain ⟨hUint, -⟩ := size_le (bmiSize_cases vex)
  obtain ⟨s, m₁, hRead, hStep⟩ := Fallible.bind_ok_run h
  obtain ⟨-, rfl⟩ := readRm_run hUint hRead
  have hRun := Fallible.step_ok_run hStep
  cases hf : f m₁.state s with
  | error e =>
    rw [hf] at hRun
    cases hRun
  | ok st =>
    rw [hf] at hRun
    cases hRun
    exact ⟨s, st, hRead, hf, rfl⟩

theorem bmiAndn_done (hRead : readRm ctx (bmiSize vex) m = some (.ok s, m)) (imm : U8) (d : U64) :
    ∃ m', bmiAndn ctx vex m = some (.ok (), m') ∧
      (Bmi.Andn.meaning (8 * bmiSize vex) vex.vvvv ctx.reg imm (m.state.gprRead vex.vvvv (bmiSize vex)) s d).Done (bmiSize vex) m m' := by
  obtain ⟨hUint, -, hTop, -⟩ := size_le (bmiSize_cases vex)
  have hWord := isWord_andn hUint hTop (m.state.gprRead vex.vvvv (bmiSize vex)) s
  unfold bmiAndn
  refine bmiArm_done [_] hRead (congrArg Except.ok ?_) (.cons hWord .nil)
  rw [bmiSzf_eq hUint hWord, writeRegField_eq]
  rfl

theorem bmiGroup17_done (hRead : readRm ctx (bmiSize vex) m = some (.ok s, m))
    (hDigit : ctx.reg &&& 7 = 1 ∧ b = .Blsr ∨ ctx.reg &&& 7 = 2 ∧ b = .Blsmsk ∨ ctx.reg &&& 7 = 3 ∧ b = .Blsi) (imm : U8) (v d : U64) :
    ∃ m', bmiGroup17 ctx vex m = some (.ok (), m') ∧ (b.meaning (8 * bmiSize vex) vex.vvvv ctx.reg imm v s d).Done (bmiSize vex) m m' := by
  obtain ⟨hUint, -, hTop, -⟩ := size_le (bmiSize_cases vex)
  have hCut : s &&& mask (bmiSize vex) = s := cut_of_lt hUint (readRm_run hUint hRead).1
  unfold bmiGroup17
  rcases hDigit with ⟨hDigit, rfl⟩ | ⟨hDigit, rfl⟩ | ⟨hDigit, rfl⟩
  · have hWord : IsWord (8 * bmiSize vex) (blsrBits s) (s &&& (s - 1) &&& mask (bmiSize vex)) := isWord_cut hUint fun i hi => blsr_bit (by omega)
    refine bmiArm_done [_] hRead ?_ (.cons hWord .nil)
    simp only [hCut, hDigit]
    refine congrArg Except.ok ?_
    rw [bmiSzf_eq hUint hWord]
    rfl
  · have hWord : IsWord (8 * bmiSize vex) (clearBelow s) (((s - 1) ^^^ s) &&& mask (bmiSize vex)) := isWord_cut hUint fun i hi => blsmsk_bit (by omega)
    refine bmiArm_done [_] hRead ?_ (.cons hWord .nil)
    simp only [hCut, hDigit]
    refine congrArg Except.ok ?_
    rw [hWord.sign hUint]
    rfl
  · have hWord : IsWord (8 * bmiSize vex) (blsiBits s) (-s &&& s &&& mask (bmiSize vex)) := isWord_cut hUint fun i hi => blsi_bit (by omega)
    refine bmiArm_done [_] hRead ?_ (.cons hWord .nil)
    simp only [hCut, hDigit]
    refine congrArg Except.ok ?_
    rw [bmiSzf_eq hUint hWord]
    rfl

theorem control_bytes (v : U64) : (v &&& 0xFF).toNat = v.toNat % 256 ∧ ((v >>> 8) &&& 0xFF).toNat = v.toNat / 256 % 256 := by
  have hByte : ∀ w : U64, (w &&& 0xFF).toNat = w.toNat % 256 := fun w => toNat_and_mask w (show isUintSize 1 = true by decide)
  refine ⟨hByte v, ?_⟩
  rw [hByte, toNat_ushiftRight, shiftRight_eq_div_pow]

theorem bmiF5_done (hRead : readRm ctx (bmiSize vex) m = some (.ok s, m)) (hPp : vex.pp = 0 ∧ b = .Bzhi ∨ vex.pp = 2 ∧ b = .Pext ∨ vex.pp = 3 ∧ b = .Pdep)
    (imm : U8) (d : U64) :
    ∃ m', bmiF5 ctx vex m = some (.ok (), m') ∧
      (b.meaning (8 * bmiSize vex) vex.vvvv ctx.reg imm (m.state.gprRead vex.vvvv (bmiSize vex)) s d).Done (bmiSize vex) m m' := by
  have hSize := bmiSize_cases vex
  obtain ⟨hUint, hBits, hTop, -⟩ := size_le hSize
  have hCut : s &&& mask (bmiSize vex) = s := cut_of_lt hUint (readRm_run hUint hRead).1
  have hCut' := cut_of_lt hUint (gprRead_lt m.state vex.vvvv hUint)
  unfold bmiF5
  rcases hPp with ⟨hPp, rfl⟩ | ⟨hPp, rfl⟩ | ⟨hPp, rfl⟩
  · obtain ⟨r, hRun, hWord⟩ := bzhi_word hUint hTop s ((m.state.gprRead vex.vvvv (bmiSize vex)).toNat % 256)
    rw [if_pos hPp]
    refine bmiArm_done [_] hRead ?_ (.cons hWord .nil)
    dsimp only
    rw [hCut, (control_bytes _).1, hBits, hRun]
    refine congrArg Except.ok ?_
    rw [bmiSzf_eq hUint hWord, writeRegField_eq]
    rfl
  · obtain ⟨r, hRun, hWord⟩ := pext_word hSize (m.state.gprRead vex.vvvv (bmiSize vex)) s
    rw [if_neg (by rw [hPp]; decide), if_pos hPp]
    rw [hCut, hCut'] at hWord
    refine bmiArm_done [_] hRead ?_ (.cons hWord .nil)
    rw [hRun]
    exact congrArg Except.ok (writeRegField_eq ..)
  · obtain ⟨r, hRun, hWord⟩ := pdep_word hSize (m.state.gprRead vex.vvvv (bmiSize vex)) s
    rw [if_neg (by rw [hPp]; decide), if_neg (by rw [hPp]; decide), if_pos hPp]
    rw [hCut, hCut'] at hWord
    refine bmiArm_done [_] hRead ?_ (.cons hWord .nil)
    rw [hRun]
    exact congrArg Except.ok (writeRegField_eq ..)

theorem bmiMulx_done (hRead : readRm ctx (bmiSize vex) m = some (.ok s, m)) (hPp : vex.pp = 3) (imm : U8) (v : U64) :
    ∃ m', bmiMulx ctx vex m = some (.ok (), m') ∧
      (Bmi.Mulx.meaning (8 * bmiSize vex) vex.vvvv ctx.reg imm v s (m.state.gprRead 2 (bmiSize vex))).Done (bmiSize vex) m m' := by
  obtain ⟨hUint, hBits, hTop, -⟩ := size_le (bmiSize_cases vex)
  have hCut : s &&& mask (bmiSize vex) = s := cut_of_lt hUint (readRm_run hUint hRead).1
  have hCut' := cut_of_lt hUint (gprRead_lt m.state 2 hUint)
  obtain ⟨hLow, hHigh⟩ := mulx_words hUint hTop (m.state.gprRead 2 (bmiSize vex)) s
  unfold bmiMulx
  rw [if_neg (not_not_intro hPp)]
  refine bmiArm_done [_, _] hRead ?_ (.cons hLow (.cons hHigh .nil))
  rw [hCut, hCut', hBits]
  exact congrArg Except.ok (writeRegField_eq ..)

theorem shift_count (v : U64) : (v &&& (BitVec.ofNat 64 (bmiSize vex * 8) - 1)).toNat = v.toNat % (8 * bmiSize vex) := by
  rcases bmiSize_cases vex with hSize | hSize <;> rw [hSize]
  · exact and_two_pow_sub_one_eq_mod v.toNat 5
  · exact and_two_pow_sub_one_eq_mod v.toNat 6

theorem bmiF7_done (hRead : readRm ctx (bmiSize vex) m = some (.ok s, m))
    (hPp : vex.pp = 0 ∧ b = .Bextr ∨ vex.pp = 1 ∧ b = .Shlx ∨ vex.pp = 3 ∧ b = .Shrx ∨ vex.pp = 2 ∧ b = .Sarx) (imm : U8) (d : U64) :
    ∃ m', bmiF7 ctx vex m = some (.ok (), m') ∧
      (b.meaning (8 * bmiSize vex) vex.vvvv ctx.reg imm (m.state.gprRead vex.vvvv (bmiSize vex)) s d).Done (bmiSize vex) m m' := by
  obtain ⟨hUint, hBits, hTop, hPos⟩ := size_le (bmiSize_cases vex)
  have hLt := (readRm_run hUint hRead).1
  have hCut : s &&& mask (bmiSize vex) = s := cut_of_lt hUint hLt
  have hWide : 0 < 8 * bmiSize vex := by rcases bmiSize_cases vex with hSize | hSize <;> rw [hSize] <;> decide
  unfold bmiF7
  rcases hPp with ⟨hPp, rfl⟩ | hPp
  · obtain ⟨r, hRun, hWord⟩ := bextr_word hUint hTop hLt ((m.state.gprRead vex.vvvv (bmiSize vex)).toNat % 256) ((m.state.gprRead vex.vvvv (bmiSize vex)).toNat / 256 % 256)
    rw [if_pos hPp]
    refine bmiArm_done [_] hRead ?_ (.cons hWord .nil)
    dsimp only
    rw [hCut, (control_bytes _).1, (control_bytes _).2, hBits, hRun]
    refine congrArg Except.ok ?_
    rw [writeRegField_eq, hWord.zero]
    rfl
  · obtain ⟨r, hRun, hWord⟩ := shiftx_word hUint hTop hWide hLt vex.pp (mod_lt (m.state.gprRead vex.vvvv (bmiSize vex)).toNat hWide)
    have hShift : vex.pp ≠ 0 := by rcases hPp with ⟨hPp, -⟩ | ⟨hPp, -⟩ | ⟨hPp, -⟩ <;> rw [hPp] <;> decide
    rw [if_neg hShift]
    have hMeaning : b.meaning (8 * bmiSize vex) vex.vvvv ctx.reg imm (m.state.gprRead vex.vvvv (bmiSize vex)) s d =
        ⟨[(ctx.reg, shiftxBits vex.pp (8 * bmiSize vex) ((m.state.gprRead vex.vvvv (bmiSize vex)).toNat % (8 * bmiSize vex)) s)], []⟩ := by
      rcases hPp with ⟨hPp, rfl⟩ | ⟨hPp, rfl⟩ | ⟨hPp, rfl⟩ <;> rw [hPp] <;> rfl
    rw [hMeaning]
    refine bmiArm_done [_] hRead ?_ (.cons hWord .nil)
    dsimp only
    rw [hCut, shift_count, hBits, hRun]
    exact congrArg Except.ok (writeRegField_eq ..)

theorem rorx_count (imm : U8) : ((imm.setWidth 32 : U32) &&& (BitVec.ofNat 32 (bmiSize vex * 8) - 1)).toNat = imm.toNat % (8 * bmiSize vex) := by
  have hWide : (imm.setWidth 32 : U32).toNat = imm.toNat := by
    rw [BitVec.toNat_setWidth]
    exact Nat.mod_eq_of_lt (imm.isLt.trans (by decide))
  rw [← hWide]
  rcases bmiSize_cases vex with hSize | hSize <;> rw [hSize]
  · exact and_two_pow_sub_one_eq_mod (imm.setWidth 32 : U32).toNat 5
  · exact and_two_pow_sub_one_eq_mod (imm.setWidth 32 : U32).toNat 6

theorem bmiRorx_done (hRead : readRm ctx (bmiSize vex) m = some (.ok s, m)) (imm : U8) (v d : U64) :
    ∃ m', bmiRorx ctx vex imm m = some (.ok (), m') ∧ (Bmi.Rorx.meaning (8 * bmiSize vex) vex.vvvv ctx.reg imm v s d).Done (bmiSize vex) m m' := by
  obtain ⟨hUint, hBits, hTop, hPos⟩ := size_le (bmiSize_cases vex)
  have hLt := (readRm_run hUint hRead).1
  have hCut : s &&& mask (bmiSize vex) = s := cut_of_lt hUint hLt
  have hWide : 0 < 8 * bmiSize vex := by rcases bmiSize_cases vex with hSize | hSize <;> rw [hSize] <;> decide
  obtain ⟨r, hRun, hWord⟩ := rorx_word hUint hTop hLt (mod_lt imm.toNat hWide)
  unfold bmiRorx
  refine bmiArm_done [_] hRead ?_ (.cons hWord .nil)
  rw [hCut, rorx_count, hBits, hRun]
  exact congrArg Except.ok (writeRegField_eq ..)

theorem rorBits_injective {n c : Nat} {s' : U64} (hn : n ≤ 64) (hs : s.toNat < 2 ^ n) (hs' : s'.toNat < 2 ^ n) (hc : c < n) (h : IsWord n (rorBits n c s) r)
    (h' : IsWord n (rorBits n c s') r) : s = s' := by
  refine eq_of_getLsbD_eq fun j _ => ?_
  rcases lt_or_ge j n with hj | hj
  · have hTurn : ((j + (n - c)) % n + c) % n = j := by
      rw [mod_add_mod, show j + (n - c) + c = j + n by omega, add_mod_right, Nat.mod_eq_of_lt hj]
    have hBit := h ((j + (n - c)) % n)
    rw [h', decide_eq_true (mod_lt _ (by omega)), Bool.true_and, Bool.true_and, rorBits, rorBits, hTurn] at hBit
    exact hBit.symm
  · rw [high_clear hs hj, high_clear hs' hj]

theorem gprWrite_injective (hUint : isUintSize size = true) {st : CpuState} {i : U8} {r' : U64} (hr : r.toNat < 2 ^ (8 * size))
    (hr' : r'.toNat < 2 ^ (8 * size)) (h : st.gprWrite i size r = st.gprWrite i size r') : r = r' := by
  have hRead := congrArg (fun st : CpuState => (st.gprRead i size).toNat) h
  rw [toNat_gprRead_gprWrite st i r hUint, toNat_gprRead_gprWrite st i r' hUint, unsigned, unsigned, Nat.mod_eq_of_lt hr, Nat.mod_eq_of_lt hr'] at hRead
  exact eq_of_toNat_eq hRead

theorem IsWord.lt {n : Nat} (h : IsWord n f r) : r.toNat < 2 ^ n :=
  lt_pow_two_of_testBit _ fun i hi => (h i).trans (by rw [decide_eq_false (Nat.not_lt.mpr hi), Bool.false_and])

theorem bmiRorx_done_iff (hSame : s.toNat < 2 ^ (8 * bmiSize vex)) (imm : U8) (v d : U64) :
    (∃ m', bmiRorx ctx vex imm m = some (.ok (), m') ∧ (Bmi.Rorx.meaning (8 * bmiSize vex) vex.vvvv ctx.reg imm v s d).Done (bmiSize vex) m m') ↔
      readRm ctx (bmiSize vex) m = some (.ok s, m) := by
  refine ⟨?_, fun hRead => bmiRorx_done hRead imm v d⟩
  obtain ⟨hUint, -, hTop, -⟩ := size_le (bmiSize_cases vex)
  rintro ⟨m', hRun, values, hValues, rfl⟩
  -- Another operand would have given another word.
  have hArm := hRun
  unfold bmiRorx at hArm
  obtain ⟨s', -, hRead, -⟩ := bmiArm_run hArm
  obtain ⟨m₁, hRun', values', hValues', rfl⟩ := bmiRorx_done hRead imm v d
  have hState := congrArg (fun out : Option (Except Stop Unit × Machine) => out.map fun p => p.2.state) (hRun.symm.trans hRun')
  cases hValues with
  | cons hWord hNil =>
    cases hNil
    cases hValues' with
    | cons hWord' hNil' =>
      cases hNil'
      have hr := gprWrite_injective hUint hWord.lt hWord'.lt (Option.some.inj hState)
      rw [← hr] at hWord'
      rw [hRead, rorBits_injective hTop hSame (readRm_run hUint hRead).1 (mod_lt imm.toNat (by rcases bmiSize_cases vex with hSize | hSize <;> rw [hSize] <;> decide)) hWord hWord']

def Bmi.operandAt (b : Bmi) (ctx : Ctx) : Ctx := if b = .Rorx then { ctx with cur := ctx.cur + 1 } else ctx

theorem Bmi.of_cases {op reg : U8} (h : Bmi.of vex op reg = some b) :
    vex.mmmmm = 2 ∧ (op = 0xF2 ∧ b = .Andn ∨
      op = 0xF3 ∧ (reg &&& 7 = 1 ∧ b = .Blsr ∨ reg &&& 7 = 2 ∧ b = .Blsmsk ∨ reg &&& 7 = 3 ∧ b = .Blsi) ∨
      op = 0xF5 ∧ (vex.pp = 0 ∧ b = .Bzhi ∨ vex.pp = 2 ∧ b = .Pext ∨ vex.pp = 3 ∧ b = .Pdep) ∨
      op = 0xF6 ∧ vex.pp = 3 ∧ b = .Mulx ∨
      op = 0xF7 ∧ (vex.pp = 0 ∧ b = .Bextr ∨ vex.pp = 1 ∧ b = .Shlx ∨ vex.pp = 3 ∧ b = .Shrx ∨ vex.pp = 2 ∧ b = .Sarx)) ∨
    (vex.mmmmm = 3 ∧ op = 0xF0 ∧ vex.pp = 3) ∧ b = .Rorx := by
  have hLast : ∀ pp : BitVec 2, pp ≠ 0 → pp ≠ 1 → pp ≠ 3 → pp = 2 := by decide
  have hLast := hLast vex.pp
  unfold Bmi.of at h
  split at h
  · rename_i hMap
    refine .inl ⟨hMap, ?_⟩
    split_ifs at h <;> cases h <;> simp_all
  · split at h
    · rename_i hMap
      cases h
      exact .inr ⟨hMap, rfl⟩
    · cases h

theorem vexBmi_done {op : U8} (hOp : Bmi.of vex op ctx.reg = some b) (hRead : readRm ctx (bmiSize vex) m = some (.ok s, m)) (imm : U8) :
    ∃ run m', vexBmi ctx vex op imm = some run ∧ run m = some (.ok (), m') ∧
      (b.meaning (8 * bmiSize vex) vex.vvvv ctx.reg imm (m.state.gprRead vex.vvvv (bmiSize vex)) s (m.state.gprRead 2 (bmiSize vex))).Done (bmiSize vex) m m' := by
  unfold vexBmi
  rcases Bmi.of_cases hOp with ⟨hMap, hArm⟩ | ⟨hMap, rfl⟩
  · rw [if_pos hMap]
    rcases hArm with ⟨rfl, rfl⟩ | ⟨rfl, hDigit⟩ | ⟨rfl, hPp⟩ | ⟨rfl, hPp, rfl⟩ | ⟨rfl, hPp⟩
    · exact ⟨bmiAndn ctx vex, (bmiAndn_done hRead imm _).imp fun m' h => ⟨rfl, h⟩⟩
    · exact ⟨bmiGroup17 ctx vex, (bmiGroup17_done hRead hDigit imm _ _).imp fun m' h => ⟨rfl, h⟩⟩
    · exact ⟨bmiF5 ctx vex, (bmiF5_done hRead hPp imm _).imp fun m' h => ⟨rfl, h⟩⟩
    · exact ⟨bmiMulx ctx vex, (bmiMulx_done hRead hPp imm _).imp fun m' h => ⟨rfl, h⟩⟩
    · exact ⟨bmiF7 ctx vex, (bmiF7_done hRead hPp imm _).imp fun m' h => ⟨rfl, h⟩⟩
  · have hOther : vex.mmmmm ≠ 2 := by
      rw [hMap.1]
      decide
    rw [if_neg hOther, if_pos hMap]
    exact ⟨bmiRorx ctx vex imm, (bmiRorx_done hRead imm _ _).imp fun m' h => ⟨rfl, h⟩⟩

end Arms

theorem readRm_of_mem {ctx : Ctx} {size : Nat} {m : Machine} {v base disp : U64} {ripRel : Bool} (hRm : ctx.rm = .Mem base disp ripRel)
    (h : m.mem.readUint ctx.rmAddr size = .ok v) : readRm ctx size m = some (.ok v, m) := by
  unfold readRm
  rw [hRm]
  exact Fallible.step_of_ok (by rw [h]; rfl)

/-- The byte at `0x1800` is 5, all others are 0. -/
def fiveAt : VirtualMemory := (onePage.writeUint 0x1800 1 5).toOption.getD .new

def ripCtx : Ctx := ⟨{}, 0x1800, 1, .Mem 0 0 true, .B64⟩

end Interp

end Exemu
