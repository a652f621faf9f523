import Exemu.Cpu.Interpreter
import Exemu.Cpu.Shift

/-! # Shifts of two words

`shld` and `shrd` fill the one operand up with the bits of the other.
-/
namespace Exemu

namespace Interp

open VirtualMemory (isUintSize)
open Fallible

def shldResult (dst src : U64) (count bits : Nat) (m : U64) : Option U64 :=
  if bits ≤ count then do return (← hostShl src (← hostSub count bits)) &&& m
  else do return ((← hostShl dst count) ||| (← hostShr src (← hostSub bits count))) &&& m

def shld (s : CpuState) (dst src count : U64) (size : Nat) : Option (CpuState × U64) :=
  let bits := size * 8
  let n := maskedCount count size
  let m := mask size
  if n = 0 then some (s, dst &&& m)
  else do
    let res ← shldResult (dst &&& m) (src &&& m) n bits m
    let cf := (← hostShr (dst &&& m) (← hostSub bits n)) &&& 1 != 0
    return (setSzp (s.setFlag flags.CF cf) res size, res)

def shrdResult (dst src : U64) (count bits : Nat) (m : U64) : Option U64 :=
  if bits ≤ count then do return (← hostShr src (← hostSub count bits)) &&& m
  else do return ((← hostShr dst count) ||| (← hostShl src (← hostSub bits count))) &&& m

def shrd (s : CpuState) (dst src count : U64) (size : Nat) : Option (CpuState × U64) :=
  let bits := size * 8
  let n := maskedCount count size
  let m := mask size
  if n = 0 then some (s, dst &&& m)
  else do
    let res ← shrdResult (dst &&& m) (src &&& m) n bits m
    let cf := (← hostShr (dst &&& m) (← hostSub n 1)) &&& 1 != 0
    return (setSzp (s.setFlag flags.CF cf) res size, res)

/-- `0x0F` with `0xA4`, `0xA5`, `0xAC` or `0xAD`. -/
def doubleShift (op2 : U8) (s : CpuState) (dst src count : U64) (size : Nat) : Option (CpuState × U64) :=
  if op2 < 0xAC then shld s dst src count size else shrd s dst src count size

/-! ## What the two are to do -/

/-- `n` bits of a number from this one on. -/
def window (n wide low : Nat) : Nat := wide / 2 ^ low % 2 ^ n

/-- The window of the two operands put together, the one that is shifted on the side where bits leave. -/
def shiftedWindow (left : Bool) (n d s k : Nat) : Nat := if left then window n (d * 2 ^ n + s) (n - k) else window n (s * 2 ^ n + d) k

def lastOut (left : Bool) (n k : Nat) : Nat := if left then n - k else k - 1

def DoubleShifts (left : Bool) (dst src count : U64) (size : Nat) (out : Option (CpuState × U64)) : Prop :=
  ∃ s' r, out = some (s', r) ∧ (1 ≤ maskedCount count size → maskedCount count size ≤ 8 * size →
    r.toNat = shiftedWindow left (8 * size) (unsigned size dst) (unsigned size src) (maskedCount count size) ∧
    s'.flag flags.CF = (unsigned size dst).testBit (lastOut left (8 * size) (maskedCount count size)))

/-! ## Windows bit by bit -/

section Windows

variable {size k i : Nat} {dst src : U64}

theorem testBit_window (n wide low i : Nat) : (window n wide low).testBit i = (decide (i < n) && wide.testBit (i + low)) := by
  unfold window
  rw [Nat.testBit_mod_two_pow, Nat.testBit_div_two_pow]

theorem testBit_pair {n a b : Nat} (hb : b < 2 ^ n) (i : Nat) : (a * 2 ^ n + b).testBit i = if i < n then b.testBit i else a.testBit (i - n) := by
  rw [Nat.mul_comm]
  exact Nat.testBit_two_pow_mul_add a hb i

theorem testBit_unsigned (size : Nat) (v : U64) (i : Nat) : (unsigned size v).testBit i = (decide (i < 8 * size) && v.getLsbD i) := by
  unfold unsigned
  rw [Nat.testBit_mod_two_pow]
  rfl

theorem toNat_eq_window {r : U64} {wide low : Nat} (hRange : r.toNat < 2 ^ (8 * size))
    (h : ∀ i < 8 * size, r.getLsbD i = wide.testBit (i + low)) : r.toNat = window (8 * size) wide low := by
  refine Nat.eq_of_testBit_eq fun i => ?_
  rw [testBit_window]
  rcases Nat.lt_or_ge i (8 * size) with hi | hi
  · rw [decide_eq_true hi, Bool.true_and, ← h i hi]
    rfl
  · rw [decide_eq_false (Nat.not_lt.mpr hi), Bool.false_and]
    exact Nat.testBit_lt_two_pow (hRange.trans_le (Nat.pow_le_pow_right (by decide) hi))

end Windows

/-! ## The results -/

section Results

variable {size k : Nat} {dst src count : U64} {s : CpuState}

theorem shldResult_window (hSize : isUintSize size = true) (hSome : 1 ≤ k) (hIn : k ≤ 8 * size) (hCount : k < 64) :
    ∃ r, shldResult (dst &&& mask size) (src &&& mask size) k (size * 8) (mask size) = some r ∧
      r.toNat = shiftedWindow true (8 * size) (unsigned size dst) (unsigned size src) k := by
  have hBits := bits_le hSize
  have hLow := unsigned_lt size src
  have hWindow : shiftedWindow true (8 * size) (unsigned size dst) (unsigned size src) k =
    window (8 * size) (unsigned size dst * 2 ^ (8 * size) + unsigned size src) (8 * size - k) := rfl
  unfold shldResult
  rw [hWindow, Nat.mul_comm size 8]
  split
  · rename_i hWhole
    have hEnd : k = 8 * size := by omega
    subst hEnd
    refine ⟨((src &&& mask size) <<< (8 * size - 8 * size)) &&& mask size, ?_, toNat_eq_window (cut_lt _ hSize) fun i hi => ?_⟩
    · rw [hostSub_eq le_rfl, Option.bind_eq_bind, Option.bind_some, hostShl_eq (by omega)]
      rfl
    · rw [testBit_pair hLow, if_pos (by omega), testBit_unsigned, getLsbD_cut _ hSize, Nat.sub_self, BitVec.shiftLeft_zero, getLsbD_cut _ hSize]
      simp [hi]
  · rename_i hPart
    refine ⟨(((dst &&& mask size) <<< k) ||| ((src &&& mask size) >>> (8 * size - k))) &&& mask size, ?_,
      toNat_eq_window (cut_lt _ hSize) fun i hi => ?_⟩
    · rw [hostShl_eq hCount, hostSub_eq hIn, Option.bind_eq_bind, Option.bind_some, Option.bind_eq_bind, Option.bind_some, hostShr_eq (by omega)]
      rfl
    · rw [testBit_pair hLow, testBit_unsigned, testBit_unsigned, getLsbD_cut _ hSize, BitVec.getLsbD_or, BitVec.getLsbD_shiftLeft,
        BitVec.getLsbD_ushiftRight, getLsbD_cut _ hSize, getLsbD_cut _ hSize]
      rcases Nat.lt_or_ge i k with hFrom | hFrom
      · simp [hi, hFrom, show i + (8 * size - k) < 8 * size by omega, Nat.add_comm (8 * size - k) i]
      · simp [hi, show ¬i < k by omega, show ¬i + (8 * size - k) < 8 * size by omega, show ¬8 * size - k + i < 8 * size by omega,
          show i + (8 * size - k) - 8 * size = i - k by omega, show i - k < 8 * size by omega, show i < 64 by omega]

theorem shrdResult_window (hSize : isUintSize size = true) (hSome : 1 ≤ k) (hIn : k ≤ 8 * size) (hCount : k < 64) :
    ∃ r, shrdResult (dst &&& mask size) (src &&& mask size) k (size * 8) (mask size) = some r ∧
      r.toNat = shiftedWindow false (8 * size) (unsigned size dst) (unsigned size src) k := by
  have hBits := bits_le hSize
  have hLow := unsigned_lt size dst
  have hWindow : shiftedWindow false (8 * size) (unsigned size dst) (unsigned size src) k =
    window (8 * size) (unsigned size src * 2 ^ (8 * size) + unsigned size dst) k := rfl
  unfold shrdResult
  rw [hWindow, Nat.mul_comm size 8]
  split
  · rename_i hWhole
    have hEnd : k = 8 * size := by omega
    subst hEnd
    refine ⟨((src &&& mask size) >>> (8 * size - 8 * size)) &&& mask size, ?_, toNat_eq_window (cut_lt _ hSize) fun i hi => ?_⟩
    · rw [hostSub_eq le_rfl, Option.bind_eq_bind, Option.bind_some, hostShr_eq (by omega)]
      rfl
    · rw [testBit_pair hLow, if_neg (by omega), testBit_unsigned, getLsbD_cut _ hSize, Nat.sub_self, BitVec.ushiftRight_zero, getLsbD_cut _ hSize,
        Nat.add_sub_cancel]
      simp [hi]
  · rename_i hPart
    refine ⟨(((dst &&& mask size) >>> k) ||| ((src &&& mask size) <<< (8 * size - k))) &&& mask size, ?_,
      toNat_eq_window (cut_lt _ hSize) fun i hi => ?_⟩
    · rw [hostShr_eq hCount, hostSub_eq hIn, Option.bind_eq_bind, Option.bind_some, Option.bind_eq_bind, Option.bind_some, hostShl_eq (by omega)]
      rfl
    · rw [testBit_pair hLow, testBit_unsigned, testBit_unsigned, getLsbD_cut _ hSize, BitVec.getLsbD_or, BitVec.getLsbD_shiftLeft,
        BitVec.getLsbD_ushiftRight, getLsbD_cut _ hSize, getLsbD_cut _ hSize]
      rcases Nat.lt_or_ge (i + k) (8 * size) with hFrom | hFrom
      · simp [hi, hFrom, show i < 8 * size - k by omega, Nat.add_comm k i]
      · simp [hi, show ¬i + k < 8 * size by omega, show ¬k + i < 8 * size by omega, show ¬i < 8 * size - k by omega, show i < 64 by omega,
          show i - (8 * size - k) = i + k - 8 * size by omega, show i + k - 8 * size < 8 * size by omega]

theorem carry_of_bit (hSize : isUintSize size = true) (s : CpuState) (dst r : U64) (j : Nat) :
    (setSzp (s.setFlag flags.CF ((dst &&& mask size) >>> j &&& 1 != 0)) r size).flag flags.CF = (unsigned size dst).testBit j := by
  rw [cf_eq, setSzp_flag (by decide) (by decide), flag_setFlag _ _ (by decide), if_pos rfl, carried _ (by decide), getLsbD_cut _ hSize, testBit_unsigned]

theorem doubleShifts_of_zero (h : maskedCount count size = 0) (left : Bool) (r : U64) : DoubleShifts left dst src count size (some (s, r)) :=
  ⟨s, r, rfl, fun hSome => by omega⟩

theorem shld_shifts (hSize : isUintSize size = true) (hIn : maskedCount count size ≤ 8 * size) :
    DoubleShifts true dst src count size (shld s dst src count size) := by
  have hBits := bits_le hSize
  have hCount := maskedCount_lt count size
  unfold shld
  dsimp only
  split
  · rename_i hZero
    exact doubleShifts_of_zero hZero true _
  · rename_i hSome
    obtain ⟨r, hResult, hRow⟩ := @shldResult_window _ _ dst src hSize (Nat.one_le_iff_ne_zero.mpr hSome) hIn hCount
    rw [hResult, Nat.mul_comm size 8, hostSub_eq hIn, Option.bind_eq_bind, Option.bind_some, Option.bind_eq_bind, Option.bind_some,
      hostShr_eq (by omega)]
    exact ⟨_, r, rfl, fun _ _ => ⟨hRow, carry_of_bit hSize s dst r _⟩⟩

theorem shld_of_wide (h : 8 * size < maskedCount count size) : shld s dst src count size = none := by
  unfold shld
  dsimp only
  rw [if_neg (by omega), Nat.mul_comm size 8]
  have hNone : hostSub (8 * size) (maskedCount count size) = none := if_neg (by omega)
  rw [hNone]
  cases shldResult (dst &&& mask size) (src &&& mask size) (maskedCount count size) (8 * size) (mask size) <;> rfl

theorem shrdResult_some (hSize : isUintSize size = true) (hSome : 1 ≤ k) (hCount : k < 64) (dst src m : U64) :
    ∃ r, shrdResult dst src k (size * 8) m = some r := by
  have hBits := bits_le hSize
  unfold shrdResult
  split
  · rename_i hWide
    rw [hostSub_eq hWide, Option.bind_eq_bind, Option.bind_some, hostShr_eq (by omega)]
    exact ⟨_, rfl⟩
  · rw [hostShr_eq hCount, hostSub_eq (by omega), Option.bind_eq_bind, Option.bind_some, Option.bind_eq_bind, Option.bind_some,
      hostShl_eq (by omega)]
    exact ⟨_, rfl⟩

theorem shrd_shifts (hSize : isUintSize size = true) : DoubleShifts false dst src count size (shrd s dst src count size) := by
  have hBits := bits_le hSize
  have hCount := maskedCount_lt count size
  unfold shrd
  dsimp only
  split
  · rename_i hZero
    exact doubleShifts_of_zero hZero false _
  · rename_i hSome
    have hOne := Nat.one_le_iff_ne_zero.mpr hSome
    obtain ⟨r, hResult⟩ := shrdResult_some hSize hOne hCount (dst &&& mask size) (src &&& mask size) (mask size)
    rw [hResult, hostSub_eq hOne, Option.bind_eq_bind, Option.bind_some, Option.bind_eq_bind, Option.bind_some, hostShr_eq (by omega)]
    refine ⟨_, r, rfl, fun _ hIn => ⟨?_, carry_of_bit hSize s dst r _⟩⟩
    obtain ⟨r', hSame, hRow⟩ := @shrdResult_window _ _ dst src hSize hOne hIn hCount
    rw [hResult] at hSame
    cases hSame
    exact hRow

end Results

/-! ## The instructions -/

section Instructions

variable {ctx : Ctx} {op2 imm : U8} {m : Machine}

/-- A count beyond the width is what there is no result for, in the one direction. -/
theorem doubleShift_shifts_iff (ctx : Ctx) (op2 : U8) (s : CpuState) (dst src count : U64) :
    DoubleShifts (op2 < 0xAC) dst src count ctx.opsize (doubleShift op2 s dst src count ctx.opsize) ↔
      ¬(op2 < 0xAC ∧ 8 * ctx.opsize < maskedCount count ctx.opsize) := by
  have hSize := opsize_uintSize ctx
  unfold doubleShift
  split
  · rename_i hLeft
    rw [decide_eq_true hLeft]
    constructor
    · rintro ⟨s', r, hRun, -⟩ ⟨-, hWide⟩
      rw [shld_of_wide hWide] at hRun
      cases hRun
    · intro hNot
      exact shld_shifts hSize (Nat.not_lt.mp fun hWide => hNot ⟨hLeft, hWide⟩)
  · rename_i hRight
    rw [decide_eq_false hRight]
    exact ⟨fun _ hBoth => hRight hBoth.1, fun _ => shrd_shifts hSize⟩

theorem doubleShift_of_wide : ¬DoubleShifts true 0 0 17 2 (doubleShift 0xA4 {} 0 0 17 2) := by
  rintro ⟨s', r, hRun, -⟩
  have hWide : 8 * 2 < maskedCount 17 2 := by decide
  have hNone : doubleShift 0xA4 {} 0 0 17 2 = none := shld_of_wide hWide
  rw [hNone] at hRun
  cases hRun

end Instructions

end Interp

end Exemu
