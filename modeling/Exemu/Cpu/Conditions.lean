import Exemu.Cpu.Alu
import Mathlib.Tactic.IntervalCases
import Mathlib.Tactic.LinearCombination

/-! # Condition codes, and chains of carries

What a comparison tells the sixteen codes, and what `adc` and `sbb` compute over many words.
-/
namespace Exemu

namespace Interp

open VirtualMemory (isUintSize)
open BitVec hiding not_or or_assoc

def logic (s : CpuState) (res : U64) (size : Nat) : CpuState × U64 :=
  let r := res &&& mask size
  let s := s.setFlag flags.CF false
  let s := s.setFlag flags.OF false
  let s := s.setFlag flags.AF false
  (setSzp s r size, r)

def doAlu (s : CpuState) (op : Nat) (a b : U64) (size : Nat) : CpuState × U64 :=
  match op with
  | 0 => add s a b 0 size
  | 1 => logic s (a ||| b) size
  | 2 => add s a b (carryOf (s.flag flags.CF)) size
  | 3 => sub s a b (carryOf (s.flag flags.CF)) size
  | 4 => logic s (a &&& b) size
  | 5 => sub s a b 0 size
  | 6 => logic s (a ^^^ b) size
  | _ => ((sub s a b 0 size).1, a)

def cond (s : CpuState) (tttn : Nat) : Bool :=
  let cf := s.flag flags.CF
  let zf := s.flag flags.ZF
  let sf := s.flag flags.SF
  let of := s.flag flags.OF
  let pf := s.flag flags.PF
  match tttn % 16 with
  | 0x0 => of
  | 0x1 => !of
  | 0x2 => cf
  | 0x3 => !cf
  | 0x4 => zf
  | 0x5 => !zf
  | 0x6 => cf || zf
  | 0x7 => !(cf || zf)
  | 0x8 => sf
  | 0x9 => !sf
  | 0xa => pf
  | 0xb => !pf
  | 0xc => sf != of
  | 0xd => sf == of
  | 0xe => zf || (sf != of)
  | _ => !zf && (sf == of)

/-- The first condition of each pair; the second is the opposite. -/
def condOf (s : CpuState) : Nat → Bool
  | 0 => s.flag flags.OF
  | 1 => s.flag flags.CF
  | 2 => s.flag flags.ZF
  | 3 => s.flag flags.CF || s.flag flags.ZF
  | 4 => s.flag flags.SF
  | 5 => s.flag flags.PF
  | 6 => s.flag flags.SF ^^ s.flag flags.OF
  | _ => s.flag flags.ZF || (s.flag flags.SF ^^ s.flag flags.OF)

theorem cond_eq (s : CpuState) (tttn : Nat) : cond s tttn = (condOf s (tttn % 16 / 2) ^^ decide (tttn % 2 = 1)) := by
  have hCode : tttn % 2 = tttn % 16 % 2 := (Nat.mod_mod_of_dvd tttn (by decide)).symm
  have hRange : tttn % 16 < 16 := Nat.mod_lt _ (by decide)
  rw [hCode]
  unfold cond
  generalize tttn % 16 = code at hRange ⊢
  interval_cases code <;> simp [condOf, bne]

/-! ## What a comparison tells -/

/-- What the first condition of each pair says of two operands compared. -/
def Compares (size : Nat) (a b : U64) : Nat → Prop
  | 0 => Overflows size (signed size a - signed size b)
  | 1 => unsigned size a < unsigned size b
  | 2 => unsigned size a = unsigned size b
  | 3 => unsigned size a ≤ unsigned size b
  | 4 => signed size (a - b) < 0
  | 5 => Even (countOnes (a - b))
  | 6 => signed size a < signed size b
  | _ => signed size a ≤ signed size b

section Compared

variable {size : Nat} (hSize : isUintSize size = true) (s : CpuState) (a b : U64)

include hSize

theorem sub_value : (sub s a b (carryOf false) size).2 = (a - b) &&& mask size := by
  apply eq_of_toNat_eq
  have hWraps := sub_wraps hSize s a b false
  have hRange := sub_range hSize s a b false
  have hA := a.isLt
  have hB := b.isLt
  rw [toNat_and_mask _ hSize]
  simp only [unsigned, toNat_sub, Bool.toNat_false, Nat.add_zero] at hWraps ⊢
  generalize (sub s a b (carryOf false) size).2.toNat = r at hWraps hRange ⊢
  rcases isUintSize_iff.mp hSize with rfl | rfl | rfl | rfl <;> simp only [Nat.reduceMul, Nat.reducePow] at * <;> omega

theorem countOnes_and_mask (v : U64) : countOnes (v &&& mask size) = countOnes v := by
  unfold countOnes
  apply List.countP_congr
  intro i hi
  have hMask : ∀ i < 8, (mask size).getLsbD i = true := by rcases isUintSize_iff.mp hSize with rfl | rfl | rfl | rfl <;> decide
  rw [getLsbD_and, hMask i (List.mem_range.mp hi), Bool.and_true]

theorem signed_neg (v : U64) : signed size v < 0 ↔ 2 ^ (8 * size - 1) ≤ (v &&& mask size).toNat := by
  have hRange := unsigned_lt size v
  rw [two_halves hSize] at hRange
  rw [signed_halves v hSize, toNat_and_mask v hSize]
  split <;> omega

/-- The sign and the overflow of a difference together are the order of the signed operands. -/
theorem signed_order : ¬(signed size (a - b) < 0 ↔ Overflows size (signed size a - signed size b)) ↔ signed size a < signed size b := by
  have hA := unsigned_lt size a
  have hB := unsigned_lt size b
  have hRange := sub_range hSize {} a b false
  have hWraps := sub_wraps hSize {} a b false
  rw [signed_neg hSize, ← sub_value hSize {} a b, overflows_iff, signed_halves a hSize, signed_halves b hSize]
  rw [two_halves hSize] at hA hB hRange hWraps
  rw [Bool.toNat_false] at hWraps
  split <;> split <;> omega

theorem compared (pair : Nat) : condOf (doAlu s 7 a b size).1 pair = true ↔ Compares size a b pair := by
  have hSets := sub_sets hSize s a b false
  have hWraps := sub_wraps hSize s a b false
  have hValue := sub_value hSize s a b
  have hOrder := signed_order hSize a b
  have hZero : (a - b) &&& mask size = 0 ↔ unsigned size a = unsigned size b := by
    have hB := unsigned_lt size b
    have hRange := sub_range hSize s a b false
    rw [← hValue, ← toNat_inj]
    change _ = 0 ↔ _
    rw [Bool.toNat_false] at hWraps
    omega
  simp only [Bool.toNat_false, Nat.add_zero, Nat.cast_zero, Int.sub_zero] at hSets
  obtain ⟨-, -, -, hCf, -, hOf, hZf, hSf, hPf⟩ := hSets
  rw [hValue] at hZf hSf hPf
  rw [hZero] at hZf
  rw [← signed_neg hSize] at hSf
  rw [countOnes_and_mask hSize] at hPf
  have hSigned : unsigned size a = unsigned size b ↔ signed size a = signed size b := by
    rw [signed_halves a hSize, signed_halves b hSize]
    have hA := two_halves hSize ▸ unsigned_lt size a
    have hB := two_halves hSize ▸ unsigned_lt size b
    split <;> split <;> omega
  change condOf (sub s a b (carryOf false) size).1 pair = true ↔ _
  unfold condOf Compares
  split
  · exact hOf
  · exact hCf
  · exact hZf
  · rw [Bool.or_eq_true, hCf, hZf, Nat.le_iff_lt_or_eq]
  · exact hSf
  · exact hPf
  · rw [Bool.xor_iff_ne, ne_eq, Bool.eq_iff_iff, hSf, hOf, hOrder]
  · rw [Bool.or_eq_true, hZf, Bool.xor_iff_ne, ne_eq, Bool.eq_iff_iff, hSf, hOf, hOrder, hSigned, le_iff_eq_or_lt]

/-- After `cmp` each of the sixteen codes decides the order it is named for. -/
theorem cond_compares (tttn : Nat) : cond (doAlu s 7 a b size).1 tttn = true ↔ (Compares size a b (tttn % 16 / 2) ↔ tttn % 2 = 0) := by
  rw [cond_eq, ← compared hSize s a b]
  rcases Nat.mod_two_eq_zero_or_one tttn with hEven | hOdd
  · simp [hEven]
  · simp [hOdd]

/-! ## Words in a chain -/

/-- One instruction a word, the lowest word first: each takes the carry the one before it left. -/
def chain (op size : Nat) (s : CpuState) : List (U64 × U64) → CpuState × List U64
  | [] => (s, [])
  | (a, b) :: words =>
    let (s, r) := doAlu s op a b size
    let (s, rs) := chain op size s words
    (s, r :: rs)

/-- What the words mean together. -/
def wordsValue (size : Nat) : List U64 → Nat
  | [] => 0
  | w :: words => unsigned size w + 2 ^ (8 * size) * wordsValue size words

omit hSize in
theorem wordsValue_lt (size : Nat) (words : List U64) : wordsValue size words < 2 ^ (8 * size * words.length) := by
  induction words with
  | nil => simp [wordsValue]
  | cons w words ih =>
    have hWord := unsigned_lt size w
    rw [wordsValue, List.length_cons, Nat.mul_succ, pow_add, Nat.mul_comm (2 ^ (8 * size * words.length))]
    calc unsigned size w + 2 ^ (8 * size) * wordsValue size words
      _ < 2 ^ (8 * size) * (wordsValue size words + 1) := by rw [Nat.mul_succ]; omega
      _ ≤ 2 ^ (8 * size) * 2 ^ (8 * size * words.length) := Nat.mul_le_mul_left _ ih

omit hSize in
theorem length_chain (op size : Nat) (s : CpuState) (words : List (U64 × U64)) : (chain op size s words).2.length = words.length := by
  induction words generalizing s with
  | nil => rfl
  | cons w words ih => exact congrArg Nat.succ (ih _)

theorem add_word (c : Bool) : unsigned size (add s a b (carryOf c) size).2 +
    2 ^ (8 * size) * ((add s a b (carryOf c) size).1.flag flags.CF).toNat = unsigned size a + unsigned size b + c.toNat := by
  have hA := unsigned_lt size a
  have hB := unsigned_lt size b
  have hC := Bool.toNat_le c
  have hCf := (add_sets hSize s a b c).cf
  rw [unsigned, add_result hSize, Nat.mod_mod]
  cases hFlag : (add s a b (carryOf c) size).1.flag flags.CF with
  | false =>
    rw [hFlag] at hCf
    have hFits : unsigned size a + unsigned size b + c.toNat < 2 ^ (8 * size) := by simpa using hCf
    rw [Nat.mod_eq_of_lt hFits, Bool.toNat_false, Nat.mul_zero, Nat.add_zero]
  | true =>
    have hOver := hCf.mp hFlag
    rw [Nat.mod_eq_sub_mod hOver, Nat.mod_eq_of_lt (by omega), Bool.toNat_true, Nat.mul_one, Nat.sub_add_cancel hOver]

theorem sub_word (c : Bool) : unsigned size (sub s a b (carryOf c) size).2 + unsigned size b + c.toNat =
    unsigned size a + 2 ^ (8 * size) * ((sub s a b (carryOf c) size).1.flag flags.CF).toNat := by
  have hA := unsigned_lt size a
  have hRange := sub_range hSize s a b c
  have hWraps := sub_wraps hSize s a b c
  have hCf := (sub_sets hSize s a b c).cf
  rw [unsigned, Nat.mod_eq_of_lt hRange]
  cases hFlag : (sub s a b (carryOf c) size).1.flag flags.CF with
  | false =>
    rw [hFlag] at hCf
    simp only [Bool.false_eq_true, false_iff] at hCf
    rw [Bool.toNat_false]
    omega
  | true =>
    have hBelow := hCf.mp hFlag
    rw [Bool.toNat_true]
    omega

/-- A chain of `adc` adds the numbers and a chain of `sbb` takes one from the other, with the carry as the digit above the last. -/
theorem chained (words : List (U64 × U64)) :
    let a := wordsValue size (words.map Prod.fst)
    let b := wordsValue size (words.map Prod.snd)
    let c := (s.flag flags.CF).toNat
    let all := 2 ^ (8 * size * words.length)
    (∀ op, wordsValue size (chain op size s words).2 < all) ∧
      wordsValue size (chain 2 size s words).2 + all * ((chain 2 size s words).1.flag flags.CF).toNat = a + b + c ∧
      wordsValue size (chain 3 size s words).2 + b + c = a + all * ((chain 3 size s words).1.flag flags.CF).toNat := by
  refine ⟨fun op => length_chain op size s words ▸ wordsValue_lt size _, ?_⟩
  induction words generalizing s with
  | nil => simp [chain, wordsValue]
  | cons w words ih =>
    have hAdd := add_word hSize s w.1 w.2 (s.flag flags.CF)
    have hSub := sub_word hSize s w.1 w.2 (s.flag flags.CF)
    have hSum := (ih (add s w.1 w.2 (carryOf (s.flag flags.CF)) size).1).1
    have hDifference := (ih (sub s w.1 w.2 (carryOf (s.flag flags.CF)) size).1).2
    simp only [chain, doAlu, wordsValue, List.map_cons, List.length_cons, Nat.mul_succ, pow_add]
    constructor
    · linear_combination hAdd + 2 ^ (8 * size) * hSum
    · linear_combination hSub + 2 ^ (8 * size) * hDifference

end Compared

theorem cond_compares_of_bytes : cond (doAlu {} 7 0xff 1 1).1 0xc = true ∧ ¬cond (doAlu {} 7 0xff 1 1).1 0x2 = true := by
  have hSigned := @cond_compares 1 (by decide) {} 0xff 1 0xc
  have hUnsigned := @cond_compares 1 (by decide) {} 0xff 1 0x2
  exact ⟨hSigned.mpr (by simp [Compares, signed]), fun hOn => absurd ((hUnsigned.mp hOn).mpr rfl) (by simp [Compares, unsigned])⟩

theorem chained_of_bytes : wordsValue 1 (chain 2 1 {} [(0xff, 1), (0x12, 0)]).2 +
    2 ^ 16 * ((chain 2 1 {} [(0xff, 1), (0x12, 0)]).1.flag flags.CF).toNat = 0x1300 :=
  (@chained 1 (by decide) {} [(0xff, 1), (0x12, 0)]).2.1.trans (by decide)

end Interp

end Exemu
