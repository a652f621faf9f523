import Exemu.Core.Memory
import Mathlib.Data.List.Basic

/-! # Constants in registers

A constant is built from four halfwords: the first instruction sets one of them and clears or
fills the others, and each later one puts another halfword in its place.
-/
namespace Exemu.Jit

open BitVec

/-! ## The assembler -/

def moveWide (op : U32) (sf64 : Bool) (rd : U32) (imm16 : U16) (hw : U32) : U32 :=
  ((if sf64 then 1 else 0 : U32) <<< 31) ||| (op <<< 23) ||| ((hw &&& 3) <<< 21) ||| (imm16.setWidth 32 <<< 5) ||| rd

def movz (sf64 : Bool) (rd : U32) (imm16 : U16) (hw : U32) : U32 := moveWide 0b10100101 sf64 rd imm16 hw
def movn (sf64 : Bool) (rd : U32) (imm16 : U16) (hw : U32) : U32 := moveWide 0b00100101 sf64 rd imm16 hw
def movk (sf64 : Bool) (rd : U32) (imm16 : U16) (hw : U32) : U32 := moveWide 0b11100101 sf64 rd imm16 hw

def halfword (value : U64) (i : Nat) : U16 := (value >>> (16 * i)).setWidth 16

/-- The halfwords after the first one that are not what the first instruction leaves. -/
def movkRest (rd : U32) (value shown : U64) (first : Nat) : List U32 :=
  ((List.range 4).filter fun i => i ≠ first ∧ halfword shown i ≠ 0).map fun i => movk true rd (halfword value i) (BitVec.ofNat 32 i)

def movImm64 (rd : U32) (value : U64) : List U32 :=
  let inv := ~~~value
  let nz := (List.range 4).countP fun i => halfword value i ≠ 0
  let nzInv := (List.range 4).countP fun i => halfword inv i ≠ 0
  if nz = 0 then [movz true rd 0 0]
  else if nzInv ≤ nz then
    let first := ((List.range 4).find? fun i => halfword inv i ≠ 0).getD 0
    movn true rd (halfword inv first) (BitVec.ofNat 32 first) :: movkRest rd value inv first
  else
    match (List.range 4).find? fun i => halfword value i ≠ 0 with
    | some first => movz true rd (halfword value first) (BitVec.ofNat 32 first) :: movkRest rd value value first
    | none => []

/-! ## The architecture -/

inductive MoveWideOp
  | n
  | z
  | k
  deriving DecidableEq, Repr

structure MoveWide where
  op : MoveWideOp
  rd : BitVec 5
  imm16 : BitVec 16
  hw : BitVec 2
  deriving DecidableEq, Repr

def decodeMoveWide (w : U32) : Option MoveWide :=
  if w.extractLsb' 23 6 = 0b100101 ∧ w.getLsbD 31 = true then
    let fields (op : MoveWideOp) : MoveWide := ⟨op, w.extractLsb' 0 5, w.extractLsb' 5 16, w.extractLsb' 21 2⟩
    if w.extractLsb' 29 2 = 0b00 then some (fields .n)
    else if w.extractLsb' 29 2 = 0b10 then some (fields .z)
    else if w.extractLsb' 29 2 = 0b11 then some (fields .k)
    else none
  else none

def putHalf (v : U64) (i : Nat) (imm16 : BitVec 16) : U64 := (v &&& ~~~((0xffff : U64) <<< (16 * i))) ||| (imm16.setWidth 64 <<< (16 * i))

def MoveWide.result (m : MoveWide) (old : U64) : U64 :=
  match m.op with
  | .n => ~~~(m.imm16.setWidth 64 <<< (16 * m.hw.toNat))
  | .z => m.imm16.setWidth 64 <<< (16 * m.hw.toNat)
  | .k => putHalf old m.hw.toNat m.imm16

abbrev Registers := Nat → U64

def Registers.write (regs : Registers) (rd : BitVec 5) (v : U64) : Registers := if rd = 31 then regs else Function.update regs rd.toNat v

def step (regs : Registers) (w : U32) : Option Registers := (decodeMoveWide w).map fun m => regs.write m.rd (m.result (regs m.rd.toNat))

def runWords (regs : Registers) (ws : List U32) : Option Registers := ws.foldlM step regs

/-! ## Instruction words -/

section Words

variable {op : BitVec 8} {rd : BitVec 5} {imm16 : U16} {hw : BitVec 2}

theorem getLsbD_moveWide {i : Nat} (hi : i < 32) : (moveWide (op.setWidth 32) true (rd.setWidth 32) imm16 (hw.setWidth 32)).getLsbD i =
    if i < 5 then rd.getLsbD i else if i < 21 then imm16.getLsbD (i - 5) else if i < 23 then hw.getLsbD (i - 21) else if i < 31 then op.getLsbD (i - 23)
    else true := by
  have hTop : ((1 : U32) <<< 31).getLsbD i = decide (31 = i) := by
    change (BitVec.twoPow 32 31).getLsbD i = _
    rw [getLsbD_twoPow, decide_eq_true (by decide), Bool.true_and]
  have hTwo : ∀ j, (3 : U32).getLsbD j = decide (j < 2) := fun j => by
    change (BitVec.ofNat 32 (2 ^ 2 - 1)).getLsbD j = _
    rw [getLsbD_ofNat, Nat.testBit_two_pow_sub_one, ← Bool.decide_and]
    exact decide_eq_decide.mpr (by omega)
  unfold moveWide
  simp only [if_true, getLsbD_or, hTop, getLsbD_shiftLeft, getLsbD_and, getLsbD_setWidth, hTwo, decide_eq_true hi,
    Bool.true_and]
  have hRd : 5 ≤ i → rd.getLsbD i = false := getLsbD_of_ge rd i
  have hImm : 21 ≤ i → imm16.getLsbD (i - 5) = false := fun h => getLsbD_of_ge _ _ (by omega)
  have hHw : 23 ≤ i → hw.getLsbD (i - 21) = false := fun h => getLsbD_of_ge _ _ (by omega)
  have hOp : 31 ≤ i → op.getLsbD (i - 23) = false := fun h => getLsbD_of_ge _ _ (by omega)
  grind

def MoveWideOp.bits : MoveWideOp → BitVec 8
  | .n => 0b00100101
  | .z => 0b10100101
  | .k => 0b11100101

def MoveWide.word (m : MoveWide) : U32 := moveWide (m.op.bits.setWidth 32) true (m.rd.setWidth 32) m.imm16 (m.hw.setWidth 32)

theorem extractLsb'_operation (m : MoveWide) {start n : Nat} (h : start + n ≤ 8) :
    m.word.extractLsb' (23 + start) n = m.op.bits.extractLsb' start n := by
  ext i hi
  rw [getElem_extractLsb', getElem_extractLsb', MoveWide.word, getLsbD_moveWide (by omega), if_neg (by omega), if_neg (by omega),
    if_neg (by omega), if_pos (by omega)]
  exact congrArg _ (by omega)

@[simp] theorem decodeMoveWide_word (m : MoveWide) : decodeMoveWide m.word = some m := by
  have hTop : m.word.getLsbD 31 = true := getLsbD_moveWide (by decide)
  have hFixed : m.word.extractLsb' 23 6 = m.op.bits.extractLsb' 0 6 := @extractLsb'_operation m 0 _ (by decide)
  have hOp : m.word.extractLsb' 29 2 = m.op.bits.extractLsb' 6 2 := @extractLsb'_operation m 6 _ (by decide)
  have hRd : m.word.extractLsb' 0 5 = m.rd := by
    ext i hi
    rw [getElem_extractLsb', MoveWide.word, getLsbD_moveWide (by omega), if_pos (by omega), Nat.zero_add, getLsbD_eq_getElem hi]
  have hImm : m.word.extractLsb' 5 16 = m.imm16 := by
    ext i hi
    rw [getElem_extractLsb', MoveWide.word, getLsbD_moveWide (by omega), if_neg (by omega), if_pos (by omega), Nat.add_sub_cancel_left,
      getLsbD_eq_getElem hi]
  have hHw : m.word.extractLsb' 21 2 = m.hw := by
    ext i hi
    rw [getElem_extractLsb', MoveWide.word, getLsbD_moveWide (by omega), if_neg (by omega), if_neg (by omega), if_pos (by omega),
      Nat.add_sub_cancel_left, getLsbD_eq_getElem hi]
  rw [decodeMoveWide, hTop, hFixed, hOp, hRd, hImm, hHw]
  obtain ⟨op, rd, imm16, hw⟩ := m
  cases op <;> simp [MoveWideOp.bits]

theorem runWords_words (rd : BitVec 5) : ∀ (ms : List MoveWide) (_ : ∀ m ∈ ms, m.rd = rd) (regs : Registers),
    runWords regs (ms.map MoveWide.word) = some (regs.write rd (ms.foldl (fun v m => m.result v) (regs rd.toNat)))
  | [], _, regs => congrArg some (by
      by_cases h : rd = 31
      · exact (if_pos h).symm
      · exact ((if_neg h).trans (Function.update_eq_self _ _)).symm)
  | m :: ms, hRow, regs => by
      have hRd : m.rd = rd := hRow m List.mem_cons_self
      have hRest := runWords_words rd ms (fun x hx => hRow x (List.mem_cons_of_mem m hx))
      rw [List.map_cons, runWords, List.foldlM_cons, step, decodeMoveWide_word]
      change runWords (regs.write m.rd (m.result (regs m.rd.toNat))) (ms.map MoveWide.word) = _
      rw [hRd, hRest]
      by_cases h : rd = 31
      · rw [Registers.write, if_pos h, Registers.write, if_pos h, Registers.write, if_pos h]
      · rw [Registers.write, if_neg h, Registers.write, if_neg h, Registers.write, if_neg h, Function.update_self, Function.update_idem]
        rfl

end Words

/-! ## Halfwords -/

theorem getLsbD_halfword (v : U64) (i : Nat) {k : Nat} (hk : k < 16) : (halfword v i).getLsbD k = v.getLsbD (16 * i + k) := by
  rw [halfword, getLsbD_setWidth, getLsbD_ushiftRight, decide_eq_true hk, Bool.true_and]

theorem eq_of_halfwords {a b : U64} (h : ∀ i < 4, halfword a i = halfword b i) : a = b := by
  refine eq_of_getLsbD_eq fun j hj => ?_
  have hHalf := congrArg (fun x => BitVec.getLsbD x (j % 16)) (h (j / 16) (by omega))
  simp only [getLsbD_halfword _ _ (Nat.mod_lt j (by decide : 0 < 16))] at hHalf
  rwa [Nat.div_add_mod] at hHalf

theorem halfword_not (v : U64) {i : Nat} (hi : i < 4) : halfword (~~~v) i = ~~~halfword v i := by
  refine eq_of_getLsbD_eq fun k hk => ?_
  rw [getLsbD_halfword _ _ hk, getLsbD_not, getLsbD_not, getLsbD_halfword _ _ hk, decide_eq_true hk, decide_eq_true (by omega)]

theorem halfword_shifted (imm16 : U16) {i j : Nat} (hj : j < 4) : halfword (imm16.setWidth 64 <<< (16 * i)) j = if j = i then imm16 else 0 := by
  refine eq_of_getLsbD_eq fun k hk => ?_
  rw [getLsbD_halfword _ _ hk, getLsbD_shiftLeft, getLsbD_setWidth, decide_eq_true (by omega : 16 * j + k < 64), Bool.true_and,
    decide_eq_true (by omega : 16 * j + k - 16 * i < 64), Bool.true_and]
  rcases Nat.lt_trichotomy j i with hLow | rfl | hHigh
  · rw [decide_eq_true (by omega), if_neg (by omega)]
    exact BitVec.getLsbD_zero.symm
  · rw [if_pos rfl, decide_eq_false (by omega), Nat.add_sub_cancel_left]
    rfl
  · rw [if_neg (by omega), getLsbD_of_ge _ _ (by omega), Bool.and_false]
    exact BitVec.getLsbD_zero.symm

theorem halfword_putHalf (v : U64) (imm16 : U16) {i j : Nat} (hj : j < 4) : halfword (putHalf v i imm16) j = if j = i then imm16 else halfword v j := by
  have hMask : halfword ((0xffff : U64) <<< (16 * i)) j = if j = i then 0xffff else 0 := halfword_shifted 0xffff hj
  have hPut : halfword (putHalf v i imm16) j = halfword v j &&& ~~~halfword ((0xffff : U64) <<< (16 * i)) j ||| halfword (imm16.setWidth 64 <<< (16 * i)) j := by
    rw [← halfword_not _ hj]
    rw [putHalf, halfword, halfword, halfword, halfword, ushiftRight_or_distrib, ushiftRight_and_distrib, setWidth_or,
      setWidth_and]
  rw [hPut, hMask, halfword_shifted imm16 hj]
  by_cases h : j = i
  · rw [if_pos h, if_pos h, if_pos h]
    exact (congrArg (· ||| imm16) and_zero).trans zero_or
  · rw [if_neg h, if_neg h, if_neg h]
    exact BitVec.or_zero.trans and_allOnes

/-! ## The moves -/

section Moves

variable (rd : BitVec 5) (value : U64)

theorem halfword_foldl_putHalf {j : Nat} (hj : j < 4) : ∀ (is : List Nat) (v : U64),
    halfword (is.foldl (fun v i => putHalf v i (halfword value i)) v) j = if j ∈ is then halfword value j else halfword v j
  | [], v => (if_neg List.not_mem_nil).symm
  | i :: is, v => by
      rw [List.foldl_cons, halfword_foldl_putHalf hj is, halfword_putHalf _ _ hj]
      by_cases hMem : j ∈ is
      · rw [if_pos hMem, if_pos (List.mem_cons_of_mem i hMem)]
      · rw [if_neg hMem]
        by_cases hHead : j = i
        · rw [if_pos hHead, hHead, if_pos List.mem_cons_self]
        · rw [if_neg hHead, if_neg fun h => (List.mem_cons.mp h).elim hHead hMem]

theorem foldl_rest {shown start : U64} {first : Nat}
    (h : ∀ j < 4, j = first ∨ halfword shown j = 0 → halfword start j = halfword value j) :
    ((List.range 4).filter fun i => i ≠ first ∧ halfword shown i ≠ 0).foldl (fun v i => putHalf v i (halfword value i)) start = value := by
  refine eq_of_halfwords fun j hj => ?_
  rw [halfword_foldl_putHalf value hj]
  by_cases hMem : j ∈ (List.range 4).filter fun i => i ≠ first ∧ halfword shown i ≠ 0
  · exact if_pos hMem
  · refine (if_neg hMem).trans (h j hj ?_)
    by_contra hNone
    obtain ⟨hOther, hShown⟩ := not_or.mp hNone
    exact hMem (List.mem_filter.mpr ⟨List.mem_range.mpr hj, decide_eq_true ⟨hOther, hShown⟩⟩)

theorem moveWide_eq_word (op : MoveWideOp) (imm16 : U16) {i : Nat} (hi : i < 4) :
    moveWide (op.bits.setWidth 32) true (rd.setWidth 32) imm16 (BitVec.ofNat 32 i) = MoveWide.word ⟨op, rd, imm16, BitVec.ofNat 2 i⟩ := by
  have hPlace : BitVec.ofNat 32 i = (BitVec.ofNat 2 i).setWidth 32 := by
    apply eq_of_toNat_eq
    simp only [toNat_ofNat, toNat_setWidth]
    omega
  rw [hPlace, MoveWide.word]

theorem runWords_movkRest (regs : Registers) (m : MoveWide) (hRd : m.rd = rd) (shown : U64) (first : Nat) :
    runWords regs (m.word :: movkRest (rd.setWidth 32) value shown first) =
      some (regs.write rd (((List.range 4).filter fun i => i ≠ first ∧ halfword shown i ≠ 0).foldl
        (fun v i => putHalf v i (halfword value i)) (m.result (regs rd.toNat)))) := by
  have hRest : movkRest (rd.setWidth 32) value shown first =
      (((List.range 4).filter fun i => i ≠ first ∧ halfword shown i ≠ 0).map fun i =>
        (⟨.k, rd, halfword value i, BitVec.ofNat 2 i⟩ : MoveWide)).map MoveWide.word := by
    rw [List.map_map]
    refine List.map_congr_left fun i hi => ?_
    exact moveWide_eq_word rd .k (halfword value i) (List.mem_range.mp (List.mem_of_mem_filter hi))
  have hMoves : ∀ x ∈ m :: ((List.range 4).filter fun i => i ≠ first ∧ halfword shown i ≠ 0).map fun i =>
      (⟨.k, rd, halfword value i, BitVec.ofNat 2 i⟩ : MoveWide), x.rd = rd := by
    intro x hx
    rcases List.mem_cons.mp hx with rfl | hx
    · exact hRd
    · obtain ⟨i, -, rfl⟩ := List.mem_map.mp hx
      rfl
  rw [hRest, ← List.map_cons, runWords_words rd _ hMoves, List.foldl_cons, List.foldl_map]
  refine congrArg (fun v => some (regs.write rd v)) (List.foldl_ext _ _ _ fun v i hi => ?_)
  have hPlace : (BitVec.ofNat 2 i).toNat = i := Nat.mod_eq_of_lt (List.mem_range.mp (List.mem_of_mem_filter hi))
  change putHalf v (BitVec.ofNat 2 i).toNat (halfword value i) = _
  rw [hPlace]

/-- A constant and the row of moves that builds it: the register it is meant for holds it, and no other changes. -/
theorem movImm64_correct (regs : Registers) : runWords regs (movImm64 (rd.setWidth 32) value) = some (regs.write rd value) := by
  rw [movImm64]
  split
  next hZero =>
    have hNone : ∀ j < 4, halfword value j = 0 := fun j hj => by
      have h := List.countP_eq_zero.mp hZero j (List.mem_range.mpr hj)
      exact Classical.not_not.mp fun hNe => h (decide_eq_true hNe)
    have hValue : value = 0 := eq_of_halfwords fun j hj => (hNone j hj).trans (BitVec.eq_of_toNat_eq (by simp [halfword]))
    have hWord : movz true (rd.setWidth 32) 0 0 = MoveWide.word ⟨.z, rd, 0, 0⟩ := moveWide_eq_word rd .z 0 (i := 0) (by decide)
    rw [hWord, hValue]
    exact runWords_words rd [⟨.z, rd, 0, 0⟩] (fun x hx => by rw [List.mem_singleton.mp hx]) regs
  next hSome =>
    split
    next =>
      obtain ⟨first, hFirst⟩ : ∃ first, ((List.range 4).find? fun i => halfword (~~~value) i ≠ 0).getD 0 = first := ⟨_, rfl⟩
      have hLt : first < 4 := by
        rw [← hFirst]
        cases hFound : (List.range 4).find? fun i => halfword (~~~value) i ≠ 0 with
        | none => exact (by decide : 0 < 4)
        | some i => exact List.mem_range.mp (List.mem_of_find?_eq_some hFound)
      rw [hFirst]
      have hWord : movn true (rd.setWidth 32) (halfword (~~~value) first) (BitVec.ofNat 32 first) =
          MoveWide.word ⟨.n, rd, halfword (~~~value) first, BitVec.ofNat 2 first⟩ := moveWide_eq_word rd .n _ hLt
      change runWords regs (movn true (rd.setWidth 32) (halfword (~~~value) first) (BitVec.ofNat 32 first) ::
        movkRest (rd.setWidth 32) value (~~~value) first) = _
      rw [hWord, runWords_movkRest rd value regs _ rfl, foldl_rest value]
      intro j hj hKeep
      have hPlace : (BitVec.ofNat 2 first).toNat = first := Nat.mod_eq_of_lt hLt
      change halfword (~~~((halfword (~~~value) first).setWidth 64 <<< (16 * (BitVec.ofNat 2 first).toNat))) j = halfword value j
      rw [hPlace, halfword_not _ hj, halfword_shifted _ hj]
      rw [halfword_not _ hj] at hKeep
      by_cases h : j = first
      · rw [if_pos h, ← h, halfword_not _ hj, BitVec.not_not]
      · rw [if_neg h, ← hKeep.resolve_left h, BitVec.not_not]
    next =>
      cases hFound : (List.range 4).find? fun i => halfword value i ≠ 0 with
      | none =>
          -- some halfword is not zero, or nothing would have been counted
          refine (hSome (List.countP_eq_zero.mpr fun i hi => ?_)).elim
          exact List.find?_eq_none.mp hFound i hi
      | some first =>
          have hLt : first < 4 := List.mem_range.mp (List.mem_of_find?_eq_some hFound)
          have hWord : movz true (rd.setWidth 32) (halfword value first) (BitVec.ofNat 32 first) =
              MoveWide.word ⟨.z, rd, halfword value first, BitVec.ofNat 2 first⟩ := moveWide_eq_word rd .z _ hLt
          change runWords regs (movz true (rd.setWidth 32) (halfword value first) (BitVec.ofNat 32 first) ::
            movkRest (rd.setWidth 32) value value first) = _
          rw [hWord, runWords_movkRest rd value regs _ rfl, foldl_rest value]
          intro j hj hKeep
          have hPlace : (BitVec.ofNat 2 first).toNat = first := Nat.mod_eq_of_lt hLt
          change halfword ((halfword value first).setWidth 64 <<< (16 * (BitVec.ofNat 2 first).toNat)) j = halfword value j
          rw [hPlace, halfword_shifted _ hj]
          by_cases h : j = first
          · rw [if_pos h, h]
          · rw [if_neg h, hKeep.resolve_left h]

end Moves

end Exemu.Jit
