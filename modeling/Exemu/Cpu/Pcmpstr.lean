import Exemu.Cpu.Interpreter
import Exemu.Cpu.Packed

/-! # String comparison

PCMPESTRI, PCMPESTRM, PCMPISTRI and PCMPISTRM.
-/
namespace Exemu.Interp

open Lanes Words

/-! ## The code -/

def elemBytes (imm : U8) : Nat := if imm &&& 1 = 0 then 1 else 2

/-- `imm & 2 != 0` -/
def signedElems (imm : U8) : Bool := imm &&& 2 != 0

def aggregation (imm : U8) : U8 := (imm >>> 2) &&& 3

def polarity (imm : U8) : U8 := (imm >>> 4) &&& 3

def places (imm : U8) : Nat := 16 / elemBytes imm

def pcmpLens (s : CpuState) (a b : U128) (imm : U8) (explicit : Bool) : Nat × Nat :=
  let n := places imm
  if explicit then
    let eax : U32 := (s.gprRead 0 4).setWidth 32
    let edx : U32 := (s.gprRead 2 4).setWidth 32
    let clamp := fun v : U32 => min (unsignedAbs v).toNat n
    (clamp eax, clamp edx)
  else (implicitLen a (elemBytes imm) n, implicitLen b (elemBytes imm) n)

structure Strings where
  a : U128
  b : U128
  imm : U8
  lenA : Nat
  lenB : Nat

namespace Strings

variable (x : Strings)

def get (v : U128) (i : Nat) : U64 :=
  let bits := elemBytes x.imm * 8
  let raw : U64 := (laneAt v i bits (emask (elemBytes x.imm))).setWidth 64
  if signedElems x.imm then sextLane raw bits else raw

def raw (i j : Nat) : Bool :=
  if aggregation x.imm = 1 then
    if j &&& 1 = 0 then (x.get x.a j).sle (x.get x.b i) else (x.get x.b i).sle (x.get x.a j)
  else x.get x.b i == x.get x.a j

def overridden (i j : Nat) : Bool :=
  let aj := decide (j < x.lenA)
  let bi := decide (i < x.lenB)
  if aggregation x.imm = 0 ∨ aggregation x.imm = 1 then (if aj && bi then x.raw i j else false)
  else if aggregation x.imm = 2 then (if aj && bi then x.raw i j else !aj && !bi)
  else if !aj then true else if !bi then false else x.raw i j

def intRes (i : Nat) : Bool :=
  let n := places x.imm
  if aggregation x.imm = 0 then (List.range n).any fun j => x.overridden i j
  else if aggregation x.imm = 1 then (List.range (n / 2)).any fun k => x.overridden i (2 * k) && x.overridden i (2 * k + 1)
  else if aggregation x.imm = 2 then x.overridden i i
  else (List.range n).all fun j => x.overridden (i + j) j

def res (i : Nat) : Bool :=
  let r := x.intRes i
  if polarity x.imm = 1 then !r
  else if polarity x.imm = 3 then (if i < x.lenB then !r else r)
  else r

end Strings

/-- `v.trailing_zeros()` -/
def trailingZeros (v : U32) : Nat := ((List.range 32).find? fun i => v.getLsbD i).getD 32

/-- `v.leading_zeros()` -/
def leadingZeros (v : U32) : Nat := ((List.range 32).find? fun i => v.getLsbD (31 - i)).getD 32

def pcmpFlags (s : CpuState) (x : Strings) (mask : U32) : CpuState :=
  let n := places x.imm
  let s := s.setFlag flags.CF (mask != 0)
  let s := s.setFlag flags.ZF (x.lenB < n)
  let s := s.setFlag flags.SF (x.lenA < n)
  let s := s.setFlag flags.OF (x.res 0)
  let s := s.setFlag flags.AF false
  s.setFlag flags.PF false

def pcmpIndex (imm : U8) (mask : U32) : Nat :=
  if mask = 0 then places imm else if imm &&& 0x40 ≠ 0 then 31 - leadingZeros mask else trailingZeros mask

def pcmpMask (x : Strings) (mask : U32) : U128 :=
  if x.imm &&& 0x40 ≠ 0 then
    gather (places x.imm) fun i => if x.res i then emask (elemBytes x.imm) <<< (i * (elemBytes x.imm * 8)) else 0
  else mask.setWidth 128

def fragments (s : CpuState) (a b : U128) (imm : U8) (explicit : Bool) : Strings :=
  let lens := pcmpLens s a b imm explicit
  { a, b, imm, lenA := lens.1, lenB := lens.2 }

def pcmpstr (s : CpuState) (a b : U128) (imm : U8) (explicit index : Bool) : CpuState :=
  let x := fragments s a b imm explicit
  let mask : U32 := gather (places imm) fun i => if x.res i then (1 : U32) <<< i else 0
  let s := pcmpFlags s x mask
  if index then s.gprWrite 1 8 (BitVec.ofNat 64 (pcmpIndex imm mask))
  else { s with xmm := Function.update s.xmm 0 (pcmpMask x mask) }

/-! ## What the instructions are -/

/-- A fragment of a string: its elements as numbers, and how many of them count. -/
structure Fragment where
  elem : Nat → Int
  len : Nat

/-- The four aggregations: any of a set, one of some ranges, the same at each place, the whole of one in the other. -/
def Matches (agg : U8) (n : Nat) (a b : Fragment) (i : Nat) : Prop :=
  if agg = 0 then i < b.len ∧ ∃ j < a.len, a.elem j = b.elem i
  else if agg = 1 then i < b.len ∧ ∃ k, 2 * k + 1 < a.len ∧ a.elem (2 * k) ≤ b.elem i ∧ b.elem i ≤ a.elem (2 * k + 1)
  else if agg = 2 then (i < a.len ∧ i < b.len ∧ a.elem i = b.elem i) ∨ (a.len ≤ i ∧ b.len ≤ i)
  else ∀ j < a.len, i + j < n → i + j < b.len ∧ a.elem j = b.elem (i + j)

def Hit (agg pol : U8) (n : Nat) (a b : Fragment) (i : Nat) : Prop :=
  if pol = 1 ∨ (pol = 3 ∧ i < b.len) then ¬Matches agg n a b i else Matches agg n a b i

/-- The place an index names: the first or the last one with a result, or the number of places. -/
def Names (n : Nat) (last : Bool) (r : Nat → Prop) (i : Nat) : Prop :=
  (i < n ∧ r i ∧ ∀ k < n, r k → if last then k ≤ i else i ≤ k) ∨ (i = n ∧ ∀ k < n, ¬r k)

structure Delivers (n esz lenA lenB : Nat) (index wide : Bool) (r : Nat → Prop) (s s' : CpuState) : Prop where
  cf : s'.flag flags.CF = true ↔ ∃ i < n, r i
  zf : s'.flag flags.ZF = true ↔ lenB < n
  sf : s'.flag flags.SF = true ↔ lenA < n
  of : s'.flag flags.OF = true ↔ r 0
  af : s'.flag flags.AF = false
  pf : s'.flag flags.PF = false
  other : ∀ k < 64, k ∉ [0, 2, 4, 6, 7, 11] → s'.rflags.getLsbD k = s.rflags.getLsbD k
  gpr : ∀ g, (index = true → g ≠ Reg.Rcx) → s'.gpr g = s.gpr g
  names : index = true → ∃ i, Names n wide r i ∧ s'.gpr Reg.Rcx = BitVec.ofNat 64 i
  xmm : ∀ g, (index = false → g ≠ 0) → s'.xmm g = s.xmm g
  bits : index = false → wide = false → ∀ k < 128, (s'.xmm 0).getLsbD k = true ↔ k < n ∧ r k
  elems : index = false → wide = true → ∀ k < n, lane (esz * 8) k (s'.xmm 0) = BitVec.allOnes (esz * 8) ∧ r k ∨ lane (esz * 8) k (s'.xmm 0) = 0 ∧ ¬r k
  rest : s' = { s with rflags := s'.rflags, gpr := s'.gpr, xmm := s'.xmm }

def elements (v : U128) (imm : U8) (i : Nat) : Int := number (signedElems imm) (lane (elemBytes imm * 8) i v)

def fragment (v : U128) (imm : U8) (len : Nat) : Fragment := ⟨elements v imm, len⟩

structure Ends (v : U128) (imm : U8) (len : Nat) : Prop where
  inside : len ≤ places imm
  before : ∀ i < len, elements v imm i ≠ 0
  zero : len < places imm → elements v imm len = 0

def givenLen (s : CpuState) (w : Bool) (g : Fin 16) : Nat := if w then (s.gpr g).toInt.natAbs else ((s.gpr g).setWidth 32).toInt.natAbs

/-- The lengths: those in RAX and RDX, or those of strings that end with a zero. -/
structure Lengths (s : CpuState) (a b : U128) (imm : U8) (explicit w : Bool) (lenA lenB : Nat) : Prop where
  given : explicit = true → lenA = min (givenLen s w Reg.Rax) (places imm) ∧ lenB = min (givenLen s w Reg.Rdx) (places imm)
  found : explicit = false → Ends a imm lenA ∧ Ends b imm lenB

section Lens

variable {s : CpuState} {a b : U128} {imm : U8} {explicit : Bool}

theorem elemBytes_elem (imm : U8) : IsElem (elemBytes imm) := by
  unfold elemBytes
  split
  · exact .inl rfl
  · exact .inr (.inl rfl)

theorem elemBytes_narrow (imm : U8) : elemBytes imm ≤ 2 := by
  unfold elemBytes
  split <;> decide

theorem places_cases (imm : U8) : places imm = 16 ∨ places imm = 8 := by
  unfold places elemBytes
  split
  · exact .inl rfl
  · exact .inr rfl

theorem toNat_unsignedAbs (v : U32) : (unsignedAbs v).toNat = v.toInt.natAbs := by
  unfold unsignedAbs
  have hSign : v.slt 0 = decide (v.toInt < 0) := rfl
  have hWord := BitVec.toInt_eq_toNat_cond v
  have hLess := v.isLt
  rw [hSign]
  split at hWord
  · rw [if_neg (by rw [decide_eq_true_iff]; omega)]
    omega
  · rw [if_pos (by rw [decide_eq_true_iff]; omega), BitVec.toNat_neg, Nat.mod_eq_of_lt (by omega)]
    omega

theorem number_eq_zero {w : Nat} (signed : Bool) (x : BitVec w) : number signed x = 0 ↔ x = 0 := by
  constructor
  · intro hZero
    have hBack := ofInt_number signed x
    rw [hZero] at hBack
    exact hBack.symm
  · rintro rfl
    cases signed <;> simp [number]

theorem implicitLen_ends (v : U128) (imm : U8) : Ends v imm (implicitLen v (elemBytes imm) (places imm)) := by
  have hZero : ∀ i, (laneAt v i (elemBytes imm * 8) (emask (elemBytes imm)) == 0) = true ↔ elements v imm i = 0 := by
    intro i
    unfold elements
    rw [number_eq_zero, beq_iff_eq, laneAt_eq (elemBytes_elem imm).small]
    constructor
    · intro hWide
      rw [← setWidth_back (lane (elemBytes imm * 8) i v) (elemBytes_elem imm).small.le, hWide]
      exact BitVec.setWidth_zero ..
    · rintro hNarrow
      rw [hNarrow]
      exact BitVec.setWidth_zero ..
  unfold implicitLen
  cases hFind : (List.range (places imm)).find? fun i => laneAt v i (elemBytes imm * 8) (emask (elemBytes imm)) == 0 with
  | none =>
    rw [List.find?_eq_none] at hFind
    exact ⟨le_rfl, fun i hi hElem => hFind i (List.mem_range.mpr hi) ((hZero i).mpr hElem), fun hLess => absurd hLess (lt_irrefl _)⟩
  | some i =>
    rw [List.find?_range_eq_some] at hFind
    obtain ⟨hHere, hMem, hBefore⟩ := hFind
    have hNonzero : ∀ j < i, elements v imm j ≠ 0 := by
      intro j hj hElem
      have hNot := hBefore j hj
      rw [(hZero j).mpr hElem] at hNot
      cases hNot
    exact ⟨(List.mem_range.mp hMem).le, hNonzero, fun _ => (hZero i).mp hHere⟩

theorem pcmpLens_lengths (s : CpuState) (a b : U128) (imm : U8) (explicit : Bool) :
    Lengths s a b imm explicit false (pcmpLens s a b imm explicit).1 (pcmpLens s a b imm explicit).2 := by
  have hRead : ∀ i : U8, (s.gprRead i 4).setWidth 32 = (s.gpr (regIdx i)).setWidth 32 := by
    intro i
    change (s.gpr (regIdx i) &&& BitVec.ofNat 64 (2 ^ 32 - 1)).setWidth 32 = _
    rw [and_low, BitVec.setWidth_setWidth_of_le _ (by decide), BitVec.setWidth_eq]
  cases explicit with
  | true =>
    refine ⟨fun _ => ?_, nofun⟩
    unfold pcmpLens
    rw [if_pos rfl]
    dsimp only
    rw [toNat_unsignedAbs, toNat_unsignedAbs, hRead, hRead]
    exact ⟨rfl, rfl⟩
  | false => exact ⟨nofun, fun _ => ⟨implicitLen_ends a imm, implicitLen_ends b imm⟩⟩

variable {w : Bool} {lenA lenB lenA' lenB' : Nat}

theorem Lengths.le (h : Lengths s a b imm explicit w lenA lenB) : lenA ≤ places imm ∧ lenB ≤ places imm := by
  cases explicit with
  | true =>
    obtain ⟨hA, hB⟩ := h.given rfl
    exact ⟨by omega, by omega⟩
  | false =>
    obtain ⟨hA, hB⟩ := h.found rfl
    exact ⟨hA.inside, hB.inside⟩

theorem Ends.unique {v : U128} (h : Ends v imm lenA) (h' : Ends v imm lenA') : lenA = lenA' := by
  rcases Nat.lt_trichotomy lenA lenA' with hLess | hSame | hMore
  · exact absurd (h.zero (hLess.trans_le h'.inside)) (h'.before _ hLess)
  · exact hSame
  · exact absurd (h'.zero (hMore.trans_le h.inside)) (h.before _ hMore)

theorem Lengths.unique (h : Lengths s a b imm explicit w lenA lenB) (h' : Lengths s a b imm explicit w lenA' lenB') :
    lenA = lenA' ∧ lenB = lenB' := by
  cases explicit with
  | true =>
    obtain ⟨hA, hB⟩ := h.given rfl
    obtain ⟨hA', hB'⟩ := h'.given rfl
    exact ⟨hA.trans hA'.symm, hB.trans hB'.symm⟩
  | false =>
    obtain ⟨hA, hB⟩ := h.found rfl
    obtain ⟨hA', hB'⟩ := h'.found rfl
    exact ⟨hA.unique hA', hB.unique hB'⟩

theorem givenLen_small (s : CpuState) (g : Fin 16) (hSmall : givenLen s true g < 16) : givenLen s false g = givenLen s true g := by
  change ((s.gpr g).setWidth 32).toInt.natAbs = (s.gpr g).toInt.natAbs
  have hSmall : (s.gpr g).toInt.natAbs < 16 := hSmall
  have hLow : ((s.gpr g).setWidth 32).toInt = (s.gpr g).toInt.bmod (2 ^ 32) := by
    rw [BitVec.toInt_setWidth, BitVec.toInt_eq_toNat_bmod (s.gpr g), Int.bmod_bmod_of_dvd (by decide)]
  rw [hLow, Int.bmod_eq_of_le (by omega) (by omega)]

theorem min_givenLen (s : CpuState) (g : Fin 16) {n : Nat} (hn : n ≤ 16) :
    min (givenLen s false g) n = min (givenLen s true g) n ∨ (min (givenLen s true g) n = n ∧ min (givenLen s false g) n < n) := by
  rcases Nat.lt_or_ge (givenLen s true g) n with hSmall | hLong
  · exact .inl (by rw [givenLen_small s g (by omega)])
  · rcases Nat.lt_or_ge (givenLen s false g) n with hCut | hKept
    · exact .inr ⟨by omega, by omega⟩
    · exact .inl (by omega)

end Lens

/-! ## The comparisons of the code -/

section Comparisons

variable {x : Strings} {i j k : Nat}

def Strings.fragA (x : Strings) : Fragment := fragment x.a x.imm x.lenA

def Strings.fragB (x : Strings) : Fragment := fragment x.b x.imm x.lenB

theorem get_eq (x : Strings) (v : U128) (i : Nat) : x.get v i = BitVec.ofInt 64 (elements v x.imm i) := by
  unfold Strings.get elements
  dsimp only
  rw [sextLane_number (elemBytes_elem _), laneAt_number (elemBytes_elem _)]
  cases signedElems x.imm <;> rfl

theorem fits_elements (v : U128) (imm : U8) (i : Nat) : Fits 64 (elements v imm i) := by
  have hNarrow := elemBytes_narrow imm
  exact (fits_number _ _).mono (by omega)

theorem get_eq_iff (x : Strings) (v w : U128) (i j : Nat) : (x.get v i == x.get w j) = true ↔ elements v x.imm i = elements w x.imm j := by
  rw [beq_iff_eq, get_eq, get_eq]
  refine ⟨fun hSame => ?_, fun hSame => by rw [hSame]⟩
  rw [← toInt_ofInt (by decide) (fits_elements v x.imm i), hSame, toInt_ofInt (by decide) (fits_elements w x.imm j)]

theorem get_sle_iff (x : Strings) (v w : U128) (i j : Nat) : (x.get v i).sle (x.get w j) = true ↔ elements v x.imm i ≤ elements w x.imm j := by
  rw [get_eq, get_eq, BitVec.sle_eq_decide, decide_eq_true_iff, toInt_ofInt (by decide) (fits_elements v x.imm i),
    toInt_ofInt (by decide) (fits_elements w x.imm j)]

theorem aggregation_cases : ∀ imm : U8, aggregation imm = 0 ∨ aggregation imm = 1 ∨ aggregation imm = 2 ∨ aggregation imm = 3 := by
  decide

theorem overridden_any (hAgg : aggregation x.imm = 0) :
    x.overridden i j = (decide (j < x.lenA) && decide (i < x.lenB) && (x.get x.b i == x.get x.a j)) := by
  unfold Strings.overridden Strings.raw
  rw [hAgg]
  cases decide (j < x.lenA) <;> cases decide (i < x.lenB) <;> rfl

theorem overridden_range (hAgg : aggregation x.imm = 1) : x.overridden i j = (decide (j < x.lenA) && decide (i < x.lenB) &&
    if j &&& 1 = 0 then (x.get x.a j).sle (x.get x.b i) else (x.get x.b i).sle (x.get x.a j)) := by
  unfold Strings.overridden Strings.raw
  rw [hAgg]
  cases decide (j < x.lenA) <;> cases decide (i < x.lenB) <;> rfl

theorem overridden_each (hAgg : aggregation x.imm = 2) : x.overridden i j =
    if decide (j < x.lenA) && decide (i < x.lenB) then x.get x.b i == x.get x.a j else !decide (j < x.lenA) && !decide (i < x.lenB) := by
  unfold Strings.overridden Strings.raw
  rw [hAgg]
  cases decide (j < x.lenA) <;> cases decide (i < x.lenB) <;> rfl

theorem overridden_ordered (hAgg : aggregation x.imm = 3) :
    x.overridden i j = (!decide (j < x.lenA) || decide (i < x.lenB) && (x.get x.b i == x.get x.a j)) := by
  unfold Strings.overridden Strings.raw
  rw [hAgg]
  cases decide (j < x.lenA) <;> cases decide (i < x.lenB) <;> rfl

theorem intRes_any (hA : x.lenA ≤ places x.imm) (hAgg : aggregation x.imm = 0) :
    x.intRes i = true ↔ Matches 0 (places x.imm) x.fragA x.fragB i := by
  unfold Strings.intRes
  rw [hAgg]
  refine (List.any_eq_true).trans ?_
  simp only [List.mem_range, overridden_any hAgg, Bool.and_eq_true, decide_eq_true_eq, get_eq_iff]
  constructor
  · rintro ⟨j, -, ⟨hj, hi⟩, hSame⟩
    exact ⟨hi, j, hj, hSame.symm⟩
  · rintro ⟨hi, j, hj, hSame⟩
    exact ⟨j, hj.trans_le hA, ⟨hj, hi⟩, hSame.symm⟩

theorem intRes_range (hA : x.lenA ≤ places x.imm) (hAgg : aggregation x.imm = 1) :
    x.intRes i = true ↔ Matches 1 (places x.imm) x.fragA x.fragB i := by
  have hEven : ∀ k, (2 * k) &&& 1 = 0 := fun k => by rw [Nat.and_one_is_mod]; omega
  have hOdd : ∀ k, ¬(2 * k + 1) &&& 1 = 0 := fun k => by rw [Nat.and_one_is_mod]; omega
  unfold Strings.intRes
  rw [hAgg]
  refine (List.any_eq_true).trans ?_
  simp only [List.mem_range, overridden_range hAgg, Bool.and_eq_true, decide_eq_true_eq, if_pos (hEven _), if_neg (hOdd _), get_sle_iff]
  constructor
  · rintro ⟨k, -, ⟨-, hLow⟩, ⟨hk, hi⟩, hHigh⟩
    exact ⟨hi, k, hk, hLow, hHigh⟩
  · rintro ⟨hi, k, hk, hLow, hHigh⟩
    have hk : 2 * k + 1 < x.lenA := hk
    exact ⟨k, by omega, ⟨⟨by omega, hi⟩, hLow⟩, ⟨hk, hi⟩, hHigh⟩

theorem intRes_each (hAgg : aggregation x.imm = 2) : x.intRes i = true ↔ Matches 2 (places x.imm) x.fragA x.fragB i := by
  unfold Strings.intRes
  rw [hAgg]
  change x.overridden i i = true ↔ _
  rw [overridden_each hAgg]
  change _ ↔ (i < x.lenA ∧ i < x.lenB ∧ x.fragA.elem i = x.fragB.elem i) ∨ (x.lenA ≤ i ∧ x.lenB ≤ i)
  rcases Nat.lt_or_ge i x.lenA with hA | hA
  · rcases Nat.lt_or_ge i x.lenB with hB | hB
    · rw [decide_eq_true hA, decide_eq_true hB, if_pos (by decide), get_eq_iff]
      exact ⟨fun hSame => .inl ⟨hA, hB, hSame.symm⟩, fun hCase => (hCase.resolve_right fun hOver => by omega).2.2.symm⟩
    · rw [decide_eq_true hA, decide_eq_false (by omega : ¬i < x.lenB), if_neg (by decide)]
      exact ⟨nofun, fun hCase => by omega⟩
  · rw [decide_eq_false (by omega : ¬i < x.lenA), Bool.false_and, if_neg (by decide), Bool.not_false, Bool.true_and, Bool.not_eq_true', decide_eq_false_iff_not]
    exact ⟨fun hB => .inr ⟨hA, by omega⟩, fun hCase => by omega⟩

theorem intRes_ordered (hAgg : aggregation x.imm = 3) :
    x.intRes i = true ↔ ∀ j < x.lenA, j < places x.imm → i + j < x.lenB ∧ x.fragA.elem j = x.fragB.elem (i + j) := by
  unfold Strings.intRes
  rw [hAgg]
  refine (List.all_eq_true).trans ?_
  simp only [List.mem_range, overridden_ordered hAgg, Bool.or_eq_true, Bool.and_eq_true, Bool.not_eq_true', decide_eq_true_eq, decide_eq_false_iff_not,
    get_eq_iff]
  constructor
  · intro h j hj hPlace
    rcases h j hPlace with hOver | ⟨hIn, hSame⟩
    · exact absurd hj hOver
    · exact ⟨hIn, hSame.symm⟩
  · intro h j hPlace
    rcases Nat.lt_or_ge j x.lenA with hj | hj
    · obtain ⟨hIn, hSame⟩ := h j hj hPlace
      exact .inr ⟨hIn, hSame.symm⟩
    · exact .inl (by omega)

/-- The one string begins in the other at this place and goes on behind the end of the register. -/
def CutOff (n : Nat) (a b : Fragment) (i : Nat) : Prop :=
  i < n ∧ n < i + a.len ∧ ∀ j, i + j < n → i + j < b.len ∧ a.elem j = b.elem (i + j)

def Missed (x : Strings) (i : Nat) : Prop := aggregation x.imm = 3 ∧ CutOff (places x.imm) x.fragA x.fragB i

theorem intRes_iff (hA : x.lenA ≤ places x.imm) (hB : x.lenB ≤ places x.imm) (hi : i < places x.imm) :
    x.intRes i = true ↔ Matches (aggregation x.imm) (places x.imm) x.fragA x.fragB i ∧ ¬Missed x i := by
  have hKept : aggregation x.imm ≠ 3 → ¬Missed x i := fun hNot hMissed => hNot hMissed.1
  rcases aggregation_cases x.imm with hAgg | hAgg | hAgg | hAgg
  · rw [intRes_any hA hAgg, hAgg, and_iff_left (hKept (by rw [hAgg]; decide))]
  · rw [intRes_range hA hAgg, hAgg, and_iff_left (hKept (by rw [hAgg]; decide))]
  · rw [intRes_each hAgg, hAgg, and_iff_left (hKept (by rw [hAgg]; decide))]
  · rw [intRes_ordered hAgg, hAgg]
    change _ ↔ (∀ j < x.lenA, i + j < places x.imm → i + j < x.lenB ∧ x.fragA.elem j = x.fragB.elem (i + j)) ∧ ¬Missed x i
    constructor
    · intro h
      refine ⟨fun j hj hPlace => h j hj (by omega), ?_⟩
      rintro ⟨-, -, hOver, -⟩
      have hOver : places x.imm < i + x.lenA := hOver
      have := (h (places x.imm - i) (by omega) (by omega)).1
      omega
    · rintro ⟨hMatch, hKept⟩ j hj hPlace
      rcases Nat.lt_or_ge (i + j) (places x.imm) with hIn | hOut
      · exact hMatch j hj hIn
      · refine absurd ⟨hAgg, hi, ?_, fun k hk => hMatch k (by omega) hk⟩ hKept
        change places x.imm < i + x.lenA
        omega

def Wanted (x : Strings) (i : Nat) : Prop := Hit (aggregation x.imm) (polarity x.imm) (places x.imm) x.fragA x.fragB i

theorem res_eq (x : Strings) (i : Nat) : x.res i = true ↔
    if polarity x.imm = 1 ∨ (polarity x.imm = 3 ∧ i < x.lenB) then ¬x.intRes i = true else x.intRes i = true := by
  unfold Strings.res
  dsimp only
  split
  · rename_i hNegative
    rw [if_pos (.inl hNegative), Bool.not_eq_true', Bool.not_eq_true]
  · rename_i hNot
    split
    · rename_i hMasked
      split
      · rename_i hIn
        rw [if_pos (.inr ⟨hMasked, hIn⟩), Bool.not_eq_true', Bool.not_eq_true]
      · rename_i hOut
        rw [if_neg fun hCase => hCase.elim hNot fun hBoth => hOut hBoth.2]
    · rename_i hPlain
      rw [if_neg fun hCase => hCase.elim hNot fun hBoth => hPlain hBoth.1]

theorem res_kept (hA : x.lenA ≤ places x.imm) (hB : x.lenB ≤ places x.imm) (hi : i < places x.imm) (hKept : ¬Missed x i) : x.res i = true ↔ Wanted x i := by
  rw [res_eq, intRes_iff hA hB hi, and_iff_left hKept]
  rfl

theorem res_missed (hA : x.lenA ≤ places x.imm) (hB : x.lenB ≤ places x.imm) (hMissed : Missed x i) : x.res i = true ↔ ¬Wanted x i := by
  have hi := hMissed.2.1
  have hMatch : Matches (aggregation x.imm) (places x.imm) x.fragA x.fragB i := by
    rw [hMissed.1]
    exact fun j _ hPlace => hMissed.2.2.2 j hPlace
  rw [res_eq, intRes_iff hA hB hi]
  unfold Wanted Hit
  change (if polarity x.imm = 1 ∨ (polarity x.imm = 3 ∧ i < x.lenB) then _ else _) ↔ ¬(if polarity x.imm = 1 ∨ (polarity x.imm = 3 ∧ i < x.lenB) then _ else _)
  split
  · exact ⟨fun _ hNot => hNot hMatch, fun _ hBoth => hBoth.2 hMissed⟩
  · exact ⟨fun hBoth => absurd hMissed hBoth.2, fun hNot => absurd hMatch hNot⟩

end Comparisons

/-! ## What is left -/

section Outcome

variable {x : Strings} {v : U32} {k : Nat}

def resMask (x : Strings) : U32 := gather (places x.imm) fun i => if x.res i then (1 : U32) <<< i else 0

theorem places_le (imm : U8) : places imm ≤ 16 := by
  rcases places_cases imm with h | h <;> omega

theorem resMask_bit (x : Strings) (k : Nat) : (resMask x).getLsbD k = true ↔ k < places x.imm ∧ x.res k = true := by
  have hBits := getLsbD_gather_bits (W := 32) (p := fun i => x.res i = true) ((places_le x.imm).trans (by decide)) k
  exact (Bool.eq_iff_iff.mp hBits).trans (decide_eq_true_iff ..)

theorem resMask_zero (x : Strings) : resMask x = 0 ↔ ∀ k < places x.imm, ¬x.res k = true := by
  constructor
  · intro hZero k hk hRes
    have hSet := (resMask_bit x k).mpr ⟨hk, hRes⟩
    rw [hZero] at hSet
    exact Bool.false_ne_true ((BitVec.getLsbD_zero).symm.trans hSet)
  · intro hNone
    refine BitVec.eq_of_getLsbD_eq fun k hk => ?_
    rw [show (0 : U32) = 0#32 from rfl, BitVec.getLsbD_zero, Bool.eq_false_iff]
    exact fun hSet => hNone k ((resMask_bit x k).mp hSet).1 ((resMask_bit x k).mp hSet).2

theorem exists_bit (h : v ≠ 0) : ∃ k < 32, v.getLsbD k = true := by
  by_contra hNone
  refine h (BitVec.eq_of_getLsbD_eq fun k hk => ?_)
  rw [show (0 : U32) = 0#32 from rfl, BitVec.getLsbD_zero, Bool.eq_false_iff]
  exact fun hSet => hNone ⟨k, hk, hSet⟩

theorem trailingZeros_first (h : v ≠ 0) : v.getLsbD (trailingZeros v) = true ∧ ∀ k, v.getLsbD k = true → trailingZeros v ≤ k := by
  obtain ⟨m, hm, hSet⟩ := exists_bit h
  unfold trailingZeros
  cases hFind : (List.range 32).find? fun i => v.getLsbD i with
  | none => exact absurd hSet (List.find?_eq_none.mp hFind m (List.mem_range.mpr hm))
  | some i =>
    rw [List.find?_range_eq_some] at hFind
    obtain ⟨hHere, -, hBefore⟩ := hFind
    refine ⟨hHere, fun k hk => Nat.le_of_not_lt fun hLess => ?_⟩
    have hNot := hBefore k hLess
    rw [hk] at hNot
    cases hNot

theorem leadingZeros_last (h : v ≠ 0) : v.getLsbD (31 - leadingZeros v) = true ∧ ∀ k, v.getLsbD k = true → k ≤ 31 - leadingZeros v := by
  obtain ⟨m, hm, hSet⟩ := exists_bit h
  unfold leadingZeros
  cases hFind : (List.range 32).find? fun i => v.getLsbD (31 - i) with
  | none =>
    refine absurd hSet ?_
    have hNot := List.find?_eq_none.mp hFind (31 - m) (List.mem_range.mpr (by omega))
    rwa [show 31 - (31 - m) = m by omega] at hNot
  | some i =>
    rw [List.find?_range_eq_some] at hFind
    obtain ⟨hHere, -, hBefore⟩ := hFind
    refine ⟨hHere, fun k hk => Nat.le_of_not_lt fun hMore => ?_⟩
    have hMore : 31 - i < k := hMore
    have hIn := BitVec.lt_of_getLsbD hk
    have hNot := hBefore (31 - k) (by omega)
    rw [show 31 - (31 - k) = k by omega, hk] at hNot
    cases hNot

/-- `imm & 0x40 != 0`: the last index, or whole elements. -/
def highForm (imm : U8) : Bool := imm &&& 0x40 != 0

theorem highForm_iff (imm : U8) : highForm imm = true ↔ imm &&& 0x40 ≠ 0 := bne_iff_ne

theorem pcmpIndex_names (x : Strings) : Names (places x.imm) (highForm x.imm) (fun i => x.res i = true) (pcmpIndex x.imm (resMask x)) := by
  unfold pcmpIndex
  split
  · rename_i hZero
    exact .inr ⟨rfl, (resMask_zero x).mp hZero⟩
  · rename_i hSome
    refine .inl ?_
    split
    · rename_i hHigh
      obtain ⟨hHere, hLast⟩ := leadingZeros_last hSome
      obtain ⟨hIn, hRes⟩ := (resMask_bit x _).mp hHere
      refine ⟨hIn, hRes, fun k hk hOther => ?_⟩
      rw [if_pos ((highForm_iff _).mpr hHigh)]
      exact hLast k ((resMask_bit x k).mpr ⟨hk, hOther⟩)
    · rename_i hLow
      obtain ⟨hHere, hFirst⟩ := trailingZeros_first hSome
      obtain ⟨hIn, hRes⟩ := (resMask_bit x _).mp hHere
      refine ⟨hIn, hRes, fun k hk hOther => ?_⟩
      rw [if_neg fun hHigh => hLow ((highForm_iff _).mp hHigh)]
      exact hFirst k ((resMask_bit x k).mpr ⟨hk, hOther⟩)

theorem pcmpMask_bits (hLow : highForm x.imm = false) (hk : k < 128) :
    (pcmpMask x (resMask x)).getLsbD k = true ↔ k < places x.imm ∧ x.res k = true := by
  unfold pcmpMask
  rw [if_neg (fun hHigh => by rw [(highForm_iff _).mpr hHigh] at hLow; cases hLow), BitVec.getLsbD_setWidth, decide_eq_true hk, Bool.true_and]
  exact resMask_bit x k

theorem pcmpMask_elems (hHigh : highForm x.imm = true) (hk : k < places x.imm) :
    lane (elemBytes x.imm * 8) k (pcmpMask x (resMask x)) = if x.res k = true then BitVec.allOnes (elemBytes x.imm * 8) else 0 := by
  have hElem := elemBytes_elem x.imm
  unfold pcmpMask
  rw [if_pos ((highForm_iff _).mp hHigh)]
  refine lane_of_body (s := fun i => if x.res i = true then BitVec.allOnes (elemBytes x.imm * 8) else 0) hElem.whole.le hk fun i _ => ?_
  rw [emask_eq hElem.small]
  exact put_if _ _ _

theorem pcmpFlags_bit (s : CpuState) (x : Strings) (mask : U32) (hk : k < 64) : (pcmpFlags s x mask).rflags.getLsbD k =
    if k = 2 then false else if k = 4 then false else if k = 11 then x.res 0 else if k = 7 then decide (x.lenA < places x.imm)
    else if k = 6 then decide (x.lenB < places x.imm) else if k = 0 then mask != 0 else s.rflags.getLsbD k := by
  unfold pcmpFlags
  dsimp only
  rw [pf_eq, af_eq, of_eq, sf_eq, zf_eq, cf_eq]
  simp only [getLsbD_setFlag _ _ hk]

variable {s : CpuState} {a b : U128} {imm : U8} {explicit index : Bool}

theorem pcmpFlags_rest (s : CpuState) (x : Strings) (mask : U32) : pcmpFlags s x mask = { s with rflags := (pcmpFlags s x mask).rflags } := by
  simp only [pcmpFlags, CpuState.setFlag]

def pcmpRflags (s : CpuState) (x : Strings) : U64 := (pcmpFlags s x (resMask x)).rflags

theorem write_gpr {t : CpuState} {r : U64} (h : t = { s with rflags := r }) (v : U64) :
    t.gprWrite 1 8 v = { s with rflags := r, gpr := Function.update s.gpr Reg.Rcx v } := by
  subst h
  rfl

theorem write_xmm {t : CpuState} {r : U64} (h : t = { s with rflags := r }) (v : U128) :
    { t with xmm := Function.update t.xmm 0 v } = { s with rflags := r, xmm := Function.update s.xmm 0 v } := by
  subst h
  rfl

theorem pcmpstr_index (s : CpuState) (a b : U128) (imm : U8) (explicit : Bool) : pcmpstr s a b imm explicit true =
    { s with
      rflags := pcmpRflags s (fragments s a b imm explicit)
      gpr := Function.update s.gpr Reg.Rcx (BitVec.ofNat 64 (pcmpIndex imm (resMask (fragments s a b imm explicit)))) } :=
  write_gpr (pcmpFlags_rest s (fragments s a b imm explicit) (resMask (fragments s a b imm explicit))) _

theorem pcmpstr_mask (s : CpuState) (a b : U128) (imm : U8) (explicit : Bool) : pcmpstr s a b imm explicit false =
    { s with
      rflags := pcmpRflags s (fragments s a b imm explicit)
      xmm := Function.update s.xmm 0 (pcmpMask (fragments s a b imm explicit) (resMask (fragments s a b imm explicit))) } :=
  write_xmm (pcmpFlags_rest s (fragments s a b imm explicit) (resMask (fragments s a b imm explicit))) _

theorem pcmpstr_xmm (s : CpuState) (a b : U128) (imm : U8) (explicit : Bool) :
    (pcmpstr s a b imm explicit false).xmm 0 = pcmpMask (fragments s a b imm explicit) (resMask (fragments s a b imm explicit)) := by
  rw [pcmpstr_mask]
  exact Function.update_self (0 : Fin 16) _ s.xmm

theorem pcmpstr_rflags (s : CpuState) (a b : U128) (imm : U8) (explicit index : Bool) :
    (pcmpstr s a b imm explicit index).rflags = pcmpRflags s (fragments s a b imm explicit) := by
  cases index with
  | true => rw [pcmpstr_index]
  | false => rw [pcmpstr_mask]

theorem pcmpstr_flag (hk : k < 64) : (pcmpstr s a b imm explicit index).flag (BitVec.twoPow 64 k) =
    (pcmpRflags s (fragments s a b imm explicit)).getLsbD k := by
  rw [flag_eq _ hk, pcmpstr_rflags]

theorem pcmpstr_delivers (s : CpuState) (a b : U128) (imm : U8) (explicit index : Bool) :
    Delivers (places imm) (elemBytes imm) (pcmpLens s a b imm explicit).1 (pcmpLens s a b imm explicit).2 index (highForm imm)
      (fun i => (fragments s a b imm explicit).res i = true) s (pcmpstr s a b imm explicit index) where
  cf := by
    rw [cf_eq, pcmpstr_flag (by decide), pcmpRflags, pcmpFlags_bit _ _ _ (by decide)]
    refine (bne_iff_ne).trans ((not_congr (resMask_zero _)).trans ?_)
    simp only [not_forall, not_not, exists_prop]
    rfl
  zf := by
    rw [zf_eq, pcmpstr_flag (by decide), pcmpRflags, pcmpFlags_bit _ _ _ (by decide)]
    exact decide_eq_true_iff ..
  sf := by
    rw [sf_eq, pcmpstr_flag (by decide), pcmpRflags, pcmpFlags_bit _ _ _ (by decide)]
    exact decide_eq_true_iff ..
  of := by
    rw [of_eq, pcmpstr_flag (by decide), pcmpRflags, pcmpFlags_bit _ _ _ (by decide)]
    exact Iff.rfl
  af := by
    rw [af_eq, pcmpstr_flag (by decide), pcmpRflags, pcmpFlags_bit _ _ _ (by decide)]
    rfl
  pf := by
    rw [pf_eq, pcmpstr_flag (by decide), pcmpRflags, pcmpFlags_bit _ _ _ (by decide)]
    rfl
  other k hk hOut := by
    simp only [List.mem_cons, List.not_mem_nil, or_false, not_or] at hOut
    rw [pcmpstr_rflags, pcmpRflags, pcmpFlags_bit _ _ _ hk]
    simp only [hOut, if_false]
  gpr g hElse := by
    cases index with
    | false => rw [pcmpstr_mask]
    | true =>
      rw [pcmpstr_index]
      exact Function.update_of_ne (hElse rfl) ..
  names hIndex := by
    subst hIndex
    refine ⟨_, pcmpIndex_names (fragments s a b imm explicit), ?_⟩
    rw [pcmpstr_index]
    exact Function.update_self Reg.Rcx _ s.gpr
  xmm g hElse := by
    cases index with
    | true => rw [pcmpstr_index]
    | false =>
      rw [pcmpstr_mask]
      exact Function.update_of_ne (hElse rfl) ..
  bits hMask hLow k hk := by
    subst hMask
    rw [pcmpstr_xmm]
    exact pcmpMask_bits (x := fragments s a b imm explicit) hLow hk
  elems hMask hHigh k hk := by
    subst hMask
    have hElem := pcmpMask_elems (x := fragments s a b imm explicit) hHigh hk
    rw [pcmpstr_xmm]
    exact (Decidable.em ((fragments s a b imm explicit).res k = true)).imp (fun hSet => ⟨hElem.trans (if_pos hSet), hSet⟩)
      fun hClear => ⟨hElem.trans (if_neg hClear), hClear⟩
  rest := by
    cases index with
    | true => rw [pcmpstr_index]
    | false => rw [pcmpstr_mask]

end Outcome

/-! ## Two results of one outcome -/

section Differences

variable {n esz lenA lenB : Nat} {index wide : Bool} {r r' m : Nat → Prop} {s s' : CpuState}

/-- Two predicates on the places that differ exactly where the third holds. -/
structure Differs (n : Nat) (m r r' : Nat → Prop) : Prop where
  inside : ∀ i, m i → i < n
  start : ¬m 0
  kept : ∀ i < n, ¬m i → (r' i ↔ r i)
  turned : ∀ i, m i → (r' i ↔ ¬r i)

def Hidden (n : Nat) (index wide : Bool) (r m : Nat → Prop) : Prop :=
  (∀ i, ¬m i) ∨ (index = true ∧ ∃ k < n, r k ∧ ∀ i, m i → if wide then i < k else k < i)

theorem allOnes_ne_zero (hEsz : 0 < esz) : BitVec.allOnes (esz * 8) ≠ 0 := by
  intro hZero
  have hBit := congrArg (fun v : BitVec (esz * 8) => v.getLsbD 0) hZero
  simp only [BitVec.getLsbD_allOnes, show (0 : BitVec (esz * 8)) = 0#(esz * 8) from rfl, BitVec.getLsbD_zero, decide_eq_false_iff_not] at hBit
  omega

variable {i : Nat}

theorem Delivers.same (hEsz : 0 < esz) (hn : n ≤ 16) (h : Delivers n esz lenA lenB false wide r s s') (h' : Delivers n esz lenA lenB false wide r' s s')
    (hi : i < n) : r' i ↔ r i := by
  cases wide with
  | false =>
    have hBit := h.bits rfl rfl i (by omega)
    have hBit' := h'.bits rfl rfl i (by omega)
    exact ⟨fun hRes => (hBit.mp (hBit'.mpr ⟨hi, hRes⟩)).2, fun hRes => (hBit'.mp (hBit.mpr ⟨hi, hRes⟩)).2⟩
  | true =>
    rcases h.elems rfl rfl i hi with ⟨hOnes, hRes⟩ | ⟨hZero, hRes⟩
    · rcases h'.elems rfl rfl i hi with ⟨-, hRes'⟩ | ⟨hZero, -⟩
      · exact iff_of_true hRes' hRes
      · exact absurd (hOnes.symm.trans hZero) (allOnes_ne_zero hEsz)
    · rcases h'.elems rfl rfl i hi with ⟨hOnes, -⟩ | ⟨-, hRes'⟩
      · exact absurd (hOnes.symm.trans hZero) (allOnes_ne_zero hEsz)
      · exact iff_of_false hRes' hRes

theorem Names.le (h : Names n wide r i) : i ≤ n := h.elim (fun hHere => hHere.1.le) fun hNone => hNone.1.le

theorem hidden_of_names (hDiff : Differs n m r r') (h : Names n wide r i) (h' : Names n wide r' i) : Hidden n true wide r m := by
  rcases h with ⟨hi, hRes, hEdge⟩ | ⟨hEnd, hNone⟩
  · rcases h' with ⟨-, hRes', hEdge'⟩ | ⟨hEnd', -⟩
    · refine .inr ⟨rfl, i, hi, hRes, fun j hj => ?_⟩
      have hOther : j ≠ i := by
        rintro rfl
        exact (hDiff.turned j hj).mp hRes' hRes
      have hBeyond : if wide then j ≤ i else i ≤ j := by
        rcases Classical.em (r j) with hSet | hClear
        · exact hEdge j (hDiff.inside j hj) hSet
        · exact hEdge' j (hDiff.inside j hj) ((hDiff.turned j hj).mpr hClear)
      cases wide with
      | true => exact hBeyond.lt_of_ne hOther
      | false => exact hBeyond.lt_of_ne hOther.symm
    · omega
  · rcases h' with ⟨hi, -, -⟩ | ⟨-, hNone'⟩
    · omega
    · refine .inl fun j hj => hNone' j (hDiff.inside j hj) ((hDiff.turned j hj).mpr (hNone j (hDiff.inside j hj)))

theorem names_of_hidden (hDiff : Differs n m r r') {k : Nat} (hk : k < n) (hRes : r k) (hBeyond : ∀ j, m j → if wide then j < k else k < j)
    (h' : Names n wide r' i) : Names n wide r i := by
  have hFree : ¬m k := by
    intro hMissed
    have hSelf := hBeyond k hMissed
    cases wide <;> exact absurd hSelf (lt_irrefl k)
  have hRes' : r' k := (hDiff.kept k hk hFree).mpr hRes
  rcases h' with ⟨hi, hHere', hEdge'⟩ | ⟨-, hNone'⟩
  · have hSide := hEdge' k hk hRes'
    refine .inl ⟨hi, ?_, fun j hj hSet => ?_⟩
    · refine (hDiff.kept i hi fun hMissed => ?_).mp hHere'
      have hFar := hBeyond i hMissed
      cases wide with
      | true => exact absurd hFar (Nat.not_lt.mpr hSide)
      | false => exact absurd hFar (Nat.not_lt.mpr hSide)
    · rcases Classical.em (m j) with hMissed | hKept
      · have hFar := hBeyond j hMissed
        cases wide with
        | true => exact (hFar.trans_le hSide).le
        | false => exact (hSide.trans_lt hFar).le
      · exact hEdge' j hj ((hDiff.kept j hj hKept).mpr hSet)
  · exact absurd hRes' (hNone' k hk)

theorem Delivers.congr (h : Delivers n esz lenA lenB index wide r' s s') (hSame : ∀ i < n, r' i ↔ r i) (hn : 0 < n) :
    Delivers n esz lenA lenB index wide r s s' :=
  { h with
    cf := h.cf.trans (exists_congr fun i => and_congr_right fun hi => hSame i hi)
    of := h.of.trans (hSame 0 hn)
    names := fun hIndex => by
      obtain ⟨i, hNames, hValue⟩ := h.names hIndex
      refine ⟨i, hNames.imp (fun hHere => ⟨hHere.1, (hSame i hHere.1).mp hHere.2.1, fun k hk hSet => hHere.2.2 k hk ((hSame k hk).mpr hSet)⟩)
        fun hNone => ⟨hNone.1, fun k hk hSet => hNone.2 k hk ((hSame k hk).mpr hSet)⟩, hValue⟩
    bits := fun hMask hLow k hk => (h.bits hMask hLow k hk).trans (and_congr_right fun hi => hSame k hi)
    elems := fun hMask hHigh k hk =>
      (h.elems hMask hHigh k hk).imp (fun hOnes => ⟨hOnes.1, (hSame k hk).mp hOnes.2⟩) fun hZero => ⟨hZero.1, fun hSet => hZero.2 ((hSame k hk).mpr hSet)⟩ }

theorem delivers_iff_hidden (hEsz : 0 < esz) (hPlaces : 0 < n) (hn : n ≤ 16) (hDiff : Differs n m r r')
    (h' : Delivers n esz lenA lenB index wide r' s s') : Delivers n esz lenA lenB index wide r s s' ↔ Hidden n index wide r m := by
  constructor
  · intro h
    cases index with
    | false =>
      refine .inl fun i hi => ?_
      have hSame := h.same hEsz hn h' (hDiff.inside i hi)
      have hTurned := hDiff.turned i hi
      exact iff_not_self (hSame.symm.trans hTurned)
    | true =>
      obtain ⟨i, hNames, hValue⟩ := h.names rfl
      obtain ⟨i', hNames', hValue'⟩ := h'.names rfl
      have hSame : i = i' := by
        have hLess := hNames.le
        have hLess' := hNames'.le
        have hNat := congrArg BitVec.toNat (hValue.symm.trans hValue')
        rwa [BitVec.toNat_ofNat, BitVec.toNat_ofNat, Nat.mod_eq_of_lt (by omega), Nat.mod_eq_of_lt (by omega)] at hNat
      exact hidden_of_names hDiff hNames (hSame ▸ hNames')
  · rintro (hNone | ⟨hIndex, k, hk, hRes, hBeyond⟩)
    · exact h'.congr (fun i hi => hDiff.kept i hi (hNone i)) hPlaces
    · subst hIndex
      have hFree : ¬m k := by
        intro hMissed
        have hSelf := hBeyond k hMissed
        cases wide <;> exact absurd hSelf (lt_irrefl k)
      exact
        { h' with
          cf := h'.cf.trans (iff_of_true ⟨k, hk, (hDiff.kept k hk hFree).mpr hRes⟩ ⟨k, hk, hRes⟩)
          of := h'.of.trans (hDiff.kept 0 hPlaces hDiff.start)
          names := fun _ => by
            obtain ⟨i, hNames, hValue⟩ := h'.names rfl
            exact ⟨i, names_of_hidden hDiff hk hRes hBeyond hNames, hValue⟩
          bits := fun hMask => Bool.noConfusion hMask
          elems := fun hMask => Bool.noConfusion hMask }

end Differences

/-! ## When the code is right -/

section Verdict

def Computes (s : CpuState) (a b : U128) (imm : U8) (explicit w index : Bool) (s' : CpuState) : Prop :=
  ∃ lenA lenB, Lengths s a b imm explicit w lenA lenB ∧
    Delivers (places imm) (elemBytes imm) lenA lenB index (highForm imm)
      (Hit (aggregation imm) (polarity imm) (places imm) (fragment a imm lenA) (fragment b imm lenB)) s s'

def Whole (s : CpuState) (imm : U8) (explicit w : Bool) : Prop :=
  explicit = true → w = true → ∀ g ∈ [Reg.Rax, Reg.Rdx], places imm ≤ givenLen s true g → places imm ≤ givenLen s false g

def Unseen (imm : U8) (index : Bool) (a b : Fragment) : Prop :=
  Hidden (places imm) index (highForm imm) (Hit (aggregation imm) (polarity imm) (places imm) a b)
    fun i => aggregation imm = 3 ∧ CutOff (places imm) a b i

variable {s : CpuState} {a b : U128} {imm : U8} {explicit w index : Bool} {lenA lenB : Nat}

theorem lengths_iff_whole (h : Lengths s a b imm explicit w lenA lenB) :
    (lenA = (pcmpLens s a b imm explicit).1 ∧ lenB = (pcmpLens s a b imm explicit).2) ↔ Whole s imm explicit w := by
  have hCode := pcmpLens_lengths s a b imm explicit
  cases explicit with
  | false =>
    refine iff_of_true ?_ fun hFalse => Bool.noConfusion hFalse
    obtain ⟨hA, hB⟩ := h.found rfl
    obtain ⟨hA', hB'⟩ := hCode.found rfl
    exact ⟨hA.unique hA', hB.unique hB'⟩
  | true =>
    obtain ⟨hA, hB⟩ := h.given rfl
    obtain ⟨hA', hB'⟩ := hCode.given rfl
    rw [hA, hB, hA', hB']
    cases w with
    | false => exact iff_of_true ⟨rfl, rfl⟩ fun _ hFalse => Bool.noConfusion hFalse
    | true =>
      have hPlaces := places_le imm
      have hReg : ∀ g, min (givenLen s true g) (places imm) = min (givenLen s false g) (places imm) ↔
          (places imm ≤ givenLen s true g → places imm ≤ givenLen s false g) := by
        intro g
        rcases min_givenLen s g hPlaces with hSame | ⟨hLong, hCut⟩
        · exact iff_of_true hSame.symm fun hLong => by omega
        · exact iff_of_false (by omega) fun hKept => by omega
      rw [hReg, hReg]
      refine ⟨fun hBoth _ _ g hg => ?_, fun hWhole => ⟨hWhole rfl rfl _ (by simp), hWhole rfl rfl _ (by simp)⟩⟩
      rcases List.mem_cons.mp hg with rfl | hg
      · exact hBoth.1
      · rcases List.mem_singleton.mp hg with rfl
        exact hBoth.2

theorem lengths_of_flags (h : Lengths s a b imm explicit w lenA lenB) (hA : lenA < places imm ↔ (pcmpLens s a b imm explicit).1 < places imm)
    (hB : lenB < places imm ↔ (pcmpLens s a b imm explicit).2 < places imm) : Whole s imm explicit w := by
  intro hExplicit hWide g hg hLong
  subst hExplicit hWide
  obtain ⟨hLenA, hLenB⟩ := h.given rfl
  obtain ⟨hLenA', hLenB'⟩ := (pcmpLens_lengths s a b imm true).given rfl
  rcases List.mem_cons.mp hg with rfl | hg
  · omega
  · rcases List.mem_singleton.mp hg with rfl
    omega

theorem differs (s : CpuState) (a b : U128) (imm : U8) (explicit : Bool) :
    Differs (places imm) (fun i => aggregation imm = 3 ∧ CutOff (places imm) (fragment a imm (pcmpLens s a b imm explicit).1)
        (fragment b imm (pcmpLens s a b imm explicit).2) i)
      (Hit (aggregation imm) (polarity imm) (places imm) (fragment a imm (pcmpLens s a b imm explicit).1)
        (fragment b imm (pcmpLens s a b imm explicit).2))
      (fun i => (fragments s a b imm explicit).res i = true) := by
  obtain ⟨hA, hB⟩ := (pcmpLens_lengths s a b imm explicit).le
  exact
    { inside := fun i hMissed => hMissed.2.1
      start := fun hMissed => by
        have hOver : places imm < 0 + (pcmpLens s a b imm explicit).1 := hMissed.2.2.1
        omega
      kept := fun i hi hKept => res_kept (x := fragments s a b imm explicit) hA hB hi hKept
      turned := fun i hMissed => res_missed (x := fragments s a b imm explicit) hA hB hMissed }

theorem pcmpstr_computes_iff (s : CpuState) (a b : U128) (imm : U8) (explicit w index : Bool) :
    Computes s a b imm explicit w index (pcmpstr s a b imm explicit index) ↔
      Whole s imm explicit w ∧ ∃ lenA lenB, Lengths s a b imm explicit w lenA lenB ∧ Unseen imm index (fragment a imm lenA) (fragment b imm lenB) := by
  have hElem := (elemBytes_elem imm).pos
  have hPlaces := places_cases imm
  have hOut := pcmpstr_delivers s a b imm explicit index
  have hIff := delivers_iff_hidden (by omega) (by omega) (by omega) (differs s a b imm explicit) hOut
  constructor
  · rintro ⟨lenA, lenB, hLens, hDelivers⟩
    have hWhole := lengths_of_flags hLens (hDelivers.sf.symm.trans hOut.sf) (hDelivers.zf.symm.trans hOut.zf)
    obtain ⟨rfl, rfl⟩ := (lengths_iff_whole hLens).mpr hWhole
    exact ⟨hWhole, _, _, hLens, hIff.mp hDelivers⟩
  · rintro ⟨hWhole, lenA, lenB, hLens, hUnseen⟩
    obtain ⟨rfl, rfl⟩ := (lengths_iff_whole hLens).mpr hWhole
    exact ⟨_, _, hLens, hIff.mpr hUnseen⟩

/-- The `AB` that begins in the last byte of fifteen other ones and an `A` is not found. -/
theorem pcmpstr_misses : ¬Computes {} 0x4241 0x41585858585858585858585858585858 0x0C false false true
    (pcmpstr {} 0x4241 0x41585858585858585858585858585858 0x0C false true) := by
  rintro ⟨lenA, lenB, hLens, hDelivers⟩
  obtain ⟨rfl, rfl⟩ := hLens.unique (pcmpLens_lengths ..)
  have hVal : pcmpLens {} 0x4241 0x41585858585858585858585858585858 0x0C false = (2, 16) := by decide
  rw [hVal] at hDelivers
  have hClear : (pcmpstr {} 0x4241 0x41585858585858585858585858585858 0x0C false true).flag flags.CF = false := by decide
  refine Bool.false_ne_true (hClear.symm.trans (hDelivers.cf.mpr ⟨15, by decide, ?_⟩))
  change ∀ j < 2, 15 + j < 16 → 15 + j < 16 ∧ elements 0x4241 0x0C j = elements 0x41585858585858585858585858585858 0x0C (15 + j)
  intro j _ hIn
  obtain rfl : j = 0 := by omega
  exact ⟨by decide, by decide⟩

end Verdict

end Exemu.Interp
