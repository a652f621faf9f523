import Exemu.Core.Memory
import Exemu.Library.Lanes
import Exemu.Library.Runs

/-! # Logical immediates

The constants an AArch64 logical instruction can hold are runs of ones, rotated in an element and
repeated.
-/
namespace Exemu.Jit

open Nat
open BitVec hiding and_comm

open Runs Lanes

/-! ## The assembler -/

def elemMask (size : Nat) : U64 := if size = 64 then BitVec.allOnes 64 else BitVec.ofNat 64 (2 ^ size - 1)

def repeatElem (rotated : U64) (width esize : Nat) : Nat → Nat → U64 → U64
  | 0, _, out => out
  | rounds + 1, i, out => if i < width then repeatElem rotated width esize rounds (i + esize) (out ||| rotated <<< i) else out

def decodeBitmask (n immr imms : U32) (is64 : Bool) : Option U64 :=
  let width := if is64 then 64 else 32
  if !is64 && n == 1 then none
  else
    let x := (n <<< 6) ||| (~~~imms &&& 0x3f)
    if x = 0 then none
    else
      let len := 31 - leadingZeros x
      if len < 1 then none
      else
        let esize := 2 ^ len
        if width < esize then none
        else
          let levels := esize - 1
          let s := imms.toNat &&& levels
          let r := immr.toNat &&& levels
          if s = levels then none
          else
            let w := elemMask (s + 1) &&& elemMask esize
            let rotated := ((w >>> r) ||| (w <<< ((esize - r) % esize))) &&& elemMask esize
            let out := repeatElem rotated width esize width 0 0
            some (if is64 then out else out &&& 0xffffffff)

def isShiftedMask (x : U64) : Bool :=
  if x = 0 then false
  else
    let t := x >>> trailingZeros x
    countOnes t == 64 - leadingZeros t

def findSize (value : U64) : Nat → Nat → Nat
  | 0, size => size
  | rounds + 1, size =>
    let half := size / 2
    let mask := BitVec.ofNat 64 (2 ^ half - 1)
    if value &&& mask ≠ (value >>> half) &&& mask then size
    else if half ≤ 2 then half
    else findSize value rounds half

def rotAndOnes (elem : U64) (size : Nat) : Option (Nat × Nat) :=
  if isShiftedMask elem then some (trailingZeros elem, trailingOnes (elem >>> trailingZeros elem))
  else
    let elem := elem ||| ~~~elemMask size
    if !isShiftedMask (~~~elem) then none
    else
      let clo := leadingZeros (~~~elem)
      if 64 - size ≤ clo + trailingOnes elem then some (64 - clo, clo + trailingOnes elem - (64 - size)) else none

def encodeBitmask (value : U64) (is64 : Bool) : Option (U32 × U32 × U32) := do
  let width := if is64 then 64 else 32
  let all : U64 := if is64 then BitVec.allOnes 64 else 0xffffffff
  let value := value &&& all
  if value = 0 ∨ value = all then none
  else
    let size := findSize value 6 width
    let (rot, ones) ← rotAndOnes (value &&& elemMask size) size
    if ones = 0 ∨ size ≤ ones ∨ size ≤ rot then none
    else
      let immr := BitVec.ofNat 32 (size - rot) &&& BitVec.ofNat 32 (size - 1)
      let nimms := (~~~BitVec.ofNat 32 (size - 1) <<< 1) ||| BitVec.ofNat 32 (ones - 1)
      let n := ((nimms >>> 6) &&& 1) ^^^ 1
      let imms := nimms &&& 0x3f
      if decodeBitmask n immr imms is64 = some value then some (n, immr, imms) else none

/-! ## The architecture -/

/-- A run of ones that has been rotated to the right in an element, repeated over the word. -/
structure Pattern (v : U64) (k len r : Nat) : Prop where
  size : 1 ≤ k ∧ k ≤ 6
  ones : 0 < len ∧ len < 2 ^ k
  rotation : r < 2 ^ k
  bits : ∀ i < 64, v.getLsbD i = decide ((i + r) % 2 ^ k < len)

def IsLogicalImm (v : U64) : Prop := ∃ k len r, Pattern v k len r

def highestSetBit (v : BitVec 7) : Option Nat := (List.range 7).reverse.find? fun i => v.getLsbD i

/-- `DecodeBitMasks` for an immediate of 64 bits. -/
def decodeBitMasks (immN : BitVec 1) (imms immr : BitVec 6) : Option U64 :=
  match highestSetBit (immN ++ ~~~imms) with
  | none => none
  | some len =>
    if len < 1 ∨ imms.toNat % 2 ^ len = 2 ^ len - 1 then none
    else some (gather 64 fun i => if (i + immr.toNat % 2 ^ len) % 2 ^ len ≤ imms.toNat % 2 ^ len then 1 <<< i else 0)

/-! ## Decoding -/

section Decoding

variable {v rotated out : U64} {e k r s width : Nat}

theorem getLsbD_elemMask {size i : Nat} (hi : i < 64) : (elemMask size).getLsbD i = decide (i < size) := by
  unfold elemMask
  split
  · rename_i hFull
    rw [getLsbD_allOnes, hFull]
  · rw [getLsbD_ofNat, testBit_two_pow_sub_one, decide_eq_true hi, Bool.true_and]

theorem getLsbD_repeatElem {rounds i j : Nat} (hPos : 0 < e) (hElem : ∀ j, e ≤ j → rotated.getLsbD j = false) (hEnough : 64 ≤ i + rounds * e)
    (hj : j < 64) : (repeatElem rotated 64 e rounds i out).getLsbD j = (out.getLsbD j || (decide (i ≤ j) && rotated.getLsbD ((j - i) % e))) := by
  induction rounds generalizing i out with
  | zero =>
    rw [repeatElem, decide_eq_false (by omega), Bool.false_and, Bool.or_false]
  | succ rounds ih =>
    rw [repeatElem]
    split
    · have hNext : 64 ≤ i + e + rounds * e := by
        rw [Nat.succ_mul] at hEnough
        omega
      rw [ih hNext, getLsbD_or, getLsbD_shiftLeft, decide_eq_true hj, Bool.true_and, Bool.or_assoc]
      refine congrArg (out.getLsbD j || ·) ?_
      rcases lt_or_ge j i with hBefore | hFrom
      · rw [decide_eq_true hBefore, decide_eq_false (by omega), decide_eq_false (by omega)]
        rfl
      rw [decide_eq_false (by omega : ¬j < i), decide_eq_true hFrom, Bool.not_false, Bool.true_and, Bool.true_and]
      rcases lt_or_ge j (i + e) with hHere | hLater
      · rw [decide_eq_false (by omega), Bool.false_and, Bool.or_false, Nat.mod_eq_of_lt (by omega)]
      · rw [decide_eq_true hLater, Bool.true_and, hElem (j - i) (by omega), Bool.false_or, sub_add_eq]
        rw [mod_eq_sub_mod (by omega : e ≤ j - i)]
    · rw [decide_eq_false (by omega), Bool.false_and, Bool.or_false]

/-- The element of a run of `s + 1` ones, rotated to the right. -/
def rotateElem (s r e : Nat) : U64 :=
  (((elemMask (s + 1) &&& elemMask e) >>> r) ||| ((elemMask (s + 1) &&& elemMask e) <<< ((e - r) % e))) &&& elemMask e

theorem getLsbD_rotateElem {j : Nat} (he : e ≤ 64) (hs : s + 1 < e) (hr : r < e) (hj : j < e) :
    (rotateElem s r e).getLsbD j = decide ((j + r) % e ≤ s) := by
  have hRun : ∀ i < 64, (elemMask (s + 1) &&& elemMask e).getLsbD i = decide (i ≤ s) := fun i hi => by
    rw [BitVec.getLsbD_and, getLsbD_elemMask hi, getLsbD_elemMask hi, ← Bool.decide_and]
    exact decide_eq_decide.mpr (by omega)
  unfold rotateElem
  rw [BitVec.getLsbD_and, getLsbD_elemMask (by omega), decide_eq_true hj, Bool.and_true, getLsbD_or, getLsbD_ushiftRight,
    getLsbD_shiftLeft, decide_eq_true (by omega : j < 64), Bool.true_and]
  rcases lt_or_ge (j + r) e with hLow | hHigh
  · rw [Nat.mod_eq_of_lt hLow, hRun (r + j) (by omega)]
    rcases Nat.eq_zero_or_pos r with rfl | hPos
    · rw [Nat.sub_zero, Nat.mod_self, decide_eq_false (Nat.not_lt_zero j), Bool.not_false, Bool.true_and, Nat.sub_zero, hRun j (by omega), Nat.zero_add,
        Nat.add_zero, Bool.or_self]
    · rw [Nat.mod_eq_of_lt (by omega : e - r < e), decide_eq_true (by omega : j < e - r), Bool.not_true, Bool.false_and, Bool.or_false, add_comm]
  · have hAbove : (elemMask (s + 1) &&& elemMask e).getLsbD (r + j) = false := by
      rcases lt_or_ge (r + j) 64 with hIn | hOut
      · rw [hRun _ hIn, decide_eq_false (by omega)]
      · exact getLsbD_of_ge _ _ hOut
    rw [hAbove, Bool.false_or, Nat.mod_eq_of_lt (by omega : e - r < e), decide_eq_false (by omega), Bool.not_false, Bool.true_and, hRun _ (by omega),
      mod_eq_sub_mod hHigh, Nat.mod_eq_of_lt (by omega)]
    exact decide_eq_decide.mpr (by omega)

theorem getLsbD_rotateElem_of_ge {j : Nat} (hj : e ≤ j) : (rotateElem s r e).getLsbD j = false := by
  unfold rotateElem
  rcases lt_or_ge j 64 with hIn | hOut
  · rw [BitVec.getLsbD_and, getLsbD_elemMask hIn, decide_eq_false (by omega), Bool.and_false]
  · exact getLsbD_of_ge _ _ hOut

/-- The fields of an encoding, with the number of ones in an element and its rotation. -/
structure Fields (n immr imms : U32) (k s r : Nat) : Prop where
  size : 1 ≤ k ∧ k ≤ 6
  length : (n <<< 6) ||| (~~~imms &&& 0x3f) ≠ 0 ∧ 31 - leadingZeros ((n <<< 6) ||| (~~~imms &&& 0x3f)) = k
  ones : imms.toNat % 2 ^ k = s ∧ s ≠ 2 ^ k - 1
  rotation : immr.toNat % 2 ^ k = r

theorem decodeBitmask_eq {n immr imms : U32} (h : Fields n immr imms k s r) :
    decodeBitmask n immr imms true = some (repeatElem (rotateElem s r (2 ^ k)) 64 (2 ^ k) 64 0 0) := by
  obtain ⟨hLow, hHigh⟩ := h.size
  have hElem : 2 ^ k ≤ 2 ^ 6 := Nat.pow_le_pow_right (by decide) hHigh
  unfold decodeBitmask
  simp only [Bool.not_true, Bool.false_and, if_true, h.length.2, and_two_pow_sub_one_eq_mod]
  rw [if_neg Bool.false_ne_true, if_neg h.length.1, if_neg (by omega), if_neg (by omega), h.ones.1, h.rotation, if_neg h.ones.2]
  rfl

theorem decodeBitmask_bits {n immr imms : U32} (h : Fields n immr imms k s r) :
    decodeBitmask n immr imms true = some v ↔ ∀ i < 64, v.getLsbD i = decide ((i + r) % 2 ^ k < s + 1) := by
  obtain ⟨hLow, hHigh⟩ := h.size
  have hElem : 2 ^ k ≤ 2 ^ 6 := Nat.pow_le_pow_right (by decide) hHigh
  have hPos : 0 < 2 ^ k := Nat.two_pow_pos k
  have hs : s + 1 < 2 ^ k := by
    have hLess := Nat.mod_lt imms.toNat hPos
    have hOnes := h.ones
    omega
  have hr : r < 2 ^ k := h.rotation ▸ Nat.mod_lt _ hPos
  have hBits : ∀ i < 64, (repeatElem (rotateElem s r (2 ^ k)) 64 (2 ^ k) 64 0 0).getLsbD i = decide ((i + r) % 2 ^ k < s + 1) := fun i hi => by
    have hZero : (0 : U64).getLsbD i = false := BitVec.getLsbD_zero
    rw [getLsbD_repeatElem hPos (fun j hj => getLsbD_rotateElem_of_ge hj) (by omega) hi, decide_eq_true (Nat.zero_le i), Bool.true_and, Nat.sub_zero,
      getLsbD_rotateElem (by omega) hs hr (Nat.mod_lt _ hPos), Nat.mod_add_mod, hZero, Bool.false_or]
    exact decide_eq_decide.mpr Nat.lt_succ_iff.symm
  rw [decodeBitmask_eq h, Option.some.injEq]
  constructor
  · rintro rfl
    exact hBits
  · intro hSame
    exact eq_of_getLsbD_eq fun i hi => (hBits i hi).trans (hSame i hi).symm

theorem decodeBitMasks_bits {n immr imms : U32} (h : Fields n immr imms k s r) (hTop : highestSetBit (n.setWidth 1 ++ ~~~imms.setWidth 6) = some k) :
    decodeBitMasks (n.setWidth 1) (imms.setWidth 6) (immr.setWidth 6) = some v ↔ ∀ i < 64, v.getLsbD i = decide ((i + r) % 2 ^ k < s + 1) := by
  obtain ⟨hLow, hHigh⟩ := h.size
  have hDvd : 2 ^ k ∣ 2 ^ 6 := pow_dvd_pow 2 hHigh
  have hImms : (imms.setWidth 6).toNat % 2 ^ k = s := by
    rw [toNat_setWidth, mod_mod_of_dvd _ hDvd, h.ones.1]
  have hImmr : (immr.setWidth 6).toNat % 2 ^ k = r := by
    rw [toNat_setWidth, mod_mod_of_dvd _ hDvd, h.rotation]
  have hRead : decodeBitMasks (n.setWidth 1) (imms.setWidth 6) (immr.setWidth 6) =
      some (gather 64 fun i => if (i + r) % 2 ^ k ≤ s then 1 <<< i else 0) := by
    unfold decodeBitMasks
    rw [hTop]
    dsimp only
    have hSome : ¬(k < 1 ∨ s = 2 ^ k - 1) := fun hBad => hBad.elim (by omega) h.ones.2
    rw [hImms, hImmr, if_neg hSome]
  have hBits : ∀ i < 64, (gather 64 fun i => if (i + r) % 2 ^ k ≤ s then (1 : U64) <<< i else 0).getLsbD i = decide ((i + r) % 2 ^ k < s + 1) :=
    fun i hi => (getLsbD_gather_bits (le_refl 64) i).trans (decide_eq_decide.mpr ((and_iff_right hi).trans Nat.lt_succ_iff.symm))
  rw [hRead, Option.some.injEq]
  constructor
  · rintro rfl
    exact hBits
  · intro hSame
    exact eq_of_getLsbD_eq fun i hi => (hBits i hi).trans (hSame i hi).symm

end Decoding

/-! ## Encoding -/

section Encoding

variable {v : U64} {k len r : Nat}

theorem lowBits_eq_iff {half : Nat} (hHalf : half ≤ 32) :
    v &&& BitVec.ofNat 64 (2 ^ half - 1) = (v >>> half) &&& BitVec.ofNat 64 (2 ^ half - 1) ↔ ∀ i < half, v.getLsbD i = v.getLsbD (half + i) := by
  have hMask : ∀ i < 64, (BitVec.ofNat 64 (2 ^ half - 1)).getLsbD i = decide (i < half) := fun i hi => by
    rw [getLsbD_ofNat, testBit_two_pow_sub_one, decide_eq_true hi, Bool.true_and]
  constructor
  · intro h i hi
    have hBit := congrArg (fun x : U64 => x.getLsbD i) h
    rwa [BitVec.getLsbD_and, BitVec.getLsbD_and, hMask i (by omega), decide_eq_true hi, Bool.and_true, Bool.and_true, getLsbD_ushiftRight] at hBit
  · intro h
    refine eq_of_getLsbD_eq fun i hi => ?_
    rw [BitVec.getLsbD_and, BitVec.getLsbD_and, hMask i hi, getLsbD_ushiftRight]
    rcases lt_or_ge i half with hIn | hOut
    · rw [h i hIn]
    · rw [decide_eq_false (by omega), Bool.and_false, Bool.and_false]

theorem halves_same (h : Pattern v k len r) {half : Nat} (hDvd : 2 ^ k ∣ half) (hHalf : half ≤ 32) :
    v &&& BitVec.ofNat 64 (2 ^ half - 1) = (v >>> half) &&& BitVec.ofNat 64 (2 ^ half - 1) := by
  refine (lowBits_eq_iff hHalf).mpr fun i hi => ?_
  rw [h.bits i (by omega), h.bits (half + i) (by omega), add_assoc, add_mod half, mod_eq_zero_of_dvd hDvd, Nat.zero_add, mod_mod]

theorem halves_differ (h : Pattern v (k + 1) len r) :
    v &&& BitVec.ofNat 64 (2 ^ 2 ^ k - 1) ≠ (v >>> 2 ^ k) &&& BitVec.ofNat 64 (2 ^ 2 ^ k - 1) := by
  obtain ⟨-, hHigh⟩ := h.size
  obtain ⟨hSome, hLess⟩ := h.ones
  have hRot := h.rotation
  have hHalf : 2 ^ k ≤ 2 ^ 5 := Nat.pow_le_pow_right (by decide) (by omega)
  have hElem : 2 ^ (k + 1) = 2 * 2 ^ k := by rw [Nat.pow_succ, Nat.mul_comm]
  intro hSame
  have hPair : ∀ i < 2 ^ k, (i + r) % 2 ^ (k + 1) < len ↔ (2 ^ k + i + r) % 2 ^ (k + 1) < len := fun i hi => by
    have hBit := (lowBits_eq_iff (by omega)).mp hSame i hi
    rwa [h.bits i (by omega), h.bits (2 ^ k + i) (by omega), decide_eq_decide] at hBit
  have hWrap : ∀ n < 2 ^ (k + 1), (2 ^ (k + 1) + n) % 2 ^ (k + 1) = n := fun n hn => by rw [add_mod_left, Nat.mod_eq_of_lt hn]
  -- the first one of the run, and the zero before it
  have hFirst : 2 ^ k < len := by
    rcases Nat.eq_zero_or_pos r with rfl | hPos
    · have hHere := hPair 0 (Nat.two_pow_pos k)
      rw [Nat.mod_eq_of_lt (by omega), Nat.mod_eq_of_lt (by omega)] at hHere
      omega
    rcases lt_or_ge (2 ^ k) r with hFar | hNear
    · have hHere := hPair (2 ^ (k + 1) - r) (by omega)
      rw [show 2 ^ (k + 1) - r + r = 2 ^ (k + 1) + 0 by omega, show 2 ^ k + (2 ^ (k + 1) - r) + r = 2 ^ (k + 1) + 2 ^ k by omega, hWrap _ (by omega),
        hWrap _ (by omega)] at hHere
      omega
    · have hHere := hPair (2 ^ k - r) (by omega)
      rw [show 2 ^ k - r + r = 2 ^ k by omega, show 2 ^ k + (2 ^ k - r) + r = 2 ^ (k + 1) + 0 by omega, Nat.mod_eq_of_lt (by omega),
        hWrap _ (by omega)] at hHere
      omega
  have hLast : len < 2 ^ k := by
    rcases lt_or_ge r (2 ^ k) with hNear | hFar
    · have hHere := hPair (2 ^ k - 1 - r) (by omega)
      rw [Nat.mod_eq_of_lt (by omega), Nat.mod_eq_of_lt (by omega)] at hHere
      omega
    · have hHere := hPair (2 ^ (k + 1) - 1 - r) (by omega)
      rw [Nat.mod_eq_of_lt (by omega), show 2 ^ k + (2 ^ (k + 1) - 1 - r) + r = 2 ^ (k + 1) + (2 ^ k - 1) by omega, hWrap _ (by omega)] at hHere
      omega
  omega

theorem findSize_pattern {rounds m : Nat} (h : Pattern v k len r) (hk : k ≤ m) (hm : m ≤ 6) (hRounds : m ≤ rounds) : findSize v rounds (2 ^ m) = 2 ^ k := by
  obtain ⟨hLow, hHigh⟩ := h.size
  induction rounds generalizing m with
  | zero => omega
  | succ rounds ih =>
    obtain ⟨m, rfl⟩ := Nat.exists_eq_add_of_le' (by omega : 1 ≤ m)
    have hHalf : 2 ^ (m + 1) / 2 = 2 ^ m := by rw [Nat.pow_succ, Nat.mul_div_cancel _ (by decide)]
    have hBound : 2 ^ m ≤ 2 ^ 5 := Nat.pow_le_pow_right (by decide) (by omega)
    rw [findSize, hHalf]
    rcases lt_or_ge m k with hHere | hLarger
    · obtain rfl : k = m + 1 := by omega
      exact if_pos (halves_differ h)
    · rw [if_neg (not_not.mpr (halves_same h (pow_dvd_pow 2 hLarger) hBound))]
      split
      · rename_i hTwo
        have hOne : m ≤ 1 := (Nat.pow_le_pow_iff_right (by decide : 1 < 2)).mp hTwo
        obtain rfl : k = m := by omega
        rfl
      · exact ih hLarger (by omega) (by omega)

theorem place_iff {e i : Nat} (hr : r < e) (hi : i < e) :
    (i + r) % e < len ∧ len < e ↔ (((e - r) % e ≤ i ∧ i < (e - r) % e + len) ∨ i + e < (e - r) % e + len) ∧ len < e := by
  refine and_congr_left fun hLen => ?_
  rcases Nat.eq_zero_or_pos r with rfl | hPos
  · rw [Nat.sub_zero, Nat.mod_self, Nat.add_zero, Nat.mod_eq_of_lt hi]
    omega
  rw [Nat.mod_eq_of_lt (by omega : e - r < e)]
  rcases lt_or_ge (i + r) e with hLow | hWrapped
  · rw [Nat.mod_eq_of_lt hLow]
    omega
  · rw [mod_eq_sub_mod hWrapped, Nat.mod_eq_of_lt (by omega)]
    omega

theorem isShiftedMask_run {x : U64} {a b : Nat} (hRun : Run x a b) (hSome : a < b) (hb : b ≤ 64) : isShiftedMask x = true := by
  have hNonzero : x ≠ 0 := by
    rintro rfl
    have hBit := (hRun a (by omega)).symm
    rw [decide_eq_true ⟨le_refl a, hSome⟩] at hBit
    cases hBit.trans BitVec.getLsbD_zero
  have hShifted := run_ushiftRight hRun hb
  unfold isShiftedMask
  rw [if_neg hNonzero, trailingZeros_run hRun hSome hb]
  dsimp only
  rw [countOnes_run hShifted (by omega), leadingZeros_run hShifted (by omega) (by omega), beq_iff_eq]
  omega

def Split (x : U64) (e b a : Nat) : Prop := ∀ i < 64, x.getLsbD i = decide (i < b ∨ a ≤ i ∧ i < e)

theorem isShiftedMask_split {x : U64} {e b a : Nat} (hSplit : Split x e b a) (hBottom : 0 < b) (hGap : b < a) (hTop : a < e) (he : e ≤ 64) :
    isShiftedMask x = false := by
  have hZeros : trailingZeros x = 0 := by
    refine length_takeWhile_range (fun i hi => absurd hi (Nat.not_lt_zero i)) (Nat.zero_le _) fun _ => ?_
    rw [hSplit 0 (by omega), decide_eq_true (.inl hBottom), Bool.not_true]
  have hLead : leadingZeros x = 64 - e := by
    refine length_takeWhile_range (fun i hi => ?_) (by omega) fun hLess => ?_
    · rw [hSplit _ (by omega), decide_eq_false (by omega), Bool.not_false]
    · rw [hSplit _ (by omega), decide_eq_true (by omega), Bool.not_true]
  have hOnes : countOnes x = b + (e - a) := by
    have hAll : ∀ n, (List.range n).countP (fun i => decide (i < b ∨ a ≤ i ∧ i < e)) = min b n + (min e n - min a n) := fun n => by
      induction n with
      | zero =>
        rw [List.range_zero, List.countP_nil]
        omega
      | succ n ih =>
        have hStep (c : Nat) : min c (n + 1) = min c n + if n < c then 1 else 0 := by
          split_ifs <;> omega
        have hLess : min a n ≤ min e n := by omega
        rw [List.range_succ, List.countP_append, ih, List.countP_singleton, hStep b, hStep e, hStep a]
        simp only [decide_eq_true_eq]
        generalize min a n = u at *
        generalize min e n = v at *
        split_ifs <;> omega
    have hSame : countOnes x = (List.range 64).countP fun i => decide (i < b ∨ a ≤ i ∧ i < e) :=
      List.countP_congr fun i hi => by rw [hSplit i (List.mem_range.mp hi)]
    rw [hSame, hAll]
    omega
  unfold isShiftedMask
  split
  · rfl
  · rw [hZeros, ushiftRight_zero]
    dsimp only
    rw [hOnes, hLead, beq_eq_false_iff_ne]
    omega

theorem rotAndOnes_pattern (h : Pattern v k len r) : rotAndOnes (v &&& elemMask (2 ^ k)) (2 ^ k) = some ((2 ^ k - r) % 2 ^ k, len) := by
  obtain ⟨hLow, hHigh⟩ := h.size
  obtain ⟨hSome, hLess⟩ := h.ones
  have hRot := h.rotation
  have hElem : 2 ^ k ≤ 2 ^ 6 := Nat.pow_le_pow_right (by decide) hHigh
  have hBits : ∀ i < 64, (v &&& elemMask (2 ^ k)).getLsbD i =
      decide (i < 2 ^ k ∧ (((2 ^ k - r) % 2 ^ k ≤ i ∧ i < (2 ^ k - r) % 2 ^ k + len) ∨ i + 2 ^ k < (2 ^ k - r) % 2 ^ k + len)) := fun i hi => by
    rw [BitVec.getLsbD_and, getLsbD_elemMask hi, h.bits i hi, ← Bool.decide_and, decide_eq_decide, and_comm]
    refine and_congr_right fun hIn => ?_
    have hPlace := @place_iff len r (2 ^ k) i hRot hIn
    rwa [and_iff_left hLess, and_iff_left hLess] at hPlace
  have hStart : (2 ^ k - r) % 2 ^ k < 2 ^ k := Nat.mod_lt _ (Nat.two_pow_pos k)
  generalize (2 ^ k - r) % 2 ^ k = a at hBits hStart ⊢
  generalize 2 ^ k = e at *
  unfold rotAndOnes
  rcases lt_or_ge e (a + len) with hWrapped | hWhole
  · have hSplit : Split (v &&& elemMask e) e (a + len - e) a := fun i hi => (hBits i hi).trans (decide_eq_decide.mpr (by omega))
    have hFilled : ∀ i < 64, ((v &&& elemMask e) ||| ~~~elemMask e).getLsbD i = decide (i < a + len - e ∨ a ≤ i) := fun i hi => by
      rw [getLsbD_or, getLsbD_not, getLsbD_elemMask hi, hBits i hi, decide_eq_true hi, Bool.true_and, ← decide_not, ← Bool.decide_or]
      exact decide_eq_decide.mpr (by omega)
    have hHole : Run (~~~((v &&& elemMask e) ||| ~~~elemMask e)) (a + len - e) a := fun i hi => by
      rw [getLsbD_not, decide_eq_true hi, Bool.true_and, hFilled i hi, ← decide_not]
      exact decide_eq_decide.mpr (by omega)
    have hOnes : trailingOnes ((v &&& elemMask e) ||| ~~~elemMask e) = a + len - e := by
      refine length_takeWhile_range (fun i hi => ?_) (by omega) fun hMore => ?_
      · rw [hFilled i (by omega), decide_eq_true (.inl hi)]
      · rw [hFilled _ hMore, decide_eq_false (by omega)]
    rw [isShiftedMask_split hSplit (by omega) (by omega) hStart (by omega), if_neg Bool.false_ne_true]
    dsimp only
    rw [isShiftedMask_run hHole (by omega) (by omega), Bool.not_true, if_neg Bool.false_ne_true, leadingZeros_run hHole (by omega) (by omega), hOnes,
      if_pos (by omega)]
    exact congrArg some (Prod.ext (by dsimp only; omega) (by dsimp only; omega))
  · have hRun : Run (v &&& elemMask e) a (a + len) := fun i hi => (hBits i hi).trans (decide_eq_decide.mpr (by omega))
    rw [if_pos (isShiftedMask_run hRun (by omega) (by omega)), trailingZeros_run hRun (by omega) (by omega),
      trailingOnes_run (run_ushiftRight hRun (by omega)) (by omega), Nat.add_sub_cancel_left]

def immsOf (size ones : Nat) : U32 := (~~~BitVec.ofNat 32 (size - 1) <<< 1) ||| BitVec.ofNat 32 (ones - 1)

def nOf (size ones : Nat) : U32 := ((immsOf size ones >>> 6) &&& 1) ^^^ 1

theorem fields_of_size : ∀ k, 1 ≤ k → k ≤ 6 → ∀ len, 0 < len → len < 2 ^ k →
    ((nOf (2 ^ k) len <<< 6) ||| (~~~(immsOf (2 ^ k) len &&& 0x3f) &&& 0x3f) ≠ 0 ∧
      31 - leadingZeros ((nOf (2 ^ k) len <<< 6) ||| (~~~(immsOf (2 ^ k) len &&& 0x3f) &&& 0x3f)) = k) ∧
    (immsOf (2 ^ k) len &&& 0x3f).toNat % 2 ^ k = len - 1 := by
  have hAll : ∀ k : Fin 7, 1 ≤ k.val → ∀ len : Fin 64, 0 < len.val → len.val < 2 ^ k.val →
      ((nOf (2 ^ k.val) len <<< 6) ||| (~~~(immsOf (2 ^ k.val) len &&& 0x3f) &&& 0x3f) ≠ 0 ∧
        31 - leadingZeros ((nOf (2 ^ k.val) len <<< 6) ||| (~~~(immsOf (2 ^ k.val) len &&& 0x3f) &&& 0x3f)) = k.val) ∧
      (immsOf (2 ^ k.val) len &&& 0x3f).toNat % 2 ^ k.val = len.val - 1 := by
    decide
  intro k hLow hHigh len hSome hLess
  have hElem : 2 ^ k ≤ 2 ^ 6 := Nat.pow_le_pow_right (by decide) hHigh
  exact hAll ⟨k, by omega⟩ hLow ⟨len, by omega⟩ hSome hLess

theorem pattern_mixed (h : Pattern v k len r) : v ≠ 0 ∧ v ≠ BitVec.allOnes 64 := by
  obtain ⟨-, hHigh⟩ := h.size
  obtain ⟨hSome, hLess⟩ := h.ones
  have hRot := h.rotation
  have hElem : 2 ^ k ≤ 2 ^ 6 := Nat.pow_le_pow_right (by decide) hHigh
  constructor
  · rintro rfl
    have hBit := h.bits ((2 ^ k - r) % 2 ^ k) (lt_of_lt_of_le (Nat.mod_lt _ (Nat.two_pow_pos k)) hElem)
    rw [Nat.mod_add_mod, Nat.sub_add_cancel (le_of_lt hRot), Nat.mod_self, decide_eq_true hSome] at hBit
    cases hBit.symm.trans BitVec.getLsbD_zero
  · rintro rfl
    have hPlace : (2 ^ k - 1 + (2 ^ k - r)) % 2 ^ k < 64 := lt_of_lt_of_le (Nat.mod_lt _ (Nat.two_pow_pos k)) hElem
    have hBit := h.bits _ hPlace
    have hSum : 2 ^ k - 1 + (2 ^ k - r) + r = 2 ^ k - 1 + 2 ^ k := by omega
    have hLast : (2 ^ k - 1) % 2 ^ k = 2 ^ k - 1 := Nat.mod_eq_of_lt (by omega)
    rw [Nat.mod_add_mod, hSum, add_mod_right, hLast, decide_eq_false (by omega), getLsbD_allOnes, decide_eq_true hPlace] at hBit
    cases hBit

theorem encodeBitmask_pattern (h : Pattern v k len r) : (encodeBitmask v true).isSome = true := by
  obtain ⟨hLow, hHigh⟩ := h.size
  obtain ⟨hSome, hLess⟩ := h.ones
  obtain ⟨hNotZero, hNotAll⟩ := pattern_mixed h
  have hRot := h.rotation
  have hElem : 2 ^ k ≤ 2 ^ 6 := Nat.pow_le_pow_right (by decide) hHigh
  have hSize : findSize v 6 64 = 2 ^ k := findSize_pattern h hHigh (le_refl 6) (le_refl 6)
  have hStart : (2 ^ k - r) % 2 ^ k < 2 ^ k := Nat.mod_lt _ (Nat.two_pow_pos k)
  obtain ⟨hLength, hOnes⟩ := fields_of_size k hLow hHigh len hSome hLess
  have hImmr : (BitVec.ofNat 32 (2 ^ k - (2 ^ k - r) % 2 ^ k) &&& BitVec.ofNat 32 (2 ^ k - 1)).toNat % 2 ^ k = r := by
    have hTurn : (2 ^ k - (2 ^ k - r) % 2 ^ k) % 2 ^ 32 = 2 ^ k - (2 ^ k - r) % 2 ^ k := Nat.mod_eq_of_lt (by omega)
    have hMask : (2 ^ k - 1) % 2 ^ 32 = 2 ^ k - 1 := Nat.mod_eq_of_lt (by omega)
    rw [toNat_and, toNat_ofNat, toNat_ofNat, hTurn, hMask, and_two_pow_sub_one_eq_mod, mod_mod]
    rcases Nat.eq_zero_or_pos r with rfl | hPos
    · rw [Nat.sub_zero, Nat.mod_self, Nat.sub_zero, Nat.mod_self]
    · rw [Nat.mod_eq_of_lt (by omega : 2 ^ k - r < 2 ^ k), Nat.sub_sub_self (le_of_lt hRot), Nat.mod_eq_of_lt hRot]
  have hFields : Fields (nOf (2 ^ k) len) (BitVec.ofNat 32 (2 ^ k - (2 ^ k - r) % 2 ^ k) &&& BitVec.ofNat 32 (2 ^ k - 1))
      (immsOf (2 ^ k) len &&& 0x3f) k (len - 1) r := ⟨⟨hLow, hHigh⟩, hLength, ⟨hOnes, by omega⟩, hImmr⟩
  have hBack := (decodeBitmask_bits hFields).mpr fun i hi => (h.bits i hi).trans (decide_eq_decide.mpr (by rw [Nat.sub_add_cancel hSome]))
  unfold encodeBitmask
  simp only [if_true, and_allOnes, hSize, rotAndOnes_pattern h, Option.bind_eq_bind, Option.bind_some]
  rw [if_neg (not_or.mpr ⟨hNotZero, hNotAll⟩), if_neg (by omega)]
  exact congrArg Option.isSome (if_pos hBack)

theorem findSize_le {rounds size : Nat} : findSize v rounds size ≤ size := by
  induction rounds generalizing size with
  | zero => exact le_refl size
  | succ rounds ih =>
    rw [findSize]
    split
    · exact le_refl size
    · split
      · exact div_le_self size 2
      · exact ih.trans (div_le_self size 2)

theorem encodeBitmask_some {n immr imms : U32} (h : encodeBitmask v true = some (n, immr, imms)) :
    decodeBitmask n immr imms true = some v ∧ n.toNat < 2 ∧ immr.toNat < 64 ∧ imms.toNat < 64 := by
  unfold encodeBitmask at h
  simp only [if_true, and_allOnes] at h
  split at h
  · cases h
  obtain ⟨⟨rot, ones⟩, -, h⟩ := Option.bind_eq_some_iff.mp h
  dsimp only at h
  split at h
  · cases h
  obtain ⟨hBack, hSame⟩ := Option.ite_none_right_eq_some.mp h
  have hSize : findSize v 6 64 ≤ 64 := findSize_le
  cases hSame
  refine ⟨hBack, ?_, ?_, ?_⟩
  · rw [toNat_xor]
    refine xor_lt_two_pow (n := 1) ?_ (by decide)
    rw [toNat_and]
    exact lt_of_le_of_lt and_le_right (by decide)
  · rw [toNat_and]
    refine lt_of_le_of_lt and_le_right ?_
    rw [toNat_ofNat]
    omega
  · rw [toNat_and]
    exact lt_of_le_of_lt and_le_right (by decide)

theorem highestSetBit_eq {n imms : U32} (hn : n.toNat < 2) (hImms : imms.toNat < 64) (hSome : (n <<< 6) ||| (~~~imms &&& 0x3f) ≠ 0) :
    highestSetBit (n.setWidth 1 ++ ~~~imms.setWidth 6) = some (31 - leadingZeros ((n <<< 6) ||| (~~~imms &&& 0x3f))) := by
  have hAll : ∀ (a : Fin 2) (b : Fin 64), (BitVec.ofNat 32 a <<< 6) ||| (~~~BitVec.ofNat 32 b &&& 0x3f) ≠ 0 →
      highestSetBit ((BitVec.ofNat 32 a).setWidth 1 ++ ~~~(BitVec.ofNat 32 b).setWidth 6) =
        some (31 - leadingZeros ((BitVec.ofNat 32 a <<< 6) ||| (~~~BitVec.ofNat 32 b &&& 0x3f))) := by
    decide
  have hHere := hAll ⟨n.toNat, hn⟩ ⟨imms.toNat, hImms⟩
  rw [ofNat_toNat, ofNat_toNat, setWidth_eq, setWidth_eq] at hHere
  exact hHere hSome

theorem fields_of_decode {n immr imms : U32} (hn : n.toNat < 2) (hImms : imms.toNat < 64) (h : decodeBitmask n immr imms true = some v) :
    ∃ k s r, Fields n immr imms k s r ∧ highestSetBit (n.setWidth 1 ++ ~~~imms.setWidth 6) = some k := by
  unfold decodeBitmask at h
  simp only [Bool.not_true, Bool.false_and, if_true, and_two_pow_sub_one_eq_mod] at h
  rw [if_neg Bool.false_ne_true] at h
  obtain ⟨hSome, h⟩ := Option.ite_none_left_eq_some.mp h
  obtain ⟨hLow, h⟩ := Option.ite_none_left_eq_some.mp h
  obtain ⟨hFits, h⟩ := Option.ite_none_left_eq_some.mp h
  obtain ⟨hOnes, -⟩ := Option.ite_none_left_eq_some.mp h
  have hHigh : 31 - leadingZeros ((n <<< 6) ||| (~~~imms &&& 0x3f)) ≤ 6 :=
    (Nat.pow_le_pow_iff_right (by decide : 1 < 2)).mp (not_lt.mp hFits)
  exact ⟨_, _, _, ⟨⟨not_lt.mp hLow, hHigh⟩, ⟨hSome, rfl⟩, ⟨rfl, hOnes⟩, rfl⟩, highestSetBit_eq hn hImms hSome⟩

/-- A word is encoded exactly if it is a logical immediate, and its encoding decodes to it. -/
theorem encodeBitmask_correct (v : U64) : ((encodeBitmask v true).isSome = true ↔ IsLogicalImm v) ∧
    ∀ n immr imms, encodeBitmask v true = some (n, immr, imms) →
      (n.toNat < 2 ∧ immr.toNat < 64 ∧ imms.toNat < 64) ∧ decodeBitMasks (n.setWidth 1) (imms.setWidth 6) (immr.setWidth 6) = some v := by
  have hSound : ∀ n immr imms, encodeBitmask v true = some (n, immr, imms) → (n.toNat < 2 ∧ immr.toNat < 64 ∧ imms.toNat < 64) ∧
      ∃ k s r, Fields n immr imms k s r ∧ highestSetBit (n.setWidth 1 ++ ~~~imms.setWidth 6) = some k ∧
        ∀ i < 64, v.getLsbD i = decide ((i + r) % 2 ^ k < s + 1) := fun n immr imms h => by
    obtain ⟨hBack, hn, hImmr, hImms⟩ := encodeBitmask_some h
    obtain ⟨k, s, r, hFields, hTop⟩ := fields_of_decode hn hImms hBack
    exact ⟨⟨hn, hImmr, hImms⟩, k, s, r, hFields, hTop, (decodeBitmask_bits hFields).mp hBack⟩
  refine ⟨⟨fun hSome => ?_, ?_⟩, fun n immr imms h => ?_⟩
  · obtain ⟨⟨n, immr, imms⟩, hEncoded⟩ := Option.isSome_iff_exists.mp hSome
    obtain ⟨-, k, s, r, hFields, -, hBits⟩ := hSound n immr imms hEncoded
    have hPos := Nat.two_pow_pos k
    have hOnes := hFields.ones
    have hLess := Nat.mod_lt imms.toNat hPos
    exact ⟨k, s + 1, r, hFields.size, ⟨Nat.succ_pos s, by omega⟩, hFields.rotation ▸ Nat.mod_lt _ hPos, hBits⟩
  · rintro ⟨k, len, r, hPattern⟩
    exact encodeBitmask_pattern hPattern
  · obtain ⟨hFit, k, s, r, hFields, hTop, hBits⟩ := hSound n immr imms h
    exact ⟨hFit, (decodeBitMasks_bits hFields hTop).mpr hBits⟩

end Encoding
end Exemu.Jit
