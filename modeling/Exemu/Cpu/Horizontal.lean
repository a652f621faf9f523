import Exemu.Cpu.Packed

/-! # Horizontal sums

PHADD and PHSUB combine neighbours: those of the destination into the lower half of the result,
those of the source into the upper one.
-/
namespace Exemu.Interp

open Lanes Words

/-! ## Neighbours in place -/

section InPlace

variable {α : Type} {c : α → α → α} {d : Nat → α} {n i : Nat}

def inPlace (c : α → α → α) (base n : Nat) (d : Nat → α) : Nat → α :=
  (List.range n).foldl (fun d k => Function.update d (base + k) (c (d (2 * k)) (d (2 * k + 1)))) d

theorem inPlace_succ (base : Nat) : inPlace c base (n + 1) d =
    Function.update (inPlace c base n d) (base + n) (c (inPlace c base n d (2 * n)) (inPlace c base n d (2 * n + 1))) := by
  unfold inPlace
  rw [List.range_succ, List.foldl_append]
  rfl

theorem inPlace_start : inPlace c 0 n d i = if i < n then c (d (2 * i)) (d (2 * i + 1)) else d i := by
  induction n generalizing i with
  | zero => rfl
  | succ n ih =>
    rw [inPlace_succ, ih, ih, if_neg (by omega), if_neg (by omega), Nat.zero_add]
    rcases Nat.lt_trichotomy i n with hLess | rfl | hMore
    · rw [Function.update_of_ne (by omega), ih, if_pos hLess, if_pos (by omega)]
    · rw [Function.update_self, if_pos (by omega)]
    · rw [Function.update_of_ne (by omega), ih, if_neg (by omega), if_neg (by omega)]

theorem inPlace_four : inPlace c 4 4 d 4 = c (d 0) (d 1) ∧ inPlace c 4 4 d 5 = c (d 2) (d 3) ∧
    inPlace c 4 4 d 6 = c (c (d 0) (d 1)) (c (d 2) (d 3)) ∧ inPlace c 4 4 d 7 = c (c (c (d 0) (d 1)) (c (d 2) (d 3))) (d 7) := by
  refine ⟨?_, ?_, ?_, ?_⟩ <;> simp [inPlace, List.range_succ, Function.update]

theorem inPlace_two : inPlace c 2 2 d 2 = c (d 0) (d 1) ∧ inPlace c 2 2 d 3 = c (c (d 0) (d 1)) (d 3) := by
  refine ⟨?_, ?_⟩ <;> simp [inPlace, List.range_succ, Function.update]

theorem inPlace_below {base : Nat} (h : i < base) : inPlace c base n d i = d i := by
  induction n with
  | zero => rfl
  | succ n ih => rw [inPlace_succ, Function.update_of_ne (by omega), ih]

end InPlace

/-! ## The sums -/

section Sums

variable {esz j : Nat} {sub sat aliased : Bool} {a b : U128}

def hsum (w : Nat) (sub sat : Bool) (x y : BitVec w) : BitVec w :=
  let z := if sub then x.toInt - y.toInt else x.toInt + y.toInt
  if sat then saturate w true z else BitVec.ofInt w z

def neighbours (esz : Nat) (sub sat : Bool) (v : U128) (k : Nat) : BitVec (esz * 8) :=
  hsum (esz * 8) sub sat (lane (esz * 8) (2 * k) v) (lane (esz * 8) (2 * k + 1) v)

def pairUp (esz : Nat) (sub sat : Bool) (x y : U64) : U64 :=
  combine ((emask esz).setWidth 64) sub sat (sextLane x (esz * 8)) (sextLane y (esz * 8))

def IsHorizontal (esz : Nat) (sat : Bool) : Prop := esz = 2 ∨ (esz = 4 ∧ sat = false)

theorem IsHorizontal.elem (h : IsHorizontal esz sat) : IsElem esz :=
  h.elim (fun h => .inr (.inl h)) fun h => .inr (.inr (.inl h.1))

theorem pairUp_eq (h : IsHorizontal esz sat) (x y : BitVec (esz * 8)) :
    pairUp esz sub sat (x.setWidth 64) (y.setWidth 64) = (hsum (esz * 8) sub sat x y).setWidth 64 := by
  have hElem := h.elem
  have hX : Fits 33 x.toInt := (fits_toInt x).mono (by rcases h with rfl | ⟨rfl, -⟩ <;> decide)
  have hY : Fits 33 y.toInt := (fits_toInt y).mono (by rcases h with rfl | ⟨rfl, -⟩ <;> decide)
  have hSum : (if sub then x.signExtend 64 - y.signExtend 64 else x.signExtend 64 + y.signExtend 64) =
      BitVec.ofInt 64 (if sub then x.toInt - y.toInt else x.toInt + y.toInt) := by
    cases sub with
    | true => exact (ofInt_sub _ _).symm
    | false => exact (BitVec.ofInt_add _ _).symm
  unfold pairUp combine hsum
  dsimp only
  rw [sextLane_eq hElem.bits_le, sextLane_eq hElem.bits_le, hSum, and_emask64 hElem]
  refine congrArg _ ?_
  cases sat with
  | false => exact setWidth_ofInt hElem.bits_le _
  | true =>
    obtain rfl : esz = 2 := h.elim id fun h => Bool.noConfusion h.2
    have hFits : Fits 64 (if sub then x.toInt - y.toInt else x.toInt + y.toInt) := by
      unfold Fits at hX hY ⊢
      cases sub
      · change -2 ^ 63 ≤ x.toInt + y.toInt ∧ x.toInt + y.toInt < 2 ^ 63
        omega
      · change -2 ^ 63 ≤ x.toInt - y.toInt ∧ x.toInt - y.toInt < 2 ^ 63
        omega
    change (clampS (BitVec.ofInt 64 _) (BitVec.ofInt 64 (-32768)) (BitVec.ofInt 64 32767)).setWidth 16 = _
    rw [clampS_ofInt (by decide) hFits (by constructor <;> decide) (by constructor <;> decide), setWidth_ofInt (by decide)]
    rfl

def rawLanes (esz : Nat) (v : U128) (i : Nat) : U64 := (laneAt v i (esz * 8) (emask esz)).setWidth 64

theorem rawLanes_eq (h : IsElem esz) (v : U128) (i : Nat) : rawLanes esz v i = (lane (esz * 8) i v).setWidth 64 :=
  laneAt_setWidth h.small (by decide) v i

theorem pairUp_raw (h : IsHorizontal esz sat) (v : U128) (k : Nat) :
    pairUp esz sub sat (rawLanes esz v (2 * k)) (rawLanes esz v (2 * k + 1)) = (neighbours esz sub sat v k).setWidth 64 := by
  rw [rawLanes_eq h.elem, rawLanes_eq h.elem, pairUp_eq h]
  rfl

def firstHalf (esz : Nat) (sub sat : Bool) (a : U128) : Nat → U64 :=
  inPlace (pairUp esz sub sat) 0 (16 / esz / 2) fun i => if i < 16 / esz then rawLanes esz a i else 0

def bothHalves (esz : Nat) (sub sat aliased : Bool) (a b : U128) : Nat → U64 :=
  let d := firstHalf esz sub sat a
  if aliased then inPlace (pairUp esz sub sat) (16 / esz / 2) (16 / esz / 2) d
  else fill (16 / esz / 2) (fun k => 16 / esz / 2 + k) (fun k => pairUp esz sub sat (rawLanes esz b (2 * k)) (rawLanes esz b (2 * k + 1))) d

theorem phaddsub_eq (h : IsElem esz) (a b : U128) (sub sat aliased : Bool) : phaddsub a b esz sub sat aliased =
    gather (16 / esz) fun i => ((bothHalves esz sub sat aliased a b i).setWidth 128 &&& emask esz) <<< (i * (esz * 8)) := by
  have hMask : ((emask esz).setWidth 64).setWidth 128 = emask esz := by rcases h with rfl | rfl | rfl | rfl <;> decide
  unfold phaddsub
  dsimp only
  rw [hMask]
  unfold bothHalves firstHalf inPlace fill pairUp rawLanes
  simp only [Nat.zero_add]
  cases aliased <;> rfl

theorem lane_phaddsub (h : IsElem esz) (hj : j < 16 / esz) :
    lane (esz * 8) j (phaddsub a b esz sub sat aliased) = (bothHalves esz sub sat aliased a b j).setWidth (esz * 8) := by
  rw [phaddsub_eq h]
  exact lane_cut h hj

theorem firstHalf_low (h : IsHorizontal esz sat) (hj : j < 16 / esz / 2) : firstHalf esz sub sat a j = (neighbours esz sub sat a j).setWidth 64 := by
  unfold firstHalf
  rw [inPlace_start, if_pos hj, if_pos (by omega), if_pos (by omega), pairUp_raw h]

theorem firstHalf_high (h : IsElem esz) (hLow : 16 / esz / 2 ≤ j) (hj : j < 16 / esz) :
    firstHalf esz sub sat a j = (lane (esz * 8) j a).setWidth 64 := by
  unfold firstHalf
  rw [inPlace_start, if_neg (by omega), if_pos hj, rawLanes_eq h]

theorem setWidth_lane (h : IsElem esz) (x : BitVec (esz * 8)) : (x.setWidth 64).setWidth (esz * 8) = x := by
  rw [BitVec.setWidth_setWidth_of_le _ h.bits_le, BitVec.setWidth_eq]

theorem lane_low_half (h : IsHorizontal esz sat) (hj : j < 16 / esz / 2) :
    lane (esz * 8) j (phaddsub a b esz sub sat aliased) = neighbours esz sub sat a j := by
  rw [lane_phaddsub h.elem (by omega)]
  have hHere : bothHalves esz sub sat aliased a b j = firstHalf esz sub sat a j := by
    cases aliased with
    | true => exact inPlace_below hj
    | false => exact fill_elsewhere fun k _ => by omega
  rw [hHere, firstHalf_low h hj, setWidth_lane h.elem]

theorem lane_high_half (h : IsHorizontal esz sat) (hj : j < 16 / esz / 2) :
    lane (esz * 8) (16 / esz / 2 + j) (phaddsub a b esz sub sat false) = neighbours esz sub sat b j := by
  rw [lane_phaddsub h.elem (by omega)]
  have hHere : bothHalves esz sub sat false a b (16 / esz / 2 + j) = (neighbours esz sub sat b j).setWidth 64 :=
    (fill_here (f := fun k => 16 / esz / 2 + k) (fun i _ k _ hSame => by omega) hj).trans (pairUp_raw h b j)
  rw [hHere, setWidth_lane h.elem]

def SumsOf (esz : Nat) (sub sat : Bool) (a b r : U128) : Prop :=
  ∀ j < 16 / esz / 2, lane (esz * 8) j r = neighbours esz sub sat a j ∧ lane (esz * 8) (16 / esz / 2 + j) r = neighbours esz sub sat b j

theorem phaddsub_sums (h : IsHorizontal esz sat) (a b : U128) : SumsOf esz sub sat a b (phaddsub a b esz sub sat false) :=
  fun _ hj => ⟨lane_low_half h hj, lane_high_half h hj⟩

theorem SumsOf.unique {r r' : U128} (hElem : IsElem esz) (hEven : 16 / esz / 2 + 16 / esz / 2 = 16 / esz) (h : SumsOf esz sub sat a b r)
    (h' : SumsOf esz sub sat a b r') : r = r' := by
  refine eq_of_lanes hElem.pos fun j hRoom => ?_
  have hLess : j < 16 / esz := by
    rw [← hElem.whole] at hRoom
    exact Nat.lt_of_mul_lt_mul_right hRoom
  rcases Nat.lt_or_ge j (16 / esz / 2) with hLow | hHigh
  · rw [(h j hLow).1, (h' j hLow).1]
  · have hPlace : 16 / esz / 2 + (j - 16 / esz / 2) = j := by omega
    have hBoth := (h (j - 16 / esz / 2) (by omega)).2.trans (h' (j - 16 / esz / 2) (by omega)).2.symm
    rwa [hPlace] at hBoth

def Settled (esz : Nat) (sub sat : Bool) (a : U128) : Prop :=
  let c := hsum (esz * 8) sub sat
  let s := neighbours esz sub sat a
  if esz = 4 then c (s 0) (s 1) = s 0 ∧ c (s 0) (lane (esz * 8) 3 a) = s 1
  else c (s 0) (s 1) = s 0 ∧ c (s 2) (s 3) = s 1 ∧ s 2 = s 0 ∧ c (s 0) (lane (esz * 8) 7 a) = s 3

instance (esz : Nat) (sub sat : Bool) (a : U128) : Decidable (Settled esz sub sat a) := by
  unfold Settled
  dsimp only
  exact inferInstance

theorem aliased_sums_iff (h : IsHorizontal esz sat) : SumsOf esz sub sat a a (phaddsub a b esz sub sat true) ↔ Settled esz sub sat a := by
  have hLow : ∀ j < 16 / esz / 2, firstHalf esz sub sat a j = (neighbours esz sub sat a j).setWidth 64 := fun j hj => firstHalf_low h hj
  have hLanes : SumsOf esz sub sat a a (phaddsub a b esz sub sat true) ↔
      ∀ j < 16 / esz / 2, lane (esz * 8) (16 / esz / 2 + j) (phaddsub a b esz sub sat true) = neighbours esz sub sat a j :=
    forall₂_congr fun j hj => and_iff_right (lane_low_half h hj)
  rw [hLanes]
  rcases h with rfl | ⟨rfl, rfl⟩
  · have h : IsHorizontal 2 sat := .inl rfl
    obtain ⟨h4, h5, h6, h7⟩ := inPlace_four (c := pairUp 2 sub sat) (d := firstHalf 2 sub sat a)
    rw [hLow 0 (by decide), hLow 1 (by decide), pairUp_eq h] at h4 h6 h7
    rw [hLow 2 (by decide), hLow 3 (by decide), pairUp_eq h] at h5 h6 h7
    rw [pairUp_eq h] at h6 h7
    rw [firstHalf_high h.elem (by decide) (by decide), pairUp_eq h] at h7
    have hLane : ∀ j < 4, ∀ x : BitVec (2 * 8), inPlace (pairUp 2 sub sat) 4 4 (firstHalf 2 sub sat a) (4 + j) = x.setWidth 64 →
        lane (2 * 8) (16 / 2 / 2 + j) (phaddsub a b 2 sub sat true) = x := by
      intro j hj x hHere
      rw [lane_phaddsub h.elem (by omega)]
      refine (congrArg (fun y : U64 => y.setWidth (2 * 8)) hHere).trans (setWidth_lane h.elem x)
    have hAt4 := hLane 0 (by decide) _ h4
    have hAt5 := hLane 1 (by decide) _ h5
    have hAt6 := hLane 2 (by decide) _ h6
    have hAt7 := hLane 3 (by decide) _ h7
    unfold Settled
    rw [if_neg (by decide)]
    constructor
    · intro hAll
      have s0 := hAt4.symm.trans (hAll 0 (by decide))
      have s1 := hAt5.symm.trans (hAll 1 (by decide))
      have s2 := hAt6.symm.trans (hAll 2 (by decide))
      have s3 := hAt7.symm.trans (hAll 3 (by decide))
      rw [s0, s1, s0] at s2 s3
      exact ⟨s0, s1, s2.symm, s3⟩
    · rintro ⟨s0, s1, s2, s3⟩ j hj
      rw [s0] at hAt4
      rw [s1] at hAt5
      rw [s0, s1, s0] at hAt6 hAt7
      have hj : j < 4 := hj
      obtain rfl | rfl | rfl | rfl : j = 0 ∨ j = 1 ∨ j = 2 ∨ j = 3 := by omega
      · exact hAt4
      · exact hAt5
      · exact hAt6.trans s2.symm
      · exact hAt7.trans s3
  · have h : IsHorizontal 4 false := .inr ⟨rfl, rfl⟩
    obtain ⟨h2, h3⟩ := inPlace_two (c := pairUp 4 sub false) (d := firstHalf 4 sub false a)
    rw [hLow 0 (by decide), hLow 1 (by decide), pairUp_eq h] at h2 h3
    rw [firstHalf_high h.elem (by decide) (by decide), pairUp_eq h] at h3
    have hLane : ∀ j < 2, ∀ x : BitVec (4 * 8), inPlace (pairUp 4 sub false) 2 2 (firstHalf 4 sub false a) (2 + j) = x.setWidth 64 →
        lane (4 * 8) (16 / 4 / 2 + j) (phaddsub a b 4 sub false true) = x := by
      intro j hj x hHere
      rw [lane_phaddsub h.elem (by omega)]
      refine (congrArg (fun y : U64 => y.setWidth (4 * 8)) hHere).trans (setWidth_lane h.elem x)
    have hAt2 := hLane 0 (by decide) _ h2
    have hAt3 := hLane 1 (by decide) _ h3
    unfold Settled
    rw [if_pos rfl]
    constructor
    · intro hAll
      have s0 := hAt2.symm.trans (hAll 0 (by decide))
      have s1 := hAt3.symm.trans (hAll 1 (by decide))
      rw [s0] at s1
      exact ⟨s0, s1⟩
    · rintro ⟨s0, s1⟩ j hj
      rw [s0] at hAt2 hAt3
      have hj : j < 2 := hj
      obtain rfl | rfl : j = 0 ∨ j = 1 := by omega
      · exact hAt2
      · exact hAt3.trans s1

theorem phaddsub_aliased_iff (h : IsHorizontal esz sat) :
    phaddsub a a esz sub sat true = phaddsub a a esz sub sat false ↔ Settled esz sub sat a := by
  have hEven : 16 / esz / 2 + 16 / esz / 2 = 16 / esz := by rcases h with rfl | ⟨rfl, -⟩ <;> decide
  rw [← aliased_sums_iff (b := a) h]
  constructor
  · intro hSame
    rw [hSame]
    exact phaddsub_sums h a a
  · intro hSums
    exact hSums.unique h.elem hEven (phaddsub_sums h a a)

end Sums

end Exemu.Interp
