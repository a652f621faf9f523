import Mathlib.Algebra.Order.Ring.Nat
import Mathlib.Data.List.Basic

/-! # Lanes of a word

A word is taken apart into lanes of one width.
-/
namespace Exemu.Lanes

section Words

variable {W w n i j k : Nat} {a b v : BitVec W}

/-- Lane `i` of `w` bits. -/
def lane (w i : Nat) (v : BitVec W) : BitVec w := v.extractLsb' (i * w) w

def gather (n : Nat) (f : Nat → BitVec W) : BitVec W := (List.range n).foldl (fun out i => out ||| f i) 0

theorem getLsbD_lane (v : BitVec W) (w i k : Nat) : (lane w i v).getLsbD k = (decide (k < w) && v.getLsbD (i * w + k)) :=
  BitVec.getLsbD_extractLsb' ..

theorem lane_eq_iff {r : BitVec w} : lane w i v = r ↔ ∀ k < w, v.getLsbD (i * w + k) = r.getLsbD k := by
  constructor
  · rintro rfl k hk
    rw [getLsbD_lane, decide_eq_true hk, Bool.true_and]
  · intro h
    refine BitVec.eq_of_getLsbD_eq fun k hk => ?_
    rw [getLsbD_lane, decide_eq_true hk, Bool.true_and, h k hk]

theorem eq_of_lanes (hw : 0 < w) (h : ∀ i, i * w < W → lane w i a = lane w i b) : a = b := by
  refine BitVec.eq_of_getLsbD_eq fun k hk => ?_
  have hPlace : k / w * w + k % w = k := Nat.div_add_mod' k w
  have hBit := lane_eq_iff.mp (h (k / w) (by omega)) (k % w) (Nat.mod_lt k hw)
  rw [getLsbD_lane, decide_eq_true (Nat.mod_lt k hw), Bool.true_and, hPlace] at hBit
  exact hBit

variable {f g : Nat → BitVec W}

@[simp] theorem gather_zero (f : Nat → BitVec W) : gather 0 f = 0 := rfl

theorem gather_succ (n : Nat) (f : Nat → BitVec W) : gather (n + 1) f = gather n f ||| f n := by
  rw [gather, List.range_succ, List.foldl_append]
  rfl

theorem gather_or (n : Nat) (f g : Nat → BitVec W) : gather n (fun i => f i ||| g i) = gather n f ||| gather n g := by
  induction n with
  | zero => exact (BitVec.or_self).symm
  | succ n ih =>
    rw [gather_succ, gather_succ, gather_succ, ih]
    ac_rfl

theorem gather_congr (h : ∀ i < n, f i = g i) : gather n f = gather n g := by
  induction n with
  | zero => rfl
  | succ n ih => rw [gather_succ, gather_succ, ih fun i hi => h i (by omega), h n (by omega)]

theorem getLsbD_gather (n : Nat) (f : Nat → BitVec W) (k : Nat) : (gather n f).getLsbD k = true ↔ ∃ i < n, (f i).getLsbD k = true := by
  induction n with
  | zero => simp
  | succ n ih =>
    rw [gather_succ, BitVec.getLsbD_or, Bool.or_eq_true, ih]
    constructor
    · rintro (⟨i, hi, hBit⟩ | hBit)
      · exact ⟨i, by omega, hBit⟩
      · exact ⟨n, by omega, hBit⟩
    · rintro ⟨i, hi, hBit⟩
      rcases Nat.lt_succ_iff_lt_or_eq.mp hi with hi | rfl
      · exact .inl ⟨i, hi, hBit⟩
      · exact .inr hBit

theorem getLsbD_gather_bits {p : Nat → Prop} [DecidablePred p] (hn : n ≤ W) (k : Nat) :
    (gather n fun i => if p i then (1 : BitVec W) <<< i else 0).getLsbD k = decide (k < n ∧ p k) := by
  have hRound : ∀ i < n, (if p i then (1 : BitVec W) <<< i else 0).getLsbD k = decide (k = i ∧ p i) := by
    intro i hi
    split
    · rename_i hSet
      have hPlace : ((1 : BitVec W) <<< i).getLsbD k = decide (k = i) := by
        change (BitVec.twoPow W i).getLsbD k = _
        rw [BitVec.getLsbD_twoPow, decide_eq_true (by omega), Bool.true_and, decide_eq_decide]
        exact eq_comm
      rw [hPlace, decide_eq_decide, and_iff_left hSet]
    · rename_i hClear
      rw [decide_eq_false fun hBoth => hClear hBoth.2]
      exact BitVec.getLsbD_zero
  rw [Bool.eq_iff_iff, getLsbD_gather, decide_eq_true_iff]
  constructor
  · rintro ⟨i, hi, hBit⟩
    rw [hRound i hi, decide_eq_true_iff] at hBit
    obtain ⟨rfl, hSet⟩ := hBit
    exact ⟨hi, hSet⟩
  · rintro ⟨hk, hSet⟩
    exact ⟨k, hk, by rw [hRound k hk, decide_eq_true ⟨rfl, hSet⟩]⟩

def Sits (i : Nat) (r : BitVec w) (x : BitVec W) : Prop := ∀ k < W, x.getLsbD k = (decide (i * w ≤ k ∧ k < i * w + w) && r.getLsbD (k - i * w))

theorem sits_shiftLeft {x : BitVec W} (h : ∀ k, w ≤ k → x.getLsbD k = false) (i : Nat) : Sits i (x.setWidth w) (x <<< (i * w)) := by
  intro k hk
  rw [BitVec.getLsbD_shiftLeft, BitVec.getLsbD_setWidth, decide_eq_true hk, Bool.true_and]
  rcases Nat.lt_or_ge k (i * w) with hLow | hHigh
  · rw [decide_eq_true hLow, decide_eq_false (by omega)]
    rfl
  · rcases Nat.lt_or_ge (k - i * w) w with hIn | hOut
    · rw [decide_eq_false (Nat.not_lt.mpr hHigh), decide_eq_true (show i * w ≤ k ∧ k < i * w + w by omega), decide_eq_true hIn]
      rfl
    · rw [h _ hOut, decide_eq_false (show ¬(i * w ≤ k ∧ k < i * w + w) by omega)]
      simp

theorem place_eq (hk : k < w) (hLow : i * w ≤ j * w + k) (hHigh : j * w + k < i * w + w) : j = i := by
  have hDown : (j * w + k) / w = j := by
    rw [Nat.mul_comm, Nat.mul_add_div (by omega), Nat.div_eq_of_lt hk, Nat.add_zero]
  have hUp : (j * w + k) / w = i := Nat.div_eq_of_lt_le hLow (by rw [Nat.add_mul, Nat.one_mul]; omega)
  exact hDown.symm.trans hUp

theorem Sits.lane {r : BitVec w} {x : BitVec W} (h : Sits i r x) (hRoom : j * w + w ≤ W) : lane w j x = if j = i then r else 0 := by
  refine lane_eq_iff.mpr fun k hk => ?_
  rw [h _ (by omega)]
  split
  · rename_i hSame
    rw [hSame, decide_eq_true (by omega), Nat.add_sub_cancel_left, Bool.true_and]
  · rename_i hNe
    rw [decide_eq_false fun hBit => hNe (place_eq hk hBit.1 hBit.2)]
    exact BitVec.getLsbD_zero.symm

theorem lane_gather_at {place : Nat → Nat} {r : Nat → BitVec w} (h : ∀ i < n, Sits (place i) (r i) (f i))
    (hPlaces : ∀ i < n, ∀ j < n, place i = place j → i = j) (hj : j < n) (hRoom : place j * w + w ≤ W) : lane w (place j) (gather n f) = r j := by
  refine lane_eq_iff.mpr fun k hk => ?_
  have hHere : ∀ i < n, (f i).getLsbD (place j * w + k) = true ↔ i = j ∧ (r j).getLsbD k = true := by
    intro i hi
    rw [h i hi _ (by omega), Bool.and_eq_true, decide_eq_true_iff]
    constructor
    · rintro ⟨⟨hLow, hHigh⟩, hBit⟩
      obtain rfl := hPlaces i hi j hj (place_eq hk hLow hHigh).symm
      exact ⟨rfl, by rwa [Nat.add_sub_cancel_left] at hBit⟩
    · rintro ⟨rfl, hBit⟩
      exact ⟨by omega, by rwa [Nat.add_sub_cancel_left]⟩
  rw [Bool.eq_iff_iff, getLsbD_gather]
  constructor
  · rintro ⟨i, hi, hBit⟩
    exact ((hHere i hi).mp hBit).2
  · exact fun hBit => ⟨j, hj, (hHere j hj).mpr ⟨rfl, hBit⟩⟩

theorem lane_gather {r : Nat → BitVec w} (h : ∀ i < n, Sits i (r i) (f i)) (hRoom : n * w ≤ W) (hj : j < n) : lane w j (gather n f) = r j := by
  refine @lane_gather_at _ _ _ _ _ (fun i => i) _ h (fun i _ j _ hSame => hSame) hj ?_
  have hEnd := Nat.mul_le_mul_right w (Nat.succ_le_of_lt hj)
  rw [Nat.succ_mul] at hEnd
  exact hEnd.trans hRoom

theorem lane_gather_elsewhere {place : Nat → Nat} {r : Nat → BitVec w} (h : ∀ i < n, Sits (place i) (r i) (f i)) (hElse : ∀ i < n, place i ≠ j)
    (hRoom : j * w + w ≤ W) : lane w j (gather n f) = 0 := by
  refine lane_eq_iff.mpr fun k hk => ?_
  change _ = (0#w).getLsbD k
  rw [BitVec.getLsbD_zero, Bool.eq_false_iff, Ne, getLsbD_gather]
  rintro ⟨i, hi, hBit⟩
  rw [h i hi _ (by omega), Bool.and_eq_true, decide_eq_true_iff] at hBit
  exact hElse i hi (place_eq hk hBit.1.1 hBit.1.2).symm

theorem lane_zero (w i : Nat) : lane w i (0 : BitVec W) = 0 := BitVec.extractLsb'_zero ..

theorem lane_or (a b : BitVec W) : lane w i (a ||| b) = lane w i a ||| lane w i b := BitVec.extractLsb'_or

end Words

section Arrays

universe u v

variable {κ : Type u} {α : Type v} [DecidableEq κ] {n : Nat} {f : Nat → κ} {x : Nat → α} {st : κ → α}

/-- `for i in 0..n { st[f(i)] = x(i) }` -/
def fill (n : Nat) (f : Nat → κ) (x : Nat → α) (st : κ → α) : κ → α := (List.range n).foldl (fun st i => Function.update st (f i) (x i)) st

theorem fill_succ : fill (n + 1) f x st = Function.update (fill n f x st) (f n) (x n) := by
  rw [fill, List.range_succ, List.foldl_append]
  rfl

theorem fill_congr {y : Nat → α} (h : ∀ i < n, x i = y i) : fill n f x st = fill n f y st := by
  induction n with
  | zero => rfl
  | succ n ih => rw [fill_succ, fill_succ, ih fun i hi => h i (by omega), h n (by omega)]

theorem fill_elsewhere {p : κ} (h : ∀ i < n, f i ≠ p) : fill n f x st p = st p := by
  induction n with
  | zero => rfl
  | succ n ih =>
    rw [fill_succ, Function.update_of_ne (h n (by omega)).symm]
    exact ih fun i hi => h i (by omega)

theorem fill_here (hInj : ∀ i < n, ∀ j < n, f i = f j → i = j) {i : Nat} (hi : i < n) : fill n f x st (f i) = x i := by
  induction n with
  | zero => omega
  | succ n ih =>
    rw [fill_succ]
    rcases Nat.lt_succ_iff_lt_or_eq.mp hi with hLess | rfl
    · rw [Function.update_of_ne fun hSame => (by have := hInj i (by omega) n (by omega) hSame; omega)]
      exact ih (fun i hi j hj => hInj i (by omega) j (by omega)) hLess
    · exact Function.update_self ..

end Arrays

end Exemu.Lanes
