import Mathlib.Data.Nat.Dist
import Mathlib.Tactic.Ring

/-! # Binary floating point, by its patterns

A pattern without its sign is a number: the exponent above `p` bits of fraction.
-/
namespace Exemu.Binary

open Nat

variable {p k s v n n' q e : ℕ}

def units (p n : ℕ) : ℕ := (n % 2 ^ p + if n < 2 ^ p then 0 else 2 ^ p) * 2 ^ (n / 2 ^ p - 1)

theorem units_of_lt (h : n < 2 ^ (p + 1)) : units p n = n := by
  have hPos : 0 < 2 ^ p := Nat.two_pow_pos p
  rw [Nat.pow_succ] at h
  unfold units
  split
  · rename_i hLow
    rw [div_eq_of_lt hLow, mod_eq_of_lt hLow]
    exact mul_one n
  · rename_i hHigh
    have hDiv : n / 2 ^ p = 1 := (Nat.div_eq_iff hPos).mpr (by omega)
    have hMod : n % 2 ^ p = n - 2 ^ p := by
      rw [mod_eq_sub_mod (Nat.not_lt.mp hHigh), mod_eq_of_lt (by omega)]
    rw [hDiv, hMod, Nat.sub_self, pow_zero, mul_one]
    omega

theorem units_scale (e : ℕ) (hq : q ≤ 2 ^ p) : units p ((e + 1) * 2 ^ p + q) = (2 ^ p + q) * 2 ^ e := by
  have hPos : 0 < 2 ^ p := Nat.two_pow_pos p
  have hHigh : ∀ e' r, ¬(e' + 1) * 2 ^ p + r < 2 ^ p := fun e' r => by
    rw [Nat.add_mul, Nat.one_mul]
    omega
  rcases Nat.lt_or_eq_of_le hq with hq | rfl
  · unfold units
    rw [if_neg (hHigh e q), Nat.mul_comm (e + 1), Nat.mul_add_mod, mod_eq_of_lt hq, Nat.mul_add_div hPos, div_eq_of_lt hq, Nat.add_comm q]
    rfl
  · have hNext : (e + 1) * 2 ^ p + 2 ^ p = (e + 1 + 1) * 2 ^ p + 0 := by ring
    unfold units
    rw [hNext, if_neg (hHigh (e + 1) 0), Nat.add_zero, Nat.mul_mod_left, Nat.mul_div_cancel _ hPos, Nat.add_sub_cancel]
    ring

theorem units_succ (p n : ℕ) : units p (n + 1) = units p n + 2 ^ (n / 2 ^ p - 1) := by
  have hPos : 0 < 2 ^ p := Nat.two_pow_pos p
  rcases Nat.lt_or_ge n (2 ^ p) with hLow | hHigh
  · have hPow : 2 ^ (p + 1) = 2 ^ p * 2 := Nat.pow_succ ..
    rw [units_of_lt (show n + 1 < 2 ^ (p + 1) by omega), units_of_lt (show n < 2 ^ (p + 1) by omega), div_eq_of_lt hLow]
    rfl
  · obtain ⟨e, he⟩ : ∃ e, n / 2 ^ p = e + 1 := exists_eq_succ_of_ne_zero (div_pos hHigh hPos).ne'
    have hParts : n = (e + 1) * 2 ^ p + n % 2 ^ p := by
      rw [← he, Nat.mul_comm]
      exact (Nat.div_add_mod n (2 ^ p)).symm
    have hMod := mod_lt n hPos
    have hHere := units_scale e hMod.le
    have hNext := units_scale e (show n % 2 ^ p + 1 ≤ 2 ^ p from hMod)
    rw [← hParts] at hHere
    rw [← add_assoc, ← hParts] at hNext
    rw [hHere, hNext, he, Nat.add_sub_cancel]
    ring

theorem units_strictMono (p : ℕ) : StrictMono (units p) :=
  strictMono_nat_of_lt_succ fun n => by
    rw [units_succ]
    exact Nat.lt_add_of_pos_right (Nat.two_pow_pos _)

theorem units_gap (h : n < n') (he : e ≤ n / 2 ^ p - 1) : units p n + 2 ^ e ≤ units p n' := by
  have hNext := (units_strictMono p).monotone (succ_le_of_lt h)
  rw [succ_eq_add_one, units_succ] at hNext
  exact (Nat.add_le_add_left (Nat.pow_le_pow_right (by decide) he) _).trans hNext

theorem units_gap_below (h : n' < n) (he : e ≤ (n - 1) / 2 ^ p - 1) : units p n' + 2 ^ e ≤ units p n := by
  have hLast := (units_strictMono p).monotone (show n' ≤ n - 1 by omega)
  have hNext := units_succ p (n - 1)
  have hPow : 2 ^ e ≤ 2 ^ ((n - 1) / 2 ^ p - 1) := Nat.pow_le_pow_right (by decide) he
  rw [Nat.sub_add_cancel (show 1 ≤ n by omega)] at hNext
  omega

/-! ## Rounding -/

/-- `v / 2 ^ s`, rounded to the nearest number, and to the even one of two. -/
def roundShift (v s : ℕ) : ℕ :=
  v / 2 ^ s + if 2 ^ s < 2 * (v % 2 ^ s) ∨ (2 * (v % 2 ^ s) = 2 ^ s ∧ v / 2 ^ s % 2 = 1) then 1 else 0

theorem roundShift_succ (v s : ℕ) : roundShift v (s + 1) =
    v / 2 ^ (s + 1) + if 2 ^ s < v % 2 ^ (s + 1) ∨ (v % 2 ^ (s + 1) = 2 ^ s ∧ v / 2 ^ (s + 1) % 2 = 1) then 1 else 0 := by
  have hPow : 2 ^ (s + 1) = 2 * 2 ^ s := pow_succ'
  unfold roundShift
  congr 1
  exact if_congr (by omega) rfl rfl

theorem roundShift_near (v s : ℕ) : 2 * Nat.dist v (roundShift v s * 2 ^ s) ≤ 2 ^ s ∧
    (2 * Nat.dist v (roundShift v s * 2 ^ s) = 2 ^ s → roundShift v s % 2 = 0) := by
  have hPos : 0 < 2 ^ s := Nat.two_pow_pos s
  have hParts := Nat.div_add_mod v (2 ^ s)
  have hMod := mod_lt v hPos
  rw [Nat.mul_comm] at hParts
  unfold roundShift Nat.dist
  split
  · rename_i hUp
    rw [Nat.add_mul, Nat.one_mul]
    omega
  · rename_i hDown
    rw [Nat.add_zero]
    omega

/-- Where a number with `p + 1` significant bits is cut, but not below the units. -/
def cut (p k v : ℕ) : ℕ := max k (v.log2 - p)

/-- The pattern for `v`, a number of units divided by `2 ^ k`. -/
def round (p k v : ℕ) : ℕ := roundShift v (cut p k v) + (cut p k v - k) * 2 ^ p

/-- Of all patterns none is closer, and none is as close unless this one is even. -/
structure IsNearest (p k v n : ℕ) : Prop where
  le : ∀ n', Nat.dist v (units p n * 2 ^ k) ≤ Nat.dist v (units p n' * 2 ^ k)
  even : ∀ n' ≠ n, Nat.dist v (units p n * 2 ^ k) = Nat.dist v (units p n' * 2 ^ k) → n % 2 = 0

theorem units_of_le (h : n ≤ 2 ^ (p + 1)) : units p n = n := by
  rcases Nat.lt_or_eq_of_le h with h | rfl
  · exact units_of_lt h
  · have hScale := units_scale (p := p) 1 (Nat.zero_le _)
    have hPow : 2 ^ (p + 1) = 2 ^ p * 2 := Nat.pow_succ ..
    rw [Nat.add_zero, Nat.add_zero, Nat.mul_comm] at hScale
    rw [hPow]
    exact hScale

theorem roundShift_le (h : v < 2 ^ (s + e)) : roundShift v s ≤ 2 ^ e := by
  have hDiv : v / 2 ^ s < 2 ^ e := (Nat.div_lt_iff_lt_mul (Nat.two_pow_pos s)).mpr (by rwa [← Nat.pow_add, Nat.add_comm])
  unfold roundShift
  split <;> omega

theorem le_roundShift (h : 2 ^ (s + e) ≤ v) : 2 ^ e ≤ roundShift v s := by
  have hDiv : 2 ^ e ≤ v / 2 ^ s := (Nat.le_div_iff_mul_le (Nat.two_pow_pos s)).mpr (by rwa [← Nat.pow_add, Nat.add_comm])
  exact hDiv.trans (Nat.le_add_right _ _)

theorem roundShift_cut (p k v : ℕ) : roundShift v (cut p k v) ≤ 2 ^ (p + 1) ∧ (k < cut p k v → 2 ^ (cut p k v + p) ≤ v) := by
  constructor
  · have hLog : v < 2 ^ (v.log2 + 1) := lt_log2_self
    refine roundShift_le (hLog.trans_le (Nat.pow_le_pow_right (by decide) ?_))
    unfold cut
    omega
  · intro hCut
    have hSome : v ≠ 0 := fun h => by
      rw [h, cut, Nat.log2_zero] at hCut
      omega
    refine (Nat.le_log2 hSome).mp ?_
    unfold cut at hCut ⊢
    omega

theorem units_round (p k v : ℕ) : units p (round p k v) * 2 ^ k = roundShift v (cut p k v) * 2 ^ cut p k v := by
  obtain ⟨hLe, hFull⟩ := roundShift_cut p k v
  have hCut : k ≤ cut p k v := le_max_left ..
  unfold round
  rcases Nat.lt_or_eq_of_le hCut with hAbove | hSame
  · have hFull := le_roundShift (hFull hAbove)
    have hPow : 2 ^ (p + 1) = 2 ^ p * 2 := Nat.pow_succ ..
    have hPattern : roundShift v (cut p k v) + (cut p k v - k) * 2 ^ p = (cut p k v - k + 1) * 2 ^ p + (roundShift v (cut p k v) - 2 ^ p) := by
      rw [Nat.add_mul, Nat.one_mul]
      omega
    rw [hPattern, units_scale _ (by omega), Nat.mul_assoc, ← Nat.pow_add, Nat.sub_add_cancel hCut, Nat.add_sub_cancel' hFull]
  · rw [← hSame, Nat.sub_self, Nat.zero_mul, Nat.add_zero, units_of_le (by rwa [← hSame] at hLe)]

theorem round_away (k v : ℕ) (hNe : n' ≠ round p k v) : 2 ^ cut p k v ≤ 2 * Nat.dist v (units p n' * 2 ^ k) := by
  obtain ⟨hLe, hFull⟩ := roundShift_cut p k v
  have hNear := (roundShift_near v (cut p k v)).1
  have hCut : k ≤ cut p k v := le_max_left ..
  have hUnits := units_round p k v
  obtain ⟨d, hd⟩ := Nat.exists_eq_add_of_le hCut
  have hRound : round p k v = roundShift v (cut p k v) + d * 2 ^ p := by rw [round, hd, Nat.add_sub_cancel_left]
  have hPlace : ∀ a b e : ℕ, a + 2 ^ e ≤ b → a * 2 ^ k + 2 ^ (k + e) ≤ b * 2 ^ k := fun a b e h => by
    rw [Nat.pow_add, Nat.mul_comm (2 ^ k), ← Nat.add_mul]
    exact mul_le_mul_right _ h
  have hPos : 0 < 2 ^ p := Nat.two_pow_pos p
  have hExponent : ∀ n, d ≠ 0 → (d + 1) * 2 ^ p ≤ n → d ≤ n / 2 ^ p - 1 := fun n _ h => by
    have hDiv := (Nat.le_div_iff_mul_le hPos).mpr h
    omega
  have hSucc : (d + 1) * 2 ^ p = d * 2 ^ p + 2 ^ p := by rw [Nat.add_mul, Nat.one_mul]
  have hFullPlace : d ≠ 0 → 2 ^ p ≤ roundShift v (cut p k v) := fun h => le_roundShift (hFull (by omega))
  rcases Nat.lt_or_gt_of_ne hNe with hBelow | hAbove
  · by_cases hFirst : d ≠ 0 ∧ roundShift v (cut p k v) = 2 ^ p
    · -- Below a power of two the patterns are closer, but `v` is not there.
      have hTop := hFull (by omega)
      have hDiv : (round p k v - 1) / 2 ^ p = d := (Nat.div_eq_iff hPos).mpr (by omega)
      have hGap := hPlace _ _ _ (units_gap_below (p := p) (e := d - 1) hBelow (by rw [hDiv]))
      have hHalf : 2 ^ cut p k v = 2 ^ (k + (d - 1)) * 2 := by
        rw [← Nat.pow_succ]
        congr 1
        omega
      rw [Nat.pow_add, Nat.mul_comm, ← hFirst.2, ← hUnits] at hTop
      unfold Nat.dist
      omega
    · have hGap := hPlace _ _ _ (units_gap_below (p := p) (e := d) hBelow (by
        by_cases hZero : d = 0
        · omega
        · have hHere := hFullPlace hZero
          exact hExponent _ hZero (by omega)))
      rw [hUnits, ← hd] at hGap
      unfold Nat.dist at hNear ⊢
      omega
  · have hGap := hPlace _ _ _ (units_gap (p := p) (e := d) hAbove (by
      by_cases hZero : d = 0
      · omega
      · have hHere := hFullPlace hZero
        exact hExponent _ hZero (by omega)))
    rw [hUnits, ← hd] at hGap
    unfold Nat.dist at hNear ⊢
    omega

theorem round_isNearest (hp : 0 < p) (k v : ℕ) : IsNearest p k v (round p k v) := by
  obtain ⟨hLe, hFull⟩ := roundShift_cut p k v
  obtain ⟨hNear, hTie⟩ := roundShift_near v (cut p k v)
  have hCut : k ≤ cut p k v := le_max_left ..
  have hUnits := units_round p k v
  have hAway : ∀ n' ≠ round p k v, 2 ^ cut p k v ≤ 2 * Nat.dist v (units p n' * 2 ^ k) := fun n' hNe => round_away k v hNe
  rw [← hUnits] at hNear hTie
  constructor
  · intro n'
    by_cases hSame : n' = round p k v
    · rw [hSame]
    · have hOther := hAway n' hSame
      omega
  · intro n' hNe hDist
    have hOther := hAway n' hNe
    have hEven := hTie (by omega)
    obtain ⟨p', rfl⟩ := exists_eq_succ_of_ne_zero hp.ne'
    rw [round, Nat.pow_succ, ← Nat.mul_assoc, add_mul_mod_self_right]
    exact hEven

theorem IsNearest.unique (h : IsNearest p k v n) (h' : IsNearest p k v n') : n = n' := by
  by_contra hNe
  have hEven := h.even n' (Ne.symm hNe) (Nat.le_antisymm (h.le n') (h'.le n))
  have hEven' := h'.even n hNe (Nat.le_antisymm (h'.le n) (h.le n'))
  -- Between two even patterns there is one that is closer.
  have hMono := (units_strictMono p).mul_const (Nat.two_pow_pos k)
  rcases Nat.lt_or_gt_of_ne hNe with hLt | hLt
  · have hLow := hMono (show n < n + 1 by omega)
    have hHigh := hMono (show n + 1 < n' by omega)
    have hBetween := h.le (n + 1)
    have hBetween' := h'.le (n + 1)
    dsimp only at hLow hHigh
    unfold Nat.dist at hBetween hBetween'
    omega
  · have hLow := hMono (show n' < n' + 1 by omega)
    have hHigh := hMono (show n' + 1 < n by omega)
    have hBetween := h.le (n' + 1)
    have hBetween' := h'.le (n' + 1)
    dsimp only at hLow hHigh
    unfold Nat.dist at hBetween hBetween'
    omega

theorem round_units (hp : 0 < p) (k n : ℕ) : round p k (units p n * 2 ^ k) = n := by
  have hNear := (round_isNearest hp k (units p n * 2 ^ k)).le n
  rw [dist_self] at hNear
  have hSame := eq_of_dist_eq_zero (Nat.le_zero.mp hNear)
  exact ((units_strictMono p).injective (Nat.eq_of_mul_eq_mul_right (Nat.two_pow_pos k) hSame)).symm

theorem le_round_iff (hp : 0 < p) (k v : ℕ) (hn : 0 < n) :
    n ≤ round p k v ↔ (units p (n - 1) + units p n) * 2 ^ k < 2 * v ∨ (units p (n - 1) + units p n) * 2 ^ k = 2 * v ∧ n % 2 = 0 := by
  have hNear := round_isNearest hp k v
  have hMono := (units_strictMono p).mul_const (Nat.two_pow_pos k)
  have hBelow := hMono (show n - 1 < n by omega)
  rw [Nat.add_mul]
  constructor
  · intro hLe
    have hAbove := hMono.monotone hLe
    have hClose := hNear.le (n - 1)
    have hEven := hNear.even (n - 1) (by omega)
    dsimp only at hBelow hAbove
    rcases Nat.lt_or_eq_of_le hLe with hLt | hSame
    · have hFar := hMono hLt
      dsimp only at hFar
      unfold Nat.dist at hClose
      omega
    · rw [← hSame] at hClose hEven
      unfold Nat.dist at hClose hEven
      omega
  · intro hMiddle
    by_contra hNot
    have hAbove := hMono.monotone (show round p k v ≤ n - 1 by omega)
    have hClose := hNear.le n
    have hEven := hNear.even n (by omega)
    dsimp only at hBelow hAbove
    rcases Nat.lt_or_eq_of_le (show round p k v ≤ n - 1 by omega) with hLt | hSame
    · have hFar := hMono hLt
      dsimp only at hFar
      unfold Nat.dist at hClose
      omega
    · rw [hSame] at hClose hEven
      unfold Nat.dist at hClose hEven
      omega

theorem roundShift_mul (v s j : ℕ) : roundShift (v * 2 ^ j) (s + j) = roundShift v s := by
  have hPos : 0 < 2 ^ j := Nat.two_pow_pos j
  have hLess : ∀ a b : ℕ, a * 2 ^ j < b * 2 ^ j ↔ a < b := fun a b => Nat.mul_lt_mul_right hPos
  have hSame : ∀ a b : ℕ, a * 2 ^ j = b * 2 ^ j ↔ a = b := fun a b => Nat.mul_left_inj hPos.ne'
  unfold roundShift
  rw [Nat.pow_add, Nat.mul_div_mul_right _ _ hPos, Nat.mul_mod_mul_right, ← Nat.mul_assoc]
  simp only [hLess, hSame]

theorem roundShift_add (v s : ℕ) {a : ℕ} (ha : a % 2 = 0) : roundShift (a * 2 ^ s + v) s = a + roundShift v s := by
  have hDiv : (a * 2 ^ s + v) / 2 ^ s = a + v / 2 ^ s := by
    rw [Nat.mul_comm, Nat.mul_add_div (Nat.two_pow_pos s)]
  have hMod : (a * 2 ^ s + v) % 2 ^ s = v % 2 ^ s := by rw [Nat.mul_comm, Nat.mul_add_mod]
  have hParity : (a + v / 2 ^ s) % 2 = v / 2 ^ s % 2 := by omega
  unfold roundShift
  rw [hDiv, hMod, hParity, add_assoc]

theorem roundShift_eq_zero (h : 2 * v ≤ 2 ^ s) : roundShift v s = 0 := by
  have hPos : 0 < 2 ^ s := Nat.two_pow_pos s
  unfold roundShift
  rw [div_eq_of_lt (by omega), mod_eq_of_lt (by omega), if_neg (by omega)]

theorem cut_eq (h : 2 ^ (p + s) ≤ v) (h' : v < 2 ^ (p + s + 1)) : cut p k v = max k s := by
  have hSome : v ≠ 0 := (Nat.two_pow_pos _).trans_le h |>.ne'
  have hLog : v.log2 = p + s := Nat.le_antisymm (Nat.le_of_lt_succ ((Nat.log2_lt hSome).mpr h')) ((Nat.le_log2 hSome).mpr h)
  unfold cut
  rw [hLog, Nat.add_sub_cancel_left]

theorem cut_of_lt (h : v < 2 ^ (k + p + 1)) : cut p k v = k := by
  unfold cut
  rcases Nat.eq_zero_or_pos v with rfl | hSome
  · rw [Nat.log2_zero]
    omega
  · have hLog := (Nat.log2_lt hSome.ne').mpr h
    omega

theorem roundShift_exact (v s : ℕ) : roundShift (v * 2 ^ s) s = v := by
  have hPos : 0 < 2 ^ s := Nat.two_pow_pos s
  unfold roundShift
  rw [Nat.mul_div_cancel v hPos, Nat.mul_mod_left, if_neg (by omega), Nat.add_zero]

variable {j : ℕ}

theorem units_round_exact {m : ℕ} (hm : m < 2 ^ (p + 1)) (hj : k ≤ j) : units p (round p k (m * 2 ^ j)) * 2 ^ k = m * 2 ^ j := by
  have hCut : cut p k (m * 2 ^ j) ≤ j := by
    unfold cut
    rcases Nat.eq_zero_or_pos m with rfl | hSome
    · rw [Nat.zero_mul, Nat.log2_zero]
      omega
    · have hLog : (m * 2 ^ j).log2 < p + 1 + j := (Nat.log2_lt (Nat.mul_pos hSome (Nat.two_pow_pos j)).ne').mpr
        (by rw [Nat.pow_add]; exact Nat.mul_lt_mul_of_pos_right hm (Nat.two_pow_pos j))
      omega
  have hSplit : m * 2 ^ j = m * 2 ^ (j - cut p k (m * 2 ^ j)) * 2 ^ cut p k (m * 2 ^ j) := by
    rw [Nat.mul_assoc, ← Nat.pow_add, Nat.sub_add_cancel hCut]
  have hExact : roundShift (m * 2 ^ j) (cut p k (m * 2 ^ j)) = m * 2 ^ (j - cut p k (m * 2 ^ j)) :=
    (congrArg (roundShift · (cut p k (m * 2 ^ j))) hSplit).trans (roundShift_exact ..)
  rw [units_round, hExact, ← hSplit]

theorem units_round_shifted {m : ℕ} (hm : m < 2 ^ (p + 1)) (i j : ℕ) : units p (round p 0 (m * 2 ^ i * 2 ^ j)) = m * 2 ^ i * 2 ^ j := by
  have hExact := units_round_exact (p := p) (k := 0) hm (Nat.zero_le (i + j))
  rwa [pow_zero, mul_one, Nat.pow_add, ← Nat.mul_assoc] at hExact

theorem units_round_full {i : ℕ} (h : 2 ^ (p + i) ≤ v) (h' : v < 2 ^ (p + i + 1)) (j : ℕ) :
    units p (round p 0 (v * 2 ^ j)) = roundShift v i * 2 ^ i * 2 ^ j := by
  have hLow : 2 ^ (p + (i + j)) ≤ v * 2 ^ j := by
    rw [← add_assoc, Nat.pow_add]
    exact mul_le_mul_right _ h
  have hHigh : v * 2 ^ j < 2 ^ (p + (i + j) + 1) := by
    rw [show p + (i + j) + 1 = p + i + 1 + j by omega, Nat.pow_add]
    exact Nat.mul_lt_mul_of_pos_right h' (Nat.two_pow_pos j)
  have hUnits := units_round p 0 (v * 2 ^ j)
  rw [cut_eq hLow hHigh, zero_max, roundShift_mul, pow_zero, mul_one, Nat.pow_add, ← Nat.mul_assoc] at hUnits
  exact hUnits

def significant (p a : ℕ) : ℕ := roundShift a (cut p 0 a) * 2 ^ cut p 0 a

theorem units_round_significant (p a j : ℕ) : units p (round p 0 (a * 2 ^ j)) = significant p a * 2 ^ j := by
  unfold significant
  rcases Nat.lt_or_ge a (2 ^ (p + 1)) with hFew | hMany
  · have hZero := units_round_shifted hFew 0 j
    have hSame := roundShift_exact a 0
    rw [pow_zero, mul_one] at hSame hZero
    rw [cut_of_lt (by rwa [zero_add]), hSame, pow_zero, mul_one, hZero]
  · have hSome : a ≠ 0 := ((Nat.two_pow_pos _).trans_le hMany).ne'
    have hLog := (Nat.le_log2 hSome).mpr hMany
    obtain ⟨i, hi⟩ := Nat.exists_eq_add_of_le (show p ≤ a.log2 by omega)
    have hLow : 2 ^ (p + i) ≤ a := (Nat.le_log2 hSome).mp hi.ge
    have hHigh : a < 2 ^ (p + i + 1) := (Nat.log2_lt hSome).mp (by omega)
    rw [units_round_full hLow hHigh, cut_eq hLow hHigh, zero_max]

theorem significant_iff (p a : ℕ) : significant p a = a ↔ ∃ m j, a = m * 2 ^ j ∧ m < 2 ^ (p + 1) := by
  have hUnits := units_round p 0 a
  rw [pow_zero, mul_one] at hUnits
  change _ = significant p a at hUnits
  constructor
  · intro hSame
    rcases Nat.lt_or_eq_of_le (roundShift_cut p 0 a).1 with hLess | hFull
    · exact ⟨_, _, hSame.symm, hLess⟩
    · refine ⟨1, p + 1 + cut p 0 a, ?_, Nat.one_lt_two_pow (by omega)⟩
      rw [Nat.one_mul, Nat.pow_add, ← hFull]
      exact hSame.symm
  · rintro ⟨m, j, rfl, hm⟩
    have hExact := units_round_exact (p := p) (k := 0) hm (Nat.zero_le j)
    rw [pow_zero, mul_one] at hExact
    exact hUnits.symm.trans hExact

/-! ## Powers of two -/

def power (p j : ℕ) : ℕ := if j < p then 2 ^ j else (j - p + 1) * 2 ^ p

theorem units_power (p j : ℕ) : units p (power p j) = 2 ^ j := by
  unfold power
  split
  · rename_i hLow
    exact units_of_lt (Nat.pow_lt_pow_right (by decide) (by omega))
  · rename_i hHigh
    have hScale := units_scale (p := p) (j - p) (Nat.zero_le _)
    rw [Nat.add_zero (2 ^ p), ← Nat.pow_add, show p + (j - p) = j by omega] at hScale
    exact hScale

theorem units_below_power (p i : ℕ) : units p (power p (p + 1 + i) - 1) + 2 ^ i = 2 ^ (p + 1 + i) := by
  have hPos : 0 < 2 ^ p := Nat.two_pow_pos p
  have hPower : power p (p + 1 + i) = (i + 1) * 2 ^ p + 2 ^ p := by
    rw [power, if_neg (by omega), show p + 1 + i - p + 1 = i + 1 + 1 by omega, Nat.add_mul, Nat.one_mul]
  have hDiv : (power p (p + 1 + i) - 1) / 2 ^ p = i + 1 := (Nat.div_eq_iff hPos).mpr (by omega)
  have hSucc := units_succ p (power p (p + 1 + i) - 1)
  rw [Nat.sub_add_cancel (by omega), units_power, hDiv, Nat.add_sub_cancel] at hSucc
  exact hSucc.symm

theorem round_power (hp : 0 < p) (k j : ℕ) : round p k (2 ^ (j + k)) = power p j := by
  rw [Nat.pow_add, ← units_power p j, round_units hp]

theorem power_strictMono (p : ℕ) : StrictMono (power p) := fun i j h =>
  (units_strictMono p).lt_iff_lt.mp (by rw [units_power, units_power]; exact Nat.pow_lt_pow_right (by decide) h)

theorem round_mono (hp : 0 < p) (k : ℕ) : Monotone (round p k) := by
  intro v v' hLe
  rcases Nat.eq_zero_or_pos (round p k v) with hZero | hPos
  · exact hZero ▸ Nat.zero_le _
  · refine (le_round_iff hp k v' hPos).mpr ?_
    rcases (le_round_iff hp k v hPos).mp le_rfl with h | ⟨h, hEven⟩
    · exact .inl (by omega)
    · rcases Nat.lt_or_eq_of_le hLe with hLt | rfl
      · exact .inl (by omega)
      · exact .inr ⟨h, hEven⟩

theorem power_pos (p j : ℕ) : 0 < power p j := by
  unfold power
  split
  · exact Nat.two_pow_pos _
  · exact Nat.mul_pos (Nat.succ_pos _) (Nat.two_pow_pos _)

theorem round_pos (hp : 0 < p) (h : 2 ^ k ≤ v) : 0 < round p k v := by
  have hOne := round_power hp k 0
  rw [zero_add] at hOne
  exact (power_pos p 0).trans_le (hOne.symm.trans_le (round_mono hp k h))

theorem round_le_power (hp : 0 < p) (h : v ≤ 2 ^ (j + k)) : round p k v ≤ power p j :=
  (round_mono hp k h).trans_eq (round_power hp k j)

theorem power_le_round (hp : 0 < p) (h : 2 ^ (j + k) ≤ v) : power p j ≤ round p k v :=
  (round_power hp k j).symm.trans_le (round_mono hp k h)

theorem two_mul_pow_le {i : ℕ} (h : i < j) : 2 * 2 ^ i ≤ 2 ^ j := by
  rw [← pow_succ']
  exact Nat.pow_le_pow_right (by decide) h

theorem exists_leading (hv : 0 < v) (h : v < 2 ^ (p + 1)) : ∃ j ≤ p, 2 ^ p ≤ v * 2 ^ j ∧ v * 2 ^ j < 2 ^ (p + 1) := by
  have hLog := (Nat.log2_lt hv.ne').mpr h
  have hHigh : v < 2 ^ (v.log2 + 1) := lt_log2_self
  refine ⟨p - v.log2, by omega, ?_, ?_⟩
  · have hProduct := mul_le_mul_right (2 ^ (p - v.log2)) (log2_self_le hv.ne')
    rwa [← Nat.pow_add, show v.log2 + (p - v.log2) = p by omega] at hProduct
  · have hProduct := Nat.mul_lt_mul_of_pos_right hHigh (Nat.two_pow_pos (p - v.log2))
    rwa [← Nat.pow_add, show v.log2 + 1 + (p - v.log2) = p + 1 by omega] at hProduct

theorem units_eq (p n : ℕ) : units p n = (n % 2 ^ p + if n / 2 ^ p = 0 then 0 else 2 ^ p) * 2 ^ (n / 2 ^ p - 1) := by
  unfold units
  congr 2
  exact if_congr (Nat.div_eq_zero_iff_lt (Nat.two_pow_pos p)).symm rfl rfl

end Exemu.Binary
