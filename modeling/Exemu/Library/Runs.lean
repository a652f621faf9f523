import Mathlib.Algebra.Order.Ring.Nat
import Mathlib.Data.Nat.Count

/-! # Counting bits

The counts of zeros and ones at the ends of a word, and what they are for a word whose ones are in
one run.
-/
namespace Exemu.Runs

variable {w : Nat}

def trailingZeros (x : BitVec w) : Nat := ((List.range w).takeWhile fun i => !x.getLsbD i).length

def leadingZeros (x : BitVec w) : Nat := ((List.range w).takeWhile fun i => !x.getLsbD (w - 1 - i)).length

def trailingOnes (x : BitVec w) : Nat := ((List.range w).takeWhile fun i => x.getLsbD i).length

def countOnes (x : BitVec w) : Nat := (List.range w).countP fun i => x.getLsbD i

/-- The ones are those from `a` on below `b`. -/
def Run (x : BitVec w) (a b : Nat) : Prop := ∀ i < w, x.getLsbD i = decide (a ≤ i ∧ i < b)

section Ranges

variable {p : Nat → Bool}

theorem length_takeWhile_range' {m n start : Nat} (hAll : ∀ i < m, p (start + i) = true) (hm : m ≤ n) (hStop : m < n → p (start + m) = false) :
    ((List.range' start n).takeWhile p).length = m := by
  induction n generalizing start m with
  | zero => exact (Nat.le_zero.mp hm).symm
  | succ n ih =>
    rw [List.range'_succ, List.takeWhile_cons]
    cases m with
    | zero =>
      have hHere : p start = false := hStop (Nat.zero_lt_succ n)
      rw [if_neg (by rw [hHere]; exact Bool.false_ne_true), List.length_nil]
    | succ m =>
      have hHere : p start = true := hAll 0 (Nat.zero_lt_succ m)
      rw [if_pos hHere, List.length_cons]
      refine congrArg Nat.succ (ih (fun i hi => ?_) (Nat.le_of_succ_le_succ hm) fun hLess => ?_)
      · rw [Nat.add_right_comm]
        exact hAll (i + 1) (Nat.succ_lt_succ hi)
      · rw [Nat.add_right_comm]
        exact hStop (Nat.succ_lt_succ hLess)

theorem length_takeWhile_range {m n : Nat} (hAll : ∀ i < m, p i = true) (hm : m ≤ n) (hStop : m < n → p m = false) :
    ((List.range n).takeWhile p).length = m := by
  rw [List.range_eq_range']
  refine length_takeWhile_range' (fun i hi => ?_) hm fun hLess => ?_
  · rw [Nat.zero_add]
    exact hAll i hi
  · rw [Nat.zero_add]
    exact hStop hLess

theorem countP_range_between {a b n : Nat} : (List.range n).countP (fun i => decide (a ≤ i ∧ i < b)) = min b n - min a n := by
  induction n with
  | zero =>
    rw [List.range_zero, List.countP_nil]
    omega
  | succ n ih =>
    rw [List.range_succ, List.countP_append, ih, List.countP_singleton]
    split
    · rename_i hHere
      have hIn := of_decide_eq_true hHere
      omega
    · rename_i hOther
      have hOut : ¬(a ≤ n ∧ n < b) := fun h => hOther (decide_eq_true h)
      omega

end Ranges

section Run

variable {x : BitVec w} {a b : Nat}

theorem trailingZeros_run (hRun : Run x a b) (hSome : a < b) (hb : b ≤ w) : trailingZeros x = a := by
  refine length_takeWhile_range (fun i hi => ?_) (by omega) fun hLess => ?_
  · rw [hRun i (by omega), decide_eq_false (by omega), Bool.not_false]
  · rw [hRun a hLess, decide_eq_true ⟨le_refl a, hSome⟩, Bool.not_true]

theorem leadingZeros_run (hRun : Run x a b) (hSome : a < b) (hb : b ≤ w) : leadingZeros x = w - b := by
  refine length_takeWhile_range (fun i hi => ?_) (by omega) fun hLess => ?_
  · rw [hRun _ (by omega), decide_eq_false (by omega), Bool.not_false]
  · rw [hRun _ (by omega), decide_eq_true (by omega), Bool.not_true]

theorem countOnes_run (hRun : Run x a b) (hb : b ≤ w) : countOnes x = b - a := by
  have hSame : countOnes x = (List.range w).countP fun i => decide (a ≤ i ∧ i < b) :=
    List.countP_congr fun i hi => by rw [hRun i (List.mem_range.mp hi)]
  rw [hSame, countP_range_between]
  omega

theorem run_ushiftRight (hRun : Run x a b) (hb : b ≤ w) : Run (x >>> a) 0 (b - a) := by
  intro i hi
  rw [BitVec.getLsbD_ushiftRight]
  rcases Nat.lt_or_ge (a + i) w with hIn | hOut
  · rw [hRun _ hIn]
    exact decide_eq_decide.mpr (by omega)
  · rw [BitVec.getLsbD_of_ge _ _ hOut, decide_eq_false (by omega)]

theorem trailingOnes_run (hRun : Run x 0 b) (hb : b ≤ w) : trailingOnes x = b := by
  refine length_takeWhile_range (fun i hi => ?_) hb fun hLess => ?_
  · rw [hRun i (by omega), decide_eq_true (by omega)]
  · rw [hRun b hLess, decide_eq_false (by omega)]

end Run
end Exemu.Runs

/-! # Bits by rank

The bits at the places of a mask are numbered by how many places the mask has below. One
operation moves them together to their numbers, another moves them from their numbers apart.
-/
namespace Exemu.Scatter

def rank (m : Nat → Bool) (i : Nat) : Nat := Nat.count (fun j => m j = true) i

/-- The bits at the places of the mask below `n`, moved together. -/
def packed (n : Nat) (x m : Nat → Bool) (k : Nat) : Bool := decide (∃ i < n, m i = true ∧ rank m i = k ∧ x i = true)

def spread (x m : Nat → Bool) (i : Nat) : Bool := m i && x (rank m i)

variable {x m : Nat → Bool} {n i j k : Nat}

theorem rank_succ (m : Nat → Bool) (i : Nat) : rank m (i + 1) = rank m i + if m i = true then 1 else 0 := Nat.count_succ _ i

theorem rank_le (m : Nat → Bool) (i : Nat) : rank m i ≤ i := Nat.count_le _

theorem packed_iff : packed n x m k = true ↔ ∃ i < n, m i = true ∧ rank m i = k ∧ x i = true := decide_eq_true_iff

theorem exists_of_lt_rank (h : k < rank m n) : ∃ i < n, m i = true ∧ rank m i = k := by
  induction n with
  | zero => exact absurd h (Nat.not_lt_zero k)
  | succ n ih =>
    rw [rank_succ] at h
    split at h
    · rename_i hOn
      rcases Nat.lt_succ_iff_lt_or_eq.mp h with hBelow | rfl
      · obtain ⟨i, hi, hPlace⟩ := ih hBelow
        exact ⟨i, Nat.lt_succ_of_lt hi, hPlace⟩
      · exact ⟨n, Nat.lt_succ_self n, hOn, rfl⟩
    · obtain ⟨i, hi, hPlace⟩ := ih h
      exact ⟨i, Nat.lt_succ_of_lt hi, hPlace⟩

theorem rank_lt (hi : i < n) (hOn : m i = true) : rank m i < rank m n := Nat.count_strict_mono hOn hi

theorem spread_packed (x m : Nat → Bool) (hi : i < n) : spread (packed n x m) m i = (m i && x i) := by
  unfold spread
  cases hOn : m i with
  | false => rfl
  | true =>
    rw [Bool.true_and, Bool.true_and, Bool.eq_iff_iff, packed_iff]
    constructor
    · rintro ⟨j, -, hOn', hSame, hx⟩
      rwa [Nat.count_injective hOn' hOn hSame] at hx
    · intro hx
      exact ⟨i, hi, hOn, rfl, hx⟩

theorem packed_spread (n : Nat) (x m : Nat → Bool) (k : Nat) : packed n (spread x m) m k = (decide (k < rank m n) && x k) := by
  rw [Bool.eq_iff_iff, packed_iff, Bool.and_eq_true, decide_eq_true_iff]
  constructor
  · rintro ⟨i, hi, hOn, rfl, hx⟩
    exact ⟨rank_lt hi hOn, (Bool.and_eq_true_iff.mp hx).2⟩
  · rintro ⟨hk, hx⟩
    obtain ⟨i, hi, hOn, rfl⟩ := exists_of_lt_rank hk
    exact ⟨i, hi, hOn, rfl, Bool.and_eq_true_iff.mpr ⟨hOn, hx⟩⟩

end Exemu.Scatter
