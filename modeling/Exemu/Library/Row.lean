import Mathlib.Algebra.Order.Ring.Nat
import Mathlib.Data.List.Basic

/-! # Rows that move by one place

A row of `n` entries, the lowest first. Everything moves by one place, an entry comes in at one
end and another one leaves at the other.
-/
namespace Exemu.Row

universe u

variable {α : Type u} {n : Nat} {f g : Nat → α} {x : α}

/-- The row of the first `n` values. -/
def of (n : Nat) (f : Nat → α) : List α := (List.range n).map f

def up (x : α) (row : List α) : List α := (x :: row).dropLast

def down (row : List α) (x : α) : List α := (row ++ [x]).tail

def first [Inhabited α] (row : List α) : α := row.head?.getD default

def last [Inhabited α] (row : List α) : α := row.getLast?.getD default

@[simp] theorem length_of (n : Nat) (f : Nat → α) : (of n f).length = n := by simp [of]

theorem of_congr (h : ∀ i < n, f i = g i) : of n f = of n g :=
  List.map_congr_left fun i hi => h i (List.mem_range.mp hi)

theorem getElem?_of {i : Nat} (hi : i < n) : (of n f)[i]? = some (f i) := by simp [of, hi]

theorem of_injective (h : of n f = of n g) {i : Nat} (hi : i < n) : f i = g i :=
  Option.some.inj ((getElem?_of hi).symm.trans ((congrArg (fun row => row[i]?) h).trans (getElem?_of hi)))

theorem last_of [Inhabited α] (f : Nat → α) (hn : 0 < n) : last (of n f) = f (n - 1) := by
  unfold last
  rw [List.getLast?_eq_getElem?, length_of, getElem?_of (by omega)]
  rfl

theorem first_of [Inhabited α] (f : Nat → α) (hn : 0 < n) : first (of n f) = f 0 := by
  unfold first
  rw [List.head?_eq_getElem?, getElem?_of hn]
  rfl

theorem dropLast_of (f : Nat → α) : (of n f).dropLast = of (n - 1) f := by
  unfold of
  rw [List.dropLast_eq_take, List.length_map, List.length_range, ← List.map_take, List.take_range, Nat.min_eq_left (Nat.sub_le n 1)]

theorem up_of (f : Nat → α) (x : α) : up x (of n f) = of n fun i => if i = 0 then x else f (i - 1) := by
  have hLength : (up x (of n f)).length = n := by simp only [up, List.length_dropLast, List.length_cons, length_of, Nat.add_sub_cancel]
  refine List.ext_getElem? fun i => ?_
  rcases Nat.lt_or_ge i n with hi | hi
  · rw [getElem?_of hi, up, List.getElem?_dropLast, List.length_cons, length_of, if_pos (by omega)]
    cases i with
    | zero => rfl
    | succ i => exact getElem?_of (by omega)
  · rw [List.getElem?_eq_none (hLength.trans_le hi), List.getElem?_eq_none ((length_of n _).trans_le hi)]

theorem down_of (f : Nat → α) (x : α) : down (of n f) x = of n fun i => if i + 1 = n then x else f (i + 1) := by
  have hLength : (down (of n f) x).length = n := by simp only [down, List.length_tail, List.length_append, length_of, List.length_singleton, Nat.add_sub_cancel]
  refine List.ext_getElem? fun i => ?_
  rcases Nat.lt_or_ge i n with hi | hi
  · rw [getElem?_of hi, down, List.getElem?_tail]
    split
    · rename_i hEnd
      rw [hEnd, List.getElem?_append_right (length_of n f).le, length_of, Nat.sub_self]
      rfl
    · rename_i hIn
      rw [List.getElem?_append_left (by rw [length_of]; omega)]
      exact getElem?_of (by omega)
  · rw [List.getElem?_eq_none (hLength.trans_le hi), List.getElem?_eq_none ((length_of n _).trans_le hi)]

end Exemu.Row
