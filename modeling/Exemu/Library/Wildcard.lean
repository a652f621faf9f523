import Mathlib.Algebra.Order.Ring.Nat
import Mathlib.Data.List.Basic

/-! # Patterns with wildcards

A pattern is a row of letters, wildcards for one letter and wildcards for any number of letters.
-/
namespace Exemu.Wildcard

universe u

variable {α : Type u}

inductive Token (α : Type u) where
  | many
  | one
  | letter (a : α)
  deriving DecidableEq

inductive Matches : List (Token α) → List α → Prop where
  | nil : Matches [] []
  | many {p : List (Token α)} {ys : List α} (xs : List α) (h : Matches p ys) : Matches (.many :: p) (xs ++ ys)
  | one {p : List (Token α)} {xs : List α} (x : α) (h : Matches p xs) : Matches (.one :: p) (x :: xs)
  | letter {p : List (Token α)} {xs : List α} (a : α) (h : Matches p xs) : Matches (.letter a :: p) (a :: xs)

variable [DecidableEq α]

def glob : List (Token α) → List α → Bool
  | [], xs => xs.isEmpty
  | .many :: p, xs => (List.range (xs.length + 1)).any fun i => glob p (xs.drop i)
  | .one :: p, xs => !xs.isEmpty && glob p (xs.drop 1)
  | .letter a :: p, xs => xs.head? == some a && glob p (xs.drop 1)

variable {p : List (Token α)} {xs : List α}

theorem matches_of_glob (h : glob p xs = true) : Matches p xs := by
  induction p generalizing xs with
  | nil =>
    obtain rfl := List.isEmpty_iff.mp h
    exact .nil
  | cons t p ih =>
    cases t with
    | many =>
      rw [glob, List.any_eq_true] at h
      obtain ⟨i, -, hRest⟩ := h
      rw [← List.take_append_drop i xs]
      exact .many _ (ih hRest)
    | one =>
      cases xs with
      | nil => simp [glob] at h
      | cons x xs => exact .one x (ih (by simpa [glob] using h))
    | letter a =>
      cases xs with
      | nil => simp [glob] at h
      | cons x xs =>
        rw [glob, Bool.and_eq_true, beq_iff_eq, List.head?_cons] at h
        obtain ⟨hHead, hRest⟩ := h
        obtain rfl := Option.some.inj hHead
        exact .letter x (ih hRest)

theorem glob_of_matches (h : Matches p xs) : glob p xs = true := by
  induction h with
  | nil => rfl
  | many xs _ ih =>
    rw [glob, List.any_eq_true]
    refine ⟨xs.length, ?_, ?_⟩
    · rw [List.mem_range, List.length_append]
      omega
    · rwa [List.drop_left]
  | one x _ ih => simpa [glob] using ih
  | letter a _ ih => simpa [glob] using ih

theorem glob_iff : glob p xs = true ↔ Matches p xs :=
  ⟨matches_of_glob, glob_of_matches⟩

end Exemu.Wildcard
