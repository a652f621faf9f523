import Mathlib.Algebra.Order.Ring.Nat
import Mathlib.Data.List.Pairwise

/-! # One entry of a table

An entry is found as the first with some property, and changed in its place.
-/
namespace Exemu

namespace First

variable {α β : Type} {p : α → Bool} {f : α → α} {xs : List α} {a b x : α} {i : Nat} {R : α → α → Prop}

def change (p : α → Bool) (f : α → α) (xs : List α) : List α :=
  match xs.findIdx? p with
  | some i => xs.modify i f
  | none => xs

theorem found (h : xs.findIdx? p = some i) : ∃ a, xs[i]? = some a ∧ a ∈ xs ∧ p a = true := by
  obtain ⟨hi, hp, -⟩ := List.findIdx?_eq_some_iff_getElem.mp h
  exact ⟨xs[i], List.getElem?_eq_getElem hi, List.getElem_mem hi, hp⟩

theorem not_found (h : xs.findIdx? p = none) : ∀ a ∈ xs, p a = false := List.findIdx?_eq_none_iff.mp h

theorem map_not_found (h : xs.findIdx? p = none) : xs.map (fun x => if p x then f x else x) = xs := by
  refine (List.map_congr_left fun x hx => ?_).trans (List.map_id xs)
  rw [not_found h x hx]
  rfl

theorem modify_found (h : xs.findIdx? p = some i) (hOne : xs.Pairwise fun a b => ¬(p a = true ∧ p b = true)) :
    xs.modify i f = xs.map fun x => if p x then f x else x := by
  induction xs generalizing i with
  | nil => cases h
  | cons x xs ih =>
    rw [List.findIdx?_cons] at h
    obtain ⟨hHead, hTail⟩ := List.pairwise_cons.mp hOne
    by_cases hx : p x = true
    · rw [if_pos hx] at h
      cases h
      have hRest : xs.map (fun x => if p x then f x else x) = xs := by
        refine (List.map_congr_left fun y hy => ?_).trans (List.map_id xs)
        rw [if_neg fun hp => hHead y hy ⟨hx, hp⟩]
        rfl
      rw [List.map_cons, if_pos hx, hRest]
      rfl
    · rw [if_neg hx] at h
      obtain ⟨j, hj, rfl⟩ := Option.map_eq_some_iff.mp h
      rw [List.modify_succ_cons, List.map_cons, if_neg hx, ih hj hTail]

theorem change_eq_map (hOne : xs.Pairwise fun a b => ¬(p a = true ∧ p b = true)) :
    change p f xs = xs.map fun x => if p x then f x else x := by
  unfold change
  split
  · rename_i i hFound
    exact modify_found hFound hOne
  · rename_i hNone
    exact (map_not_found hNone).symm

theorem map_set_same (h : xs[i]? = some a) (key : α → β) (hKey : key b = key a) : (xs.set i b).map key = xs.map key := by
  rw [List.map_set]
  refine List.ext_getElem? fun j => ?_
  rw [List.getElem?_set]
  split
  · rename_i hj
    subst hj
    rw [List.getElem?_map, h, hKey]
    obtain ⟨hi, -⟩ := List.getElem?_eq_some_iff.mp h
    rw [if_pos (by rw [List.length_map]; exact hi)]
    rfl
  · rfl

theorem mem_set [Std.Symm R] (hApart : xs.Pairwise R) (h : xs[i]? = some a) (hx : x ∈ xs.set i b) :
    x = b ∨ x ∈ xs ∧ R a x := by
  obtain ⟨j, hj⟩ := List.mem_iff_getElem?.mp hx
  rw [List.getElem?_set] at hj
  split at hj
  · split at hj
    · exact .inl (Option.some.inj hj).symm
    · cases hj
  · rename_i hNe
    obtain ⟨hi, rfl⟩ := List.getElem?_eq_some_iff.mp h
    obtain ⟨hj', rfl⟩ := List.getElem?_eq_some_iff.mp hj
    refine .inr ⟨List.getElem_mem hj', ?_⟩
    rcases Nat.lt_or_gt_of_ne hNe with hLess | hMore
    · exact List.pairwise_iff_getElem.mp hApart i j hi hj' hLess
    · exact symm_of R (List.pairwise_iff_getElem.mp hApart j i hj' hi hMore)

theorem mem_of_get (h : xs[i]? = some a) : a ∈ xs := List.mem_iff_getElem?.mpr ⟨i, h⟩

theorem mem_set_self (h : xs[i]? = some a) (b : α) : b ∈ xs.set i b := by
  obtain ⟨hi, -⟩ := List.getElem?_eq_some_iff.mp h
  exact List.mem_set hi b

end First

end Exemu
