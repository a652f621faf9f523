import Mathlib.Algebra.Order.Ring.Nat
import Mathlib.Data.List.Basic

/-! # Pools

A pool keeps each value once, and a list is kept as the places of its values in the pool.
-/
namespace Exemu.Pool

universe u

theorem getElem?_of_prefix {α : Type u} {xs ys : List α} {a : α} {i : Nat} (h : xs <+: ys) (hGet : xs[i]? = some a) : ys[i]? = some a := by
  obtain ⟨hi, rfl⟩ := List.getElem?_eq_some_iff.mp hGet
  exact List.getElem?_eq_some_iff.mpr ⟨h.length_le.trans_lt' hi, (h.getElem hi).symm⟩

section Places

variable {α : Type u} [DecidableEq α]

/-- The pool with `a` in it, and the place of `a`. -/
def place (pool : List α) (a : α) : List α × Nat :=
  match pool.idxOf? a with
  | some i => (pool, i)
  | none => (pool ++ [a], pool.length)

def placeAll : List α → List α → List α × List Nat
  | pool, [] => (pool, [])
  | pool, a :: as =>
    let (pool, i) := place pool a
    let (pool, places) := placeAll pool as
    (pool, i :: places)

variable {pool as : List α} {a : α}

theorem prefix_place : pool <+: (place pool a).1 := by
  unfold place
  split
  · exact List.prefix_rfl
  · exact List.prefix_append pool [a]

theorem getElem?_place : (place pool a).1[(place pool a).2]? = some a := by
  unfold place
  split
  · rename_i i hFound
    obtain ⟨hi, hGet, -⟩ := List.idxOf?_eq_some_iff.mp hFound
    exact List.getElem?_eq_some_iff.mpr ⟨hi, hGet⟩
  · exact List.getElem?_concat_length

theorem nodup_place (hNodup : pool.Nodup) : (place pool a).1.Nodup := by
  unfold place
  split
  · exact hNodup
  · rename_i hNew
    exact List.nodup_append.mpr ⟨hNodup, List.pairwise_singleton _ a, fun b hb c hc => by
      obtain rfl := List.mem_singleton.mp hc
      rintro rfl
      exact List.idxOf?_eq_none_iff.mp hNew hb⟩

theorem mem_place {b : α} : b ∈ (place pool a).1 → b ∈ pool ∨ b = a := by
  intro h
  unfold place at h
  split at h
  · exact .inl h
  · exact (List.mem_append.mp h).imp_right List.mem_singleton.mp

theorem length_placeAll : (placeAll pool as).2.length = as.length := by
  induction as generalizing pool with
  | nil => rfl
  | cons a as ih => exact congrArg Nat.succ ih

theorem prefix_placeAll : pool <+: (placeAll pool as).1 := by
  induction as generalizing pool with
  | nil => exact List.prefix_rfl
  | cons a as ih => exact prefix_place.trans ih

theorem mem_placeAll {b : α} (h : b ∈ (placeAll pool as).1) : b ∈ pool ∨ b ∈ as := by
  induction as generalizing pool with
  | nil => exact .inl h
  | cons a as ih =>
    rcases ih h with hPlaced | hLater
    · refine (mem_place hPlaced).imp_right ?_
      rintro rfl
      exact List.mem_cons_self
    · exact .inr (List.mem_cons_of_mem a hLater)

theorem nodup_placeAll (hNodup : pool.Nodup) : (placeAll pool as).1.Nodup := by
  induction as generalizing pool with
  | nil => exact hNodup
  | cons a as ih => exact ih (nodup_place hNodup)

theorem getElem?_placeAll {i : Nat} (h : as[i]? = some a) :
    ∃ k, (placeAll pool as).2[i]? = some k ∧ (placeAll pool as).1[k]? = some a := by
  induction as generalizing pool i with
  | nil => cases h
  | cons b as ih =>
    cases i with
    | zero =>
      cases h
      exact ⟨(place pool a).2, rfl, getElem?_of_prefix (prefix_placeAll : (place pool a).1 <+: (placeAll _ as).1) getElem?_place⟩
    | succ i => exact ih h

theorem length_placeAll_const {c : α} (h : ∀ b ∈ as, b = c) : (placeAll [] as).1.length ≤ 1 := by
  have hNodup : (placeAll [] as).1.Nodup := nodup_placeAll List.nodup_nil
  have hSame : (placeAll [] as).1 = List.replicate (placeAll [] as).1.length c :=
    List.eq_replicate_of_mem fun b hb => (mem_placeAll hb).elim (fun hNone => absurd hNone List.not_mem_nil) (h b)
  rw [hSame] at hNodup
  exact List.nodup_replicate.mp hNodup

end Places

section Blocks

variable {α : Type u} {blocks : List (List α)} {block : List α} {n : Nat}

theorem getElem?_flatten (hSize : ∀ b ∈ blocks, b.length = n) {k j : Nat} (hBlock : blocks[k]? = some block) (hj : j < n) :
    blocks.flatten[k * n + j]? = block[j]? := by
  induction blocks generalizing k with
  | nil => cases hBlock
  | cons b blocks ih =>
    have hHead := hSize b List.mem_cons_self
    rw [List.flatten_cons]
    cases k with
    | zero =>
      cases hBlock
      rw [List.getElem?_append_left (by omega), Nat.zero_mul, Nat.zero_add]
    | succ k =>
      rw [List.getElem?_append_right (by rw [Nat.succ_mul]; omega), hHead, show (k + 1) * n + j - n = k * n + j by rw [Nat.succ_mul]; omega]
      exact ih (fun c hc => hSize c (List.mem_cons_of_mem b hc)) hBlock

theorem length_flatten (hSize : ∀ b ∈ blocks, b.length = n) : blocks.flatten.length = blocks.length * n := by
  induction blocks with
  | nil => rw [List.flatten_nil, List.length_nil, List.length_nil, Nat.zero_mul]
  | cons b blocks ih =>
    rw [List.flatten_cons, List.length_append, hSize b List.mem_cons_self, ih fun c hc => hSize c (List.mem_cons_of_mem b hc),
      List.length_cons, Nat.succ_mul, Nat.add_comm]

end Blocks
end Exemu.Pool
