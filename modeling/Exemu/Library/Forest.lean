import Mathlib.Algebra.Order.Ring.Nat

/-! # Flat tables of trees

Each entry of the table has a key and may name the key of a parent.
-/
namespace Exemu

namespace Forest

variable {κ α : Type} {parent : α → Option κ} {entries : List (κ × α)} {a h : κ}

/-- `h` has `a` as its parent or further up. -/
inductive Under (parent : α → Option κ) (entries : List (κ × α)) (a : κ) : κ → Prop where
  | child (h : κ) (v : α) : (h, v) ∈ entries → parent v = some a → Under parent entries a h
  | deeper (h : κ) (v : α) (p : κ) : (h, v) ∈ entries → parent v = some p → Under parent entries a p → Under parent entries a h

def Closed (parent : α → Option κ) (entries : List (κ × α)) : Prop :=
  ∀ x ∈ entries, ∀ p, parent x.2 = some p → p ∈ entries.map Prod.fst

def Childless (parent : α → Option κ) (entries : List (κ × α)) (a : κ) : Prop := ∀ x ∈ entries, parent x.2 = some a → x.1 = a

theorem Closed.nil : Closed parent [] := fun _ hx => absurd hx List.not_mem_nil

theorem Closed.append (hClosed : Closed parent entries) {v : α} (hParent : ∀ p, parent v = some p → p ∈ entries.map Prod.fst) :
    Closed parent (entries ++ [(h, v)]) := by
  intro x hx p hp
  rw [List.map_append]
  refine List.mem_append_left _ ?_
  rcases List.mem_append.mp hx with hOld | hNew
  · exact hClosed x hOld p hp
  · cases List.mem_singleton.mp hNew
    exact hParent p hp

theorem Closed.of_map {entries' : List (κ × α)} (hClosed : Closed parent entries)
    (hMap : entries'.map (fun x => (x.1, parent x.2)) = entries.map fun x => (x.1, parent x.2)) : Closed parent entries' := by
  have hKeys : entries'.map Prod.fst = entries.map Prod.fst := by
    have hFirst := congrArg (List.map Prod.fst) hMap
    rw [List.map_map, List.map_map] at hFirst
    exact hFirst
  intro x hx p hp
  have hIn : (x.1, parent x.2) ∈ entries.map fun x => (x.1, parent x.2) := hMap ▸ List.mem_map_of_mem hx
  obtain ⟨y, hy, hEq⟩ := List.mem_map.mp hIn
  rw [hKeys]
  exact hClosed y hy p ((congrArg Prod.snd hEq).trans hp)

theorem Childless.under (hNone : Childless parent entries a) (hUnder : Under parent entries a h) : h = a := by
  induction hUnder with
  | child h v hIn hParent => exact hNone (h, v) hIn hParent
  | deeper h v p hIn hParent _ ih => exact hNone (h, v) hIn (ih ▸ hParent)

section Removal

variable [DecidableEq κ]

def remove (a : κ) (entries : List (κ × α)) : List (κ × α) := entries.filter fun x => x.1 ≠ a

theorem mem_remove {x : κ × α} : x ∈ remove a entries ↔ x ∈ entries ∧ x.1 ≠ a := by
  rw [remove, List.mem_filter, decide_eq_true_iff]

theorem key_remove {k : κ} : k ∈ (remove a entries).map Prod.fst ↔ k ∈ entries.map Prod.fst ∧ k ≠ a := by
  constructor
  · rintro hIn
    obtain ⟨x, hx, rfl⟩ := List.mem_map.mp hIn
    obtain ⟨hx, hNe⟩ := mem_remove.mp hx
    exact ⟨List.mem_map_of_mem hx, hNe⟩
  · rintro ⟨hIn, hNe⟩
    obtain ⟨x, hx, rfl⟩ := List.mem_map.mp hIn
    exact List.mem_map_of_mem (mem_remove.mpr ⟨hx, hNe⟩)

theorem lookup_remove {k : κ} (hNe : k ≠ a) : (remove a entries).lookup k = entries.lookup k := by
  induction entries with
  | nil => rfl
  | cons x xs ih =>
    unfold remove at ih ⊢
    rw [List.filter_cons, List.lookup_cons]
    split
    · rw [List.lookup_cons, ih]
    · rename_i hOut
      have hEq : x.1 = a := by
        by_contra hOther
        exact hOut (decide_eq_true hOther)
      rw [ih, hEq, beq_false_of_ne hNe]

theorem lookup_of_nodup (hNodup : (entries.map Prod.fst).Nodup) {k : κ} {v : α} (hMem : (k, v) ∈ entries) : entries.lookup k = some v := by
  induction entries with
  | nil => cases hMem
  | cons x entries ih =>
    obtain ⟨hNew, hRest⟩ := List.nodup_cons.mp hNodup
    rw [List.lookup_cons]
    rcases List.mem_cons.mp hMem with rfl | hLater
    · rw [beq_self_eq_true]
    · have hNe : k ≠ x.1 := by
        rintro rfl
        exact hNew (List.mem_map.mpr ⟨_, hLater, rfl⟩)
      rw [beq_false_of_ne hNe]
      exact ih hRest hLater

theorem Closed.remove (hClosed : Closed parent entries) (hNone : Childless parent entries a) : Closed parent (remove a entries) := by
  intro x hStays p hp
  obtain ⟨hx, hNe⟩ := mem_remove.mp hStays
  refine key_remove.mpr ⟨hClosed x hx p hp, ?_⟩
  rintro rfl
  exact hNe (hNone x hx hp)

theorem Under.of_remove (hUnder : Under parent (remove a entries) a h) : ∃ x ∈ entries, x.1 ≠ a ∧ parent x.2 = some a := by
  induction hUnder with
  | child h v hIn hParent =>
    obtain ⟨hIn, hNe⟩ := mem_remove.mp hIn
    exact ⟨(h, v), hIn, hNe, hParent⟩
  | deeper _ _ _ _ _ _ ih => exact ih

theorem Childless.of_removed (hOrphans : ∀ x ∈ Forest.remove a entries, ¬Under parent (Forest.remove a entries) a x.1) : Childless parent entries a := by
  intro x hx hp
  by_contra hNe
  have hStays := mem_remove.mpr ⟨hx, hNe⟩
  exact hOrphans x hStays (.child x.1 x.2 hStays hp)

end Removal

def alter [DecidableEq κ] (a : κ) (f : α → α) : List (κ × α) → List (κ × α)
  | [] => []
  | x :: xs => if x.1 = a then (x.1, f x.2) :: xs else x :: alter a f xs

theorem map_alter [DecidableEq κ] {f : α → α} (hf : ∀ v, parent (f v) = parent v) :
    (alter a f entries).map (fun x => (x.1, parent x.2)) = entries.map fun x => (x.1, parent x.2) := by
  induction entries with
  | nil => rfl
  | cons x xs ih =>
    unfold alter
    split
    · rw [List.map_cons, List.map_cons, hf]
    · rw [List.map_cons, List.map_cons, ih]

end Forest

end Exemu
