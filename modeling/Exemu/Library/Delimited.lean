import Mathlib.Algebra.Order.Ring.Nat
import Mathlib.Data.List.Basic

/-! # Delimited texts compared up to a folding of their letters

A text is a list of components with a separator between them.
-/
namespace Exemu.Delimited

universe u

variable {α : Type u} [DecidableEq α] {sep : α} {f : α → α}

def Fixes (f : α → α) (sep : α) : Prop := ∀ c, f c = sep ↔ c = sep

theorem splitOn_map (hf : Fixes f sep) (s : List α) : (s.map f).splitOn sep = (s.splitOn sep).map fun c => c.map f := by
  induction s with
  | nil => rfl
  | cons c s ih =>
    rw [List.map_cons, List.splitOn_cons_eq_if_modifyHead, List.splitOn_cons_eq_if_modifyHead, ih]
    have hIff : (f c == sep) = (c == sep) := by simpa using (hf c)
    rw [hIff]
    split
    · rfl
    · obtain ⟨d, ds, hs⟩ := List.exists_cons_of_ne_nil (List.splitOn_ne_nil sep s)
      rw [hs]
      rfl

theorem not_mem_of_mem_splitOn {s c : List α} (h : c ∈ s.splitOn sep) : sep ∉ c := by
  induction s generalizing c with
  | nil =>
    obtain rfl : c = [] := by simpa [List.splitOn_nil] using h
    exact List.not_mem_nil
  | cons d s ih =>
    rw [List.splitOn_cons_eq_if_modifyHead] at h
    split at h
    · rcases List.mem_cons.mp h with rfl | h
      · exact List.not_mem_nil
      · exact ih h
    · rename_i hd
      obtain ⟨x, xs, hs⟩ := List.exists_cons_of_ne_nil (List.splitOn_ne_nil sep s)
      rw [hs, List.modifyHead_cons] at h
      rcases List.mem_cons.mp h with rfl | h
      · have hTail := ih (hs ▸ List.mem_cons_self)
        have hHead : sep ≠ d := fun hEq => hd (by rw [hEq, beq_self_eq_true])
        simp [hTail, hHead]
      · exact ih (hs ▸ List.mem_cons_of_mem _ h)

theorem splitOn_injective {s t : List α} (h : s.splitOn sep = t.splitOn sep) : s = t := by
  have hJoined := congrArg (List.intercalate [sep]) h
  rwa [List.intercalate_splitOn, List.intercalate_splitOn] at hJoined

theorem intercalate_append {as bs : List (List α)} (ha : as ≠ []) (hb : bs ≠ []) :
    List.intercalate [sep] (as ++ bs) = List.intercalate [sep] as ++ sep :: List.intercalate [sep] bs := by
  induction as with
  | nil => exact absurd rfl ha
  | cons a as ih =>
    cases as with
    | nil =>
      rw [List.singleton_append, List.intercalate_cons_of_ne_nil hb, List.intercalate_singleton]
      simp
    | cons a' as =>
      have hTail : a' :: as ≠ [] := List.cons_ne_nil a' as
      rw [List.cons_append, List.intercalate_cons_of_ne_nil (by simp), ih hTail,
        @List.intercalate_cons_of_ne_nil _ [sep] a (a' :: as) hTail]
      simp

theorem splitOn_of_prefix (hf : Fixes f sep) {s a rest base : List α} (hs : s = a ++ sep :: rest)
    (ha : a.map f = base.map f) :
    s.splitOn sep = a.splitOn sep ++ rest.splitOn sep ∧
      ((a.splitOn sep).map fun c => c.map f) = (base.splitOn sep).map fun c => c.map f := by
  refine ⟨by rw [hs, List.splitOn_append_cons_self], ?_⟩
  rw [← splitOn_map hf, ← splitOn_map hf, ha]

theorem prefix_of_splitOn (hf : Fixes f sep) {s base : List α} {as bs : List (List α)} (hs : s.splitOn sep = as ++ bs)
    (ha : (as.map fun c => c.map f) = (base.splitOn sep).map fun c => c.map f) (hb : bs ≠ []) :
    ∃ a, s = a ++ sep :: List.intercalate [sep] bs ∧ a.map f = base.map f ∧ (List.intercalate [sep] bs).splitOn sep = bs := by
  have hSome : as ≠ [] := by
    rintro rfl
    exact List.splitOn_ne_nil sep base (by simpa using ha.symm)
  have hClean : ∀ c ∈ as ++ bs, sep ∉ c := fun c hc => not_mem_of_mem_splitOn (hs ▸ hc)
  have hFront : (List.intercalate [sep] as).splitOn sep = as :=
    List.splitOn_intercalate sep (fun c hc => hClean c (List.mem_append_left _ hc)) hSome
  refine ⟨List.intercalate [sep] as, ?_, ?_, ?_⟩
  · rw [← intercalate_append hSome hb, ← hs, List.intercalate_splitOn]
  · refine splitOn_injective (show List.splitOn sep _ = List.splitOn sep _ from ?_)
    rw [splitOn_map hf, splitOn_map hf, hFront, ha]
  · exact List.splitOn_intercalate sep (fun c hc => hClean c (List.mem_append_right _ hc)) hb

end Exemu.Delimited
