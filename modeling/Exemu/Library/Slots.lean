import Mathlib.Algebra.Order.Ring.Nat
import Mathlib.Data.List.Nodup

/-! # Slots handed out and taken back

Slots are numbered in the order they are first handed out; those given back are handed out again
before a new one.
-/
namespace Exemu

/-- `free` has the slot given back last in front. -/
structure Slots where
  next : Nat
  free : List Nat
deriving DecidableEq

namespace Slots

variable {first limit s : Nat} {used used' : List Nat} {p p' : Slots}

def take (limit : Nat) (p : Slots) : Option (Nat × Slots) :=
  match p.free with
  | s :: rest => some (s, { p with free := rest })
  | [] => if limit ≤ p.next then none else some (p.next, { p with next := p.next + 1 })

def give (p : Slots) (s : Nat) : Slots := { p with free := s :: p.free }

/-- Every slot handed out is used once or free once, and not both. -/
structure Split (first : Nat) (used : List Nat) (p : Slots) : Prop where
  once : used.Nodup
  freeOnce : p.free.Nodup
  apart : ∀ s ∈ used, s ∉ p.free
  out : ∀ s, s ∈ used ∨ s ∈ p.free ↔ first ≤ s ∧ s < p.next

theorem Split.start (first : Nat) : Split first [] ⟨first, []⟩ where
  once := List.nodup_nil
  freeOnce := List.nodup_nil
  apart s hs := absurd hs List.not_mem_nil
  out s := by
    constructor
    · rintro (hs | hs) <;> exact absurd hs List.not_mem_nil
    · rintro ⟨hLow, hHigh⟩
      exact absurd hHigh (Nat.not_lt.mpr hLow)

theorem Split.take_fresh (h : Split first used p) (hTake : take limit p = some (s, p')) :
    s ∉ used ∧ s ∉ p'.free := by
  unfold take at hTake
  split at hTake
  · rename_i s' rest hFree
    cases hTake
    have hNodup := h.freeOnce
    rw [hFree] at hNodup
    refine ⟨fun hUsed => h.apart s hUsed ?_, (List.nodup_cons.mp hNodup).1⟩
    rw [hFree]
    exact List.mem_cons_self
  · split at hTake
    · cases hTake
    · rename_i hFree _
      cases hTake
      refine ⟨fun hUsed => ?_, fun hIn => ?_⟩
      · exact Nat.lt_irrefl _ ((h.out p.next).mp (.inl hUsed)).2
      · rw [hFree] at hIn
        exact absurd hIn List.not_mem_nil

theorem Split.take (h : Split first used p) (hFirst : first ≤ p.next) (hTake : take limit p = some (s, p')) : Split first (s :: used) p' := by
  have hFresh := h.take_fresh hTake
  unfold Slots.take at hTake
  split at hTake
  · rename_i s' rest hFree
    cases hTake
    have hNodup := h.freeOnce
    rw [hFree] at hNodup
    refine ⟨List.nodup_cons.mpr ⟨hFresh.1, h.once⟩, (List.nodup_cons.mp hNodup).2, fun t ht hIn => ?_, fun t => ?_⟩
    · rcases List.mem_cons.mp ht with rfl | ht
      · exact hFresh.2 hIn
      · exact h.apart t ht (hFree ▸ List.mem_cons_of_mem _ hIn)
    · have hOut := h.out t
      rw [hFree, List.mem_cons] at hOut
      rw [List.mem_cons]
      dsimp only
      tauto
  · split at hTake
    · cases hTake
    · rename_i hFree _
      cases hTake
      refine ⟨List.nodup_cons.mpr ⟨hFresh.1, h.once⟩, h.freeOnce, fun t ht hIn => ?_, fun t => ?_⟩
      · dsimp only at hIn
        rw [hFree] at hIn
        exact absurd hIn List.not_mem_nil
      · have hOut := h.out t
        rw [List.mem_cons]
        dsimp only at hOut ⊢
        constructor
        · rintro ((rfl | hIn) | hIn)
          · exact ⟨hFirst, Nat.lt_succ_self _⟩
          · exact ⟨(hOut.mp (.inl hIn)).1, Nat.lt_succ_of_lt (hOut.mp (.inl hIn)).2⟩
          · exact ⟨(hOut.mp (.inr hIn)).1, Nat.lt_succ_of_lt (hOut.mp (.inr hIn)).2⟩
        · rintro ⟨hLow, hHigh⟩
          rcases Nat.lt_succ_iff_lt_or_eq.mp hHigh with hLess | rfl
          · rcases hOut.mpr ⟨hLow, hLess⟩ with hIn | hIn
            · exact .inl (.inr hIn)
            · exact .inr hIn
          · exact .inl (.inl rfl)

theorem take_next (hTake : Slots.take limit p = some (s, p')) : p.next ≤ p'.next := by
  unfold Slots.take at hTake
  split at hTake
  · cases hTake
    exact le_refl _
  · split at hTake
    · cases hTake
    · cases hTake
      exact Nat.le_succ _

theorem take_limit (h : p.next ≤ limit) (hTake : Slots.take limit p = some (s, p')) : p'.next ≤ limit := by
  unfold Slots.take at hTake
  split at hTake
  · cases hTake
    exact h
  · split at hTake
    · cases hTake
    · rename_i hRoom
      cases hTake
      exact Nat.not_le.mp hRoom

theorem Split.take_lost (h : Split first used p) (hFirst : first ≤ p.next) (hTake : Slots.take limit p = some (s, p')) : ¬Split first used p' := by
  intro hAfter
  have hNew := h.take hFirst hTake
  have hFresh := h.take_fresh hTake
  rcases (hAfter.out s).mpr ((hNew.out s).mp (.inl List.mem_cons_self)) with hUsed | hFree
  · exact hFresh.1 hUsed
  · exact hFresh.2 hFree

theorem Split.give (h : Split first used p) (hUsed : s ∈ used) : Split first (used.erase s) (give p s) where
  once := h.once.erase s
  freeOnce := List.nodup_cons.mpr ⟨h.apart s hUsed, h.freeOnce⟩
  apart t ht hIn := by
    obtain ⟨hNe, ht⟩ := h.once.mem_erase_iff.mp ht
    rcases List.mem_cons.mp hIn with hEq | hIn
    · exact hNe hEq
    · exact h.apart t ht hIn
  out t := by
    rw [h.once.mem_erase_iff]
    show (t ≠ s ∧ t ∈ used) ∨ t ∈ s :: p.free ↔ first ≤ t ∧ t < p.next
    rw [List.mem_cons, ← h.out t]
    by_cases hEq : t = s
    · subst hEq
      tauto
    · tauto

theorem map_erase {α β : Type} [BEq α] [LawfulBEq α] [BEq β] [LawfulBEq β] {f : α → β} {a : α} {l : List α} (h : ∀ x ∈ l, f x = f a → x = a) :
    (l.erase a).map f = (l.map f).erase (f a) := by
  induction l with
  | nil => rfl
  | cons x xs ih =>
    obtain ⟨hHead, hTail⟩ := List.forall_mem_cons.mp h
    rw [List.map_cons, List.erase_cons, List.erase_cons]
    by_cases hEq : x = a
    · rw [if_pos (beq_iff_eq.mpr hEq), if_pos (beq_iff_eq.mpr (congrArg f hEq))]
    · rw [if_neg (fun hBeq => hEq (beq_iff_eq.mp hBeq)), if_neg (fun hBeq => hEq (hHead (beq_iff_eq.mp hBeq))), List.map_cons, ih hTail]

theorem Split.give_shared (hUsed : s ∈ used) : ¬Split first used (Slots.give p s) := fun hAfter => hAfter.apart s hUsed List.mem_cons_self

theorem Split.lost (h : Split first used p) (hUsed : s ∈ used) (hGone : s ∉ used') : ¬Split first used' p := by
  intro hAfter
  rcases (hAfter.out s).mpr ((h.out s).mp (.inl hUsed)) with hIn | hIn
  · exact hGone hIn
  · exact h.apart s hUsed hIn

end Slots

end Exemu
