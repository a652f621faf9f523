import Mathlib.Algebra.Order.Ring.Nat

/-! # Ranges between two bounds

What is handed out from a place that only moves up lies between where the place was and where it
is, and no two pieces of it overlap.
-/
namespace Exemu

abbrev Span := Nat × Nat

def Span.Clear (r r' : Span) : Prop := r.1 + r.2 ≤ r'.1 ∨ r'.1 + r'.2 ≤ r.1

structure Stacked (lo hi : Nat) (rs : List Span) : Prop where
  inside : ∀ r ∈ rs, lo ≤ r.1 ∧ r.1 + r.2 ≤ hi
  apart : rs.Pairwise Span.Clear

namespace Stacked

variable {lo mid hi : Nat} {rs rs' : List Span}

theorem nil : Stacked lo hi [] where
  inside _ h := absurd h List.not_mem_nil
  apart := List.Pairwise.nil

theorem mono {lo' hi' : Nat} (h : Stacked lo hi rs) (hLow : lo' ≤ lo) (hHigh : hi ≤ hi') : Stacked lo' hi' rs where
  inside r hr := by
    have hIn := h.inside r hr
    omega
  apart := h.apart

theorem append (h : Stacked lo mid rs) (h' : Stacked mid hi rs') (hLow : lo ≤ mid) (hHigh : mid ≤ hi) : Stacked lo hi (rs ++ rs') where
  inside r hr := by
    rcases List.mem_append.mp hr with hr | hr
    · exact (h.mono le_rfl hHigh).inside r hr
    · exact (h'.mono hLow le_rfl).inside r hr
  apart := by
    refine List.pairwise_append.mpr ⟨h.apart, h'.apart, fun r hr r' hr' => .inl ?_⟩
    have hIn := h.inside r hr
    have hIn' := h'.inside r' hr'
    omega

theorem snoc (h : Stacked mid hi rs) {r : Span} (hLow : lo ≤ r.1) (hBefore : r.1 + r.2 ≤ mid) (hHigh : mid ≤ hi) :
    Stacked lo hi (rs ++ [r]) where
  inside r' hr' := by
    rcases List.mem_append.mp hr' with hr' | hr'
    · have hIn := h.inside r' hr'
      omega
    · obtain rfl := List.mem_singleton.mp hr'
      omega
  apart := by
    refine List.pairwise_append.mpr ⟨h.apart, List.pairwise_singleton _ _, fun r' hr' r'' hr'' => .inr ?_⟩
    obtain rfl := List.mem_singleton.mp hr''
    have hIn := h.inside r' hr'
    omega

end Stacked

end Exemu
