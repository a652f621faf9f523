import Mathlib.Algebra.Order.Ring.Nat

/-! # Binary search

The search for a key among keys that ascend, with any choice of the place to look at next.
-/
namespace Exemu

namespace Bisect

variable {K : Type} [LinearOrder K]

/-- The index of `target` from `lo` on below `hi`, in so many rounds at most. -/
def search (key : Nat → K) (mid : Nat → Nat → Nat) (target : K) : Nat → Nat → Nat → Option Nat
  | 0, _, _ => none
  | fuel + 1, lo, hi =>
    if lo < hi then
      if key (mid lo hi) = target then some (mid lo hi)
      else if key (mid lo hi) < target then search key mid target fuel (mid lo hi + 1) hi
      else search key mid target fuel lo (mid lo hi)
    else none

variable {key : Nat → K} {mid : Nat → Nat → Nat} {target : K} {fuel lo hi i : Nat}

def Middle (mid : Nat → Nat → Nat) : Prop := ∀ lo hi, lo < hi → lo ≤ mid lo hi ∧ mid lo hi < hi

theorem search_finds (hMid : Middle mid) (hAscends : ∀ i j, i < j → j < hi → key i < key j) (hFuel : hi - lo ≤ fuel) (hLow : lo ≤ i)
    (hHigh : i < hi) (hKey : key i = target) : search key mid target fuel lo hi = some i := by
  induction fuel generalizing lo hi with
  | zero => omega
  | succ fuel ih =>
    obtain ⟨hFrom, hTo⟩ := hMid lo hi (by omega)
    rw [search, if_pos (by omega)]
    rcases Nat.lt_trichotomy (mid lo hi) i with hLeft | hHere | hRight
    · have hLess := hAscends _ i hLeft hHigh
      rw [hKey] at hLess
      rw [if_neg hLess.ne, if_pos hLess]
      exact ih hAscends (by omega) hLeft hHigh
    · rw [hHere, if_pos hKey]
    · have hMore := hAscends i _ hRight hTo
      rw [hKey] at hMore
      rw [if_neg hMore.ne', if_neg hMore.asymm]
      exact ih (fun i j hij hj => hAscends i j hij (by omega)) (by omega) hLow hRight

end Bisect

end Exemu
