import Mathlib.Algebra.Order.Ring.Nat
import Mathlib.Data.List.Pairwise

/-! # Sweeping over spans

A cursor goes over a sorted list of spans: from each stop it takes the first span that ends behind
it, and moves on to that span's end, but by one step at least.
-/
namespace Exemu.Sweep

/-- From `lo` up to `hi`, and where the cursor moves to behind it. -/
structure Span where
  lo : Nat
  hi : Nat
  goal : Nat
  deriving DecidableEq, Repr

structure Sorted (spans : List Span) : Prop where
  apart : spans.Pairwise fun s t => s.hi ≤ t.lo
  ordered : ∀ s ∈ spans, s.lo ≤ s.hi ∧ s.goal ≤ s.hi

def next (spans : List Span) (a : Nat) : Option Span := spans.find? fun s => decide (a < s.hi)

section Stops

variable (spans : List Span) (step lim start : Nat)

inductive Stop : Nat → Nat → Prop where
  | first : Stop 0 start
  | move {k a : Nat} {s : Span} (hStop : Stop k a) (hIn : a < lim) (hNext : next spans a = some s) (hLow : s.lo < lim) :
      Stop (k + 1) (max s.goal (a + step))

def Met (s : Span) : Prop := ∃ k a, Stop spans step lim start k a ∧ a < lim ∧ next spans a = some s ∧ s.lo < lim

/-- The cursor comes to a span before this one and goes on to a stop behind it or behind the limit. -/
def Skipped (s : Span) : Prop :=
  ∃ k a t, Stop spans step lim start k a ∧ a < lim ∧ next spans a = some t ∧ t.lo < lim ∧ t.hi ≤ s.lo ∧ (s.hi ≤ a + step ∨ lim ≤ a + step)

end Stops

variable {spans : List Span} {step lim start a b i j k : Nat} {s t : Span}

theorem next_some (h : next spans a = some s) : s ∈ spans ∧ a < s.hi := by
  have hPass := List.find?_some h
  exact ⟨List.mem_of_find?_eq_some h, of_decide_eq_true hPass⟩

theorem Sorted.next_le (hSorted : Sorted spans) (h : next spans a = some t) (hs : s ∈ spans) (hBehind : a < s.hi) : s = t ∨ t.hi ≤ s.lo := by
  obtain ⟨hPass, before, after, rfl, hBefore⟩ := List.find?_eq_some_iff_append.mp h
  rcases List.mem_append.mp hs with hs | hs
  · have hFails := hBefore s hs
    simp only [Bool.not_eq_true', decide_eq_false_iff_not] at hFails
    exact absurd hBehind hFails
  · rcases List.mem_cons.mp hs with rfl | hs
    · exact .inl rfl
    · exact .inr ((List.pairwise_cons.mp (List.pairwise_append.mp hSorted.apart).2.1).1 s hs)

theorem next_of_mem (hs : s ∈ spans) (hBehind : a < s.hi) : ∃ t, next spans a = some t := by
  cases h : next spans a with
  | some t => exact ⟨t, rfl⟩
  | none => exact absurd (decide_eq_true hBehind) (List.find?_eq_none.mp h s hs)

theorem Stop.unique (h : Stop spans step lim start k a) (h' : Stop spans step lim start k b) : a = b := by
  induction h generalizing b with
  | first =>
    cases h'
    rfl
  | move hStop hIn hNext hLow ih =>
    cases h' with
    | move hStop' hIn' hNext' hLow' =>
      obtain rfl := ih hStop'
      cases hNext.symm.trans hNext'
      rfl

theorem Stop.step_le (h : Stop spans step lim start i a) (h' : Stop spans step lim start j b) (hij : i < j) : a + step ≤ b := by
  induction h' with
  | first => exact absurd hij (Nat.not_lt_zero i)
  | move hStop hIn hNext hLow ih =>
    rcases Nat.lt_succ_iff_lt_or_eq.mp hij with hij | rfl
    · exact (ih hij).trans ((Nat.le_add_right _ step).trans (le_max_right _ _))
    · rw [h.unique hStop]
      exact le_max_right _ _

theorem Stop.step_le_of_lt (h : Stop spans step lim start i a) (h' : Stop spans step lim start j b) (hab : a < b) : a + step ≤ b := by
  rcases Nat.lt_trichotomy i j with hij | rfl | hij
  · exact h.step_le h' hij
  · exact absurd (h.unique h') (Nat.ne_of_lt hab)
  · have hBack := h'.step_le h hij
    omega

theorem Sorted.met_or_skipped (hSorted : Sorted spans) (hStep : 0 < step) (hs : s ∈ spans) (hProper : s.lo < s.hi) (hLow : s.lo < lim)
    (hStart : start < lim) (hBehind : start < s.hi) : Met spans step lim start s ∨ Skipped spans step lim start s := by
  suffices hFrom : ∀ n k a, Stop spans step lim start k a → lim - a ≤ n → a < lim → a < s.hi → Met spans step lim start s ∨ Skipped spans step lim start s from
    hFrom _ 0 start .first le_rfl hStart hBehind
  intro n
  induction n with
  | zero => exact fun k a _ hn ha => by omega
  | succ n ih =>
    intro k a hStop hn ha haHi
    obtain ⟨t, hNext⟩ := next_of_mem hs haHi
    rcases hSorted.next_le hNext hs haHi with rfl | hBefore
    · exact .inl ⟨k, a, hStop, ha, hNext, hLow⟩
    · have hOrder := hSorted.ordered t (next_some hNext).1
      have htLow : t.lo < lim := by omega
      by_cases hOver : s.hi ≤ a + step ∨ lim ≤ a + step
      · exact .inr ⟨k, a, t, hStop, ha, hNext, htLow, hBefore, hOver⟩
      · exact ih (k + 1) _ (hStop.move ha hNext htLow) (by omega) (by omega) (by omega)

theorem Sorted.not_met_of_skipped (hSorted : Sorted spans) (hProper : s.lo < s.hi) (h : Skipped spans step lim start s) : ¬Met spans step lim start s := by
  rintro ⟨i, b, hStop', hbLim, hNext', -⟩
  obtain ⟨k, a, t, hStop, -, hNext, -, hBefore, hOver⟩ := h
  obtain ⟨hs, hbHi⟩ := next_some hNext'
  obtain ⟨ht, haHi⟩ := next_some hNext
  rcases Nat.lt_or_ge a b with hab | hba
  · have hLater := hStop.step_le_of_lt hStop' hab
    omega
  · have hsOrder := hSorted.ordered s hs
    rcases hSorted.next_le hNext' ht (by omega) with rfl | hAfter
    · omega
    · have htOrder := hSorted.ordered t ht
      omega

theorem Stop.tail (hIn : start < lim) (hNext : next spans start = some t) (hLow : t.lo < lim) :
    Stop spans step lim start (k + 1) a ↔ Stop spans step lim (max t.goal (start + step)) k a := by
  constructor
  · intro h
    induction k generalizing a with
    | zero =>
      cases h with
      | move hStop hIn' hNext' hLow' =>
        cases hStop
        cases hNext.symm.trans hNext'
        exact .first
    | succ k ih =>
      cases h with
      | move hStop hIn' hNext' hLow' => exact .move (ih hStop) hIn' hNext' hLow'
  · intro h
    induction h with
    | first => exact .move .first hIn hNext hLow
    | move hStop hIn' hNext' hLow' ih => exact .move ih hIn' hNext' hLow'

theorem met_iff (hIn : start < lim) (hNext : next spans start = some t) (hLow : t.lo < lim) :
    Met spans step lim start s ↔ s = t ∨ Met spans step lim (max t.goal (start + step)) s := by
  constructor
  · rintro ⟨k, a, hStop, ha, hGet, hsLow⟩
    cases k with
    | zero =>
      cases hStop
      cases hNext.symm.trans hGet
      exact .inl rfl
    | succ k => exact .inr ⟨k, a, (Stop.tail hIn hNext hLow).mp hStop, ha, hGet, hsLow⟩
  · rintro (rfl | ⟨k, a, hStop, ha, hGet, hsLow⟩)
    · exact ⟨0, start, .first, hIn, hNext, hLow⟩
    · exact ⟨k + 1, a, (Stop.tail hIn hNext hLow).mpr hStop, ha, hGet, hsLow⟩

theorem not_met (hEnd : ¬(start < lim ∧ ∃ t, next spans start = some t ∧ t.lo < lim)) : ¬Met spans step lim start s := by
  rintro ⟨k, a, hStop, ha, hGet, hLow⟩
  have hFirst : ∀ {k a}, Stop spans step lim start k a → a = start := by
    intro k a h
    induction h with
    | first => rfl
    | move _ hIn hNext hLow ih =>
      rw [ih] at hIn hNext
      exact absurd ⟨hIn, _, hNext, hLow⟩ hEnd
  rw [hFirst hStop] at ha hGet
  exact hEnd ⟨ha, s, hGet, hLow⟩

theorem Met.bounds (h : Met spans step lim start s) : s ∈ spans ∧ start < s.hi ∧ s.lo < lim := by
  obtain ⟨k, a, hStop, -, hNext, hLow⟩ := h
  obtain ⟨hs, ha⟩ := next_some hNext
  have hStart : start ≤ a := by
    cases k with
    | zero => exact le_of_eq (Stop.first.unique hStop)
    | succ k => exact (Nat.le_add_right _ step).trans (Stop.first.step_le hStop (Nat.succ_pos k))
  exact ⟨hs, by omega, hLow⟩

theorem not_skipped_of_dvd (hEnds : ∀ s ∈ spans, step ∣ s.hi ∧ step ∣ s.goal) (hProper : s.lo < s.hi) (hLow : s.lo < lim)
    (hStart : step ∣ start) : ¬Skipped spans step lim start s := by
  have hStops : ∀ {k a}, Stop spans step lim start k a → step ∣ a := by
    intro k a h
    induction h with
    | first => exact hStart
    | @move k a s _ _ hNext _ ih =>
      rcases max_choice s.goal (a + step) with hMax | hMax
      · rw [hMax]
        exact (hEnds _ (next_some hNext).1).2
      · rw [hMax]
        exact (Nat.dvd_add_right ih).mpr (dvd_refl step)
  rintro ⟨k, a, t, hStop, -, hNext, -, hBefore, hOver⟩
  obtain ⟨ht, haHi⟩ := next_some hNext
  have hGap : step ≤ t.hi - a := Nat.le_of_dvd (by omega) (Nat.dvd_sub (hEnds t ht).1 (hStops hStop))
  omega

end Exemu.Sweep
