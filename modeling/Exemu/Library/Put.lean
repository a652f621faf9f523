import Mathlib.Algebra.Order.Ring.Nat
import Mathlib.Data.List.Basic

/-! # Parts put into a buffer

A buffer of fixed length that parts are put into one after the other, each at its place.
-/
namespace Exemu

namespace Put

open List

variable {α : Type} {xs ys : List α} {off k n : Nat} {part : List α} {p q : Nat × List α} {parts : List (Nat × List α)}

def overwrite (xs : List α) (off : Nat) (part : List α) : List α := xs.take off ++ part ++ xs.drop (off + part.length)

def put (xs : List α) (p : Nat × List α) : Option (List α) :=
  if p.1 + p.2.length ≤ xs.length then some (overwrite xs p.1 p.2) else none

def putAll : List (Nat × List α) → List α → Option (List α)
  | [], xs => some xs
  | p :: parts, xs => do putAll parts (← put xs p)

/-- The `n` elements from `off` on, if they are there. -/
def window (xs : List α) (off n : Nat) : Option (List α) := if off + n ≤ xs.length then some ((xs.drop off).take n) else none

theorem length_overwrite (h : off + part.length ≤ xs.length) : (overwrite xs off part).length = xs.length := by
  rw [overwrite, length_append, length_append, length_take, length_drop]
  omega

theorem overwrite_get (h : off + part.length ≤ xs.length) (k : Nat) :
    (overwrite xs off part)[k]? = if off ≤ k ∧ k < off + part.length then part[k - off]? else xs[k]? := by
  have hTake : (xs.take off).length = off := by
    rw [length_take]
    omega
  rw [overwrite, append_assoc]
  rcases Nat.lt_or_ge k off with hBefore | hFrom
  · rw [getElem?_append_left (by omega), getElem?_take_of_lt hBefore, if_neg (by omega)]
  · rw [getElem?_append_right (by omega), hTake]
    rcases Nat.lt_or_ge k (off + part.length) with hInside | hBehind
    · rw [getElem?_append_left (by omega), if_pos ⟨hFrom, hInside⟩]
    · rw [getElem?_append_right (by omega), getElem?_drop, if_neg (by omega)]
      congr 1
      omega

theorem overwrite_append_eq_iff (xs : List α) (off : Nat) (a z : List α) :
    overwrite xs off (a ++ z) = overwrite xs off a ↔ (xs.drop (off + a.length)).take z.length = z := by
  have hSplit : xs.drop (off + a.length) = (xs.drop (off + a.length)).take z.length ++ xs.drop (off + (a.length + z.length)) := by
    rw [← Nat.add_assoc, ← drop_drop (i := z.length), take_append_drop]
  rw [overwrite, overwrite, length_append, append_assoc, append_assoc, append_assoc, append_cancel_left_eq,
    append_cancel_left_eq]
  conv_lhs => rw [hSplit]
  rw [append_cancel_right_eq]
  exact eq_comm

theorem overwrite_nil (xs : List α) (off : Nat) : overwrite xs off [] = xs := by
  rw [overwrite, append_nil, length_nil, Nat.add_zero, take_append_drop]

theorem overwrite_eq_self_iff (xs : List α) (off : Nat) (z : List α) : overwrite xs off z = xs ↔ (xs.drop off).take z.length = z := by
  have hBoth : overwrite xs off ([] ++ z) = overwrite xs off [] ↔ (xs.drop (off + ([] : List α).length)).take z.length = z :=
    overwrite_append_eq_iff xs off [] z
  rwa [overwrite_nil, nil_append] at hBoth

theorem put_some (h : put xs p = some ys) : p.1 + p.2.length ≤ xs.length ∧ ys = overwrite xs p.1 p.2 := by
  unfold put at h
  split at h
  · cases h
    exact ⟨‹_›, rfl⟩
  · cases h

theorem putAll_cons (h : putAll (p :: parts) xs = some ys) :
    p.1 + p.2.length ≤ xs.length ∧ putAll parts (overwrite xs p.1 p.2) = some ys := by
  obtain ⟨zs, hPut, hRest⟩ := Option.bind_eq_some_iff.mp h
  obtain ⟨hFits, rfl⟩ := put_some hPut
  exact ⟨hFits, hRest⟩

theorem putAll_append (parts rest : List (Nat × List α)) (xs : List α) : putAll (parts ++ rest) xs = (putAll parts xs).bind (putAll rest) := by
  induction parts generalizing xs with
  | nil => rfl
  | cons p parts ih =>
    rw [cons_append, putAll, putAll]
    cases put xs p with
    | none => rfl
    | some ys => exact ih ys

theorem length_putAll (h : putAll parts xs = some ys) : ys.length = xs.length := by
  induction parts generalizing xs with
  | nil =>
    cases h
    rfl
  | cons p parts ih =>
    obtain ⟨hFits, hRest⟩ := putAll_cons h
    rw [ih hRest, length_overwrite hFits]

theorem putAll_fits (h : putAll parts xs = some ys) : ∀ p ∈ parts, p.1 + p.2.length ≤ xs.length := by
  induction parts generalizing xs with
  | nil => exact fun p hp => absurd hp not_mem_nil
  | cons p parts ih =>
    obtain ⟨hFits, hRest⟩ := putAll_cons h
    refine List.forall_mem_cons.mpr ⟨hFits, fun q hq => ?_⟩
    have hLater := ih hRest q hq
    rwa [length_overwrite hFits] at hLater

theorem putAll_of_fits (h : ∀ p ∈ parts, p.1 + p.2.length ≤ xs.length) : ∃ ys, putAll parts xs = some ys := by
  induction parts generalizing xs with
  | nil => exact ⟨xs, rfl⟩
  | cons p parts ih =>
    obtain ⟨hHead, hTail⟩ := List.forall_mem_cons.mp h
    obtain ⟨ys, hRest⟩ := @ih (overwrite xs p.1 p.2) fun q hq => by
      rw [length_overwrite hHead]
      exact hTail q hq
    refine ⟨ys, ?_⟩
    rw [putAll, put, if_pos hHead]
    exact hRest

def Apart (p q : Nat × List α) : Prop := p.1 + p.2.length ≤ q.1 ∨ q.1 + q.2.length ≤ p.1

theorem putAll_elsewhere (h : putAll parts xs = some ys) (hk : ∀ p ∈ parts, k < p.1 ∨ p.1 + p.2.length ≤ k) : ys[k]? = xs[k]? := by
  induction parts generalizing xs with
  | nil =>
    cases h
    rfl
  | cons p parts ih =>
    obtain ⟨hFits, hRest⟩ := putAll_cons h
    obtain ⟨hHead, hTail⟩ := List.forall_mem_cons.mp hk
    rw [ih hRest hTail, overwrite_get hFits, if_neg (by omega)]

theorem window_of_get (hFits : off + part.length ≤ xs.length) (h : ∀ k < part.length, xs[off + k]? = part[k]?) :
    window xs off part.length = some part := by
  rw [window, if_pos hFits]
  refine congrArg some (ext_getElem? fun k => ?_)
  rcases Nat.lt_or_ge k part.length with hk | hk
  · rw [getElem?_take_of_lt hk, getElem?_drop, h k hk]
  · rw [getElem?_take_eq_none hk, getElem?_eq_none hk]

theorem window_congr (hLen : ys.length = xs.length) (h : ∀ k, off ≤ k → k < off + n → ys[k]? = xs[k]?) : window ys off n = window xs off n := by
  unfold window
  rw [hLen]
  split
  · refine congrArg some (ext_getElem? fun k => ?_)
    rcases Nat.lt_or_ge k n with hk | hk
    · rw [getElem?_take_of_lt hk, getElem?_take_of_lt hk, getElem?_drop, getElem?_drop, h (off + k) (by omega) (by omega)]
    · rw [getElem?_take_eq_none hk, getElem?_take_eq_none hk]
  · rfl

theorem window_some (h : window xs off n = some part) : off + n ≤ xs.length ∧ part.length = n := by
  unfold window at h
  split at h
  · cases h
    refine ⟨‹_›, ?_⟩
    rw [length_take, length_drop]
    omega
  · cases h

theorem window_window {m : Nat} {inner : List α} (h : window xs off n = some part) (h' : window part k m = some inner) :
    window xs (off + k) m = some inner := by
  obtain ⟨hFits, hLen⟩ := window_some h
  obtain ⟨hFits', -⟩ := window_some h'
  rw [window, if_pos hFits] at h
  rw [window, if_pos hFits'] at h'
  cases h
  rw [window, if_pos (by omega), ← h', drop_take, drop_drop, take_take, Nat.min_eq_left (by omega)]

theorem window_overwrite (h : off + part.length ≤ xs.length) : window (overwrite xs off part) off part.length = some part := by
  refine window_of_get (by rwa [length_overwrite h]) fun k hk => ?_
  rw [overwrite_get h, if_pos (by omega), Nat.add_sub_cancel_left]

theorem putAll_window (h : putAll parts xs = some ys) (hApart : ∀ p ∈ parts, ∀ q ∈ parts, p = q ∨ Apart p q) :
    ∀ p ∈ parts, window ys p.1 p.2.length = some p.2 := by
  induction parts generalizing xs with
  | nil => exact fun p hp => absurd hp not_mem_nil
  | cons p parts ih =>
    obtain ⟨hFits, hRest⟩ := putAll_cons h
    have hTail := ih hRest fun q hq r hr => hApart q (List.mem_cons_of_mem _ hq) r (List.mem_cons_of_mem _ hr)
    refine List.forall_mem_cons.mpr ⟨?_, hTail⟩
    by_cases hAgain : p ∈ parts
    · exact hTail p hAgain
    · have hClear : ∀ q ∈ parts, Apart p q := by
        intro q hq
        refine (hApart p List.mem_cons_self q (List.mem_cons_of_mem _ hq)).resolve_left ?_
        rintro rfl
        exact hAgain hq
      rw [window_congr (length_putAll hRest) fun k hLow hHigh => ?_, window_overwrite hFits]
      refine putAll_elsewhere hRest fun q hq => ?_
      have hHere := hClear q hq
      unfold Apart at hHere
      omega

def overwriteAll (parts : List (Nat × List α)) (xs : List α) : List α := parts.foldl (fun xs p => overwrite xs p.1 p.2) xs

theorem putAll_eq (h : ∀ p ∈ parts, p.1 + p.2.length ≤ xs.length) : putAll parts xs = some (overwriteAll parts xs) := by
  induction parts generalizing xs with
  | nil => rfl
  | cons p parts ih =>
    obtain ⟨hHead, hTail⟩ := List.forall_mem_cons.mp h
    rw [putAll, put, if_pos hHead]
    exact ih fun q hq => by rw [length_overwrite hHead]; exact hTail q hq

end Put

end Exemu

/-! # Amounts added at places

A change that adds an amount at a place of a state, and the same change at a list of places,
one after the other. Where amounts at one place add up and the order of two places does not
matter, the whole list adds up as well.
-/
namespace Exemu

/-- On the states of `inv`, the changes at `places` add up and may change places. -/
structure Additive {σ ι A : Type} [Zero A] [Add A] (act : ι → A → σ → σ) (inv : σ → Prop) (places : List ι) : Prop where
  keeps : ∀ i ∈ places, ∀ d s, inv s → inv (act i d s)
  zero : ∀ i ∈ places, ∀ s, inv s → act i 0 s = s
  add : ∀ i ∈ places, ∀ d e s, inv s → act i e (act i d s) = act i (d + e) s
  comm : places.Pairwise fun i j => ∀ d e s, inv s → act i d (act j e s) = act j e (act i d s)

namespace Additive

variable {σ ι A : Type} [Zero A] [Add A] {act : ι → A → σ → σ} {inv : σ → Prop} {i : ι} {places : List ι} {d e : A} {s : σ}

def all (act : ι → A → σ → σ) (d : A) : List ι → σ → σ
  | [], s => s
  | i :: places, s => all act d places (act i d s)

theorem tail (h : Additive act inv (i :: places)) : Additive act inv places where
  keeps := fun j hj => h.keeps j (List.mem_cons_of_mem _ hj)
  zero := fun j hj => h.zero j (List.mem_cons_of_mem _ hj)
  add := fun j hj => h.add j (List.mem_cons_of_mem _ hj)
  comm := (List.pairwise_cons.mp h.comm).2

theorem all_zero (h : Additive act inv places) (hs : inv s) : all act 0 places s = s := by
  induction places with
  | nil => rfl
  | cons i places ih =>
    rw [all, h.zero i List.mem_cons_self s hs]
    exact ih h.tail

theorem act_all (h : Additive act inv places) (hs : inv s)
    (hComm : ∀ j ∈ places, ∀ d e s, inv s → act i d (act j e s) = act j e (act i d s)) :
    act i e (all act d places s) = all act d places (act i e s) := by
  induction places generalizing s with
  | nil => rfl
  | cons j places ih =>
    have hNext := h.keeps j List.mem_cons_self d s hs
    rw [all, all, ih h.tail hNext fun k hk => hComm k (List.mem_cons_of_mem _ hk), hComm j List.mem_cons_self e d s hs]

theorem all_all (h : Additive act inv places) (hs : inv s) : all act e places (all act d places s) = all act (d + e) places s := by
  induction places generalizing s with
  | nil => rfl
  | cons i places ih =>
    have hNext := h.keeps i List.mem_cons_self d s hs
    have hSum := h.keeps i List.mem_cons_self (d + e) s hs
    have hComm := (List.pairwise_cons.mp h.comm).1
    calc all act e places (act i e (all act d places (act i d s)))
        = all act e places (all act d places (act i e (act i d s))) := by rw [act_all h.tail hNext hComm]
      _ = all act e places (all act d places (act i (d + e) s)) := by rw [h.add i List.mem_cons_self d e s hs]
      _ = all act (d + e) places (act i (d + e) s) := ih h.tail hSum

end Additive

end Exemu
