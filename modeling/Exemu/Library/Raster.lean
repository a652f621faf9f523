import Mathlib.Algebra.Order.Ring.Nat
import Mathlib.Data.List.Basic

/-! # Rasters

A picture of cells in rows, held in one list.
-/
namespace Exemu

structure Raster (α : Type) where
  w : Nat
  h : Nat
  buf : List α
  sized : buf.length = w * h

namespace Raster

variable {α : Type}

def filled (w h : Nat) (c : α) : Raster α := ⟨w, h, List.replicate (w * h) c, List.length_replicate⟩

def setAt (r : Raster α) (i : Nat) (c : α) : Raster α := ⟨r.w, r.h, r.buf.set i c, List.length_set.trans r.sized⟩

def store (r : Raster α) (i : Nat) (c : α) : Option (Raster α) := if i < r.buf.length then some (r.setAt i c) else none

def pixel (r : Raster α) (x y : Nat) : Option α := if x < r.w ∧ y < r.h then r.buf[y * r.w + x]? else none

def put (r : Raster α) (x y : Nat) (c : α) : Raster α := if x < r.w ∧ y < r.h then r.setAt (y * r.w + x) c else r

def paint (r : Raster α) (ps : List (Nat × Nat)) (c : α) : Raster α := ps.foldl (fun r p => r.put p.1 p.2 c) r

variable (r : Raster α) (x y i j : Nat) (c : α) (ps qs : List (Nat × Nat))

@[simp] theorem put_w : (r.put x y c).w = r.w := by
  unfold put
  split <;> rfl

@[simp] theorem put_h : (r.put x y c).h = r.h := by
  unfold put
  split <;> rfl

@[simp] theorem paint_nil : r.paint [] c = r := rfl

@[simp] theorem paint_cons (p : Nat × Nat) : r.paint (p :: ps) c = (r.put p.1 p.2 c).paint ps c := rfl

theorem paint_append : r.paint (ps ++ qs) c = (r.paint ps c).paint qs c := List.foldl_append

@[simp] theorem paint_w : (r.paint ps c).w = r.w := by
  induction ps generalizing r with
  | nil => rfl
  | cons p ps ih => rw [paint_cons, ih, put_w]

@[simp] theorem paint_h : (r.paint ps c).h = r.h := by
  induction ps generalizing r with
  | nil => rfl
  | cons p ps ih => rw [paint_cons, ih, put_h]

variable {r x y i j c}

theorem cell_inj {w : Nat} (hi : i < w) (hx : x < w) : j * w + i = y * w + x ↔ i = x ∧ j = y := by
  constructor
  · intro h
    have hCol := congrArg (· % w) h
    have hRow := congrArg (· / w) h
    simp only [Nat.mul_add_mod', Nat.mod_eq_of_lt hi, Nat.mod_eq_of_lt hx] at hCol
    refine ⟨hCol, ?_⟩
    rw [hCol] at h
    exact Nat.eq_of_mul_eq_mul_right (Nat.zero_lt_of_lt hi) (Nat.add_right_cancel h)
  · rintro ⟨rfl, rfl⟩
    rfl

theorem cell_lt (hx : x < r.w) (hy : y < r.h) : y * r.w + x < r.buf.length := by
  rw [r.sized]
  calc y * r.w + x < y * r.w + r.w := Nat.add_lt_add_left hx _
    _ = (y + 1) * r.w := (Nat.succ_mul y r.w).symm
    _ ≤ r.h * r.w := Nat.mul_le_mul_right _ hy
    _ = r.w * r.h := Nat.mul_comm _ _

theorem store_cell (hx : x < r.w) (hy : y < r.h) (c : α) : r.store (y * r.w + x) c = some (r.put x y c) := by
  rw [store, if_pos (cell_lt hx hy), put, if_pos ⟨hx, hy⟩]

theorem pixel_put (hi : i < r.w) (hj : j < r.h) : (r.put x y c).pixel i j = if i = x ∧ j = y then some c else r.pixel i j := by
  have hSame : (r.put x y c).pixel i j = (r.put x y c).buf[j * r.w + i]? := by
    rw [pixel, put_w, put_h, if_pos ⟨hi, hj⟩]
  have hOld : r.pixel i j = r.buf[j * r.w + i]? := if_pos ⟨hi, hj⟩
  rw [hSame, hOld, put]
  split
  · rename_i hIn
    rw [setAt, List.getElem?_set]
    by_cases hHere : i = x ∧ j = y
    · rw [if_pos hHere, if_pos ((cell_inj hi hIn.1).mpr hHere).symm, if_pos (cell_lt hIn.1 hIn.2)]
    · rw [if_neg hHere, if_neg fun h => hHere ((cell_inj hi hIn.1).mp h.symm)]
  · rename_i hOut
    refine (if_neg ?_).symm
    rintro ⟨rfl, rfl⟩
    exact hOut ⟨hi, hj⟩

theorem pixel_paint (hi : i < r.w) (hj : j < r.h) : (r.paint ps c).pixel i j = if (i, j) ∈ ps then some c else r.pixel i j := by
  induction ps generalizing r with
  | nil => rw [paint_nil, if_neg List.not_mem_nil]
  | cons p ps ih =>
    rw [paint_cons, ih (by rwa [put_w]) (by rwa [put_h]), pixel_put hi hj]
    split
    · rename_i hLater
      rw [if_pos (List.mem_cons_of_mem p hLater)]
    · rename_i hNever
      have hHead : (i, j) ∈ p :: ps ↔ i = p.1 ∧ j = p.2 :=
        ⟨fun h => Prod.ext_iff.mp ((List.mem_cons.mp h).resolve_right hNever), fun h => List.mem_cons.mpr (.inl (Prod.ext h.1 h.2))⟩
      exact if_congr hHead.symm rfl rfl

theorem pixel_filled {w h : Nat} (hi : i < w) (hj : j < h) : (filled w h c).pixel i j = some c := by
  have hCell : j * w + i < w * h := by
    have hLt := @cell_lt _ (filled w h c) i j hi hj
    rwa [(filled w h c).sized] at hLt
  exact (if_pos ⟨hi, hj⟩).trans (List.getElem?_replicate_of_lt hCell)

/-- Exactly the cells of the shape have got the colour, all others are left. -/
structure Shows (r r' : Raster α) (shape : Int → Int → Prop) (c : α) : Prop where
  w : r'.w = r.w
  h : r'.h = r.h
  inside : ∀ i < r.w, ∀ j < r.h, shape i j → r'.pixel i j = some c
  outside : ∀ i < r.w, ∀ j < r.h, ¬shape i j → r'.pixel i j = r.pixel i j

theorem shows_paint_iff [Nontrivial α] {w h : Nat} {shape : Int → Int → Prop} :
    (∀ r : Raster α, r.w = w → r.h = h → Shows r (r.paint ps c) shape c) ↔ ∀ i < w, ∀ j < h, (i, j) ∈ ps ↔ shape i j := by
  constructor
  · intro hShows i hi j hj
    obtain ⟨other, hOther⟩ := exists_ne c
    have hHere := hShows (filled w h other) rfl rfl
    have hDrawn := @pixel_paint _ (filled w h other) i j c ps hi hj
    constructor
    · intro hPoint
      by_contra hOut
      rw [if_pos hPoint, hHere.outside i hi j hj hOut, pixel_filled hi hj] at hDrawn
      exact hOther (Option.some.inj hDrawn)
    · intro hShape
      by_contra hNone
      rw [if_neg hNone, hHere.inside i hi j hj hShape, pixel_filled hi hj] at hDrawn
      exact hOther (Option.some.inj hDrawn).symm
  · rintro hSame r rfl rfl
    refine ⟨paint_w r c ps, paint_h r c ps, fun i hi j hj hShape => ?_, fun i hi j hj hOut => ?_⟩
    · rw [pixel_paint ps hi hj, if_pos ((hSame i hi j hj).mpr hShape)]
    · rw [pixel_paint ps hi hj, if_neg fun hPoint => hOut ((hSame i hi j hj).mp hPoint)]

theorem foldlM_some {β : Type} {f : Raster α → β → Option (Raster α)} {g : Raster α → β → Raster α} (l : List β)
    (hSize : ∀ r b, (g r b).w = r.w ∧ (g r b).h = r.h) (hf : ∀ r' : Raster α, r'.w = r.w → r'.h = r.h → ∀ b ∈ l, f r' b = some (g r' b)) :
    l.foldlM f r = some (l.foldl g r) := by
  induction l generalizing r with
  | nil => rfl
  | cons b l ih =>
    rw [List.foldlM_cons, hf r rfl rfl b List.mem_cons_self]
    refine ih fun r' hw hh b' hb' => ?_
    exact hf r' (hw.trans (hSize r b).1) (hh.trans (hSize r b).2) b' (List.mem_cons_of_mem b hb')

theorem foldlM_paint {β : Type} (f : Raster α → β → Option (Raster α)) (pts : β → List (Nat × Nat)) (l : List β)
    (hf : ∀ r' : Raster α, r'.w = r.w → r'.h = r.h → ∀ b ∈ l, f r' b = some (r'.paint (pts b) c)) :
    l.foldlM f r = some (r.paint (l.flatMap pts) c) := by
  refine (foldlM_some l (fun r b => ⟨paint_w r c (pts b), paint_h r c (pts b)⟩) hf).trans (congrArg some ?_)
  exact List.foldl_flatMap.symm

end Raster
end Exemu
