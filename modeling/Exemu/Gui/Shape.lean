import Exemu.Gui.Line
import Exemu.Library.Area

/-! # What a drawing operation should show

Each operation has a shape in the plane, without any border.
-/
namespace Exemu.Gui

open Signed Bresenham Renderer

namespace DrawOp

def color : DrawOp → U32
  | .clear c => c
  | .fillRect _ _ _ _ c => c
  | .frameRect _ _ _ _ c => c
  | .text _ _ _ c => c
  | .line _ _ _ _ c => c
  | .pixel _ _ c => c

def box (x y w h : I32) : Area Int := ⟨x.toInt, y.toInt, x.toInt + w.toInt, y.toInt + h.toInt⟩

def OnBorder (a : Area Int) (i j : Int) : Prop := i = a.left ∨ i = a.right - 1 ∨ j = a.top ∨ j = a.bottom - 1

/-- The point of a line after `k` steps. -/
def along (x0 y0 x1 y1 : I32) (k : Nat) : Int × Int :=
  (x0.toInt + (toward x0 x1).toInt * (point (side x0 x1) (side y0 y1) k).1, y0.toInt + (toward y0 y1).toInt * (point (side x0 x1) (side y0 y1) k).2)

def shape (font : Font) : DrawOp → Int → Int → Prop
  | .clear _, _, _ => True
  | .fillRect x y w h _, i, j => (box x y w h).Covers i j
  | .frameRect x y w h _, i, j => (box x y w h).Covers i j ∧ OnBorder (box x y w h) i j
  | .text x y s _, i, j => (x.toInt ≤ i ∧ y.toInt ≤ j) ∧ Ink font s (i - x.toInt).toNat (j - y.toInt).toNat
  | .line x0 y0 x1 y1 _, i, j => ∃ k ≤ max (side x0 x1) (side y0 y1), along x0 y0 x1 y1 k = (i, j)
  | .pixel x y _, i, j => i = x.toInt ∧ j = y.toInt

end DrawOp

def Meets (font : Font) (n m : Nat) (op : DrawOp) : Prop :=
  ∀ r : Renderer, r.w = n → r.h = m → ∃ fuel r', apply font fuel r op = some r' ∧ Raster.Shows r r' (op.shape font) op.color

def Beyond (n m : Nat) (x y : Int) : Prop := n ≤ max x 0 ∨ m ≤ max y 0

def FillFine (n m : Nat) (x y w h : Int) : Prop :=
  w ≤ 0 ∨ h ≤ 0 ∨ Beyond n m x y ∨ (0 ≤ x ∨ n ≤ x + w) ∧ (0 ≤ y ∨ m ≤ y + h)

/-- A border that starts in front of the frame, across the lines along it. It has to reach
through the frame, and its first line has to be the last one too or not to show. -/
def CutFine (n m : Nat) (x y w h : Int) : Prop := n ≤ x + w ∧ ((n = 1 ∧ x + w = 1) ∨ h ≤ 2 ∨ m ≤ y + 1)

def FrameFine (n m : Nat) (x y w h : Int) : Prop :=
  (w ≤ 0 ∧ h ≤ 0) ∨ Beyond n m x y ∨ (0 < w ∧ 0 < h) ∧
    ((0 ≤ x ∧ 0 ≤ y) ∨ (x < 0 ∧ 0 ≤ y ∧ CutFine n m x y w h) ∨ (y < 0 ∧ 0 ≤ x ∧ CutFine m n y x h w) ∨
      (x < 0 ∧ y < 0 ∧ ((y + h = 1 ∧ m = 1 ∧ n ≤ x + w) ∨ (x + w = 1 ∧ n = 1 ∧ m ≤ y + h))))

/-- In the frame the text has the same ink from where the frame begins as from its own start,
there only in characters that end in the frame. -/
def TextFine (font : Font) (n m : Nat) (x y : Int) (s : List Char) : Prop :=
  ∀ u v : Nat, x.toNat + u < n → y.toNat + v < m →
    ((Ink font s u v ∧ x.toNat + 8 * (u / 8) + 8 ≤ n) ↔ Ink font s (u + (-x).toNat) (v + (-y).toNat))

def Fine (font : Font) (n m : Nat) : DrawOp → Prop
  | .clear _ => True
  | .fillRect x y w h _ => FillFine n m x.toInt y.toInt w.toInt h.toInt
  | .frameRect x y w h _ => FrameFine n m x.toInt y.toInt w.toInt h.toInt
  | .text x y s _ => TextFine font n m x.toInt y.toInt s
  | .line x0 y0 x1 y1 _ => Roomy (side x0 x1) (side y0 y1)
  | .pixel x y _ => Beyond n m x.toInt y.toInt ∨ 0 ≤ x.toInt ∧ 0 ≤ y.toInt

section Conditions

open DrawOp

variable {n m : Nat} {x y w h : Int} {font : Font} {s : List Char}

theorem clamp_eq (v : I32) : clamp v = v.toInt.toNat := by
  have hMax : (smax v 0).toInt = max v.toInt 0 := toInt_smax v 0
  rw [clamp, ← toNat_toInt (by omega), hMax]
  omega

theorem fillFine_iff {a : Rect} (ha : a = ⟨x.toNat, y.toNat, w.toNat, h.toNat⟩) :
    (∀ i < n, ∀ j < m, (i, j) ∈ fillPoints n m a ↔ (Area.mk x y (x + w) (y + h)).Covers (i : Int) j) ↔ FillFine n m x y w h := by
  subst ha
  simp only [mem_fillPoints, Area.covers_iff, FillFine, Beyond]
  constructor
  · intro hSame
    by_contra hNot
    -- the first cell behind the rectangle that is drawn all the same
    have hCol : 0 ≤ x ∨ n ≤ x + w := by
      by_contra hShort
      have hHere := hSame (x + w).toNat (by omega) y.toNat (by omega)
      omega
    have hRow : 0 ≤ y ∨ m ≤ y + h := by
      by_contra hShort
      have hHere := hSame x.toNat (by omega) (y + h).toNat (by omega)
      omega
    exact hNot (.inr (.inr (.inr ⟨hCol, hRow⟩)))
  · intro hFine i hi j hj
    omega

def BorderAt (x y w h : Int) (i j : Nat) : Prop :=
  (((max x 0 ≤ i ∧ (i : Int) < max x 0 + w) ∧ ((j : Int) = max y 0 ∨ (j : Int) = max y 0 + max (h - 1) 0)) ∨
      (max y 0 ≤ j ∧ (j : Int) < max y 0 + h) ∧ ((i : Int) = max x 0 ∨ (i : Int) = max x 0 + max (w - 1) 0)) ↔
    (x ≤ i ∧ y ≤ j ∧ (i : Int) < x + w ∧ (j : Int) < y + h) ∧ ((i : Int) = x ∨ (i : Int) = x + w - 1 ∨ (j : Int) = y ∨ (j : Int) = y + h - 1)

variable {i j : Nat}

theorem borderAt_iff {a : Rect} (ha : a = ⟨x.toNat, y.toNat, w.toNat, h.toNat⟩) :
    ((i, j) ∈ framePoints a ↔ (Area.mk x y (x + w) (y + h)).Covers (i : Int) j ∧ OnBorder ⟨x, y, x + w, y + h⟩ i j) ↔ BorderAt x y w h i j := by
  subst ha
  refine iff_congr ?_ ?_
  · simp only [mem_framePoints]
    have hLine (v l : Int) (k : Nat) : (k = v.toNat ∨ k = v.toNat + (l.toNat - 1)) ↔ ((k : Int) = max v 0 ∨ (k : Int) = max v 0 + max (l - 1) 0) := by omega
    have hSide (v l : Int) (k : Nat) : (v.toNat ≤ k ∧ k < v.toNat + l.toNat) ↔ (max v 0 ≤ k ∧ (k : Int) < max v 0 + l) := by omega
    exact or_congr (and_congr (hSide x w i) (hLine y h j)) (and_congr (hSide y h j) (hLine x w i))
  · rw [Area.covers_iff]
    rfl

section Border

variable (hSame : ∀ i < n, ∀ j < m, BorderAt x y w h i j)
include hSame

theorem frame_solid (hn : max x 0 < n) (hm : max y 0 < m) : (w ≤ 0 ∧ h ≤ 0) ∨ 0 < w ∧ 0 < h := by
  have hHere := hSame x.toNat (by omega) y.toNat (by omega)
  unfold BorderAt at hHere
  omega

theorem frame_left (hx : x < 0) (hy : 0 ≤ y) (hw : 0 < w) (hh : 0 < h) (hn : 0 < n) (hm : y < m) : CutFine n m x y w h := by
  have hThrough : n ≤ x + w := by
    by_contra hShort
    have hNext := hSame (x + w).toNat (by omega) y.toNat (by omega)
    unfold BorderAt at hNext
    omega
  refine ⟨hThrough, ?_⟩
  by_contra hNot
  have hInner := hSame 0 hn (y + 1).toNat (by omega)
  unfold BorderAt at hInner
  omega

theorem frame_top (hx : 0 ≤ x) (hy : y < 0) (hw : 0 < w) (hh : 0 < h) (hn : x < n) (hm : 0 < m) : CutFine m n y x h w := by
  have hThrough : m ≤ y + h := by
    by_contra hShort
    have hNext := hSame x.toNat (by omega) (y + h).toNat (by omega)
    unfold BorderAt at hNext
    omega
  refine ⟨hThrough, ?_⟩
  by_contra hNot
  have hInner := hSame (x + 1).toNat (by omega) 0 hm
  unfold BorderAt at hInner
  omega

theorem frame_corner (hx : x < 0) (hy : y < 0) (hw : 0 < w) (hh : 0 < h) (hn : 0 < n) (hm : 0 < m) :
    (y + h = 1 ∧ m = 1 ∧ n ≤ x + w) ∨ (x + w = 1 ∧ n = 1 ∧ m ≤ y + h) := by
  have hHere := hSame 0 hn 0 hm
  -- the first cell shows, so it is on the last row or the last column
  have hReach : 0 < x + w ∧ 0 < y + h ∧ (x + w = 1 ∨ y + h = 1) := by
    unfold BorderAt at hHere
    omega
  obtain ⟨hLeft, hTop, hOne | hOne⟩ := hReach
  · refine .inr ⟨hOne, ?_, ?_⟩
    · by_contra hWide
      have hNext := hSame 1 (by omega) 0 hm
      unfold BorderAt at hNext
      omega
    · by_contra hShort
      have hNext := hSame 0 hn (y + h).toNat (by omega)
      unfold BorderAt at hNext
      omega
  · refine .inl ⟨hOne, ?_, ?_⟩
    · by_contra hWide
      have hNext := hSame 0 hn 1 (by omega)
      unfold BorderAt at hNext
      omega
    · by_contra hShort
      have hNext := hSame (x + w).toNat (by omega) 0 hm
      unfold BorderAt at hNext
      omega

theorem frameFine_of_same : FrameFine n m x y w h := by
  unfold FrameFine Beyond
  rcases le_or_gt (n : Int) (max x 0) with hOut | hn
  · exact .inr (.inl (.inl hOut))
  rcases le_or_gt (m : Int) (max y 0) with hOut | hm
  · exact .inr (.inl (.inr hOut))
  rcases frame_solid hSame hn hm with hEmpty | ⟨hw, hh⟩
  · exact .inl hEmpty
  refine .inr (.inr ⟨⟨hw, hh⟩, ?_⟩)
  rcases lt_or_ge x 0 with hx | hx
  · rcases lt_or_ge y 0 with hy | hy
    · exact .inr (.inr (.inr ⟨hx, hy, frame_corner hSame hx hy hw hh (by omega) (by omega)⟩))
    · exact .inr (.inl ⟨hx, hy, frame_left hSame hx hy hw hh (by omega) (by omega)⟩)
  · rcases lt_or_ge y 0 with hy | hy
    · exact .inr (.inr (.inl ⟨hy, hx, frame_top hSame hx hy hw hh (by omega) (by omega)⟩))
    · exact .inl ⟨hx, hy⟩

end Border

theorem same_of_frameFine (hFine : FrameFine n m x y w h) (hi : i < n) (hj : j < m) : BorderAt x y w h i j := by
  unfold BorderAt
  rcases hFine with hEmpty | hBeyond | ⟨hSolid, ⟨hx, hy⟩ | ⟨hx, hy, hThrough, hCut⟩ | ⟨hy, hx, hThrough, hCut⟩ | ⟨hx, hy, hCut⟩⟩
  · refine iff_of_false ?_ ?_ <;> omega
  · unfold Beyond at hBeyond
    refine iff_of_false ?_ ?_ <;> omega
  · rw [max_eq_left hx, max_eq_left hy, max_eq_left (by omega : 0 ≤ h - 1), max_eq_left (by omega : 0 ≤ w - 1)]
    constructor <;> intro hIn <;> omega
  · rw [max_eq_right (le_of_lt hx), max_eq_left hy, max_eq_left (by omega : 0 ≤ h - 1), max_eq_left (by omega : 0 ≤ w - 1)]
    rcases hCut with hOne | hFlat | hLow <;> constructor <;> intro hIn <;> omega
  · rw [max_eq_left hx, max_eq_right (le_of_lt hy), max_eq_left (by omega : 0 ≤ h - 1), max_eq_left (by omega : 0 ≤ w - 1)]
    rcases hCut with hOne | hFlat | hLow <;> constructor <;> intro hIn <;> omega
  · rw [max_eq_right (le_of_lt hx), max_eq_right (le_of_lt hy), max_eq_left (by omega : 0 ≤ h - 1), max_eq_left (by omega : 0 ≤ w - 1)]
    rcases hCut with hRow | hColumn <;> constructor <;> intro hIn <;> omega

theorem frameFine_iff {a : Rect} (ha : a = ⟨x.toNat, y.toNat, w.toNat, h.toNat⟩) :
    (∀ i < n, ∀ j < m, (i, j) ∈ framePoints a ↔ (Area.mk x y (x + w) (y + h)).Covers (i : Int) j ∧ OnBorder ⟨x, y, x + w, y + h⟩ i j) ↔
      FrameFine n m x y w h :=
  ⟨fun hSame => frameFine_of_same fun _ hi _ hj => (borderAt_iff ha).mp (hSame _ hi _ hj),
    fun hFine _ hi _ hj => (borderAt_iff ha).mpr (same_of_frameFine hFine hi hj)⟩

theorem pixelFine_iff : (∀ i < n, ∀ j < m, (i, j) ∈ [(x.toNat, y.toNat)] ↔ ((i : Int) = x ∧ (j : Int) = y)) ↔ Beyond n m x y ∨ 0 ≤ x ∧ 0 ≤ y := by
  simp only [List.mem_singleton, Prod.mk.injEq, Beyond]
  constructor
  · intro hSame
    by_contra hNot
    have hHere := hSame x.toNat (by omega) y.toNat (by omega)
    omega
  · intro hFine i hi j hj
    omega

theorem textFine_iff : (∀ i < n, ∀ j < m, (i, j) ∈ textPoints font n s x.toNat y.toNat ↔
    (x ≤ i ∧ y ≤ j) ∧ Ink font s ((i : Int) - x).toNat ((j : Int) - y).toNat) ↔ TextFine font n m x y s := by
  have hPlace : ∀ (z : Int) (u : Nat), (((z.toNat + u : Nat) : Int) - z).toNat = u + (-z).toNat := fun z u => by omega
  simp only [mem_textPoints]
  constructor
  · intro hSame u v hu hv
    have hHere := hSame (x.toNat + u) hu (y.toNat + v) hv
    rw [hPlace, hPlace, Nat.add_sub_cancel_left, Nat.add_sub_cancel_left] at hHere
    constructor
    · intro hInk
      exact (hHere.mp ⟨⟨Nat.le_add_right _ u, Nat.le_add_right _ v⟩, hInk⟩).2
    · intro hInk
      exact (hHere.mpr ⟨⟨by omega, by omega⟩, hInk⟩).2
  · intro hFine i hi j hj
    have hFrom : (x.toNat ≤ i ∧ y.toNat ≤ j) ↔ x ≤ i ∧ y ≤ j := by omega
    rw [hFrom]
    refine and_congr_right fun hRight => ?_
    obtain ⟨u, rfl⟩ := Nat.exists_eq_add_of_le (hFrom.mpr hRight).1
    obtain ⟨v, rfl⟩ := Nat.exists_eq_add_of_le (hFrom.mpr hRight).2
    rw [hPlace, hPlace, Nat.add_sub_cancel_left, Nat.add_sub_cancel_left]
    exact hFine u v hi hj

theorem mem_dotPoints : (i, j) ∈ dotPoints x y ↔ (x, y) = ((i : Int), (j : Int)) := by
  rw [dotPoints, List.mem_ite_nil_right, List.mem_singleton, Prod.mk.injEq, Prod.mk.injEq]
  omega

theorem mem_linePoints {x0 y0 x1 y1 : I32} :
    (i, j) ∈ linePoints x0.toInt y0.toInt (toward x0 x1).toInt (toward y0 y1).toInt (side x0 x1) (side y0 y1) 0 ↔
      ∃ k ≤ max (side x0 x1) (side y0 y1), along x0 y0 x1 y1 k = ((i : Int), (j : Int)) := by
  simp only [linePoints, List.mem_flatMap, mem_span, mem_dotPoints, Nat.lt_succ_iff, Nat.zero_le, true_and]
  exact Iff.rfl

end Conditions

section Results

variable {n m : Nat} {font : Font} {op : DrawOp}

theorem clear_shows (r : Renderer) (c : U32) : Raster.Shows r (clear r c) (DrawOp.shape font (.clear c)) c where
  w := rfl
  h := rfl
  inside := fun i hi j hj _ => by
    have hCell := Raster.cell_lt hi hj
    have hPixel : (clear r c).pixel i j = (r.buf.map fun _ => c)[j * r.w + i]? := if_pos ⟨hi, hj⟩
    rw [hPixel, List.getElem?_map, List.getElem?_eq_getElem hCell]
    rfl
  outside := fun _ _ _ _ hOut => absurd trivial hOut

theorem meets_of_points {ps : List (Nat × Nat)} (hEnds : ∀ r : Renderer, r.w = n → r.h = m → ∃ fuel r', apply font fuel r op = some r')
    (hDrawn : ∀ fuel (r r' : Renderer), r.w = n → r.h = m → apply font fuel r op = some r' → r' = r.paint ps op.color) :
    Meets font n m op ↔ ∀ i < n, ∀ j < m, (i, j) ∈ ps ↔ op.shape font i j := by
  have : Nontrivial U32 := ⟨0, 1, by decide⟩
  have hShown : (∀ r : Renderer, r.w = n → r.h = m → Raster.Shows r (r.paint ps op.color) (op.shape font) op.color) ↔ _ := Raster.shows_paint_iff ps
  rw [← hShown]
  constructor
  · intro hMeets r hw hh
    obtain ⟨fuel, r', hRun, hShows⟩ := hMeets r hw hh
    exact hDrawn fuel r r' hw hh hRun ▸ hShows
  · intro hShows r hw hh
    obtain ⟨fuel, r', hRun⟩ := hEnds r hw hh
    exact ⟨fuel, r', hRun, hDrawn fuel r r' hw hh hRun ▸ hShows r hw hh⟩

theorem meets_of_paint (op : DrawOp) {ps : List (Nat × Nat)}
    (hPaint : ∀ fuel (r : Renderer), r.w = n → r.h = m → apply font fuel r op = some (r.paint ps op.color)) :
    Meets font n m op ↔ ∀ i < n, ∀ j < m, (i, j) ∈ ps ↔ op.shape font i j := by
  refine meets_of_points (fun r hw hh => ⟨0, _, hPaint 0 r hw hh⟩) fun fuel r r' hw hh hRun => ?_
  rw [hPaint fuel r hw hh] at hRun
  exact (Option.some.inj hRun).symm

theorem line_meets {x0 y0 x1 y1 : I32} {c : U32} : Meets font n m (.line x0 y0 x1 y1 c) ↔ Roomy (side x0 x1) (side y0 y1) := by
  constructor
  · intro hMeets
    obtain ⟨fuel, r', hRun, -⟩ := hMeets (Raster.filled n m 0) rfl rfl
    exact (line_some hRun).1
  · intro hRoomy
    obtain ⟨fuel, hEnds⟩ := @line_exists x0 y0 x1 y1 c hRoomy
    have hDrawn : ∀ fuel (r r' : Renderer), r.w = n → r.h = m → apply font fuel r (.line x0 y0 x1 y1 c) = some r' → r' = r.paint _ c :=
      fun _ _ _ _ _ hRun => (line_some hRun).2
    have hAll : ∀ r : Renderer, r.w = n → r.h = m → ∃ fuel r', apply font fuel r (.line x0 y0 x1 y1 c) = some r' := fun r _ _ => ⟨fuel, hEnds r⟩
    exact (meets_of_points hAll hDrawn).mpr fun _ _ _ _ => mem_linePoints

theorem rect_eq (x y w h : I32) : rect x y w h = ⟨x.toInt.toNat, y.toInt.toNat, w.toInt.toNat, h.toInt.toNat⟩ := by
  rw [rect, clamp_eq, clamp_eq, clamp_eq, clamp_eq]

theorem fillRect_meets {x y w h : I32} {c : U32} : Meets font n m (.fillRect x y w h c) ↔ FillFine n m x.toInt y.toInt w.toInt h.toInt := by
  refine (meets_of_paint (.fillRect x y w h c) fun fuel r hw hh => ?_).trans (fillFine_iff (rect_eq x y w h))
  rw [← hw, ← hh]
  exact fill_eq

/-- Exactly under these conditions an operation ends without an overflow and shows its shape. -/
theorem apply_meets_iff (font : Font) (n m : Nat) (op : DrawOp) : Meets font n m op ↔ Fine font n m op := by
  cases op with
  | clear c => exact ⟨fun _ => trivial, fun _ r _ _ => ⟨0, clear r c, rfl, clear_shows r c⟩⟩
  | fillRect x y w h c => exact fillRect_meets
  | frameRect x y w h c =>
    refine (meets_of_paint (.frameRect x y w h c) fun fuel r _ _ => ?_).trans (frameFine_iff (rect_eq x y w h))
    exact frame_eq
  | text x y s c =>
    refine (meets_of_paint (.text x y s c) fun fuel r hw _ => ?_).trans textFine_iff
    rw [← hw, ← clamp_eq, ← clamp_eq]
    exact text_eq
  | line x0 y0 x1 y1 c => exact line_meets
  | pixel x y c =>
    refine (meets_of_paint (.pixel x y c) fun fuel r _ _ => ?_).trans pixelFine_iff
    rw [← clamp_eq, ← clamp_eq]
    exact px_eq

/-- Of two columns the left one is in front of the frame, and still two columns change. -/
theorem shifted_rect_grows : ¬Meets (fun _ => none) 2 1 (.fillRect (-1) 0 2 1 0xFF0000) := by
  rw [fillRect_meets, show (-1 : I32).toInt = -1 from rfl, show (0 : I32).toInt = 0 from rfl, show (1 : I32).toInt = 1 from rfl,
    show (2 : I32).toInt = 2 from rfl]
  unfold FillFine Beyond
  omega

end Results
end Exemu.Gui
