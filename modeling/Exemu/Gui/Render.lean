import Exemu.Core.Memory
import Exemu.Library.Bresenham
import Exemu.Library.Raster
import Exemu.Library.Signed

/-! # Drawing into a frame

The frame buffer of a window that the guest draws itself, and the six drawing operations.
-/
namespace Exemu.Gui

open Signed

abbrev I32 := BitVec 32

inductive DrawOp
  | clear (color : U32)
  | fillRect (x y w h : I32) (color : U32)
  | frameRect (x y w h : I32) (color : U32)
  | text (x y : I32) (text : List Char) (color : U32)
  | line (x0 y0 x1 y1 : I32) (color : U32)
  | pixel (x y : I32) (color : U32)
  deriving DecidableEq, Repr

abbrev Renderer := Raster U32

abbrev Font := Char → Option (List U8)

structure Rect where
  x : Nat
  y : Nat
  w : Nat
  h : Nat
  deriving DecidableEq, Repr

namespace Renderer

/-- The numbers from `lo` on below `hi`. -/
def span (lo hi : Nat) : List Nat := List.range' lo (hi - lo)

def px (r : Renderer) (x y : Nat) (c : U32) : Option Renderer := if x < r.w ∧ y < r.h then r.store (y * r.w + x) c else some r

def fillRow (r : Renderer) (a : Rect) (y : Nat) (c : U32) : Option Renderer :=
  (span a.x (min (a.x + a.w) r.w)).foldlM (fun r x => Raster.store r (y * r.w + x) c) r

def fill (r : Renderer) (a : Rect) (c : U32) : Option Renderer :=
  (span a.y (min (a.y + a.h) r.h)).foldlM (fun r y => fillRow r a y c) r

def frame (r : Renderer) (a : Rect) (c : U32) : Option Renderer := do
  let r ← (span a.x (a.x + a.w)).foldlM (fun r x => do px (← px r x a.y c) x (a.y + (a.h - 1)) c) r
  (span a.y (a.y + a.h)).foldlM (fun r y => do px (← px r a.x y c) (a.x + (a.w - 1)) y c) r

def glyphRow (r : Renderer) (bits : U8) (x y : Nat) (c : U32) : Option Renderer :=
  (List.range 8).foldlM (fun r rx => if bits.getLsbD rx then px r (x + rx) y c else some r) r

def glyph (font : Font) (r : Renderer) (ch : Char) (x y : Nat) (c : U32) : Option Renderer :=
  match font ch with
  | some rows => rows.zipIdx.foldlM (fun r row => glyphRow r row.1 x (y + row.2) c) r
  | none => some r

def text (font : Font) (r : Renderer) (s : List Char) (x y : Nat) (c : U32) : Option Renderer :=
  match s with
  | [] => some r
  | ch :: s => if r.w < x + 8 then some r else do text font (← glyph font r ch x y c) s (x + 8) y c

/-- Where a line goes to, its sides as the loop counts them, and the steps it takes. -/
structure Slope where
  x1 : I32
  y1 : I32
  dx : I32
  dy : I32
  sx : I32
  sy : I32
  deriving DecidableEq, Repr

def addIf (b : Bool) (v step : I32) : Option I32 := if b then checkedAdd v step else some v

def lineStep (l : Slope) (x0 y0 err : I32) : Option (I32 × I32 × I32) := do
  let e2 : I32 ← fit (2 * err.toInt)
  let err ← addIf (l.dy.sle e2) err l.dy
  let x0 ← addIf (l.dy.sle e2) x0 l.sx
  let err ← addIf (e2.sle l.dx) err l.dx
  let y0 ← addIf (e2.sle l.dx) y0 l.sy
  some (x0, y0, err)

def dot (r : Renderer) (x0 y0 : I32) (c : U32) : Option Renderer :=
  if 0 ≤ x0.toInt ∧ 0 ≤ y0.toInt then px r x0.toNat y0.toNat c else some r

def lineLoop (l : Slope) (c : U32) : Nat → Renderer → I32 → I32 → I32 → Option Renderer
  | 0, _, _, _, _ => none
  | fuel + 1, r, x0, y0, err => do
    let r ← dot r x0 y0 c
    if x0 = l.x1 ∧ y0 = l.y1 then some r else do
      let s ← lineStep l x0 y0 err
      lineLoop l c fuel r s.1 s.2.1 s.2.2

def checkedAbs (v : I32) : Option I32 := fit |v.toInt|

/-- How far apart two numbers are, if that and their difference are numbers of 32 bits. -/
def distance (a b : I32) : Option I32 := do checkedAbs (← fit (b.toInt - a.toInt))

def toward (a b : I32) : I32 := if a.slt b then 1 else -1

def line (fuel : Nat) (r : Renderer) (x0 y0 x1 y1 : I32) (c : U32) : Option Renderer := do
  let dx ← distance x0 x1
  let dy : I32 ← fit (-(← distance y0 y1).toInt)
  let err ← checkedAdd dx dy
  lineLoop ⟨x1, y1, dx, dy, toward x0 x1, toward y0 y1⟩ c fuel r x0 y0 err

def clamp (v : I32) : Nat := (smax v 0).toNat

def rect (x y w h : I32) : Rect := ⟨clamp x, clamp y, clamp w, clamp h⟩

def clear (r : Renderer) (c : U32) : Renderer := ⟨r.w, r.h, r.buf.map fun _ => c, (List.length_map _).trans r.sized⟩

def apply (font : Font) (fuel : Nat) (r : Renderer) : DrawOp → Option Renderer
  | .clear color => some (clear r color)
  | .fillRect x y w h color => fill r (rect x y w h) color
  | .frameRect x y w h color => frame r (rect x y w h) color
  | .text x y s color => text font r s (clamp x) (clamp y) color
  | .line x0 y0 x1 y1 color => line fuel r x0 y0 x1 y1 color
  | .pixel x y color => px r (clamp x) (clamp y) color

section Points

variable {n m x y i j : Nat} {a : Rect} {font : Font}

def fillPoints (n m : Nat) (a : Rect) : List (Nat × Nat) :=
  (span a.y (min (a.y + a.h) m)).flatMap fun y => (span a.x (min (a.x + a.w) n)).map fun x => (x, y)

def framePoints (a : Rect) : List (Nat × Nat) :=
  ((span a.x (a.x + a.w)).flatMap fun x => [(x, a.y), (x, a.y + (a.h - 1))]) ++
    (span a.y (a.y + a.h)).flatMap fun y => [(a.x, y), (a.x + (a.w - 1), y)]

def rowPoints (bits : U8) (x y : Nat) : List (Nat × Nat) :=
  (List.range 8).flatMap fun rx => if bits.getLsbD rx then [(x + rx, y)] else []

def glyphPoints (font : Font) (ch : Char) (x y : Nat) : List (Nat × Nat) :=
  match font ch with
  | some rows => rows.zipIdx.flatMap fun row => rowPoints row.1 x (y + row.2)
  | none => []

def textPoints (font : Font) (n : Nat) (s : List Char) (x y : Nat) : List (Nat × Nat) :=
  match s with
  | [] => []
  | ch :: s => if n < x + 8 then [] else glyphPoints font ch x y ++ textPoints font n s (x + 8) y

def inked (font : Font) (ch : Char) (u v : Nat) : Bool :=
  match (font ch).bind fun rows => rows[v]? with
  | some bits => bits.getLsbD u
  | none => false

def Ink (font : Font) (s : List Char) (u v : Nat) : Prop := ∃ ch, s[u / 8]? = some ch ∧ inked font ch (u % 8) v = true

theorem mem_span {lo hi : Nat} : i ∈ span lo hi ↔ lo ≤ i ∧ i < hi := by
  rw [span, List.mem_range'_1]
  omega

theorem mem_fillPoints : (i, j) ∈ fillPoints n m a ↔ (a.x ≤ i ∧ i < min (a.x + a.w) n) ∧ a.y ≤ j ∧ j < min (a.y + a.h) m := by
  simp only [fillPoints, List.mem_flatMap, List.mem_map, mem_span, Prod.mk.injEq]
  constructor
  · rintro ⟨y, hRow, x, hCol, rfl, rfl⟩
    exact ⟨hCol, hRow⟩
  · rintro ⟨hCol, hRow⟩
    exact ⟨j, hRow, i, hCol, rfl, rfl⟩

theorem mem_framePoints : (i, j) ∈ framePoints a ↔
    ((a.x ≤ i ∧ i < a.x + a.w) ∧ (j = a.y ∨ j = a.y + (a.h - 1))) ∨ (a.y ≤ j ∧ j < a.y + a.h) ∧ (i = a.x ∨ i = a.x + (a.w - 1)) := by
  simp only [framePoints, List.mem_append, List.mem_flatMap, mem_span, List.mem_cons, List.not_mem_nil, or_false, Prod.mk.injEq]
  constructor
  · rintro (⟨x, hCol, ⟨rfl, rfl⟩ | ⟨rfl, rfl⟩⟩ | ⟨y, hRow, ⟨rfl, rfl⟩ | ⟨rfl, rfl⟩⟩)
    · exact .inl ⟨hCol, .inl rfl⟩
    · exact .inl ⟨hCol, .inr rfl⟩
    · exact .inr ⟨hRow, .inl rfl⟩
    · exact .inr ⟨hRow, .inr rfl⟩
  · rintro (⟨hCol, rfl | rfl⟩ | ⟨hRow, rfl | rfl⟩)
    · exact .inl ⟨i, hCol, .inl ⟨rfl, rfl⟩⟩
    · exact .inl ⟨i, hCol, .inr ⟨rfl, rfl⟩⟩
    · exact .inr ⟨j, hRow, .inl ⟨rfl, rfl⟩⟩
    · exact .inr ⟨j, hRow, .inr ⟨rfl, rfl⟩⟩

theorem mem_rowPoints {bits : U8} : (i, j) ∈ rowPoints bits x y ↔ (x ≤ i ∧ bits.getLsbD (i - x) = true) ∧ j = y := by
  simp only [rowPoints, List.mem_flatMap, List.mem_range, List.mem_ite_nil_right, List.mem_singleton, Prod.mk.injEq]
  constructor
  · rintro ⟨rx, -, hInk, rfl, rfl⟩
    rw [Nat.add_sub_cancel_left]
    exact ⟨⟨Nat.le_add_right x rx, hInk⟩, rfl⟩
  · rintro ⟨⟨hLeft, hInk⟩, rfl⟩
    exact ⟨i - x, BitVec.lt_of_getLsbD hInk, hInk, by omega, rfl⟩

theorem mem_glyphPoints {ch : Char} : (i, j) ∈ glyphPoints font ch x y ↔ (x ≤ i ∧ y ≤ j) ∧ inked font ch (i - x) (j - y) = true := by
  unfold glyphPoints inked
  cases font ch with
  | none => exact ⟨fun h => absurd h List.not_mem_nil, fun h => absurd h.2 Bool.false_ne_true⟩
  | some rows =>
    simp only [Option.bind_some, List.mem_flatMap, mem_rowPoints]
    constructor
    · rintro ⟨⟨bits, k⟩, hRow, ⟨hLeft, hInk⟩, rfl⟩
      rw [Nat.add_sub_cancel_left, List.mk_mem_zipIdx_iff_getElem?.mp hRow]
      exact ⟨⟨hLeft, Nat.le_add_right y k⟩, hInk⟩
    · rintro ⟨⟨hLeft, hTop⟩, hInk⟩
      cases hRow : rows[j - y]? with
      | none => simp [hRow] at hInk
      | some bits =>
        rw [hRow] at hInk
        exact ⟨(bits, j - y), List.mk_mem_zipIdx_iff_getElem?.mpr hRow, ⟨hLeft, hInk⟩, by omega⟩

theorem inked_lt {ch : Char} {u v : Nat} (h : inked font ch u v = true) : u < 8 := by
  unfold inked at h
  split at h
  · exact BitVec.lt_of_getLsbD h
  · cases h

theorem mem_textPoints {s : List Char} :
    (i, j) ∈ textPoints font n s x y ↔ (x ≤ i ∧ y ≤ j) ∧ Ink font s (i - x) (j - y) ∧ x + 8 * ((i - x) / 8) + 8 ≤ n := by
  induction s generalizing x with
  | nil =>
    refine ⟨fun h => absurd h List.not_mem_nil, fun h => ?_⟩
    obtain ⟨ch, hChar, -⟩ := h.2.1
    cases hChar
  | cons ch s ih =>
    unfold textPoints
    split
    · rename_i hWide
      refine ⟨fun h => absurd h List.not_mem_nil, fun h => ?_⟩
      omega
    · rename_i hFits
      rw [List.mem_append, mem_glyphPoints, ih]
      constructor
      · rintro (⟨hHere, hInk⟩ | ⟨hHere, ⟨c, hChar, hInk⟩, hRoom⟩)
        · have hFirst := inked_lt hInk
          refine ⟨hHere, ⟨ch, ?_, ?_⟩, by omega⟩
          · rw [Nat.div_eq_of_lt hFirst]
            rfl
          · rwa [Nat.mod_eq_of_lt hFirst]
        · have hPlace : i - x = i - (x + 8) + 8 := by omega
          refine ⟨⟨by omega, hHere.2⟩, ⟨c, ?_, ?_⟩, by omega⟩
          · rw [hPlace, Nat.add_div_right _ (by omega)]
            exact hChar
          · rwa [hPlace, Nat.add_mod_right]
      · rintro ⟨hHere, ⟨c, hChar, hInk⟩, hRoom⟩
        rcases Nat.lt_or_ge (i - x) 8 with hFirst | hLater
        · rw [Nat.div_eq_of_lt hFirst] at hChar
          rw [Nat.mod_eq_of_lt hFirst] at hInk
          cases hChar
          exact .inl ⟨hHere, hInk⟩
        · have hPlace : i - x = i - (x + 8) + 8 := by omega
          rw [hPlace, Nat.add_div_right _ (by omega)] at hChar
          rw [hPlace, Nat.add_mod_right] at hInk
          exact .inr ⟨⟨by omega, hHere.2⟩, ⟨c, hChar, hInk⟩, by omega⟩

end Points

section Drawing

variable {r : Renderer} {x y : Nat} {c : U32} {a : Rect} {font : Font}

theorem px_eq : px r x y c = some (r.paint [(x, y)] c) := by
  rw [px, Raster.paint_cons, Raster.paint_nil]
  split
  · rename_i hIn
    exact Raster.store_cell hIn.1 hIn.2 c
  · rename_i hOut
    rw [Raster.put, if_neg hOut]

theorem fillRow_eq (hy : y < r.h) :
    fillRow r a y c = some (r.paint ((span a.x (min (a.x + a.w) r.w)).map fun x => (x, y)) c) := by
  rw [List.map_eq_flatMap]
  refine Raster.foldlM_paint _ _ _ fun r' hw hh x hx => ?_
  have hCol := (mem_span.mp hx).2
  exact Raster.store_cell (by omega) (by omega) c

theorem fill_eq : fill r a c = some (r.paint (fillPoints r.w r.h a) c) := by
  refine Raster.foldlM_paint _ _ _ fun r' hw hh y hy => ?_
  have hRow := (mem_span.mp hy).2
  rw [fillRow_eq (by omega), hw]

theorem frame_eq : frame r a c = some (r.paint (framePoints a) c) := by
  have hTwo : ∀ (r' : Renderer) (p q : Nat × Nat), (do px (← px r' p.1 p.2 c) q.1 q.2 c) = some (r'.paint [p, q] c) := fun r' p q => by
    rw [px_eq]
    exact px_eq
  rw [frame, Raster.foldlM_paint _ _ _ fun r' _ _ x _ => hTwo r' (x, a.y) (x, a.y + (a.h - 1)), framePoints, Raster.paint_append]
  exact Raster.foldlM_paint _ _ _ fun r' _ _ y _ => hTwo r' (a.x, y) (a.x + (a.w - 1), y)

theorem glyph_eq {ch : Char} : glyph font r ch x y c = some (r.paint (glyphPoints font ch x y) c) := by
  unfold glyph glyphPoints
  cases font ch with
  | none => rfl
  | some rows =>
    refine Raster.foldlM_paint _ _ _ fun r' _ _ row _ => Raster.foldlM_paint _ _ _ fun r'' _ _ rx _ => ?_
    split
    · exact px_eq
    · rfl

theorem text_eq {s : List Char} : text font r s x y c = some (r.paint (textPoints font r.w s x y) c) := by
  induction s generalizing r x with
  | nil => rfl
  | cons ch s ih =>
    unfold text textPoints
    split
    · rfl
    · rw [glyph_eq, Raster.paint_append]
      refine ih.trans ?_
      rw [Raster.paint_w]

end Drawing

end Renderer
end Exemu.Gui
