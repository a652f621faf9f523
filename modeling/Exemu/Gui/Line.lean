import Exemu.Gui.Render

/-! # The line loop

The loop goes through the points of a line one by one as long as its sums fit 32 bits, and which
sums come up is fixed by the two sides of the line alone.
-/
namespace Exemu.Gui.Renderer

open Signed Bresenham

def Wide (e : Nat) (v : Int) : Prop := Fits 32 (2 * v) ∧ (-(e : Int) ≤ 2 * v → Fits 32 (v - e))

/-- The sides fit, and so do the sums for all that the error term can be. -/
structure Roomy (d e : Nat) : Prop where
  across : Fits 32 d
  down : Fits 32 e
  sums : ∀ v, IsErr d e v → Wide e v

theorem fits_between {u v w : Int} (hu : Fits 32 u) (hw : Fits 32 w) (hLow : u ≤ v) (hHigh : v ≤ w) : Fits 32 v := by
  obtain ⟨hMin, -⟩ := hu
  obtain ⟨-, hMax⟩ := hw
  exact ⟨by omega, by omega⟩

theorem fits_half {v : Int} (h : Fits 32 (2 * v)) : Fits 32 v := by
  obtain ⟨hLow, hHigh⟩ := h
  exact ⟨by omega, by omega⟩

theorem Roomy.err_fits {d e k : Nat} (h : Roomy d e) (hk : k ≤ max d e) : Fits 32 (err d e k) := by
  rcases Nat.lt_or_eq_of_le hk with hInner | rfl
  · exact fits_half (h.sums _ (isErr_err hInner)).1
  · obtain ⟨hLow, hHigh⟩ := h.across
    obtain ⟨hLow', hHigh'⟩ := h.down
    rw [err_last]
    exact ⟨by omega, by omega⟩

section Sums

variable {b : Bool} {a v c : I32} {p : Prop} [Decidable p] {u w : Int}

theorem addIf_iff (hp : b = true ↔ p) (ha : a.toInt = u) (hv : v.toInt = w) : addIf b a v = some c ↔ c.toInt = u + if p then w else 0 := by
  unfold addIf
  rw [if_congr hp rfl rfl]
  split
  · rw [checkedAdd, fit_eq_some, ha, hv]
  · rw [Int.add_zero, ← ha, BitVec.toInt_inj]
    exact ⟨fun h => (Option.some.inj h).symm, fun h => congrArg some h.symm⟩

theorem addIf_exists (hp : b = true ↔ p) (ha : a.toInt = u) (hv : v.toInt = w) (h : Fits 32 (u + if p then w else 0)) :
    ∃ c, addIf b a v = some c ∧ c.toInt = u + if p then w else 0 := by
  refine ⟨BitVec.ofInt 32 (u + if p then w else 0), ?_, toInt_ofInt_of_fits h⟩
  exact (addIf_iff hp ha hv).mpr (toInt_ofInt_of_fits h)

theorem coordinate_fits {start last unit : Int} {n m : Nat} (hLast : last = start + unit * m) (hUnit : unit = 1 ∨ unit = -1)
    (hs : Fits 32 start) (he : Fits 32 last) (hLe : n ≤ m) : Fits 32 (start + unit * n) := by
  rcases hUnit with rfl | rfl
  · exact fits_between hs he (by omega) (by omega)
  · exact fits_between he hs (by omega) (by omega)

end Sums

section Loop

/-- A line from one point to another, in the numbers the words stand for. -/
structure Sloped (x0 y0 : Int) (d e : Nat) (l : Slope) : Prop where
  dx : l.dx.toInt = d
  dy : l.dy.toInt = -e
  endX : l.x1.toInt = x0 + l.sx.toInt * d
  endY : l.y1.toInt = y0 + l.sy.toInt * e
  unitX : l.sx.toInt = 1 ∨ l.sx.toInt = -1
  unitY : l.sy.toInt = 1 ∨ l.sy.toInt = -1
  startX : Fits 32 x0
  startY : Fits 32 y0

structure IsAt (x0 y0 : Int) (d e : Nat) (l : Slope) (k : Nat) (s : I32 × I32 × I32) : Prop where
  x : s.1.toInt = x0 + l.sx.toInt * (point d e k).1
  y : s.2.1.toInt = y0 + l.sy.toInt * (point d e k).2
  err : s.2.2.toInt = err d e k

variable {x0 y0 : Int} {d e k : Nat} {l : Slope} {s s' : I32 × I32 × I32} {c : U32}

theorem IsAt.last_iff (hl : Sloped x0 y0 d e l) (hAt : IsAt x0 y0 d e l k s) (hk : k ≤ max d e) : s.1 = l.x1 ∧ s.2.1 = l.y1 ↔ k = max d e := by
  have hAlong : ∀ (start unit : Int) (n m : Nat), (unit = 1 ∨ unit = -1) → (start + unit * n = start + unit * m ↔ n = m) := by
    rintro start unit n m (rfl | rfl) <;> omega
  have hBoth : s.1 = l.x1 ∧ s.2.1 = l.y1 ↔ point d e k = (d, e) := by
    rw [← BitVec.toInt_inj, ← BitVec.toInt_inj, hAt.x, hAt.y, hl.endX, hl.endY, Prod.ext_iff, hAlong _ _ _ _ hl.unitX, hAlong _ _ _ _ hl.unitY]
  rw [hBoth]
  constructor
  · intro h
    by_contra hNot
    exact point_ne_last (by omega) h
  · rintro rfl
    exact point_last d e

theorem along_succ (start unit : Int) (n : Nat) (p : Prop) [Decidable p] :
    start + unit * ((n + if p then 1 else 0 : Nat) : Int) = start + unit * n + if p then unit else 0 := by
  split
  · push_cast
    ring
  · rw [Nat.add_zero, Int.add_zero]

theorem twice_le {e2 : I32} (hl : Sloped x0 y0 d e l) (h : e2.toInt = 2 * err d e k) :
    (l.dy.sle e2 = true ↔ -(e : Int) ≤ 2 * err d e k) ∧ (e2.sle l.dx = true ↔ 2 * err d e k ≤ d) := by
  rw [BitVec.sle_iff_toInt_le, BitVec.sle_iff_toInt_le, hl.dy, hl.dx, h]
  exact ⟨Iff.rfl, Iff.rfl⟩

theorem lineStep_some (hl : Sloped x0 y0 d e l) (hAt : IsAt x0 y0 d e l k s) (hk : k < max d e)
    (h : lineStep l s.1 s.2.1 s.2.2 = some s') : Wide e (err d e k) ∧ IsAt x0 y0 d e l (k + 1) s' := by
  obtain ⟨e2, h2, h⟩ := Option.bind_eq_some_iff.mp h
  obtain ⟨e3, h3, h⟩ := Option.bind_eq_some_iff.mp h
  obtain ⟨x', hx, h⟩ := Option.bind_eq_some_iff.mp h
  obtain ⟨e4, h4, h⟩ := Option.bind_eq_some_iff.mp h
  obtain ⟨y', hy, h⟩ := Option.bind_eq_some_iff.mp h
  cases h
  have hTwice : e2.toInt = 2 * err d e k := by rw [fit_eq_some.mp h2, hAt.err]
  obtain ⟨hCol, hRow⟩ := twice_le hl hTwice
  have hErr := (addIf_iff hCol hAt.err hl.dy).mp h3
  refine ⟨⟨hTwice ▸ fits_toInt e2, fun hMoves => ?_⟩, ?_, ?_, ?_⟩
  · rw [if_pos hMoves] at hErr
    exact Int.sub_eq_add_neg ▸ hErr ▸ fits_toInt e3
  · rw [(addIf_iff hCol hAt.x rfl).mp hx, point_next hk, along_succ]
  · rw [(addIf_iff hRow hAt.y rfl).mp hy, point_next hk, along_succ]
  · rw [(addIf_iff hRow hErr hl.dx).mp h4, err_next hk]

theorem lineStep_exists (hl : Sloped x0 y0 d e l) (hAt : IsAt x0 y0 d e l k s) (hRoomy : Roomy d e) (hk : k < max d e) :
    ∃ s', lineStep l s.1 s.2.1 s.2.2 = some s' := by
  obtain ⟨hDouble, hSum⟩ := hRoomy.sums _ (isErr_err hk)
  obtain ⟨hCols, hRows⟩ := point_le (Nat.succ_le_of_lt hk)
  have hLater := hRoomy.err_fits (Nat.succ_le_of_lt hk)
  have hNewX := coordinate_fits hl.endX hl.unitX hl.startX (fits_toInt _) hCols
  have hNewY := coordinate_fits hl.endY hl.unitY hl.startY (fits_toInt _) hRows
  rw [Nat.succ_eq_add_one, point_next hk, along_succ] at hNewX hNewY
  rw [Nat.succ_eq_add_one, err_next hk] at hLater
  obtain ⟨e2, h2, hTwice⟩ := fit_of_fits (hAt.err ▸ hDouble : Fits 32 (2 * s.2.2.toInt))
  rw [hAt.err] at hTwice
  obtain ⟨hCol, hRow⟩ := twice_le hl hTwice
  have hMid : Fits 32 (err d e k + if -(e : Int) ≤ 2 * err d e k then -(e : Int) else 0) := by
    split
    · exact hSum ‹_›
    · rw [Int.add_zero]
      exact fits_half hDouble
  obtain ⟨e3, h3, hErr⟩ := addIf_exists hCol hAt.err hl.dy hMid
  obtain ⟨x', hx, -⟩ := addIf_exists hCol hAt.x rfl hNewX
  obtain ⟨e4, h4, -⟩ := addIf_exists hRow hErr hl.dx hLater
  obtain ⟨y', hy, -⟩ := addIf_exists hRow hAt.y rfl hNewY
  refine ⟨(x', y', e4), Option.bind_eq_some_iff.mpr ⟨e2, h2, Option.bind_eq_some_iff.mpr ⟨e3, h3, Option.bind_eq_some_iff.mpr ⟨x', hx, ?_⟩⟩⟩⟩
  exact Option.bind_eq_some_iff.mpr ⟨e4, h4, Option.bind_eq_some_iff.mpr ⟨y', hy, rfl⟩⟩

def dotPoints (x y : Int) : List (Nat × Nat) := if 0 ≤ x ∧ 0 ≤ y then [(x.toNat, y.toNat)] else []

def linePoints (x0 y0 sx sy : Int) (d e k : Nat) : List (Nat × Nat) :=
  (span k (max d e + 1)).flatMap fun k => dotPoints (x0 + sx * (point d e k).1) (y0 + sy * (point d e k).2)

theorem toNat_toInt {v : I32} (h : 0 ≤ v.toInt) : v.toInt.toNat = v.toNat := by
  have hValue := BitVec.toInt_eq_toNat_cond v
  have hLess := v.isLt
  split at hValue <;> omega

variable {r : Renderer}

theorem dot_eq {x y : I32} : dot r x y c = some (r.paint (dotPoints x.toInt y.toInt) c) := by
  unfold dot dotPoints
  split
  · rename_i hIn
    rw [px_eq, toNat_toInt hIn.1, toNat_toInt hIn.2]
  · rfl

theorem linePoints_cons {sx sy : Int} (hk : k < max d e + 1) :
    linePoints x0 y0 sx sy d e k = dotPoints (x0 + sx * (point d e k).1) (y0 + sy * (point d e k).2) ++ linePoints x0 y0 sx sy d e (k + 1) := by
  have hSpan : span k (max d e + 1) = k :: span (k + 1) (max d e + 1) := by
    unfold span
    rw [show max d e + 1 - k = max d e + 1 - (k + 1) + 1 by omega, List.range'_succ]
  rw [linePoints, hSpan, List.flatMap_cons]
  rfl

theorem linePoints_last {sx sy : Int} : linePoints x0 y0 sx sy d e (max d e + 1) = [] := by
  rw [linePoints, span, Nat.sub_self]
  rfl

theorem lineLoop_succ {fuel : Nat} (hl : Sloped x0 y0 d e l) (hAt : IsAt x0 y0 d e l k s) (hk : k ≤ max d e) :
    lineLoop l c (fuel + 1) r s.1 s.2.1 s.2.2 =
      if k = max d e then some (r.paint (dotPoints s.1.toInt s.2.1.toInt) c) else
        (lineStep l s.1 s.2.1 s.2.2).bind fun s' => lineLoop l c fuel (r.paint (dotPoints s.1.toInt s.2.1.toInt) c) s'.1 s'.2.1 s'.2.2 := by
  rw [lineLoop, dot_eq]
  exact if_congr (hAt.last_iff hl hk) rfl rfl

theorem lineLoop_some {fuel : Nat} {r' : Renderer} (hl : Sloped x0 y0 d e l) (hAt : IsAt x0 y0 d e l k s) (hk : k ≤ max d e)
    (h : lineLoop l c fuel r s.1 s.2.1 s.2.2 = some r') :
    (∀ n, k ≤ n → n < max d e → Wide e (err d e n)) ∧ r' = r.paint (linePoints x0 y0 l.sx.toInt l.sy.toInt d e k) c := by
  induction fuel generalizing k s r with
  | zero => cases h
  | succ fuel ih =>
    rw [lineLoop_succ hl hAt hk, hAt.x, hAt.y] at h
    rw [linePoints_cons (Nat.lt_succ_of_le hk), Raster.paint_append]
    split at h
    · rename_i hLast
      cases h
      rw [hLast, linePoints_last]
      exact ⟨fun n hLow hHigh => absurd hHigh (Nat.not_lt.mpr hLow), rfl⟩
    · rename_i hInner
      obtain ⟨s', hStep, hRest⟩ := Option.bind_eq_some_iff.mp h
      obtain ⟨hWide, hAt'⟩ := lineStep_some hl hAt (by omega) hStep
      obtain ⟨hLater, hDrawn⟩ := ih hAt' (by omega) hRest
      refine ⟨fun n hLow hHigh => ?_, hDrawn⟩
      rcases Nat.lt_or_eq_of_le hLow with hBehind | rfl
      · exact hLater n hBehind hHigh
      · exact hWide

theorem lineLoop_exists (hl : Sloped x0 y0 d e l) (hAt : IsAt x0 y0 d e l k s) (hRoomy : Roomy d e) (hk : k ≤ max d e) :
    ∃ fuel, ∀ r : Renderer, ∃ r', lineLoop l c fuel r s.1 s.2.1 s.2.2 = some r' := by
  obtain ⟨n, hn⟩ := Nat.exists_eq_add_of_le hk
  induction n generalizing k s with
  | zero =>
    refine ⟨1, fun r => ⟨_, (lineLoop_succ hl hAt hk).trans (if_pos hn.symm)⟩⟩
  | succ n ih =>
    obtain ⟨s', hStep⟩ := lineStep_exists hl hAt hRoomy (by omega)
    obtain ⟨fuel, hRest⟩ := ih (lineStep_some hl hAt (by omega) hStep).2 (by omega) (by omega)
    refine ⟨fuel + 1, fun r => ?_⟩
    rw [lineLoop_succ hl hAt hk, if_neg (by omega), hStep]
    exact hRest _

end Loop

section Start

variable {a b x0 y0 x1 y1 dx : I32} {c : U32} {fuel : Nat} {r r' : Renderer}

def side (a b : I32) : Nat := (b.toInt - a.toInt).natAbs

theorem distance_iff : distance a b = some dx ↔ dx.toInt = side a b := by
  unfold distance checkedAbs side
  rw [Option.bind_eq_bind, Option.bind_eq_some_iff]
  constructor
  · rintro ⟨v, hDiff, hAbs⟩
    rw [fit_eq_some.mp hAbs, fit_eq_some.mp hDiff, Int.abs_eq_natAbs]
  · intro h
    have hFits := fits_toInt dx
    rw [h] at hFits
    obtain ⟨v, hDiff, hv⟩ := fit_of_fits (⟨by have := hFits.1; have := hFits.2; omega, by have := hFits.2; omega⟩ : Fits 32 (b.toInt - a.toInt))
    refine ⟨v, hDiff, fit_eq_some.mpr ?_⟩
    rw [hv, h, Int.abs_eq_natAbs]

theorem distance_exists (h : Fits 32 (side a b)) : ∃ dx, distance a b = some dx := by
  obtain ⟨dx, -, hdx⟩ := fit_of_fits h
  exact ⟨dx, distance_iff.mpr hdx⟩

theorem toward_end (a b : I32) : b.toInt = a.toInt + (toward a b).toInt * side a b := by
  unfold toward side
  split
  · rename_i hLess
    have hLess' := BitVec.slt_iff_toInt_lt.mp hLess
    rw [show (1 : I32).toInt = 1 from rfl]
    omega
  · rename_i hLess
    have hLess' : ¬a.toInt < b.toInt := fun h => hLess (BitVec.slt_iff_toInt_lt.mpr h)
    rw [show (-1 : I32).toInt = -1 from rfl]
    omega

theorem toward_unit (a b : I32) : (toward a b).toInt = 1 ∨ (toward a b).toInt = -1 := by
  unfold toward
  split
  · exact .inl rfl
  · exact .inr rfl

theorem sloped {dy : I32} (hdx : dx.toInt = side x0 x1) (hdy : dy.toInt = -(side y0 y1 : Int)) :
    Sloped x0.toInt y0.toInt (side x0 x1) (side y0 y1) ⟨x1, y1, dx, dy, toward x0 x1, toward y0 y1⟩ where
  dx := hdx
  dy := hdy
  endX := toward_end x0 x1
  endY := toward_end y0 y1
  unitX := toward_unit x0 x1
  unitY := toward_unit y0 y1
  startX := fits_toInt x0
  startY := fits_toInt y0

theorem isAt_start {l : Slope} {d e : Nat} {v : I32} (hv : v.toInt = d - e) : IsAt x0.toInt y0.toInt d e l 0 (x0, y0, v) where
  x := by rw [point_zero, Int.natCast_zero, Int.mul_zero, Int.add_zero]
  y := by rw [point_zero, Int.natCast_zero, Int.mul_zero, Int.add_zero]
  err := by rw [hv, err_zero]

theorem line_some (h : line fuel r x0 y0 x1 y1 c = some r') : Roomy (side x0 x1) (side y0 y1) ∧
    r' = r.paint (linePoints x0.toInt y0.toInt (toward x0 x1).toInt (toward y0 y1).toInt (side x0 x1) (side y0 y1) 0) c := by
  obtain ⟨dx, hx, h⟩ := Option.bind_eq_some_iff.mp h
  obtain ⟨ady, hy, h⟩ := Option.bind_eq_some_iff.mp h
  obtain ⟨dy, hNeg, h⟩ := Option.bind_eq_some_iff.mp h
  obtain ⟨err, hErr, h⟩ := Option.bind_eq_some_iff.mp h
  have hdx := distance_iff.mp hx
  have hady := distance_iff.mp hy
  have hdy := fit_eq_some.mp hNeg
  rw [hady] at hdy
  have hStart := fit_eq_some.mp hErr
  rw [hdx, hdy, ← Int.sub_eq_add_neg] at hStart
  obtain ⟨hWide, hDrawn⟩ := lineLoop_some (sloped hdx hdy) (isAt_start hStart) (Nat.zero_le _) h
  refine ⟨⟨hdx ▸ fits_toInt dx, hady ▸ fits_toInt ady, fun v hv => ?_⟩, hDrawn⟩
  obtain ⟨k, hk, rfl⟩ := isErr_iff.mp hv
  exact hWide k (Nat.zero_le k) hk

theorem line_exists (h : Roomy (side x0 x1) (side y0 y1)) : ∃ fuel, ∀ r : Renderer, ∃ r', line fuel r x0 y0 x1 y1 c = some r' := by
  obtain ⟨dx, hx⟩ := distance_exists h.across
  obtain ⟨ady, hy⟩ := distance_exists h.down
  have hdx := distance_iff.mp hx
  have hady := distance_iff.mp hy
  obtain ⟨hLow, hHigh⟩ := h.down
  obtain ⟨dy, hNeg, hdy⟩ := fit_of_fits (⟨by omega, by omega⟩ : Fits 32 (-ady.toInt))
  rw [hady] at hdy
  have hFirst := h.err_fits (Nat.zero_le _)
  rw [err_zero, Int.sub_eq_add_neg, ← hdx, ← hdy] at hFirst
  obtain ⟨err, hErr, hStart⟩ := fit_of_fits hFirst
  rw [hdx, hdy, ← Int.sub_eq_add_neg] at hStart
  obtain ⟨fuel, hLoop⟩ := @lineLoop_exists _ _ _ _ _ _ _ c (sloped hdx hdy) (isAt_start hStart) h (Nat.zero_le _)
  refine ⟨fuel, fun r => ?_⟩
  obtain ⟨r', hr'⟩ := hLoop r
  refine ⟨r', ?_⟩
  refine Option.bind_eq_some_iff.mpr ⟨dx, hx, Option.bind_eq_some_iff.mpr ⟨ady, hy, ?_⟩⟩
  exact Option.bind_eq_some_iff.mpr ⟨dy, hNeg, Option.bind_eq_some_iff.mpr ⟨err, hErr, hr'⟩⟩

end Start

end Exemu.Gui.Renderer
