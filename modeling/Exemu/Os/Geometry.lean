import Mathlib
import Exemu.Library.Area
import Exemu.Library.Signed
import Exemu.Os.ZOrder

/-! # Where windows are

A window's place on its top-level surface is the sum of the offsets on the way up, and what is
seen of it is what every window on the way leaves of it.
-/
namespace Exemu.Os

open Signed

namespace Windows

open HitTest (clientSize containsPoint childUnder windowFromPointWithin windowFromPointIn)

/-! ## The walks -/

section Walks

variable (add : BitVec 32 → BitVec 32 → Option (BitVec 32)) (s : State)

def originWithinBy : Nat → U32 → BitVec 32 × BitVec 32 → Option (BitVec 32 × BitVec 32)
  | 0, _, origin => some origin
  | n + 1, cur, origin =>
    match s.window cur with
    | none => some origin
    | some w =>
      if s.isTop w then some origin
      else do
        let ox ← add origin.1 w.rect.x
        let oy ← add origin.2 w.rect.y
        originWithinBy n w.parent (ox, oy)

def clientOriginBy (hwnd : U32) : Option (BitVec 32 × BitVec 32) := originWithinBy add s WINDOW_ANCESTRY_MAX hwnd (0, 0)

/-- The loop of `window_visible_rect` over the windows above. -/
def clipWithinBy : Nat → U32 → Area (BitVec 32) → Option (Area (BitVec 32))
  | 0, _, r => some r
  | n + 1, cur, r =>
    match s.window cur with
    | none => some r
    | some w =>
      if s.isTop w then some r
      else do
        let o ← clientOriginBy add s w.parent
        match s.window w.parent with
        | none => some r
        | some p =>
          let right ← add o.1 (clientSize p).1
          let bottom ← add o.2 (clientSize p).2
          clipWithinBy n w.parent ⟨smax r.left o.1, smax r.top o.2, smin r.right right, smin r.bottom bottom⟩

def windowVisibleRectBy (hwnd : U32) : Option (Area (BitVec 32)) := do
  let o ← clientOriginBy add s hwnd
  match s.window hwnd with
  | none => some ⟨0, 0, 0, 0⟩
  | some w =>
    let right ← add o.1 (clientSize w).1
    let bottom ← add o.2 (clientSize w).2
    clipWithinBy add s WINDOW_ANCESTRY_MAX hwnd ⟨o.1, o.2, right, bottom⟩

/-- The right and the lower border are computed only where the left and the upper one leave the point. -/
def containsPointBy (hwnd : U32) (x y : BitVec 32) : Option Bool := do
  let o ← clientOriginBy add s hwnd
  match s.window hwnd with
  | none => some false
  | some w =>
    if o.1.sle x && o.2.sle y then do
      let right ← add o.1 (clientSize w).1
      if x.slt right then do
        let bottom ← add o.2 (clientSize w).2
        return y.slt bottom
      else return false
    else return false

def childAmongBy (cur : U32) (x y : BitVec 32) (skip : List U32) : List (U32 × Window) → Option (Option U32)
  | [] => some none
  | p :: rest =>
    if p.2.parent == cur && p.2.shown && !skip.contains p.1 then do
      let inside ← containsPointBy add s p.1 x y
      if inside then return some p.1 else childAmongBy cur x y skip rest
    else childAmongBy cur x y skip rest

def windowFromPointWithinBy (x y : BitVec 32) (skip : List U32) : Nat → U32 → Option U32
  | 0, cur => some cur
  | n + 1, cur => do
    match ← childAmongBy add s cur x y skip s.windows.reverse with
    | some h => windowFromPointWithinBy x y skip n h
    | none => return cur

def windowFromPointInBy (root : U32) (x y : BitVec 32) (skip : List U32) : Option U32 :=
  if skip.contains root then some 0
  else do
    let inside ← containsPointBy add s root x y
    if inside then windowFromPointWithinBy add s x y skip WINDOW_ANCESTRY_MAX root else return 0

def windowFromPointBy (x y : BitVec 32) (skip : List U32) : Option U32 :=
  match s.shownWindow with
  | none => some 0
  | some top => windowFromPointInBy add s top x y skip

def childWindowFromPointBy (parent : U32) (x y : BitVec 32) : Option U32 := do
  let child ← childAmongBy add s parent x y [] s.windows.reverse
  return child.getD parent

end Walks

/-! ## The way up, exactly -/

/-- The windows from `h` on that are not at the top, and the one they lead to. -/
inductive Climb (s : State) : U32 → List (U32 × Window) → U32 × Window → Prop
  | top {h : U32} {w : Window} (hWindow : s.window h = some w) (hTop : s.isTop w = true) : Climb s h [] (h, w)
  | up {h : U32} {w : Window} {ups : List (U32 × Window)} {top : U32 × Window} (hWindow : s.window h = some w) (hNot : s.isTop w = false)
      (hMore : Climb s w.parent ups top) : Climb s h ((h, w) :: ups) top

def Shallow (s : State) : Prop := ∀ h ∈ s.keys, ∃ ups top, Climb s h ups top ∧ ups.length < WINDOW_ANCESTRY_MAX

def Window.dx (w : Window) : Int := w.rect.x.toInt
def Window.dy (w : Window) : Int := w.rect.y.toInt

def Window.width (w : Window) : Int := max w.rect.cx.toInt 1
def Window.height (w : Window) : Int := max w.rect.cy.toInt 1

def offset (f : Window → Int) (ups : List (U32 × Window)) : Int := (ups.map fun p => f p.2).sum

def clientArea (ups : List (U32 × Window)) (w : Window) : Area Int where
  left := offset Window.dx ups
  top := offset Window.dy ups
  right := offset Window.dx ups + w.width
  bottom := offset Window.dy ups + w.height

def seenArea : List (U32 × Window) → U32 × Window → Area Int
  | [], top => clientArea [] top.2
  | p :: ups, top => (clientArea (p :: ups) p.2).meet (seenArea ups top)

/-- Every sum on the way fits, from `v` on. -/
def SumsFit (f : Window → Int) : Int → List (U32 × Window) → Prop
  | _, [] => True
  | v, p :: ups => Fits 32 (v + f p.2) ∧ SumsFit f (v + f p.2) ups

/-- The offsets of this window and those above it, and its far borders, are numbers of 32 bits. -/
structure InRange (ups : List (U32 × Window)) (w : Window) : Prop where
  dx : SumsFit Window.dx 0 ups
  dy : SumsFit Window.dy 0 ups
  right : Fits 32 (clientArea ups w).right
  bottom : Fits 32 (clientArea ups w).bottom

def AllInRange (s : State) : Prop := ∀ h w ups top, s.window h = some w → Climb s h ups top → InRange ups w

def SeenAt (s : State) (x y : BitVec 32) (h : U32) : Prop := ∃ ups top, Climb s h ups top ∧ (∀ p ∈ ups, p.2.shown = true) ∧
  top.2.shown = true ∧ (seenArea ups top).Covers x.toInt y.toInt

structure RightPlaces (s : State) : Prop where
  visible : ∀ h ups top, Climb s h ups top → ∃ r, windowVisibleRectBy checkedAdd s h = some r ∧ r.map BitVec.toInt = seenArea ups top
  under : ∀ x y skip, ∃ h, windowFromPointBy checkedAdd s x y skip = some h ∧ (h ≠ 0 → SeenAt s x y h)
  child : ∀ parent x y, ∃ h, childWindowFromPointBy checkedAdd s parent x y = some h

section Proofs

variable {s : State} {hwnd : U32} {ups : List (U32 × Window)} {top : U32 × Window}

theorem clientSize_toInt (w : Window) : (clientSize w).1.toInt = w.width ∧ (clientSize w).2.toInt = w.height :=
  ⟨toInt_smax w.rect.cx 1, toInt_smax w.rect.cy 1⟩

theorem isTop_eq_false {w : Window} : s.isTop w = false ↔ w.parent ≠ 0 ∧ (s.window w.parent).isSome = true := by
  rw [State.isTop, Bool.or_eq_false_iff, decide_eq_false_iff_not, Option.isNone_eq_false_iff]

theorem originWithinBy_climb (h : Climb s hwnd ups top) {n : Nat} (hn : ups.length ≤ n) (o c : BitVec 32 × BitVec 32) :
    originWithinBy checkedAdd s n hwnd o = some c ↔ SumsFit Window.dx o.1.toInt ups ∧ SumsFit Window.dy o.2.toInt ups ∧
      c.1.toInt = o.1.toInt + offset Window.dx ups ∧ c.2.toInt = o.2.toInt + offset Window.dy ups := by
  induction h generalizing n o with
  | @top h w hWindow hTop =>
    have hStay : originWithinBy checkedAdd s n h o = some o := by
      cases n with
      | zero => rfl
      | succ n =>
        unfold originWithinBy
        rw [hWindow]
        exact if_pos hTop
    rw [hStay, offset, offset, List.map_nil, List.map_nil, List.sum_nil, Int.add_zero, Int.add_zero]
    refine ⟨fun hSame => ?_, fun hAll => ?_⟩
    · cases hSame
      exact ⟨trivial, trivial, rfl, rfl⟩
    · exact congrArg some (Prod.ext (BitVec.toInt_inj.mp hAll.2.2.1).symm (BitVec.toInt_inj.mp hAll.2.2.2).symm)
  | @up h w ups top hWindow hNot hMore ih =>
    cases n with
    | zero => exact absurd hn (Nat.not_succ_le_zero _)
    | succ n =>
      have hLength : ups.length ≤ n := Nat.le_of_succ_le_succ hn
      have hStep : originWithinBy checkedAdd s (n + 1) h o = (checkedAdd o.1 w.rect.x).bind fun ox =>
          (checkedAdd o.2 w.rect.y).bind fun oy => originWithinBy checkedAdd s n w.parent (ox, oy) := by
        rw [originWithinBy, hWindow]
        exact if_neg (Bool.eq_false_iff.mp hNot)
      have hOffset : ∀ f : Window → Int, offset f ((h, w) :: ups) = f w + offset f ups := fun f => List.sum_cons
      rw [hStep, Option.bind_eq_some_iff, hOffset, hOffset, ← Int.add_assoc, ← Int.add_assoc]
      constructor
      · rintro ⟨ox, hX, hRest⟩
        obtain ⟨oy, hY, hRest⟩ := Option.bind_eq_some_iff.mp hRest
        obtain ⟨hSumX, hSumY, hEqX, hEqY⟩ := (ih hLength (ox, oy)).mp hRest
        rw [fit_eq_some.mp hX] at hSumX hEqX
        rw [fit_eq_some.mp hY] at hSumY hEqY
        exact ⟨⟨fits_of_fit hX, hSumX⟩, ⟨fits_of_fit hY, hSumY⟩, hEqX, hEqY⟩
      · rintro ⟨⟨hX, hSumX⟩, ⟨hY, hSumY⟩, hEqX, hEqY⟩
        obtain ⟨ox, hOx, hIntX⟩ := fit_of_fits hX
        obtain ⟨oy, hOy, hIntY⟩ := fit_of_fits hY
        refine ⟨ox, hOx, Option.bind_eq_some_iff.mpr ⟨oy, hOy, (ih hLength (ox, oy)).mpr ⟨?_, ?_, ?_, ?_⟩⟩⟩
        · exact hIntX.symm ▸ hSumX
        · exact hIntY.symm ▸ hSumY
        · exact hIntX.symm ▸ hEqX
        · exact hIntY.symm ▸ hEqY

theorem SumsFit.total {f : Window → Int} {v : Int} (h : SumsFit f v ups) (hv : Fits 32 v) : Fits 32 (v + offset f ups) := by
  induction ups generalizing v with
  | nil => rwa [offset, List.map_nil, List.sum_nil, Int.add_zero]
  | cons p ups ih =>
    have hRest := ih h.2 h.1
    rwa [Int.add_assoc] at hRest

variable {w : Window}

theorem corners_iff (h : Climb s hwnd ups top) (hLength : ups.length < WINDOW_ANCESTRY_MAX) (w : Window) :
    InRange ups w ↔ ∃ ox oy right bottom, clientOriginBy checkedAdd s hwnd = some (ox, oy) ∧ checkedAdd ox (clientSize w).1 = some right ∧
      checkedAdd oy (clientSize w).2 = some bottom ∧ (Area.mk ox oy right bottom).map BitVec.toInt = clientArea ups w := by
  have hOrigin := originWithinBy_climb h (Nat.le_of_lt hLength) (0, 0)
  obtain ⟨hWidth, hHeight⟩ := clientSize_toInt w
  have hZero : (0 : BitVec 32).toInt = 0 := rfl
  simp only [hZero, Int.zero_add] at hOrigin
  constructor
  · intro hRange
    have hNone : Fits 32 0 := by decide
    have hX := hRange.dx.total hNone
    have hY := hRange.dy.total hNone
    rw [Int.zero_add] at hX hY
    obtain ⟨ox, -, hOx⟩ := fit_of_fits hX
    obtain ⟨oy, -, hOy⟩ := fit_of_fits hY
    obtain ⟨right, hRight, hRightInt⟩ := fit_of_fits hRange.right
    obtain ⟨bottom, hBottom, hBottomInt⟩ := fit_of_fits hRange.bottom
    refine ⟨ox, oy, right, bottom, (hOrigin (ox, oy)).mpr ⟨hRange.dx, hRange.dy, hOx, hOy⟩, ?_, ?_, ?_⟩
    · rw [checkedAdd, hOx, hWidth]
      exact hRight
    · rw [checkedAdd, hOy, hHeight]
      exact hBottom
    · rw [Area.map, hOx, hOy, hRightInt, hBottomInt, clientArea]
  · rintro ⟨ox, oy, right, bottom, hPlace, hRight, hBottom, hArea⟩
    obtain ⟨hDx, hDy, -, -⟩ := (hOrigin (ox, oy)).mp hPlace
    refine ⟨hDx, hDy, ?_, ?_⟩
    · rw [← hArea]
      exact fits_toInt right
    · rw [← hArea]
      exact fits_toInt bottom

def leftAbove (a : Area Int) : List (U32 × Window) → U32 × Window → Area Int
  | [], _ => a
  | _ :: ups, top => a.meet (seenArea ups top)

theorem seenArea_eq (ups : List (U32 × Window)) (top : U32 × Window) :
    seenArea ups top = leftAbove (clientArea ups (ups.headD top).2) ups top := by
  cases ups with
  | nil => rfl
  | cons p ups => rfl

theorem leftAbove_meet (a b : Area Int) (ups : List (U32 × Window)) (top : U32 × Window) :
    leftAbove (a.meet b) ups top = a.meet (leftAbove b ups top) := by
  cases ups with
  | nil => rfl
  | cons p ups => exact Area.meet_assoc a b _

theorem Climb.window (h : Climb s hwnd ups top) : s.window hwnd = some (ups.headD top).2 := by
  cases h with
  | top hWindow hTop => exact hWindow
  | up hWindow hNot hMore => exact hWindow

theorem clipWithinBy_climb (hRange : AllInRange s) (h : Climb s hwnd ups top) (hLength : ups.length < WINDOW_ANCESTRY_MAX) {n : Nat}
    (hn : ups.length ≤ n) (r : Area (BitVec 32)) :
    ∃ r', clipWithinBy checkedAdd s n hwnd r = some r' ∧ r'.map BitVec.toInt = leftAbove (r.map BitVec.toInt) ups top := by
  induction h generalizing n r with
  | @top h w hWindow hTop =>
    refine ⟨r, ?_, rfl⟩
    cases n with
    | zero => rfl
    | succ n =>
      unfold clipWithinBy
      rw [hWindow]
      exact if_pos hTop
  | @up h w ups top hWindow hNot hMore ih =>
    cases n with
    | zero => exact absurd hn (Nat.not_succ_le_zero _)
    | succ n =>
      have hShorter : ups.length < WINDOW_ANCESTRY_MAX := Nat.lt_of_succ_lt hLength
      have hParent := hMore.window
      obtain ⟨ox, oy, right, bottom, hPlace, hRight, hBottom, hArea⟩ := (corners_iff hMore hShorter _).mp (hRange _ _ _ _ hParent hMore)
      obtain ⟨r', hClip, hLeft⟩ := ih hShorter (Nat.le_of_succ_le_succ hn) ⟨smax r.left ox, smax r.top oy, smin r.right right, smin r.bottom bottom⟩
      refine ⟨r', ?_, ?_⟩
      · rw [clipWithinBy, hWindow]
        dsimp only
        rw [if_neg (Bool.eq_false_iff.mp hNot), hPlace]
        show (match s.window w.parent with | none => _ | some p => _) = _
        rw [hParent]
        show (checkedAdd ox _ >>= _) = _
        rw [hRight]
        show (checkedAdd oy _ >>= _) = _
        rw [hBottom]
        exact hClip
      · have hMeet : (Area.mk (smax r.left ox) (smax r.top oy) (smin r.right right) (smin r.bottom bottom)).map BitVec.toInt =
            (r.map BitVec.toInt).meet (clientArea ups (ups.headD top).2) := by
          rw [← hArea]
          simp only [Area.map, Area.meet, toInt_smax, toInt_smin]
        rw [hLeft, hMeet, leftAbove_meet, ← seenArea_eq]
        rfl

theorem windowVisibleRectBy_climb (hRange : AllInRange s) (h : Climb s hwnd ups top) (hLength : ups.length < WINDOW_ANCESTRY_MAX) :
    ∃ r, windowVisibleRectBy checkedAdd s hwnd = some r ∧ r.map BitVec.toInt = seenArea ups top := by
  obtain ⟨ox, oy, right, bottom, hPlace, hRight, hBottom, hArea⟩ := (corners_iff h hLength _).mp (hRange _ _ _ _ h.window h)
  obtain ⟨r, hClip, hLeft⟩ := clipWithinBy_climb hRange h hLength (Nat.le_of_lt hLength) ⟨ox, oy, right, bottom⟩
  refine ⟨r, ?_, ?_⟩
  · rw [windowVisibleRectBy, hPlace]
    show (match s.window hwnd with | none => _ | some p => _) = _
    rw [h.window]
    show (checkedAdd ox _ >>= _) = _
    rw [hRight]
    show (checkedAdd oy _ >>= _) = _
    rw [hBottom]
    exact hClip
  · rw [hLeft, hArea, ← seenArea_eq]

theorem inRange_of_visible (h : Climb s hwnd ups top) (hLength : ups.length < WINDOW_ANCESTRY_MAX) {r : Area (BitVec 32)}
    (hVisible : windowVisibleRectBy checkedAdd s hwnd = some r) (hWindow : s.window hwnd = some w) : InRange ups w := by
  obtain ⟨⟨ox, oy⟩, hPlace, hRest⟩ := Option.bind_eq_some_iff.mp hVisible
  rw [hWindow] at hRest
  obtain ⟨right, hRight, hRest⟩ := Option.bind_eq_some_iff.mp hRest
  obtain ⟨bottom, hBottom, -⟩ := Option.bind_eq_some_iff.mp hRest
  refine (corners_iff h hLength w).mpr ⟨ox, oy, right, bottom, hPlace, hRight, hBottom, ?_⟩
  have hOrigin := (originWithinBy_climb h (Nat.le_of_lt hLength) (0, 0) (ox, oy)).mp hPlace
  obtain ⟨hWidth, hHeight⟩ := clientSize_toInt w
  have hZero : (0 : BitVec 32).toInt = 0 := rfl
  obtain ⟨-, -, hOx, hOy⟩ := hOrigin
  rw [hZero, Int.zero_add] at hOx hOy
  rw [Area.map, fit_eq_some.mp hRight, fit_eq_some.mp hBottom, hOx, hOy, hWidth, hHeight]
  rfl

/-! ## Under a point -/

section Under

variable {x y : BitVec 32} {skip : List U32}

theorem containsPointBy_climb (hRange : AllInRange s) (h : Climb s hwnd ups top) (hLength : ups.length < WINDOW_ANCESTRY_MAX) :
    containsPointBy checkedAdd s hwnd x y = some (decide ((clientArea ups (ups.headD top).2).Covers x.toInt y.toInt)) := by
  obtain ⟨ox, oy, right, bottom, hPlace, hRight, hBottom, hArea⟩ := (corners_iff h hLength _).mp (hRange _ _ _ _ h.window h)
  rw [containsPointBy, hPlace]
  show (match s.window hwnd with | none => _ | some w => _) = _
  rw [h.window, ← hArea]
  show (if (ox.sle x && oy.sle y) = true then (checkedAdd ox _ >>= _) else _) = _
  rw [hRight]
  show (if (ox.sle x && oy.sle y) = true then (if x.slt right = true then (checkedAdd oy _ >>= _) else _) else _) = _
  rw [hBottom]
  have hCovers : decide (((Area.mk ox oy right bottom).map BitVec.toInt).Covers x.toInt y.toInt) =
      ((ox.sle x && oy.sle y) && (x.slt right && y.slt bottom)) := by
    rw [Bool.eq_iff_iff, decide_eq_true_iff, Area.covers_iff, Bool.and_eq_true, Bool.and_eq_true, Bool.and_eq_true,
      BitVec.sle_iff_toInt_le, BitVec.sle_iff_toInt_le, BitVec.slt_iff_toInt_lt, BitVec.slt_iff_toInt_lt, and_assoc]
    rfl
  rw [hCovers]
  cases ox.sle x && oy.sle y with
  | false => rfl
  | true =>
    cases x.slt right with
    | false => rfl
    | true => rfl

theorem childAmongBy_spec (hKeyed : Keyed s) (hShallow : Shallow s) (hRange : AllInRange s) (cur : U32) {windows : List (U32 × Window)}
    (hIn : ∀ p ∈ windows, p ∈ s.windows) : ∃ found, childAmongBy checkedAdd s cur x y skip windows = some found ∧
      ∀ h, found = some h → ∃ w ups top, s.window h = some w ∧ w.parent = cur ∧ w.shown = true ∧ Climb s h ups top ∧
        ups.length < WINDOW_ANCESTRY_MAX ∧ (clientArea ups w).Covers x.toInt y.toInt := by
  induction windows with
  | nil => exact ⟨none, rfl, fun h hNone => by (cases hNone)⟩
  | cons p rest ih =>
    obtain ⟨found, hRest, hSpec⟩ := ih fun q hq => hIn q (List.mem_cons_of_mem p hq)
    unfold childAmongBy
    split
    · rename_i hChild
      have hMem : p ∈ s.windows := hIn p List.mem_cons_self
      obtain ⟨ups, top, hClimb, hLength⟩ := hShallow p.1 (List.mem_map_of_mem hMem)
      have hWindow : s.window p.1 = some p.2 := hKeyed.window hMem
      have hHead : (ups.headD top).2 = p.2 := Option.some.inj (hClimb.window.symm.trans hWindow)
      rw [containsPointBy_climb hRange hClimb hLength, hHead]
      by_cases hCovers : (clientArea ups p.2).Covers x.toInt y.toInt
      · refine ⟨some p.1, ?_, fun h hFound => ?_⟩
        · rw [decide_eq_true hCovers]
          rfl
        · cases hFound
          rw [Bool.and_eq_true, Bool.and_eq_true, beq_iff_eq] at hChild
          exact ⟨p.2, ups, top, hWindow, hChild.1.1, hChild.1.2, hClimb, hLength, hCovers⟩
      · refine ⟨found, ?_, hSpec⟩
        rw [decide_eq_false hCovers]
        exact hRest
    · exact ⟨found, hRest, hSpec⟩

theorem Climb.unique {ups' : List (U32 × Window)} {top' : U32 × Window} (h : Climb s hwnd ups top) (h' : Climb s hwnd ups' top') :
    ups = ups' ∧ top = top' := by
  induction h generalizing ups' with
  | @top h w hWindow hTop =>
    cases h' with
    | top hWindow' hTop' => exact ⟨rfl, by rw [Option.some.inj (hWindow.symm.trans hWindow')]⟩
    | up hWindow' hNot hMore =>
      cases Option.some.inj (hWindow.symm.trans hWindow')
      rw [hTop] at hNot
      cases hNot
  | @up h w ups top hWindow hNot hMore ih =>
    cases h' with
    | top hWindow' hTop' =>
      cases Option.some.inj (hWindow.symm.trans hWindow')
      rw [hTop'] at hNot
      cases hNot
    | up hWindow' hNot' hMore' =>
      cases Option.some.inj (hWindow.symm.trans hWindow')
      obtain ⟨rfl, rfl⟩ := ih hMore'
      exact ⟨rfl, rfl⟩

theorem SeenAt.down (hKeyed : Keyed s) {cur h : U32} (hSeen : SeenAt s x y cur) (hWindow : s.window h = some w) (hParent : w.parent = cur)
    (hShown : w.shown = true) (hClimb : Climb s h ups top) (hCovers : (clientArea ups w).Covers x.toInt y.toInt) : SeenAt s x y h := by
  obtain ⟨above, top', hAbove, hAll, hTopShown, hSeenAbove⟩ := hSeen
  have hNot : s.isTop w = false := by
    refine isTop_eq_false.mpr ⟨?_, ?_⟩
    · rintro hNull
      have hIn := window_isSome.mp (Option.isSome_iff_exists.mpr ⟨_, hAbove.window⟩)
      rw [← hParent, hNull] at hIn
      exact hKeyed.proper hIn
    · rw [hParent, hAbove.window]
      rfl
  obtain ⟨rfl, rfl⟩ := hClimb.unique (.up hWindow hNot (hParent ▸ hAbove))
  refine ⟨_, _, hClimb, fun p hp => ?_, hTopShown, Area.covers_meet.mpr ⟨hCovers, hSeenAbove⟩⟩
  rcases List.mem_cons.mp hp with rfl | hUp
  · exact hShown
  · exact hAll p hUp

theorem windowFromPointWithinBy_spec (hKeyed : Keyed s) (hShallow : Shallow s) (hRange : AllInRange s) (n : Nat) {cur : U32}
    (hSeen : SeenAt s x y cur) : ∃ h, windowFromPointWithinBy checkedAdd s x y skip n cur = some h ∧ SeenAt s x y h := by
  induction n generalizing cur with
  | zero => exact ⟨cur, rfl, hSeen⟩
  | succ n ih =>
    obtain ⟨found, hFound, hSpec⟩ := @childAmongBy_spec s x y skip hKeyed hShallow hRange cur s.windows.reverse
      (fun p hp => List.mem_reverse.mp hp)
    rw [windowFromPointWithinBy, hFound]
    cases found with
    | none => exact ⟨cur, rfl, hSeen⟩
    | some h =>
      obtain ⟨w, ups, top, hWindow, hParent, hShown, hClimb, -, hCovers⟩ := hSpec h rfl
      exact ih (hSeen.down hKeyed hWindow hParent hShown hClimb hCovers)

theorem Climb.last (h : Climb s hwnd ups top) : s.window top.1 = some top.2 ∧ s.isTop top.2 = true := by
  induction h with
  | top hWindow hTop => exact ⟨hWindow, hTop⟩
  | up hWindow hNot hMore ih => exact ih

theorem surfaceOwnerWithin_climb (h : Climb s hwnd ups top) {n : Nat} (hn : ups.length ≤ n) : s.surfaceOwnerWithin n hwnd = top.1 := by
  induction h generalizing n with
  | top hWindow hTop =>
    cases n with
    | zero => rfl
    | succ n =>
      rw [State.surfaceOwnerWithin, hWindow]
      exact if_pos hTop
  | up hWindow hNot hMore ih =>
    cases n with
    | zero => exact absurd hn (Nat.not_succ_le_zero _)
    | succ n =>
      rw [State.surfaceOwnerWithin, hWindow, ← ih (Nat.le_of_succ_le_succ hn)]
      exact if_neg (Bool.eq_false_iff.mp hNot)

theorem shownWindow_climb (hKeyed : Keyed s) (hShallow : Shallow s) {root : U32} (hRoot : s.shownWindow = some root) :
    ∃ w, Climb s root [] (root, w) ∧ w.shown = true := by
  obtain ⟨⟨h, w⟩, hFind, rfl⟩ := Option.map_eq_some_iff.mp hRoot
  have hMem := List.mem_of_find?_eq_some hFind
  have hBoth := List.find?_some hFind
  dsimp only at hBoth
  obtain ⟨hShown, hOwner⟩ := Bool.and_eq_true_iff.mp hBoth
  obtain ⟨ups, top, hClimb, hLength⟩ := hShallow h (List.mem_map_of_mem hMem)
  have hTop : top.1 = h := (surfaceOwnerWithin_climb hClimb (Nat.le_of_lt hLength)).symm.trans (of_decide_eq_true hOwner)
  obtain ⟨hLast, hIsTop⟩ := hClimb.last
  rw [hTop, hKeyed.window hMem] at hLast
  refine ⟨w, .top (hKeyed.window hMem) ?_, hShown⟩
  rw [Option.some.inj hLast]
  exact hIsTop

theorem windowFromPointBy_spec (hKeyed : Keyed s) (hShallow : Shallow s) (hRange : AllInRange s) :
    ∃ h, windowFromPointBy checkedAdd s x y skip = some h ∧ (h ≠ 0 → SeenAt s x y h) := by
  unfold windowFromPointBy
  cases hRoot : s.shownWindow with
  | none => exact ⟨0, rfl, fun hNe => absurd rfl hNe⟩
  | some root =>
    obtain ⟨w, hClimb, hShown⟩ := shownWindow_climb hKeyed hShallow hRoot
    have hLength : ([] : List (U32 × Window)).length < WINDOW_ANCESTRY_MAX := by decide
    unfold windowFromPointInBy
    dsimp only
    split
    · exact ⟨0, rfl, fun hNe => absurd rfl hNe⟩
    · rw [containsPointBy_climb hRange hClimb hLength]
      by_cases hCovers : (clientArea [] w).Covers x.toInt y.toInt
      · have hSeen : SeenAt s x y root := ⟨[], (root, w), hClimb, fun p hp => absurd hp List.not_mem_nil, hShown, hCovers⟩
        obtain ⟨h, hWalk, hEnd⟩ := @windowFromPointWithinBy_spec s x y skip hKeyed hShallow hRange WINDOW_ANCESTRY_MAX root hSeen
        refine ⟨h, ?_, fun _ => hEnd⟩
        rw [show decide ((clientArea [] (([] : List (U32 × Window)).headD (root, w)).2).Covers x.toInt y.toInt) = true from
          decide_eq_true hCovers]
        exact hWalk
      · refine ⟨0, ?_, fun hNe => absurd rfl hNe⟩
        rw [show decide ((clientArea [] (([] : List (U32 × Window)).headD (root, w)).2).Covers x.toInt y.toInt) = false from
          decide_eq_false hCovers]
        rfl

end Under

/-- In a table without windows too deep the visible rectangles are the intersections, the window found under a point is
seen there, and no sum overflows, exactly if the offsets and the borders of all windows fit in 32 bits. -/
theorem rightPlaces_iff (hKeyed : Keyed s) (hShallow : Shallow s) : RightPlaces s ↔ AllInRange s := by
  constructor
  · intro hRight h w ups top hWindow hClimb
    obtain ⟨ups', top', hClimb', hLength⟩ := hShallow h (window_isSome.mp (Option.isSome_iff_exists.mpr ⟨w, hWindow⟩))
    obtain ⟨rfl, rfl⟩ := hClimb.unique hClimb'
    obtain ⟨r, hVisible, -⟩ := hRight.visible h ups top hClimb
    exact inRange_of_visible hClimb hLength hVisible hWindow
  · intro hRange
    refine ⟨fun h ups top hClimb => ?_, fun x y skip => windowFromPointBy_spec hKeyed hShallow hRange, fun parent x y => ?_⟩
    · obtain ⟨ups', top', hClimb', hLength⟩ := hShallow h (window_isSome.mp (Option.isSome_iff_exists.mpr ⟨_, hClimb.window⟩))
      obtain ⟨rfl, rfl⟩ := hClimb.unique hClimb'
      exact windowVisibleRectBy_climb hRange hClimb hLength
    · obtain ⟨found, hFound, -⟩ := @childAmongBy_spec s x y [] hKeyed hShallow hRange parent s.windows.reverse
        (fun p hp => List.mem_reverse.mp hp)
      exact ⟨found.getD parent, congrArg (· >>= _) hFound⟩

theorem allInRange_of_keys (h : ∀ k ∈ s.keys, ∃ ups top w, s.window k = some w ∧ Climb s k ups top ∧ InRange ups w) : AllInRange s := by
  intro k w ups top hWindow hClimb
  obtain ⟨ups', top', w', hWindow', hClimb', hRange⟩ := h k (window_isSome.mp (Option.isSome_iff_exists.mpr ⟨w, hWindow⟩))
  obtain ⟨rfl, rfl⟩ := hClimb.unique hClimb'
  obtain rfl := Option.some.inj (hWindow.symm.trans hWindow')
  exact hRange

end Proofs

theorem dressed_climbs : ∀ h ∈ dressed.keys, ∃ ups top w, dressed.window h = some w ∧ Climb dressed h ups top ∧
    InRange ups w ∧ ups.length < WINDOW_ANCESTRY_MAX := by
  intro h hMem
  have hCases : h = 0x1000 ∨ h = 0x1004 := by simpa using (show h ∈ [0x1000, 0x1004] from hMem)
  rcases hCases with rfl | rfl
  · exact ⟨_, _, _, rfl, .top rfl rfl, ⟨trivial, trivial, by decide, by decide⟩, by decide⟩
  · exact ⟨_, _, _, rfl, .up rfl rfl (.top rfl rfl), ⟨⟨by decide, trivial⟩, ⟨by decide, trivial⟩, by decide, by decide⟩, by decide⟩

theorem dressed_rightPlaces : RightPlaces dressed := by
  refine (rightPlaces_iff dressed_keyed fun h hMem => ?_).mpr (allInRange_of_keys fun h hMem => ?_)
  · obtain ⟨ups, top, w, -, hClimb, -, hLength⟩ := dressed_climbs h hMem
    exact ⟨ups, top, hClimb, hLength⟩
  · obtain ⟨ups, top, w, hWindow, hClimb, hRange, -⟩ := dressed_climbs h hMem
    exact ⟨ups, top, w, hWindow, hClimb, hRange⟩

def farChild : State :=
  (Call.ntUserCreateWindowEx true true ⟨0x7FFFFFF0, 10, 0x100, 100⟩ WS_VISIBLE 0x1000).run
    ((Call.ntUserCreateWindowEx true true aRect WS_VISIBLE 0).run (State.new 0x1000))

theorem farChild_overflows : ¬∀ s : State, Keyed s → Shallow s → RightPlaces s := by
  intro hAll
  have hRight := hAll farChild ⟨by decide, by decide⟩ fun h hMem => by
    have hCases : h = 0x1000 ∨ h = 0x1004 := by simpa using (show h ∈ [0x1000, 0x1004] from hMem)
    rcases hCases with rfl | rfl
    · exact ⟨_, _, .top rfl rfl, by decide⟩
    · exact ⟨_, _, .up rfl rfl (.top rfl rfl), by decide⟩
  obtain ⟨r, hVisible, -⟩ := hRight.visible 0x1004 _ _ (.up rfl rfl (.top rfl rfl))
  have hNone : windowVisibleRectBy checkedAdd farChild 0x1004 = none := by decide
  rw [hNone] at hVisible
  cases hVisible

end Windows
end Exemu.Os
