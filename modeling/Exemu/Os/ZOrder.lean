import Exemu.Os.HitTest
import Exemu.Os.WindowTree
import Mathlib.Data.List.Nodup

/-! # The order of the windows

Which of two windows lies above the other is told by their places in the table alone.
-/
namespace Exemu.Os

namespace Windows

open List

open HitTest (containsPoint childUnder)

def HWND_FIRST : U64 := 0
def HWND_LAST : U64 := 1
def HWND_NEXT : U64 := 2
def HWND_PREV : U64 := 3
def OWNER : U64 := 4
def CHILD : U64 := 5

def WS_CHILD : U32 := 0x40000000
def HWND_LIST_MAX : Nat := 4096

namespace State

variable (s : State)

def siblings (parent : U32) : List U32 := (s.windows.filter fun x => x.2.parent == parent).map Prod.fst

def windowRelative (hwnd : U32) (rel : U64) : U32 :=
  match s.window hwnd with
  | none => 0
  | some w =>
    if rel = CHILD then ((s.windows.find? fun x => x.2.parent == hwnd).map Prod.fst).getD 0
    else if rel = OWNER then if w.style &&& WS_CHILD = 0 then w.parent else 0
    else
      let siblings := s.siblings w.parent
      let place := siblings.idxOf? hwnd
      if rel = HWND_FIRST then siblings.head?.getD 0
      else if rel = HWND_LAST then siblings.getLast?.getD 0
      else if rel = HWND_NEXT then (place.bind fun i => siblings[i + 1]?).getD 0
      else if rel = HWND_PREV then ((place.filter fun i => 0 < i).bind fun i => siblings[i - 1]?).getD 0
      else 0

def collectKid (below : U32 → List U32 → List U32) (out : List U32) (k : U32) : List U32 :=
  if HWND_LIST_MAX ≤ out.length then out else below k (out ++ [k])

/-- The first argument counts down from `WINDOW_ANCESTRY_MAX` where the source's `depth` counts up. -/
def collectDescendants : Nat → U32 → List U32 → List U32
  | 0, _, out => out
  | left + 1, root, out => (s.siblings root).foldl (collectKid (collectDescendants left)) out

def hwndList (hwnd : U32) (descendants : Bool) : List U32 :=
  if descendants then s.collectDescendants WINDOW_ANCESTRY_MAX hwnd []
  else if hwnd = 0 then s.siblings 0
  else
    match s.window hwnd with
    | none => []
    | some w =>
      (((s.windows.dropWhile fun x => x.1 != hwnd).filter fun x => x.2.parent == w.parent).map Prod.fst).take HWND_LIST_MAX

def childWindowFromPoint (parent : U32) (x y : BitVec 32) : U32 :=
  ((s.windows.reverse.find? fun p => p.2.parent == parent && p.2.shown && containsPoint s p.1 x y).map Prod.fst).getD parent

def nextFrom : Nat → U32 → List U32
  | 0, _ => []
  | n + 1, hwnd => if hwnd = 0 then [] else hwnd :: nextFrom n (s.windowRelative hwnd HWND_NEXT)

def hit (x y : BitVec 32) (skip : List U32) (h : U32) : Bool :=
  ((s.window h).map Window.shown).getD false && !skip.contains h && containsPoint s h x y

end State

structure Keyed (s : State) : Prop where
  unique : s.keys.Nodup
  proper : 0 ∉ s.keys

/-- `order` is how the calls list the children of `parent`: the first child and the next ones, and the
list of windows from the first child on, for the desktop, and with all that is below. -/
structure Lists (s : State) (parent : U32) (order : List U32) : Prop where
  relatives : parent ∈ s.keys → s.nextFrom s.windows.length (s.windowRelative parent CHILD) = order
  first : ∀ h ∈ order, s.windowRelative h HWND_FIRST = order.head?.getD 0
  siblings : ∀ h ∈ order.head?, s.hwndList h false = order.take HWND_LIST_MAX
  desktop : parent = 0 → s.hwndList 0 false = order
  descendants : order.Sublist (s.hwndList parent true) ∨ HWND_LIST_MAX ≤ (s.hwndList parent true).length

section Order

variable {s : State} {parent : U32}

variable {h : U32}

theorem mem_siblings : h ∈ s.siblings parent ↔ ∃ w, (h, w) ∈ s.windows ∧ w.parent = parent := by
  rw [State.siblings, mem_map]
  constructor
  · rintro ⟨⟨h', w⟩, hIn, rfl⟩
    obtain ⟨hMem, hParent⟩ := List.mem_filter.mp hIn
    exact ⟨w, hMem, beq_iff_eq.mp hParent⟩
  · rintro ⟨w, hMem, hParent⟩
    exact ⟨(h, w), List.mem_filter.mpr ⟨hMem, beq_iff_eq.mpr hParent⟩, rfl⟩

theorem siblings_nodup (hKeyed : Keyed s) : (s.siblings parent).Nodup :=
  (List.filter_sublist.map Prod.fst).nodup hKeyed.unique

theorem Keyed.window (hKeyed : Keyed s) {w : Window} (hMem : (h, w) ∈ s.windows) : s.window h = some w :=
  Forest.lookup_of_nodup hKeyed.unique hMem

theorem Keyed.sibling (hKeyed : Keyed s) (hMem : h ∈ s.siblings parent) : ∃ w, s.window h = some w ∧ w.parent = parent ∧ h ≠ 0 := by
  obtain ⟨w, hIn, hParent⟩ := mem_siblings.mp hMem
  refine ⟨w, hKeyed.window hIn, hParent, ?_⟩
  rintro rfl
  exact hKeyed.proper (List.mem_map.mpr ⟨_, hIn, rfl⟩)

theorem windowRelative_child (hParent : parent ∈ s.keys) : s.windowRelative parent CHILD = (s.siblings parent).head?.getD 0 := by
  obtain ⟨w, hWindow⟩ := Option.isSome_iff_exists.mp (window_isSome.mpr hParent)
  unfold State.windowRelative
  rw [hWindow]
  dsimp only
  rw [if_pos rfl, State.siblings, head?_map, head?_filter]

theorem windowRelative_first (hKeyed : Keyed s) (hMem : h ∈ s.siblings parent) :
    s.windowRelative h HWND_FIRST = (s.siblings parent).head?.getD 0 := by
  obtain ⟨w, hWindow, rfl, -⟩ := hKeyed.sibling hMem
  unfold State.windowRelative
  rw [hWindow]
  rfl

theorem windowRelative_next (hKeyed : Keyed s) {i : Nat} (hGet : (s.siblings parent)[i]? = some h) :
    s.windowRelative h HWND_NEXT = (s.siblings parent)[i + 1]?.getD 0 := by
  obtain ⟨w, hWindow, rfl, -⟩ := hKeyed.sibling (mem_of_getElem? hGet)
  obtain ⟨hi, hEq⟩ := List.getElem?_eq_some_iff.mp hGet
  have hPlace : (s.siblings w.parent).idxOf? h = some i := by
    refine List.idxOf?_eq_some_iff.mpr ⟨hi, hEq, fun j hj hSame => ?_⟩
    have hBoth := List.Nodup.getElem_inj_iff (siblings_nodup hKeyed) |>.mp (hSame.trans hEq.symm)
    omega
  unfold State.windowRelative
  rw [hWindow]
  dsimp only
  rw [hPlace]
  rfl

theorem nextFrom_siblings (hKeyed : Keyed s) {n i : Nat} (hEnough : (s.siblings parent).length ≤ i + n) :
    s.nextFrom n ((s.siblings parent)[i]?.getD 0) = (s.siblings parent).drop i := by
  induction n generalizing i with
  | zero => rw [drop_of_length_le (by omega), State.nextFrom]
  | succ n ih =>
    cases hGet : (s.siblings parent)[i]? with
    | none =>
      rw [drop_of_length_le (List.getElem?_eq_none_iff.mp hGet), State.nextFrom]
      exact if_pos rfl
    | some h =>
      obtain ⟨hi, hEq⟩ := List.getElem?_eq_some_iff.mp hGet
      obtain ⟨w, -, -, hNe⟩ := hKeyed.sibling (mem_of_getElem? hGet)
      rw [Option.getD_some, State.nextFrom, if_neg hNe, windowRelative_next hKeyed hGet, ih (by omega), drop_eq_getElem_cons hi, hEq]

theorem hwndList_head (hKeyed : Keyed s) (hHead : h ∈ (s.siblings parent).head?) : s.hwndList h false = (s.siblings parent).take HWND_LIST_MAX := by
  obtain ⟨w, hWindow, hParent, hNe⟩ := hKeyed.sibling (mem_of_head? hHead)
  rw [State.siblings, head?_map, head?_filter] at hHead
  obtain ⟨x, hFind, rfl⟩ := Option.map_eq_some_iff.mp hHead
  obtain ⟨-, before, after, hSplit, hBefore⟩ := List.find?_eq_some_iff_append.mp hFind
  have hDrop : s.windows.dropWhile (fun y => y.1 != x.1) = x :: after := by
    rw [hSplit, dropWhile_append_of_pos, dropWhile_cons_of_neg]
    · exact fun hOther => absurd rfl (bne_iff_ne.mp hOther)
    · intro y hy
      refine bne_iff_ne.mpr fun hSame => ?_
      have hUnique := hKeyed.unique
      rw [State.keys, hSplit, map_append, nodup_append] at hUnique
      exact hUnique.2.2 y.1 (mem_map_of_mem hy) x.1 (mem_map_of_mem mem_cons_self) hSame
  have hFilter : (s.windows.filter fun y => y.2.parent == parent) = (x :: after).filter fun y => y.2.parent == parent := by
    rw [hSplit, filter_append, List.filter_eq_nil_iff.mpr, nil_append]
    exact fun y hy => by simpa using hBefore y hy
  unfold State.hwndList
  rw [if_neg Bool.false_ne_true, if_neg hNe, hWindow]
  dsimp only
  rw [hDrop, hParent, State.siblings, hFilter]

section Below

variable {below : U32 → List U32 → List U32} (hBelow : ∀ k out, out <+: below k out)
include hBelow

theorem prefix_collectKid (out : List U32) (k : U32) : out <+: State.collectKid below out k := by
  unfold State.collectKid
  split
  · exact prefix_rfl
  · exact (prefix_append out [k]).trans (hBelow k (out ++ [k]))

theorem prefix_collectKids (kids out : List U32) : out <+: kids.foldl (State.collectKid below) out := by
  induction kids generalizing out with
  | nil => exact prefix_rfl
  | cons k kids ih => exact (prefix_collectKid hBelow out k).trans (ih _)

theorem collectKids_sublist (kids out : List U32) : (out ++ kids).Sublist (kids.foldl (State.collectKid below) out) ∨
    HWND_LIST_MAX ≤ (kids.foldl (State.collectKid below) out).length := by
  induction kids generalizing out with
  | nil => exact .inl (by rw [append_nil, foldl_nil])
  | cons k kids ih =>
    by_cases hFull : HWND_LIST_MAX ≤ out.length
    · exact .inr (hFull.trans (prefix_collectKids hBelow (k :: kids) out).length_le)
    · refine (ih _).imp_left fun hRest => List.Sublist.trans ?_ hRest
      obtain ⟨more, hMore⟩ := hBelow k (out ++ [k])
      rw [State.collectKid, if_neg hFull, ← hMore, append_assoc, append_assoc]
      exact (List.Sublist.refl out).append ((List.Sublist.refl [k]).append (sublist_append_right more kids))

end Below

theorem prefix_collectDescendants (s : State) (left : Nat) (root : U32) (out : List U32) : out <+: s.collectDescendants left root out := by
  induction left generalizing root out with
  | zero => exact prefix_rfl
  | succ left ih => exact prefix_collectKids ih (s.siblings root) out

theorem siblings_lists (hKeyed : Keyed s) (parent : U32) : Lists s parent (s.siblings parent) where
  relatives := fun hParent => by
    have hLength : (s.siblings parent).length ≤ 0 + s.windows.length := by
      rw [State.siblings, length_map, Nat.zero_add]
      exact length_filter_le ..
    rw [windowRelative_child hParent, head?_eq_getElem?, nextFrom_siblings hKeyed hLength, drop_zero]
  first := fun h hMem => windowRelative_first hKeyed hMem
  siblings := fun h hHead => hwndList_head hKeyed hHead
  desktop := fun hNone => by
    rw [hNone]
    rfl
  descendants := collectKids_sublist (prefix_collectDescendants s 63) (s.siblings parent) []

/-! ## The hit test -/

variable {x y : BitVec 32} {skip : List U32}

theorem filter_siblings (s : State) (parent : U32) (q : U32 → Bool) :
    (s.siblings parent).filter q = (s.windows.filter fun p => p.2.parent == parent && q p.1).map Prod.fst := by
  rw [State.siblings, filter_map, filter_filter]
  congr 1
  exact filter_congr fun p _ => Bool.and_comm _ _

theorem childUnder_eq (hKeyed : Keyed s) (parent : U32) : childUnder s parent x y skip = ((s.siblings parent).filter (s.hit x y skip)).getLast? := by
  rw [filter_siblings, getLast?_map, childUnder, ← getLast?_filter]
  congr 2
  refine filter_congr fun p hp => ?_
  rw [State.hit, hKeyed.window hp, Option.map_some, Option.getD_some, Bool.and_assoc, Bool.and_assoc, Bool.and_assoc]

theorem getLast?_eq_head?_iff {α : Type} {xs : List α} (hNodup : xs.Nodup) : xs.getLast? = xs.head? ↔ xs.length ≤ 1 := by
  cases xs with
  | nil => exact ⟨fun _ => Nat.zero_le 1, fun _ => rfl⟩
  | cons a rest =>
    cases rest with
    | nil => exact ⟨fun _ => Nat.le_refl 1, fun _ => rfl⟩
    | cons b rest =>
      refine ⟨fun hSame => ?_, fun hShort => absurd (Nat.le_of_succ_le_succ hShort) (Nat.not_succ_le_zero _)⟩
      rw [getLast?_cons_cons] at hSame
      exact absurd (mem_of_getLast? hSame) (List.nodup_cons.mp hNodup).1

theorem childWindowFromPoint_eq (s : State) (parent : U32) : s.childWindowFromPoint parent x y = (childUnder s parent x y []).getD parent := by
  rw [State.childWindowFromPoint, childUnder]
  congr 3
  funext p
  rw [contains_nil, Bool.not_false, Bool.and_true]

/-- The calls list the children in the order of the table. The child that the hit test picks is the first of them that
is shown and has the point exactly if there are no two such. -/
theorem childUnder_first_iff (hKeyed : Keyed s) (parent : U32) (x y : BitVec 32) (skip : List U32) :
    Lists s parent (s.siblings parent) ∧ s.childWindowFromPoint parent x y = (childUnder s parent x y []).getD parent ∧
      (childUnder s parent x y skip = (s.siblings parent).find? (s.hit x y skip) ↔
        ((s.siblings parent).filter (s.hit x y skip)).length ≤ 1) := by
  refine ⟨siblings_lists hKeyed parent, childWindowFromPoint_eq s parent, ?_⟩
  rw [childUnder_eq hKeyed, ← List.head?_filter, getLast?_eq_head?_iff ((siblings_nodup hKeyed).filter _)]

end Order

theorem dressed_keyed : Keyed dressed := ⟨by decide, by decide⟩

theorem button_first : childUnder dressed 0x1000 20 20 [] = (dressed.siblings 0x1000).find? (dressed.hit 20 20 []) :=
  (childUnder_first_iff dressed_keyed 0x1000 20 20 []).2.2.mpr (by decide)

def covered : State := (Call.ntUserCreateWindowEx true true aRect WS_VISIBLE 0x1000).run dressed

theorem covered_button_differs :
    ¬∀ (s : State) (parent : U32) (x y : BitVec 32) (skip : List U32), Keyed s →
      childUnder s parent x y skip = (s.siblings parent).find? (s.hit x y skip) := by
  intro hAll
  have hFirst := hAll covered 0x1000 20 20 [] ⟨by decide, by decide⟩
  exact absurd hFirst (by decide)

end Windows
end Exemu.Os
