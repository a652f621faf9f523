import Mathlib.Algebra.Order.Ring.Nat
import Mathlib.Data.List.Basic

/-! # Unix host paths: pushing a component and reading the components back -/
namespace Exemu.Path

open List

abbrev Text := List Char

inductive Component where
  | rootDir
  | curDir
  | parentDir
  | normal (name : Text)
deriving DecidableEq, Repr

def isAbsolute (p : Text) : Bool := p.head? == some '/'

def push (p q : Text) : Text :=
  if isAbsolute q then q
  else if p.getLast?.any (· != '/') then p ++ '/' :: q
  else p ++ q

def named : Text → Option Component
  | [] => none
  | ['.'] => none
  | ['.', '.'] => some .parentDir
  | name => some (.normal name)

def leading (p : Text) : List Component :=
  if isAbsolute p then [.rootDir]
  else if (p.splitOn '/').head? = some ['.'] then [.curDir]
  else []

def components (p : Text) : List Component :=
  leading p ++ (p.splitOn '/').filterMap named

def idle (segment : Text) : Bool := segment == [] || segment == ['.']

def parent (p : Text) : Option Text :=
  let root := if isAbsolute p then ['/'] else []
  match (p.splitOn '/').reverse.dropWhile idle with
  | [] => if leading p = [.curDir] then some [] else none
  | _ :: rest =>
    match (rest.dropWhile idle).reverse with
    | [] => some (if leading p = [.curDir] then ['.'] else root)
    | kept => some (List.intercalate ['/'] kept)

variable {n p : Text}

theorem not_absolute (hName : '/' ∉ n) : isAbsolute n = false := by
  cases n with
  | nil => rfl
  | cons c cs =>
    have hc : c ≠ '/' := fun h => hName (h ▸ mem_cons_self)
    simpa [isAbsolute] using hc

theorem segments_push (hRoot : p ≠ []) (hName : '/' ∉ n) :
    ∃ front back, p.splitOn '/' = front ++ back ∧ (back = [] ∨ back = [[]]) ∧
      (push p n).splitOn '/' = front ++ [n] ∧ front ≠ [] := by
  have hPush : push p n = if p.getLast?.any (· != '/') then p ++ '/' :: n else p ++ n := by
    rw [push, if_neg (by simp [not_absolute hName])]
  have hSplit : n.splitOn '/' = [n] := splitOn_eq_singleton hName
  by_cases hLast : p.getLast?.any (· != '/')
  · refine ⟨p.splitOn '/', [], by simp, .inl rfl, ?_, splitOn_ne_nil _ _⟩
    rw [hPush, if_pos hLast, splitOn_append_cons_self, hSplit]
  · obtain ⟨q, c, rfl⟩ := (eq_nil_or_concat p).resolve_left hRoot
    have hc : c = '/' := by simpa using hLast
    subst hc
    refine ⟨q.splitOn '/', [[]], ?_, .inr rfl, ?_, splitOn_ne_nil _ _⟩
    · rw [concat_eq_append, splitOn_append_cons_self]
      rfl
    · rw [hPush, if_neg hLast, concat_eq_append, append_assoc, singleton_append,
        splitOn_append_cons_self, hSplit]

theorem push_ne_nil (n : Text) (hRoot : p ≠ []) (hName : '/' ∉ n) : push p n ≠ [] := by
  rw [push, if_neg (by simp [not_absolute hName])]
  split <;> simp [hRoot]

theorem absolute_push (hRoot : p ≠ []) (hName : '/' ∉ n) : isAbsolute (push p n) = isAbsolute p := by
  obtain ⟨c, cs, rfl⟩ := exists_cons_of_ne_nil hRoot
  rw [push, if_neg (by simp [not_absolute hName])]
  split <;> simp [isAbsolute]

theorem components_push (hRoot : p ≠ []) (hName : '/' ∉ n) :
    components (push p n) = components p ++ (named n).toList := by
  obtain ⟨front, back, hOld, hBack, hNew, hFront⟩ := segments_push hRoot hName
  have hHead : ((push p n).splitOn '/').head? = (p.splitOn '/').head? := by
    rw [hOld, hNew, head?_append_of_ne_nil _ hFront, head?_append_of_ne_nil _ hFront]
  have hLead : leading (push p n) = leading p := by
    rw [leading, leading, absolute_push hRoot hName, hHead]
  have hIdle : back.filterMap named = [] := by
    rcases hBack with rfl | rfl <;> rfl
  have hOne : [n].filterMap named = (named n).toList := by
    cases h : named n <;> simp [h]
  rw [components, components, hLead, hOld, hNew, filterMap_append, filterMap_append, hIdle,
    hOne, append_nil, append_assoc]

theorem components_nil : components [] = [] := rfl

theorem components_push_nil (hName : '/' ∉ n) (hDot : n ≠ ['.']) :
    components (push [] n) = (named n).toList := by
  have hPush : push [] n = n := by
    rw [push, if_neg (by simp [not_absolute hName])]
    rfl
  have hOne : [n].filterMap named = (named n).toList := by
    cases h : named n <;> simp [h]
  rw [hPush, components, leading, if_neg (by simp [not_absolute hName]),
    splitOn_eq_singleton hName, if_neg (by simpa using hDot), hOne, nil_append]

theorem components_foldl_push {names : List Text} (hNames : ∀ n ∈ names, '/' ∉ n) (hRoot : p ≠ []) :
    components (names.foldl push p) = components p ++ names.filterMap named := by
  induction names generalizing p with
  | nil => simp
  | cons n names ih =>
    have hName := hNames n mem_cons_self
    rw [foldl_cons, ih (fun m hm => hNames m (mem_cons_of_mem _ hm))
      (push_ne_nil n hRoot hName), components_push hRoot hName, filterMap_cons]
    cases named n <;> simp

theorem named_eq_normal (n m : Text) :
    named n = some (.normal m) ↔ n = m ∧ n ≠ [] ∧ n ≠ ['.'] ∧ n ≠ ['.', '.'] := by
  unfold named
  split <;> simp_all

theorem not_mem_splitOn (h : n ∈ p.splitOn '/') : '/' ∉ n := by
  induction p generalizing n with
  | nil => simp_all [splitOn_eq_splitOnP]
  | cons c cs ih =>
    rw [splitOn_cons_eq_if_modifyHead] at h
    split at h
    · rcases List.mem_cons.mp h with rfl | h
      · simp
      · exact ih h
    · rename_i hc
      obtain ⟨s, ss, hs⟩ := exists_cons_of_ne_nil (splitOn_ne_nil '/' cs)
      rw [hs, modifyHead_cons] at h
      rcases List.mem_cons.mp h with rfl | h
      · have hSlash := ih (hs ▸ mem_cons_self)
        have hHead : '/' ≠ c := fun h => hc (by rw [h, beq_self_eq_true])
        simp [hSlash, hHead]
      · exact ih (hs ▸ mem_cons_of_mem _ h)

theorem all_normal_iff (segments : List Text) :
    (∃ names : List Text, segments.filterMap named = names.map .normal) ↔ ['.', '.'] ∉ segments := by
  constructor
  · rintro ⟨names, hNames⟩ hParent
    have hMem : Component.parentDir ∈ segments.filterMap named := List.mem_filterMap.mpr ⟨_, hParent, rfl⟩
    rw [hNames] at hMem
    simp at hMem
  · intro hParent
    induction segments with
    | nil => exact ⟨[], rfl⟩
    | cons s segments ih =>
      obtain ⟨names, hNames⟩ := ih fun h => hParent (mem_cons_of_mem _ h)
      have hHead : s ≠ ['.', '.'] := fun h => hParent (h ▸ mem_cons_self)
      cases hNamed : named s with
      | none => exact ⟨names, by rw [filterMap_cons, hNamed, hNames]⟩
      | some c =>
        have hNormal : ∃ m, c = .normal m := by
          unfold named at hNamed
          split at hNamed
          · cases hNamed
          · cases hNamed
          · exact absurd rfl hHead
          · exact ⟨s, (Option.some.inj hNamed).symm⟩
        obtain ⟨m, rfl⟩ := hNormal
        exact ⟨m :: names, by rw [filterMap_cons, hNamed, hNames]; rfl⟩

end Exemu.Path
