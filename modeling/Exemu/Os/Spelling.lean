import Exemu.Library.Delimited
import Exemu.Os.Registry

/-! # One spelling for each key

Keys are stored as they were spelled when they were made, and every path is brought to the stored
spelling before it is used.
-/
namespace Exemu.Os

open List

open Path (Text)
open Delimited

/-! ## Paths and their components -/

def joined (cs : List Text) : Text := List.intercalate ['\\'] cs

def components (s : Text) : List Text := (s.splitOn '\\').filter fun c => decide (c ≠ [])

def fold (cs : List Text) : List Text := cs.map toAsciiLowercase

structure Clean (cs : List Text) : Prop where
  named : ∀ c ∈ cs, c ≠ []
  whole : ∀ c ∈ cs, '\\' ∉ c

theorem fixes_toLower : Fixes Char.toLower '\\' := by
  intro c
  constructor
  · intro h
    unfold Char.toLower at h
    split at h
    · rename_i hUpper
      have hLow : 65 ≤ c.val.toNat := UInt32.le_iff_toNat_le.mp hUpper.1
      have hHigh : c.val.toNat ≤ 90 := UInt32.le_iff_toNat_le.mp hUpper.2
      have hVal : (c.val + 32).toNat = 92 := congrArg (fun d => d.val.toNat) h
      have hShift : (32 : UInt32).toNat = 32 := rfl
      rw [UInt32.toNat_add, hShift] at hVal
      omega
    · exact h
  · rintro rfl
    decide

theorem fold_append (as bs : List Text) : fold (as ++ bs) = fold as ++ fold bs := map_append

theorem length_of_fold {as bs : List Text} (h : fold as = fold bs) : as.length = bs.length := by
  simpa [fold] using congrArg List.length h

theorem toAsciiLowercase_nil_iff (s : Text) : toAsciiLowercase s = [] ↔ s = [] := map_eq_nil_iff

@[simp] theorem eqIgnoreAsciiCase_iff (a b : Text) : eqIgnoreAsciiCase a b = true ↔ toAsciiLowercase a = toAsciiLowercase b := by
  simp [eqIgnoreAsciiCase]

theorem joined_splitOn (s : Text) : joined (s.splitOn '\\') = s := intercalate_splitOn '\\'

namespace Clean

variable {cs as bs : List Text}

theorem nil : Clean [] := ⟨by simp, by simp⟩

theorem append (ha : Clean as) (hb : Clean bs) : Clean (as ++ bs) where
  named c hc := (List.mem_append.mp hc).elim (ha.named c) (hb.named c)
  whole c hc := (List.mem_append.mp hc).elim (ha.whole c) (hb.whole c)

theorem sublist (h : Clean cs) (hSub : as.Sublist cs) : Clean as where
  named c hc := h.named c (hSub.subset hc)
  whole c hc := h.whole c (hSub.subset hc)

theorem singleton {c : Text} (hNamed : c ≠ []) (hWhole : '\\' ∉ c) : Clean [c] :=
  ⟨by simpa using hNamed, by simpa using hWhole⟩

theorem splitOn_joined (h : Clean cs) (hSome : cs ≠ []) : (joined cs).splitOn '\\' = cs :=
  splitOn_intercalate '\\' h.whole hSome

theorem components_joined (h : Clean cs) : components (joined cs) = cs := by
  rcases eq_nil_or_concat cs with rfl | ⟨as, c, hcs⟩
  · rfl
  · have hSome : cs ≠ [] := by simp [hcs]
    unfold components
    rw [h.splitOn_joined hSome]
    exact List.filter_eq_self.mpr fun c hc => by simpa using h.named c hc

theorem joined_eq_nil (h : Clean cs) : joined cs = [] ↔ cs = [] := by
  refine ⟨fun hNil => ?_, fun hNil => by rw [hNil]; rfl⟩
  have hComponents := h.components_joined
  rw [hNil] at hComponents
  exact hComponents.symm

theorem joined_push (h : Clean cs) (c : Text) : joined (cs ++ [c]) = if joined cs = [] then c else under (joined cs) c := by
  rcases Decidable.em (cs = []) with rfl | hSome
  · exact intercalate_singleton
  · rw [if_neg (by rwa [h.joined_eq_nil])]
    unfold joined
    rw [intercalate_append hSome (by simp), intercalate_singleton]
    rfl

end Clean

theorem clean_components (s : Text) : Clean (components s) where
  named c hc := by simpa using (List.mem_filter.mp hc).2
  whole c hc := not_mem_of_mem_splitOn (List.mem_filter.mp hc).1

theorem firstComponent_joined {c : Text} {cs : List Text} (h : Clean (c :: cs)) : firstComponent (joined (c :: cs)) = c := by
  unfold firstComponent
  rw [h.splitOn_joined (by simp)]
  rfl

/-! ## A key below a base -/

def below (base : List Text) : Text := if joined base = [] then [] else under (joined base) []

section Stripping

variable {ks cs : List Text}

theorem toAsciiLowercase_append (a b : Text) : toAsciiLowercase (a ++ b) = toAsciiLowercase a ++ toAsciiLowercase b :=
  map_append

theorem stripPrefixCi_under {k base rest : Text} :
    stripPrefixCi k (under base []) = some rest ↔
      ∃ a, k = a ++ '\\' :: rest ∧ toAsciiLowercase a = toAsciiLowercase base := by
  unfold stripPrefixCi
  rw [if_neg (by simp [under])]
  have hLength : (under base []).length = base.length + 1 := by simp [under]
  rw [hLength]
  constructor
  · intro h
    split at h
    · rename_i hFold
      obtain rfl := Option.some.inj h
      rw [eqIgnoreAsciiCase_iff] at hFold
      unfold under at hFold
      have hLong : (k.take (base.length + 1)).length = base.length + 1 := by
        have hBoth := congrArg List.length hFold
        simpa [toAsciiLowercase] using hBoth
      rcases eq_nil_or_concat (k.take (base.length + 1)) with hNil | ⟨a, c, hTake⟩
      · rw [hNil] at hLong
        cases hLong
      · rw [concat_eq_append] at hTake
        rw [hTake, toAsciiLowercase_append, toAsciiLowercase_append] at hFold
        obtain ⟨ha, hc⟩ := append_inj' hFold rfl
        have hSep : c = '\\' := (fixes_toLower c).mp (by simpa [toAsciiLowercase] using hc)
        refine ⟨a, ?_, ha⟩
        rw [← hSep]
        conv_lhs => rw [← take_append_drop (base.length + 1) k, hTake]
        simp
    · cases h
  · rintro ⟨a, rfl, ha⟩
    have hLength : a.length = base.length := by simpa [toAsciiLowercase] using congrArg List.length ha
    have hTake : (a ++ '\\' :: rest).take (base.length + 1) = a ++ ['\\'] := by
      rw [← hLength, show a ++ '\\' :: rest = (a ++ ['\\']) ++ rest by simp]
      exact take_left' (by simp)
    have hDrop : (a ++ '\\' :: rest).drop (base.length + 1) = rest := by
      rw [← hLength]
      simp
    rw [hTake, hDrop, if_pos]
    rw [eqIgnoreAsciiCase_iff]
    unfold under
    rw [toAsciiLowercase_append, toAsciiLowercase_append, ha]

theorem strip_joined (hk : Clean ks) (hc : Clean cs) (hSome : cs ≠ []) {rest : Text} :
    stripPrefixCi (joined ks) (under (joined cs) []) = some rest ↔
      ∃ p b, ks = p ++ b ∧ fold p = fold cs ∧ b ≠ [] ∧ rest = joined b := by
  rw [stripPrefixCi_under]
  constructor
  · rintro ⟨a, hSplit, ha⟩
    obtain ⟨hComponents, hFold⟩ := splitOn_of_prefix fixes_toLower hSplit ha
    rw [hc.splitOn_joined hSome] at hFold
    have hKey : ks ≠ [] := by
      rintro rfl
      have hBoth := congrArg List.length hSplit
      simp [joined] at hBoth
    rw [hk.splitOn_joined hKey] at hComponents
    exact ⟨a.splitOn '\\', rest.splitOn '\\', hComponents, hFold, splitOn_ne_nil _ _, (joined_splitOn rest).symm⟩
  · rintro ⟨p, b, rfl, hFold, hb, rfl⟩
    have hKey : p ++ b ≠ [] := by simp [hb]
    have hAlike : (p.map fun c => c.map Char.toLower) = ((joined cs).splitOn '\\').map fun c => c.map Char.toLower := by
      rw [hc.splitOn_joined hSome]
      exact hFold
    obtain ⟨a, hSplit, ha, -⟩ := prefix_of_splitOn fixes_toLower (hk.splitOn_joined hKey) hAlike hb
    exact ⟨a, hSplit, ha⟩

theorem first_below (hk : Clean ks) (hc : Clean cs) {f : Text} (hf : f ≠ []) :
    (∃ rest, stripPrefixCi (joined ks) (below cs) = some rest ∧ firstComponent rest = f) ↔
      ∃ p r, ks = p ++ f :: r ∧ fold p = fold cs := by
  unfold below
  rcases Decidable.em (cs = []) with rfl | hSome
  · rw [if_pos (show joined [] = [] from rfl)]
    unfold stripPrefixCi
    rw [if_pos rfl]
    constructor
    · rintro ⟨rest, hRest, hFirst⟩
      obtain rfl := Option.some.inj hRest
      cases ks with
      | nil => exact absurd hFirst.symm hf
      | cons c ks =>
        rw [firstComponent_joined hk] at hFirst
        exact ⟨[], ks, by rw [hFirst]; rfl, rfl⟩
    · rintro ⟨p, r, hks, hFold⟩
      obtain rfl : p = [] := by simpa [fold] using hFold
      refine ⟨_, rfl, ?_⟩
      rw [nil_append] at hks
      subst hks
      exact firstComponent_joined hk
  · rw [if_neg (by rwa [hc.joined_eq_nil])]
    constructor
    · rintro ⟨rest, hRest, hFirst⟩
      obtain ⟨p, b, hks, hFold, hb, rfl⟩ := (strip_joined hk hc hSome).mp hRest
      obtain ⟨c, b, rfl⟩ := exists_cons_of_ne_nil hb
      rw [firstComponent_joined (hk.sublist (hks ▸ sublist_append_right p (c :: b)))] at hFirst
      exact ⟨p, b, by rw [hks, hFirst], hFold⟩
    · rintro ⟨p, r, hks, hFold⟩
      refine ⟨joined (f :: r), (strip_joined hk hc hSome).mpr ⟨p, f :: r, hks, hFold, by simp, rfl⟩, ?_⟩
      exact firstComponent_joined (hk.sublist (hks ▸ sublist_append_right p (f :: r)))

end Stripping

/-! ## The stored spelling -/

/-- `f` is how a stored key spells the component after `cs` that the path calls `name`. -/
def Child (keys : List Text) (cs : List Text) (name f : Text) : Prop :=
  f ≠ [] ∧ toAsciiLowercase f = toAsciiLowercase name ∧
    ∃ k ∈ keys, ∃ p r, components k = p ++ f :: r ∧ fold p = fold cs

/-- Stored paths are made of named components, and no two of them part in case only. -/
structure Spelled (keys : List Text) : Prop where
  clean : ∀ k ∈ keys, joined (components k) = k
  unique : ∀ k ∈ keys, ∀ k' ∈ keys, ∀ p p', p <+: components k → p' <+: components k' → fold p = fold p' → p = p'

section Canonical

variable {keys keys' : List Text} {cs : List Text} {name f : Text}

variable {k : Text}

theorem Spelled.key (h : Spelled keys) (hk : k ∈ keys) : ∃ ks, Clean ks ∧ k = joined ks ∧ components k = ks :=
  ⟨components k, clean_components k, (h.clean k hk).symm, rfl⟩

theorem Child.unique (h : Spelled keys) {f' : Text} (hc : Child keys cs name f) (hc' : Child keys cs name f') : f = f' := by
  obtain ⟨-, hFold, k, hk, p, r, hComps, hp⟩ := hc
  obtain ⟨-, hFold', k', hk', p', r', hComps', hp'⟩ := hc'
  have hSame := h.unique k hk k' hk' (p ++ [f]) (p' ++ [f']) ⟨r, by simp [hComps]⟩ ⟨r', by simp [hComps']⟩
    (by rw [fold_append, fold_append, hp, hp']; simp [fold, hFold, hFold'])
  simpa using (append_inj' hSame rfl).2

theorem Child.congr (hMem : ∀ k, k ∈ keys ↔ k ∈ keys') : Child keys cs name f ↔ Child keys' cs name f := by
  unfold Child
  simp only [hMem]

theorem childSpellingFrom_sound (hKeys : Spelled keys) (hc : Clean cs) {ks : List Text} (hSub : ks ⊆ keys) {ci : Option Text}
    (hFound : Hive.childSpellingFrom (below cs) name ks ci = some f) : ci = some f ∨ Child keys cs name f := by
  induction ks generalizing ci with
  | nil => exact .inl hFound
  | cons k ks ih =>
    have hTail : ks ⊆ keys := fun x hx => hSub (mem_cons_of_mem _ hx)
    have hk := hSub mem_cons_self
    obtain ⟨comps, hClean, hKey, hComps⟩ := hKeys.key hk
    unfold Hive.childSpellingFrom at hFound
    split at hFound
    · exact ih hTail hFound
    · rename_i rest hStrip
      have hBelow : ∀ g, firstComponent rest = g → g ≠ [] → ∃ p r, components k = p ++ g :: r ∧ fold p = fold cs := by
        intro g hFirst hg
        rw [hKey] at hStrip
        rw [hComps]
        exact (first_below hClean hc hg).mp ⟨rest, hStrip, hFirst⟩
      dsimp only at hFound
      split at hFound
      · exact ih hTail hFound
      · rename_i hFirst
        split at hFound
        · rename_i hExact
          obtain rfl := Option.some.inj hFound
          obtain ⟨p, r, hSplit, hFold⟩ := hBelow _ rfl hFirst
          exact .inr ⟨hFirst, by rw [hExact], k, hk, p, r, hSplit, hFold⟩
        · rcases ih hTail hFound with hEarlier | hLater
          · split at hEarlier
            · rename_i hFolds
              obtain rfl := Option.some.inj hEarlier
              obtain ⟨p, r, hSplit, hFold⟩ := hBelow _ rfl hFirst
              simp only [Bool.and_eq_true, eqIgnoreAsciiCase_iff] at hFolds
              exact .inr ⟨hFirst, hFolds.2, k, hk, p, r, hSplit, hFold⟩
            · exact .inl hEarlier
          · exact .inr hLater

theorem childSpellingFrom_complete (hc : Clean cs) {ks : List Text} (hKeys : Spelled ks) {ci : Option Text}
    (hNone : Hive.childSpellingFrom (below cs) name ks ci = none) : ci = none ∧ ∀ f, ¬Child ks cs name f := by
  induction ks generalizing ci with
  | nil => exact ⟨hNone, fun f h => by simp [Child] at h⟩
  | cons k ks ih =>
    have hTail : Spelled ks :=
      ⟨fun x hx => hKeys.clean x (mem_cons_of_mem _ hx),
        fun x hx y hy => hKeys.unique x (mem_cons_of_mem _ hx) y (mem_cons_of_mem _ hy)⟩
    obtain ⟨comps, hClean, hKey, hComps⟩ := hKeys.key mem_cons_self
    have hSplit : ∀ f, Child (k :: ks) cs name f → Child ks cs name f ∨
        (f ≠ [] ∧ toAsciiLowercase f = toAsciiLowercase name ∧
          ∃ rest, stripPrefixCi k (below cs) = some rest ∧ firstComponent rest = f) := by
      rintro f ⟨hf, hFold, x, hx, p, r, hxs, hp⟩
      rcases List.mem_cons.mp hx with rfl | hx
      · refine .inr ⟨hf, hFold, ?_⟩
        rw [hKey]
        exact (first_below hClean hc hf).mpr ⟨p, r, by rw [← hComps, hxs], hp⟩
      · exact .inl ⟨hf, hFold, x, hx, p, r, hxs, hp⟩
    unfold Hive.childSpellingFrom at hNone
    split at hNone
    · rename_i hStrip
      obtain ⟨hCi, hRest⟩ := ih hTail hNone
      refine ⟨hCi, fun f hf => ?_⟩
      rcases hSplit f hf with hf | ⟨-, -, rest, hSome, -⟩
      · exact hRest f hf
      · rw [hStrip] at hSome
        cases hSome
    · rename_i rest hStrip
      dsimp only at hNone
      split at hNone
      · rename_i hFirst
        obtain ⟨hCi, hRest⟩ := ih hTail hNone
        refine ⟨hCi, fun f hf => ?_⟩
        rcases hSplit f hf with hf | ⟨hNamed, -, rest', hSome, hf⟩
        · exact hRest f hf
        · rw [hStrip] at hSome
          obtain rfl := Option.some.inj hSome
          exact hNamed (hf.symm.trans hFirst)
      · split at hNone
        · cases hNone
        · obtain ⟨hCi, hRest⟩ := ih hTail hNone
          split at hCi
          · cases hCi
          · rename_i hFolds
            refine ⟨hCi, fun f hf => ?_⟩
            rcases hSplit f hf with hf | ⟨-, hFold, rest', hSome, hf⟩
            · exact hRest f hf
            · rw [hStrip] at hSome
              obtain rfl := Option.some.inj hSome
              refine hFolds ?_
              rw [hCi, hf]
              simpa using hFold

theorem regChildSpelling_iff {hive : Hive} (hKeys : Spelled hive.keys) (hc : Clean cs) :
    hive.regChildSpelling (joined cs) name = some f ↔ Child hive.keys cs name f := by
  change Hive.childSpellingFrom (below cs) name hive.keys none = some f ↔ _
  constructor
  · intro hFound
    exact (childSpellingFrom_sound hKeys hc (List.Subset.refl _) hFound).resolve_left (by simp)
  · intro hChild
    cases hFound : Hive.childSpellingFrom (below cs) name hive.keys none with
    | none => exact absurd hChild ((childSpellingFrom_complete hc hKeys hFound).2 f)
    | some g =>
      have hg := (childSpellingFrom_sound hKeys hc (List.Subset.refl _) hFound).resolve_left (by simp)
      rw [hg.unique hKeys hChild]

/-- The loop of `reg_canonical` over components. -/
def spell (hive : Hive) : List Text → Bool → List Text → List Text
  | out, _, [] => out
  | out, inHive, c :: cs =>
    let spelling := if inHive then hive.regChildSpelling (joined out) c else none
    spell hive (out ++ [spelling.getD c]) spelling.isSome cs

def spelled (hive : Hive) (path : Text) : List Text := spell hive [] true (components path)

variable {hive : Hive} {out : List Text} {inHive : Bool}

theorem spelling_clean (inHive : Bool) (hKeys : Spelled hive.keys) (hOut : Clean out) {c : Text} (hNamed : c ≠ []) (hWhole : '\\' ∉ c) :
    Clean [((if inHive then hive.regChildSpelling (joined out) c else none).getD c)] := by
  cases hFound : (if inHive then hive.regChildSpelling (joined out) c else none) with
  | none => exact .singleton hNamed hWhole
  | some f =>
    split at hFound
    · obtain ⟨hf, -, k, hk, p, r, hComps, -⟩ := (regChildSpelling_iff hKeys hOut).mp hFound
      have hMem : f ∈ components k := by simp [hComps]
      exact .singleton hf ((clean_components k).whole f hMem)
    · cases hFound

theorem spell_clean (hKeys : Spelled hive.keys) (hOut : Clean out) (hc : Clean cs) : Clean (spell hive out inHive cs) := by
  induction cs generalizing out inHive with
  | nil => exact hOut
  | cons c cs ih =>
    have hHere := spelling_clean inHive hKeys hOut (hc.named c mem_cons_self) (hc.whole c mem_cons_self)
    exact ih (hOut.append hHere) (hc.sublist (sublist_cons_self c cs))

theorem foldl_canonicalStep (hKeys : Spelled hive.keys) (hOut : Clean out) {segments : List Text}
    (hWhole : ∀ c ∈ segments, '\\' ∉ c) :
    (segments.foldl hive.canonicalStep (joined out, inHive)).1 =
      joined (spell hive out inHive (segments.filter fun c => decide (c ≠ []))) := by
  induction segments generalizing out inHive with
  | nil => rfl
  | cons c segments ih =>
    have hTail : ∀ d ∈ segments, '\\' ∉ d := fun d hd => hWhole d (mem_cons_of_mem _ hd)
    rw [foldl_cons]
    unfold Hive.canonicalStep
    rcases Decidable.em (c = []) with rfl | hNamed
    · rw [if_pos rfl]
      exact ih hOut hTail
    · rw [if_neg hNamed, filter_cons_of_pos (by simpa using hNamed)]
      dsimp only
      rw [← hOut.joined_push]
      have hHere := spelling_clean inHive hKeys hOut hNamed (hWhole c mem_cons_self)
      exact ih (hOut.append hHere) hTail

theorem regCanonical_eq (hKeys : Spelled hive.keys) (path : Text) : hive.regCanonical path = joined (spelled hive path) :=
  foldl_canonicalStep hKeys .nil fun _ hc => not_mem_of_mem_splitOn hc

theorem spelled_clean (hKeys : Spelled hive.keys) (path : Text) : Clean (spelled hive path) :=
  spell_clean hKeys .nil (clean_components path)

theorem fold_spell (hKeys : Spelled hive.keys) (hOut : Clean out) (hc : Clean cs) :
    fold (spell hive out inHive cs) = fold out ++ fold cs := by
  induction cs generalizing out inHive with
  | nil => simp [spell, fold]
  | cons c cs ih =>
    have hHere := spelling_clean inHive hKeys hOut (hc.named c mem_cons_self) (hc.whole c mem_cons_self)
    have hFold : toAsciiLowercase ((if inHive then hive.regChildSpelling (joined out) c else none).getD c) =
        toAsciiLowercase c := by
      cases hFound : (if inHive then hive.regChildSpelling (joined out) c else none) with
      | none => rfl
      | some f =>
        split at hFound
        · exact ((regChildSpelling_iff hKeys hOut).mp hFound).2.1
        · cases hFound
    unfold spell
    dsimp only
    rw [ih (hOut.append hHere) (hc.sublist (sublist_cons_self c cs)), fold_append, append_assoc]
    congr 1
    simp [fold, hFold]

theorem fold_spelled (hKeys : Spelled hive.keys) (path : Text) : fold (spelled hive path) = fold (components path) := by
  unfold spelled
  rw [fold_spell hKeys .nil (clean_components path)]
  rfl

/-- So far the path is spelled as stored, and no stored path goes on if it has left the hive. -/
structure Follows (keys : List Text) (out : List Text) (inHive : Bool) : Prop where
  fixed : ∀ k ∈ keys, ∀ q, q <+: components k → fold q = fold (out.take q.length) → q = out.take q.length
  left : inHive = false → ∀ k ∈ keys, ∀ q, q <+: components k → fold q ≠ fold out

section

variable (hKeys : Spelled hive.keys)
include hKeys

theorem follows_push (hOut : Clean out) (h : Follows hive.keys out inHive) (c : Text) :
    Follows hive.keys (out ++ [((if inHive then hive.regChildSpelling (joined out) c else none).getD c)])
      (if inHive then hive.regChildSpelling (joined out) c else none).isSome := by
  generalize hFound : (if inHive then hive.regChildSpelling (joined out) c else none) = spelling
  -- a stored path that goes on as the new one does is the one its spelling came from
  have hLast : ∀ k ∈ hive.keys, ∀ q, q <+: components k → fold q = fold (out ++ [spelling.getD c]) →
      spelling.isSome = true ∧ q = out ++ [spelling.getD c] := by
    intro k hk q hq hFold
    obtain ⟨r, hr⟩ := hq
    rcases eq_nil_or_concat q with rfl | ⟨p, l, rfl⟩
    · have hLength := length_of_fold hFold
      simp at hLength
    · rw [concat_eq_append] at hr hFold ⊢
      rw [fold_append, fold_append] at hFold
      obtain ⟨hp, hl⟩ := append_inj' hFold rfl
      have hLetter : toAsciiLowercase l = toAsciiLowercase (spelling.getD c) := by simpa [fold] using hl
      have hp' : p <+: components k := ⟨l :: r, by rw [← hr]; simp⟩
      have hLength := length_of_fold hp
      have hPrefix : p = out := by
        have hFixed := h.fixed k hk p hp' (by rw [hLength, take_length]; exact hp)
        rwa [hLength, take_length] at hFixed
      have hMem : l ∈ components k := by rw [← hr]; simp
      have hlNamed := (clean_components k).named l hMem
      cases inHive with
      | false => exact absurd hp (h.left rfl k hk p hp')
      | true =>
        rw [if_pos rfl] at hFound
        have hName : toAsciiLowercase (spelling.getD c) = toAsciiLowercase c := by
          cases spelling with
          | none => rfl
          | some f => exact ((regChildSpelling_iff hKeys hOut).mp hFound).2.1
        have hChild : Child hive.keys out c l :=
          ⟨hlNamed, hLetter.trans hName, k, hk, p, r, by rw [← hr]; simp, hp⟩
        have hSpelling := (regChildSpelling_iff hKeys hOut).mpr hChild
        rw [hFound] at hSpelling
        rw [hSpelling, hPrefix]
        exact ⟨rfl, rfl⟩
  refine ⟨fun k hk q hq hFold => ?_, fun hNone k hk q hq hFold => ?_⟩
  · have hLength := length_of_fold hFold
    rw [length_take, length_append, length_singleton] at hLength
    rcases Nat.lt_or_ge out.length q.length with hLong | hShort
    · have hWhole : (out ++ [spelling.getD c]).take q.length = out ++ [spelling.getD c] :=
        take_of_length_le (by simp; omega)
      rw [hWhole] at hFold ⊢
      exact (hLast k hk q hq hFold).2
    · rw [take_append_of_le_length hShort] at hFold ⊢
      exact h.fixed k hk q hq hFold
  · rw [(hLast k hk q hq hFold).1] at hNone
    cases hNone

theorem spell_follows (hOut : Clean out) (hc : Clean cs) (h : Follows hive.keys out inHive) :
    ∃ b, Follows hive.keys (spell hive out inHive cs) b := by
  induction cs generalizing out inHive with
  | nil => exact ⟨inHive, h⟩
  | cons c cs ih =>
    have hNamed := hc.named c mem_cons_self
    have hHere := spelling_clean inHive hKeys hOut hNamed (hc.whole c mem_cons_self)
    exact ih (hOut.append hHere) (hc.sublist (sublist_cons_self c cs)) (follows_push hKeys hOut h c)

theorem spelled_fixed (path : Text) (hk : k ∈ hive.keys) {q : List Text} (hq : q <+: components k)
    (hFold : fold q = fold ((spelled hive path).take q.length)) : q = (spelled hive path).take q.length := by
  have hStart : Follows hive.keys [] true := by
    refine ⟨fun k _ q _ hFold => ?_, fun hNone => by cases hNone⟩
    have hLength := length_of_fold hFold
    rw [take_nil] at hLength ⊢
    exact eq_nil_of_length_eq_zero hLength
  obtain ⟨b, hFollows⟩ := spell_follows hKeys .nil (clean_components path) hStart
  exact hFollows.fixed k hk q hq hFold

theorem spelled_of_fold {path : Text} (hk : k ∈ hive.keys) {q : List Text} (hq : q <+: components k)
    (hFold : fold (components path) = fold q) : spelled hive path = q := by
  have hSame : fold (spelled hive path) = fold q := (fold_spelled hKeys path).trans hFold
  have hLength := length_of_fold hSame
  have hWhole : (spelled hive path).take q.length = spelled hive path := take_of_length_le hLength.le
  have hFixed := spelled_fixed hKeys path hk hq (by rw [hWhole]; exact hSame.symm)
  rw [hWhole] at hFixed
  exact hFixed.symm

theorem regCanonical_of_fold {path : Text} (hk : k ∈ hive.keys) (hFold : fold (components path) = fold (components k)) :
    hive.regCanonical path = k := by
  rw [regCanonical_eq hKeys, spelled_of_fold hKeys hk (prefix_refl _) hFold, hKeys.clean k hk]

theorem components_regCanonical (path : Text) : components (hive.regCanonical path) = spelled hive path := by
  rw [regCanonical_eq hKeys]
  exact (spelled_clean hKeys path).components_joined

theorem Spelled.insert (path : Text) : Spelled (hive.regCanonical path :: hive.keys) := by
  have hNew := components_regCanonical hKeys path
  -- one prefix of the new path and one of a stored path
  have hCross : ∀ k ∈ hive.keys, ∀ p p', p <+: components k → p' <+: spelled hive path → fold p = fold p' → p = p' := by
    intro k hk p p' hp hp' hFold
    have hLength := length_of_fold hFold
    have hTake : (spelled hive path).take p.length = p' := by
      rw [hLength]
      exact (List.prefix_iff_eq_take.mp hp').symm
    rw [← hTake]
    exact spelled_fixed hKeys path hk hp (by rw [hTake]; exact hFold)
  refine ⟨fun k hk => ?_, fun k hk k' hk' p p' hp hp' hFold => ?_⟩
  · rcases List.mem_cons.mp hk with rfl | hk
    · rw [hNew, regCanonical_eq hKeys]
    · exact hKeys.clean k hk
  · rcases List.mem_cons.mp hk with rfl | hk
    · rw [hNew] at hp
      rcases List.mem_cons.mp hk' with rfl | hk'
      · rw [hNew] at hp'
        have hLength := length_of_fold hFold
        rw [List.prefix_iff_eq_take.mp hp, List.prefix_iff_eq_take.mp hp', hLength]
      · exact (hCross k' hk' p' p hp' hp hFold.symm).symm
    · rcases List.mem_cons.mp hk' with rfl | hk'
      · rw [hNew] at hp'
        exact hCross k hk p p' hp hp' hFold
      · exact hKeys.unique k hk k' hk' p p' hp hp' hFold

end

theorem Spelled.subset (hKeys : Spelled keys) (hSub : ∀ k ∈ keys', k ∈ keys) : Spelled keys' where
  clean k hk := hKeys.clean k (hSub k hk)
  unique k hk k' hk' := hKeys.unique k (hSub k hk) k' (hSub k' hk')

theorem spell_congr {hive' : Hive} (hKeys : Spelled hive.keys) (hMem : ∀ k, k ∈ hive.keys ↔ k ∈ hive'.keys) (hOut : Clean out)
    (hc : Clean cs) : spell hive out inHive cs = spell hive' out inHive cs := by
  have hKeys' : Spelled hive'.keys := hKeys.subset fun k hk => (hMem k).mpr hk
  induction cs generalizing out inHive with
  | nil => rfl
  | cons c cs ih =>
    have hHere := spelling_clean inHive hKeys hOut (hc.named c mem_cons_self) (hc.whole c mem_cons_self)
    have hSame : hive.regChildSpelling (joined out) c = hive'.regChildSpelling (joined out) c := by
      apply Option.ext
      intro f
      rw [regChildSpelling_iff hKeys hOut, regChildSpelling_iff hKeys' hOut, Child.congr hMem]
    unfold spell
    dsimp only
    rw [ih (hOut.append hHere) (hc.sublist (sublist_cons_self c cs)), hSame]

theorem regCanonical_congr {hive' : Hive} (hKeys : Spelled hive.keys) (hMem : ∀ k, k ∈ hive.keys ↔ k ∈ hive'.keys)
    (path : Text) : hive.regCanonical path = hive'.regCanonical path := by
  rw [regCanonical_eq hKeys, regCanonical_eq (hKeys.subset fun k hk => (hMem k).mpr hk)]
  unfold spelled
  rw [spell_congr hKeys hMem .nil (clean_components path)]

end Canonical

end Exemu.Os
