import Exemu.Os.Listing
import Mathlib.Data.List.Perm.Basic

/-! # Every path and every name is found under any spelling

The invariant of the registry, kept by every entry point, and what follows from it: two listings
of the same hive give the same answers.
-/
namespace Exemu.Os

open Path (Text)

/-! ## The invariant -/

def OneName (m : RegKey) : Prop := ∀ n ∈ m, ∀ n' ∈ m, toAsciiLowercase n = toAsciiLowercase n' → n = n'

structure Tidy (hive : Hive) : Prop where
  spelled : Spelled hive.keys
  names : ∀ k m, hive.lookup k = some m → OneName m

section Kept

variable {hive : Hive} {m : RegKey} {name : Text} {val : RegValue}

theorem oneName_empty : OneName ∅ := fun n hn => absurd hn (AList.notMem_empty n)

theorem mem_keys_insert {V : Type} {h : HashMap V} {k k' : Text} {v : V} : k' ∈ (h.insert k v).keys ↔ k' = k ∨ k' ∈ h.keys :=
  AList.mem_insert h

theorem OneName.erase (h : OneName m) (k : Text) : OneName (m.erase k) :=
  fun n hn n' hn' => h n (AList.mem_erase.mp hn).2 n' (AList.mem_erase.mp hn').2

def storedName (m : RegKey) (name : Text) : Text :=
  (if name ∈ m then none else m.keys.find? fun k => eqIgnoreAsciiCase k name).getD name

theorem storedName_spec (m : RegKey) (name : Text) :
    toAsciiLowercase (storedName m name) = toAsciiLowercase name ∧
      (storedName m name ∉ m → ∀ n ∈ m, toAsciiLowercase n ≠ toAsciiLowercase name) := by
  unfold storedName
  split
  · rename_i hMem
    exact ⟨rfl, fun h => absurd hMem h⟩
  · cases hFind : m.keys.find? fun k => eqIgnoreAsciiCase k name with
    | none =>
      refine ⟨rfl, fun _ n hn => ?_⟩
      simpa using List.find?_eq_none.mp hFind n hn
    | some k =>
      have hFold := List.find?_some hFind
      exact ⟨by simpa using hFold, fun h => absurd (List.mem_of_find?_eq_some hFind) h⟩

theorem OneName.insert (h : OneName m) (name : Text) (val : RegValue) : OneName (m.insert (storedName m name) val) := by
  obtain ⟨hFold, hNew⟩ := storedName_spec m name
  have hCross : ∀ n ∈ m, toAsciiLowercase n = toAsciiLowercase (storedName m name) → n = storedName m name := by
    intro n hn hSame
    rcases Decidable.em (storedName m name ∈ m) with hIn | hOut
    · exact h n hn _ hIn hSame
    · exact absurd (hSame.trans hFold) (hNew hOut n hn)
  intro n hn n' hn' hSame
  rcases (AList.mem_insert m).mp hn with rfl | hn
  · rcases (AList.mem_insert m).mp hn' with rfl | hn'
    · rfl
    · exact (hCross n' hn' hSame.symm).symm
  · rcases (AList.mem_insert m).mp hn' with rfl | hn'
    · exact hCross n hn hSame
    · exact h n hn n' hn' hSame

theorem Tidy.insert (h : Tidy hive) (p : Text) (hm : OneName m) : Tidy (hive.insert (hive.regCanonical p) m) where
  spelled := (h.spelled.insert p).subset fun k hk => by
    rcases mem_keys_insert.mp hk with rfl | hk
    · exact List.mem_cons_self
    · exact List.mem_cons_of_mem _ hk
  names k m' hGet := by
    rcases Decidable.em (k = hive.regCanonical p) with rfl | hOther
    · rw [AList.lookup_insert] at hGet
      exact Option.some.inj hGet ▸ hm
    · rw [AList.lookup_insert_ne hOther] at hGet
      exact h.names k m' hGet

theorem Tidy.orDefault (h : Tidy hive) (p : Text) : Tidy (HashMap.orDefault hive (hive.regCanonical p) ∅) := by
  unfold HashMap.orDefault
  split
  · exact h
  · exact h.insert p oneName_empty

theorem lookup_retain {V : Type} (h : HashMap V) (p : Text → Bool) (k : Text) :
    (h.retain p).lookup k = if p k then h.lookup k else none := by
  apply Option.ext
  intro v
  rw [← Option.mem_def, AList.mem_lookup_iff]
  unfold HashMap.retain
  rw [List.mem_filter]
  split
  · rename_i hp
    rw [← AList.mem_lookup_iff, Option.mem_def]
    exact ⟨And.left, fun h => ⟨h, hp⟩⟩
  · rename_i hp
    exact ⟨fun h => absurd h.2 hp, fun h => by cases h⟩

theorem Tidy.sub {hive' : Hive} (h : Tidy hive) (hSub : ∀ k m, hive'.lookup k = some m → hive.lookup k = some m) :
    Tidy hive' where
  spelled := h.spelled.subset fun k hk => by
    obtain ⟨m, hGet⟩ := Option.isSome_iff_exists.mp (AList.lookup_isSome.mpr (AList.mem_keys.mpr hk))
    exact AList.mem_keys.mp (AList.lookup_isSome.mp (by rw [hSub k m hGet]; rfl))
  names k m hGet := h.names k m (hSub k m hGet)

theorem Tidy.retain (h : Tidy hive) (p : Text → Bool) : Tidy (HashMap.retain hive p) := by
  refine h.sub fun k m hGet => ?_
  rw [lookup_retain] at hGet
  split at hGet
  · exact hGet
  · cases hGet

theorem Tidy.erase (h : Tidy hive) (path : Text) : Tidy (hive.erase path) := by
  refine h.sub fun k m hGet => ?_
  rcases Decidable.em (k = path) with rfl | hOther
  · rw [AList.lookup_erase] at hGet
    cases hGet
  · rwa [AList.lookup_erase_ne hOther] at hGet

theorem regValueSet_eq (hive : Hive) (path name : Text) (val : RegValue) :
    hive.regValueSet path name val =
      hive.insert path (((hive.lookup path).getD ∅).insert (storedName ((hive.lookup path).getD ∅) name) val) := rfl

theorem Tidy.oneName (h : Tidy hive) (path : Text) : OneName ((hive.lookup path).getD ∅) := by
  cases hGet : hive.lookup path with
  | none => exact oneName_empty
  | some m => exact h.names path m hGet

theorem Tidy.regValueSet (h : Tidy hive) (p name : Text) (val : RegValue) :
    Tidy (hive.regValueSet (hive.regCanonical p) name val) :=
  h.insert p ((h.oneName _).insert name val)

theorem Tidy.regValueRemove (h : Tidy hive) (p name : Text) : Tidy (hive.regValueRemove (hive.regCanonical p) name).1 := by
  unfold Hive.regValueRemove
  split
  · exact h
  · rename_i m hGet
    have hm := h.names _ m hGet
    split
    · exact h.insert p (hm.erase name)
    · split
      · exact h
      · rename_i stored _
        exact h.insert p (hm.erase stored)

end Kept

/-! ## Two listings of one hive -/

def Relisted (hive hive' : Hive) : Prop :=
  ∀ k, Option.Rel (fun m m' : RegKey => m.entries.Perm m'.entries) (hive.lookup k) (hive'.lookup k)

section Listings

variable {hive hive' : Hive} {m m' : RegKey} {path name : Text}

theorem Relisted.refl (hive : Hive) : Relisted hive hive := by
  intro k
  cases hive.lookup k with
  | none => exact .none
  | some m => exact .some (List.Perm.refl _)

theorem Relisted.mem (h : Relisted hive hive') (k : Text) : k ∈ hive.keys ↔ k ∈ hive'.keys := by
  have hBoth : (hive.lookup k).isSome = (hive'.lookup k).isSome := by
    have hk := h k
    revert hk
    cases hive.lookup k <;> cases hive'.lookup k <;> intro hk <;> first | rfl | cases hk
  exact AList.lookup_isSome.symm.trans ((Bool.eq_iff_iff.mp hBoth).trans AList.lookup_isSome)

theorem Relisted.tidy (h : Relisted hive hive') (hTidy : Tidy hive) : Tidy hive' where
  spelled := hTidy.spelled.subset fun k hk => (h.mem k).mpr hk
  names k m' hGet := by
    have hk := h k
    rw [hGet] at hk
    cases hOld : hive.lookup k with
    | none =>
      rw [hOld] at hk
      cases hk
    | some m =>
      rw [hOld] at hk
      cases hk with
      | some hPerm =>
        intro n hn n' hn'
        exact hTidy.names k m hOld n ((AList.mem_of_perm hPerm).mpr hn) n' ((AList.mem_of_perm hPerm).mpr hn')

theorem Relisted.insert (h : Relisted hive hive') (path : Text) (hPerm : m.entries.Perm m'.entries) :
    Relisted (hive.insert path m) (hive'.insert path m') := by
  intro k
  rcases Decidable.em (k = path) with rfl | hOther
  · rw [AList.lookup_insert, AList.lookup_insert]
    exact .some hPerm
  · rw [AList.lookup_insert_ne hOther, AList.lookup_insert_ne hOther]
    exact h k

theorem Relisted.erase (h : Relisted hive hive') (path : Text) : Relisted (hive.erase path) (hive'.erase path) := by
  intro k
  rcases Decidable.em (k = path) with rfl | hOther
  · rw [AList.lookup_erase, AList.lookup_erase]
    exact .none
  · rw [AList.lookup_erase_ne hOther, AList.lookup_erase_ne hOther]
    exact h k

theorem Relisted.retain (h : Relisted hive hive') (p : Text → Bool) :
    Relisted (HashMap.retain hive p) (HashMap.retain hive' p) := by
  intro k
  rw [lookup_retain, lookup_retain]
  split
  · exact h k
  · exact .none

theorem Relisted.orDefault (h : Relisted hive hive') (path : Text) :
    Relisted (HashMap.orDefault hive path ∅) (HashMap.orDefault hive' path ∅) := by
  unfold HashMap.orDefault
  have hMem : path ∈ hive ↔ path ∈ hive' := h.mem path
  rcases Decidable.em (path ∈ hive) with hIn | hOut
  · rw [if_pos hIn, if_pos (hMem.mp hIn)]
    exact h
  · rw [if_neg hOut, if_neg fun hIn => hOut (hMem.mpr hIn)]
    exact h.insert path (List.Perm.refl _)

theorem find?_perm {α : Type} {p : α → Bool} {xs ys : List α} (hPerm : xs.Perm ys)
    (hOne : ∀ a ∈ xs, ∀ b ∈ xs, p a = true → p b = true → a = b) : xs.find? p = ys.find? p := by
  cases hx : xs.find? p with
  | none =>
    refine (List.find?_eq_none.mpr fun y hy => ?_).symm
    exact List.find?_eq_none.mp hx y (hPerm.mem_iff.mpr hy)
  | some a =>
    cases hy : ys.find? p with
    | none => exact absurd (List.find?_some hx) (List.find?_eq_none.mp hy a (hPerm.mem_iff.mp (List.mem_of_find?_eq_some hx)))
    | some b =>
      have hb := hPerm.mem_iff.mpr (List.mem_of_find?_eq_some hy)
      rw [hOne a (List.mem_of_find?_eq_some hx) b hb (List.find?_some hx) (List.find?_some hy)]

theorem perm_keys (hPerm : m.entries.Perm m'.entries) : m.keys.Perm m'.keys := hPerm.map Sigma.fst

theorem perm_pairs (hPerm : m.entries.Perm m'.entries) : m.pairs.Perm m'.pairs := hPerm.map _

theorem nodup_pairs (m : RegKey) : (m.pairs.map Prod.fst).Nodup := by
  rw [keys_pairs]
  exact m.keys_nodup

theorem mem_of_pairs {e : Text × RegValue} (he : e ∈ m.pairs) : e.1 ∈ m := by
  have hKey : e.1 ∈ m.pairs.map Prod.fst := List.mem_map_of_mem he
  rw [keys_pairs] at hKey
  exact hKey

theorem pairs_eq_of_name {e e' : Text × RegValue} (he : e ∈ m.pairs) (he' : e' ∈ m.pairs) (hName : e.1 = e'.1) : e = e' :=
  List.inj_on_of_nodup_map (nodup_pairs m) he he' hName

theorem findName_perm (hOne : OneName m) (hPerm : m.entries.Perm m'.entries) (name : Text) :
    (m.keys.find? fun k => eqIgnoreAsciiCase k name) = m'.keys.find? fun k => eqIgnoreAsciiCase k name :=
  find?_perm (perm_keys hPerm) fun a ha b hb hpa hpb => hOne a ha b hb (by simp_all)

theorem findPair_perm (hOne : OneName m) (hPerm : m.entries.Perm m'.entries) (name : Text) :
    (m.pairs.find? fun e => eqIgnoreAsciiCase e.1 name) = m'.pairs.find? fun e => eqIgnoreAsciiCase e.1 name :=
  find?_perm (perm_pairs hPerm) fun a ha b hb hpa hpb =>
    pairs_eq_of_name ha hb (hOne a.1 (mem_of_pairs ha) b.1 (mem_of_pairs hb) (by simp_all))

theorem regValue_congr (hTidy : Tidy hive) (h : Relisted hive hive') (path name : Text) :
    hive.regValue path name = hive'.regValue path name := by
  unfold Hive.regValue
  have hk := h path
  cases hGet : hive.lookup path with
  | none =>
    rw [hGet] at hk
    cases hGet' : hive'.lookup path with
    | none => rfl
    | some m' =>
      rw [hGet'] at hk
      cases hk
  | some m =>
    rw [hGet] at hk
    cases hGet' : hive'.lookup path with
    | none =>
      rw [hGet'] at hk
      cases hk
    | some m' =>
      rw [hGet'] at hk
      cases hk with
      | some hPerm =>
        simp only [Option.bind_eq_bind, Option.bind_some]
        rw [AList.perm_lookup hPerm, findPair_perm (hTidy.names path m hGet) hPerm]

theorem Relisted.key (h : Relisted hive hive') (path : Text) :
    (hive.lookup path = none ∧ hive'.lookup path = none) ∨
      ∃ m m', hive.lookup path = some m ∧ hive'.lookup path = some m' ∧ m.entries.Perm m'.entries := by
  have hk := h path
  cases hGet : hive.lookup path with
  | none =>
    rw [hGet] at hk
    cases hGet' : hive'.lookup path with
    | none => exact .inl ⟨rfl, rfl⟩
    | some m' =>
      rw [hGet'] at hk
      cases hk
  | some m =>
    rw [hGet] at hk
    cases hGet' : hive'.lookup path with
    | none =>
      rw [hGet'] at hk
      cases hk
    | some m' =>
      rw [hGet'] at hk
      cases hk with
      | some hPerm => exact .inr ⟨m, m', rfl, rfl, hPerm⟩

theorem storedName_congr (hOne : OneName m) (hPerm : m.entries.Perm m'.entries) (name : Text) :
    storedName m name = storedName m' name := by
  unfold storedName
  have hMem : name ∈ m ↔ name ∈ m' := AList.mem_of_perm hPerm
  rw [findName_perm hOne hPerm]
  rcases Decidable.em (name ∈ m) with hIn | hOut
  · rw [if_pos hIn, if_pos (hMem.mp hIn)]
  · rw [if_neg hOut, if_neg fun hIn => hOut (hMem.mpr hIn)]

theorem Relisted.regValueSet (h : Relisted hive hive') (hTidy : Tidy hive) (path name : Text) (val : RegValue) :
    Relisted (hive.regValueSet path name val) (hive'.regValueSet path name val) := by
  have hBoth : ((hive.lookup path).getD ∅).entries.Perm ((hive'.lookup path).getD ∅).entries := by
    rcases h.key path with ⟨hNone, hNone'⟩ | ⟨m, m', hGet, hGet', hPerm⟩
    · rw [hNone, hNone']
    · rw [hGet, hGet']
      exact hPerm
  rw [regValueSet_eq, regValueSet_eq, storedName_congr (hTidy.oneName path) hBoth]
  exact h.insert path (AList.perm_insert hBoth)

theorem Relisted.regValueRemove (h : Relisted hive hive') (hTidy : Tidy hive) (path name : Text) :
    (hive.regValueRemove path name).2 = (hive'.regValueRemove path name).2 ∧
      Relisted (hive.regValueRemove path name).1 (hive'.regValueRemove path name).1 := by
  unfold Hive.regValueRemove
  rcases h.key path with ⟨hNone, hNone'⟩ | ⟨m, m', hGet, hGet', hPerm⟩
  · rw [hNone, hNone']
    exact ⟨rfl, h⟩
  · rw [hGet, hGet']
    dsimp only
    have hMem : name ∈ m ↔ name ∈ m' := AList.mem_of_perm hPerm
    rw [findName_perm (hTidy.names path m hGet) hPerm]
    rcases Decidable.em (name ∈ m) with hIn | hOut
    · rw [if_pos hIn, if_pos (hMem.mp hIn)]
      exact ⟨rfl, h.insert path (AList.perm_erase hPerm)⟩
    · rw [if_neg hOut, if_neg fun hIn => hOut (hMem.mpr hIn)]
      split
      · exact ⟨rfl, h⟩
      · exact ⟨rfl, h.insert path (AList.perm_erase hPerm)⟩

theorem items_congr (h : Relisted hive hive') (path : Text) : hive.items path = hive'.items path := by
  rcases h.key path with ⟨hNone, hNone'⟩ | ⟨m, m', hGet, hGet', hPerm⟩
  · unfold Hive.items
    rw [hNone, hNone']
  · have hItems := items_perm hGet
    have hItems' := items_perm hGet'
    refine List.Perm.eq_of_pairwise (fun a b ha hb hab hba => ?_) (items_sorted hive path) (items_sorted hive' path)
      (hItems.trans ((perm_pairs hPerm).trans hItems'.symm))
    exact pairs_eq_of_name (hItems.mem_iff.mp ha) ((perm_pairs hPerm).mem_iff.mpr (hItems'.mem_iff.mp hb)) (le_antisymm hab hba)

theorem regKeyExists_congr (h : Relisted hive hive') (path : Text) : hive.regKeyExists path = hive'.regKeyExists path := by
  unfold Hive.regKeyExists
  have hMem : path ∈ hive ↔ path ∈ hive' := h.mem path
  have hAny : ∀ p : Text → Bool, hive.keys.any p = hive'.keys.any p := by
    intro p
    rw [Bool.eq_iff_iff, List.any_eq_true, List.any_eq_true]
    simp only [h.mem]
  rw [hAny, decide_eq_decide.mpr hMem]

theorem listMax_perm {xs ys : List Nat} (h : xs.Perm ys) : listMax xs = listMax ys := h.foldl_eq 0

theorem queryInfo_congr (h : Relisted hive hive') {base : Text} (hSubs : hive.subkeys base = hive'.subkeys base) :
    hive.queryInfo base = hive'.queryInfo base := by
  unfold Hive.queryInfo
  rw [hSubs]
  rcases h.key base with ⟨hNone, hNone'⟩ | ⟨m, m', hGet, hGet', hPerm⟩
  · rw [hNone, hNone']
  · rw [hGet, hGet']
    simp only [Option.map_some, Option.getD_some, hPerm.length_eq, listMax_perm ((perm_keys hPerm).map _),
      listMax_perm ((perm_pairs hPerm).map _)]

theorem ntQueryInfo_congr (h : Relisted hive hive') {base : Text} (hSubs : hive.subkeys base = hive'.subkeys base) :
    hive.ntQueryInfo base = hive'.ntQueryInfo base := by
  unfold Hive.ntQueryInfo
  rw [hSubs]
  rcases h.key base with ⟨hNone, hNone'⟩ | ⟨m, m', hGet, hGet', hPerm⟩
  · rw [hNone, hNone']
  · rw [hGet, hGet']
    simp only [Option.map_some, Option.getD_some, hPerm.length_eq, listMax_perm ((perm_keys hPerm).map _),
      listMax_perm ((perm_pairs hPerm).map _)]

end Listings

/-! ## Entry points -/

namespace Registry

structure Relists (s s' : Registry) : Prop where
  hive : Relisted s.regHive s'.regHive
  handles : s.regHandles = s'.regHandles
  next : s.nextHandle = s'.nextHandle
  error : s.lastError = s'.lastError

theorem Relists.refl (s : Registry) : Relists s s := ⟨.refl _, rfl, rfl, rfl⟩

structure Agree (r r' : Registry × RegAnswer) : Prop where
  answer : r.2 = r'.2
  relists : Relists r.1 r'.1

variable {s s' : Registry}

theorem Relists.resolve (h : Relists s s') (hkey : U64) : s.regResolve hkey = s'.regResolve hkey := by
  unfold regResolve
  rw [h.handles]

theorem Relists.canonical (h : Relists s s') (hTidy : Tidy s.regHive) (path : Text) :
    s.regHive.regCanonical path = s'.regHive.regCanonical path := regCanonical_congr hTidy.spelled h.hive.mem path

theorem Relists.pathOf (h : Relists s s') (hTidy : Tidy s.regHive) (hkey : U64) : s.regPathOf hkey = s'.regPathOf hkey := by
  unfold regPathOf
  rw [h.resolve]
  exact congrArg (fun f => (s'.regResolve hkey).map f) (funext (h.canonical hTidy))

theorem Relists.join (h : Relists s s') (hTidy : Tidy s.regHive) (hkey : U64) (subkey : Text) :
    s.regJoin hkey subkey = s'.regJoin hkey subkey := by
  unfold regJoin
  rw [h.resolve]
  exact congrArg (fun f => (s'.regResolve hkey).map f) (funext fun base => h.canonical hTidy _)

theorem Relists.ntResolve (h : Relists s s') (hTidy : Tidy s.regHive) (objattr : Option (U64 × Text)) :
    s.ntRegResolve objattr = s'.ntRegResolve objattr := by
  have hJoined : s.ntJoined = s'.ntJoined := by
    funext rootDir name
    unfold ntJoined
    rw [h.resolve]
  unfold ntRegResolve
  rw [hJoined]
  exact congrArg (fun f => (objattr.bind fun a => s'.ntJoined a.1 a.2).map f) (funext (h.canonical hTidy))

def Reached (hive : Hive) (path : Option Text) : Prop := ∀ p, path = some p → ∃ q, p = hive.regCanonical q

theorem reached_map (hive : Hive) {α : Type} (o : Option α) (f : α → Text) :
    Reached hive (o.map fun a => hive.regCanonical (f a)) := by
  intro p hp
  cases o with
  | none => cases hp
  | some a =>
    cases hp
    exact ⟨f a, rfl⟩

theorem reached_pathOf (s : Registry) (hkey : U64) : Reached s.regHive (s.regPathOf hkey) := reached_map _ _ id

theorem reached_join (s : Registry) (hkey : U64) (subkey : Text) : Reached s.regHive (s.regJoin hkey subkey) :=
  reached_map s.regHive _ _

theorem reached_ntResolve (s : Registry) (objattr : Option (U64 × Text)) : Reached s.regHive (s.ntRegResolve objattr) :=
  reached_map _ _ id

variable {f : Text → Registry × RegAnswer}

theorem onKey_tidy (hTidy : Tidy s.regHive) {path : Option Text} (hPath : Reached s.regHive path)
    (hf : ∀ q, Tidy (f (s.regHive.regCanonical q)).1.regHive) : Tidy (s.onKey path f).1.regHive := by
  unfold onKey
  split
  · exact hTidy
  · obtain ⟨q, rfl⟩ := hPath _ rfl
    exact hf q

theorem onNtKey_tidy (hTidy : Tidy s.regHive) {path : Option Text} (hPath : Reached s.regHive path) {bad : U32}
    (hf : ∀ q, Tidy (f (s.regHive.regCanonical q)).1.regHive) : Tidy (s.onNtKey path bad f).1.regHive := by
  unfold onNtKey
  split
  · exact hTidy
  · obtain ⟨q, rfl⟩ := hPath _ rfl
    exact hf q

theorem call_tidy (hTidy : Tidy s.regHive) (c : RegCall) : Tidy (s.call c).1.regHive := by
  cases c with
  | seed path name val =>
    change Tidy (Hive.regValueSet (HashMap.orDefault s.regHive (s.regHive.regCanonical path) ∅) (s.regHive.regCanonical path)
      name val)
    have hMade := hTidy.orDefault path
    have hThere : s.regHive.regCanonical path ∈ (HashMap.orDefault s.regHive (s.regHive.regCanonical path) ∅).keys := by
      unfold HashMap.orDefault
      split
      · assumption
      · exact mem_keys_insert.mpr (.inl rfl)
    have hSame := regCanonical_of_fold hMade.spelled hThere rfl
    have hSet := hMade.regValueSet (s.regHive.regCanonical path) name val
    rwa [hSame] at hSet
  | RegCreate hkey subkey => exact onKey_tidy hTidy (reached_join s hkey subkey) fun q => hTidy.orDefault q
  | RegOpen hkey subkey =>
    refine onKey_tidy hTidy (reached_join s hkey subkey) fun q => ?_
    split <;> exact hTidy
  | RegSet hkey name val => exact onKey_tidy hTidy (reached_pathOf s hkey) fun q => hTidy.regValueSet q name val
  | RegQuery hkey name =>
    refine onKey_tidy hTidy (reached_pathOf s hkey) fun q => ?_
    split <;> exact hTidy
  | RegClose hkey => exact hTidy
  | RegDeleteValue hkey name =>
    refine onKey_tidy hTidy (reached_pathOf s hkey) fun q => ?_
    dsimp only
    split
    · exact hTidy.regValueRemove q name
    · exact hTidy
  | RegDeleteKey hkey subkey =>
    refine onKey_tidy hTidy (reached_join s hkey subkey) fun q => ?_
    exact hTidy.retain fun k => k != s.regHive.regCanonical q && !(under (s.regHive.regCanonical q) []).isPrefixOf k
  | RegEnumKey hkey index =>
    refine onKey_tidy hTidy (reached_pathOf s hkey) fun q => ?_
    split <;> exact hTidy
  | RegEnumValue hkey index =>
    refine onKey_tidy hTidy (reached_pathOf s hkey) fun q => ?_
    split <;> exact hTidy
  | RegQueryInfoKey hkey => exact onKey_tidy hTidy (reached_pathOf s hkey) fun q => hTidy
  | NtCreateKey handleOut objattr =>
    change Tidy (s.ntCreateKey handleOut objattr).1.regHive
    unfold ntCreateKey
    split
    · exact hTidy
    · exact onNtKey_tidy hTidy (reached_ntResolve s objattr) fun q => hTidy.orDefault q
  | NtOpenKey handleOut objattr =>
    change Tidy (s.ntOpenKey handleOut objattr).1.regHive
    unfold ntOpenKey
    split
    · exact hTidy
    · refine onNtKey_tidy hTidy (reached_ntResolve s objattr) fun q => ?_
      split <;> exact hTidy
  | NtSetValueKey hkey name val => exact onNtKey_tidy hTidy (reached_pathOf s hkey) fun q => hTidy.regValueSet q name val
  | NtQueryValueKey hkey name =>
    refine onNtKey_tidy hTidy (reached_pathOf s hkey) fun q => ?_
    split <;> exact hTidy
  | NtEnumerateValueKey hkey index =>
    refine onNtKey_tidy hTidy (reached_pathOf s hkey) fun q => ?_
    split <;> exact hTidy
  | NtDeleteKey hkey =>
    refine onNtKey_tidy hTidy (reached_pathOf s hkey) fun q => ?_
    split
    · exact hTidy
    · split
      · exact hTidy
      · exact hTidy.erase _
  | NtDeleteValueKey hkey name =>
    refine onNtKey_tidy hTidy (reached_pathOf s hkey) fun q => ?_
    dsimp only
    split
    · exact hTidy.regValueRemove q name
    · exact hTidy
  | NtFlushKey hkey => exact onNtKey_tidy hTidy (reached_pathOf s hkey) fun q => hTidy
  | NtEnumerateKey hkey index =>
    refine onNtKey_tidy hTidy (reached_pathOf s hkey) fun q => ?_
    split <;> exact hTidy
  | NtQueryKey hkey cls =>
    refine onNtKey_tidy hTidy (reached_pathOf s hkey) fun q => ?_
    split
    · exact hTidy
    · split
      · exact hTidy
      · split <;> exact hTidy

theorem Relists.same (h : Relists s s') (a : RegAnswer) : Agree (s, a) (s', a) := ⟨rfl, h⟩

theorem Relists.setHive (h : Relists s s') {hive hive' : Hive} (hHive : Relisted hive hive') :
    Relists { s with regHive := hive } { s' with regHive := hive' } := ⟨hHive, h.handles, h.next, h.error⟩

theorem Relists.fails (h : Relists s s') (code : U32) : Agree (s.fails code) (s'.fails code) :=
  ⟨rfl, h.hive, h.handles, h.next, rfl⟩

theorem Relists.opens (h : Relists s s') (path : Text) (existed : Bool) : Agree (s.opens path existed) (s'.opens path existed) := by
  unfold Registry.opens openHandle
  rw [h.handles, h.next]
  exact ⟨rfl, h.hive, rfl, rfl, h.error⟩

theorem Relists.onKey (h : Relists s s') {path path' : Option Text} (hSame : path = path') (hPath : Reached s.regHive path)
    {f' : Text → Registry × RegAnswer} (hf : ∀ q, Agree (f (s.regHive.regCanonical q)) (f' (s.regHive.regCanonical q))) :
    Agree (s.onKey path f) (s'.onKey path' f') := by
  subst hSame
  unfold Registry.onKey
  cases path with
  | none => exact h.fails _
  | some p =>
    obtain ⟨q, rfl⟩ := hPath p rfl
    exact hf q

theorem Relists.onNtKey (h : Relists s s') {path path' : Option Text} (hSame : path = path') (hPath : Reached s.regHive path)
    {bad : U32} {f' : Text → Registry × RegAnswer}
    (hf : ∀ q, Agree (f (s.regHive.regCanonical q)) (f' (s.regHive.regCanonical q))) :
    Agree (s.onNtKey path bad f) (s'.onNtKey path' bad f') := by
  subst hSame
  unfold Registry.onNtKey
  cases path with
  | none => exact h.same _
  | some p =>
    obtain ⟨q, rfl⟩ := hPath p rfl
    exact hf q

theorem Relists.subkeys (h : Relists s s') (hTidy : Tidy s.regHive) (q : Text) :
    s.regHive.subkeys (s.regHive.regCanonical q) = s'.regHive.subkeys (s.regHive.regCanonical q) := by
  rw [regCanonical_eq hTidy.spelled]
  exact subkeys_congr hTidy.spelled h.hive.mem (spelled_clean hTidy.spelled q)

theorem Relists.call (h : Relists s s') (hTidy : Tidy s.regHive) (c : RegCall) : Agree (s.call c) (s'.call c) := by
  cases c with
  | seed path name val =>
    refine ⟨rfl, h.setHive ?_⟩
    rw [← h.canonical hTidy path]
    exact (h.hive.orDefault _).regValueSet (hTidy.orDefault path) _ name val
  | RegCreate hkey subkey =>
    refine h.onKey (h.join hTidy hkey subkey) (reached_join s hkey subkey) fun q => ?_
    have hMem : decide (s.regHive.regCanonical q ∈ s.regHive) = decide (s.regHive.regCanonical q ∈ s'.regHive) :=
      decide_eq_decide.mpr (h.hive.mem _)
    rw [← hMem]
    exact (h.setHive (h.hive.orDefault _)).opens _ _
  | RegOpen hkey subkey =>
    refine h.onKey (h.join hTidy hkey subkey) (reached_join s hkey subkey) fun q => ?_
    rw [← regKeyExists_congr h.hive]
    split
    · exact h.opens _ _
    · exact h.fails _
  | RegSet hkey name val =>
    refine h.onKey (h.pathOf hTidy hkey) (reached_pathOf s hkey) fun q => ?_
    exact ⟨rfl, h.setHive (h.hive.regValueSet hTidy _ name val)⟩
  | RegQuery hkey name =>
    refine h.onKey (h.pathOf hTidy hkey) (reached_pathOf s hkey) fun q => ?_
    rw [← regValue_congr hTidy h.hive]
    split
    · exact h.fails _
    · exact h.same _
  | RegClose hkey =>
    refine ⟨rfl, h.hive, ?_, h.next, h.error⟩
    change (fun x => if x = hkey then none else s.regHandles x) = fun x => if x = hkey then none else s'.regHandles x
    rw [h.handles]
  | RegDeleteValue hkey name =>
    refine h.onKey (h.pathOf hTidy hkey) (reached_pathOf s hkey) fun q => ?_
    obtain ⟨hDone, hHive⟩ := h.hive.regValueRemove hTidy (s.regHive.regCanonical q) name
    dsimp only
    rw [← hDone]
    split
    · exact ⟨rfl, h.setHive hHive⟩
    · exact h.fails _
  | RegDeleteKey hkey subkey =>
    refine h.onKey (h.join hTidy hkey subkey) (reached_join s hkey subkey) fun q => ?_
    exact ⟨rfl, h.setHive (h.hive.retain fun k =>
      k != s.regHive.regCanonical q && !(under (s.regHive.regCanonical q) []).isPrefixOf k)⟩
  | RegEnumKey hkey index =>
    refine h.onKey (h.pathOf hTidy hkey) (reached_pathOf s hkey) fun q => ?_
    rw [← h.subkeys hTidy]
    split <;> exact h.same _
  | RegEnumValue hkey index =>
    refine h.onKey (h.pathOf hTidy hkey) (reached_pathOf s hkey) fun q => ?_
    rw [← items_congr h.hive]
    split <;> exact h.same _
  | RegQueryInfoKey hkey =>
    refine h.onKey (h.pathOf hTidy hkey) (reached_pathOf s hkey) fun q => ?_
    rw [← queryInfo_congr h.hive (h.subkeys hTidy q)]
    exact h.same _
  | NtCreateKey handleOut objattr =>
    change Agree (s.ntCreateKey handleOut objattr) (s'.ntCreateKey handleOut objattr)
    unfold ntCreateKey
    split
    · exact h.same _
    · refine h.onNtKey (h.ntResolve hTidy objattr) (reached_ntResolve s objattr) fun q => ?_
      rw [← regKeyExists_congr h.hive]
      exact (h.setHive (h.hive.orDefault _)).opens _ _
  | NtOpenKey handleOut objattr =>
    change Agree (s.ntOpenKey handleOut objattr) (s'.ntOpenKey handleOut objattr)
    unfold ntOpenKey
    split
    · exact h.same _
    · refine h.onNtKey (h.ntResolve hTidy objattr) (reached_ntResolve s objattr) fun q => ?_
      rw [← regKeyExists_congr h.hive]
      split
      · exact h.opens _ _
      · exact h.same _
  | NtSetValueKey hkey name val =>
    refine h.onNtKey (h.pathOf hTidy hkey) (reached_pathOf s hkey) fun q => ?_
    exact ⟨rfl, h.setHive (h.hive.regValueSet hTidy _ name val)⟩
  | NtQueryValueKey hkey name =>
    refine h.onNtKey (h.pathOf hTidy hkey) (reached_pathOf s hkey) fun q => ?_
    rw [← regValue_congr hTidy h.hive]
    split <;> exact h.same _
  | NtEnumerateValueKey hkey index =>
    refine h.onNtKey (h.pathOf hTidy hkey) (reached_pathOf s hkey) fun q => ?_
    rw [← items_congr h.hive]
    split <;> exact h.same _
  | NtDeleteKey hkey =>
    refine h.onNtKey (h.pathOf hTidy hkey) (reached_pathOf s hkey) fun q => ?_
    rw [← regKeyExists_congr h.hive, ← h.subkeys hTidy]
    split
    · exact h.same _
    · split
      · exact h.same _
      · exact ⟨rfl, h.setHive (h.hive.erase _)⟩
  | NtDeleteValueKey hkey name =>
    refine h.onNtKey (h.pathOf hTidy hkey) (reached_pathOf s hkey) fun q => ?_
    obtain ⟨hDone, hHive⟩ := h.hive.regValueRemove hTidy (s.regHive.regCanonical q) name
    dsimp only
    rw [← hDone]
    split
    · exact ⟨rfl, h.setHive hHive⟩
    · exact h.same _
  | NtFlushKey hkey => exact h.onNtKey (h.pathOf hTidy hkey) (reached_pathOf s hkey) fun q => h.same _
  | NtEnumerateKey hkey index =>
    refine h.onNtKey (h.pathOf hTidy hkey) (reached_pathOf s hkey) fun q => ?_
    rw [← h.subkeys hTidy]
    split <;> exact h.same _
  | NtQueryKey hkey cls =>
    refine h.onNtKey (h.pathOf hTidy hkey) (reached_pathOf s hkey) fun q => ?_
    rw [← ntQueryInfo_congr h.hive (h.subkeys hTidy q)]
    split
    · exact h.same _
    · split
      · exact h.same _
      · split <;> exact h.same _

/-! ## Runs -/

/-- A run: calls and their answers, the hive being listed anew in any order after each of them. -/
inductive RegRun : List (RegCall × RegAnswer) → Registry → Prop where
  | start : RegRun [] new
  | step {hist : List (RegCall × RegAnswer)} {s s' : Registry} (hRun : RegRun hist s) (c : RegCall)
      (hListed : Relists (s.call c).1 s') : RegRun (hist ++ [(c, (s.call c).2)]) s'

theorem RegRun.tidy {hist : List (RegCall × RegAnswer)} (h : RegRun hist s) : Tidy s.regHive := by
  induction h with
  | start =>
    refine ⟨⟨fun k hk => absurd hk (AList.notMem_empty k), fun k hk => absurd hk (AList.notMem_empty k)⟩, fun k m hGet => ?_⟩
    cases hGet
  | step hRun c hListed ih => exact hListed.hive.tidy (call_tidy ih c)

theorem Relists.trans {s'' : Registry} (h : Relists s s') (h' : Relists s' s'') : Relists s s'' := by
  refine ⟨fun k => ?_, h.handles.trans h'.handles, h.next.trans h'.next, h.error.trans h'.error⟩
  rcases h.hive.key k with ⟨hNone, hNone'⟩ | ⟨m, m', hGet, hGet', hPerm⟩
  · have hk := h'.hive k
    rw [hNone'] at hk
    rwa [hNone]
  · have hk := h'.hive k
    rw [hGet'] at hk
    rw [hGet]
    cases hLast : s''.regHive.lookup k with
    | none =>
      rw [hLast] at hk
      cases hk
    | some m'' =>
      rw [hLast] at hk
      cases hk with
      | some hPerm' => exact .some (hPerm.trans hPerm')

theorem Relists.symm (h : Relists s s') : Relists s' s := by
  refine ⟨fun k => ?_, h.handles.symm, h.next.symm, h.error.symm⟩
  rcases h.hive.key k with ⟨hNone, hNone'⟩ | ⟨m, m', hGet, hGet', hPerm⟩
  · rw [hNone, hNone']
    exact .none
  · rw [hGet, hGet']
    exact .some hPerm.symm

theorem RegRun.answers_eq {hist hist' : List (RegCall × RegAnswer)} (h : RegRun hist s) (h' : RegRun hist' s')
    (hCalls : hist.map Prod.fst = hist'.map Prod.fst) : hist = hist' ∧ Relists s s' := by
  induction h generalizing hist' s' with
  | start =>
    cases h' with
    | start => exact ⟨rfl, .refl _⟩
    | step hRun c hListed => simp at hCalls
  | step hRun c hListed ih =>
    cases h' with
    | start => simp at hCalls
    | step hRun' c' hListed' =>
      rw [List.map_append, List.map_append] at hCalls
      obtain ⟨hOlder, hLast⟩ := List.append_inj' hCalls rfl
      obtain rfl : c = c' := by simpa using hLast
      obtain ⟨rfl, hSame⟩ := ih hRun' hOlder
      have hAgree := hSame.call hRun.tidy c
      rw [hAgree.answer]
      exact ⟨rfl, hListed.symm.trans (hAgree.relists.trans hListed')⟩

end Registry

/-! ## Lookups -/

section Found

variable {hive : Hive} {m : RegKey}

theorem fold_components (s : Text) : components (toAsciiLowercase s) = fold (components s) := by
  unfold components fold toAsciiLowercase
  rw [Delimited.splitOn_map fixes_toLower, List.filter_map]
  congr 1
  refine List.filter_congr fun c _ => ?_
  simp

theorem Spelled.one_case {keys : List Text} (h : Spelled keys) {k k' : Text} (hk : k ∈ keys) (hk' : k' ∈ keys)
    (hSame : toAsciiLowercase k = toAsciiLowercase k') : k = k' := by
  have hFold : fold (components k) = fold (components k') := by rw [← fold_components, hSame, fold_components]
  rw [← h.clean k hk, ← h.clean k' hk',
    h.unique k hk k' hk' _ _ (List.prefix_refl _) (List.prefix_refl _) hFold]

theorem regKeyExists_of_prefix (h : Spelled hive.keys) {k : Text} (hk : k ∈ hive.keys) {q : List Text} (hq : q <+: components k)
    (hSome : q ≠ []) : hive.regKeyExists (joined q) = true := by
  obtain ⟨b, hb⟩ := hq
  have hClean : Clean q := (clean_components k).sublist (hb ▸ List.sublist_append_left q b)
  rcases Decidable.em (b = []) with rfl | hMore
  · have hWhole : joined q = k := by
      rw [List.append_nil] at hb
      rw [hb, h.clean k hk]
    unfold Hive.regKeyExists
    rw [hWhole, decide_eq_true (show k ∈ hive from hk), Bool.true_or]
  · have hStrip := (strip_joined (clean_components k) hClean hSome).mpr ⟨q, b, hb.symm, rfl, hMore, rfl⟩
    rw [h.clean k hk] at hStrip
    unfold Hive.regKeyExists
    rw [Bool.or_eq_true, List.any_eq_true]
    exact .inr ⟨k, hk, by rw [hStrip]; simp⟩

theorem regValue_of_fold (h : Tidy hive) {k n n' : Text} {v : RegValue} (hGet : hive.lookup k = some m)
    (hVal : m.lookup n = some v) (hFold : toAsciiLowercase n' = toAsciiLowercase n) :
    hive.regValue k n' = some (n, v) := by
  have hOne := h.names k m hGet
  have hn : n ∈ m := AList.lookup_isSome.mp (by rw [hVal]; rfl)
  unfold Hive.regValue
  rw [hGet]
  simp only [Option.bind_eq_bind, Option.bind_some]
  cases hExact : m.lookup n' with
  | some v' =>
    have hn' : n' ∈ m := AList.lookup_isSome.mp (by rw [hExact]; rfl)
    obtain rfl := hOne n' hn' n hn hFold
    rw [hVal] at hExact
    rw [Option.some.inj hExact]
  | none =>
    have hPair : (n, v) ∈ m.pairs := List.mem_map.mpr ⟨⟨n, v⟩, AList.mem_lookup_iff.mp hVal, rfl⟩
    have hAlike : eqIgnoreAsciiCase n n' = true := by rw [eqIgnoreAsciiCase_iff, hFold]
    dsimp only
    cases hFind : m.pairs.find? fun e => eqIgnoreAsciiCase e.1 n' with
    | none => exact absurd hAlike (List.find?_eq_none.mp hFind (n, v) hPair)
    | some e =>
      have hMem := List.mem_of_find?_eq_some hFind
      have hFolds := List.find?_some hFind
      rw [eqIgnoreAsciiCase_iff] at hFolds
      rw [pairs_eq_of_name hMem hPair (hOne e.1 (mem_of_pairs hMem) n hn (hFolds.trans hFold))]

end Found

namespace Registry

def softKey : Registry := (new.call (.RegCreate 0x80000002 "Soft\\Ex".toList)).1

end Registry

end Exemu.Os
