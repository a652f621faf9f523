import Exemu.Os.Spelling
import Mathlib.Data.List.Sort

/-! # Listing what a key has

Subkeys are gathered from the full paths into a map sorted by folded name, values are sorted by
name.
-/
namespace Exemu.Os

open Path (Text)

/-! ## The sorted map -/

section Sorted

variable {k v : Text} {es : List (Text × Text)} {e : Text × Text}

def Ascending (es : List (Text × Text)) : Prop := es.Pairwise fun a b => a.1 < b.1

theorem mem_btreeOrInsert (hSorted : Ascending es) :
    e ∈ Hive.btreeOrInsert k v es ↔ e ∈ es ∨ e = (k, v) ∧ ∀ d ∈ es, d.1 ≠ k := by
  induction es with
  | nil => simp [Hive.btreeOrInsert]
  | cons d es ih =>
    have hTail : Ascending es := hSorted.of_cons
    have hFirst : ∀ x ∈ es, d.1 < x.1 := fun x hx => List.rel_of_pairwise_cons hSorted hx
    unfold Hive.btreeOrInsert
    split
    · rename_i hBefore
      have hNone : ∀ x ∈ d :: es, x.1 ≠ k := by
        intro x hx
        rcases List.mem_cons.mp hx with rfl | hx
        · exact hBefore.ne'
        · exact (hBefore.trans (hFirst x hx)).ne'
      simp only [List.mem_cons]
      constructor
      · rintro (rfl | hRest)
        · exact .inr ⟨rfl, fun x hx => hNone x (List.mem_cons.mpr hx)⟩
        · exact .inl hRest
      · rintro (hRest | ⟨rfl, -⟩)
        · exact .inr hRest
        · exact .inl rfl
    · split
      · rename_i hSame
        refine ⟨.inl, fun h => h.resolve_right ?_⟩
        rintro ⟨-, hNone⟩
        exact hNone d List.mem_cons_self hSame.symm
      · rename_i hOther
        rw [List.mem_cons, ih hTail, List.mem_cons, or_assoc]
        simp only [List.mem_cons, forall_eq_or_imp]
        constructor
        · rintro (hHere | hRest | ⟨hNew, hNone⟩)
          · exact .inl hHere
          · exact .inr (.inl hRest)
          · exact .inr (.inr ⟨hNew, fun h => hOther h.symm, hNone⟩)
        · rintro (hHere | hRest | ⟨hNew, -, hNone⟩)
          · exact .inl hHere
          · exact .inr (.inl hRest)
          · exact .inr (.inr ⟨hNew, hNone⟩)

theorem ascending_btreeOrInsert (hSorted : Ascending es) : Ascending (Hive.btreeOrInsert k v es) := by
  induction es with
  | nil => exact List.pairwise_singleton ..
  | cons d es ih =>
    have hTail : Ascending es := hSorted.of_cons
    have hFirst : ∀ x ∈ es, d.1 < x.1 := fun x hx => List.rel_of_pairwise_cons hSorted hx
    unfold Hive.btreeOrInsert
    split
    · rename_i hBefore
      refine List.Pairwise.cons (fun x hx => ?_) hSorted
      rcases List.mem_cons.mp hx with rfl | hx
      · exact hBefore
      · exact hBefore.trans (hFirst x hx)
    · rename_i hNotBefore
      split
      · exact hSorted
      · rename_i hOther
        refine List.Pairwise.cons (fun x hx => ?_) (ih hTail)
        rcases (mem_btreeOrInsert hTail).mp hx with hx | ⟨rfl, -⟩
        · exact hFirst x hx
        · exact (lt_trichotomy k d.1).resolve_left hNotBefore |>.resolve_left hOther

end Sorted

/-! ## Subkeys -/

section Subkeys

variable {keys : List Text} {bs : List Text} {f : Text}

/-- `f` names an immediate subkey, as a stored path spells it. -/
def Subkey (keys : List Text) (bs : List Text) (f : Text) : Prop := Child keys bs f f

/-- What a map of subkeys gathered from some of the keys looks like. -/
structure Gathers (keys : List Text) (bs : List Text) (set : List (Text × Text)) : Prop where
  ascending : Ascending set
  sound : ∀ e ∈ set, e.1 = toAsciiLowercase e.2 ∧ Subkey keys bs e.2
  complete : ∀ f, Subkey keys bs f → ∃ e ∈ set, e.1 = toAsciiLowercase f

theorem noteSubkey_gathers {k : Text} {set : List (Text × Text)} (hKeys : Spelled (k :: keys)) (hc : Clean bs)
    (hSome : bs ≠ []) (h : Gathers keys bs set) :
    Gathers (k :: keys) bs (Hive.noteSubkey (under (joined bs) []) set k) := by
  obtain ⟨ks, hClean, hKey, hComps⟩ := hKeys.key List.mem_cons_self
  have hBelow : ∀ f, f ≠ [] → ((∃ rest, stripPrefixCi k (under (joined bs) []) = some rest ∧ firstComponent rest = f) ↔
      ∃ p r, components k = p ++ f :: r ∧ fold p = fold bs) := by
    intro f hf
    have hFirst := first_below hClean hc hf
    unfold below at hFirst
    rw [if_neg (by rwa [hc.joined_eq_nil]), ← hKey, ← hComps] at hFirst
    exact hFirst
  have hOlder : ∀ f, Subkey keys bs f → Subkey (k :: keys) bs f := by
    rintro f ⟨hf, hFold, x, hx, hRest⟩
    exact ⟨hf, hFold, x, List.mem_cons_of_mem _ hx, hRest⟩
  have hSplit : ∀ f, Subkey (k :: keys) bs f →
      Subkey keys bs f ∨ ∃ rest, stripPrefixCi k (under (joined bs) []) = some rest ∧ firstComponent rest = f := by
    rintro f ⟨hf, hFold, x, hx, p, r, hSplit, hp⟩
    rcases List.mem_cons.mp hx with rfl | hx
    · exact .inr ((hBelow f hf).mpr ⟨p, r, hSplit, hp⟩)
    · exact .inl ⟨hf, hFold, x, hx, p, r, hSplit, hp⟩
  unfold Hive.noteSubkey
  split
  · rename_i hStrip
    refine ⟨h.ascending, fun e he => ?_, fun f hf => ?_⟩
    · exact ⟨(h.sound e he).1, hOlder _ (h.sound e he).2⟩
    · rcases hSplit f hf with hf | ⟨rest, hRest, -⟩
      · exact h.complete f hf
      · rw [hStrip] at hRest
        cases hRest
  · rename_i rest hStrip
    dsimp only
    split
    · rename_i hFirst
      refine ⟨h.ascending, fun e he => ?_, fun f hf => ?_⟩
      · exact ⟨(h.sound e he).1, hOlder _ (h.sound e he).2⟩
      · rcases hSplit f hf with hf' | ⟨rest', hRest, hf'⟩
        · exact h.complete f hf'
        · rw [hStrip] at hRest
          obtain rfl := Option.some.inj hRest
          exact absurd (hf'.symm.trans hFirst) hf.1
    · rename_i hFirst
      have hNew : Subkey (k :: keys) bs (firstComponent rest) := by
        obtain ⟨p, r, hSplit, hp⟩ := (hBelow _ hFirst).mp ⟨rest, hStrip, rfl⟩
        exact ⟨hFirst, rfl, k, List.mem_cons_self, p, r, hSplit, hp⟩
      refine ⟨ascending_btreeOrInsert h.ascending, fun e he => ?_, fun f hf => ?_⟩
      · rcases (mem_btreeOrInsert h.ascending).mp he with he | ⟨rfl, -⟩
        · exact ⟨(h.sound e he).1, hOlder _ (h.sound e he).2⟩
        · exact ⟨rfl, hNew⟩
      · have hHere : f = firstComponent rest →
            ∃ e ∈ Hive.btreeOrInsert (toAsciiLowercase (firstComponent rest)) (firstComponent rest) set,
              e.1 = toAsciiLowercase f := by
          rintro rfl
          rcases Decidable.em (∀ d ∈ set, d.1 ≠ toAsciiLowercase (firstComponent rest)) with hNone | hOld
          · exact ⟨_, (mem_btreeOrInsert h.ascending).mpr (.inr ⟨rfl, hNone⟩), rfl⟩
          · simp only [not_forall, not_not] at hOld
            obtain ⟨d, hd, hSame⟩ := hOld
            exact ⟨d, (mem_btreeOrInsert h.ascending).mpr (.inl hd), hSame⟩
        rcases hSplit f hf with hf' | ⟨rest', hRest, hf'⟩
        · obtain ⟨e, he, hLower⟩ := h.complete f hf'
          exact ⟨e, (mem_btreeOrInsert h.ascending).mpr (.inl he), hLower⟩
        · rw [hStrip] at hRest
          obtain rfl := Option.some.inj hRest
          exact hHere hf'.symm

theorem foldl_gathers {seen : List Text} {set : List (Text × Text)} (ks : List Text) (hKeys : Spelled (ks.reverse ++ seen))
    (hc : Clean bs) (hSome : bs ≠ []) (h : Gathers seen bs set) :
    Gathers (ks.reverse ++ seen) bs (ks.foldl (Hive.noteSubkey (under (joined bs) [])) set) := by
  induction ks generalizing seen set with
  | nil => exact h
  | cons k ks ih =>
    rw [List.reverse_cons, List.append_assoc, List.singleton_append] at hKeys ⊢
    refine ih hKeys (noteSubkey_gathers (hKeys.subset fun x hx => ?_) hc hSome h)
    exact List.mem_append_right _ hx

variable {hive : Hive}

theorem subkeys_spec (hKeys : Spelled hive.keys) (hc : Clean bs) (hSome : bs ≠ []) :
    (hive.subkeys (joined bs)).Pairwise (fun a b => toAsciiLowercase a < toAsciiLowercase b) ∧
      ∀ f, f ∈ hive.subkeys (joined bs) ↔ Subkey hive.keys bs f := by
  have hEmpty : Gathers [] bs [] := by
    refine ⟨List.Pairwise.nil, by simp, ?_⟩
    rintro f ⟨-, -, k, hk, -⟩
    cases hk
  have hMem : ∀ k, k ∈ hive.keys.reverse ++ [] ↔ k ∈ hive.keys := by simp
  have hGathers := foldl_gathers hive.keys (hKeys.subset fun k hk => (hMem k).mp hk) hc hSome hEmpty
  have hSubkey : ∀ f, Subkey (hive.keys.reverse ++ []) bs f ↔ Subkey hive.keys bs f := fun f => Child.congr hMem
  constructor
  · unfold Hive.subkeys
    rw [List.pairwise_map]
    refine hGathers.ascending.imp_of_mem fun ha hb hLess => ?_
    rw [← (hGathers.sound _ ha).1, ← (hGathers.sound _ hb).1]
    exact hLess
  · intro f
    unfold Hive.subkeys
    rw [List.mem_map]
    constructor
    · rintro ⟨e, he, rfl⟩
      exact (hSubkey _).mp (hGathers.sound e he).2
    · intro hf
      obtain ⟨e, he, hLower⟩ := hGathers.complete f ((hSubkey f).mpr hf)
      obtain ⟨hOwn, hChild⟩ := hGathers.sound e he
      refine ⟨e, he, ?_⟩
      obtain ⟨hNamed, -, k, hk, hRest⟩ := (hSubkey _).mp hChild
      have hAlike : Child hive.keys bs f e.2 := ⟨hNamed, hOwn.symm.trans hLower, k, hk, hRest⟩
      exact hAlike.unique hKeys hf

theorem strip_root (hKeys : Spelled hive.keys) {k : Text} (hk : k ∈ hive.keys) : stripPrefixCi k (under [] []) = none := by
  obtain ⟨ks, hClean, hKey, -⟩ := hKeys.key hk
  cases hFound : stripPrefixCi k (under [] []) with
  | none => rfl
  | some rest =>
    obtain ⟨a, hSplit, ha⟩ := stripPrefixCi_under.mp hFound
    obtain rfl : a = [] := (toAsciiLowercase_nil_iff a).mp ha
    rcases Decidable.em (ks = []) with rfl | hSome
    · rw [hKey] at hSplit
      cases hSplit
    · have hComps := hClean.splitOn_joined hSome
      rw [← hKey, hSplit, List.splitOn_append_cons_self] at hComps
      exact absurd rfl (hClean.named [] (by rw [← hComps]; simp))

theorem subkeys_nil (hKeys : Spelled hive.keys) : hive.subkeys [] = [] := by
  have hStrip : ∀ k ∈ hive.keys, stripPrefixCi k (under [] []) = none := fun k hk => strip_root hKeys hk
  unfold Hive.subkeys
  rw [List.map_eq_nil_iff]
  generalize hive.keys = ks at hStrip
  induction ks with
  | nil => rfl
  | cons k ks ih =>
    rw [List.foldl_cons]
    have hNone : Hive.noteSubkey (under [] []) [] k = [] := by
      unfold Hive.noteSubkey
      rw [hStrip k List.mem_cons_self]
    rw [hNone]
    exact ih fun x hx => hStrip x (List.mem_cons_of_mem _ hx)

theorem subkeys_congr {hive' : Hive} (hKeys : Spelled hive.keys) (hMem : ∀ k, k ∈ hive.keys ↔ k ∈ hive'.keys)
    (hc : Clean bs) : hive.subkeys (joined bs) = hive'.subkeys (joined bs) := by
  have hKeys' : Spelled hive'.keys := hKeys.subset fun k hk => (hMem k).mpr hk
  rcases Decidable.em (bs = []) with rfl | hSome
  · exact (subkeys_nil hKeys).trans (subkeys_nil hKeys').symm
  obtain ⟨hOrder, hList⟩ := subkeys_spec hKeys hc hSome
  obtain ⟨hOrder', hList'⟩ := subkeys_spec hKeys' hc hSome
  have hAntisymm : ∀ a b : Text, a ∈ hive.subkeys (joined bs) → b ∈ hive'.subkeys (joined bs) →
      toAsciiLowercase a < toAsciiLowercase b → toAsciiLowercase b < toAsciiLowercase a → a = b :=
    fun a b _ _ h h' => absurd (h.trans h') (lt_irrefl _)
  refine List.Perm.eq_of_pairwise hAntisymm hOrder hOrder' ?_
  refine (List.perm_ext_iff_of_nodup ?_ ?_).mpr fun f => ?_
  · exact hOrder.imp fun {a b} hLess (hEq : a = b) => lt_irrefl _ (hEq ▸ hLess)
  · exact hOrder'.imp fun {a b} hLess (hEq : a = b) => lt_irrefl _ (hEq ▸ hLess)
  · rw [hList, hList']
    exact Child.congr hMem

end Subkeys

/-! ## Values -/

theorem keys_pairs {V : Type} (m : HashMap V) : m.pairs.map Prod.fst = m.keys := by
  unfold HashMap.pairs AList.keys List.keys
  rw [List.map_map]
  rfl

theorem items_perm {hive : Hive} {path : Text} {m : RegKey} (hGet : hive.lookup path = some m) :
    (hive.items path).Perm m.pairs := by
  unfold Hive.items
  rw [hGet]
  exact List.mergeSort_perm ..

theorem items_sorted (hive : Hive) (path : Text) : (hive.items path).Pairwise fun a b => a.1 ≤ b.1 := by
  unfold Hive.items
  split
  · rename_i m hGet
    have hSorted : (m.pairs.mergeSort fun a b => decide (a.1 ≤ b.1)).Pairwise fun a b => decide (a.1 ≤ b.1) = true :=
      List.pairwise_mergeSort (fun a b c hab hbc => by simpa using (of_decide_eq_true hab).trans (of_decide_eq_true hbc))
        (fun a b => by simpa using le_total a.1 b.1) m.pairs
    exact hSorted.imp of_decide_eq_true
  · exact List.Pairwise.nil

end Exemu.Os
