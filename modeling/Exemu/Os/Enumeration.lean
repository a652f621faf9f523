import Exemu.Os.Canonical

/-! # Enumerating a key

What the four enumeration calls hand out index by index, and what the two queries for the key's
information say of it.
-/
namespace Exemu.Os

open Path (Text)

/-- A stored path is the key's, up to case, followed by `f`, alone or with more below it. -/
def Immediate (hive : Hive) (path f : Text) : Prop :=
  f ≠ [] ∧ '\\' ∉ f ∧ ∃ k ∈ hive, ∃ a, toAsciiLowercase a = toAsciiLowercase path ∧
    (k = under a f ∨ ∃ r, k = under (under a f) r)

theorem toAsciiLowercase_joined (cs : List Text) : toAsciiLowercase (joined cs) = joined (fold cs) := by
  induction cs with
  | nil => rfl
  | cons c cs ih =>
    rcases Decidable.em (cs = []) with rfl | hSome
    · simp [joined, fold, List.intercalate_singleton]
    · have hFold : fold cs ≠ [] := by simpa [fold] using hSome
      have hCons : fold (c :: cs) = toAsciiLowercase c :: fold cs := rfl
      unfold joined at ih ⊢
      rw [hCons, List.intercalate_cons_of_ne_nil hSome, List.intercalate_cons_of_ne_nil hFold, ← ih]
      simp [toAsciiLowercase]

theorem components_under (a b : Text) : components (under a b) = components a ++ components b := by
  unfold components under
  rw [List.splitOn_append_cons_self, List.filter_append]

theorem components_plain {f : Text} (hNamed : f ≠ []) (hWhole : '\\' ∉ f) : components f = [f] := by
  unfold components
  rw [List.splitOn_eq_singleton hWhole]
  simp [hNamed]

theorem immediate_iff {hive : Hive} (hKeys : Spelled hive.keys) {bs : List Text} (hc : Clean bs) (hSome : bs ≠ []) (f : Text) :
    Immediate hive (joined bs) f ↔ Subkey hive.keys bs f := by
  constructor
  · rintro ⟨hNamed, hWhole, k, hk, a, hFold, hPath⟩
    have hBase : fold (components a) = fold bs := by
      rw [← fold_components, hFold, fold_components, hc.components_joined]
    rcases hPath with rfl | ⟨r, rfl⟩
    · refine ⟨hNamed, rfl, _, hk, components a, [], ?_, hBase⟩
      rw [components_under, components_plain hNamed hWhole]
    · refine ⟨hNamed, rfl, _, hk, components a, components r, ?_, hBase⟩
      rw [components_under, components_under, components_plain hNamed hWhole, List.append_assoc]
      rfl
  · rintro ⟨hNamed, -, k, hk, p, r, hComps, hFold⟩
    have hMem : f ∈ components k := by rw [hComps]; simp
    have hBase : p ≠ [] := by
      rintro rfl
      exact hSome (List.eq_nil_of_length_eq_zero (length_of_fold hFold).symm)
    refine ⟨hNamed, (clean_components k).whole f hMem, k, hk, joined p, ?_, ?_⟩
    · rw [toAsciiLowercase_joined, toAsciiLowercase_joined, hFold]
    · rw [← hKeys.clean k hk, hComps]
      have hFirst : joined (p ++ [f]) = under (joined p) f := by
        unfold joined under
        rw [Delimited.intercalate_append hBase (by simp), List.intercalate_singleton]
      rcases Decidable.em (r = []) with rfl | hMore
      · exact .inl hFirst
      · refine .inr ⟨joined r, ?_⟩
        rw [← hFirst, List.append_cons]
        exact Delimited.intercalate_append (by simp) hMore

theorem subkeys_immediate {hive : Hive} (hKeys : Spelled hive.keys) {bs : List Text} (hc : Clean bs) :
    (hive.subkeys (joined bs)).Nodup ∧ ∀ f, f ∈ hive.subkeys (joined bs) ↔ Immediate hive (joined bs) f := by
  rcases Decidable.em (bs = []) with rfl | hSome
  · have hNone : hive.subkeys (joined []) = [] := subkeys_nil hKeys
    rw [hNone]
    refine ⟨List.nodup_nil, fun f => ⟨fun h => absurd h List.not_mem_nil, ?_⟩⟩
    rintro ⟨-, -, k, hk, a, hFold, hPath⟩
    obtain rfl : a = [] := (toAsciiLowercase_nil_iff a).mp hFold
    have hRoot := strip_root hKeys hk
    have hStrip : ∃ rest, stripPrefixCi k (under [] []) = some rest := by
      rcases hPath with rfl | ⟨r, rfl⟩
      · exact ⟨f, stripPrefixCi_under.mpr ⟨[], rfl, rfl⟩⟩
      · exact ⟨f ++ '\\' :: r, stripPrefixCi_under.mpr ⟨[], rfl, rfl⟩⟩
    obtain ⟨rest, hStrip⟩ := hStrip
    rw [hRoot] at hStrip
    cases hStrip
  · obtain ⟨hOrder, hList⟩ := subkeys_spec hKeys hc hSome
    refine ⟨hOrder.imp fun {a b} hLess (hEq : a = b) => lt_irrefl _ (hEq ▸ hLess), fun f => ?_⟩
    rw [hList, immediate_iff hKeys hc hSome]

/-! ## Greatest lengths -/

theorem foldl_max_ge (xs : List Nat) (n : Nat) : n ≤ xs.foldl max n ∧ ∀ x ∈ xs, x ≤ xs.foldl max n := by
  induction xs generalizing n with
  | nil => exact ⟨le_rfl, by simp⟩
  | cons y ys ih =>
    obtain ⟨hStart, hRest⟩ := ih (max n y)
    refine ⟨(le_max_left n y).trans hStart, fun x hx => ?_⟩
    rcases List.mem_cons.mp hx with rfl | hx
    · exact (le_max_right n x).trans hStart
    · exact hRest x hx

theorem foldl_max_lt {xs : List Nat} {n b : Nat} (hn : n < b) (h : ∀ x ∈ xs, x < b) : xs.foldl max n < b := by
  induction xs generalizing n with
  | nil => exact hn
  | cons y ys ih =>
    exact ih (max_lt hn (h y List.mem_cons_self)) fun x hx => h x (List.mem_cons_of_mem _ hx)

theorem listMax_bounds {α : Type} {f : α → Nat} {xs : List α} (h : ∀ x ∈ xs, f x < 2 ^ 32) :
    ∀ x ∈ xs, f x ≤ (BitVec.ofNat 32 (listMax (xs.map f))).toNat := by
  intro x hx
  have hLess : listMax (xs.map f) < 2 ^ 32 := foldl_max_lt (by decide) (by simpa using h)
  rw [BitVec.toNat_ofNat, Nat.mod_eq_of_lt hLess]
  exact (foldl_max_ge (xs.map f) 0).2 _ (List.mem_map_of_mem hx)

def utf16Length (s : Text) : Nat := (encodeUtf16 s).length * 2

theorem toNat_utf16Bytes {s : Text} (h : utf16Length s < 2 ^ 32) : (utf16Bytes s).toNat = utf16Length s := by
  unfold utf16Bytes
  rw [BitVec.toNat_ofNat]
  exact Nat.mod_eq_of_lt h

theorem length_le_utf16Length (s : Text) : s.length ≤ utf16Length s := by
  unfold utf16Length encodeUtf16
  induction s with
  | nil => exact le_rfl
  | cons c s ih =>
    rw [List.flatMap_cons, List.length_append, List.length_cons]
    have hUnit : 1 ≤ (if c.toNat < 0x10000 then [BitVec.ofNat 16 c.toNat]
        else [BitVec.ofNat 16 (0xD800 + (c.toNat - 0x10000) / 0x400),
          BitVec.ofNat 16 (0xDC00 + (c.toNat - 0x10000) % 0x400)]).length := by
      split <;> simp
    omega

/-! ## The enumeration -/

namespace Registry

variable {s : Registry} {hkey : U64} {path : Text}

/-- The calls hand out these subkeys and these values, in order, and then say that there are no more. -/
structure Enumerates (s : Registry) (hkey : U64) (path : Text) (names : List Text) (vals : List (Text × RegValue)) : Prop where
  subkeys : names.Nodup ∧ ∀ f, f ∈ names ↔ Immediate s.regHive path f
  values : vals.Perm ((s.regHive.lookup path).getD ∅).pairs
  enumKey : ∀ i : U64, (s.call (.RegEnumKey hkey i)).2 =
    ((names[i.toNat]?).map RegAnswer.name).getD (.status Reg.ERROR_NO_MORE_ITEMS)
  ntEnumerateKey : ∀ i : U64, (s.call (.NtEnumerateKey hkey i)).2 =
    ((names[i.toNat]?).map RegAnswer.name).getD (.status Reg.STATUS_NO_MORE_ENTRIES)
  enumValue : ∀ i : U64, (s.call (.RegEnumValue hkey i)).2 =
    ((vals[i.toNat]?).map fun v => RegAnswer.value v.1 v.2).getD (.status Reg.ERROR_NO_MORE_ITEMS)
  ntEnumerateValueKey : ∀ i : U64, (s.call (.NtEnumerateValueKey hkey i)).2 =
    ((vals[i.toNat]?).map fun v => RegAnswer.value v.1 v.2).getD (.status Reg.STATUS_NO_MORE_ENTRIES)

/-- The information has the right counts, and its greatest lengths bound what was enumerated. -/
structure Reports (i : KeyInfo) (measure : Text → Nat) (names : List Text) (vals : List (Text × RegValue)) : Prop where
  subkeys : i.subkeys.toNat = names.length
  values : i.values.toNat = vals.length
  maxSubkey : ∀ f ∈ names, measure f ≤ i.maxSubkey.toNat
  maxName : ∀ v ∈ vals, measure v.1 ≤ i.maxName.toNat
  maxData : ∀ v ∈ vals, v.2.2.length ≤ i.maxData.toNat

def EnumeratesRight (s : Registry) (hkey : U64) (path : Text) : Prop :=
  ∃ names vals, Enumerates s hkey path names vals ∧
    (∃ i, (s.call (.RegQueryInfoKey hkey)).2 = .info i ∧ Reports i List.length names vals) ∧
    ∃ i, (s.call (.NtQueryKey hkey Reg.KEY_FULL_INFORMATION)).2 = .info i ∧ Reports i utf16Length names vals

structure Fits (hive : Hive) (path : Text) : Prop where
  subkeys : (hive.subkeys path).length < 2 ^ 32
  values : ((hive.lookup path).getD ∅).pairs.length < 2 ^ 32
  subkeyNames : ∀ f ∈ hive.subkeys path, utf16Length f < 2 ^ 32
  valueNames : ∀ v ∈ ((hive.lookup path).getD ∅).pairs, utf16Length v.1 < 2 ^ 32
  data : ∀ v ∈ ((hive.lookup path).getD ∅).pairs, v.2.2.length < 2 ^ 32

theorem items_perm_pairs (hive : Hive) (path : Text) : (hive.items path).Perm ((hive.lookup path).getD ∅).pairs := by
  cases hGet : hive.lookup path with
  | none =>
    unfold Hive.items
    rw [hGet]
    exact List.Perm.nil
  | some m => exact items_perm hGet

theorem enumerates (hTidy : Tidy s.regHive) (hPath : s.regPathOf hkey = some path) :
    Enumerates s hkey path (s.regHive.subkeys path) (s.regHive.items path) := by
  obtain ⟨q, hCanon⟩ := reached_pathOf s hkey path hPath
  have hSubkeys := subkeys_immediate hTidy.spelled (spelled_clean hTidy.spelled q)
  rw [← regCanonical_eq hTidy.spelled, ← hCanon] at hSubkeys
  refine ⟨hSubkeys, items_perm_pairs _ _, fun i => ?_, fun i => ?_, fun i => ?_, fun i => ?_⟩
  · change (s.onKey (s.regPathOf hkey) _).2 = _
    unfold onKey
    rw [hPath]
    dsimp only
    cases (s.regHive.subkeys path)[i.toNat]? <;> rfl
  · change (s.onNtKey (s.regPathOf hkey) _ _).2 = _
    unfold onNtKey
    rw [hPath]
    dsimp only
    cases (s.regHive.subkeys path)[i.toNat]? <;> rfl
  · change (s.onKey (s.regPathOf hkey) _).2 = _
    unfold onKey
    rw [hPath]
    dsimp only
    cases (s.regHive.items path)[i.toNat]? <;> rfl
  · change (s.onNtKey (s.regPathOf hkey) _ _).2 = _
    unfold onNtKey
    rw [hPath]
    dsimp only
    cases (s.regHive.items path)[i.toNat]? <;> rfl

theorem queryInfo_answer (hPath : s.regPathOf hkey = some path) :
    (s.call (.RegQueryInfoKey hkey)).2 = .info (s.regHive.queryInfo path) := by
  change (s.onKey (s.regPathOf hkey) _).2 = _
  unfold onKey
  rw [hPath]

theorem ntQueryInfo_answer (hPath : s.regPathOf hkey = some path) :
    (s.call (.NtQueryKey hkey Reg.KEY_FULL_INFORMATION)).2 = .info (s.regHive.ntQueryInfo path) := by
  change (s.onNtKey (s.regPathOf hkey) _ _).2 = _
  unfold onNtKey
  rw [hPath]
  rfl

theorem reports_of_fits (hFits : Fits s.regHive path) :
    Reports (s.regHive.queryInfo path) List.length (s.regHive.subkeys path) (s.regHive.items path) ∧
      Reports (s.regHive.ntQueryInfo path) utf16Length (s.regHive.subkeys path) (s.regHive.items path) := by
  have hCount : ∀ n : Nat, n < 2 ^ 32 → (BitVec.ofNat 32 n).toNat = n := by
    intro n hn
    rw [BitVec.toNat_ofNat, Nat.mod_eq_of_lt hn]
  have hSubkeys := hCount _ hFits.subkeys
  have hShort : ∀ f ∈ s.regHive.subkeys path, f.length < 2 ^ 32 :=
    fun f hf => (length_le_utf16Length f).trans_lt (hFits.subkeyNames f hf)
  have hMaxSubkey : ∀ f ∈ s.regHive.subkeys path, utf16Length f ≤ (s.regHive.ntQueryInfo path).maxSubkey.toNat := by
    intro f hf
    rw [← toNat_utf16Bytes (hFits.subkeyNames f hf)]
    exact listMax_bounds (fun k _ => (utf16Bytes k).isLt) f hf
  cases hGet : s.regHive.lookup path with
  | none =>
    have hItems : s.regHive.items path = [] := by
      unfold Hive.items
      rw [hGet]
    rw [hItems]
    constructor
    · refine ⟨hSubkeys, ?_, listMax_bounds hShort, by simp, by simp⟩
      unfold Hive.queryInfo
      rw [hGet]
      rfl
    · refine ⟨hSubkeys, ?_, hMaxSubkey, by simp, by simp⟩
      unfold Hive.ntQueryInfo
      rw [hGet]
      rfl
  | some m =>
    have hItems := items_perm hGet
    have hValues : m.pairs.length < 2 ^ 32 := by simpa [hGet] using hFits.values
    have hNames : ∀ v ∈ m.pairs, utf16Length v.1 < 2 ^ 32 := by simpa [hGet] using hFits.valueNames
    have hData : ∀ v ∈ m.pairs, v.2.2.length < 2 ^ 32 := by simpa [hGet] using hFits.data
    have hKeys : ∀ k ∈ m.keys, ∃ v ∈ m.pairs, v.1 = k := by
      intro k hk
      rw [← keys_pairs, List.mem_map] at hk
      exact hk
    have hEntries : (BitVec.ofNat 32 m.entries.length).toNat = (s.regHive.items path).length := by
      have hLength : m.entries.length = m.pairs.length := by
        unfold HashMap.pairs
        rw [List.length_map]
      rw [hItems.length_eq, hLength, hCount _ hValues]
    constructor
    · refine ⟨hSubkeys, ?_, listMax_bounds hShort, fun v hv => ?_, fun v hv => ?_⟩
      · unfold Hive.queryInfo
        rw [hGet]
        exact hEntries
      · unfold Hive.queryInfo
        rw [hGet]
        refine listMax_bounds (fun k hk => ?_) v.1 (mem_of_pairs (hItems.mem_iff.mp hv))
        obtain ⟨v, hv, rfl⟩ := hKeys k hk
        exact (length_le_utf16Length v.1).trans_lt (hNames v hv)
      · unfold Hive.queryInfo
        rw [hGet]
        exact listMax_bounds hData v (hItems.mem_iff.mp hv)
    · refine ⟨hSubkeys, ?_, hMaxSubkey, fun v hv => ?_, fun v hv => ?_⟩
      · unfold Hive.ntQueryInfo
        rw [hGet]
        exact hEntries
      · unfold Hive.ntQueryInfo
        rw [hGet, ← toNat_utf16Bytes (hNames v (hItems.mem_iff.mp hv))]
        exact listMax_bounds (fun k _ => (utf16Bytes k).isLt) v.1 (mem_of_pairs (hItems.mem_iff.mp hv))
      · unfold Hive.ntQueryInfo
        rw [hGet, ← hCount _ (hData v (hItems.mem_iff.mp hv))]
        exact listMax_bounds (f := fun e : Text × RegValue => (BitVec.ofNat 32 e.2.2.length).toNat)
          (fun e _ => (BitVec.ofNat 32 e.2.2.length).isLt) v (hItems.mem_iff.mp hv)

theorem fits_of_right (hTidy : Tidy s.regHive) (hPath : s.regPathOf hkey = some path) (hRight : EnumeratesRight s hkey path) :
    Fits s.regHive path := by
  obtain ⟨names, vals, hEnum, -, i, -, hReports⟩ := hRight
  have hOwn := enumerates hTidy hPath
  have hNames : names.Perm (s.regHive.subkeys path) :=
    (List.perm_ext_iff_of_nodup hEnum.subkeys.1 hOwn.subkeys.1).mpr fun f => by
      rw [hEnum.subkeys.2, hOwn.subkeys.2]
  have hVals : ∀ v ∈ ((s.regHive.lookup path).getD ∅).pairs, v ∈ vals := fun v hv => hEnum.values.mem_iff.mpr hv
  refine ⟨?_, ?_, fun f hf => ?_, fun v hv => ?_, fun v hv => ?_⟩
  · rw [← hNames.length_eq, ← hReports.subkeys]
    exact i.subkeys.isLt
  · rw [← hEnum.values.length_eq, ← hReports.values]
    exact i.values.isLt
  · exact (hReports.maxSubkey f (hNames.mem_iff.mpr hf)).trans_lt i.maxSubkey.isLt
  · exact (hReports.maxName v (hVals v hv)).trans_lt i.maxName.isLt
  · exact (hReports.maxData v (hVals v hv)).trans_lt i.maxData.isLt

def emojiKey : Registry :=
  ((new.call (.RegCreate 0x80000002 "😀".toList)).1.call (.RegSet 0x80000002 "x😀".toList (Reg.REG_DWORD, [1, 0, 0, 0]))).1

def withData (d : List U8) : Registry := (new.call (.RegSet 0x80000002 "x".toList (Reg.REG_BINARY, d))).1

theorem pathOf_withData (d : List U8) : (withData d).regPathOf 0x80000002 = some "HKLM".toList := rfl

theorem pairs_withData (d : List U8) :
    (((withData d).regHive.lookup "HKLM".toList).getD ∅).pairs = [("x".toList, Reg.REG_BINARY, d)] := rfl

end Registry

end Exemu.Os
