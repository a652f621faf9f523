import Exemu.Os.Canonical

/-! # Deleting keys

The Win32 call takes the key and everything below it out of the hive, whether the key was there or
not; the system call refuses a key that has subkeys.
-/
namespace Exemu.Os

open Path (Text)

namespace Hive

def below (path k : Text) : Bool := (under path []).isPrefixOf k

end Hive

theorem stripPrefixCi_of_below {path k : Text} (h : Hive.below path k = true) :
    ∃ rest, stripPrefixCi k (under path []) = some rest := by
  obtain ⟨rest, rfl⟩ := List.isPrefixOf_iff_prefix.mp h
  exact ⟨rest, stripPrefixCi_under.mpr ⟨path, by simp [under], rfl⟩⟩

theorem not_below {hive : Hive} (hKeys : Spelled hive.keys) {bs : List Text} (hc : Clean bs)
    (hNone : hive.subkeys (joined bs) = []) {k : Text} (hk : k ∈ hive.keys) : Hive.below (joined bs) k = false := by
  rw [← Bool.not_eq_true]
  intro hBelow
  obtain ⟨rest, hStrip⟩ := stripPrefixCi_of_below hBelow
  obtain ⟨ks, hClean, hKey, hComps⟩ := hKeys.key hk
  rcases Decidable.em (bs = []) with rfl | hSome
  · have hRoot : stripPrefixCi k (under (joined []) []) = none := strip_root hKeys hk
    rw [hRoot] at hStrip
    cases hStrip
  · rw [hKey] at hStrip
    obtain ⟨p, b, hSplit, hFold, hb, -⟩ := (strip_joined hClean hc hSome).mp hStrip
    obtain ⟨f, r, rfl⟩ := List.exists_cons_of_ne_nil hb
    have hf : f ≠ [] := hClean.named f (by rw [hSplit]; simp)
    have hSub : Subkey hive.keys bs f := ⟨hf, rfl, k, hk, p, r, by rw [hComps, hSplit], hFold⟩
    rw [← (subkeys_spec hKeys hc hSome).2 f, hNone] at hSub
    cases hSub

def RegCall.through (hkey : U64) : RegCall → Prop
  | .seed _ _ _ => False
  | .RegCreate h _ => h = hkey
  | .RegOpen h _ => h = hkey
  | .RegSet h _ _ => h = hkey
  | .RegQuery h _ => h = hkey
  | .RegClose _ => False
  | .RegDeleteValue h _ => h = hkey
  | .RegDeleteKey h _ => h = hkey
  | .RegEnumKey h _ => h = hkey
  | .RegEnumValue h _ => h = hkey
  | .RegQueryInfoKey h => h = hkey
  | .NtCreateKey _ objattr => objattr.map Prod.fst = some hkey
  | .NtOpenKey _ objattr => objattr.map Prod.fst = some hkey
  | .NtSetValueKey h _ _ => h = hkey
  | .NtQueryValueKey h _ => h = hkey
  | .NtEnumerateValueKey h _ => h = hkey
  | .NtDeleteKey h => h = hkey
  | .NtDeleteValueKey h _ => h = hkey
  | .NtFlushKey h => h = hkey
  | .NtEnumerateKey h _ => h = hkey
  | .NtQueryKey h _ => h = hkey

def RegAnswer.refuses : RegAnswer → Prop
  | .status code => code ≠ 0
  | _ => False

namespace Registry

variable {s : Registry}

def target (s : Registry) : RegCall → Option Text
  | .RegDeleteKey hkey subkey => s.regJoin hkey subkey
  | .NtDeleteKey hkey => s.regPathOf hkey
  | _ => none

structure Deletes (s : Registry) (c : RegCall) (path : Text) : Prop where
  allowed : s.regHive.regKeyExists path = true ∧ s.regHive.subkeys path = []
  exact : ∀ k, (s.call c).1.regHive.lookup k = if k = path then none else s.regHive.lookup k
  stale : ∀ hkey, s.regPathOf hkey = some path → ∀ c' : RegCall, c'.through hkey →
    ((s.call c).1.call c').2.refuses ∧ path ∉ ((s.call c).1.call c').1.regHive

def DeletesRight (s : Registry) (c : RegCall) : Prop :=
  ∀ path, s.target c = some path → (s.call c).2 = .status 0 → Deletes s c path

/-- A Win32 call for a key that is there, has no subkeys and is not open, or a system call that is refused. -/
def DeletesSafely (s : Registry) : RegCall → Prop
  | .RegDeleteKey hkey subkey => ∀ path, s.regJoin hkey subkey = some path →
      s.regHive.regKeyExists path = true ∧ s.regHive.subkeys path = [] ∧ ∀ h, s.regPathOf h ≠ some path
  | .NtDeleteKey hkey => ∀ path, s.regPathOf hkey = some path →
      ¬(s.regHive.regKeyExists path = true ∧ s.regHive.subkeys path = [])
  | _ => True

variable {hkey : U64} {path : Text} {c : RegCall}

theorem regDeleteKey_eq {subkey : Text} (hPath : s.regJoin hkey subkey = some path) :
    s.call (.RegDeleteKey hkey subkey) =
      ({ s with regHive := HashMap.retain s.regHive fun k => k != path && !Hive.below path k }, .status 0) := by
  change s.onKey _ _ = _
  unfold onKey
  rw [hPath]
  rfl

theorem ntDeleteKey_eq (hPath : s.regPathOf hkey = some path) :
    s.call (.NtDeleteKey hkey) =
      if !s.regHive.regKeyExists path then (s, .status Reg.STATUS_OBJECT_NAME_NOT_FOUND)
      else if s.regHive.subkeys path ≠ [] then (s, .status Reg.STATUS_CANNOT_DELETE)
      else ({ s with regHive := s.regHive.erase path }, .status 0) := by
  change s.onNtKey _ _ _ = _
  unfold onNtKey
  rw [hPath]
  rfl

theorem ntDeleteKey_succeeds (hPath : s.regPathOf hkey = some path) :
    (s.call (.NtDeleteKey hkey)).2 = .status 0 ↔ s.regHive.regKeyExists path = true ∧ s.regHive.subkeys path = [] := by
  rw [ntDeleteKey_eq hPath]
  constructor
  · intro hDone
    split at hDone
    · cases hDone
    · rename_i hExists
      split at hDone
      · cases hDone
      · rename_i hNone
        exact ⟨by simpa using hExists, by simpa using hNone⟩
  · rintro ⟨hExists, hNone⟩
    rw [hExists, hNone]
    rfl

theorem target_resolves (hTarget : s.target c = some path) (hDone : (s.call c).2 = .status 0) (hkey : U64) :
    (s.call c).1.regResolve hkey = s.regResolve hkey := by
  cases c with
  | RegDeleteKey h subkey => rw [regDeleteKey_eq hTarget]; rfl
  | NtDeleteKey h =>
    rw [ntDeleteKey_eq hTarget]
    split
    · rfl
    · split <;> rfl
  | _ => cases hTarget

theorem regSet_succeeds {s' : Registry} {p : Text} (hResolve : s'.regResolve hkey = some p) :
    (s'.call (.RegSet hkey [] (0, []))).2 = .status 0 := by
  change (s'.onKey (s'.regPathOf hkey) _).2 = _
  unfold regPathOf
  rw [hResolve]
  rfl

theorem not_open_of_stale (hTarget : s.target c = some path) (hDone : (s.call c).2 = .status 0)
    (hDeletes : Deletes s c path) (hkey : U64) : s.regPathOf hkey ≠ some path := by
  intro hOpen
  obtain ⟨p, hResolve, -⟩ := Option.map_eq_some_iff.mp hOpen
  have hRefused := (hDeletes.stale hkey hOpen (.RegSet hkey [] (0, [])) rfl).1
  rw [regSet_succeeds ((target_resolves hTarget hDone hkey).trans hResolve)] at hRefused
  exact hRefused rfl

theorem delete_takes_below (hTidy : Tidy s.regHive) (hTarget : s.target c = some path) (hDone : (s.call c).2 = .status 0)
    (k : Text) :
    (s.call c).1.regHive.lookup k = if k = path ∨ Hive.below path k = true then none else s.regHive.lookup k := by
  cases c with
  | RegDeleteKey hkey subkey =>
    rw [regDeleteKey_eq hTarget, lookup_retain]
    rcases Decidable.em (k = path) with rfl | hOther
    · simp
    · cases hBelow : Hive.below path k <;> simp [hOther]
  | NtDeleteKey hkey =>
    obtain ⟨hExists, hNone⟩ := (ntDeleteKey_succeeds hTarget).mp hDone
    obtain ⟨q, rfl⟩ := reached_pathOf s hkey path hTarget
    rw [ntDeleteKey_eq hTarget, hExists, hNone]
    change (s.regHive.erase _).lookup k = _
    rcases Decidable.em (k = s.regHive.regCanonical q) with rfl | hOther
    · rw [AList.lookup_erase, if_pos (.inl rfl)]
    · rw [AList.lookup_erase_ne hOther]
      split
      · rename_i hBelow
        have hStored : k ∉ s.regHive.keys := by
          intro hk
          rw [regCanonical_eq hTidy.spelled] at hNone hBelow hOther
          have hNot := not_below hTidy.spelled (spelled_clean hTidy.spelled q) hNone hk
          rw [hBelow.resolve_left hOther] at hNot
          cases hNot
        exact AList.lookup_eq_none.mpr hStored
      · rfl
  | _ => cases hTarget

theorem deletes_right_of_safe (hTidy : Tidy s.regHive) (hSafe : DeletesSafely s c) : DeletesRight s c := by
  intro path hTarget hDone
  cases c with
  | RegDeleteKey hkey subkey =>
    obtain ⟨hExists, hNone, hShut⟩ := hSafe path hTarget
    obtain ⟨q, hPath⟩ := reached_join s hkey subkey path hTarget
    refine ⟨⟨hExists, hNone⟩, fun k => ?_, fun h hOpen => absurd hOpen (hShut h)⟩
    rw [delete_takes_below hTidy hTarget hDone]
    rcases Decidable.em (k = path) with hHere | hOther
    · rw [if_pos (.inl hHere), if_pos hHere]
    · rw [if_neg hOther]
      split
      · rename_i hBelow
        have hStored : k ∉ s.regHive.keys := by
          intro hk
          rw [regCanonical_eq hTidy.spelled] at hPath
          subst hPath
          have hNot := not_below hTidy.spelled (spelled_clean hTidy.spelled q) hNone hk
          rw [hBelow.resolve_left hOther] at hNot
          cases hNot
        exact (AList.lookup_eq_none.mpr hStored).symm
      · rfl
  | NtDeleteKey hkey => exact absurd ((ntDeleteKey_succeeds hTarget).mp hDone) (hSafe path hTarget)
  | _ => cases hTarget

theorem safe_of_deletes_right (hRight : DeletesRight s c) : DeletesSafely s c := by
  cases c with
  | RegDeleteKey hkey subkey =>
    intro path hPath
    have hTarget : s.target (.RegDeleteKey hkey subkey) = some path := hPath
    have hDone : (s.call (.RegDeleteKey hkey subkey)).2 = .status 0 := by rw [regDeleteKey_eq hPath]
    have hDeletes := hRight path hTarget hDone
    exact ⟨hDeletes.allowed.1, hDeletes.allowed.2, not_open_of_stale hTarget hDone hDeletes⟩
  | NtDeleteKey hkey =>
    intro path hPath hAllowed
    have hTarget : s.target (.NtDeleteKey hkey) = some path := hPath
    have hDone := (ntDeleteKey_succeeds hPath).mpr hAllowed
    exact not_open_of_stale hTarget hDone (hRight path hTarget hDone) hkey hPath
  | _ => trivial

/-- A deletion is right exactly if it is safe; and whatever it deletes, no other key is touched than those it is to delete
and those below them. -/
theorem deletes_right_iff_safe {hist : List (RegCall × RegAnswer)} (hRun : RegRun hist s) (c : RegCall) :
    (DeletesRight s c ↔ DeletesSafely s c) ∧
      ∀ path, s.target c = some path → (s.call c).2 = .status 0 → ∀ k, (s.call c).1.regHive.lookup k =
        if k = path ∨ Hive.below path k = true then none else s.regHive.lookup k :=
  ⟨⟨safe_of_deletes_right, deletes_right_of_safe hRun.tidy⟩,
    fun _ hTarget hDone k => delete_takes_below hRun.tidy hTarget hDone k⟩

def twoKeys : Registry :=
  ((new.call (.RegCreate 0x80000002 "Soft".toList)).1.call (.RegCreate 0x80000002 "Software".toList)).1

theorem run_twoKeys : ∃ hist, RegRun hist twoKeys := ⟨_, .step (.step .start _ (.refl _)) _ (.refl _)⟩

theorem deletes_right_iff_safe_sibling :
    (twoKeys.call (.RegDeleteKey 0x80000002 "soft".toList)).1.regHive.lookup "HKLM\\Software".toList =
      twoKeys.regHive.lookup "HKLM\\Software".toList := by
  obtain ⟨hist, hRun⟩ := run_twoKeys
  have hDelete := (deletes_right_iff_safe hRun (.RegDeleteKey 0x80000002 "soft".toList)).2 "HKLM\\Soft".toList
    (by decide) (by decide) "HKLM\\Software".toList
  rwa [if_neg (by decide)] at hDelete

/-- The key is deleted while a handle is open on it, and a value written through the handle makes it again. -/
theorem stale_handle_recreates :
    (∃ hist, RegRun hist twoKeys) ∧ ¬DeletesRight twoKeys (.RegDeleteKey 0x80000002 "Soft".toList) ∧
      "HKLM\\Soft".toList ∈ ((twoKeys.call (.RegDeleteKey 0x80000002 "Soft".toList)).1.call
        (.RegSet 0x1000 "x".toList (4, [0, 0, 0, 0]))).1.regHive := by
  refine ⟨run_twoKeys, fun hRight => ?_, by decide⟩
  have hSafe := safe_of_deletes_right hRight "HKLM\\Soft".toList (by decide)
  exact absurd (show twoKeys.regPathOf 0x1000 = some "HKLM\\Soft".toList by decide) (hSafe.2.2 0x1000)

end Registry

end Exemu.Os
