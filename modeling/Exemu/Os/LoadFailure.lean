import Exemu.Os.Module

/-! # What a failed load leaves behind

A load that fails before the image has its place leaves no trace.
-/
namespace Exemu.Os

open Path (Text)
open Loader (Section Export Import ImportSymbol PeImage)
open Fallible (Keeps)

namespace DllEnv

/-! ## The arena -/

section Arena

theorem le_pageUp (n : Nat) : n ≤ pageUp n := by
  unfold pageUp MODULE_PAGE
  omega

theorem pageUp_pageUp (n : Nat) : pageUp (pageUp n) = pageUp n := by
  unfold pageUp MODULE_PAGE
  omega

theorem pageUp_add (m n : Nat) : pageUp (pageUp m + pageUp n) = pageUp m + pageUp n := by
  unfold pageUp MODULE_PAGE
  omega

theorem imageSpan_eq (image : PeImage) : ∃ n, imageSpan image = pageUp n ∧ 0 < imageSpan image := by
  refine ⟨max image.sizeOfImage.toNat MODULE_PAGE, ?_⟩
  unfold imageSpan pageUp MODULE_PAGE
  omega

variable (env : DllEnv)

def Grows (s s' : DllState) : Prop := env.nextBase s.dll ≤ env.nextBase s'.dll

theorem grows_refl (s : DllState) : env.Grows s s := Nat.le_refl _

theorem grows_trans (s₁ s₂ s₃ : DllState) (h : env.Grows s₁ s₂) (h' : env.Grows s₂ s₃) : env.Grows s₁ s₃ := Nat.le_trans h h'

variable {env} {d : DllLoader} {image : PeImage}

theorem place_none (h : (env.place d image).2 = none) :
    ∃ n, (env.place d image).1 = { d with arenaNext := n } ∧ env.nextBase (env.place d image).1 = env.nextBase d := by
  unfold place at h ⊢
  dsimp only at h ⊢
  split at h
  · rw [if_pos ‹_›]
    refine ⟨_, rfl, ?_⟩
    show pageUp (if env.arenaStart d = 0 then env.dllBase else env.arenaStart d) = pageUp (env.arenaStart d)
    split
    · rename_i hZero
      unfold arenaStart at hZero ⊢
      split
      · rfl
      · rename_i hUsed
        rw [if_neg hUsed] at hZero
        exact absurd hZero hUsed
    · rfl
  · rename_i hRoom
    rw [if_neg hRoom]
    split at h
    · refine ⟨_, rfl, ?_⟩
      have hUp := le_pageUp (env.arenaStart d)
      unfold nextBase
      rw [arenaStart]
      dsimp only
      split
      · rename_i hZero
        have hStart : env.arenaStart d = 0 := by omega
        have hBase : env.dllBase = 0 := by
          unfold arenaStart at hStart
          split at hStart
          · exact hStart
          · exact absurd hStart ‹_›
        rw [hStart, hBase]
      · exact pageUp_pageUp _
    · cases h

theorem place_some {base : U64} {sections : List Section} (h : (env.place d image).2 = some (base, sections)) :
    base = BitVec.ofNat 64 (env.nextBase d) ∧
      env.images.applyRelocations image.sections image.relocations image.imageBase base = some sections ∧
      (env.place d image).1 = { d with arenaNext := env.nextBase d + imageSpan image } := by
  unfold place at h ⊢
  dsimp only at h ⊢
  split at h
  · cases h
  · rename_i hRoom
    rw [if_neg hRoom]
    split at h
    · cases h
    · rename_i secs hApply
      cases h
      exact ⟨rfl, hApply, rfl⟩

theorem place_moves (h : (env.place d image).2.isSome = true) : env.nextBase d < env.nextBase (env.place d image).1 := by
  obtain ⟨p, hp⟩ := Option.isSome_iff_exists.mp h
  obtain ⟨base, sections⟩ := p
  obtain ⟨-, -, hPlaced⟩ := place_some hp
  obtain ⟨n, hSpan, hPos⟩ := imageSpan_eq image
  rw [hPlaced]
  show env.nextBase d < pageUp (if env.nextBase d + imageSpan image = 0 then env.dllBase else env.nextBase d + imageSpan image)
  rw [if_neg (by omega), hSpan, nextBase, pageUp_add, ← hSpan]
  omega

end Arena

/-! ## Every step of a load -/

section Steps

variable {env : DllEnv}

theorem grows_of_arena {s s' : DllState} (h : s'.dll.arenaNext = s.dll.arenaNext) : env.Grows s s' := by
  unfold Grows nextBase arenaStart
  rw [h]

theorem keeps_bind {α β : Type} {x : Load α} {f : α → Load β} (hx : Keeps env.Grows x) (hf : ∀ a, Keeps env.Grows (f a)) :
    Keeps env.Grows (x >>= f) := Keeps.bind env.grows_trans hx hf

theorem keeps_pure {α : Type} (a : α) : Keeps env.Grows (pure a : Load α) := Keeps.pure env.grows_refl a

theorem keeps_get : Keeps env.Grows (Fallible.get : Load DllState) := Keeps.get env.grows_refl

theorem keeps_each {β : Type} {f : β → Load Unit} (hf : ∀ b, Keeps env.Grows (f b)) (bs : List β) :
    Keeps env.Grows (Fallible.each f bs) := Keeps.each env.grows_refl env.grows_trans hf bs

theorem keeps_onLoader {f : DllLoader → DllLoader} (hf : ∀ d, (f d).arenaNext = d.arenaNext) : Keeps env.Grows (Load.onLoader f) :=
  Keeps.modify fun s => grows_of_arena (hf s.dll)

variable (addr : U64)

theorem keeps_write (bytes : List U8) : Keeps env.Grows (Load.write addr bytes) := by
  refine Keeps.step env.grows_refl fun s a s' h => ?_
  cases hWrite : s.mem.write addr bytes with
  | error e =>
    rw [hWrite] at h
    cases h
  | ok mem =>
    rw [hWrite] at h
    cases h
    exact grows_of_arena rfl

theorem keeps_read (n : Nat) : Keeps env.Grows (Load.read addr n) := by
  refine Keeps.step env.grows_refl fun s a s' h => ?_
  cases hRead : s.mem.read addr n with
  | error e =>
    rw [hRead] at h
    cases h
  | ok bytes =>
    rw [hRead] at h
    cases h
    exact grows_of_arena rfl

theorem keeps_ldrAlloc (size : Nat) : Keeps env.Grows (ldrAlloc size) :=
  keeps_bind (keeps_onLoader fun _ => rfl) fun _ => keeps_bind keeps_get fun _ => keeps_pure _

theorem keeps_writeUnits (us : List U16) : Keeps env.Grows (writeUnits addr us) := by
  induction us generalizing addr with
  | nil => exact keeps_write _ _
  | cons u us ih => exact keeps_bind (keeps_write _ _) fun _ => ih _

theorem keeps_ldrWriteWstr (t : Text) : Keeps env.Grows (ldrWriteWstr t) :=
  keeps_bind (keeps_ldrAlloc _) fun _ => keeps_bind (keeps_writeUnits _ _) fun _ => keeps_pure _

theorem keeps_writeUnicodeString (at' buffer : U64) (byteLen : U16) : Keeps env.Grows (env.writeUnicodeString at' buffer byteLen) :=
  keeps_bind (keeps_write _ _) fun _ => keeps_bind (keeps_write _ _) fun _ => keeps_write _ _

theorem keeps_listInsertTail (head link : U64) : Keeps env.Grows (env.listInsertTail head link) := by
  refine keeps_bind (keeps_bind (keeps_read _ _) fun _ => keeps_pure _) fun blink => ?_
  refine keeps_bind (keeps_write _ _) fun _ => ?_
  refine keeps_bind (keeps_write _ _) fun _ => ?_
  exact keeps_bind (keeps_write _ _) fun _ => keeps_write _ _

theorem keeps_ldrThreadEntry (base size entry : U64) (name fullPath : Text) :
    Keeps env.Grows (env.ldrThreadEntry base size entry name fullPath) := by
  refine keeps_bind (keeps_ldrAlloc _) fun te => ?_
  refine keeps_bind (keeps_ldrWriteWstr _) fun fullBuf => ?_
  refine keeps_bind (keeps_ldrWriteWstr _) fun baseBuf => ?_
  refine keeps_bind (keeps_write _ _) fun _ => ?_
  refine keeps_bind (keeps_write _ _) fun _ => ?_
  refine keeps_bind (keeps_write _ _) fun _ => ?_
  refine keeps_bind (keeps_writeUnicodeString _ _ _) fun _ => ?_
  refine keeps_bind (keeps_writeUnicodeString _ _ _) fun _ => ?_
  refine keeps_bind keeps_get fun s => ?_
  exact keeps_bind (keeps_each (fun offs => keeps_listInsertTail _ _) _) fun _ => keeps_pure _

theorem keeps_ldrAddModule (idx : Nat) : Keeps env.Grows (env.ldrAddModule idx) := by
  refine keeps_bind keeps_get fun s => ?_
  dsimp only
  split
  · exact keeps_pure _
  · split
    · exact keeps_pure _
    · exact keeps_bind (keeps_ldrThreadEntry _ _ _ _ _) fun te => keeps_onLoader fun _ => rfl

theorem keeps_resolveImport (dll : Text) (symbol : ImportSymbol) : Keeps env.Grows (env.resolveImport dll symbol) := by
  refine keeps_bind keeps_get fun s => ?_
  dsimp only
  split
  · exact keeps_pure _
  · exact keeps_bind (Keeps.modify fun s => grows_of_arena rfl) fun _ => keeps_pure _

theorem keeps_bindImport (base : U64) (imp : Import) : Keeps env.Grows (env.bindImport base imp) := by
  refine keeps_bind (keeps_bind keeps_get fun s => ?_) fun addr => keeps_write _ _
  split
  · exact keeps_pure _
  · exact keeps_resolveImport _ _

theorem keeps_writeImage (base : U64) (headers : List U8) (sections : List Section) :
    Keeps env.Grows (writeImage base headers sections) := by
  refine keeps_bind (keeps_write _ _) fun _ => keeps_each (fun sec => ?_) _
  unfold writeSection
  split
  · exact keeps_pure _
  · exact keeps_write _ _

theorem keeps_finish (name file : Text) (base : U64) (image : PeImage) : Keeps env.Grows (env.finish name file base image) := by
  refine keeps_bind (keeps_each (keeps_bindImport base) _) fun _ => ?_
  refine keeps_bind (keeps_onLoader fun _ => rfl) fun _ => ?_
  refine keeps_bind keeps_get fun s => ?_
  refine keeps_bind (keeps_ldrAddModule _) fun _ => ?_
  refine keeps_bind (keeps_onLoader fun _ => rfl) fun _ => ?_
  split
  · exact keeps_bind (keeps_onLoader fun _ => rfl) fun _ => keeps_pure _
  · exact keeps_pure _

theorem keeps_install {loadDep : Text → Load Unit} (hDep : ∀ dep, Keeps env.Grows (loadDep dep)) (name file : Text) (image : PeImage)
    (base : U64) (sections : List Section) : Keeps env.Grows (env.install loadDep name file image base sections) := by
  refine keeps_bind (keeps_writeImage _ _ _) fun _ => ?_
  refine keeps_bind (keeps_onLoader fun _ => rfl) fun _ => ?_
  refine keeps_bind keeps_get fun s => keeps_bind (keeps_each (fun dep => ?_) _) fun _ => keeps_finish _ _ _ _
  split
  · exact hDep dep
  · exact keeps_pure _

end Steps

/-! ## How a load ends -/

section Ends

variable {env : DllEnv} {fuel : Nat} {path name : Text} {s s' : DllState} {r : Except EmuError (Option U64)}

/-- The load fails before the image has its place: the module is being loaded, its file is missing or no image,
the arena has no room for it, or its relocations are refused. -/
def FailsEarly (env : DllEnv) (d : DllLoader) (path name : Text) : Prop :=
  d.loading.contains name = true ∨ env.openImage path name = none ∨
    ∃ file image, env.openImage path name = some (file, image) ∧
      (env.dllBase + env.dllSize < env.nextBase d + imageSpan image ∨
        env.images.applyRelocations image.sections image.relocations image.imageBase (BitVec.ofNat 64 (env.nextBase d)) = none)

theorem place_none_iff {d : DllLoader} {image : PeImage} :
    (env.place d image).2 = none ↔ env.dllBase + env.dllSize < env.nextBase d + imageSpan image ∨
      env.images.applyRelocations image.sections image.relocations image.imageBase (BitVec.ofNat 64 (env.nextBase d)) = none := by
  unfold place
  dsimp only
  split
  · exact iff_of_true rfl (.inl ‹_›)
  · rename_i hRoom
    split
    · exact iff_of_true rfl (.inr ‹_›)
    · rename_i secs hApply
      rw [hApply]
      refine iff_of_false (Option.some_ne_none _) ?_
      rintro (hFull | hNone)
      · exact hRoom hFull
      · cases hNone

theorem loadPlugin_cases (h : env.loadPlugin (fuel + 1) path name s = some (r, s')) :
    (FailsEarly env s.dll path name ∧ (s.dll.loading.contains name = true → r = .ok (s.dll.byName.lookup name)) ∧
        (¬s.dll.loading.contains name = true → r = .ok none) ∧
        ∃ n, s' = { s with dll := { s.dll with arenaNext := n } } ∧ env.nextBase s'.dll = env.nextBase s.dll) ∨
      (¬FailsEarly env s.dll path name ∧ ∃ file image base sections, env.openImage path name = some (file, image) ∧
        (env.place s.dll image).2 = some (base, sections) ∧
        env.install (fun dep => discard (env.loadPlugin fuel dep dep)) name file image base sections
          { s with dll := (env.place s.dll image).1 } = some (r, s')) := by
  change (if s.dll.loading.contains name then (pure (s.dll.byName.lookup name) : Load (Option U64)) else _) s = _ at h
  by_cases hLoading : s.dll.loading.contains name = true
  · rw [if_pos hLoading] at h
    cases h
    exact .inl ⟨.inl hLoading, fun _ => rfl, fun hNot => absurd hLoading hNot, s.dll.arenaNext, rfl, rfl⟩
  · rw [if_neg hLoading] at h
    cases hOpen : env.openImage path name with
    | none =>
      rw [hOpen] at h
      cases h
      exact .inl ⟨.inr (.inl hOpen), fun hIn => absurd hIn hLoading, fun _ => rfl, s.dll.arenaNext, rfl, rfl⟩
    | some p =>
      obtain ⟨file, image⟩ := p
      rw [hOpen] at h
      cases hPlace : (env.place s.dll image).2 with
      | none =>
        dsimp only at h
        rw [hPlace] at h
        cases h
        obtain ⟨n, hSame, hNext⟩ := place_none hPlace
        refine .inl ⟨.inr (.inr ⟨file, image, hOpen, place_none_iff.mp hPlace⟩), fun hIn => absurd hIn hLoading, fun _ => rfl, n, ?_, hNext⟩
        rw [hSame]
      | some q =>
        obtain ⟨base, sections⟩ := q
        dsimp only at h
        rw [hPlace] at h
        refine .inr ⟨?_, file, image, base, sections, rfl, hPlace, h⟩
        rintro (hIn | hNone | ⟨file', image', hOpen', hRefused⟩)
        · exact hLoading hIn
        · rw [hOpen] at hNone
          cases hNone
        · rw [hOpen] at hOpen'
          cases hOpen'
          rw [place_none_iff.mpr hRefused] at hPlace
          cases hPlace

theorem loadPlugin_grows (fuel : Nat) (path name : Text) : Keeps env.Grows (env.loadPlugin fuel path name) := by
  induction fuel generalizing path name with
  | zero => exact Keeps.exhausted
  | succ fuel ih =>
    intro s r s' h
    rcases loadPlugin_cases h with ⟨-, -, -, n, -, hNext⟩ | ⟨-, file, image, base, sections, -, hPlace, hInstall⟩
    · exact hNext.ge
    · have hPlaced : (env.place s.dll image).2.isSome = true := by rw [hPlace]; rfl
      have hMoves := place_moves hPlaced
      have hRest := keeps_install (fun dep => keeps_bind (ih dep dep) fun _ => keeps_pure ()) _ _ _ _ _ _ _ _ hInstall
      exact hMoves.le.trans hRest

theorem loadPlugin_moves (h : env.loadPlugin (fuel + 1) path name s = some (r, s')) (hLate : ¬FailsEarly env s.dll path name) :
    env.nextBase s.dll < env.nextBase s'.dll := by
  rcases loadPlugin_cases h with ⟨hEarly, -⟩ | ⟨-, file, image, base, sections, -, hPlace, hInstall⟩
  · exact absurd hEarly hLate
  · have hPlaced : (env.place s.dll image).2.isSome = true := by rw [hPlace]; rfl
    have hMoves := place_moves hPlaced
    have hRest := keeps_install (fun dep => keeps_bind (loadPlugin_grows fuel dep dep) fun _ => keeps_pure ()) _ _ _ _ _ _ _ _ hInstall
    exact hMoves.trans_le hRest

/-! ## A failed call -/

/-- `LoadLibrary` of a name that is neither loaded nor emulated fails, with this state. -/
structure Fails (env : DllEnv) (fuel : Nat) (s : DllState) (path : Text) (s' : DllState) : Prop where
  named : path ≠ []
  new : s.dll.byName.lookup (env.moduleName path) = none
  foreign : EMULATED.contains (env.moduleName path) = false
  run : ∃ r, env.loadPlugin fuel path (env.moduleName path) { s with dll := { s.dll with pendingDllmain := [] } } = some (r, s') ∧
    ∀ base, r ≠ .ok (some base)

/-- The tables, the PEB's lists in memory and the next place in the arena are as before. -/
structure Restored (env : DllEnv) (s s' : DllState) : Prop where
  mem : s'.mem = s.mem
  tables : { s'.dll with arenaNext := s.dll.arenaNext } = s.dll
  arena : env.nextBase s'.dll = env.nextBase s.dll

theorem Fails.returns_zero (h : Fails env fuel s path s') : env.loadLibrary fuel path s = some (.ok 0, s') := by
  obtain ⟨hPath, hNew, hForeign, r, hRun, hFail⟩ := h
  have hCall : env.loadLibrary fuel path s =
      orZero (env.loadPlugin fuel path (env.moduleName path)) { s with dll := { s.dll with pendingDllmain := [] } } := by
    unfold loadLibrary
    rw [if_neg hPath]
    show env.loadNamed fuel path (env.moduleName path) (s.dll.byName.lookup (env.moduleName path)) s = _
    rw [hNew, loadNamed, hForeign]
    rfl
  rw [hCall, orZero, hRun, Option.map_some]
  cases r with
  | error e => rfl
  | ok base =>
    cases base with
    | none => rfl
    | some base => exact absurd rfl (hFail base)

/-- A failed call leaves everything as it was if and only if the load failed early, and there was no initialisation to forget. -/
theorem failed_restores_iff (h : Fails env fuel s path s') :
    Restored env s s' ↔ FailsEarly env s.dll path (env.moduleName path) ∧ s.dll.pendingDllmain = [] := by
  obtain ⟨-, -, -, r, hRun, -⟩ := h
  cases fuel with
  | zero => cases hRun
  | succ fuel =>
    rcases loadPlugin_cases hRun with ⟨hEarly, -, -, n, rfl, hNext⟩ | ⟨hLate, -⟩
    · constructor
      · rintro ⟨-, hTables, -⟩
        exact ⟨hEarly, (congrArg DllLoader.pendingDllmain hTables).symm⟩
      · rintro ⟨-, hPending⟩
        refine ⟨rfl, ?_, hNext⟩
        rw [← hPending]
    · constructor
      · rintro ⟨-, -, hArena⟩
        have hMoves := loadPlugin_moves hRun hLate
        exact absurd hArena (Nat.ne_of_gt hMoves)
      · rintro ⟨hEarly, -⟩
        exact absurd hEarly hLate

end Ends

/-! ## A load that fails early, and one that fails late -/

theorem failed_restores_empty_file :
    ∃ s', (smallEnv []).loadLibrary 2 "x.dll".toList smallState = some (.ok 0, s') ∧ Restored (smallEnv []) smallState s' := by
  obtain ⟨p, hRun⟩ := Option.isSome_iff_exists.mp
    (show ((smallEnv []).loadPlugin 2 "x.dll".toList ((smallEnv []).moduleName "x.dll".toList) smallState).isSome = true by decide)
  have hNone : (((smallEnv []).loadPlugin 2 "x.dll".toList ((smallEnv []).moduleName "x.dll".toList) smallState).map
      fun p => p.1.toOption) = some (some none) := by decide
  rw [hRun, Option.map_some, Option.some_inj] at hNone
  have hFails : Fails (smallEnv []) 2 smallState "x.dll".toList p.2 := by
    refine ⟨by decide, by decide, by decide, p.1, hRun, fun base hSome => ?_⟩
    rw [hSome] at hNone
    cases hNone
  exact ⟨p.2, hFails.returns_zero, (failed_restores_iff hFails).mpr ⟨.inr (.inl (by decide)), rfl⟩⟩

/-- A module that imports one function, and has the cell for it outside of its image. -/
def strayIat : List U8 :=
  Loader.smallFile [⟨0, 0⟩, ⟨0x1000, 40⟩] 0x1000
    (Loader.le32 0x1028 ++ Loader.zeros 8 ++ Loader.le32 0x1030 ++ Loader.le32 0x7FFF0000 ++ Loader.zeros 20 ++
      Loader.le32 0x80000001 ++ Loader.zeros 4 ++ [0x61, 0])

set_option maxRecDepth 20000 in
/-- The binding of the import fails and with it the load, but afterwards the module has a handle: its base. -/
theorem failed_load_leaves_module :
    ∃ s', Fails (smallEnv strayIat) 2 smallState "x.dll".toList s' ∧ ¬Restored (smallEnv strayIat) smallState s' ∧
      (((smallEnv strayIat).moduleHandle "x.dll".toList s').map fun q => q.1.toOption) = some (some 0x20000000) := by
  have hView : (((smallEnv strayIat).loadPlugin 2 "x.dll".toList ((smallEnv strayIat).moduleName "x.dll".toList) smallState).map
      fun p => (p.1.toOption, p.2.dll.loading, ((smallEnv strayIat).moduleHandle "x.dll".toList p.2).map fun q => q.1.toOption)) =
        some (none, ["x.dll".toList], some (some 0x20000000)) := by decide +kernel
  obtain ⟨p, hRun, hSeen⟩ := Option.map_eq_some_iff.mp hView
  rw [Prod.mk.injEq, Prod.mk.injEq] at hSeen
  obtain ⟨hErr, hLoading, hHandle⟩ := hSeen
  refine ⟨p.2, ⟨by decide, by decide +kernel, by decide +kernel, p.1, hRun, fun base hSome => ?_⟩, ?_, hHandle⟩
  · rw [hSome] at hErr
    cases hErr
  · rintro ⟨-, hTables, -⟩
    have hSame := congrArg DllLoader.loading hTables
    dsimp only at hSame
    rw [hLoading] at hSame
    cases hSame

end DllEnv

end Exemu.Os
