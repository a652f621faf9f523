import Exemu.Library.Path

/-! # The sandbox translation of guest paths -/
namespace Exemu.Os

open Exemu.Path

/-- What the translation reads of the configuration, of the process and of the host's files. -/
structure HostFiles where
  sandbox : Text
  wineDllDir : Option Text
  wow64Peb32 : Nat
  present : Text → Bool

def trimVerbatim : Text → Text
  | '\\' :: '\\' :: '?' :: '\\' :: rest => trimVerbatim rest
  | guest => guest

def cleaned (guest : Text) : Text :=
  (trimVerbatim guest).map fun c => if c = '\\' then '/' else c

def pushComponent (out comp : Text) : Text :=
  if comp = [] ∨ comp = ['.'] ∨ comp = ['.', '.'] then out
  else if comp.getLast? = some ':' then push out comp.dropLast
  else push out comp

def stripNtPrefix (name : Text) : Text :=
  let prefixes := ["\\??\\".toList, "\\\\?\\".toList, "\\DosDevices\\".toList, "\\GLOBAL??\\".toList]
  match prefixes.find? (·.isPrefixOf name) with
  | some p => name.drop p.length
  | none => name

/-- The position of the first occurrence of `m`. -/
def find (m : Text) : Text → Option Nat
  | [] => if m = [] then some 0 else none
  | c :: cs => if m.isPrefixOf (c :: cs) then some 0 else (find m cs).map (· + 1)

def systemDirs : List Text :=
  ["\\windows\\system32\\".toList, "\\windows\\syswow64\\".toList]

def redirectLeaf (guest : Text) : Option Text := do
  let cleaned := (stripNtPrefix guest).map fun c => if c = '/' then '\\' else c
  let lower := cleaned.map Char.toLower
  let (pos, mlen) ← systemDirs.findSome? fun m => (find m lower).map fun p => (p, m.length)
  let leaf := cleaned.drop (pos + mlen)
  if leaf = [] ∨ '\\' ∈ leaf then none else some leaf

namespace HostFiles

def dllDir (files : HostFiles) : Option Text := do
  let dir ← files.wineDllDir
  if files.wow64Peb32 ≠ 0 then
    some (((parent dir).map (push · "i386-windows".toList)).getD "i386-windows".toList)
  else some dir

def wineDllRedirect (files : HostFiles) (guest : Text) : Option Text := do
  let dir ← files.dllDir
  let leaf ← redirectLeaf guest
  some (push dir leaf)

def sandboxPath (files : HostFiles) (guest : Text) : Text :=
  ((cleaned guest).splitOn '/').foldl pushComponent files.sandbox

def redirect (files : HostFiles) (guest : Text) : Option Text :=
  if files.present (files.sandboxPath guest) then none else files.wineDllRedirect guest

def hostPath (files : HostFiles) (guest : Text) : Option Text :=
  if files.sandbox = [] then none
  else some ((files.redirect guest).getD (files.sandboxPath guest))

end HostFiles

/-! ## Where a translated path may lie -/

/-- Below the root, with ordinary names only: no parent step and no absolute component. -/
def Inside (root path : Text) : Prop :=
  ∃ names : List Text, components path = components root ++ names.map .normal

def DirectlyInside (dir path : Text) : Prop :=
  ∃ name : Text, components path = components dir ++ [.normal name]

namespace HostFiles

def Confined (files : HostFiles) (guest path : Text) : Prop :=
  match files.redirect guest with
  | some _ => ∃ dir, files.dllDir = some dir ∧ DirectlyInside dir path
  | none => Inside files.sandbox path

/-- No component that a colon turns into a parent step, and no dot name below a redirected directory. -/
def Harmless (files : HostFiles) (guest : Text) : Prop :=
  match files.redirect guest with
  | some _ => redirectLeaf guest ≠ some ['.'] ∧ redirectLeaf guest ≠ some ['.', '.']
  | none => ['.', '.', ':'] ∉ (cleaned guest).splitOn '/'

end HostFiles

/-! ## The names the translation pushes -/

def pushedName (comp : Text) : Option Text :=
  if comp = [] ∨ comp = ['.'] ∨ comp = ['.', '.'] then none
  else if comp.getLast? = some ':' then some comp.dropLast
  else some comp

theorem pushComponent_eq (out comp : Text) :
    pushComponent out comp = (pushedName comp).toList.foldl push out := by
  unfold pushComponent pushedName
  split
  · rfl
  · split <;> rfl

theorem foldl_pushComponent (comps : List Text) (out : Text) :
    comps.foldl pushComponent out = (comps.filterMap pushedName).foldl push out := by
  induction comps generalizing out with
  | nil => rfl
  | cons comp comps ih =>
    rw [List.foldl_cons, ih, pushComponent_eq, List.filterMap_cons]
    cases pushedName comp <;> rfl

theorem pushedName_subset {comp name : Text} (h : pushedName comp = some name) : ∀ c ∈ name, c ∈ comp := by
  unfold pushedName at h
  split at h
  · cases h
  · split at h
    · cases h
      exact fun c hc => List.dropLast_subset _ hc
    · cases h
      exact fun c hc => hc

theorem pushedName_eq_parent (comp : Text) : pushedName comp = some ['.', '.'] ↔ comp = ['.', '.', ':'] := by
  constructor
  · intro h
    unfold pushedName at h
    split at h
    · cases h
    · rename_i hNamed
      split at h
      · rename_i hColon
        have hDrop : comp.dropLast = ['.', '.'] := Option.some.inj h
        rw [← List.dropLast_append_getLast? ':' hColon, hDrop]
        rfl
      · cases h
        exact absurd (by simp) hNamed
  · rintro rfl
    decide

theorem pushed_names_relative (guest : Text) :
    ∀ name ∈ ((cleaned guest).splitOn '/').filterMap pushedName, '/' ∉ name := by
  intro name hName hSlash
  obtain ⟨comp, hComp, hPushed⟩ := List.mem_filterMap.mp hName
  exact not_mem_splitOn hComp (pushedName_subset hPushed _ hSlash)

theorem parent_mem_pushed_names (guest : Text) :
    ['.', '.'] ∈ ((cleaned guest).splitOn '/').filterMap pushedName ↔
      ['.', '.', ':'] ∈ (cleaned guest).splitOn '/' := by
  simp only [List.mem_filterMap, pushedName_eq_parent, exists_eq_right]

theorem redirectLeaf_name {guest leaf : Text} (h : redirectLeaf guest = some leaf) :
    leaf ≠ [] ∧ '/' ∉ leaf := by
  simp only [redirectLeaf, Option.bind_eq_bind, Option.bind_eq_some_iff] at h
  obtain ⟨⟨pos, mlen⟩, -, h⟩ := h
  split at h
  · cases h
  · rename_i hLeaf
    cases h
    refine ⟨fun hEmpty => hLeaf (.inl hEmpty), fun hSlash => ?_⟩
    obtain ⟨c, -, hc⟩ := List.mem_map.mp (List.mem_of_mem_drop hSlash)
    split at hc
    · cases hc
    · exact absurd hc ‹_›

namespace HostFiles

variable {files : HostFiles}

theorem components_sandboxPath (hSandbox : files.sandbox ≠ []) (guest : Text) :
    components (files.sandboxPath guest) = components files.sandbox ++
      (((cleaned guest).splitOn '/').filterMap pushedName).filterMap named := by
  rw [sandboxPath, foldl_pushComponent,
    components_foldl_push (pushed_names_relative guest) hSandbox]

theorem redirect_eq_some {guest path : Text} (h : files.redirect guest = some path) :
    ∃ dir leaf, files.dllDir = some dir ∧ redirectLeaf guest = some leaf ∧ path = push dir leaf := by
  rw [redirect] at h
  split at h
  · cases h
  · simp only [wineDllRedirect, Option.bind_eq_bind, Option.bind_eq_some_iff] at h
    obtain ⟨dir, hDir, leaf, hLeaf, hPath⟩ := h
    exact ⟨dir, leaf, hDir, hLeaf, (Option.some.inj hPath).symm⟩

theorem sandboxPath_inside (hSandbox : files.sandbox ≠ []) (guest : Text) :
    Inside files.sandbox (files.sandboxPath guest) ↔ ['.', '.', ':'] ∉ (cleaned guest).splitOn '/' := by
  rw [Inside, ← parent_mem_pushed_names, ← all_normal_iff]
  simp only [components_sandboxPath hSandbox, List.append_cancel_left_eq]

theorem push_directlyInside {dir leaf : Text} (hEmpty : leaf ≠ []) (hLeaf : '/' ∉ leaf) :
    DirectlyInside dir (push dir leaf) ↔ leaf ≠ ['.'] ∧ leaf ≠ ['.', '.'] := by
  constructor
  · rintro ⟨name, hName⟩
    refine ⟨fun hDot => ?_, fun hDots => ?_⟩
    · subst hDot
      by_cases hDir : dir = []
      · subst hDir
        have hDot : components (push [] ['.']) = [.curDir] := by decide
        rw [hDot, components_nil] at hName
        simp at hName
      · rw [components_push hDir hLeaf] at hName
        simp [named] at hName
    · subst hDots
      by_cases hDir : dir = []
      · subst hDir
        rw [components_push_nil hLeaf (by decide), components_nil] at hName
        simp [named] at hName
      · rw [components_push hDir hLeaf] at hName
        simp [named] at hName
  · rintro ⟨hDot, hDots⟩
    have hNamed : named leaf = some (.normal leaf) := (named_eq_normal leaf leaf).mpr ⟨rfl, hEmpty, hDot, hDots⟩
    refine ⟨leaf, ?_⟩
    by_cases hDir : dir = []
    · subst hDir
      rw [components_push_nil hLeaf hDot, hNamed, components_nil]
      rfl
    · rw [components_push hDir hLeaf, hNamed]
      rfl

/-- A translated path stays below its base exactly for the harmless guest strings. -/
theorem host_path_confined_iff (files : HostFiles) (guest path : Text)
    (hPath : files.hostPath guest = some path) :
    files.Confined guest path ↔ files.Harmless guest := by
  rw [hostPath] at hPath
  split at hPath
  · cases hPath
  · rename_i hSandbox
    have hPath := Option.some.inj hPath
    rw [Confined, Harmless]
    cases hRedirect : files.redirect guest with
    | none =>
      rw [hRedirect, Option.getD_none] at hPath
      subst hPath
      exact sandboxPath_inside hSandbox guest
    | some target =>
      rw [hRedirect, Option.getD_some] at hPath
      subst hPath
      obtain ⟨dir, leaf, hDir, hLeaf, rfl⟩ := redirect_eq_some hRedirect
      obtain ⟨hEmpty, hSlash⟩ := redirectLeaf_name hLeaf
      simp only [hDir, hLeaf, Option.some.injEq, exists_eq_left', ne_eq]
      exact push_directlyInside hEmpty hSlash

def emptySandbox : HostFiles where
  sandbox := "/sandbox".toList
  wineDllDir := some "/wine".toList
  wow64Peb32 := 0
  present _ := false

theorem host_path_confined_notepad :
    emptySandbox.hostPath "\\\\?\\C:\\..\\tmp/notes.txt".toList = some "/sandbox/C/tmp/notes.txt".toList ∧
      emptySandbox.Confined "\\\\?\\C:\\..\\tmp/notes.txt".toList "/sandbox/C/tmp/notes.txt".toList := by
  have hPath : emptySandbox.hostPath "\\\\?\\C:\\..\\tmp/notes.txt".toList =
      some "/sandbox/C/tmp/notes.txt".toList := by decide
  refine ⟨hPath, (host_path_confined_iff emptySandbox _ _ hPath).mpr ?_⟩
  have hRedirect : emptySandbox.redirect "\\\\?\\C:\\..\\tmp/notes.txt".toList = none := by decide
  rw [Harmless, hRedirect]
  decide

/-- A component of two dots and a colon is pushed as a parent step. -/
theorem colon_climbs_out :
    emptySandbox.hostPath "C:\\..:\\..:\\etc".toList = some "/sandbox/C/../../etc".toList ∧
      ¬(Inside emptySandbox.sandbox "/sandbox/C/../../etc".toList ∨
        ∃ dir, emptySandbox.dllDir = some dir ∧ DirectlyInside dir "/sandbox/C/../../etc".toList) := by
  refine ⟨by decide, ?_⟩
  have hPath : components "/sandbox/C/../../etc".toList =
      [.rootDir, .normal "sandbox".toList, .normal ['C'], .parentDir, .parentDir, .normal "etc".toList] := by
    decide
  have hSandbox : components emptySandbox.sandbox = [.rootDir, .normal "sandbox".toList] := by decide
  have hWine : emptySandbox.dllDir = some "/wine".toList := by decide
  have hWineComponents : components "/wine".toList = [.rootDir, .normal "wine".toList] := by decide
  rintro (⟨names, hNames⟩ | ⟨dir, hDir, name, hName⟩)
  · rw [hPath, hSandbox] at hNames
    rcases names with _ | ⟨a, _ | ⟨b, names⟩⟩ <;> simp at hNames
  · cases hWine.symm.trans hDir
    rw [hPath, hWineComponents] at hName
    simp at hName

end HostFiles

end Exemu.Os
