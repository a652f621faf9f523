import Exemu.Os.LoadFailure

/-! # Modules away from their preferred base

A module that is loaded at another base is right when every number its relocation directory names
has been adjusted once.
-/
namespace Exemu.Os

open Path (Text)
open Loader (Section Reloc PeImage Headers Laid fileByte AdjustedOnce)
open Fallible (bind_ok_run)

namespace DllEnv

section Loaded

variable {env : DllEnv} {fuel n : Nat} {path name file : Text} {bytes : List U8} {h : Headers} {image : PeImage} {s s' : DllState}
  {base : U64}

/-- The relocation directory is a row of blocks, whole in one section, and no byte belongs to two of the numbers it names. -/
def SoundRelocs (h : Headers) (image : PeImage) : Prop := ∃ named, h.NamesRelocs image.sections named ∧ named.Pairwise Reloc.Clear

/-- The sections that were mapped at `base` are those of the file with every number the directory names adjusted once. -/
def Rebased (env : DllEnv) (d : DllLoader) (h : Headers) (image : PeImage) (base : U64) : Prop :=
  ∃ sections named, (env.place d image).2 = some (base, sections) ∧ h.NamesRelocs image.sections named ∧
    AdjustedOnce (base - image.imageBase) named (fileByte image.sections) (fileByte sections)

theorem finish_base {b : U64} (hRun : env.finish name file base image s = some (.ok (some b), s')) : b = base := by
  obtain ⟨_, s₁, -, hBound⟩ := bind_ok_run hRun
  obtain ⟨_, s₂, -, hPushed⟩ := bind_ok_run hBound
  obtain ⟨_, s₃, -, hFound⟩ := bind_ok_run hPushed
  obtain ⟨_, s₄, -, hAdded⟩ := bind_ok_run hFound
  obtain ⟨_, s₅, -, hPopped⟩ := bind_ok_run hAdded
  split at hPopped
  · obtain ⟨_, s₆, -, hDone⟩ := bind_ok_run hPopped
    cases hDone
    rfl
  · cases hPopped
    rfl

theorem install_base {loadDep : Text → Load Unit} {sections : List Section} {b : U64}
    (hRun : env.install loadDep name file image base sections s = some (.ok (some b), s')) : b = base := by
  obtain ⟨_, s₁, -, hMapped⟩ := bind_ok_run hRun
  obtain ⟨_, s₂, -, hRegistered⟩ := bind_ok_run hMapped
  obtain ⟨_, s₃, -, hRead⟩ := bind_ok_run hRegistered
  obtain ⟨_, s₄, -, hDeps⟩ := bind_ok_run hRead
  exact finish_base hDeps

theorem loadPlugin_place (hOpen : env.openImage path name = some (file, image)) (hNew : s.dll.loading.contains name = false)
    (hLoad : env.loadPlugin fuel path name s = some (.ok (some base), s')) :
    ∃ sections, (env.place s.dll image).2 = some (base, sections) := by
  cases fuel with
  | zero => cases hLoad
  | succ fuel =>
    rcases loadPlugin_cases hLoad with ⟨-, -, hFresh, -⟩ | ⟨-, file', image', base', sections, hOpen', hPlace, hInstall⟩
    · have hNone := hFresh (by rw [hNew]; decide)
      cases hNone
    · rw [hOpen] at hOpen'
      cases hOpen'
      rw [install_base hInstall]
      exact ⟨sections, hPlace⟩

end Loaded

/-! ## A directory that is cut off -/

/-- The address of `0x401234` in the section, and a directory of 12 bytes that names it. The file ends before the directory does,
by `missing` bytes of padding. -/
def namesFirst (missing : Nat) : List U8 :=
  Loader.smallFile (List.replicate 5 ⟨0, 0⟩ ++ [⟨0x1004, 12⟩]) 0x1000
    (Loader.le32 0x401234 ++ Loader.le32 0x1000 ++ Loader.le32 12 ++ Loader.le16 0x3000 ++ Loader.zeros (2 - missing))

end DllEnv

end Exemu.Os
