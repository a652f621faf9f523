import Exemu.Loader.Parse
import Mathlib.Data.List.Pairwise

/-! # Sections share no address

The parser lets no image through whose sections overlap, and cuts the file part of each so that it
ends before the next one begins.
-/
namespace Exemu.Loader

def Section.Apart (s t : Section) : Prop :=
  s.rva.toNat + s.vsize ≤ t.rva.toNat ∨ t.rva.toNat + t.vsize ≤ s.rva.toNat

instance : Std.Symm Section.Apart := ⟨fun _ _ h => Or.symm h⟩

structure Laid (sections : List Section) : Prop where
  apart : sections.Pairwise Section.Apart
  small : ∀ s ∈ sections, s.data.length < 2 ^ 32

section Limits

variable {L : List (SectionHeader × Nat)} {limits limits' : List Nat}

def Ends (limits : List Nat) (a b : SectionHeader × Nat) : Prop :=
  a.1.virtualEnd ≤ b.1.rva.toNat ∧ ∀ l, limits[a.2]? = some l → a.1.rva.toNat + l ≤ b.1.rva.toNat

theorem limitRaw_frame (h : limitRaw L limits = .ok limits') {i : Nat} (hi : i ∉ L.map Prod.snd) : limits'[i]? = limits[i]? := by
  fun_induction limitRaw L limits with
  | case1 cur j next k rest limits hOver => cases h
  | case2 cur j next k rest limits hOver ih =>
    rw [List.map_cons, List.mem_cons, not_or] at hi
    rw [ih h hi.2, List.getElem?_set_ne fun hSame => hi.1 hSame.symm]
  | case3 =>
    cases h
    rfl

theorem limitRaw_ends (h : limitRaw L limits = .ok limits') (hNodup : (L.map Prod.snd).Nodup) : L.Pairwise (Ends limits') := by
  fun_induction limitRaw L limits with
  | case1 cur j next k rest limits hOver => cases h
  | case2 cur j next k rest limits hOver ih =>
    rw [List.map_cons, List.nodup_cons] at hNodup
    have hRest := ih h hNodup.2
    have hNext : Ends limits' (cur, j) (next, k) := by
      refine ⟨Nat.le_of_not_lt hOver, fun l hl => ?_⟩
      rw [limitRaw_frame h hNodup.1] at hl
      obtain ⟨hj, hSet⟩ := List.getElem?_eq_some_iff.mp hl
      rw [List.getElem_set_self] at hSet
      have hEnd : cur.virtualEnd = cur.rva.toNat + cur.virtualSpan := rfl
      dsimp only
      omega
    refine List.pairwise_cons.mpr ⟨fun b hb => ?_, hRest⟩
    rcases List.mem_cons.mp hb with rfl | hb
    · exact hNext
    · have hLater := ((List.pairwise_cons.mp hRest).1 b hb).1
      have hSpan : next.virtualEnd = next.rva.toNat + next.virtualSpan := rfl
      dsimp only at hLater
      refine ⟨hNext.1.trans (by dsimp only; omega), fun l hl => ?_⟩
      have hLimit := hNext.2 l hl
      dsimp only at hLimit ⊢
      omega
  | case3 L limits hShort =>
    cases L with
    | nil => exact List.Pairwise.nil
    | cons a L =>
      cases L with
      | nil => exact List.pairwise_singleton _ _
      | cons b L => exact (hShort a.1 a.2 b.1 b.2 L rfl).elim

theorem rawCopyLimits_apart {headers : List SectionHeader} (h : rawCopyLimits headers = .ok limits) :
    headers.zipIdx.Pairwise fun a b => Ends limits a b ∨ Ends limits b a := by
  have hPerm := List.perm_insertionSort (fun a b : SectionHeader × Nat => a.1.Before b.1) headers.zipIdx
  have hNodup : (headers.zipIdx.map Prod.snd).Nodup := by
    rw [List.zipIdx_map_snd]
    exact List.nodup_range'
  have hSorted := limitRaw_ends h ((hPerm.map Prod.snd).nodup_iff.mpr hNodup)
  exact (hPerm.pairwise_iff fun hab => hab.symm).mp (hSorted.imp .inl)

end Limits

section Cut

variable {bytes : List U8}

/-- What cutting a section out of the file makes of its header. -/
structure CutFrom (h : SectionHeader) (limit : Nat) (s : Section) : Prop where
  rva : s.rva = h.rva
  virtualSize : s.virtualSize = h.virtualSize
  raw : s.data.length ≤ h.sizeRaw
  limit : s.data.length ≤ limit

theorem slice_length {off len : Nat} {bs : List U8} (h : Reader.slice bytes off len = .ok bs) : bs.length = len := by
  unfold Reader.slice at h
  split at h
  · cases h
    rw [List.length_take, List.length_drop]
    omega
  · cases h

theorem cutSection_ok {h : SectionHeader} {limit : Nat} {s : Section} (hCut : cutSection bytes h limit = .ok s) :
    CutFrom h limit s := by
  unfold cutSection at hCut
  split at hCut
  · cases hCut
    exact ⟨rfl, rfl, Nat.zero_le _, Nat.zero_le _⟩
  · obtain ⟨data, hSlice, hRest⟩ := ok_of_bind hCut
    cases hRest
    have hLen := slice_length hSlice
    exact ⟨rfl, rfl, by dsimp only; omega, by dsimp only; omega⟩

theorem cutSections_ok {pairs : List (SectionHeader × Nat)} {sections : List Section} (h : cutSections bytes pairs = .ok sections) :
    List.Forall₂ (fun p s => CutFrom p.1 p.2 s) pairs sections := by
  induction pairs generalizing sections with
  | nil =>
    cases h
    exact .nil
  | cons p pairs ih =>
    obtain ⟨s, hCut, hLater⟩ := ok_of_bind h
    obtain ⟨rest, hRest, hDone⟩ := ok_of_bind hLater
    cases hDone
    exact .cons (cutSection_ok hCut) (ih hRest)

theorem CutFrom.reach {h : SectionHeader} {limit n : Nat} {s : Section} (hCut : CutFrom h limit s)
    (hEnd : h.virtualEnd ≤ n) (hLimit : h.rva.toNat + limit ≤ n) : s.rva.toNat + s.vsize ≤ n := by
  obtain ⟨hRva, hSize, hRaw, hLen⟩ := hCut
  have hMod := Nat.mod_le s.data.length (2 ^ 32)
  unfold SectionHeader.virtualEnd SectionHeader.virtualSpan at hEnd
  unfold Section.vsize
  rw [hRva, hSize]
  split at hEnd
  · omega
  · rename_i hZero
    have hNone : h.virtualSize.toNat = 0 := congrArg BitVec.toNat (not_not.mp hZero)
    omega

theorem sizeRaw_lt {secTable n i : Nat} {headers : List SectionHeader} (h : readSectionHeaders bytes secTable n i = .ok headers) :
    ∀ s ∈ headers, s.sizeRaw < 2 ^ 32 := by
  induction n generalizing i headers with
  | zero =>
    cases h
    exact fun s hs => absurd hs List.not_mem_nil
  | succ n ih =>
    obtain ⟨s, hRead, hLater⟩ := ok_of_bind h
    obtain ⟨rest, hRest, hDone⟩ := ok_of_bind hLater
    cases hDone
    refine List.forall_mem_cons.mpr ⟨?_, ih hRest⟩
    obtain ⟨rawName, -, hRead⟩ := ok_of_bind hRead
    obtain ⟨virtualSize, -, hRead⟩ := ok_of_bind hRead
    obtain ⟨rva, -, hRead⟩ := ok_of_bind hRead
    obtain ⟨sizeRaw, -, hRead⟩ := ok_of_bind hRead
    obtain ⟨ptrRaw, -, hRead⟩ := ok_of_bind hRead
    obtain ⟨chars, -, hRead⟩ := ok_of_bind hRead
    cases hRead
    exact sizeRaw.isLt

end Cut

theorem cutSections_get {bytes : List U8} {headers : List SectionHeader} {limits : List Nat} {sections : List Section}
    (h : cutSections bytes (headers.zip limits) = .ok sections) {i : Nat} (hi : i < sections.length) :
    ∃ (hh : i < headers.length) (hl : i < limits.length), CutFrom headers[i] limits[i] sections[i] := by
  have hEach := cutSections_ok h
  have hLen := hEach.length_eq
  rw [List.length_zip] at hLen
  have hFrom := hEach.get (i := i) (by rw [List.length_zip]; omega) hi
  rw [List.get_eq_getElem, List.get_eq_getElem, List.getElem_zip] at hFrom
  exact ⟨by omega, by omega, hFrom⟩

theorem readSections_laid {bytes : List U8} {h : Headers} {sections : List Section} (hRead : readSections bytes h = .ok sections) :
    Laid sections := by
  obtain ⟨headers, hHeaders, hLater⟩ := ok_of_bind hRead
  obtain ⟨limits, hLimits, hCut⟩ := ok_of_bind hLater
  have hApart := List.pairwise_iff_getElem.mp (rawCopyLimits_apart hLimits)
  refine ⟨List.pairwise_iff_getElem.mpr fun i j hi hj hij => ?_, fun s hs => ?_⟩
  · obtain ⟨hi', hil, hFrom⟩ := cutSections_get hCut hi
    obtain ⟨hj', hjl, hFrom'⟩ := cutSections_get hCut hj
    have hEnds := hApart i j (by rwa [List.length_zipIdx]) (by rwa [List.length_zipIdx]) hij
    rw [List.getElem_zipIdx, List.getElem_zipIdx, Nat.zero_add, Nat.zero_add] at hEnds
    rcases hEnds with hEnds | hEnds
    · left
      rw [hFrom'.rva]
      exact hFrom.reach hEnds.1 (hEnds.2 _ (List.getElem?_eq_getElem hil))
    · right
      rw [hFrom.rva]
      exact hFrom'.reach hEnds.1 (hEnds.2 _ (List.getElem?_eq_getElem hjl))
  · obtain ⟨i, hi, rfl⟩ := List.getElem_of_mem hs
    obtain ⟨hi', hil, hFrom⟩ := cutSections_get hCut hi
    exact lt_of_le_of_lt hFrom.raw (sizeRaw_lt hHeaders _ (List.getElem_mem hi'))

namespace Laid

variable {sections : List Section} {s t : Section}

theorem unique (h : Laid sections) (hs : s ∈ sections) (ht : t ∈ sections) {a : Nat} (hIn : s.covers a = true)
    (hIn' : t.covers a = true) : s = t := by
  rw [Section.covers_iff] at hIn hIn'
  by_contra hNe
  have hApart := h.apart.forall hs ht hNe
  unfold Section.Apart at hApart
  omega

theorem vsize_eq (h : Laid sections) (hs : s ∈ sections) : s.vsize = max s.virtualSize.toNat s.data.length := by
  rw [Section.vsize, Nat.mod_eq_of_lt (h.small s hs)]

theorem find (h : Laid sections) (hs : s ∈ sections) {a : Nat} (hIn : s.covers a = true) :
    (sections.find? fun s => s.covers a) = some s := by
  cases hFind : sections.find? fun s => s.covers a with
  | none => exact absurd hIn (List.find?_eq_none.mp hFind s hs)
  | some t =>
    have hIn' := List.find?_some hFind
    rw [h.unique (List.mem_of_find?_eq_some hFind) hs hIn' hIn]

theorem readAtRva (h : Laid sections) (hs : s ∈ sections) {rva : U32} (hIn : s.covers rva.toNat = true) :
    readAtRva sections rva = some (s, rva.toNat - s.rva.toNat) := by
  rw [Loader.readAtRva, h.find hs hIn]
  rfl

end Laid

end Exemu.Loader
