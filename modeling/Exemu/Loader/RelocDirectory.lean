import Exemu.Loader.Mapped
import Exemu.Loader.Reloc
import Exemu.Memory.Access

/-! # What a relocation directory names

The format, as bytes: a row of blocks, each with its page, its size and its entries, filled up
with zeros.
-/
namespace Exemu.Loader

open BitVec List

open Walk

def entriesNamed (page : U32) : List U8 → List Reloc
  | lo :: hi :: rest =>
    let v : U16 := (fromLe [lo, hi]).setWidth 16
    if (v >>> 12).setWidth 8 = (0 : U8) then entriesNamed page rest
    else ⟨page + (v &&& 0x0FFF).setWidth 32, (v >>> 12).setWidth 8⟩ :: entriesNamed page rest
  | _ => []

/-- The bytes of a directory that names these numbers, block after block. -/
inductive Names : List U8 → List Reloc → Prop
  | fill (n : Nat) : Names (List.replicate n 0) []
  | block (page : U32) (entries rest : List U8) (named : List Reloc) (hRest : Names rest named) :
    Names (toLe 4 (page.setWidth 64) ++ (toLe 4 ((BitVec.ofNat 32 (entries.length + 8)).setWidth 64) ++ (entries ++ rest)))
      (entriesNamed page entries ++ named)

/-- All of `[rva, rva + bytes.length)` is in one section's part of the file, and these are the bytes. -/
def Holds (sections : List Section) (rva : U32) (bytes : List U8) : Prop :=
  rva.toNat + bytes.length ≤ 2 ^ 32 ∧
    ∃ s ∈ sections, s.rva.toNat ≤ rva.toNat ∧ rva.toNat - s.rva.toNat + bytes.length ≤ s.data.length ∧
      (s.data.drop (rva.toNat - s.rva.toNat)).take bytes.length = bytes

section Reads

variable {sections : List Section} {rva : U32} {bytes : List U8}

theorem add_ofNat_toNat {rva : U32} {off : Nat} (h : rva.toNat + off < 2 ^ 32) : (rva + BitVec.ofNat 32 off).toNat = rva.toNat + off := by
  rw [toNat_add, toNat_ofNat]
  omega

variable {off : Nat} {rest : List U8}

theorem Holds.slice (hLaid : Laid sections) (h : Holds sections rva bytes) {n : Nat} (hn : 0 < n) (hEnd : off + n ≤ bytes.length) :
    sliceAt sections (rva + BitVec.ofNat 32 off) n = .ok ((bytes.drop off).take n) := by
  obtain ⟨hTop, s, hs, hLow, hHigh, hBytes⟩ := h
  have hAddr := @add_ofNat_toNat rva off (by omega)
  have hIn : s.covers (rva + BitVec.ofNat 32 off).toNat = true := by
    rw [Section.covers_iff, hLaid.vsize_eq hs, hAddr]
    omega
  rw [sliceAt, hLaid.readAtRva hs hIn]
  dsimp only
  rw [hAddr, if_pos (by omega)]
  congr 1
  rw [← hBytes, drop_take, take_take, List.drop_drop, min_eq_left (by omega)]
  congr 2
  omega

theorem fromLe_toLe_four (v : U32) : (fromLe (toLe 4 (v.setWidth 64))).setWidth 32 = v :=
  fromLe_toLe_setWidth (Nat.le_refl 32) (by decide) v

theorem Holds.read32 (hLaid : Laid sections) (h : Holds sections rva bytes) {v : U32}
    (hBytes : bytes.drop off = toLe 4 (v.setWidth 64) ++ rest) :
    (readU32 (rva + BitVec.ofNat 32 off)).result (fileAnswer sections) = .ok v := by
  have hLen := congrArg List.length hBytes
  rw [length_drop, List.length_append, length_toLe] at hLen
  show ofResult (sliceU32 sections _) = _
  rw [sliceU32, h.slice hLaid (Nat.succ_pos 3) (by omega), hBytes, take_left' (length_toLe 4 _)]
  exact congrArg Except.ok (fromLe_toLe_four v)

theorem Holds.read16 (hLaid : Laid sections) (h : Holds sections rva bytes) {lo hi : U8} (hBytes : bytes.drop off = lo :: hi :: rest) :
    (readU16 (rva + BitVec.ofNat 32 off)).result (fileAnswer sections) = .ok ((fromLe [lo, hi]).setWidth 16) := by
  have hLen := congrArg List.length hBytes
  rw [length_drop, length_cons, length_cons] at hLen
  show ofResult (sliceU16 sections _) = _
  rw [sliceU16, h.slice hLaid (Nat.succ_pos 1) (by omega), hBytes]
  rfl

theorem relocEntry_result {page block e : U32} {relocs : List Reloc} {v : U16}
    (hRead : (readU16 (block + 8 + e * 2)).result (fileAnswer sections) = .ok v) :
    (relocEntry page block e relocs).result (fileAnswer sections) =
      .ok (if (v >>> 12).setWidth 8 = (0 : U8) then relocs
        else relocs ++ [⟨page + (v &&& 0x0FFF).setWidth 32, (v >>> 12).setWidth 8⟩]) := by
  rw [relocEntry, result_bind, hRead]
  show Walk.result _ (if _ then _ else _) = _
  split
  · rfl
  · rfl

theorem Holds.relocEntries (hLaid : Laid sections) (h : Holds sections rva bytes) (page : U32) {e n : Nat} {tail : List U8}
    (relocs : List Reloc) (hBytes : bytes.drop (off + 8 + 2 * e) = tail ++ rest) (hn : n = tail.length / 2) :
    (forFrom (relocEntry page (rva + BitVec.ofNat 32 off)) n (BitVec.ofNat 32 e) relocs).result (fileAnswer sections) =
      .ok (relocs ++ entriesNamed page tail) := by
  induction n generalizing e tail relocs with
  | zero =>
    have hNone : entriesNamed page tail = [] := by
      cases tail with
      | nil => rfl
      | cons lo tail =>
        cases tail with
        | nil => rfl
        | cons hi tail => exact absurd hn (by rw [length_cons, length_cons]; omega)
    rw [hNone, append_nil]
    rfl
  | succ n ih =>
    obtain ⟨lo, hi, tail, rfl⟩ : ∃ lo hi tail', tail = lo :: hi :: tail' := by
      cases tail with
      | nil => exact absurd hn (Nat.succ_ne_zero n)
      | cons lo tail =>
        cases tail with
        | nil => exact absurd hn (by rw [length_singleton]; omega)
        | cons hi tail => exact ⟨lo, hi, tail, rfl⟩
    rw [length_cons, length_cons] at hn
    have hAt : rva + BitVec.ofNat 32 off + 8 + BitVec.ofNat 32 e * 2 = rva + BitVec.ofNat 32 (off + 8 + 2 * e) := by
      rw [BitVec.ofNat_add, BitVec.ofNat_add, BitVec.ofNat_mul, BitVec.mul_comm, BitVec.add_assoc, BitVec.add_assoc, BitVec.add_assoc]
      rfl
    have hRead := h.read16 hLaid hBytes
    rw [← hAt] at hRead
    have hNext : bytes.drop (off + 8 + 2 * (e + 1)) = tail ++ rest := by
      rw [show off + 8 + 2 * (e + 1) = off + 8 + 2 * e + 2 by omega, ← List.drop_drop, hBytes]
      rfl
    rw [forFrom, result_bind, relocEntry_result hRead]
    show Walk.result _ (forFrom _ n (BitVec.ofNat 32 e + 1) _) = _
    rw [show BitVec.ofNat 32 e + 1 = BitVec.ofNat 32 (e + 1) from (BitVec.ofNat_add e 1).symm, ih _ hNext (by omega)]
    rw [entriesNamed]
    split
    · rfl
    · rw [List.append_assoc]
      rfl

theorem Holds.header (hLaid : Laid sections) (h : Holds sections rva bytes) {off : Nat} {page size : U32} {rest : List U8}
    (hBytes : bytes.drop off = toLe 4 (page.setWidth 64) ++ (toLe 4 (size.setWidth 64) ++ rest)) :
    (readU32 (rva + BitVec.ofNat 32 off)).result (fileAnswer sections) = .ok page ∧
      (readU32 (rva + BitVec.ofNat 32 off + 4)).result (fileAnswer sections) = .ok size := by
  refine ⟨h.read32 hLaid hBytes, ?_⟩
  have hNext : bytes.drop (off + 4) = toLe 4 (size.setWidth 64) ++ rest := by
    rw [← List.drop_drop, hBytes, List.drop_left' (length_toLe 4 _)]
  have hRead := h.read32 hLaid hNext
  rwa [BitVec.ofNat_add, ← BitVec.add_assoc] at hRead

theorem relocBlocks_result (hLaid : Laid sections) (h : Holds sections rva bytes) {named : List Reloc} (hNames : Names rest named)
    {n : Nat} (relocs : List Reloc) (hBytes : bytes.drop off = rest) (hOff : off ≤ bytes.length) (hn : rest.length / 8 ≤ n)
    (hSize : bytes.length < 2 ^ 32) :
    (relocBlocks rva (BitVec.ofNat 32 bytes.length) n (BitVec.ofNat 32 off) relocs).result (fileAnswer sections) =
      .ok (relocs ++ named) := by
  have hDir : (BitVec.ofNat 32 bytes.length).toNat = bytes.length := by
    rw [toNat_ofNat, Nat.mod_eq_of_lt hSize]
  induction hNames generalizing off n relocs with
  | fill k =>
    rw [append_nil]
    cases n with
    | zero => rfl
    | succ n =>
      have hLen := congrArg List.length hBytes
      rw [length_drop, length_replicate] at hLen
      have hOffNat : (BitVec.ofNat 32 off).toNat = off := by
        rw [toNat_ofNat, Nat.mod_eq_of_lt (by omega)]
      rw [relocBlocks, hDir, hOffNat]
      split
      · obtain ⟨j, rfl⟩ : ∃ j, k = 4 + (4 + j) := ⟨k - 8, by omega⟩
        have hZeros : List.replicate (4 + (4 + j)) (0 : U8) =
            toLe 4 ((0 : U32).setWidth 64) ++ (toLe 4 ((0 : U32).setWidth 64) ++ List.replicate j 0) := by
          rw [replicate_add, replicate_add]
          rfl
        rw [hZeros] at hBytes
        obtain ⟨hPage, hBlock⟩ := h.header hLaid hBytes
        rw [result_bind, hPage]
        show Walk.result _ (readU32 _ >>= _) = _
        rw [result_bind, hBlock]
        rfl
      · rfl
  | block page entries rest named hRest ih =>
    have hLen := congrArg List.length hBytes
    rw [length_drop, List.length_append, List.length_append, length_toLe, length_toLe, List.length_append] at hLen
    rw [List.length_append, List.length_append, length_toLe, length_toLe, List.length_append] at hn
    obtain ⟨n, rfl⟩ : ∃ n', n = n' + 1 := ⟨n - 1, by omega⟩
    have hOffNat : (BitVec.ofNat 32 off).toNat = off := by
      rw [toNat_ofNat, Nat.mod_eq_of_lt (by omega)]
    have hBlockNat : (BitVec.ofNat 32 (entries.length + 8)).toNat = entries.length + 8 := by
      rw [toNat_ofNat, Nat.mod_eq_of_lt (by omega)]
    obtain ⟨hPage, hBlock⟩ := h.header hLaid hBytes
    have hEntries : bytes.drop (off + 8 + 2 * 0) = entries ++ rest := by
      rw [Nat.mul_zero, Nat.add_zero, ← List.drop_drop, hBytes, ← List.append_assoc, List.drop_left']
      rw [List.length_append, length_toLe, length_toLe]
    have hLater : bytes.drop (off + (entries.length + 8)) = rest := by
      rw [show off + (entries.length + 8) = off + 8 + 2 * 0 + entries.length by omega, ← List.drop_drop, hEntries, drop_left]
    have hNext : saturatingAdd32 (BitVec.ofNat 32 off) (BitVec.ofNat 32 (entries.length + 8)) =
        BitVec.ofNat 32 (off + (entries.length + 8)) := by
      rw [saturatingAdd32, hOffNat, hBlockNat, if_pos (by omega), BitVec.ofNat_add off]
    rw [relocBlocks, hDir, hOffNat, if_pos (by omega), result_bind, hPage]
    show Walk.result _ (readU32 _ >>= _) = _
    rw [result_bind, hBlock]
    show Walk.result _ (if _ then _ else _) = _
    rw [if_neg (by rw [lt_def, hBlockNat]; exact Nat.not_lt.mpr (Nat.le_add_left 8 _)), result_bind, hBlockNat]
    have hRun : (forFrom (relocEntry page (rva + BitVec.ofNat 32 off)) ((entries.length + 8 - 8) / 2) 0 relocs).result
        (fileAnswer sections) = .ok (relocs ++ entriesNamed page entries) :=
      h.relocEntries hLaid page (e := 0) relocs hEntries (by omega)
    rw [hRun]
    show Walk.result _ (relocBlocks _ _ _ _ _) = _
    rw [hNext, ih _ hLater (by omega) (by omega), List.append_assoc]

end Reads

def Headers.NamesRelocs (h : Headers) (sections : List Section) (named : List Reloc) : Prop :=
  if h.dirs.relocs.rva ≠ 0 ∧ h.dirs.relocs.size ≠ 0 then
    ∃ bytes, bytes.length = h.dirs.relocs.size.toNat ∧ Holds sections h.dirs.relocs.rva bytes ∧ Names bytes named
  else named = []

theorem relocTable_names {h : Headers} {sections : List Section} {named : List Reloc} (hLaid : Laid sections)
    (hNames : h.NamesRelocs sections named) : h.relocTable.result (fileAnswer sections) = .ok named := by
  unfold Headers.NamesRelocs at hNames
  unfold Headers.relocTable
  by_cases hDir : h.dirs.relocs.rva ≠ 0 ∧ h.dirs.relocs.size ≠ 0
  · rw [if_pos hDir] at hNames
    obtain ⟨bytes, hLen, hHolds, hBytes⟩ := hNames
    have hSize := h.dirs.relocs.size.isLt
    have hDirSize : BitVec.ofNat 32 bytes.length = h.dirs.relocs.size := by
      rw [hLen]
      exact eq_of_toNat_eq (by rw [toNat_ofNat, Nat.mod_eq_of_lt hSize])
    have hFuel : bytes.length / 8 ≤ h.dirs.relocs.size.toNat / 8 := by omega
    have hRun := relocBlocks_result hLaid hHolds hBytes [] drop_zero (Nat.zero_le _) hFuel (by omega)
    rw [hDirSize, nil_append] at hRun
    rw [if_pos (by simpa using hDir), result_bind, result_ok, parseRelocs]
    have hOk := congrArg okOf hRun
    exact congrArg (fun x => Except.bind x fun a => Walk.result (fileAnswer sections) (pure (a.getD []))) hOk
  · rw [if_neg hDir] at hNames
    rw [if_neg (by simpa using hDir), hNames]
    rfl

end Exemu.Loader
