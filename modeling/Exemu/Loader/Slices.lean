import Exemu.Loader.Mapping

/-! # Slices of a section are bytes of the file

A header says where the file has the section's part.
-/
namespace Exemu.Loader

open VirtualMemory (WellFormed)

structure TakenFrom (bytes : List U8) (h : SectionHeader) (s : Section) : Prop where
  rva : s.rva = h.rva
  short : s.data.length ≤ h.sizeRaw
  inside : s.data = [] ∨ h.ptrRaw + s.data.length ≤ bytes.length
  same : s.data = (bytes.drop h.ptrRaw).take s.data.length

section Taken

variable {bytes : List U8} {h : SectionHeader} {s : Section} {limit : Nat}

theorem cutSection_taken (hCut : cutSection bytes h limit = .ok s) : TakenFrom bytes h s := by
  obtain ⟨hRva, -, hShort, -⟩ := cutSection_ok hCut
  unfold cutSection at hCut
  split at hCut
  · cases hCut
    exact ⟨hRva, hShort, .inl rfl, rfl⟩
  · obtain ⟨data, hSlice, hRest⟩ := ok_of_bind hCut
    cases hRest
    have hLen := slice_length hSlice
    rw [Reader.slice] at hSlice
    split at hSlice
    · rename_i hIn
      cases hSlice
      exact ⟨hRva, hShort, .inr (by rw [hLen]; exact hIn), by rw [hLen]⟩
    · cases hSlice

theorem cutSections_taken {headers : List SectionHeader} {limits : List Nat} {sections : List Section}
    (hLen : headers.length = limits.length) (hCut : cutSections bytes (headers.zip limits) = .ok sections) :
    List.Forall₂ (TakenFrom bytes) headers sections := by
  induction headers generalizing limits sections with
  | nil =>
    cases hCut
    exact .nil
  | cons h headers ih =>
    cases limits with
    | nil => cases hLen
    | cons limit limits =>
      obtain ⟨s, hFirst, hLater⟩ := ok_of_bind hCut
      obtain ⟨rest, hRest, hDone⟩ := ok_of_bind hLater
      cases hDone
      exact .cons (cutSection_taken hFirst) (ih (Nat.succ.inj hLen) hRest)

theorem limitRaw_length {L : List (SectionHeader × Nat)} {limits limits' : List Nat} (h : limitRaw L limits = .ok limits') :
    limits'.length = limits.length := by
  fun_induction limitRaw L limits with
  | case1 cur j next k rest limits hOver => cases h
  | case2 cur j next k rest limits hOver ih => rw [ih h, List.length_set]
  | case3 =>
    cases h
    rfl

theorem TakenFrom.getElem? (hTaken : TakenFrom bytes h s) {k : Nat} (hk : k < s.data.length) : bytes[h.ptrRaw + k]? = s.data[k]? := by
  rw [hTaken.same, List.getElem?_take_of_lt hk, List.getElem?_drop]

end Taken

theorem sliceAt_ok {sections : List Section} {rva : U32} {n : Nat} {bs : List U8} (h : sliceAt sections rva n = .ok bs) :
    ∃ s ∈ sections, s.covers rva.toNat = true ∧ rva.toNat - s.rva.toNat + n ≤ s.data.length ∧
      bs = (s.data.drop (rva.toNat - s.rva.toNat)).take n := by
  rw [sliceAt] at h
  split at h
  · cases h
  · rename_i s off hRead
    obtain ⟨hs, hCovers, rfl⟩ := readAtRva_some hRead
    split at h
    · rename_i hIn
      cases h
      exact ⟨s, hs, hCovers, hIn, rfl⟩
    · cases h

/-- The bytes are in the file at this address' place in its section, and in memory there is a region
for the section with the same bytes at this place. -/
structure ReadFrom (bytes : List U8) (headers : List SectionHeader) (img : PeImage) (rva : U32) (bs : List U8) : Prop where
  file : ∃ (i : Nat) (h : SectionHeader) (s : Section), headers[i]? = some h ∧ img.sections[i]? = some s ∧ s.covers rva.toNat = true ∧
    ∀ k (hk : k < bs.length), bytes[h.ptrRaw + (rva.toNat - s.rva.toNat) + k]? = some bs[k]
  region : ∀ granted base m m', WellFormed m → mapImage granted base img m = .ok m' →
    ∃ s ∈ img.sections, s.covers rva.toNat = true ∧ ∃ r ∈ m'.regions, r.region.base = base + s.rva.setWidth 64 ∧
      rva.toNat - s.rva.toNat + bs.length ≤ r.region.size.toNat ∧
      ∀ k (hk : k < bs.length), r.bytes (rva.toNat - s.rva.toNat + k) = bs[k]
  memory : ∀ granted base m m', WellFormed m → mapImage granted base img m = .ok m' →
    ∀ k (hk : k < bs.length), base.toNat + (rva.toNat + k) < 2 ^ 64 - 1 → m'.peek (base + BitVec.ofNat 64 (rva.toNat + k)) = some bs[k]

structure SectionsSound (bytes : List U8) (headers : List SectionHeader) (img : PeImage) : Prop where
  apart : img.sections.Pairwise Section.Apart
  unique : ∀ s ∈ img.sections, ∀ t ∈ img.sections, ∀ rva : U32, s.covers rva.toNat = true → t.covers rva.toNat = true → s = t
  taken : List.Forall₂ (TakenFrom bytes) headers img.sections
  slices : ∀ rva n bs, sliceAt img.sections rva n = .ok bs → bs.length = n ∧ ReadFrom bytes headers img rva bs

section Sound

variable {fuel : Nat} {bytes : List U8} {img : PeImage}

theorem sliceAt_get {sections : List Section} {rva : U32} {n : Nat} {bs : List U8} (h : sliceAt sections rva n = .ok bs) :
    bs.length = n ∧ ∃ s ∈ sections, s.covers rva.toNat = true ∧ rva.toNat - s.rva.toNat + n ≤ s.data.length ∧
      ∀ k (hk : k < bs.length), s.data[rva.toNat - s.rva.toNat + k]? = some bs[k] := by
  obtain ⟨s, hs, hCovers, hIn, rfl⟩ := sliceAt_ok h
  have hLen : ((s.data.drop (rva.toNat - s.rva.toNat)).take n).length = n := by
    rw [List.length_take, List.length_drop]
    omega
  refine ⟨hLen, s, hs, hCovers, hIn, fun k hk => ?_⟩
  rw [List.getElem_take, List.getElem_drop, List.getElem?_eq_getElem]

theorem readFrom_of_slice (hLaid : Laid img.sections) (hHeaders : img.headers.length ≤ img.sizeOfHeaders.toNat)
    {headers : List SectionHeader} (hTaken : List.Forall₂ (TakenFrom bytes) headers img.sections) {rva : U32} {n : Nat} {bs : List U8}
    (h : sliceAt img.sections rva n = .ok bs) : ReadFrom bytes headers img rva bs := by
  obtain ⟨rfl, s, hs, hCovers, hIn, hGet⟩ := sliceAt_get h
  have hLow := ((Section.covers_iff _ _).mp hCovers).1
  refine ⟨?_, fun granted base m m' hWf hMap => ?_, fun granted base m m' hWf hMap k hk hTop => ?_⟩
  · obtain ⟨i, hi, rfl⟩ := List.getElem_of_mem hs
    have hi' : i < headers.length := hTaken.length_eq ▸ hi
    have hFrom : TakenFrom bytes headers[i] img.sections[i] := hTaken.get hi' hi
    refine ⟨i, headers[i], img.sections[i], List.getElem?_eq_getElem hi', List.getElem?_eq_getElem hi, hCovers, fun k hk => ?_⟩
    rw [Nat.add_assoc, hFrom.getElem? (by omega), hGet k hk]
  · obtain ⟨m₁, hHead, hSections⟩ := ok_of_bind hMap
    obtain ⟨-, -, hPlaced⟩ := mapSections_ok (mapWithData_wellFormed hWf hHead) hLaid.small hSections
    obtain ⟨r, hr, hBase, hSize, hBytes⟩ := hPlaced s hs
    have hRoom := section_size (hLaid.small s hs)
    refine ⟨s, hs, hCovers, r, hr, hBase, by omega, fun k hk => ?_⟩
    rw [hBytes, hGet k hk, Option.getD_some]
  · refine peek_mapImage hLaid hWf hHeaders hMap ?_ hTop
    have hByte := PeImage.byte_of_mem hLaid hs (hGet k hk)
    rwa [← Nat.add_assoc, Nat.add_sub_cancel' hLow] at hByte

/-- In an accepted file no address is in two sections, each section has its part of the file, and a slice
is the bytes of the file that are mapped there. -/
theorem parse_sectionsSound (hParse : parse fuel bytes = .ok img) :
    ∃ h headers, readHeaders bytes = .ok h ∧ readSectionHeaders bytes h.secTable h.numSections 0 = .ok headers ∧
      SectionsSound bytes headers img := by
  obtain ⟨h, hRead, hRest⟩ := ok_of_bind hParse
  obtain ⟨hLaid, -, hLen⟩ := parse_ok (ofResult_ok hRead) hParse
  obtain ⟨sections, hSections, hRest⟩ := ok_of_bind hRest
  obtain ⟨imports, -, hRest⟩ := ok_of_bind hRest
  obtain ⟨exports, -, hRest⟩ := ok_of_bind hRest
  obtain ⟨relocations, -, hRest⟩ := ok_of_bind hRest
  obtain ⟨tls, -, hRest⟩ := ok_of_bind hRest
  obtain ⟨headBytes, -, hDone⟩ := ok_of_bind hRest
  cases hDone
  obtain ⟨headers, hTable, hLater⟩ := ok_of_bind (ofResult_ok hSections)
  obtain ⟨limits, hLimits, hCut⟩ := ok_of_bind hLater
  have hSame := limitRaw_length hLimits
  rw [List.length_replicate] at hSame
  have hTaken := cutSections_taken hSame.symm hCut
  exact ⟨h, headers, ofResult_ok hRead, hTable, hLaid.apart, fun s hs t ht rva hIn hIn' => hLaid.unique hs ht hIn hIn', hTaken,
    fun rva n bs hSlice => ⟨(sliceAt_get hSlice).1, readFrom_of_slice hLaid hLen hTaken hSlice⟩⟩

end Sound

theorem sections_sound_of_wholeFile : ∃ h headers, readHeaders wholeFile = .ok h ∧
    readSectionHeaders wholeFile h.secTable h.numSections 0 = .ok headers ∧ SectionsSound wholeFile headers (.ofFile wholeFile) :=
  @parse_sectionsSound 1 wholeFile (.ofFile wholeFile) (by decide +kernel)

def brokenOff : List U8 := (smallFile [] 0x1000 [1, 2, 3, 4]).dropLast

def brokenHeaders : List SectionHeader := [⟨[], 0x1000, 0x1000, 4, 224, 0xE0000000⟩]

theorem raw_beyond_file :
    ¬∀ (fuel : Nat) (bytes : List U8) (img : PeImage) (h : Headers) (headers : List SectionHeader), parse fuel bytes = .ok img →
      readHeaders bytes = .ok h → readSectionHeaders bytes h.secTable h.numSections 0 = .ok headers →
      ∀ s ∈ headers, s.ptrRaw + s.sizeRaw ≤ bytes.length := by
  intro hAll
  have hIn := hAll 1 brokenOff (.ofFile brokenOff) (.ofFile brokenOff) brokenHeaders (by decide +kernel) (by decide +kernel)
    (by decide +kernel) _ List.mem_cons_self
  exact absurd hIn (by decide +kernel)

end Exemu.Loader
