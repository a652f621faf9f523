import Exemu.Loader.Layout

/-! # The tables of the image in memory

The parser reads the tables out of the sections' parts of the file.
-/
namespace Exemu.Loader

open Path (Text)

namespace PeImage

def byte (img : PeImage) (a : Nat) : Option U8 :=
  match img.sections.find? fun s => s.covers a with
  | some s => some (s.data[a - s.rva.toNat]?.getD 0)
  | none => img.headers[a]?

def extent (img : PeImage) : Nat :=
  (img.sections.map fun s => s.rva.toNat + s.vsize).foldr max img.headers.length

/-- The bytes before the first zero, if it comes within `n` bytes. -/
def textWithin (img : PeImage) : Nat → Nat → Option (List U8)
  | 0, _ => none
  | n + 1, a => do
    let b ← img.byte a
    if b = 0 then return [] else return b :: (← img.textWithin n (a + 1))

def text (img : PeImage) (rva : U32) : Option (List U8) := img.textWithin (img.extent - rva.toNat) rva.toNat

def covered (img : PeImage) (rva : U32) : Bool := img.sections.any fun s => s.covers rva.toNat

def mappedAt (img : PeImage) (rva : U32) (n : Nat) : PeResult (List U8) :=
  match bytesAt img.byte rva.toNat n with
  | some bs => .ok bs
  | none => .error (if img.covered rva then .pastSectionData rva else .notInSection rva)

def mappedText (img : PeImage) (rva : U32) : PeResult Text :=
  match img.text rva with
  | some bs => .ok (fromUtf8Lossy bs)
  | none => .error (if img.covered rva then .stringPastSectionData rva else .stringNotInSection rva)

def mappedAnswer (img : PeImage) : (q : Read) → q.Answer
  | .u8 rva => do return (fromLe (← img.mappedAt rva 1)).setWidth 8
  | .u16 rva => do return (fromLe (← img.mappedAt rva 2)).setWidth 16
  | .u32 rva => do return (fromLe (← img.mappedAt rva 4)).setWidth 32
  | .u64 rva => do return fromLe (← img.mappedAt rva 8)
  | .cstr rva => img.mappedText rva

def BackedBytes (img : PeImage) (rva : U32) (n : Nat) : Prop :=
  (bytesAt img.byte rva.toNat n).isSome = true →
    ∃ s ∈ img.sections, s.rva.toNat ≤ rva.toNat ∧ rva.toNat + n ≤ s.rva.toNat + s.data.length

/-- If there is anything for a text in memory, it ends, and what is before its end is in the file, all in one section. -/
def BackedText (img : PeImage) (rva : U32) : Prop :=
  (img.text rva).isSome = true ∨ img.covered rva = true →
    ∃ s ∈ img.sections, s.covers rva.toNat = true ∧
      ∃ bs ∈ img.text rva, rva.toNat + bs.length ≤ s.rva.toNat + s.data.length

def Backed (img : PeImage) : Read → Prop
  | .u8 rva => img.BackedBytes rva 1
  | .u16 rva => img.BackedBytes rva 2
  | .u32 rva => img.BackedBytes rva 4
  | .u64 rva => img.BackedBytes rva 8
  | .cstr rva => img.BackedText rva

instance (img : PeImage) (rva : U32) (n : Nat) : Decidable (img.BackedBytes rva n) := by
  unfold BackedBytes
  infer_instance

instance (img : PeImage) (rva : U32) : Decidable (img.BackedText rva) := by
  unfold BackedText
  infer_instance

instance (img : PeImage) : DecidablePred img.Backed := fun q =>
  match q with
  | .u8 rva => inferInstanceAs (Decidable (img.BackedBytes rva 1))
  | .u16 rva => inferInstanceAs (Decidable (img.BackedBytes rva 2))
  | .u32 rva => inferInstanceAs (Decidable (img.BackedBytes rva 4))
  | .u64 rva => inferInstanceAs (Decidable (img.BackedBytes rva 8))
  | .cstr rva => inferInstanceAs (Decidable (img.BackedText rva))

section Agree

variable {img : PeImage} {s : Section}

variable {off : Nat} {rva : U32}

theorem byte_of_mem (hLaid : Laid img.sections) (hs : s ∈ img.sections) {b : U8} (hGet : s.data[off]? = some b) :
    img.byte (s.rva.toNat + off) = some b := by
  obtain ⟨hOff, -⟩ := List.getElem?_eq_some_iff.mp hGet
  have hIn : s.covers (s.rva.toNat + off) = true := by
    rw [Section.covers_iff, hLaid.vsize_eq hs]
    omega
  rw [byte, hLaid.find hs hIn]
  dsimp only
  rw [Nat.add_sub_cancel_left, hGet]
  rfl

theorem bytes_of_mem (hLaid : Laid img.sections) (hs : s ∈ img.sections) {n : Nat} (hEnd : off + n ≤ s.data.length) :
    bytesAt img.byte (s.rva.toNat + off) n = some ((s.data.drop off).take n) := by
  have hLen : ((s.data.drop off).take n).length = n := by
    rw [List.length_take, List.length_drop]
    omega
  have hEach : ∀ k (hk : k < ((s.data.drop off).take n).length),
      img.byte (s.rva.toNat + off + k) = some ((s.data.drop off).take n)[k] := by
    intro k hk
    rw [Nat.add_assoc]
    refine byte_of_mem hLaid hs ?_
    rw [List.getElem?_eq_getElem (by omega), List.getElem_take, List.getElem_drop]
  have hSame := bytesAt_eq hEach
  rwa [hLen] at hSame

theorem text_of_mem (hLaid : Laid img.sections) (hs : s ∈ img.sections) {n : Nat} {bs : List U8}
    (hText : img.textWithin n (s.rva.toNat + off) = some bs) (hEnd : off + bs.length ≤ s.data.length) :
    (s.data.drop off).takeWhile (· ≠ 0) = bs := by
  induction n generalizing off bs with
  | zero => cases hText
  | succ n ih =>
    rw [textWithin] at hText
    obtain ⟨b, hByte, hText⟩ := Option.bind_eq_some_iff.mp hText
    rcases Nat.lt_or_ge off s.data.length with hOff | hOff
    · rw [byte_of_mem hLaid hs (List.getElem?_eq_getElem hOff)] at hByte
      cases hByte
      rw [List.drop_eq_getElem_cons hOff]
      split at hText
      · rename_i hZero
        cases hText
        rw [List.takeWhile_cons_of_neg (by rw [hZero]; decide)]
      · rename_i hSome
        obtain ⟨rest, hRest, hBs⟩ := Option.bind_eq_some_iff.mp hText
        cases hBs
        rw [List.length_cons] at hEnd
        simp only [List.takeWhile_cons, ne_eq, hSome, not_false_eq_true, decide_true, if_true]
        rw [@ih (off + 1) rest hRest (by omega)]
    · obtain rfl : bs = [] := List.eq_nil_of_length_eq_zero (by omega)
      rw [List.drop_eq_nil_of_le hOff]
      rfl

theorem covered_iff : img.covered rva = true ↔ ∃ s ∈ img.sections, s.covers rva.toNat = true := List.any_eq_true

theorem readAtRva_of_not_covered (h : ¬img.covered rva = true) : readAtRva img.sections rva = none := by
  rw [readAtRva, Option.map_eq_none_iff, List.find?_eq_none]
  exact fun s hs hIn => h (covered_iff.mpr ⟨s, hs, hIn⟩)

theorem sliceAt_eq (hLaid : Laid img.sections) {n : Nat} (hn : 0 < n) (hBacked : img.BackedBytes rva n) :
    sliceAt img.sections rva n = img.mappedAt rva n := by
  unfold mappedAt
  cases hBytes : bytesAt img.byte rva.toNat n with
  | some bs =>
    obtain ⟨s, hs, hLow, hHigh⟩ := hBacked (by rw [hBytes]; rfl)
    have hIn : s.covers rva.toNat = true := by
      rw [Section.covers_iff, hLaid.vsize_eq hs]
      omega
    have hEnd : rva.toNat - s.rva.toNat + n ≤ s.data.length := by omega
    have hSame := bytes_of_mem hLaid hs hEnd
    rw [Nat.add_sub_cancel' hLow, hBytes] at hSame
    cases hSame
    rw [sliceAt, hLaid.readAtRva hs hIn]
    exact if_pos (by omega)
  | none =>
    dsimp only
    unfold sliceAt
    split_ifs with hCovered
    · obtain ⟨s, hs, hIn⟩ := covered_iff.mp hCovered
      rw [hLaid.readAtRva hs hIn]
      refine if_neg fun hEnd => ?_
      have hSome := bytes_of_mem hLaid hs hEnd
      rw [Nat.add_sub_cancel' ((Section.covers_iff _ _).mp hIn).1, hBytes] at hSome
      cases hSome
    · rw [readAtRva_of_not_covered hCovered]

theorem cstrAtRva_eq (hLaid : Laid img.sections) (hBacked : img.BackedText rva) :
    cstrAtRva img.sections rva = img.mappedText rva := by
  unfold mappedText
  by_cases hAny : (img.text rva).isSome = true ∨ img.covered rva = true
  · obtain ⟨s, hs, hIn, bs, hText, hEnd⟩ := hBacked hAny
    have hLow := ((Section.covers_iff _ _).mp hIn).1
    have hWithin : img.textWithin (img.extent - rva.toNat) (s.rva.toNat + (rva.toNat - s.rva.toNat)) = some bs := by
      rw [Nat.add_sub_cancel' hLow]
      exact hText
    have hSame := text_of_mem hLaid hs hWithin (by omega)
    rw [cstrAtRva, hLaid.readAtRva hs hIn, hText]
    dsimp only
    rw [hSame]
    exact if_pos (by omega)
  · rw [not_or] at hAny
    rw [cstrAtRva, readAtRva_of_not_covered hAny.2, Option.not_isSome_iff_eq_none.mp hAny.1, if_neg hAny.2]

theorem fileAnswer_eq (hLaid : Laid img.sections) {q : Read} (hBacked : img.Backed q) :
    fileAnswer img.sections q = img.mappedAnswer q := by
  cases q with
  | u8 rva => exact congrArg (· >>= _) (sliceAt_eq hLaid Nat.one_pos hBacked)
  | u16 rva => exact congrArg (· >>= _) (sliceAt_eq hLaid Nat.two_pos hBacked)
  | u32 rva => exact congrArg (· >>= _) (sliceAt_eq hLaid (Nat.succ_pos 3) hBacked)
  | u64 rva => exact congrArg (· >>= _) (sliceAt_eq hLaid (Nat.succ_pos 7) hBacked)
  | cstr rva => exact cstrAtRva_eq hLaid hBacked

end Agree

end PeImage

/-! ## The tables -/

/-- These answers lead the walks to the tables that the image reports. -/
structure Reports (fuel : Nat) (h : Headers) (img : PeImage) (answer : (q : Read) → q.Answer) : Prop where
  imports : (h.importTable fuel).result answer = .ok img.imports
  exports : h.exportTable.result answer = .ok (img.exports, img.dllName)
  relocations : h.relocTable.result answer = .ok img.relocations
  tls : (h.tlsTable fuel).result answer = .ok img.tls

section Tables

variable {fuel : Nat} {bytes : List U8} {h : Headers} {img : PeImage}

theorem ofResult_ok {α : Type} {x : PeResult α} {a : α} (hOk : Walk.ofResult x = .ok a) : x = .ok a := by
  cases x with
  | error e => cases hOk
  | ok b =>
    cases hOk
    rfl

theorem parse_ok (hHeaders : readHeaders bytes = .ok h) (hParse : parse fuel bytes = .ok img) :
    Laid img.sections ∧ Reports fuel h img (fileAnswer img.sections) ∧ img.headers.length ≤ img.sizeOfHeaders.toNat := by
  obtain ⟨h', hRead, hRest⟩ := ok_of_bind hParse
  have hSame := ofResult_ok hRead
  rw [hHeaders] at hSame
  cases hSame
  obtain ⟨sections, hSections, hRest⟩ := ok_of_bind hRest
  obtain ⟨imports, hImports, hRest⟩ := ok_of_bind hRest
  obtain ⟨exports, hExports, hRest⟩ := ok_of_bind hRest
  obtain ⟨relocations, hRelocs, hRest⟩ := ok_of_bind hRest
  obtain ⟨tls, hTls, hRest⟩ := ok_of_bind hRest
  obtain ⟨headers, hSlice, hDone⟩ := ok_of_bind hRest
  cases hDone
  have hLen := slice_length (ofResult_ok hSlice)
  exact ⟨readSections_laid (ofResult_ok hSections), ⟨hImports, hExports, hRelocs, hTls⟩, by dsimp only; omega⟩

theorem walk_mapped {α : Type} (hLaid : Laid img.sections) (w : Walk α) {a : α} (hFile : w.result (fileAnswer img.sections) = .ok a)
    (hBacked : ∀ q ∈ w.reads img.mappedAnswer, img.Backed q) : w.result img.mappedAnswer = .ok a := by
  rw [← hFile]
  exact (w.result_eq_of_agree fun q hq => PeImage.fileAnswer_eq hLaid (hBacked q hq)).symm

/-- Each table the parser reports is the table in memory, if the walk over it in memory stays in the file. -/
theorem reports_mapped (hHeaders : readHeaders bytes = .ok h) (hParse : parse fuel bytes = .ok img) :
    ((∀ q ∈ (h.importTable fuel).reads img.mappedAnswer, img.Backed q) →
        (h.importTable fuel).result img.mappedAnswer = .ok img.imports) ∧
      ((∀ q ∈ h.exportTable.reads img.mappedAnswer, img.Backed q) →
        h.exportTable.result img.mappedAnswer = .ok (img.exports, img.dllName)) ∧
      ((∀ q ∈ h.relocTable.reads img.mappedAnswer, img.Backed q) →
        h.relocTable.result img.mappedAnswer = .ok img.relocations) ∧
      ((∀ q ∈ (h.tlsTable fuel).reads img.mappedAnswer, img.Backed q) →
        (h.tlsTable fuel).result img.mappedAnswer = .ok img.tls) := by
  obtain ⟨hLaid, hReports, -⟩ := parse_ok hHeaders hParse
  exact ⟨walk_mapped hLaid _ hReports.imports, walk_mapped hLaid _ hReports.exports,
    walk_mapped hLaid _ hReports.relocations, walk_mapped hLaid _ hReports.tls⟩

end Tables

/-- A block of 12 bytes with one entry. The second, which only fills the block up, is left to the zeros behind the file. -/
def trimmedBlock : List U8 := le32 0x1000 ++ le32 12 ++ le16 0x3800

def relocsAt (size : U32) : List Dir := List.replicate 5 ⟨0, 0⟩ ++ [⟨0x1000, size⟩]

def wholeFile : List U8 := smallFile (relocsAt 12) 0x1000 (trimmedBlock ++ le16 0)

def trimmedFile : List U8 := smallFile (relocsAt 12) 0x1000 trimmedBlock

set_option maxRecDepth 20000 in
theorem reports_mapped_whole :
    (Headers.ofFile wholeFile).relocTable.result (PeImage.ofFile wholeFile).mappedAnswer = .ok [⟨0x1800, 3⟩] :=
  (@reports_mapped 1 wholeFile (.ofFile wholeFile) (.ofFile wholeFile) (by decide) (by decide)).2.2.1
    (by decide)

set_option maxRecDepth 20000 in
/-- In memory the block is complete. The parser finds its end missing and reports no relocation. -/
theorem trimmed_relocations_differ :
    ¬∀ (fuel : Nat) (bytes : List U8) (h : Headers) (img : PeImage), readHeaders bytes = .ok h → parse fuel bytes = .ok img →
      Reports fuel h img img.mappedAnswer := by
  intro hAll
  have hSame := (hAll 1 trimmedFile (.ofFile trimmedFile) (.ofFile trimmedFile) (by decide) (by decide)).relocations
  have hTable : (Headers.ofFile trimmedFile).relocTable.result (PeImage.ofFile trimmedFile).mappedAnswer = .ok [⟨0x1800, 3⟩] := by
    decide
  rw [hTable] at hSame
  exact absurd hSame (by decide)

end Exemu.Loader
