import Exemu.Loader.Layout

/-! # Base relocation

The loader adds the distance between the two bases to each number a relocation names.
-/
namespace Exemu.Loader

open List

def REL_HIGHLOW : U8 := 3
def REL_DIR64 : U8 := 10

namespace Section

/-- `rva >= s.rva && rva < s.rva + vsize`, in 32 bits. -/
def reaches (s : Section) (rva : U32) : Bool :=
  decide (s.rva.toNat ≤ rva.toNat) && decide (rva.toNat < (s.rva.toNat + s.vsize) % 2 ^ 32)

def overwrite (s : Section) (off : Nat) (bs : List U8) : Section :=
  { s with data := s.data.take off ++ bs ++ s.data.drop (off + bs.length) }

end Section

def sliceRef : List Section → U32 → Nat → PeResult (List U8)
  | [], rva, _ => .error (.relocationNotInSection rva)
  | s :: rest, rva, len =>
    if s.reaches rva then
      if rva.toNat - s.rva.toNat + len ≤ s.data.length then .ok ((s.data.drop (rva.toNat - s.rva.toNat)).take len)
      else .error (.relocationPastData rva)
    else sliceRef rest rva len

/-- `slice_mut` and the copy into the slice it gives. -/
def writeAt : List Section → U32 → List U8 → PeResult (List Section)
  | [], rva, _ => .error (.relocationNotInSection rva)
  | s :: rest, rva, bs =>
    if s.reaches rva then
      if rva.toNat - s.rva.toNat + bs.length ≤ s.data.length then .ok (s.overwrite (rva.toNat - s.rva.toNat) bs :: rest)
      else .error (.relocationPastData rva)
    else do return s :: (← writeAt rest rva bs)

def applyOne (delta : U64) (sections : List Section) (r : Reloc) : PeResult (List Section) :=
  if r.kind = REL_HIGHLOW then do
    let old ← sliceU32 sections r.rva
    writeAt sections r.rva (toLe 4 ((old + delta.setWidth 32).setWidth 64))
  else if r.kind = REL_DIR64 then do
    let old := fromLe (← sliceRef sections r.rva 8)
    writeAt sections r.rva (toLe 8 (old + delta))
  else .error (.relocationType r.kind r.rva)

def apply (sections : List Section) (relocations : List Reloc) (preferredBase actualBase : U64) : PeResult (List Section) :=
  relocations.foldlM (applyOne (actualBase - preferredBase)) sections

/-! ## The bytes of the file, by address -/

def fileByte (sections : List Section) (a : Nat) : Option U8 :=
  (sections.find? fun s => s.covers a).bind fun s => s.data[a - s.rva.toNat]?

/-- Between the two byte maps, the `w`-byte number at `a` has grown by `delta`, and nothing else has changed. -/
def Adds (w : Nat) (delta : U64) (a : Nat) (f g : Nat → Option U8) : Prop :=
  ∃ old, bytesAt f a w = some old ∧ bytesAt g a w = some (toLe w (fromLe old + delta)) ∧
    ∀ b, b < a ∨ a + w ≤ b → g b = f b

def Reloc.width (r : Reloc) : Nat := if r.kind = REL_HIGHLOW then 4 else 8

section Effect

variable {sections sections' : List Section} {rva : U32} {bs : List U8} {delta : U64} {r : Reloc}

variable {s : Section} {off : Nat}

theorem Section.reaches_covers (h : s.reaches rva = true) (hVsize : s.vsize < 2 ^ 32) : s.covers rva.toNat = true := by
  have hRva := s.rva.isLt
  rw [Section.reaches, Bool.and_eq_true, decide_eq_true_eq, decide_eq_true_eq] at h
  rw [Section.covers_iff]
  omega

theorem Section.vsize_lt (s : Section) : s.vsize < 2 ^ 32 := by
  have hVirtual := s.virtualSize.isLt
  have hMod := Nat.mod_lt s.data.length (Nat.two_pow_pos 32)
  unfold Section.vsize
  omega

theorem fileByte_of_mem (hLaid : Laid sections) (hs : s ∈ sections) {b : U8} (hGet : s.data[off]? = some b) :
    fileByte sections (s.rva.toNat + off) = some b := by
  obtain ⟨hOff, -⟩ := List.getElem?_eq_some_iff.mp hGet
  have hIn : s.covers (s.rva.toNat + off) = true := by
    rw [Section.covers_iff, hLaid.vsize_eq hs]
    omega
  rw [fileByte, hLaid.find hs hIn, Option.bind_some, Nat.add_sub_cancel_left, hGet]

theorem bytesAt_of_mem (hLaid : Laid sections) (hs : s ∈ sections) {n : Nat} (hEnd : off + n ≤ s.data.length) :
    bytesAt (fileByte sections) (s.rva.toNat + off) n = some ((s.data.drop off).take n) := by
  have hLen : ((s.data.drop off).take n).length = n := by
    rw [length_take, length_drop]
    omega
  have hEach : ∀ k (hk : k < ((s.data.drop off).take n).length),
      fileByte sections (s.rva.toNat + off + k) = some ((s.data.drop off).take n)[k] := by
    intro k hk
    rw [Nat.add_assoc]
    refine fileByte_of_mem hLaid hs ?_
    rw [getElem?_eq_getElem (by omega), getElem_take, getElem_drop]
  have hSame := bytesAt_eq hEach
  rwa [hLen] at hSame

theorem sliceAt_bytes (hLaid : Laid sections) {n : Nat} (h : sliceAt sections rva n = .ok bs) :
    bytesAt (fileByte sections) rva.toNat n = some bs := by
  unfold sliceAt at h
  split at h
  · cases h
  · rename_i s off hRead
    obtain ⟨hs, hIn, rfl⟩ := readAtRva_some hRead
    split at h
    · rename_i hEnd
      cases h
      have hSame := bytesAt_of_mem hLaid hs hEnd
      rwa [Nat.add_sub_cancel' ((Section.covers_iff _ _).mp hIn).1] at hSame
    · cases h

theorem sliceRef_bytes (hLaid : Laid sections) {n : Nat} (h : sliceRef sections rva n = .ok bs) :
    bytesAt (fileByte sections) rva.toNat n = some bs := by
  suffices hFound : ∀ rest : List Section, (∀ s ∈ rest, s ∈ sections) → sliceRef rest rva n = .ok bs →
      bytesAt (fileByte sections) rva.toNat n = some bs from hFound sections (fun _ hs => hs) h
  intro rest hAll hRest
  induction rest with
  | nil => cases hRest
  | cons s rest ih =>
    rw [sliceRef] at hRest
    split at hRest
    · rename_i hReaches
      have hLow := ((Section.covers_iff _ _).mp (Section.reaches_covers hReaches s.vsize_lt)).1
      split at hRest
      · rename_i hEnd
        cases hRest
        have hSame := bytesAt_of_mem hLaid (hAll s mem_cons_self) hEnd
        rwa [Nat.add_sub_cancel' hLow] at hSame
      · cases hRest
    · exact ih (fun t ht => hAll t (mem_cons_of_mem _ ht)) hRest

def SameShape (sections sections' : List Section) : Prop :=
  List.Forall₂ (fun s t => t.rva = s.rva ∧ t.virtualSize = s.virtualSize ∧ t.data.length = s.data.length) sections sections'

theorem SameShape.refl (sections : List Section) : SameShape sections sections := List.forall₂_same.mpr fun _ _ => ⟨rfl, rfl, rfl⟩

theorem SameShape.trans {sections'' : List Section} (h : SameShape sections sections') (h' : SameShape sections' sections'') :
    SameShape sections sections'' := by
  induction h generalizing sections'' with
  | nil => exact h'
  | cons hHead _ ih =>
    cases h' with
    | cons hHead' hRest' =>
      exact .cons ⟨hHead'.1.trans hHead.1, hHead'.2.1.trans hHead.2.1, hHead'.2.2.trans hHead.2.2⟩ (ih hRest')

theorem SameShape.laid (h : SameShape sections sections') (hLaid : Laid sections) : Laid sections' := by
  have hVsize : ∀ s t : Section, t.rva = s.rva ∧ t.virtualSize = s.virtualSize ∧ t.data.length = s.data.length → t.vsize = s.vsize := by
    rintro s t ⟨-, hVirtual, hLen⟩
    rw [Section.vsize, Section.vsize, hVirtual, hLen]
  obtain ⟨hApart, hSmall⟩ := hLaid
  induction h with
  | nil => exact ⟨hApart, hSmall⟩
  | @cons s t rest rest' hHead hRest ih =>
    rw [pairwise_cons] at hApart
    obtain ⟨hApart', hSmall'⟩ := ih hApart.2 fun u hu => hSmall u (mem_cons_of_mem _ hu)
    refine ⟨List.pairwise_cons.mpr ⟨fun u' hu' => ?_, hApart'⟩, List.forall_mem_cons.mpr ⟨?_, hSmall'⟩⟩
    · obtain ⟨i, hi, rfl⟩ := getElem_of_mem hu'
      have hi' : i < rest.length := by rwa [hRest.length_eq]
      have hSame := hRest.get hi' hi
      rw [get_eq_getElem, get_eq_getElem] at hSame
      have hOld := hApart.1 _ (getElem_mem hi')
      unfold Section.Apart at hOld ⊢
      rwa [hVsize _ _ hHead, hVsize _ _ hSame, hHead.1, hSame.1]
    · rw [hHead.2.2]
      exact hSmall s mem_cons_self

theorem Section.length_overwrite (hEnd : off + bs.length ≤ s.data.length) : (s.overwrite off bs).data.length = s.data.length := by
  rw [Section.overwrite, length_append, length_append, length_take, length_drop]
  omega

theorem Section.overwrite_get (hEnd : off + bs.length ≤ s.data.length) (i : Nat) :
    (s.overwrite off bs).data[i]? = if off ≤ i ∧ i < off + bs.length then bs[i - off]? else s.data[i]? := by
  have hTake : (s.data.take off).length = off := by
    rw [length_take]
    omega
  rw [Section.overwrite, append_assoc]
  rcases Nat.lt_or_ge i off with hBefore | hFrom
  · rw [getElem?_append_left (by omega), getElem?_take_of_lt hBefore, if_neg (by omega)]
  · rw [getElem?_append_right (by omega), hTake]
    rcases Nat.lt_or_ge i (off + bs.length) with hInside | hBehind
    · rw [getElem?_append_left (by omega), if_pos ⟨hFrom, hInside⟩]
    · rw [getElem?_append_right (by omega), getElem?_drop, if_neg (by omega)]
      congr 1
      omega

theorem writeAt_ok (h : writeAt sections rva bs = .ok sections') :
    ∃ pre s post, sections = pre ++ s :: post ∧ s.covers rva.toNat = true ∧ rva.toNat - s.rva.toNat + bs.length ≤ s.data.length ∧
      sections' = pre ++ s.overwrite (rva.toNat - s.rva.toNat) bs :: post := by
  induction sections generalizing sections' with
  | nil => cases h
  | cons s rest ih =>
    rw [writeAt] at h
    split at h
    · rename_i hReaches
      split at h
      · rename_i hEnd
        cases h
        exact ⟨[], s, rest, rfl, Section.reaches_covers hReaches s.vsize_lt, hEnd, rfl⟩
      · cases h
    · obtain ⟨rest', hRest, hDone⟩ := ok_of_bind h
      cases hDone
      obtain ⟨pre, t, post, rfl, hIn, hEnd, rfl⟩ := ih hRest
      exact ⟨s :: pre, t, post, rfl, hIn, hEnd, rfl⟩

theorem writeAt_bytes (hLaid : Laid sections) (h : writeAt sections rva bs = .ok sections') :
    SameShape sections sections' ∧ bytesAt (fileByte sections') rva.toNat bs.length = some bs ∧
      ∀ b, b < rva.toNat ∨ rva.toNat + bs.length ≤ b → fileByte sections' b = fileByte sections b := by
  obtain ⟨pre, s, post, rfl, hIn, hEnd, rfl⟩ := writeAt_ok h
  have hLen := Section.length_overwrite hEnd
  have hShape : SameShape (pre ++ s :: post) (pre ++ s.overwrite (rva.toNat - s.rva.toNat) bs :: post) :=
    rel_append (SameShape.refl pre) (.cons ⟨rfl, rfl, hLen⟩ (SameShape.refl post))
  have hLaid' := hShape.laid hLaid
  have hLow := ((Section.covers_iff _ _).mp hIn).1
  have hMem : s ∈ pre ++ s :: post := mem_append_right _ mem_cons_self
  have hMem' : s.overwrite (rva.toNat - s.rva.toNat) bs ∈ pre ++ s.overwrite (rva.toNat - s.rva.toNat) bs :: post :=
    mem_append_right _ mem_cons_self
  have hCovers : ∀ b, (s.overwrite (rva.toNat - s.rva.toNat) bs).covers b = s.covers b := by
    intro b
    rw [Section.covers, Section.covers, Section.vsize, Section.vsize, hLen]
    rfl
  refine ⟨hShape, bytesAt_eq fun k hk => ?_, fun b hb => ?_⟩
  · have hGet : (s.overwrite (rva.toNat - s.rva.toNat) bs).data[rva.toNat - s.rva.toNat + k]? = some bs[k] := by
      rw [Section.overwrite_get hEnd, if_pos (by omega), Nat.add_sub_cancel_left, getElem?_eq_getElem hk]
    have hByte := fileByte_of_mem hLaid' hMem' hGet
    rwa [show rva.toNat + k = s.rva.toNat + (rva.toNat - s.rva.toNat + k) by omega]
  · by_cases hHere : s.covers b = true
    · have hFrom := ((Section.covers_iff _ _).mp hHere).1
      rw [fileByte, fileByte, hLaid.find hMem hHere, hLaid'.find hMem' ((hCovers b).trans hHere), Option.bind_some, Option.bind_some]
      exact (Section.overwrite_get hEnd (b - s.rva.toNat)).trans (if_neg (by omega))
    · have hSkip : ((s :: post).find? fun t => t.covers b) = post.find? fun t => t.covers b := find?_cons_of_neg hHere
      have hSkip' : ((s.overwrite (rva.toNat - s.rva.toNat) bs :: post).find? fun t => t.covers b) = post.find? fun t => t.covers b :=
        find?_cons_of_neg (by rw [hCovers]; exact hHere)
      rw [fileByte, fileByte, find?_append, find?_append, hSkip, hSkip']

/-! ## What a relocation does -/

theorem toLe_four_add (a b : U64) : toLe 4 ((a.setWidth 32 + b.setWidth 32).setWidth 64) = toLe 4 (a + b) := by
  unfold toLe
  refine map_congr_left fun i hi => ?_
  have hLt := List.mem_range.mp hi
  apply BitVec.eq_of_toNat_eq
  rw [BitVec.toNat_setWidth, BitVec.toNat_setWidth, BitVec.toNat_ushiftRight, BitVec.toNat_ushiftRight, BitVec.toNat_setWidth,
    BitVec.toNat_add, BitVec.toNat_add, BitVec.toNat_setWidth, BitVec.toNat_setWidth, Nat.shiftRight_eq_div_pow,
    Nat.shiftRight_eq_div_pow]
  obtain rfl | rfl | rfl | rfl : i = 0 ∨ i = 1 ∨ i = 2 ∨ i = 3 := by omega
  all_goals omega

theorem applyOne_adds (hLaid : Laid sections) (h : applyOne delta sections r = .ok sections') :
    SameShape sections sections' ∧ Adds r.width delta r.rva.toNat (fileByte sections) (fileByte sections') := by
  unfold applyOne at h
  split at h
  · rename_i hKind
    obtain ⟨old, hOld, hWrite⟩ := ok_of_bind h
    obtain ⟨bs, hRead, hBytes⟩ := ok_of_bind hOld
    cases hBytes
    rw [toLe_four_add] at hWrite
    obtain ⟨hShape, hHere, hElse⟩ := writeAt_bytes hLaid hWrite
    rw [length_toLe] at hHere hElse
    rw [Reloc.width, if_pos hKind]
    exact ⟨hShape, bs, sliceAt_bytes hLaid hRead, hHere, hElse⟩
  · split at h
    · rename_i hOther hKind
      obtain ⟨bs, hRead, hWrite⟩ := ok_of_bind h
      obtain ⟨hShape, hHere, hElse⟩ := writeAt_bytes hLaid hWrite
      rw [length_toLe] at hHere hElse
      rw [Reloc.width, if_neg hOther]
      exact ⟨hShape, bs, sliceRef_bytes hLaid hRead, hHere, hElse⟩
    · cases h

def Reloc.Clear (r r' : Reloc) : Prop := r.rva.toNat + r.width ≤ r'.rva.toNat ∨ r'.rva.toNat + r'.width ≤ r.rva.toNat

/-- Every number named has grown by `delta` exactly once: no byte belongs to two of them, and no other byte has changed. -/
structure AdjustedOnce (delta : U64) (named : List Reloc) (f g : Nat → Option U8) : Prop where
  once : named.Pairwise Reloc.Clear
  adjusted : ∀ r ∈ named, ∃ old, bytesAt f r.rva.toNat r.width = some old ∧
    bytesAt g r.rva.toNat r.width = some (toLe r.width (fromLe old + delta))
  others : ∀ a, (∀ r ∈ named, a < r.rva.toNat ∨ r.rva.toNat + r.width ≤ a) → g a = f a

theorem apply_adjusts {named : List Reloc} (hLaid : Laid sections) (hClear : named.Pairwise Reloc.Clear)
    (h : named.foldlM (applyOne delta) sections = .ok sections') :
    SameShape sections sections' ∧ AdjustedOnce delta named (fileByte sections) (fileByte sections') := by
  induction named generalizing sections with
  | nil =>
    cases h
    exact ⟨.refl _, .nil, fun r hr => absurd hr not_mem_nil, fun a _ => rfl⟩
  | cons r rest ih =>
    rw [foldlM_cons] at h
    obtain ⟨middle, hOne, hRest⟩ := ok_of_bind h
    rw [pairwise_cons] at hClear
    obtain ⟨hShape, old, hOld, hNew, hElse⟩ := applyOne_adds hLaid hOne
    obtain ⟨hShape', -, hAdjusted, hOthers⟩ := ih (hShape.laid hLaid) hClear.2 hRest
    refine ⟨hShape.trans hShape', List.pairwise_cons.mpr hClear, List.forall_mem_cons.mpr ⟨⟨old, hOld, ?_⟩, fun r' hr' => ?_⟩,
      fun a ha => ?_⟩
    · rw [← hNew]
      refine bytesAt_congr fun k hk => hOthers _ fun r' hr' => ?_
      have hApart := hClear.1 r' hr'
      unfold Reloc.Clear at hApart
      omega
    · obtain ⟨old', hOld', hNew'⟩ := hAdjusted r' hr'
      refine ⟨old', ?_, hNew'⟩
      rw [← hOld']
      refine bytesAt_congr fun k hk => (hElse _ ?_).symm
      have hApart := hClear.1 r' hr'
      unfold Reloc.Clear at hApart
      omega
    · rw [hOthers a fun r' hr' => ha r' (mem_cons_of_mem _ hr'), hElse a (ha r mem_cons_self)]

end Effect

end Exemu.Loader
