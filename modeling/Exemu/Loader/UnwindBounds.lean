import Exemu.Loader.Slices
import Exemu.Loader.Unwind

/-! # Unwind records stay within the sections

What the parser takes of a record is there: the head, all the slots it counts and the trailer its
flags ask for, and so on along the chain.
-/
namespace Exemu.Loader

def Byte (sections : List Section) (addr : U32) : Prop :=
  ∃ s ∈ sections, ∃ i < s.data.length, addr = s.rva + BitVec.ofNat 32 i

def Available (sections : List Section) (addr : U32) (n : Nat) : Prop :=
  ∀ k < n, Byte sections (addr + BitVec.ofNat 32 k)

/-- All of a record is there, and of the records it is chained to, of which there may be so many. -/
def Complete (sections : List Section) : Nat → U32 → Prop
  | left, rva => ∃ b0 count, unwindU8 sections rva = .ok b0 ∧ unwindU8 sections (rva + 2) = .ok count ∧
    Available sections rva (4 + 2 * count.toNat) ∧
    if (b0 >>> 3) &&& UNW_FLAG_CHAININFO ≠ 0 then
      Available sections (afterCodes rva count) 12 ∧ ∃ unwindRva, unwindU32 sections (afterCodes rva count + 8) = .ok unwindRva ∧
        match left with
        | 0 => False
        | left + 1 => Complete sections left unwindRva
    else if (b0 >>> 3) &&& (UNW_FLAG_EHANDLER ||| UNW_FLAG_UHANDLER) ≠ 0 then Available sections (afterCodes rva count) 4
    else True

section Bounds

variable {sections : List Section} {rva base : U32} {version : U8}

theorem Available.append {n m : Nat} (h : Available sections rva n) (hMore : Available sections (rva + BitVec.ofNat 32 n) m) :
    Available sections rva (n + m) := by
  intro k hk
  by_cases hIn : k < n
  · exact h k hIn
  · have hByte := hMore (k - n) (by omega)
    rwa [BitVec.add_assoc, ← BitVec.ofNat_add, Nat.add_sub_cancel' (Nat.le_of_not_lt hIn)] at hByte

theorem sliceAt_available {n : Nat} {bs : List U8} (h : sliceAt sections rva n = .ok bs) : Available sections rva n := by
  obtain ⟨s, hs, hCovers, hIn, -⟩ := sliceAt_ok h
  have hLow := ((Section.covers_iff _ _).mp hCovers).1
  intro k hk
  refine ⟨s, hs, rva.toNat - s.rva.toNat + k, by omega, ?_⟩
  rw [BitVec.ofNat_add, ← BitVec.add_assoc]
  congr 1
  bv_omega

theorem ok_of_mapError {ε ε' α : Type} {f : ε → ε'} {x : Except ε α} {a : α} (h : x.mapError f = .ok a) : x = .ok a := by
  cases x with
  | error e => cases h
  | ok b =>
    cases h
    rfl

theorem unwindU8_available {v : U8} (h : unwindU8 sections rva = .ok v) : Available sections rva 1 := by
  obtain ⟨bs, hSlice, -⟩ := ok_of_bind (ok_of_mapError h)
  exact sliceAt_available hSlice

theorem unwindU16_available {v : U16} (h : unwindU16 sections rva = .ok v) : Available sections rva 2 := by
  obtain ⟨bs, hSlice, -⟩ := ok_of_bind (ok_of_mapError h)
  exact sliceAt_available hSlice

theorem unwindU32_available {v : U32} (h : unwindU32 sections rva = .ok v) : Available sections rva 4 := by
  obtain ⟨bs, hSlice, -⟩ := ok_of_bind (ok_of_mapError h)
  exact sliceAt_available hSlice

theorem unwindOp_available {i : Nat} {op opInfo : U8} {o : UnwindOp} {used : Nat} (h : unwindOp sections version base i op opInfo = .ok (o, used)) :
    0 < used ∧ Available sections (base + BitVec.ofNat 32 ((i + 1) * 2)) (2 * (used - 1)) := by
  have hNone : Available sections (base + BitVec.ofNat 32 ((i + 1) * 2)) 0 := fun k hk => absurd hk (Nat.not_lt_zero k)
  have hShort : ∀ {f : U16 → UnwindOp}, (unwindU16 sections (base + BitVec.ofNat 32 ((i + 1) * 2)) >>= fun v => pure (f v, 2)) = .ok (o, used) →
      0 < used ∧ Available sections (base + BitVec.ofNat 32 ((i + 1) * 2)) (2 * (used - 1)) := by
    intro f h
    obtain ⟨v, hRead, hDone⟩ := ok_of_bind h
    cases hDone
    exact ⟨Nat.two_pos, unwindU16_available hRead⟩
  have hFar : ∀ {f : U32 → UnwindOp}, (unwindU32 sections (base + BitVec.ofNat 32 ((i + 1) * 2)) >>= fun v => pure (f v, 3)) = .ok (o, used) →
      0 < used ∧ Available sections (base + BitVec.ofNat 32 ((i + 1) * 2)) (2 * (used - 1)) := by
    intro f h
    obtain ⟨v, hRead, hDone⟩ := ok_of_bind h
    cases hDone
    exact ⟨Nat.succ_pos 2, unwindU32_available hRead⟩
  unfold unwindOp at h
  dsimp only at h
  split at h
  · cases h
    exact ⟨Nat.one_pos, hNone⟩
  · split at h
    · exact hShort h
    · exact hFar h
    · cases h
  · cases h
    exact ⟨Nat.one_pos, hNone⟩
  · cases h
    exact ⟨Nat.one_pos, hNone⟩
  · exact hShort h
  · exact hFar h
  · split at h
    · obtain ⟨v, -, hDone⟩ := ok_of_bind h
      cases hDone
      exact ⟨Nat.one_pos, hNone⟩
    · cases h
  · exact hShort h
  · exact hFar h
  · cases h
    exact ⟨Nat.one_pos, hNone⟩
  · cases h

theorem unwindCodes_available {i count fuel : Nat} {read codes : List UnwindCode} {last : Nat}
    (h : unwindCodes sections version base count fuel i read = .ok (last, codes)) :
    i ≤ last ∧ (count ≤ i + fuel → count ≤ last) ∧ Available sections (base + BitVec.ofNat 32 (i * 2)) (2 * (last - i)) := by
  induction fuel generalizing i read with
  | zero =>
    cases h
    refine ⟨Nat.le_refl _, fun hEnough => hEnough, fun k hk => ?_⟩
    omega
  | succ fuel ih =>
    rw [unwindCodes] at h
    split at h
    · obtain ⟨lo, hLo, h⟩ := ok_of_bind h
      obtain ⟨hi, hHi, h⟩ := ok_of_bind h
      obtain ⟨⟨op, used⟩, hOp, h⟩ := ok_of_bind h
      obtain ⟨hUsed, hExtra⟩ := unwindOp_available hOp
      obtain ⟨hLast, hEnd, hRest⟩ := ih h
      refine ⟨by omega, fun hEnough => hEnd (by omega), ?_⟩
      have hFirst : Available sections (base + BitVec.ofNat 32 (i * 2)) 2 := by
        refine (unwindU8_available hLo).append (m := 1) ?_
        rw [BitVec.add_assoc, ← BitVec.ofNat_add]
        exact unwindU8_available hHi
      have hSlots : Available sections (base + BitVec.ofNat 32 (i * 2)) (2 + 2 * (used - 1)) := by
        refine hFirst.append ?_
        rw [BitVec.add_assoc, ← BitVec.ofNat_add, ← Nat.succ_mul]
        exact hExtra
      have hAll := hSlots.append (m := 2 * (last - (i + used))) (by
        rw [BitVec.add_assoc, ← BitVec.ofNat_add, show i * 2 + (2 + 2 * (used - 1)) = (i + used) * 2 by omega]
        exact hRest)
      rwa [show 2 + 2 * (used - 1) + 2 * (last - (i + used)) = 2 * (last - i) by omega] at hAll
    · cases h
      refine ⟨Nat.le_refl _, fun _ => by omega, fun k hk => ?_⟩
      omega

theorem unwindInfo_available {deeper : Option (U32 → UnwindResult UnwindInfo)} {info : UnwindInfo}
    (h : unwindInfo sections deeper rva = .ok info) :
    ∃ b0 count trailer, unwindU8 sections rva = .ok b0 ∧ unwindU8 sections (rva + 2) = .ok count ∧
      Available sections rva (4 + 2 * count.toNat) ∧ unwindTrailer sections deeper (b0 >>> 3) (afterCodes rva count) = .ok trailer := by
  obtain ⟨b0, h0, h⟩ := ok_of_bind h
  dsimp only at h
  split at h
  · cases h
  · obtain ⟨prologSize, h1, h⟩ := ok_of_bind h
    obtain ⟨count, h2, h⟩ := ok_of_bind h
    obtain ⟨b3, h3, h⟩ := ok_of_bind h
    obtain ⟨⟨last, codes⟩, hCodes, h⟩ := ok_of_bind h
    dsimp only at h
    split at h
    · cases h
    · rename_i hOver
      obtain ⟨trailer, hTrailer, -⟩ := ok_of_bind h
      obtain ⟨-, hEnd, hSlots⟩ := unwindCodes_available hCodes
      have hLast : last = count.toNat := Nat.le_antisymm (Nat.le_of_not_lt hOver) (hEnd (Nat.zero_add _).ge)
      have hHead : Available sections rva 4 :=
        (((unwindU8_available h0).append (m := 1) (unwindU8_available h1)).append (m := 1) (unwindU8_available h2)).append (m := 1)
          (unwindU8_available h3)
      refine ⟨b0, count, trailer, h0, h2, hHead.append ?_, hTrailer⟩
      rw [hLast, Nat.zero_mul, BitVec.add_zero] at hSlots
      exact hSlots

theorem runtimeFunction_available {parseInfo : U32 → UnwindResult UnwindInfo} {e : UnwindEntry}
    (h : runtimeFunction sections parseInfo rva = .ok (some e)) :
    Available sections rva 12 ∧ ∃ unwindRva, unwindU32 sections (rva + 8) = .ok unwindRva ∧ parseInfo unwindRva = .ok e.info := by
  obtain ⟨beginRva, hBegin, h⟩ := ok_of_bind h
  obtain ⟨endRva, hEnd, h⟩ := ok_of_bind h
  obtain ⟨unwindRva, hUnwind, h⟩ := ok_of_bind h
  dsimp only at h
  split at h
  · cases h
  · split at h
    · cases h
    · obtain ⟨info, hInfo, hDone⟩ := ok_of_bind h
      cases hDone
      exact ⟨((unwindU32_available hBegin).append (m := 4) (unwindU32_available hEnd)).append (m := 4) (unwindU32_available hUnwind),
        unwindRva, hUnwind, hInfo⟩

theorem unwindTrailer_available {deeper : Option (U32 → UnwindResult UnwindInfo)} {flags : U8}
    {trailer : Option U32 × Option U32 × Option UnwindEntry} (h : unwindTrailer sections deeper flags rva = .ok trailer) :
    if flags &&& UNW_FLAG_CHAININFO ≠ 0 then
      Available sections rva 12 ∧ ∃ unwindRva, unwindU32 sections (rva + 8) = .ok unwindRva ∧
        ∃ parseInfo info, deeper = some parseInfo ∧ parseInfo unwindRva = .ok info
    else if flags &&& (UNW_FLAG_EHANDLER ||| UNW_FLAG_UHANDLER) ≠ 0 then Available sections rva 4
    else True := by
  unfold unwindTrailer at h
  split at h
  · rename_i hChained
    rw [if_pos hChained]
    cases deeper with
    | none => cases h
    | some parseInfo =>
      obtain ⟨entry, hEntry, hDone⟩ := ok_of_bind h
      cases entry with
      | none => cases hDone
      | some e =>
        obtain ⟨hRecord, unwindRva, hRead, hInfo⟩ := runtimeFunction_available hEntry
        exact ⟨hRecord, unwindRva, hRead, parseInfo, e.info, rfl, hInfo⟩
  · rename_i hAlone
    rw [if_neg hAlone]
    split at h
    · rename_i hHandler
      obtain ⟨handler, hRead, -⟩ := ok_of_bind h
      rw [if_pos hHandler]
      exact unwindU32_available hRead
    · rename_i hHandler
      rw [if_neg hHandler]
      trivial

theorem parseUnwindInfo_complete {left : Nat} {info : UnwindInfo} (h : parseUnwindInfo sections left rva = .ok info) :
    Complete sections left rva := by
  induction left generalizing rva info with
  | zero =>
    obtain ⟨b0, count, trailer, h0, h2, hHere, hTrailer⟩ := unwindInfo_available h
    have hBehind := unwindTrailer_available hTrailer
    refine ⟨b0, count, h0, h2, hHere, ?_⟩
    split at hBehind
    · obtain ⟨-, unwindRva, -, parseInfo, parent, hNone, -⟩ := hBehind
      cases hNone
    · rwa [if_neg ‹_›]
  | succ left ih =>
    obtain ⟨b0, count, trailer, h0, h2, hHere, hTrailer⟩ := unwindInfo_available h
    have hBehind := unwindTrailer_available hTrailer
    refine ⟨b0, count, h0, h2, hHere, ?_⟩
    split at hBehind
    · rename_i hChained
      obtain ⟨hRecord, unwindRva, hRead, parseInfo, parent, hDeeper, hParent⟩ := hBehind
      cases hDeeper
      rw [if_pos hChained]
      exact ⟨hRecord, unwindRva, hRead, ih hParent⟩
    · rwa [if_neg ‹_›]

/-! ## The table -/

theorem parseFunctionTable_sorted (dirRva dirSize : U32) :
    (parseFunctionTable sections dirRva dirSize).Pairwise fun a b => a.beginRva ≤ b.beginRva := by
  have hSorted := @List.pairwise_mergeSort UnwindEntry (fun a b => decide (a.beginRva ≤ b.beginRva))
    (fun a b c hab hbc => decide_eq_true (BitVec.le_trans (of_decide_eq_true hab) (of_decide_eq_true hbc)))
    (fun a b => by simpa using BitVec.le_total a.beginRva b.beginRva)
  exact (hSorted _).imp of_decide_eq_true

theorem mem_parseFunctionTable {dirRva dirSize : U32} {e : UnwindEntry} :
    e ∈ parseFunctionTable sections dirRva dirSize ↔
      ∃ i < unwindCount sections dirRva dirSize,
        parseRuntimeFunction sections MAX_CHAIN_DEPTH (dirRva + BitVec.ofNat 32 (i * 12)) = .ok (some e) := by
  rw [parseFunctionTable, List.mem_mergeSort, List.mem_filterMap]
  refine exists_congr fun i => ?_
  rw [List.mem_range]
  refine and_congr_right fun _ => ?_
  cases parseRuntimeFunction sections MAX_CHAIN_DEPTH (dirRva + BitVec.ofNat 32 (i * 12)) with
  | error err =>
    refine ⟨fun h => ?_, fun h => ?_⟩
    · cases h
    · cases h
  | ok entry =>
    refine ⟨fun h => ?_, fun h => ?_⟩
    · exact congrArg Except.ok h
    · cases h
      rfl

/-- Records in the form the format prescribes are read as they were meant, along at most eight links; the
table is in the order of the functions; and nothing is accepted that is not all there. -/
theorem unwind_records (sections : List Section) :
    (∀ (r : UnwindRecord) (rva : U32), r.Fits → r.Stored sections rva →
      parseUnwindInfo sections MAX_CHAIN_DEPTH rva = if r.links ≤ MAX_CHAIN_DEPTH then .ok (r.info rva) else .error .tooDeep) ∧
    (∀ dirRva dirSize : U32, ((parseFunctionTable sections dirRva dirSize).Pairwise fun a b => a.beginRva ≤ b.beginRva) ∧
      ∀ e, e ∈ parseFunctionTable sections dirRva dirSize ↔ ∃ i < unwindCount sections dirRva dirSize,
        parseRuntimeFunction sections MAX_CHAIN_DEPTH (dirRva + BitVec.ofNat 32 (i * 12)) = .ok (some e)) ∧
    ∀ (left : Nat) (rva : U32), ¬Complete sections left rva → ∃ e, parseUnwindInfo sections left rva = .error e := by
  refine ⟨fun r rva hFits hStored => parseUnwindInfo_stored hFits hStored MAX_CHAIN_DEPTH,
    fun dirRva dirSize => ⟨parseFunctionTable_sorted dirRva dirSize, fun e => mem_parseFunctionTable⟩, fun left rva hMissing => ?_⟩
  cases hParse : parseUnwindInfo sections left rva with
  | error e => exact ⟨e, rfl⟩
  | ok info => exact absurd (parseUnwindInfo_complete hParse) hMissing

end Bounds

/-! ## A longer chain -/

def bareHead : RecordHead := ⟨1, 0, 0, 0, []⟩

/-- A record at `rva` with so many links, each to the sixteen bytes behind. -/
def linked : Nat → U32 → UnwindRecord
  | 0, _ => .plain bareHead
  | n + 1, rva => .chained bareHead 1 2 (rva + 16) (linked n (rva + 16))

def linkedBytes : Nat → U32 → List U8
  | 0, rva => (linked 0 rva).bytes
  | n + 1, rva => (linked (n + 1) rva).bytes ++ linkedBytes n (rva + 16)

def linkedSection (n : Nat) (rva : U32) : Section where
  name := []
  rva
  virtualSize := 0
  data := linkedBytes n rva
  readable := true
  writable := false
  executable := false

theorem bareHead_fits : bareHead.Fits := ⟨.inl rfl, fun c hc => absurd hc List.not_mem_nil, by decide⟩

theorem linked_fits (n : Nat) (rva : U32) : (linked n rva).Fits := by
  induction n generalizing rva with
  | zero => exact bareHead_fits
  | succ n ih => exact ⟨bareHead_fits, (by decide : (1 : U32) < 2), ih (rva + 16)⟩

theorem linked_stored {sections : List Section} {n : Nat} {rva : U32} (h : Served sections rva (linkedBytes n rva)) :
    (linked n rva).Stored sections rva := by
  induction n generalizing rva with
  | zero => exact h
  | succ n ih => exact ⟨h.left, ih h.right⟩

theorem nine_links_unread :
    ¬∀ (sections : List Section) (r : UnwindRecord) (rva : U32), r.Fits → r.Stored sections rva →
      parseUnwindInfo sections MAX_CHAIN_DEPTH rva = .ok (r.info rva) := by
  intro hAll
  have hLaid : Laid [linkedSection 9 0x1000] := by
    refine ⟨List.pairwise_singleton _ _, fun s hs => ?_⟩
    obtain rfl := List.mem_singleton.mp hs
    decide +kernel
  have hHolds : Holds [linkedSection 9 0x1000] 0x1000 (linkedBytes 9 0x1000) :=
    ⟨by decide +kernel, _, List.mem_singleton_self _, by decide +kernel, by decide +kernel, by decide +kernel⟩
  have hRead := hAll _ _ _ (linked_fits 9 0x1000) (linked_stored (hHolds.served hLaid))
  rw [parseUnwindInfo_stored (linked_fits 9 0x1000) (linked_stored (hHolds.served hLaid))] at hRead
  cases hRead
end Exemu.Loader
