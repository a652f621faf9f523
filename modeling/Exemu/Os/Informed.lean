import Exemu.Os.KeyInformation
import Exemu.Os.Enumeration

/-! # The information calls and their buffers

A call stays within its buffer, succeeds with a complete structure only, and names a length that
suffices, as long as that length fits in the 32 bits it is reported in.
-/
namespace Exemu.Os

open BitVec List Nat

open Path (Text)

/-! ## Fields and names -/

theorem length_utf16Le (s : Text) : (utf16Le s).length = utf16Length s := by
  unfold utf16Le utf16Length
  generalize encodeUtf16 s = us
  induction us with
  | nil => rfl
  | cons u us ih =>
    rw [flatMap_cons, length_append, ih, length_toLe, length_cons]
    omega

theorem utf16Bytes_eq (s : Text) : utf16Bytes s = BitVec.ofNat 32 (utf16Le s).length := by
  rw [length_utf16Le]
  rfl

theorem length_le32 (n : Nat) : (le32 n).length = 4 := length_toLe ..

theorem u32_le32 (addr : U64) {v : U32} {n : Nat} (hv : v.toNat = n) : Store.u32 addr v = ⟨addr, le32 n⟩ := by
  subst hv
  unfold Store.u32 le32
  congr 2
  apply eq_of_toNat_eq
  simp

theorem writeUnits_fills (addr maxBytes : U64) (us : List U16) (n : Nat) (hFits : n + 2 * us.length < 2 ^ 64 - 2) :
    Fills (addr + BitVec.ofNat 64 n) (maxBytes.toNat - n) (writeUnits addr maxBytes (BitVec.ofNat 64 n) us)
      (us.flatMap fun u => toLe 2 (u.setWidth 64)) := by
  induction us generalizing n with
  | nil => exact ⟨[], rfl, nil_prefix, zero_le _, fun _ => rfl⟩
  | cons u us ih =>
    rw [length_cons] at hFits
    have hNext : BitVec.ofNat 64 n + 2 = BitVec.ofNat 64 (n + 2) := (ofNat_add _ _).symm
    have hSum : (BitVec.ofNat 64 (n + 2)).toNat = n + 2 := by
      rw [toNat_ofNat, mod_eq_of_lt (by omega)]
    rw [writeUnits, flatMap_cons, hNext]
    split
    · rename_i hStop
      rw [lt_def, hSum] at hStop
      refine ⟨[], rfl, nil_prefix, zero_le _, fun hRoom => ?_⟩
      rw [length_append, length_toLe] at hRoom
      omega
    · rename_i hMore
      rw [lt_def, hSum] at hMore
      have hUnit := @Fills.whole (addr + BitVec.ofNat 64 n) (maxBytes.toNat - n) [toLe 2 (u.setWidth 64)]
        (by simp only [List.flatten_singleton, length_toLe]; omega)
      have hRest := ih (n + 2) (by omega)
      have hUnits := hUnit.append (by simp only [List.flatten_singleton, length_toLe]; omega)
        (by rw [List.flatten_singleton, length_toLe, add_ofNat, Nat.sub_sub]; exact hRest)
      rwa [List.flatten_singleton] at hUnits

theorem writeUtf16Bounded_fills (addr maxBytes : U64) {s : Text} (hFits : (utf16Le s).length < 2 ^ 32) :
    Fills addr maxBytes.toNat (writeUtf16Bounded addr s maxBytes) (utf16Le s) := by
  rw [length_utf16Le] at hFits
  unfold utf16Length at hFits
  have hName := writeUnits_fills addr maxBytes (encodeUtf16 s) 0 (by omega)
  rwa [BitVec.add_zero] at hName

/-! ## What a call promises -/

abbrev KeyCall := U64 → U64 → U64 → Reply

/-- The call writes a structure of a known size, whose fixed part it wants room for in any case. -/
structure Sized (call : KeyCall) (content : U64 → List U8) (size fixed : Nat) (measure : U64 → Nat) : Prop where
  length_eq : ∀ lwt, (content lwt).length = size
  fixed_le : fixed ≤ size
  required : ∀ length lwt buf, (call length lwt buf).required = some (BitVec.ofNat 32 size)
  small : ∀ length lwt buf, measure length < fixed →
    (call length lwt buf).body = [] ∧ (call length lwt buf).status ≠ Reg.NT_SUCCESS
  status : ∀ length lwt buf, fixed ≤ measure length →
    ((call length lwt buf).status = Reg.NT_SUCCESS ↔ size % 2 ^ 32 ≤ measure length)
  fills : ∀ length lwt buf, fixed ≤ measure length → size < 2 ^ 32 →
    Fills buf length.toNat (call length lwt buf).body (content lwt)

/-- In a buffer of `room` bytes, whose length is passed as `length`. -/
structure Serves (call : KeyCall) (content : U64 → List U8) (length : U64) (room : Nat) : Prop where
  within : ∀ lwt buf, ∀ st ∈ (call length lwt buf).body, st.Within buf room
  complete : ∀ lwt buf, (call length lwt buf).status = Reg.NT_SUCCESS → Packed buf (call length lwt buf).body (content lwt)

def Suffices (call : KeyCall) (content : U64 → List U8) : Prop :=
  ∃ n : U32, (∀ length lwt buf, (call length lwt buf).required = some n) ∧ Serves call content (n.setWidth 64) n.toNat ∧
    ∀ lwt buf, (call (n.setWidth 64) lwt buf).status = Reg.NT_SUCCESS

def Refuses (call : KeyCall) : Prop :=
  ∀ length lwt buf, (call length lwt buf).required = none ∧ (call length lwt buf).body = [] ∧
    (call length lwt buf).status ≠ Reg.NT_SUCCESS

namespace Sized

theorem of_eq {call : KeyCall} {content : U64 → List U8} {size fixed : Nat} {measure : U64 → Nat}
    (body : U64 → U64 → U64 → List Store)
    (hLength : ∀ lwt, (content lwt).length = size) (hFixed : fixed ≤ size)
    (hCall : ∀ length lwt buf, call length lwt buf =
      if measure length < fixed then ⟨some (BitVec.ofNat 32 size), [], Reg.STATUS_BUFFER_TOO_SMALL⟩
      else ⟨some (BitVec.ofNat 32 size), body length lwt buf,
        if measure length < size % 2 ^ 32 then Reg.STATUS_BUFFER_OVERFLOW else Reg.NT_SUCCESS⟩)
    (hFills : ∀ length lwt buf, fixed ≤ measure length → size < 2 ^ 32 →
      Fills buf length.toNat (body length lwt buf) (content lwt)) : Sized call content size fixed measure where
  length_eq := hLength
  fixed_le := hFixed
  required length lwt buf := by
    rw [hCall]
    split <;> rfl
  small length lwt buf hSmall := by
    rw [hCall, if_pos hSmall]
    exact ⟨rfl, show Reg.STATUS_BUFFER_TOO_SMALL ≠ Reg.NT_SUCCESS by decide⟩
  status length lwt buf hLarge := by
    rw [hCall, if_neg (Nat.not_lt.mpr hLarge)]
    dsimp only
    split
    · rename_i hShort
      exact iff_of_false (by decide) (Nat.not_le.mpr hShort)
    · rename_i hEnough
      exact iff_of_true rfl (Nat.le_of_not_lt hEnough)
  fills length lwt buf hLarge hSize := by
    rw [hCall, if_neg (Nat.not_lt.mpr hLarge)]
    exact hFills length lwt buf hLarge hSize

variable {call : KeyCall} {content : U64 → List U8} {size fixed : Nat} {measure : U64 → Nat}

theorem serves (h : Sized call content size fixed measure) (hSize : size < 2 ^ 32) {length : U64} (hMeasure : measure length ≤ length.toNat)
    {room : Nat} (hRoom : length.toNat ≤ room ∨ size ≤ room ∨ measure length < fixed) (hFits : room ≤ 2 ^ 64) :
    Serves call content length room where
  within lwt buf st hst := by
    rcases lt_or_ge (measure length) fixed with hSmall | hLarge
    · rw [(h.small length lwt buf hSmall).1] at hst
      cases hst
    · have hFills := h.fills length lwt buf hLarge hSize
      rcases hRoom with hWide | hWhole | hSmall
      · intro k hk
        exact (hFills.within length.isLt.le hst k hk).trans_le hWide
      · obtain ⟨cs, hBody, hPre, -, -⟩ := hFills
        rw [hBody] at hst
        refine packed_within ?_ hFits hst
        exact hPre.length_le.trans ((h.length_eq lwt).trans_le hWhole)
      · omega
  complete lwt buf hDone := by
    rcases lt_or_ge (measure length) fixed with hSmall | hLarge
    · exact absurd hDone (h.small length lwt buf hSmall).2
    · have hEnough := (h.status length lwt buf hLarge).mp hDone
      rw [mod_eq_of_lt hSize] at hEnough
      exact (h.fills length lwt buf hLarge hSize).packed (by rw [h.length_eq]; omega)

theorem suffices_of_lt (h : Sized call content size fixed measure) (hSize : size < 2 ^ 32)
    (hMeasure : ∀ length : U64, length.toNat < 2 ^ 32 → measure length = length.toNat) : Suffices call content := by
  have hNumber : (BitVec.ofNat 32 size).toNat = size := by
    rw [toNat_ofNat, mod_eq_of_lt hSize]
  have hLength : ((BitVec.ofNat 32 size).setWidth 64).toNat = size := by
    rw [toNat_setWidth, hNumber, mod_eq_of_lt (by omega)]
  have hMeasured : measure ((BitVec.ofNat 32 size).setWidth 64) = size := by rw [hMeasure _ (by omega), hLength]
  refine ⟨BitVec.ofNat 32 size, h.required, h.serves hSize (by omega) (.inr (.inl (by omega))) (by omega), fun lwt buf => ?_⟩
  rw [h.status _ lwt buf (hMeasured.symm ▸ h.fixed_le), hMeasured]
  exact mod_le size _

theorem lt_of_suffices (h : Sized call content size fixed measure) (hSuffices : Suffices call content) : size < 2 ^ 32 := by
  obtain ⟨n, -, hServes, hDone⟩ := hSuffices
  have hNumber := n.isLt
  obtain ⟨cs, hBody, hBytes⟩ := hServes.complete 0 0 (hDone 0 0)
  have hWithin := hServes.within 0 0
  rw [hBody] at hWithin
  have hLength := length_le_of_within (by omega) hWithin
  rw [hBytes, h.length_eq] at hLength
  exact hLength.trans_lt hNumber

theorem size_le_of_serves (h : Sized call content size fixed measure) (hSize : size < 2 ^ 32) {length : U64}
    (hWide : size ≤ length.toNat) (hLarge : fixed ≤ measure length) {room : Nat} (hRoom : room < 2 ^ 64)
    (hServes : Serves call content length room) : size ≤ room := by
  obtain ⟨cs, hBody, hBytes⟩ := (h.fills length 0 0 hLarge hSize).packed (by rw [h.length_eq]; exact hWide)
  have hWithin := hServes.within 0 0
  rw [hBody] at hWithin
  have hLength := length_le_of_within hRoom hWithin
  rwa [hBytes, h.length_eq] at hLength

end Sized

/-! ## The writers -/

def lowHalf (length : U64) : Nat := length.toNat % 2 ^ 32

theorem lowHalf_le (length : U64) : lowHalf length ≤ length.toNat := mod_le _ _

theorem toNat_sub_ofNat {length : U64} {n : Nat} (hn : n ≤ length.toNat) : (length - BitVec.ofNat 64 n).toNat = length.toNat - n := by
  have hLess := length.isLt
  rw [toNat_sub, toNat_ofNat]
  omega

theorem toNat_utf16Le {name : Text} (hName : (utf16Le name).length < 2 ^ 32) : (utf16Bytes name).toNat = (utf16Le name).length := by
  rw [utf16Bytes_eq, toNat_ofNat, mod_eq_of_lt hName]

section Shapes

variable {length : U64} {body : List Store} {fixed size : Nat}

theorem value_shape {header total : U32} (hHeader : header.toNat = fixed) (hTotal : total = BitVec.ofNat 32 size) :
    (if length.setWidth 32 < header then (⟨some total, [], Reg.STATUS_BUFFER_TOO_SMALL⟩ : Reply)
      else ⟨some total, body, if length.setWidth 32 < total then Reg.STATUS_BUFFER_OVERFLOW else Reg.NT_SUCCESS⟩) =
    if lowHalf length < fixed then ⟨some (BitVec.ofNat 32 size), [], Reg.STATUS_BUFFER_TOO_SMALL⟩
    else ⟨some (BitVec.ofNat 32 size), body,
      if lowHalf length < size % 2 ^ 32 then Reg.STATUS_BUFFER_OVERFLOW else Reg.NT_SUCCESS⟩ := by
  subst hHeader hTotal
  have hFixed : length.setWidth 32 < header ↔ lowHalf length < header.toNat := by
    rw [lt_def, toNat_setWidth]
    rfl
  have hWhole : length.setWidth 32 < BitVec.ofNat 32 size ↔ lowHalf length < size % 2 ^ 32 := by
    rw [lt_def, toNat_setWidth, toNat_ofNat]
    rfl
  simp only [hFixed, hWhole]

theorem key_shape {header : U64} {total : U32} (hHeader : header.toNat = fixed) (hTotal : total = BitVec.ofNat 32 size) :
    (if length < header then (⟨some total, [], Reg.STATUS_BUFFER_TOO_SMALL⟩ : Reply)
      else ⟨some total, body, if length < total.setWidth 64 then Reg.STATUS_BUFFER_OVERFLOW else Reg.NT_SUCCESS⟩) =
    if length.toNat < fixed then ⟨some (BitVec.ofNat 32 size), [], Reg.STATUS_BUFFER_TOO_SMALL⟩
    else ⟨some (BitVec.ofNat 32 size), body,
      if length.toNat < size % 2 ^ 32 then Reg.STATUS_BUFFER_OVERFLOW else Reg.NT_SUCCESS⟩ := by
  subst hHeader hTotal
  have hWide : ((BitVec.ofNat 32 size).setWidth 64).toNat = size % 2 ^ 32 := by
    rw [toNat_setWidth, toNat_ofNat, mod_eq_of_lt (by omega)]
  have hFixed : length < header ↔ length.toNat < header.toNat := lt_def
  have hWhole : length < (BitVec.ofNat 32 size).setWidth 64 ↔ length.toNat < size % 2 ^ 32 := by rw [lt_def, hWide]
  simp only [hFixed, hWhole]

theorem named_fills (a : U64) {hs : List (List U8)} {n : Nat} (hn : hs.flatten.length = n) (hRoom : n ≤ length.toNat)
    {name : Text} (hName : (utf16Le name).length < 2 ^ 32) :
    Fills a length.toNat (packed a hs ++ writeUtf16Bounded (a + BitVec.ofNat 64 n) name (length - BitVec.ofNat 64 n))
      (hs.flatten ++ utf16Le name) := by
  subst hn
  refine (Fills.whole hRoom).append hRoom ?_
  rw [← toNat_sub_ofNat hRoom]
  exact writeUtf16Bounded_fills _ _ hName

theorem data_fills (a : U64) {stores : List Store} {bytes : List U8} {n : Nat} (hn : bytes.length = n) (hRoom : n ≤ length.toNat)
    (h : Fills a length.toNat stores bytes) (data : List U8) :
    Fills a length.toNat (stores ++ [⟨a + BitVec.ofNat 64 n, data.take (length - BitVec.ofNat 64 n).toNat⟩]) (bytes ++ data) := by
  subst hn
  refine h.append hRoom ⟨[data.take (length - BitVec.ofNat 64 bytes.length).toNat], rfl, ?_, ?_, fun hAll => ?_⟩
  · rw [List.flatten_singleton]
    exact take_prefix _ _
  · rw [List.flatten_singleton, length_take, toNat_sub_ofNat hRoom]
    exact min_le_left _ _
  · rw [List.flatten_singleton, toNat_sub_ofNat hRoom, take_of_length_le hAll]

end Shapes

section Values

variable {name : Text} {ty : U32} {data : List U8}

theorem total_eq (name : Text) {v : U32} {n : Nat} (hv : v = BitVec.ofNat 32 n) :
    v + utf16Bytes name = BitVec.ofNat 32 (n + (utf16Le name).length) := by
  rw [utf16Bytes_eq, ofNat_add, hv]

theorem value_basic_sized :
    Sized (fun length _ buf => writeKeyValueInfo Reg.KEY_VALUE_BASIC_INFORMATION buf length name ty data)
      (fun _ => le32 0 ++ le32 ty.toNat ++ le32 (utf16Le name).length ++ utf16Le name) (12 + (utf16Le name).length) 12 lowHalf := by
  refine .of_eq (fun length _ buf => [.u32 buf 0, .u32 (buf + 4) ty, .u32 (buf + 8) (utf16Bytes name)] ++
    writeUtf16Bounded (buf + 12) name (length - 12)) (fun _ => ?_) (le_add_right _ _)
    (fun length lwt buf => ?_) (fun length lwt buf hLarge hSize => ?_)
  · simp only [length_append, length_le32]
  · unfold writeKeyValueInfo
    rw [if_pos rfl]
    exact value_shape rfl (total_eq name rfl)
  · have hFills := @named_fills length buf [le32 0, le32 ty.toNat, le32 (utf16Le name).length] 12 rfl
      (hLarge.trans (lowHalf_le length)) name (by omega)
    have hRow : packed buf [le32 0, le32 ty.toNat, le32 (utf16Le name).length] =
        [.u32 buf 0, .u32 (buf + 4) ty, .u32 (buf + 8) (utf16Bytes name)] := by
      rw [u32_le32 _ (toNat_utf16Le (by omega)), u32_le32 _ rfl, u32_le32 _ rfl]
      simp [packed_nil, packed_cons, length_le32, BitVec.add_assoc]
    rw [hRow] at hFills
    simpa [List.append_assoc] using hFills

theorem value_full_sized :
    Sized (fun length _ buf => writeKeyValueInfo Reg.KEY_VALUE_FULL_INFORMATION buf length name ty data)
      (fun _ => le32 0 ++ le32 ty.toNat ++ le32 (20 + (utf16Le name).length) ++ le32 data.length ++
        le32 (utf16Le name).length ++ utf16Le name ++ data) (20 + (utf16Le name).length + data.length) 20 lowHalf := by
  have hTotal : 20 + utf16Bytes name + BitVec.ofNat 32 data.length =
      BitVec.ofNat 32 (20 + (utf16Le name).length + data.length) := by
    rw [ofNat_add, ← total_eq name rfl]
    rfl
  refine .of_eq (fun length _ buf => [.u32 buf 0, .u32 (buf + 4) ty, .u32 (buf + 8) (20 + utf16Bytes name),
      .u32 (buf + 12) (BitVec.ofNat 32 data.length), .u32 (buf + 16) (utf16Bytes name)] ++
      writeUtf16Bounded (buf + 20) name (saturatingSub length 20) ++
      if 20 + (utf16Bytes name).setWidth 64 < length then
        [⟨buf + (20 + (utf16Bytes name).setWidth 64), data.take (length - (20 + (utf16Bytes name).setWidth 64)).toNat⟩]
      else []) (fun _ => ?_) (by omega)
    (fun length lwt buf => ?_) (fun length lwt buf hLarge hSize => ?_)
  · simp only [length_append, length_le32]
  · unfold writeKeyValueInfo
    rw [if_neg (by decide), if_pos rfl]
    exact value_shape rfl hTotal
  · have hRoom := hLarge.trans (lowHalf_le length)
    have hFills := @named_fills length buf [le32 0, le32 ty.toNat, le32 (20 + (utf16Le name).length), le32 data.length,
      le32 (utf16Le name).length] 20 rfl hRoom name (by omega)
    have hOffset : (20 + utf16Bytes name).toNat = 20 + (utf16Le name).length := by
      have hSum : 20 + utf16Bytes name = BitVec.ofNat 32 (20 + (utf16Le name).length) := total_eq name rfl
      rw [hSum, toNat_ofNat, mod_eq_of_lt (by omega)]
    have hData : (BitVec.ofNat 32 data.length).toNat = data.length := by
      rw [toNat_ofNat, mod_eq_of_lt (by omega)]
    have hRow : packed buf [le32 0, le32 ty.toNat, le32 (20 + (utf16Le name).length), le32 data.length, le32 (utf16Le name).length] =
        [.u32 buf 0, .u32 (buf + 4) ty, .u32 (buf + 8) (20 + utf16Bytes name),
          .u32 (buf + 12) (BitVec.ofNat 32 data.length), .u32 (buf + 16) (utf16Bytes name)] := by
      rw [u32_le32 _ (toNat_utf16Le (by omega)), u32_le32 _ hData, u32_le32 _ hOffset, u32_le32 _ rfl, u32_le32 _ rfl]
      simp [packed_nil, packed_cons, length_le32, BitVec.add_assoc]
    have hSaturated : saturatingSub length 20 = length - BitVec.ofNat 64 20 := by
      unfold saturatingSub
      rw [if_neg (by rw [lt_def]; exact Nat.not_lt.mpr hRoom)]
      rfl
    have hDataAt : 20 + (utf16Bytes name).setWidth 64 = BitVec.ofNat 64 (20 + (utf16Le name).length) := by
      rw [ofNat_add]
      congr 1
      apply eq_of_toNat_eq
      rw [toNat_setWidth, toNat_utf16Le (by omega), toNat_ofNat]
    have hBytes : ([le32 0, le32 ty.toNat, le32 (20 + (utf16Le name).length), le32 data.length,
        le32 (utf16Le name).length].flatten ++ utf16Le name).length = 20 + (utf16Le name).length := by
      rw [length_append]
      rfl
    rw [hRow] at hFills
    rw [hSaturated, hDataAt]
    have hContent : le32 0 ++ le32 ty.toNat ++ le32 (20 + (utf16Le name).length) ++ le32 data.length ++
        le32 (utf16Le name).length ++ utf16Le name ++ data = [le32 0, le32 ty.toNat, le32 (20 + (utf16Le name).length),
          le32 data.length, le32 (utf16Le name).length].flatten ++ utf16Le name ++ data := by
      simp [List.append_assoc]
    rw [hContent]
    have hAt : (BitVec.ofNat 64 (20 + (utf16Le name).length)).toNat = 20 + (utf16Le name).length := by
      rw [toNat_ofNat, mod_eq_of_lt (by omega)]
    split
    · rename_i hMore
      rw [lt_def, hAt] at hMore
      exact data_fills buf hBytes (by omega) hFills data
    · rename_i hFull
      rw [lt_def, hAt] at hFull
      rw [append_nil]
      exact hFills.full (by rw [hBytes]; omega)

theorem value_partial_sized :
    Sized (fun length _ buf => writeKeyValueInfo Reg.KEY_VALUE_PARTIAL_INFORMATION buf length name ty data)
      (fun _ => le32 0 ++ le32 ty.toNat ++ le32 data.length ++ data) (12 + data.length) 12 lowHalf := by
  have hTotal : (12 : U32) + BitVec.ofNat 32 data.length = BitVec.ofNat 32 (12 + data.length) := by
    rw [ofNat_add]
    rfl
  refine .of_eq (fun length _ buf => [.u32 buf 0, .u32 (buf + 4) ty, .u32 (buf + 8) (BitVec.ofNat 32 data.length),
      ⟨buf + 12, data.take (length - 12).toNat⟩]) (fun _ => ?_) (by omega)
    (fun length lwt buf => ?_) (fun length lwt buf hLarge hSize => ?_)
  · simp only [length_append, length_le32]
  · unfold writeKeyValueInfo
    rw [if_neg (by decide), if_neg (by decide), if_pos rfl]
    exact value_shape rfl hTotal
  · have hRoom := hLarge.trans (lowHalf_le length)
    have hData : (BitVec.ofNat 32 data.length).toNat = data.length := by
      rw [toNat_ofNat, mod_eq_of_lt (by omega)]
    have hRow : packed buf [le32 0, le32 ty.toNat, le32 data.length] =
        [.u32 buf 0, .u32 (buf + 4) ty, .u32 (buf + 8) (BitVec.ofNat 32 data.length)] := by
      rw [u32_le32 _ hData, u32_le32 _ rfl, u32_le32 _ rfl]
      simp [packed_nil, packed_cons, length_le32, BitVec.add_assoc]
    have hFixed := @Fills.whole buf length.toNat [le32 0, le32 ty.toNat, le32 data.length] hRoom
    rw [hRow] at hFixed
    have hWhole := @data_fills length buf _ _ 12 rfl hRoom hFixed data
    simpa [List.append_assoc] using hWhole

theorem value_sized (cls : U64) (name : Text) (ty : U32) (data : List U8) :
    (valueStructure cls name ty data = none ∧
      ∀ length buf, writeKeyValueInfo cls buf length name ty data = .fail Reg.STATUS_INVALID_PARAMETER) ∨
    ∃ bytes size, valueStructure cls name ty data = some bytes ∧
      Sized (fun length _ buf => writeKeyValueInfo cls buf length name ty data) (fun _ => bytes) size
        (if cls = Reg.KEY_VALUE_FULL_INFORMATION then 20 else 12) lowHalf := by
  unfold valueStructure
  split
  · rename_i hBasic
    subst hBasic
    exact .inr ⟨_, _, rfl, value_basic_sized⟩
  · rename_i hBasic
    split
    · rename_i hFull
      subst hFull
      exact .inr ⟨_, _, rfl, value_full_sized⟩
    · rename_i hFull
      split
      · rename_i hPartial
        subst hPartial
        exact .inr ⟨_, _, rfl, value_partial_sized⟩
      · rename_i hPartial
        refine .inl ⟨rfl, fun length buf => ?_⟩
        unfold writeKeyValueInfo
        rw [if_neg hBasic, if_neg hFull, if_neg hPartial]

/-- Title index, type, length and the data itself. -/
example : valueStructure Reg.KEY_VALUE_PARTIAL_INFORMATION "x".toList Reg.REG_DWORD [1, 2, 3, 4] =
    some [0, 0, 0, 0, 4, 0, 0, 0, 4, 0, 0, 0, 1, 2, 3, 4] := by decide +kernel

end Values

section Keys

variable {name : Text}

theorem key_basic_sized :
    Sized (fun length lwt buf => writeKeyNamed false buf length lwt name) (fun lwt => keyStructure false lwt name)
      (16 + (utf16Le name).length) 16 BitVec.toNat := by
  refine .of_eq (fun length lwt buf => [.u64 buf lwt, .u32 (buf + 8) 0] ++ [.u32 (buf + 12) (utf16Bytes name)] ++
    writeUtf16Bounded (buf + 16) name (length - 16)) (fun lwt => ?_) (le_add_right _ _)
    (fun length lwt buf => ?_) (fun length lwt buf hLarge hSize => ?_)
  · simp only [keyStructure, length_append, length_le32, length_toLe, Bool.false_eq_true, if_false, length_nil]
  · unfold writeKeyNamed
    simp only [Bool.false_eq_true, if_false]
    exact key_shape rfl (total_eq name rfl)
  · have hFills := @named_fills length buf [toLe 8 lwt, le32 0, le32 (utf16Le name).length] 16 rfl hLarge name (by omega)
    have hRow : packed buf [toLe 8 lwt, le32 0, le32 (utf16Le name).length] =
        [.u64 buf lwt, .u32 (buf + 8) 0] ++ [.u32 (buf + 12) (utf16Bytes name)] := by
      rw [u32_le32 _ (toNat_utf16Le (by omega)), u32_le32 _ rfl]
      simp [packed_nil, packed_cons, Store.u64, length_le32, BitVec.add_assoc]
    rw [hRow] at hFills
    simpa [keyStructure, List.append_assoc] using hFills

theorem key_node_sized :
    Sized (fun length lwt buf => writeKeyNamed true buf length lwt name) (fun lwt => keyStructure true lwt name)
      (24 + (utf16Le name).length) 24 BitVec.toNat := by
  refine .of_eq (fun length lwt buf => [.u64 buf lwt, .u32 (buf + 8) 0] ++
    [.u32 (buf + 12) 0, .u32 (buf + 16) 0, .u32 (buf + 20) (utf16Bytes name)] ++
    writeUtf16Bounded (buf + 24) name (length - 24)) (fun lwt => ?_) (le_add_right _ _)
    (fun length lwt buf => ?_) (fun length lwt buf hLarge hSize => ?_)
  · simp only [keyStructure, length_append, length_le32, length_toLe, if_true]
  · unfold writeKeyNamed
    simp only [if_true]
    exact key_shape rfl (total_eq name rfl)
  · have hFills := @named_fills length buf [toLe 8 lwt, le32 0, le32 0, le32 0, le32 (utf16Le name).length] 24 rfl hLarge name
      (by omega)
    have hRow : packed buf [toLe 8 lwt, le32 0, le32 0, le32 0, le32 (utf16Le name).length] =
        [.u64 buf lwt, .u32 (buf + 8) 0] ++ [.u32 (buf + 12) 0, .u32 (buf + 16) 0, .u32 (buf + 20) (utf16Bytes name)] := by
      rw [u32_le32 _ (toNat_utf16Le (by omega)), u32_le32 _ rfl, u32_le32 _ rfl, u32_le32 _ rfl]
      simp [packed_nil, packed_cons, Store.u64, length_le32, BitVec.add_assoc]
    rw [hRow] at hFills
    simpa [keyStructure, List.append_assoc] using hFills

theorem key_full_sized (i : KeyInfo) :
    Sized (fun length lwt buf => writeKeyFull buf length lwt i) (fun lwt => keyFullStructure lwt i) 44 44 BitVec.toNat := by
  refine .of_eq (fun length lwt buf => packed buf [toLe 8 lwt, le32 0, le32 44, le32 0, le32 i.subkeys.toNat,
      le32 i.maxSubkey.toNat, le32 0, le32 i.values.toNat, le32 i.maxName.toNat, le32 i.maxData.toNat]) (fun lwt => ?_) le_rfl
    (fun length lwt buf => ?_) (fun length lwt buf hLarge hSize => ?_)
  · simp only [keyFullStructure, length_append, length_le32, length_toLe]
  · unfold writeKeyFull
    have hTest : length < 44 ↔ length.toNat < 44 := lt_def
    simp only [hTest]
    split
    · rfl
    · rename_i hLarge
      have hWhole : ¬length.toNat < 44 % 2 ^ 32 := hLarge
      rw [if_neg hWhole]
      simp [packed_nil, packed_cons, Store.u64, Store.u32, le32, BitVec.add_assoc]
  · have hFills := @Fills.whole buf length.toNat [toLe 8 lwt, le32 0, le32 44, le32 0, le32 i.subkeys.toNat,
      le32 i.maxSubkey.toNat, le32 0, le32 i.values.toNat, le32 i.maxName.toNat, le32 i.maxData.toNat] hLarge
    simpa [keyFullStructure, List.append_assoc] using hFills

theorem key_name_sized :
    Sized (fun length _ buf => writeKeyName buf length name) (fun _ => le32 (utf16Le name).length ++ utf16Le name)
      (4 + (utf16Le name).length) 4 BitVec.toNat := by
  refine .of_eq (fun length _ buf => .u32 buf (utf16Bytes name) :: writeUtf16Bounded (buf + 4) name (length - 4)) (fun _ => ?_)
    (le_add_right _ _) (fun length lwt buf => key_shape rfl (total_eq name rfl)) (fun length lwt buf hLarge hSize => ?_)
  · simp only [length_append, length_le32]
  · have hFills := @named_fills length buf [le32 (utf16Le name).length] 4 rfl hLarge name (by omega)
    have hRow : packed buf [le32 (utf16Le name).length] = [.u32 buf (utf16Bytes name)] := by
      rw [u32_le32 _ (toNat_utf16Le (by omega))]
      rfl
    rw [hRow] at hFills
    simpa using hFills

example : keyStructure false 7 "a".toList = [7, 0, 0, 0, 0, 0, 0, 0, 0, 0, 0, 0, 2, 0, 0, 0, 97, 0] := by decide +kernel

end Keys

/-! ## The system calls -/

namespace KeyQuery

def tests : KeyQuery → U64 → Nat
  | .NtQueryValueKey .. | .NtEnumerateValueKey .. => lowHalf
  | .NtEnumerateKey .. | .NtQueryKey .. => BitVec.toNat

def fixedPart (q : KeyQuery) (cls : U64) : Nat :=
  match q with
  | .NtQueryValueKey .. | .NtEnumerateValueKey .. => if cls = Reg.KEY_VALUE_FULL_INFORMATION then 20 else 12
  | .NtEnumerateKey .. => if cls = Reg.KEY_NODE_INFORMATION then 24 else 16
  | .NtQueryKey .. =>
    if cls = Reg.KEY_NODE_INFORMATION then 24 else if cls = Reg.KEY_FULL_INFORMATION then 44
    else if cls = Reg.KEY_NAME_INFORMATION then 4 else 16

theorem tests_le (q : KeyQuery) (length : U64) : q.tests length ≤ length.toNat := by
  cases q with
  | NtQueryValueKey => exact lowHalf_le length
  | NtEnumerateValueKey => exact lowHalf_le length
  | NtEnumerateKey => exact le_rfl
  | NtQueryKey => exact le_rfl

theorem tests_eq (q : KeyQuery) {length : U64} (hLength : length.toNat < 2 ^ 32) : q.tests length = length.toNat := by
  cases q with
  | NtQueryValueKey => exact mod_eq_of_lt hLength
  | NtEnumerateValueKey => exact mod_eq_of_lt hLength
  | NtEnumerateKey => rfl
  | NtQueryKey => rfl

end KeyQuery

namespace Registry

def calls (s : Registry) (q : KeyQuery) (cls : U64) : KeyCall := fun length lwt buf => s.fill q cls buf length lwt

/-- The call finds nothing to say, or says it right in `room` bytes whose number is passed as `length`. -/
def Informs (s : Registry) (q : KeyQuery) (cls length : U64) (room : Nat) : Prop :=
  (∀ lwt, s.said q cls lwt = none) ∧ Refuses (s.calls q cls) ∨
    ∃ content, (∀ lwt, s.said q cls lwt = some (content lwt)) ∧ Serves (s.calls q cls) content length room ∧
      Suffices (s.calls q cls) content

def Shaped (s : Registry) (q : KeyQuery) (cls : U64) : Prop :=
  (∀ lwt, s.said q cls lwt = none) ∧ Refuses (s.calls q cls) ∨
    ∃ content size, (∀ lwt, s.said q cls lwt = some (content lwt)) ∧
      Sized (s.calls q cls) content size (q.fixedPart cls) q.tests

variable {s : Registry} {q : KeyQuery} {cls : U64}

theorem shaped_fail (status : U32) (hStatus : status ≠ Reg.NT_SUCCESS) (hSaid : ∀ lwt, s.said q cls lwt = none)
    (hCalls : ∀ length lwt buf, s.fill q cls buf length lwt = .fail status) : s.Shaped q cls := by
  refine .inl ⟨hSaid, fun length lwt buf => ?_⟩
  unfold calls
  rw [hCalls]
  exact ⟨rfl, rfl, hStatus⟩

theorem shaped_sized {call : KeyCall} {content : U64 → List U8} {size fixed : Nat} {measure : U64 → Nat}
    (hSized : Sized call content size fixed measure) (hFixed : q.fixedPart cls = fixed) (hTests : q.tests = measure)
    (hSaid : ∀ lwt, s.said q cls lwt = some (content lwt))
    (hCalls : ∀ length lwt buf, s.fill q cls buf length lwt = call length lwt buf) : s.Shaped q cls := by
  refine .inr ⟨content, size, hSaid, ?_⟩
  have hSame : s.calls q cls = call := funext fun length => funext fun lwt => funext fun buf => hCalls length lwt buf
  rw [hSame, hFixed, hTests]
  exact hSized

theorem shaped_value (v : Text × RegValue) (hFixed : q.fixedPart cls = if cls = Reg.KEY_VALUE_FULL_INFORMATION then 20 else 12)
    (hTests : q.tests = lowHalf) (hSaid : ∀ lwt, s.said q cls lwt = valueStructure cls v.1 v.2.1 v.2.2)
    (hCalls : ∀ length lwt buf, s.fill q cls buf length lwt = writeKeyValueInfo cls buf length v.1 v.2.1 v.2.2) :
    s.Shaped q cls := by
  rcases value_sized cls v.1 v.2.1 v.2.2 with ⟨hNone, hFail⟩ | ⟨bytes, size, hSome, hSized⟩
  · exact shaped_fail Reg.STATUS_INVALID_PARAMETER (by decide) (fun lwt => (hSaid lwt).trans hNone)
      fun length lwt buf => (hCalls length lwt buf).trans (hFail length buf)
  · exact shaped_sized hSized hFixed hTests (fun lwt => (hSaid lwt).trans hSome) hCalls

theorem call_ntQueryValueKey (hkey : U64) (name : Text) : s.call (.NtQueryValueKey hkey name) = s.ntQueryValueKey hkey name := rfl

theorem call_ntEnumerateValueKey (hkey index : U64) : s.call (.NtEnumerateValueKey hkey index) = s.ntEnumerateValueKey hkey index := rfl

theorem call_ntEnumerateKey (hkey index : U64) : s.call (.NtEnumerateKey hkey index) = s.ntEnumerateKey hkey index := rfl

theorem call_ntQueryKey (hkey : U64) : s.call (.NtQueryKey hkey cls) = s.ntQueryKey hkey cls := rfl

theorem shaped_queryValue (hkey : U64) (name : Text) : s.Shaped (.NtQueryValueKey hkey name) cls := by
  cases hPath : s.regPathOf hkey with
  | none =>
    refine shaped_fail Reg.STATUS_INVALID_HANDLE (by decide) (fun lwt => ?_) fun length lwt buf => ?_
    · unfold said
      simp only [call_ntQueryValueKey, ntQueryValueKey, onNtKey, hPath]
    · unfold fill
      simp only [hPath]
  | some path =>
    cases hFind : s.regHive.regValue path name with
    | none =>
      refine shaped_fail Reg.STATUS_OBJECT_NAME_NOT_FOUND (by decide) (fun lwt => ?_) fun length lwt buf => ?_
      · unfold said
        simp only [call_ntQueryValueKey, ntQueryValueKey, onNtKey, hPath, hFind]
      · unfold fill
        simp only [hPath, hFind]
    | some v =>
      refine shaped_value v rfl rfl (fun lwt => ?_) fun length lwt buf => ?_
      · unfold said
        simp only [call_ntQueryValueKey, ntQueryValueKey, onNtKey, hPath, hFind]
      · unfold fill
        simp only [hPath, hFind]

theorem shaped_enumerateValue (hkey index : U64) : s.Shaped (.NtEnumerateValueKey hkey index) cls := by
  cases hPath : s.regPathOf hkey with
  | none =>
    refine shaped_fail Reg.STATUS_INVALID_HANDLE (by decide) (fun lwt => ?_) fun length lwt buf => ?_
    · unfold said
      simp only [call_ntEnumerateValueKey, ntEnumerateValueKey, onNtKey, hPath]
    · unfold fill
      simp only [hPath]
  | some path =>
    cases hFind : (s.regHive.items path)[index.toNat]? with
    | none =>
      refine shaped_fail Reg.STATUS_NO_MORE_ENTRIES (by decide) (fun lwt => ?_) fun length lwt buf => ?_
      · unfold said
        simp only [call_ntEnumerateValueKey, ntEnumerateValueKey, onNtKey, hPath, hFind]
      · unfold fill
        simp only [hPath, hFind]
    | some v =>
      refine shaped_value v rfl rfl (fun lwt => ?_) fun length lwt buf => ?_
      · unfold said
        simp only [call_ntEnumerateValueKey, ntEnumerateValueKey, onNtKey, hPath, hFind]
      · unfold fill
        simp only [hPath, hFind]

theorem shaped_enumerateKey (hkey index : U64) : s.Shaped (.NtEnumerateKey hkey index) cls := by
  cases hPath : s.regPathOf hkey with
  | none =>
    refine shaped_fail Reg.STATUS_INVALID_HANDLE (by decide) (fun lwt => ?_) fun length lwt buf => ?_
    · unfold said
      simp only [call_ntEnumerateKey, ntEnumerateKey, onNtKey, hPath]
    · unfold fill
      simp only [hPath]
  | some path =>
    cases hFind : (s.regHive.subkeys path)[index.toNat]? with
    | none =>
      refine shaped_fail Reg.STATUS_NO_MORE_ENTRIES (by decide) (fun lwt => ?_) fun length lwt buf => ?_
      · unfold said
        simp only [call_ntEnumerateKey, ntEnumerateKey, onNtKey, hPath, hFind]
      · unfold fill
        simp only [hPath, hFind]
    | some name =>
      rcases Decidable.em (cls = Reg.KEY_BASIC_INFORMATION) with rfl | hBasic
      · refine shaped_sized (@key_basic_sized name) rfl rfl (fun lwt => ?_) fun length lwt buf => ?_
        · unfold said
          simp only [call_ntEnumerateKey, ntEnumerateKey, onNtKey, hPath, hFind, if_true]
        · unfold fill
          simp only [hPath, hFind, if_true]
      rcases Decidable.em (cls = Reg.KEY_NODE_INFORMATION) with rfl | hNode
      · refine shaped_sized (@key_node_sized name) rfl rfl (fun lwt => ?_) fun length lwt buf => ?_
        · unfold said
          simp only [call_ntEnumerateKey, ntEnumerateKey, onNtKey, hPath, hFind, if_neg hBasic, if_true]
        · unfold fill
          simp only [hPath, hFind, if_neg hBasic, if_true]
      · refine shaped_fail Reg.STATUS_INVALID_PARAMETER (by decide) (fun lwt => ?_) fun length lwt buf => ?_
        · unfold said
          simp only [call_ntEnumerateKey, ntEnumerateKey, onNtKey, hPath, hFind, if_neg hBasic, if_neg hNode]
        · unfold fill
          simp only [hPath, hFind, if_neg hBasic, if_neg hNode]

theorem shaped_queryKey (hkey : U64) : s.Shaped (.NtQueryKey hkey) cls := by
  cases hPath : s.regPathOf hkey with
  | none =>
    refine shaped_fail Reg.STATUS_INVALID_HANDLE (by decide) (fun lwt => ?_) fun length lwt buf => ?_
    · unfold said
      simp only [call_ntQueryKey, ntQueryKey, onNtKey, hPath]
    · unfold fill
      simp only [hPath]
  | some path =>
    rcases Decidable.em (cls = Reg.KEY_BASIC_INFORMATION) with rfl | hBasic
    · refine shaped_sized (@key_basic_sized (regLeaf path)) rfl rfl (fun lwt => ?_) fun length lwt buf => ?_
      · unfold said
        simp only [call_ntQueryKey, ntQueryKey, onNtKey, hPath, true_or, if_true]
      · unfold fill
        simp only [hPath, if_true]
    rcases Decidable.em (cls = Reg.KEY_NODE_INFORMATION) with rfl | hNode
    · refine shaped_sized (@key_node_sized (regLeaf path)) rfl rfl (fun lwt => ?_) fun length lwt buf => ?_
      · unfold said
        simp only [call_ntQueryKey, ntQueryKey, onNtKey, hPath, or_true, if_true, if_neg hBasic]
      · unfold fill
        simp only [hPath, if_neg hBasic, if_true]
    have hNeither : ¬(cls = Reg.KEY_BASIC_INFORMATION ∨ cls = Reg.KEY_NODE_INFORMATION) := not_or.mpr ⟨hBasic, hNode⟩
    rcases Decidable.em (cls = Reg.KEY_FULL_INFORMATION) with rfl | hFull
    · refine shaped_sized (key_full_sized (s.regHive.ntQueryInfo path)) rfl rfl (fun lwt => ?_) fun length lwt buf => ?_
      · unfold said
        simp only [call_ntQueryKey, ntQueryKey, onNtKey, hPath, if_neg hNeither, if_true]
      · unfold fill
        simp only [hPath, if_neg hBasic, if_neg hNode, if_true]
    rcases Decidable.em (cls = Reg.KEY_NAME_INFORMATION) with rfl | hName
    · refine shaped_sized (@key_name_sized path) rfl rfl (fun lwt => ?_) fun length lwt buf => ?_
      · unfold said
        simp only [call_ntQueryKey, ntQueryKey, onNtKey, hPath, if_neg hNeither, if_neg hFull, if_neg hBasic, if_neg hNode, if_true]
      · unfold fill
        simp only [hPath, if_neg hBasic, if_neg hNode, if_neg hFull, if_true]
    · refine shaped_fail Reg.STATUS_INVALID_PARAMETER (by decide) (fun lwt => ?_) fun length lwt buf => ?_
      · unfold said
        simp only [call_ntQueryKey, ntQueryKey, onNtKey, hPath, if_neg hNeither, if_neg hFull, if_neg hName]
      · unfold fill
        simp only [hPath, if_neg hBasic, if_neg hNode, if_neg hFull, if_neg hName]

theorem shaped (s : Registry) (q : KeyQuery) (cls : U64) : s.Shaped q cls := by
  cases q with
  | NtQueryValueKey hkey name => exact shaped_queryValue hkey name
  | NtEnumerateValueKey hkey index => exact shaped_enumerateValue hkey index
  | NtEnumerateKey hkey index => exact shaped_enumerateKey hkey index
  | NtQueryKey hkey => exact shaped_queryKey hkey

example : new.said (.NtQueryKey 0x80000002) Reg.KEY_NAME_INFORMATION 0 = some (le32 8 ++ utf16Le "HKLM".toList) := by decide +kernel

def SizeFits (s : Registry) (q : KeyQuery) (cls : U64) : Prop :=
  ∀ lwt bytes, s.said q cls lwt = some bytes → bytes.length < 2 ^ 32

/-- The length passed has nothing in its upper half, or the call stops at its test of the lower one, or all fits anyway. -/
def LengthFits (s : Registry) (q : KeyQuery) (cls length : U64) : Prop :=
  length.toNat < 2 ^ 32 ∨ q.tests length < q.fixedPart cls ∨
    ∀ lwt bytes, s.said q cls lwt = some bytes → bytes.length ≤ lowHalf length

theorem informs_sized {content : U64 → List U8} {size : Nat} {length : U64} {room : Nat}
    (hSaid : ∀ lwt, s.said q cls lwt = some (content lwt))
    (hSized : Sized (s.calls q cls) content size (q.fixedPart cls) q.tests) :
    s.Informs q cls length room ↔ Serves (s.calls q cls) content length room ∧ size < 2 ^ 32 := by
  constructor
  · rintro (⟨hNone, -⟩ | ⟨content', hSaid', hServes, hSuffices⟩)
    · have hBoth := (hSaid 0).symm.trans (hNone 0)
      cases hBoth
    · obtain rfl : content' = content := funext fun lwt => Option.some.inj ((hSaid' lwt).symm.trans (hSaid lwt))
      exact ⟨hServes, hSized.lt_of_suffices hSuffices⟩
  · rintro ⟨hServes, hSize⟩
    exact .inr ⟨content, hSaid, hServes, hSized.suffices_of_lt hSize fun length => q.tests_eq⟩

theorem sizeFits_iff {content : U64 → List U8} {size n : Nat} (hSaid : ∀ lwt, s.said q cls lwt = some (content lwt))
    (hLength : ∀ lwt, (content lwt).length = size) :
    (∀ lwt bytes, s.said q cls lwt = some bytes → bytes.length < n) ↔ size < n := by
  constructor
  · intro h
    rw [← hLength 0]
    exact h 0 _ (hSaid 0)
  · intro h lwt bytes hBytes
    obtain rfl := Option.some.inj ((hSaid lwt).symm.trans hBytes)
    rwa [hLength]

/-! ## In memory -/

/-- What a call does to memory that takes its stores, and when memory does. -/
structure InMemory (s : Registry) (q : KeyQuery) (cls length : U64) (room : Nat) : Prop where
  /-- beyond the buffer and the result length nothing changes -/
  spared : ∀ lwt buf ptr m m', VirtualMemory.WellFormed m → m.writes ((s.calls q cls length lwt buf).stores ptr) = .ok m' →
    ∀ a : U64, room ≤ (a - buf).toNat → (ptr = 0 ∨ 4 ≤ (a - ptr).toNat) → m'.peek a = m.peek a
  /-- after a success the structure is there -/
  written : ∀ lwt buf ptr m m', VirtualMemory.WellFormed m → m.writes ((s.calls q cls length lwt buf).stores ptr) = .ok m' →
    (s.calls q cls length lwt buf).status = Reg.NT_SUCCESS →
    ∃ bytes, s.said q cls lwt = some bytes ∧ (buf.toNat + bytes.length < 2 ^ 64 →
      ∀ k b, bytes[k]? = some b → m'.peek (buf + BitVec.ofNat 64 k) = some b)
  /-- a buffer of the length reported is written without an error -/
  retried : ∀ n, (s.calls q cls length 0 0).required = some n → ∀ lwt buf ptr m, VirtualMemory.WellFormed m →
    m.Takes buf n.toNat → (ptr = 0 ∨ m.Takes ptr 4) →
    ∃ m', m.writes ((s.calls q cls (n.setWidth 64) lwt buf).stores ptr) = .ok m'

theorem stores_null (r : Reply) : r.stores 0 = r.body := by
  unfold Reply.stores
  rw [if_neg (fun h => h rfl)]
  rfl

theorem stores_required {r : Reply} {n : U32} (hRequired : r.required = some n) {ptr : U64} (hPtr : ptr ≠ 0) :
    r.stores ptr = Store.u32 ptr n :: r.body := by
  unfold Reply.stores
  rw [if_pos hPtr, hRequired]
  rfl

theorem offset_eq (a p : U64) : (a - p).toNat < 4 ↔ ∃ k < 4, p + BitVec.ofNat 64 k = a := by
  constructor
  · intro h
    refine ⟨(a - p).toNat, h, ?_⟩
    rw [BitVec.ofNat_toNat, BitVec.setWidth_eq, BitVec.add_comm, BitVec.sub_add_cancel]
  · rintro ⟨k, hk, rfl⟩
    rw [toNat_offset p (by omega)]
    exact hk

theorem Informs.inMemory {length : U64} {room : Nat} (h : s.Informs q cls length room) : s.InMemory q cls length room := by
  rcases h with ⟨hNone, hRefuses⟩ | ⟨content, hSaid, hServes, n, hRequired, hRetry, hDone⟩
  · have hStores : ∀ lwt buf ptr, (s.calls q cls length lwt buf).stores ptr = [] := by
      intro lwt buf ptr
      obtain ⟨hRequired, hBody, -⟩ := hRefuses length lwt buf
      unfold Reply.stores
      rw [hRequired, hBody]
      split <;> rfl
    refine ⟨fun lwt buf ptr m m' hWf hRun a hOut hPtr => ?_, fun lwt buf ptr m m' hWf hRun hSuccess => ?_, fun n hReq => ?_⟩
    · rw [hStores] at hRun
      cases hRun
      rfl
    · exact absurd hSuccess (hRefuses length lwt buf).2.2
    · rw [(hRefuses length 0 0).1] at hReq
      cases hReq
  · have hFirst : ∀ lwt buf ptr (m m' : VirtualMemory), VirtualMemory.WellFormed m →
        m.writes ((s.calls q cls length lwt buf).stores ptr) = .ok m' → ∃ m₁, VirtualMemory.WellFormed m₁ ∧
          (∀ a, (ptr = 0 ∨ 4 ≤ (a - ptr).toNat) → m₁.peek a = m.peek a) ∧
          m₁.writes (s.calls q cls length lwt buf).body = .ok m' := by
      intro lwt buf ptr m m' hWf hRun
      rcases Decidable.em (ptr = 0) with rfl | hPtr
      · rw [stores_null] at hRun
        exact ⟨m, hWf, fun a _ => rfl, hRun⟩
      · rw [stores_required (hRequired length lwt buf) hPtr] at hRun
        obtain ⟨m₁, hWrite, hRest⟩ := VirtualMemory.writes_cons hRun
        refine ⟨m₁, LawfulMemory.sound_write (M := VirtualMemory) hWf hWrite, fun a hOut => ?_, hRest⟩
        refine VirtualMemory.peek_of_not_stored hWf hWrite fun k hk hAt => ?_
        have hFour : (Store.u32 ptr n).bytes.length = 4 := length_toLe ..
        have hNear := (offset_eq a ptr).mpr ⟨k, hFour ▸ hk, hAt⟩
        exact Nat.not_le.mpr hNear (hOut.resolve_left hPtr)
    refine ⟨fun lwt buf ptr m m' hWf hRun a hOut hPtr => ?_, fun lwt buf ptr m m' hWf hRun hSuccess => ?_, fun n' hReq => ?_⟩
    · obtain ⟨m₁, hWf₁, hSame, hRest⟩ := hFirst lwt buf ptr m m' hWf hRun
      rw [VirtualMemory.peek_outside hWf₁ hRest fun st hst k hk hAt => ?_]
      · exact hSame a hPtr
      · have hNear := hServes.within lwt buf st hst k hk
        rw [hAt] at hNear
        omega
    · obtain ⟨m₁, hWf₁, -, hRest⟩ := hFirst lwt buf ptr m m' hWf hRun
      obtain ⟨cs, hBody, hBytes⟩ := hServes.complete lwt buf hSuccess
      refine ⟨content lwt, hSaid lwt, fun hTop k b hb => ?_⟩
      rw [hBody] at hRest
      rw [← hBytes] at hTop hb
      exact VirtualMemory.peek_packed hWf₁ hRest hTop hb
    · obtain rfl : n = n' := Option.some.inj ((hRequired length 0 0).symm.trans hReq)
      intro lwt buf ptr m hWf hTakes hPtr
      have hNumber := n.isLt
      obtain ⟨cs, hBody, -⟩ := hRetry.complete lwt buf (hDone lwt buf)
      have hWithin := hRetry.within lwt buf
      rw [hBody] at hWithin
      have hLength := length_le_of_within (by omega) hWithin
      rcases Decidable.em (ptr = 0) with rfl | hSome
      · rw [stores_null, hBody]
        exact VirtualMemory.writes_of_takes hWf hTakes le_rfl (by omega)
      · obtain ⟨m₁, hWrite⟩ := VirtualMemory.write_of_takes hWf (hPtr.resolve_left hSome) (le_refl ptr.toNat)
          (show ptr.toNat + (Store.u32 ptr n).bytes.length ≤ ptr.toNat + 4 from le_rfl)
        have hWf₁ := LawfulMemory.sound_write (M := VirtualMemory) hWf hWrite
        obtain ⟨m', hRest⟩ := VirtualMemory.writes_of_takes hWf₁ (hTakes.regions (VirtualMemory.write_regions hWrite)) le_rfl
          (Nat.add_le_add_left hLength _)
        refine ⟨m', ?_⟩
        have hAddr : (Store.u32 ptr n).addr = ptr := rfl
        rw [stores_required (hRequired _ lwt buf) hSome, VirtualMemory.writes, hBody, hAddr, hWrite]
        exact hRest

theorem informs_full_iff (s : Registry) (q : KeyQuery) (cls length : U64) :
    s.Informs q cls length length.toNat ↔ s.SizeFits q cls := by
  rcases s.shaped q cls with ⟨hNone, hRefuses⟩ | ⟨content, size, hSaid, hSized⟩
  · refine iff_of_true (.inl ⟨hNone, hRefuses⟩) fun lwt bytes hBytes => ?_
    rw [hNone] at hBytes
    cases hBytes
  · have hFits : s.SizeFits q cls ↔ size < 2 ^ 32 := sizeFits_iff hSaid hSized.length_eq
    rw [informs_sized hSaid hSized, hFits]
    exact ⟨And.right, fun hSize => ⟨hSized.serves hSize (q.tests_le length) (.inl le_rfl) length.isLt.le, hSize⟩⟩

theorem informs_half_iff (s : Registry) (q : KeyQuery) (cls length : U64) :
    s.Informs q cls length (lowHalf length) ↔ s.SizeFits q cls ∧ s.LengthFits q cls length := by
  have hLength := length.isLt
  have hHalf := lowHalf_le length
  rcases s.shaped q cls with ⟨hNone, hRefuses⟩ | ⟨content, size, hSaid, hSized⟩
  · refine iff_of_true (.inl ⟨hNone, hRefuses⟩) ⟨fun lwt bytes hBytes => ?_, .inr (.inr fun lwt bytes hBytes => ?_)⟩
    · rw [hNone] at hBytes
      cases hBytes
    · rw [hNone] at hBytes
      cases hBytes
  · have hFits : s.SizeFits q cls ↔ size < 2 ^ 32 := sizeFits_iff hSaid hSized.length_eq
    have hRoom : (∀ lwt bytes, s.said q cls lwt = some bytes → bytes.length ≤ lowHalf length) ↔ size ≤ lowHalf length := by
      simpa only [Nat.lt_succ_iff] using @sizeFits_iff s q cls content size (lowHalf length + 1) hSaid hSized.length_eq
    unfold LengthFits
    rw [informs_sized hSaid hSized, hFits, hRoom]
    constructor
    · rintro ⟨hServes, hSize⟩
      refine ⟨hSize, ?_⟩
      rcases lt_or_ge length.toNat (2 ^ 32) with hShort | hLong
      · exact .inl hShort
      rcases lt_or_ge (q.tests length) (q.fixedPart cls) with hSmall | hLarge
      · exact .inr (.inl hSmall)
      · exact .inr (.inr (hSized.size_le_of_serves hSize (by omega) hLarge (by omega) hServes))
    · rintro ⟨hSize, hWide⟩
      refine ⟨hSized.serves hSize (q.tests_le length) ?_ (by omega), hSize⟩
      rcases hWide with hShort | hSmall | hWhole
      · exact .inl (mod_eq_of_lt hShort).ge
      · exact .inr (.inr hSmall)
      · exact .inr (.inl hWhole)

/-- A call serves every buffer right exactly if its structure's length can be reported; and if only the lower half of the
length passed counts, the upper half must not let it write more. Served right, memory is as it should be. -/
theorem informs_iff (s : Registry) (q : KeyQuery) (cls length : U64) :
    (s.Informs q cls length length.toNat ↔ s.SizeFits q cls) ∧
      (s.Informs q cls length (lowHalf length) ↔ s.SizeFits q cls ∧ s.LengthFits q cls length) ∧
      ∀ room, s.Informs q cls length room → s.InMemory q cls length room :=
  ⟨s.informs_full_iff q cls length, s.informs_half_iff q cls length, fun _ h => h.inMemory⟩

theorem fill_withData (d : List U8) (length lwt buf : U64) :
    (withData d).fill (.NtQueryValueKey 0x80000002 "x".toList) Reg.KEY_VALUE_PARTIAL_INFORMATION buf length lwt =
      writeKeyValueInfo Reg.KEY_VALUE_PARTIAL_INFORMATION buf length "x".toList Reg.REG_BINARY d := rfl

theorem said_withData (d : List U8) (lwt : U64) :
    (withData d).said (.NtQueryValueKey 0x80000002 "x".toList) Reg.KEY_VALUE_PARTIAL_INFORMATION lwt =
      some (le32 0 ++ le32 Reg.REG_BINARY.toNat ++ le32 d.length ++ d) := rfl

/-- Of data of 2³² - 1 bytes 11 are asked for, and 16 are enough for a success. -/
theorem required_length_wraps :
    (∃ hist, RegRun hist (withData (List.replicate (2 ^ 32 - 1) 0))) ∧
      (∀ lwt buf, ((withData (List.replicate (2 ^ 32 - 1) 0)).fill (.NtQueryValueKey 0x80000002 "x".toList)
          Reg.KEY_VALUE_PARTIAL_INFORMATION buf 16 lwt).required = some 11 ∧
        ((withData (List.replicate (2 ^ 32 - 1) 0)).fill (.NtQueryValueKey 0x80000002 "x".toList)
          Reg.KEY_VALUE_PARTIAL_INFORMATION buf 16 lwt).status = Reg.NT_SUCCESS) ∧
      ¬(withData (List.replicate (2 ^ 32 - 1) 0)).Informs (.NtQueryValueKey 0x80000002 "x".toList)
        Reg.KEY_VALUE_PARTIAL_INFORMATION 16 16 := by
  refine ⟨⟨_, RegRun.step .start _ (.refl _)⟩, fun lwt buf => ?_, fun hInforms => ?_⟩
  · rw [fill_withData]
    unfold writeKeyValueInfo
    rw [if_neg (by decide), if_neg (by decide), if_pos rfl, List.length_replicate]
    exact ⟨rfl, rfl⟩
  · have hFits := (informs_full_iff _ _ _ 16).mp hInforms 0 _ (said_withData _ 0)
    rw [List.length_append, List.length_replicate] at hFits
    have hHead : ∀ n, (le32 0 ++ le32 Reg.REG_BINARY.toNat ++ le32 n).length = 12 := fun _ => rfl
    rw [hHead] at hFits
    exact absurd hFits (by decide)

end Registry

end Exemu.Os
