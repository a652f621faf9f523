import Exemu.Memory.Access

/-! # Single-byte code pages

A code page gives a unit for every byte. The two conversions go through it, and so does the table
for the guest's own conversions, which holds the page in both directions.
-/
namespace Exemu.Os.CodePage

open List

abbrev I32 := BitVec 32

def CP_HEADER_WORDS : Nat := 0x000D

def UNI_DEFAULT : U16 := 0xFFFD

/-- `b'?'` -/
def MB_DEFAULT : U8 := 0x3F

def units (start n : Nat) : List U16 := (List.range' start n).map (BitVec.ofNat 16)

def sbcsMap (cp : U32) : Option (List U16) :=
  if cp = 20127 then some (units 0 0x80 ++ List.replicate 0x80 UNI_DEFAULT)
  else if cp = 28591 then some (units 0 0x80 ++ units 0x80 0x80)
  else if cp = 1252 then
    some (units 0 0x80 ++ [
      0x20AC, 0x0081, 0x201A, 0x0192, 0x201E, 0x2026, 0x2020, 0x2021,
      0x02C6, 0x2030, 0x0160, 0x2039, 0x0152, 0x008D, 0x017D, 0x008F,
      0x0090, 0x2018, 0x2019, 0x201C, 0x201D, 0x2022, 0x2013, 0x2014,
      0x02DC, 0x2122, 0x0161, 0x203A, 0x0153, 0x009D, 0x017E, 0x0178] ++ units 0xA0 0x60)
  else none

def sbcsDecode (cp : U32) (bytes : List U8) : Option (List U16) := (sbcsMap cp).map fun map => bytes.map fun b => map.getD b.toNat 0

/-- `map.iter().position(..)` for one unit. -/
def encodeUnit (map : List U16) (wc : U16) : Option U8 := (map.findIdx? fun m => m = wc ∧ m ≠ UNI_DEFAULT).map (BitVec.ofNat 8)

def sbcsEncode (cp : U32) (units : List U16) : Option (List U8 × Bool) :=
  (sbcsMap cp).map fun map => (units.map fun wc => (encodeUnit map wc).getD MB_DEFAULT, units.any fun wc => (encodeUnit map wc).isNone)

/-! ## The table for the guest -/

def BODY : Nat := 2 * CP_HEADER_WORDS
def WC_OFFSET : U16 := 256 + 1 + 1
def WCT : Nat := 2 + 2 * WC_OFFSET.toNat

/-- The bytes of the blob, which has `BODY + WCT + 0x1_0000` of them. -/
abbrev Blob := Nat → U8

def put16 (b : Blob) (off : Nat) (v : U16) : Blob := splice b off (toLe 2 (v.setWidth 64))

def putHeader (cp : U32) : Blob :=
  let b := fun _ => 0
  let b := put16 b 0x00 (BitVec.ofNat 16 CP_HEADER_WORDS)
  let b := put16 b 0x02 (cp.setWidth 16)
  let b := put16 b 0x04 1
  let b := put16 b 0x06 (MB_DEFAULT.setWidth 16)
  let b := put16 b 0x08 UNI_DEFAULT
  let b := put16 b 0x0a (MB_DEFAULT.setWidth 16)
  let b := put16 b 0x0c UNI_DEFAULT
  put16 b BODY WC_OFFSET

def putUnits (map : List U16) (b : Blob) : Blob := map.zipIdx.foldl (fun b e => put16 b (BODY + 2 + e.2 * 2) e.1) b

def fill (b : Blob) (start n : Nat) (v : U8) : Blob := fun i => if start ≤ i ∧ i < start + n then v else b i

def putBytes (map : List U16) (b : Blob) : Blob :=
  map.zipIdx.reverse.foldl (fun b e => if e.1 ≠ UNI_DEFAULT then Function.update b (BODY + WCT + e.1.toNat) (BitVec.ofNat 8 e.2) else b) b

def buildSbcsCodepageNls (cp : U32) (map : List U16) : Blob :=
  putBytes map (fill (putUnits map (putHeader cp)) (BODY + WCT) 0x10000 MB_DEFAULT)

structure CpTable where
  multiByte : Nat
  wideChar : Nat

def rd16 (b : Blob) (off : Nat) : U16 := (fromLe (slice b off 2)).setWidth 16

def CpTable.parse (b : Blob) : CpTable :=
  let body := 2 * (rd16 b 0x00).toNat
  { multiByte := body + 2, wideChar := body + 2 + 2 * (rd16 b body).toNat }

def CpTable.toUnicode (t : CpTable) (b : Blob) (byte : U8) : U16 := rd16 b (t.multiByte + byte.toNat * 2)

def CpTable.toMultiByte (t : CpTable) (b : Blob) (wc : U16) : U8 := b (t.wideChar + wc.toNat)

/-! ## The conversions -/

def ERROR_INSUFFICIENT_BUFFER : U32 := 122

inductive Store
  | flag (addr : U64) (v : U8)
  | buffer (addr : U64) (bytes : List U8)
  deriving DecidableEq, Repr

structure Answer where
  ret : U64
  lastError : Option U32
  stores : List Store
  deriving DecidableEq, Repr

def readU16 (mem : VirtualMemory) (addr : U64) : Result U16 := (mem.readUint addr 2).map (·.setWidth 16)

def readU8 (mem : VirtualMemory) (addr : U64) : Result U8 := (mem.readUint addr 1).map (·.setWidth 8)

/-- The loop of `read_wstr_units` from the unit `i` on. Behind so many units it stops as at a zero. -/
def readUnitsFrom (mem : VirtualMemory) (addr : U64) : Nat → Nat → Result (List U16)
  | 0, _ => .ok []
  | n + 1, i => do
    let w ← readU16 mem (addr + BitVec.ofNat 64 (i * 2))
    if w = 0 ∨ i > 1 <<< 16 then return []
    return w :: (← readUnitsFrom mem addr n (i + 1))

def readWstrUnits (mem : VirtualMemory) (addr : U64) : Result (List U16) :=
  if addr = 0 then .ok [] else readUnitsFrom mem addr (1 <<< 16 + 2) 0

def readUnits (mem : VirtualMemory) (addr : U64) (n : Nat) : Result (List U16) :=
  (List.range n).mapM fun i => readU16 mem (addr + BitVec.ofNat 64 (i * 2))

/-- The loop of `read_cstr` from the byte `i` on, with so many bytes left. -/
def readBytesFrom (mem : VirtualMemory) (addr : U64) : Nat → Nat → Result (List U8)
  | 0, _ => .ok []
  | n + 1, i => do
    let b ← readU8 mem (addr + BitVec.ofNat 64 i)
    if b = 0 then return []
    return b :: (← readBytesFrom mem addr n (i + 1))

def readCstr (mem : VirtualMemory) (addr : U64) (max : Nat) : Result (List U8) := readBytesFrom mem addr max 0

structure WideCall where
  wstr : U64
  cch : I32
  mbstr : U64
  cb : I32
  usedDefault : U64

def terminate {n : Nat} (zero : Bool) (text : List (BitVec n)) : List (BitVec n) := if zero then text ++ [0] else text

/-- The size of a buffer as `usize`. -/
def asUsize (n : I32) : Nat := (n.signExtend 64).toNat

def WideCall.text (mem : VirtualMemory) (w : WideCall) : Result (List U16) :=
  if w.cch.slt 0 then readWstrUnits mem w.wstr else readUnits mem w.wstr w.cch.toNat

/-- `Api::WideCharToMultiByte`. Without a page the text is taken for UTF-16. -/
def wideCharToMultiByte (utf16Lossy : List U16 → List U8) (mem : VirtualMemory) (cp : U32) (w : WideCall) : Result Answer := do
  let units ← w.text mem
  let (bytes, lossy) := (sbcsEncode cp units).getD (utf16Lossy units, false)
  let bytes := terminate (w.cch.slt 0) bytes
  let flag := if w.usedDefault ≠ 0 then [Store.flag w.usedDefault (if lossy then 1 else 0)] else []
  if w.cb = 0 then return ⟨BitVec.ofNat 64 bytes.length, none, flag⟩
  else if bytes.length > asUsize w.cb then return ⟨0, some ERROR_INSUFFICIENT_BUFFER, flag⟩
  else return ⟨BitVec.ofNat 64 bytes.length, none, flag ++ [.buffer w.mbstr bytes]⟩

def layUnits (addr : U64) (units : List U16) : List Store :=
  units.zipIdx.map fun e => .buffer (addr + BitVec.ofNat 64 (e.2 * 2)) (toLe 2 (e.1.setWidth 64))

structure ByteCall where
  mbstr : U64
  cb : I32
  wstr : U64
  cch : I32

def ByteCall.text (mem : VirtualMemory) (b : ByteCall) : Result (List U8) :=
  if b.cb.slt 0 then readCstr mem b.mbstr (1 <<< 20) else mem.read b.mbstr b.cb.toNat

/-- `Api::MultiByteToWideChar` -/
def multiByteToWideChar (utf8Lossy : List U8 → List U16) (mem : VirtualMemory) (cp : U32) (b : ByteCall) : Result Answer := do
  let bytes ← b.text mem
  let units := (sbcsDecode cp bytes).getD (utf8Lossy bytes)
  let units := terminate (b.cb.slt 0) units
  if b.cch = 0 then return ⟨BitVec.ofNat 64 units.length, none, []⟩
  else if units.length > asUsize b.cch then return ⟨0, some ERROR_INSUFFICIENT_BUFFER, []⟩
  else return ⟨BitVec.ofNat 64 units.length, none, layUnits b.wstr units⟩

/-! ## One unit -/

section Map

variable {map : List U16} {wc : U16} {b : U8}

def Representable (map : List U16) (wc : U16) : Prop := wc ∈ map ∧ wc ≠ UNI_DEFAULT

theorem encodeUnit_some (hLength : map.length = 256) (h : encodeUnit map wc = some b) : Representable map wc ∧ map.getD b.toNat 0 = wc := by
  obtain ⟨i, hIdx, rfl⟩ := Option.map_eq_some_iff.mp h
  obtain ⟨hi, hFound, -⟩ := List.findIdx?_eq_some_iff_getElem.mp hIdx
  obtain ⟨hUnit, hPlain⟩ := of_decide_eq_true hFound
  refine ⟨⟨hUnit ▸ getElem_mem hi, hUnit ▸ hPlain⟩, ?_⟩
  rw [BitVec.toNat_ofNat, Nat.mod_eq_of_lt (by omega), getD_eq_getElem?_getD, getElem?_eq_getElem hi, Option.getD_some, hUnit]

theorem encodeUnit_isNone_iff : (encodeUnit map wc).isNone = true ↔ ¬ Representable map wc := by
  rw [encodeUnit, Option.isNone_map, Option.isNone_iff_eq_none, findIdx?_eq_none_iff]
  constructor
  · rintro hNone ⟨hMem, hPlain⟩
    exact absurd (decide_eq_true ⟨rfl, hPlain⟩) (Bool.eq_false_iff.mp (hNone wc hMem))
  · rintro hNot m hMem
    refine decide_eq_false ?_
    rintro ⟨rfl, hPlain⟩
    exact hNot ⟨hMem, hPlain⟩

end Map

/-! ## The blob -/

section Blob

variable {b : Blob} {map : List U16} {off at' n : Nat} {v : U16}

theorem rd16_put16 : rd16 (put16 b off v) off = v := by
  have hSlice := slice_splice b off (toLe 2 (v.setWidth 64))
  rw [length_toLe] at hSlice
  rw [rd16, put16, hSlice, fromLe_toLe_setWidth (by decide) (by decide)]

theorem rd16_congr {b' : Blob} (h : ∀ i, off ≤ i → i < off + 2 → b' i = b i) : rd16 b' off = rd16 b off := by
  refine congrArg (fun bs => (fromLe bs).setWidth 16) (map_congr_left fun i hi => ?_)
  exact h (off + i) (Nat.le_add_right off i) (Nat.add_lt_add_left (List.mem_range.mp hi) off)

theorem put16_apart {i : Nat} (h : i < off ∨ off + 2 ≤ i) : put16 b off v i = b i := by
  rw [put16, splice, length_toLe, if_neg (by omega)]

theorem rd16_put16_apart (h : at' + 2 ≤ off ∨ off + 2 ≤ at') : rd16 (put16 b off v) at' = rd16 b at' :=
  rd16_congr fun _ hLow hHigh => put16_apart (by omega)

theorem putUnits_get : ∀ (map : List U16) (n : Nat) (b : Blob),
    (∀ (k : Nat) (h : k < map.length), rd16 ((map.zipIdx n).foldl (fun b e => put16 b (BODY + 2 + e.2 * 2) e.1) b) (BODY + 2 + (n + k) * 2) = map[k]) ∧
      ∀ i, i < BODY + 2 + n * 2 ∨ BODY + 2 + (n + map.length) * 2 ≤ i →
        (map.zipIdx n).foldl (fun b e => put16 b (BODY + 2 + e.2 * 2) e.1) b i = b i
  | [], n, b => ⟨fun k h => absurd h (Nat.not_lt_zero k), fun _ _ => rfl⟩
  | v :: map, n, b => by
      obtain ⟨hGet, hRest⟩ := putUnits_get map (n + 1) (put16 b (BODY + 2 + n * 2) v)
      rw [zipIdx_cons, foldl_cons]
      constructor
      · rintro (_ | k) h
        · rw [rd16_congr fun i hLow hHigh => hRest i (.inl (by omega))]
          exact rd16_put16
        · have hNext := hGet k (Nat.lt_of_succ_lt_succ h)
          rwa [Nat.add_assoc n 1 k, Nat.add_comm 1 k] at hNext
      · intro i hi
        rw [length_cons] at hi
        rw [hRest i (by omega), put16_apart (by omega)]

theorem putBytes_get (wc : U16) : ∀ (map : List U16) (n : Nat),
    (map.zipIdx n).foldr (fun e b => if e.1 ≠ UNI_DEFAULT then Function.update b (BODY + WCT + e.1.toNat) (BitVec.ofNat 8 e.2) else b) b
        (BODY + WCT + wc.toNat) =
      ((map.findIdx? fun m => m = wc ∧ m ≠ UNI_DEFAULT).map fun i => BitVec.ofNat 8 (n + i)).getD (b (BODY + WCT + wc.toNat))
  | [], n => rfl
  | m :: map, n => by
      have hRest := putBytes_get wc map (n + 1)
      rw [zipIdx_cons, foldr_cons, findIdx?_cons]
      by_cases hHere : m = wc ∧ m ≠ UNI_DEFAULT
      · obtain ⟨rfl, hPlain⟩ := hHere
        rw [if_pos hPlain, Function.update_self, if_pos (decide_eq_true ⟨rfl, hPlain⟩)]
        rfl
      · have hPass : ¬ decide (m = wc ∧ m ≠ UNI_DEFAULT) = true := by rwa [decide_eq_true_iff]
        have hShift : ∀ o : Option Nat, (o.map fun i => BitVec.ofNat 8 (n + 1 + i)) = (o.map fun i => i + 1).map fun i => BitVec.ofNat 8 (n + i) := fun o => by
          rw [Option.map_map]
          exact congrArg (fun f => o.map f) (funext fun i => congrArg (BitVec.ofNat 8) (by dsimp only; omega))
        rw [if_neg hPass, ← hShift, ← hRest]
        split
        next hPlain =>
          have hOther : BODY + WCT + wc.toNat ≠ BODY + WCT + m.toNat := fun h =>
            hHere ⟨(BitVec.eq_of_toNat_eq (Nat.add_left_cancel h)).symm, hPlain⟩
          rw [Function.update_of_ne hOther]
        next => rfl

theorem putBytes_below {i : Nat} (hi : i < BODY + WCT) : ∀ (es : List (U16 × Nat)) (b : Blob),
    es.foldl (fun b e => if e.1 ≠ UNI_DEFAULT then Function.update b (BODY + WCT + e.1.toNat) (BitVec.ofNat 8 e.2) else b) b i = b i
  | [], b => rfl
  | e :: es, b => by
      rw [foldl_cons, putBytes_below hi es]
      split
      next => rw [Function.update_of_ne (by omega)]
      next => rfl

theorem rd16_build (cp : U32) (hLow : at' + 2 ≤ BODY + WCT) : rd16 (buildSbcsCodepageNls cp map) at' = rd16 (putUnits map (putHeader cp)) at' := by
  refine rd16_congr fun i _ hHigh => ?_
  rw [buildSbcsCodepageNls, putBytes, putBytes_below (by omega), fill, if_neg (by omega)]

theorem parse_build (cp : U32) : CpTable.parse (buildSbcsCodepageNls cp map) = ⟨BODY + 2, BODY + WCT⟩ := by
  have hHeader : ∀ off, off + 2 ≤ BODY + 2 → rd16 (buildSbcsCodepageNls cp map) off = rd16 (putHeader cp) off := fun off h => by
    have hBelow : BODY + 2 ≤ BODY + WCT := by decide
    rw [rd16_build cp (by omega)]
    exact rd16_congr fun i _ hHigh => (putUnits_get map 0 (putHeader cp)).2 i (.inl (by omega))
  have hWords : rd16 (buildSbcsCodepageNls cp map) 0 = BitVec.ofNat 16 CP_HEADER_WORDS := by
    rw [hHeader 0 (by decide), putHeader]
    rw [rd16_put16_apart (by decide), rd16_put16_apart (by decide), rd16_put16_apart (by decide), rd16_put16_apart (by decide),
      rd16_put16_apart (by decide), rd16_put16_apart (by decide), rd16_put16_apart (by decide), rd16_put16]
  have hOffset : rd16 (buildSbcsCodepageNls cp map) BODY = WC_OFFSET := by
    rw [hHeader BODY (by decide), putHeader]
    exact rd16_put16
  unfold CpTable.parse
  dsimp only
  rw [hWords, show 2 * (BitVec.ofNat 16 CP_HEADER_WORDS).toNat = BODY from rfl, hOffset]
  rfl

theorem toUnicode_build (cp : U32) (hLength : map.length = 256) (byte : U8) :
    (CpTable.parse (buildSbcsCodepageNls cp map)).toUnicode (buildSbcsCodepageNls cp map) byte = map.getD byte.toNat 0 := by
  have hByte : byte.toNat < map.length := by
    rw [hLength]
    exact byte.isLt
  have hFits : BODY + 2 + byte.toNat * 2 + 2 ≤ BODY + WCT := by
    have hWct : WCT = 518 := rfl
    omega
  have hGet := (putUnits_get map 0 (putHeader cp)).1 byte.toNat hByte
  rw [Nat.zero_add] at hGet
  rw [parse_build, CpTable.toUnicode, rd16_build cp hFits, putUnits, hGet, getD_eq_getElem?_getD, getElem?_eq_getElem hByte, Option.getD_some]

theorem toMultiByte_build (cp : U32) (wc : U16) :
    (CpTable.parse (buildSbcsCodepageNls cp map)).toMultiByte (buildSbcsCodepageNls cp map) wc = (encodeUnit map wc).getD MB_DEFAULT := by
  have hGet := putBytes_get (b := fill (putUnits map (putHeader cp)) (BODY + WCT) 0x10000 MB_DEFAULT) wc map 0
  rw [parse_build, CpTable.toMultiByte, buildSbcsCodepageNls, putBytes, foldl_reverse]
  refine hGet.trans ?_
  have hFill : fill (putUnits map (putHeader cp)) (BODY + WCT) 0x10000 MB_DEFAULT (BODY + WCT + wc.toNat) = MB_DEFAULT :=
    if_pos ⟨Nat.le_add_right _ _, Nat.add_lt_add_left wc.isLt _⟩
  rw [hFill, encodeUnit]
  exact congrArg (fun o => Option.getD o MB_DEFAULT) (congrArg (fun f => Option.map f _) (funext fun i => congrArg (BitVec.ofNat 8) (Nat.zero_add i)))

end Blob

/-! ## Texts in memory -/

/-- The text a call is given: so many units, or those up to the first zero. -/
structure WideText (mem : VirtualMemory) (w : WideCall) (s : List U16) : Prop where
  unit : ∀ i (h : i < s.length), readU16 mem (w.wstr + BitVec.ofNat 64 (i * 2)) = .ok s[i]
  counted : w.cch.slt 0 = false → s.length = w.cch.toNat
  terminated : w.cch.slt 0 = true → w.wstr ≠ 0 ∧ 0 ∉ s ∧ readU16 mem (w.wstr + BitVec.ofNat 64 (s.length * 2)) = .ok 0

structure ByteText (mem : VirtualMemory) (b : ByteCall) (s : List U8) : Prop where
  counted : b.cb.slt 0 = false → s.length = b.cb.toNat ∧ mem.read b.mbstr b.cb.toNat = .ok s
  terminated : b.cb.slt 0 = true → (∀ i (h : i < s.length), readU8 mem (b.mbstr + BitVec.ofNat 64 i) = .ok s[i]) ∧ 0 ∉ s ∧
    readU8 mem (b.mbstr + BitVec.ofNat 64 s.length) = .ok 0

def WideCall.seen (w : WideCall) (s : List U16) : List U16 := if w.cch.slt 0 then s.take (1 <<< 16 + 1) else s

def ByteCall.seen (b : ByteCall) (s : List U8) : List U8 := if b.cb.slt 0 then s.take (1 <<< 20) else s

section Texts

variable {mem : VirtualMemory}

theorem readUnitsFrom_eq {addr : U64} {s : List U16} (hUnit : ∀ i (h : i < s.length), readU16 mem (addr + BitVec.ofNat 64 (i * 2)) = .ok s[i])
    (hPlain : 0 ∉ s) (hEnd : readU16 mem (addr + BitVec.ofNat 64 (s.length * 2)) = .ok 0) :
    ∀ (n i : Nat), i + n = 1 <<< 16 + 2 → i ≤ s.length → readUnitsFrom mem addr n i = .ok ((s.take (1 <<< 16 + 1)).drop i)
  | 0, i, hFuel, _ => by
      rw [drop_eq_nil_of_le (by rw [length_take]; omega)]
      rfl
  | n + 1, i, hFuel, hLe => by
      rcases Nat.eq_or_lt_of_le hLe with rfl | hIn
      · rw [readUnitsFrom, hEnd, drop_eq_nil_of_le (by rw [length_take]; omega)]
        rfl
      · rw [readUnitsFrom, hUnit i hIn]
        have hNonzero : s[i] ≠ 0 := fun h => hPlain (h ▸ getElem_mem hIn)
        by_cases hStop : i > 1 <<< 16
        · rw [drop_eq_nil_of_le (by rw [length_take]; omega)]
          exact if_pos (.inr hStop)
        · have hHead : (s.take (1 <<< 16 + 1)).drop i = s[i] :: (s.take (1 <<< 16 + 1)).drop (i + 1) := by
            rw [drop_eq_getElem_cons (by rw [length_take]; omega), getElem_take]
          rw [hHead]
          refine (if_neg (not_or.mpr ⟨hNonzero, hStop⟩)).trans ?_
          rw [readUnitsFrom_eq hUnit hPlain hEnd n (i + 1) (by omega) hIn]
          rfl

theorem WideText.read {w : WideCall} {s : List U16} (h : WideText mem w s) : w.text mem = .ok (w.seen s) := by
  unfold WideCall.text
  cases hSign : w.cch.slt 0 with
  | true =>
    obtain ⟨hNull, hPlain, hEnd⟩ := h.terminated hSign
    rw [if_pos rfl, WideCall.seen, if_pos hSign, readWstrUnits, if_neg hNull]
    exact readUnitsFrom_eq h.unit hPlain hEnd (1 <<< 16 + 2) 0 rfl (Nat.zero_le _)
  | false =>
    have hReads : ∀ i ∈ List.range w.cch.toNat, readU16 mem (w.wstr + BitVec.ofNat 64 (i * 2)) = .ok (s[i]?.getD 0) := fun i hi => by
      have hIn : i < s.length := by
        rw [h.counted hSign]
        exact List.mem_range.mp hi
      rw [h.unit i hIn, getElem?_eq_getElem hIn, Option.getD_some]
    rw [if_neg Bool.false_ne_true, WideCall.seen, if_neg (by rw [hSign]; decide), readUnits, mapM_ok hReads, ← h.counted hSign]
    refine congrArg Except.ok (ext_getElem (by rw [length_map, length_range]) fun i _ hi => ?_)
    rw [getElem_map, getElem_range, getElem?_eq_getElem hi, Option.getD_some]

theorem readBytesFrom_eq {addr : U64} {s : List U8} (hByte : ∀ i (h : i < s.length), readU8 mem (addr + BitVec.ofNat 64 i) = .ok s[i])
    (hPlain : 0 ∉ s) (hEnd : readU8 mem (addr + BitVec.ofNat 64 s.length) = .ok 0) :
    ∀ (n i : Nat), i ≤ s.length → readBytesFrom mem addr n i = .ok ((s.drop i).take n)
  | 0, i, _ => rfl
  | n + 1, i, hLe => by
      rcases Nat.eq_or_lt_of_le hLe with rfl | hIn
      · rw [readBytesFrom, hEnd, drop_eq_nil_of_le (Nat.le_refl _)]
        rfl
      · have hNonzero : s[i] ≠ 0 := fun h => hPlain (h ▸ getElem_mem hIn)
        rw [readBytesFrom, hByte i hIn, drop_eq_getElem_cons hIn, take_succ_cons]
        refine (if_neg hNonzero).trans ?_
        rw [readBytesFrom_eq hByte hPlain hEnd n (i + 1) hIn]
        rfl

theorem ByteText.read {b : ByteCall} {s : List U8} (h : ByteText mem b s) : b.text mem = .ok (b.seen s) := by
  unfold ByteCall.text
  cases hSign : b.cb.slt 0 with
  | true =>
    obtain ⟨hByte, hPlain, hEnd⟩ := h.terminated hSign
    rw [if_pos rfl, ByteCall.seen, if_pos hSign, readCstr, readBytesFrom_eq hByte hPlain hEnd _ 0 (Nat.zero_le _), drop_zero]
  | false =>
    rw [if_neg Bool.false_ne_true, ByteCall.seen, if_neg (by rw [hSign]; decide)]
    exact (h.counted hSign).2

end Texts

/-! ## What is asked of the conversions -/

section Meets

variable (utf16Lossy : List U16 → List U8) (utf8Lossy : List U8 → List U16) (mem : VirtualMemory) (cp : U32) (map : List U16)

def TableMeets : Prop :=
  let b := buildSbcsCodepageNls cp map
  (∀ byte, sbcsDecode cp [byte] = some [(CpTable.parse b).toUnicode b byte]) ∧
    ∀ wc, ∃ lossy, sbcsEncode cp [wc] = some ([(CpTable.parse b).toMultiByte b wc], lossy)

/-- A call that encodes a text, against the same call with no buffer: the lengths agree where the text fits, and what is written decodes
to it. Where it does not fit nothing is written. The flag tells whether some unit has no byte. -/
structure WideCall.Encodes (w : WideCall) (s : List U16) (query a : Answer) : Prop where
  converts : w.cb ≠ 0 → (query.ret.toNat : Int) ≤ w.cb.toInt → a.ret = query.ret ∧
    ((∀ u ∈ s, Representable map u) → ∃ bytes, .buffer w.mbstr bytes ∈ a.stores ∧ sbcsDecode cp bytes = some (terminate (w.cch.slt 0) s))
  refuses : w.cb ≠ 0 → w.cb.toInt < query.ret.toNat →
    a.ret = 0 ∧ a.lastError = some ERROR_INSUFFICIENT_BUFFER ∧ ∀ addr bytes, .buffer addr bytes ∉ a.stores
  flag : w.usedDefault ≠ 0 → ∀ v, .flag w.usedDefault v ∈ a.stores ↔ (v = 1 ∧ ∃ u ∈ s, ¬ Representable map u) ∨ v = 0 ∧ ∀ u ∈ s, Representable map u

/-- A call that decodes a text, against the same call with no buffer. What a text was encoded from comes back. -/
structure ByteCall.Decodes (b : ByteCall) (s : List U8) (query a : Answer) : Prop where
  converts : b.cch ≠ 0 → (query.ret.toNat : Int) ≤ b.cch.toInt → a.ret = query.ret ∧
    ∀ us, (∀ u ∈ us, Representable map u) → sbcsEncode cp us = some (s, false) → a.stores = layUnits b.wstr (terminate (b.cb.slt 0) us)
  refuses : b.cch ≠ 0 → b.cch.toInt < query.ret.toNat → a.ret = 0 ∧ a.lastError = some ERROR_INSUFFICIENT_BUFFER ∧ a.stores = []

structure Meets (w : WideCall) (b : ByteCall) : Prop where
  table : TableMeets cp map
  wide : ∀ s, WideText mem w s → ∃ query a, wideCharToMultiByte utf16Lossy mem cp { w with cb := 0 } = .ok query ∧
    wideCharToMultiByte utf16Lossy mem cp w = .ok a ∧ w.Encodes cp map s query a
  bytes : ∀ s, ByteText mem b s → ∃ query a, multiByteToWideChar utf8Lossy mem cp { b with cch := 0 } = .ok query ∧
    multiByteToWideChar utf8Lossy mem cp b = .ok a ∧ b.Decodes cp map s query a

/-- The size is not negative, and where the text is cut off neither the flag nor the bytes depend on what is left out. -/
structure WideCall.Fits (w : WideCall) (s : List U16) : Prop where
  size : 0 ≤ w.cb.toInt
  flag : w.usedDefault ≠ 0 → (∀ u ∈ w.seen s, Representable map u) → ∀ u ∈ s, Representable map u
  whole : (∀ u ∈ s, Representable map u) → w.cb = 0 ∨ w.cb.toInt < (terminate (w.cch.slt 0) (w.seen s)).length ∨ w.seen s = s

structure ByteCall.Fits (b : ByteCall) (s : List U8) : Prop where
  size : 0 ≤ b.cch.toInt
  whole : (∃ us, (∀ u ∈ us, Representable map u) ∧ sbcsEncode cp us = some (s, false)) →
    b.cch = 0 ∨ b.cch.toInt < (terminate (b.cb.slt 0) (b.seen s)).length ∨ b.seen s = s

end Meets

/-! ## Encoding and decoding -/

section Pages

variable {cp : U32} {map : List U16}

theorem sbcsMap_some (h : sbcsMap cp = some map) : map.length = 256 ∧ map.getD 0 0 = 0 := by
  have hUnits : ∀ start n, (units start n).length = n := fun start n => by rw [units, length_map, length_range']
  have hFirst : ∀ rest, (units 0 0x80 ++ rest).getD 0 0 = 0 := fun rest => by
    rw [units, range'_succ]
    rfl
  unfold sbcsMap at h
  split at h
  · cases h
    exact ⟨by rw [length_append, hUnits, length_replicate], hFirst _⟩
  · split at h
    · cases h
      exact ⟨by rw [length_append, hUnits, hUnits], hFirst _⟩
    · split at h
      · cases h
        refine ⟨by rw [length_append, length_append, hUnits, hUnits]; rfl, ?_⟩
        rw [append_assoc]
        exact hFirst _
      · cases h

def encoded (map us : List U16) : List U8 := us.map fun wc => (encodeUnit map wc).getD MB_DEFAULT

theorem sbcsEncode_eq (hMap : sbcsMap cp = some map) (us : List U16) :
    sbcsEncode cp us = some (encoded map us, us.any fun wc => (encodeUnit map wc).isNone) := by
  rw [sbcsEncode, hMap]
  rfl

theorem any_isNone_iff {us : List U16} : (us.any fun wc => (encodeUnit map wc).isNone) = true ↔ ∃ u ∈ us, ¬ Representable map u := by
  rw [any_eq_true]
  exact exists_congr fun u => and_congr_right fun _ => encodeUnit_isNone_iff

theorem decode_encoded (hMap : sbcsMap cp = some map) {us : List U16} (hAll : ∀ u ∈ us, Representable map u) (zero : Bool) :
    sbcsDecode cp (terminate zero (encoded map us)) = some (terminate zero us) := by
  obtain ⟨hLength, hZero⟩ := sbcsMap_some hMap
  have hUnits : (encoded map us).map (fun b => map.getD b.toNat 0) = us := by
    rw [encoded, map_map]
    refine (map_congr_left fun u hu => ?_).trans (map_id us)
    cases hUnit : encodeUnit map u with
    | none => exact absurd (hAll u hu) (encodeUnit_isNone_iff.mp (by rw [hUnit]; rfl))
    | some b =>
      rw [Function.comp_apply, hUnit, Option.getD_some, (encodeUnit_some hLength hUnit).2]
      rfl
  rw [sbcsDecode, hMap, Option.map_some, terminate, terminate]
  cases zero with
  | false => exact congrArg some hUnits
  | true =>
    rw [if_pos rfl, if_pos rfl, map_append, hUnits]
    exact congrArg (fun u => some (us ++ [u])) hZero

theorem terminate_inj {n : Nat} {zero : Bool} {s t : List (BitVec n)} (h : terminate zero s = terminate zero t) : s = t := by
  cases zero with
  | false => exact h
  | true => exact append_cancel_right h

theorem length_terminate {n : Nat} (zero : Bool) (s : List (BitVec n)) : (terminate zero s).length = s.length + if zero then 1 else 0 := by
  cases zero with
  | false => rfl
  | true => exact length_append

theorem table_meets (hMap : sbcsMap cp = some map) : TableMeets cp map := by
  obtain ⟨hLength, -⟩ := sbcsMap_some hMap
  constructor
  · intro byte
    rw [toUnicode_build cp hLength, sbcsDecode, hMap]
    rfl
  · intro wc
    rw [toMultiByte_build, sbcsEncode_eq hMap]
    exact ⟨_, rfl⟩

/-! ## Sizes -/

theorem asUsize_of_nonneg {n : I32} (h : 0 ≤ n.toInt) : (asUsize n : Int) = n.toInt := by
  have hMsb : n.msb = false := Bool.eq_false_iff.mpr fun hMsb => absurd (BitVec.toInt_neg_of_msb_true hMsb) (Int.not_lt.mpr h)
  rw [asUsize, BitVec.toNat_signExtend, hMsb, BitVec.toInt_eq_toNat_of_msb hMsb, BitVec.toNat_setWidth, Nat.mod_eq_of_lt (by omega)]
  rfl

theorem asUsize_of_neg {n : I32} (h : n.toInt < 0) : 2 ^ 63 ≤ asUsize n := by
  have hMsb : n.msb = true := by
    by_contra hMsb
    rw [BitVec.toInt_eq_toNat_of_msb (Bool.eq_false_iff.mpr hMsb)] at h
    omega
  rw [asUsize, BitVec.toNat_signExtend, hMsb, if_pos rfl]
  omega

end Pages

/-! ## The calls -/

section Wide

variable {utf16Lossy : List U16 → List U8} {mem : VirtualMemory} {cp : U32} {map : List U16} {w : WideCall} {s : List U16}

def WideCall.flags (w : WideCall) (map us : List U16) : List Store :=
  if w.usedDefault ≠ 0 then [.flag w.usedDefault (if us.any fun wc => (encodeUnit map wc).isNone then 1 else 0)] else []

def WideCall.answer (w : WideCall) (map us : List U16) : Answer :=
  let bytes := terminate (w.cch.slt 0) (encoded map us)
  if w.cb = 0 then ⟨BitVec.ofNat 64 bytes.length, none, w.flags map us⟩
  else if bytes.length > asUsize w.cb then ⟨0, some ERROR_INSUFFICIENT_BUFFER, w.flags map us⟩
  else ⟨BitVec.ofNat 64 bytes.length, none, w.flags map us ++ [.buffer w.mbstr bytes]⟩

theorem wideCharToMultiByte_eq (hMap : sbcsMap cp = some map) (hText : WideText mem w s) :
    wideCharToMultiByte utf16Lossy mem cp w = .ok (w.answer map (w.seen s)) := by
  unfold wideCharToMultiByte WideCall.answer
  simp only [hText.read, sbcsEncode_eq hMap, Option.getD_some, bind, Except.bind]
  split
  · rfl
  · split
    · rfl
    · rfl

theorem WideText.query (hText : WideText mem w s) : WideText mem { w with cb := 0 } s := ⟨hText.unit, hText.counted, hText.terminated⟩

theorem WideText.short (hText : WideText mem w s) : (terminate (w.cch.slt 0) (encoded map (w.seen s))).length < 2 ^ 63 := by
  rw [length_terminate, encoded, length_map, WideCall.seen]
  split
  · rw [length_take]
    omega
  next hSign =>
    rw [hText.counted (Bool.eq_false_iff.mpr hSign)]
    have hLt := w.cch.isLt
    omega

theorem flag_mem_flags {us : List U16} (hFlag : w.usedDefault ≠ 0) (v : U8) :
    .flag w.usedDefault v ∈ w.flags map us ↔ (v = 1 ∧ ∃ u ∈ us, ¬ Representable map u) ∨ v = 0 ∧ ∀ u ∈ us, Representable map u := by
  rw [WideCall.flags, if_pos hFlag, mem_singleton]
  cases hAny : us.any fun wc => (encodeUnit map wc).isNone with
  | true =>
    have hSome := any_isNone_iff.mp hAny
    obtain ⟨u, hu, hNot⟩ := hSome
    constructor
    · intro h
      cases h
      exact .inl ⟨rfl, u, hu, hNot⟩
    · rintro (⟨rfl, -⟩ | ⟨-, hAll⟩)
      · rfl
      · exact absurd (hAll u hu) hNot
  | false =>
    have hAll : ∀ u ∈ us, Representable map u := fun u hu => by
      by_contra hNot
      exact Bool.eq_false_iff.mp hAny (any_isNone_iff.mpr ⟨u, hu, hNot⟩)
    constructor
    · intro h
      cases h
      exact .inr ⟨rfl, hAll⟩
    · rintro (⟨-, u, hu, hNot⟩ | ⟨rfl, -⟩)
      · exact absurd (hAll u hu) hNot
      · rfl

theorem buffer_notMem_flags {us : List U16} (addr : U64) (bytes : List U8) : .buffer addr bytes ∉ w.flags map us := by
  rw [WideCall.flags]
  split
  · intro h
    cases List.mem_singleton.mp h
  · exact not_mem_nil

theorem seen_subset {u : U16} (h : u ∈ w.seen s) : u ∈ s := by
  rw [WideCall.seen] at h
  split at h
  · exact mem_of_mem_take h
  · exact h

theorem flags_right_iff (hFlag : w.usedDefault ≠ 0) :
    (∀ v, .flag w.usedDefault v ∈ w.flags map (w.seen s) ↔ (v = 1 ∧ ∃ u ∈ s, ¬ Representable map u) ∨ v = 0 ∧ ∀ u ∈ s, Representable map u) ↔
      ((∀ u ∈ w.seen s, Representable map u) → ∀ u ∈ s, Representable map u) := by
  constructor
  · intro h hSeen
    rcases (h 0).mp ((flag_mem_flags hFlag 0).mpr (.inr ⟨rfl, hSeen⟩)) with ⟨hOne, -⟩ | ⟨-, hAll⟩
    · cases hOne
    · exact hAll
  · intro h v
    rw [flag_mem_flags hFlag]
    refine or_congr (and_congr_right fun _ => ?_) (and_congr_right fun _ => ⟨h, fun hAll u hu => hAll u (seen_subset hu)⟩)
    constructor
    · rintro ⟨u, hu, hNot⟩
      exact ⟨u, seen_subset hu, hNot⟩
    · rintro ⟨u, hu, hNot⟩
      by_contra hNone
      exact hNot (h (fun x hx => by_contra fun hNotX => hNone ⟨x, hx, hNotX⟩) u hu)

theorem toNat_length {n : Nat} (h : n < 2 ^ 63) : (BitVec.ofNat 64 n).toNat = n := Nat.mod_eq_of_lt (by omega)

theorem encodes_iff (hMap : sbcsMap cp = some map) (hText : WideText mem w s) :
    w.Encodes cp map s (WideCall.answer { w with cb := 0 } map (w.seen s)) (w.answer map (w.seen s)) ↔ w.Fits map s := by
  have hShort : (terminate (w.cch.slt 0) (encoded map (w.seen s))).length < 2 ^ 63 := hText.short
  have hLength : (terminate (w.cch.slt 0) (encoded map (w.seen s))).length = (terminate (w.cch.slt 0) (w.seen s)).length := by
    rw [length_terminate, length_terminate, encoded, length_map]
  have hQuery : (WideCall.answer { w with cb := 0 } map (w.seen s)).ret.toNat = (terminate (w.cch.slt 0) (w.seen s)).length := by
    rw [← hLength]
    exact toNat_length hShort
  by_cases hAsk : w.cb = 0
  · have hAnswer : w.answer map (w.seen s) = ⟨BitVec.ofNat 64 (terminate (w.cch.slt 0) (encoded map (w.seen s))).length, none, w.flags map (w.seen s)⟩ :=
      if_pos hAsk
    rw [hAnswer]
    constructor
    · intro h
      exact ⟨by rw [hAsk]; decide, fun hFlag => (flags_right_iff hFlag).mp (h.flag hFlag), fun _ => .inl hAsk⟩
    · intro h
      exact ⟨fun hSize => absurd hAsk hSize, fun hSize => absurd hAsk hSize, fun hFlag => (flags_right_iff hFlag).mpr (h.flag hFlag)⟩
  · by_cases hNeg : w.cb.toInt < 0
    · -- a negative size counts as a large one
      have hLarge := asUsize_of_neg hNeg
      have hAnswer : w.answer map (w.seen s) = ⟨BitVec.ofNat 64 (terminate (w.cch.slt 0) (encoded map (w.seen s))).length, none,
          w.flags map (w.seen s) ++ [.buffer w.mbstr (terminate (w.cch.slt 0) (encoded map (w.seen s)))]⟩ :=
        (if_neg hAsk).trans (if_neg (by omega))
      constructor
      · intro h
        have hError := (h.refuses hAsk (by omega)).2.1
        rw [hAnswer] at hError
        cases hError
      · intro h
        exact absurd h.size (Int.not_le.mpr hNeg)
    · have hSize := asUsize_of_nonneg (Int.not_lt.mp hNeg)
      by_cases hSmall : w.cb.toInt < (terminate (w.cch.slt 0) (w.seen s)).length
      · have hAnswer : w.answer map (w.seen s) = ⟨0, some ERROR_INSUFFICIENT_BUFFER, w.flags map (w.seen s)⟩ :=
          (if_neg hAsk).trans (if_pos (by omega))
        rw [hAnswer]
        constructor
        · intro h
          exact ⟨Int.not_lt.mp hNeg, fun hFlag => (flags_right_iff hFlag).mp (h.flag hFlag), fun _ => .inr (.inl hSmall)⟩
        · intro h
          exact ⟨fun _ hFits => absurd hSmall (by omega), fun _ _ => ⟨rfl, rfl, buffer_notMem_flags⟩, fun hFlag => (flags_right_iff hFlag).mpr (h.flag hFlag)⟩
      · have hAnswer : w.answer map (w.seen s) = ⟨BitVec.ofNat 64 (terminate (w.cch.slt 0) (encoded map (w.seen s))).length, none,
            w.flags map (w.seen s) ++ [.buffer w.mbstr (terminate (w.cch.slt 0) (encoded map (w.seen s)))]⟩ :=
          (if_neg hAsk).trans (if_neg (by omega))
        have hDecodes : (∀ u ∈ s, Representable map u) →
            sbcsDecode cp (terminate (w.cch.slt 0) (encoded map (w.seen s))) = some (terminate (w.cch.slt 0) (w.seen s)) :=
          fun hAll => decode_encoded hMap (fun u hu => hAll u (seen_subset hu)) _
        rw [hAnswer]
        constructor
        · intro h
          refine ⟨Int.not_lt.mp hNeg, fun hFlag => (flags_right_iff hFlag).mp fun v => ?_, fun hAll => ?_⟩
          · rw [← h.flag hFlag v, mem_append, mem_singleton]
            exact (or_iff_left fun hBuffer => by cases hBuffer).symm
          · obtain ⟨bytes, hMem, hText'⟩ := (h.converts hAsk (by omega)).2 hAll
            rcases List.mem_append.mp hMem with hMem | hMem
            · exact absurd hMem (buffer_notMem_flags _ _)
            · cases List.mem_singleton.mp hMem
              rw [hDecodes hAll] at hText'
              exact .inr (.inr (terminate_inj (Option.some.inj hText')))
        · intro h
          refine ⟨fun _ _ => ⟨rfl, fun hAll => ⟨_, mem_append_right _ mem_cons_self, ?_⟩⟩, fun _ hLess => absurd hLess (by omega), fun hFlag v => ?_⟩
          · rw [hDecodes hAll]
            rcases h.whole hAll with hZero | hLess | hWhole
            · exact absurd hZero hAsk
            · exact absurd hLess hSmall
            · rw [hWhole]
          · rw [← (flags_right_iff hFlag).mpr (h.flag hFlag) v, mem_append, mem_singleton]
            exact or_iff_left fun hBuffer => by cases hBuffer

end Wide

section Bytes

variable {utf8Lossy : List U8 → List U16} {mem : VirtualMemory} {cp : U32} {map : List U16} {b : ByteCall} {s : List U8}

def decoded (map : List U16) (bytes : List U8) : List U16 := bytes.map fun x => map.getD x.toNat 0

def ByteCall.answer (b : ByteCall) (map : List U16) (bytes : List U8) : Answer :=
  let units := terminate (b.cb.slt 0) (decoded map bytes)
  if b.cch = 0 then ⟨BitVec.ofNat 64 units.length, none, []⟩
  else if units.length > asUsize b.cch then ⟨0, some ERROR_INSUFFICIENT_BUFFER, []⟩
  else ⟨BitVec.ofNat 64 units.length, none, layUnits b.wstr units⟩

theorem multiByteToWideChar_eq (hMap : sbcsMap cp = some map) (hText : ByteText mem b s) :
    multiByteToWideChar utf8Lossy mem cp b = .ok (b.answer map (b.seen s)) := by
  have hDecode : sbcsDecode cp (b.seen s) = some (decoded map (b.seen s)) := by
    rw [sbcsDecode, hMap]
    rfl
  unfold multiByteToWideChar ByteCall.answer
  simp only [hText.read, hDecode, Option.getD_some, bind, Except.bind]
  split
  · rfl
  · split
    · rfl
    · rfl

theorem ByteText.query (hText : ByteText mem b s) : ByteText mem { b with cch := 0 } s := ⟨hText.counted, hText.terminated⟩

theorem ByteText.short (hText : ByteText mem b s) : (terminate (b.cb.slt 0) (b.seen s)).length < 2 ^ 63 := by
  rw [length_terminate, ByteCall.seen]
  split
  · rw [length_take]
    omega
  next hSign =>
    rw [(hText.counted (Bool.eq_false_iff.mpr hSign)).1]
    have hLt := b.cb.isLt
    omega

theorem length_layUnits (addr : U64) (us : List U16) : (layUnits addr us).length = us.length := by
  rw [layUnits, length_map, length_zipIdx]

theorem decoded_of_encode (hMap : sbcsMap cp = some map) {us : List U16} (hAll : ∀ u ∈ us, Representable map u)
    (hEncode : sbcsEncode cp us = some (s, false)) : decoded map s = us := by
  have hDecode := decode_encoded hMap hAll false
  rw [sbcsEncode_eq hMap] at hEncode
  obtain ⟨rfl, -⟩ := Prod.mk.inj (Option.some.inj hEncode)
  rw [sbcsDecode, hMap] at hDecode
  exact Option.some.inj hDecode

theorem decodes_iff (hMap : sbcsMap cp = some map) (hText : ByteText mem b s) :
    b.Decodes cp map s (ByteCall.answer { b with cch := 0 } map (b.seen s)) (b.answer map (b.seen s)) ↔ b.Fits cp map s := by
  have hShort := hText.short
  have hLength : (terminate (b.cb.slt 0) (decoded map (b.seen s))).length = (terminate (b.cb.slt 0) (b.seen s)).length := by
    rw [length_terminate, length_terminate, decoded, length_map]
  have hQuery : (ByteCall.answer { b with cch := 0 } map (b.seen s)).ret.toNat = (terminate (b.cb.slt 0) (b.seen s)).length := by
    rw [← hLength] at hShort ⊢
    exact toNat_length hShort
  by_cases hAsk : b.cch = 0
  · constructor
    · intro _
      exact ⟨by rw [hAsk]; decide, fun _ => .inl hAsk⟩
    · intro _
      exact ⟨fun hSize => absurd hAsk hSize, fun hSize => absurd hAsk hSize⟩
  · by_cases hNeg : b.cch.toInt < 0
    · have hLarge := asUsize_of_neg hNeg
      have hAnswer : b.answer map (b.seen s) = ⟨BitVec.ofNat 64 (terminate (b.cb.slt 0) (decoded map (b.seen s))).length, none,
          layUnits b.wstr (terminate (b.cb.slt 0) (decoded map (b.seen s)))⟩ := (if_neg hAsk).trans (if_neg (by omega))
      constructor
      · intro h
        have hError := (h.refuses hAsk (by omega)).2.1
        rw [hAnswer] at hError
        cases hError
      · intro h
        exact absurd h.size (Int.not_le.mpr hNeg)
    · have hSize := asUsize_of_nonneg (Int.not_lt.mp hNeg)
      by_cases hSmall : b.cch.toInt < (terminate (b.cb.slt 0) (b.seen s)).length
      · have hAnswer : b.answer map (b.seen s) = ⟨0, some ERROR_INSUFFICIENT_BUFFER, []⟩ := (if_neg hAsk).trans (if_pos (by omega))
        rw [hAnswer]
        constructor
        · intro _
          exact ⟨Int.not_lt.mp hNeg, fun _ => .inr (.inl hSmall)⟩
        · intro _
          exact ⟨fun _ hFits => absurd hSmall (by omega), fun _ _ => ⟨rfl, rfl, rfl⟩⟩
      · have hAnswer : b.answer map (b.seen s) = ⟨BitVec.ofNat 64 (terminate (b.cb.slt 0) (decoded map (b.seen s))).length, none,
            layUnits b.wstr (terminate (b.cb.slt 0) (decoded map (b.seen s)))⟩ := (if_neg hAsk).trans (if_neg (by omega))
        rw [hAnswer]
        constructor
        · intro h
          refine ⟨Int.not_lt.mp hNeg, ?_⟩
          rintro ⟨us, hAll, hEncode⟩
          have hStores := congrArg List.length ((h.converts hAsk (by omega)).2 us hAll hEncode)
          have hWhole : s.length = us.length := by rw [← decoded_of_encode hMap hAll hEncode, decoded, length_map]
          rw [length_layUnits, length_layUnits, hLength, length_terminate, length_terminate] at hStores
          have hSeen : (b.seen s).length = s.length := by omega
          refine .inr (.inr ?_)
          rw [ByteCall.seen] at hSeen ⊢
          split at hSeen
          next hSign => 
            rw [if_pos hSign]
            exact take_of_length_le (by rw [length_take] at hSeen; omega)
          next hSign => exact if_neg hSign
        · intro h
          refine ⟨fun _ _ => ⟨rfl, fun us hAll hEncode => ?_⟩, fun _ hLess => absurd hLess (by omega)⟩
          rcases h.whole ⟨us, hAll, hEncode⟩ with hZero | hLess | hWhole
          · exact absurd hZero hAsk
          · exact absurd hLess hSmall
          · rw [hWhole, decoded_of_encode hMap hAll hEncode]

end Bytes

/-- The conversions of a page do what is asked of them exactly if neither buffer has a negative size and no text is cut off
where that shows. -/
theorem conversions_meet_iff (utf16Lossy : List U16 → List U8) (utf8Lossy : List U8 → List U16) (mem : VirtualMemory) (cp : U32) (w : WideCall) (b : ByteCall) :
    (∀ map, sbcsMap cp = some map → Meets utf16Lossy utf8Lossy mem cp map w b) ↔
      ∀ map, sbcsMap cp = some map → (∀ s, WideText mem w s → w.Fits map s) ∧ ∀ s, ByteText mem b s → b.Fits cp map s := by
  refine forall_congr' fun map => forall_congr' fun hMap => ?_
  constructor
  · intro h
    refine ⟨fun s hText => ?_, fun s hText => ?_⟩
    · obtain ⟨query, a, hQuery, hCall, hEncodes⟩ := h.wide s hText
      rw [wideCharToMultiByte_eq hMap hText.query] at hQuery
      rw [wideCharToMultiByte_eq hMap hText] at hCall
      cases hQuery
      cases hCall
      exact (encodes_iff hMap hText).mp hEncodes
    · obtain ⟨query, a, hQuery, hCall, hDecodes⟩ := h.bytes s hText
      rw [multiByteToWideChar_eq hMap hText.query] at hQuery
      rw [multiByteToWideChar_eq hMap hText] at hCall
      cases hQuery
      cases hCall
      exact (decodes_iff hMap hText).mp hDecodes
  · rintro ⟨hWide, hBytes⟩
    exact ⟨table_meets hMap,
      fun s hText => ⟨_, _, wideCharToMultiByte_eq hMap hText.query, wideCharToMultiByte_eq hMap hText, (encodes_iff hMap hText).mpr (hWide s hText)⟩,
      fun s hText => ⟨_, _, multiByteToWideChar_eq hMap hText.query, multiByteToWideChar_eq hMap hText, (decodes_iff hMap hText).mpr (hBytes s hText)⟩⟩

/-- One letter, to be encoded into a buffer of the size -1: it is written. -/
theorem negative_size_written : ¬ ∀ map, sbcsMap 28591 = some map →
    Meets (fun _ => []) (fun _ => []) (VirtualMemory.new.history [.mapWithData true "text" 0x1000 0x1000 [0x41, 0] Perm.RW]) 28591 map
      ⟨0x1000, 1, 0x1100, -1, 0⟩ ⟨0x1000, 0, 0x1100, 0⟩ := by
  intro h
  obtain ⟨map, hMap⟩ : ∃ map, sbcsMap 28591 = some map := ⟨_, rfl⟩
  have hText : WideText (VirtualMemory.new.history [.mapWithData true "text" 0x1000 0x1000 [0x41, 0] Perm.RW])
      ⟨0x1000, 1, 0x1100, -1, 0⟩ [0x41] := by
    refine ⟨fun i hi => ?_, fun _ => rfl, fun hSign => absurd hSign (by decide)⟩
    obtain rfl : i = 0 := Nat.lt_one_iff.mp hi
    exact (by decide : readU16 (VirtualMemory.new.history [.mapWithData true "text" 0x1000 0x1000 [0x41, 0] Perm.RW])
      (0x1000 + BitVec.ofNat 64 (0 * 2)) = .ok 0x41)
  obtain ⟨query, a, hQuery, hCall, hEncodes⟩ := (h map hMap).wide [0x41] hText
  rw [wideCharToMultiByte_eq hMap hText.query] at hQuery
  rw [wideCharToMultiByte_eq hMap hText] at hCall
  cases hQuery
  cases hCall
  exact absurd ((encodes_iff hMap hText).mp hEncodes).size (by decide)

end Exemu.Os.CodePage
