import Exemu.Library.Bisect
import Exemu.Library.Put
import Exemu.Os.Registry
import Mathlib.Data.List.Sort

/-! # The API-set namespace

The map of contracts to host modules that the guest's own loader reads: a header, an entry and a
value for each contract, a table of hashes that is searched by halves, and the texts.
-/
namespace Exemu.Os

open Path (Text)

namespace ApiSet

def API_SET_SCHEMA_VERSION : U32 := 6
def HASH_FACTOR : U32 := 0x1F
def HEADER_SIZE : U32 := 0x1C
def ENTRY_SIZE : U32 := 0x18
def VALUE_SIZE : U32 := 0x14
def HASH_ENTRY_SIZE : U32 := 0x08

/-! ## Hashes -/

def lower (c : U16) : U16 := if 0x41 ≤ c && c ≤ 0x5A then c + 0x20 else c

/-- The loop over the units, from index `i` on: the last hyphen before a dot. -/
def lastHyphen : List U16 → Nat → Option Nat → Option Nat
  | [], _, last => last
  | c :: cs, i, last => if c = 0x2E then last else lastHyphen cs (i + 1) (if c = 0x2D then some i else last)

def hashablePrefix (name : List U16) : List U16 := name.take ((lastHyphen name 0 none).getD 0)

def apiSetHash (name : Text) (factor : U32) : U32 :=
  (hashablePrefix (encodeUtf16 name)).foldl (fun hash c => hash * factor + (lower c).setWidth 32) 0

/-! ## The builder -/

structure BuiltEntry where
  name : List U16
  nameBytes : U32
  hashedBytes : U32
  hash : U32
  value : List U16
  valueBytes : U32

/-- `as u32`, of a number of elements. -/
def asU32 (n : Nat) : U32 := BitVec.ofNat 32 n

def builtEntry (contract : Text × Text) : BuiltEntry :=
  let name := encodeUtf16 contract.1
  let value := encodeUtf16 contract.2
  { name, value
    nameBytes := asU32 (name.length * 2)
    hashedBytes := asU32 ((hashablePrefix name).length * 2)
    hash := apiSetHash contract.1 HASH_FACTOR
    valueBytes := asU32 (value.length * 2) }

def align8 (v : U32) : U32 := asU32 ((v.toNat + 7) / 8) * 8

def unitBytes (us : List U16) : List U8 := us.flatMap fun u => toLe 2 (u.setWidth 64)

def layTexts (stringsBase : U32) : List BuiltEntry → List U8 → List U8 × List (BuiltEntry × U32 × U32)
  | [], strings => (strings, [])
  | e :: es, strings =>
    let nameOff := stringsBase + asU32 strings.length
    let withName := strings ++ unitBytes e.name
    let valueOff := stringsBase + asU32 withName.length
    let rest := layTexts stringsBase es (withName ++ unitBytes e.value)
    (rest.1, (e, nameOff, valueOff) :: rest.2)

structure Offsets where
  entryOffset : U32
  valueOffsetBase : U32
  hashOffset : U32
  stringsBase : U32

def offsets (count : U32) : Offsets :=
  let entryOffset := align8 HEADER_SIZE
  let valueOffsetBase := entryOffset + count * ENTRY_SIZE
  let hashOffset := valueOffsetBase + count * VALUE_SIZE
  ⟨entryOffset, valueOffsetBase, hashOffset, hashOffset + count * HASH_ENTRY_SIZE⟩

/-- `put_u32` of numbers that follow each other. -/
def words (off : U32) : List U32 → List (Nat × List U8)
  | [] => []
  | v :: vs => (off.toNat, toLe 4 (v.setWidth 64)) :: words (off + 4) vs

def headerWords (total count : U32) (o : Offsets) : List (Nat × List U8) :=
  words 0 [API_SET_SCHEMA_VERSION, total, 0, count, o.entryOffset, o.hashOffset, HASH_FACTOR]

def entryWords (o : Offsets) (i : Nat) (e : BuiltEntry) (nameOff valueOff : U32) : List (Nat × List U8) :=
  let eo := o.entryOffset + asU32 i * ENTRY_SIZE
  let vo := o.valueOffsetBase + asU32 i * VALUE_SIZE
  words eo [0, nameOff, e.nameBytes, e.hashedBytes, vo, 1] ++ words vo [0, 0, 0, valueOff, e.valueBytes]

def hashWords (o : Offsets) (i : Nat) (h idx : U32) : List (Nat × List U8) :=
  words (o.hashOffset + asU32 i * HASH_ENTRY_SIZE) [h, idx]

def hashIndex (entries : List BuiltEntry) : List (U32 × U32) :=
  (entries.zipIdx.map fun x => (x.1.hash, asU32 x.2)).insertionSort fun a b => a.1.toNat ≤ b.1.toNat

def collides : List (U32 × U32) → Bool
  | a :: b :: rest => a.1 = b.1 || collides (b :: rest)
  | _ => false

structure ApiSetNamespace where
  bytes : List U8
  count : U32
  entryOffset : U32
  hashOffset : U32

def buildNamespace (contracts : List (Text × Text)) : Option ApiSetNamespace := do
  let entries := contracts.map builtEntry
  let count := asU32 entries.length
  let o := offsets count
  let laid := layTexts o.stringsBase entries []
  let total := align8 (o.stringsBase + asU32 laid.1.length)
  let bytes := List.replicate total.toNat (0 : U8)
  let bytes ← Put.putAll (headerWords total count o) bytes
  let bytes ← Put.putAll (laid.2.zipIdx.flatMap fun x => entryWords o x.2 x.1.1 x.1.2.1 x.1.2.2) bytes
  let index := hashIndex entries
  if collides index then none
  else do
    let bytes ← Put.putAll (index.zipIdx.flatMap fun x => hashWords o x.2 x.1.1 x.1.2) bytes
    let bytes ← Put.put bytes (o.stringsBase.toNat, laid.1)
    return ⟨bytes, count, o.entryOffset, o.hashOffset⟩

/-! ## Reading it -/

def u32At (b : List U8) (off : Nat) : Option U32 := (Put.window b off 4).map fun bs => (fromLe bs).setWidth 32

def unitsOf : List U8 → List U16
  | lo :: hi :: rest => (fromLe [lo, hi]).setWidth 16 :: unitsOf rest
  | _ => []

/-- `String::from_utf16` -/
def decodeUtf16 : List U16 → Option Text
  | [] => some []
  | u :: us =>
    if u.toNat < 0xD800 || 0xE000 ≤ u.toNat then (Char.ofNat u.toNat :: ·) <$> decodeUtf16 us
    else
      match us with
      | v :: vs =>
        if u.toNat < 0xDC00 && (0xDC00 ≤ v.toNat && v.toNat < 0xE000) then
          (Char.ofNat (0x10000 + (u.toNat - 0xD800) * 0x400 + (v.toNat - 0xDC00)) :: ·) <$> decodeUtf16 vs
        else none
      | [] => none

def textAt (b : List U8) (off byteLen : U32) : Option Text := do decodeUtf16 (unitsOf (← Put.window b off.toNat byteLen.toNat))

def middle (lo hi : Nat) : Nat := (lo + hi - 1) / 2

/-- The search that the guest's loader makes, with the header of the map: the index of the entry with this hash. -/
def find (b : List U8) (hash : U32) : Option Nat := do
  let count ← u32At b 0x0C
  let hashOffset ← u32At b 0x14
  let key := fun i => ((u32At b (hashOffset.toNat + i * 8)).getD 0).toNat
  let i ← Bisect.search key middle hash.toNat count.toNat 0 count.toNat
  return (← u32At b (hashOffset.toNat + i * 8 + 4)).toNat

/-- The offsets and lengths of an entry: of its name, of the hashed part, of its value. -/
structure Entry where
  nameOff : U32
  nameBytes : U32
  hashedBytes : U32
  valueOff : U32
  hostOff : U32
  hostBytes : U32

def entryAt (b : List U8) (i : Nat) : Option Entry := do
  let eo := (← u32At b 0x10).toNat + i * 24
  let vo ← u32At b (eo + 0x10)
  return ⟨← u32At b (eo + 0x04), ← u32At b (eo + 0x08), ← u32At b (eo + 0x0C), vo, ← u32At b (vo.toNat + 0x0C), ← u32At b (vo.toNat + 0x10)⟩

end ApiSet

end Exemu.Os
