import Exemu.Loader.Walk
import Mathlib.Data.List.Sort

/-! # The PE parser

The headers are read from the file, the sections are cut out of it so that no two of them share an
address of the image, and the tables are walked through those sections.
-/
namespace Exemu.Loader

open Path (Text)

/-! ## Reads from the file -/

namespace Reader

def slice (data : List U8) (off len : Nat) : PeResult (List U8) :=
  if off + len ≤ data.length then .ok ((data.drop off).take len) else .error (.outOfBounds len off)

def u16 (data : List U8) (off : Nat) : PeResult U16 := return (fromLe (← slice data off 2)).setWidth 16
def u32 (data : List U8) (off : Nat) : PeResult U32 := return (fromLe (← slice data off 4)).setWidth 32
def u64 (data : List U8) (off : Nat) : PeResult U64 := return fromLe (← slice data off 8)

end Reader

/-! ## Headers -/

def DOS_MAGIC : U16 := 0x5A4D
def PE_SIGNATURE : U32 := 0x00004550
def MACHINE_AMD64 : U16 := 0x8664
def MACHINE_I386 : U16 := 0x014c
def OPT_MAGIC_PE32 : U16 := 0x10B
def OPT_MAGIC_PE32PLUS : U16 := 0x20B

def E_LFANEW_OFFSET : Nat := 0x3C

def OPT_ENTRY : Nat := 16
def OPT_SIZE_OF_IMAGE : Nat := 56
def OPT_SIZE_OF_HEADERS : Nat := 60
def OPT_SUBSYSTEM : Nat := 68

def DIR_EXPORT : Nat := 0
def DIR_IMPORT : Nat := 1
def DIR_EXCEPTION : Nat := 3
def DIR_BASERELOC : Nat := 5
def DIR_TLS : Nat := 9
def DIR_DELAY_IMPORT : Nat := 13

def SCN_CNT_UNINIT_DATA : U32 := 0x00000080
def SCN_MEM_EXECUTE : U32 := 0x20000000
def SCN_MEM_READ : U32 := 0x40000000
def SCN_MEM_WRITE : U32 := 0x80000000

def SECTION_HEADER_SIZE : Nat := 40

structure Dir where
  rva : U32
  size : U32
  deriving DecidableEq, Inhabited, Repr

structure Directories where
  imports : Dir
  exports : Dir
  exceptions : Dir
  relocs : Dir
  tls : Dir
  delayImports : Dir
  deriving DecidableEq, Inhabited, Repr

/-- What `parse` reads of the file before it comes to the sections. -/
structure Headers where
  is64bit : Bool
  imageBase : U64
  entryRva : U32
  sizeOfImage : U32
  sizeOfHeaders : U32
  subsystem : U16
  stackReserve : U64
  dirs : Directories
  secTable : Nat
  numSections : Nat
  deriving DecidableEq, Inhabited, Repr

def readDir (bytes : List U8) (numDirs table i : Nat) : PeResult Dir :=
  if i < numDirs then do
    let rva ← Reader.u32 bytes (table + i * 8)
    let size ← Reader.u32 bytes (table + i * 8 + 4)
    return ⟨rva, size⟩
  else .ok ⟨0, 0⟩

def readHeaders (bytes : List U8) : PeResult Headers := do
  if (← Reader.u16 bytes 0) ≠ DOS_MAGIC then throw .dosSignature
  let peOff := (← Reader.u32 bytes E_LFANEW_OFFSET).toNat
  if (← Reader.u32 bytes peOff) ≠ PE_SIGNATURE then throw .peSignature
  let coff := peOff + 4
  let machine ← Reader.u16 bytes coff
  if machine ≠ MACHINE_AMD64 && machine ≠ MACHINE_I386 then throw (.machine machine)
  let numSections := (← Reader.u16 bytes (coff + 2)).toNat
  let sizeOptHeader := (← Reader.u16 bytes (coff + 16)).toNat
  let opt := coff + 20
  let magic ← Reader.u16 bytes opt
  if magic ≠ OPT_MAGIC_PE32PLUS && magic ≠ OPT_MAGIC_PE32 then throw (.magic magic)
  let is64bit : Bool := magic = OPT_MAGIC_PE32PLUS
  let entryRva ← Reader.u32 bytes (opt + OPT_ENTRY)
  let sizeOfImage ← Reader.u32 bytes (opt + OPT_SIZE_OF_IMAGE)
  let sizeOfHeaders ← Reader.u32 bytes (opt + OPT_SIZE_OF_HEADERS)
  let subsystem ← Reader.u16 bytes (opt + OPT_SUBSYSTEM)
  let imageBase ← if is64bit then Reader.u64 bytes (opt + 24) else (·.setWidth 64) <$> Reader.u32 bytes (opt + 28)
  let stackReserve ← if is64bit then Reader.u64 bytes (opt + 72) else (·.setWidth 64) <$> Reader.u32 bytes (opt + 72)
  let numDirs := (← Reader.u32 bytes (opt + if is64bit then 108 else 92)).toNat
  let table := opt + if is64bit then 112 else 96
  let imports ← readDir bytes numDirs table DIR_IMPORT
  let exports ← readDir bytes numDirs table DIR_EXPORT
  let exceptions ← readDir bytes numDirs table DIR_EXCEPTION
  let relocs ← readDir bytes numDirs table DIR_BASERELOC
  let tls ← readDir bytes numDirs table DIR_TLS
  let delayImports ← readDir bytes numDirs table DIR_DELAY_IMPORT
  return {
    is64bit, imageBase, entryRva, sizeOfImage, sizeOfHeaders, subsystem, stackReserve, numSections
    dirs := { imports, exports, exceptions, relocs, tls, delayImports }
    secTable := opt + sizeOptHeader }

/-! ## Sections -/

structure SectionHeader where
  name : Text
  virtualSize : U32
  rva : U32
  sizeRaw : Nat
  ptrRaw : Nat
  chars : U32
  deriving DecidableEq, Repr

namespace SectionHeader

def read (bytes : List U8) (at' : Nat) : PeResult SectionHeader := do
  let rawName ← Reader.slice bytes at' 8
  let virtualSize ← Reader.u32 bytes (at' + 8)
  let rva ← Reader.u32 bytes (at' + 12)
  let sizeRaw ← Reader.u32 bytes (at' + 16)
  let ptrRaw ← Reader.u32 bytes (at' + 20)
  let chars ← Reader.u32 bytes (at' + 36)
  return ⟨fromUtf8Lossy (rawName.takeWhile (· ≠ 0)), virtualSize, rva, sizeRaw.toNat, ptrRaw.toNat, chars⟩

def virtualSpan (h : SectionHeader) : Nat := if h.virtualSize ≠ 0 then h.virtualSize.toNat else h.sizeRaw

def virtualEnd (h : SectionHeader) : Nat := h.rva.toNat + h.virtualSpan

def Before (a b : SectionHeader) : Prop :=
  a.rva.toNat < b.rva.toNat ∨ a.rva.toNat = b.rva.toNat ∧ a.virtualSpan ≤ b.virtualSpan

instance : DecidableRel Before := fun a b =>
  inferInstanceAs (Decidable (a.rva.toNat < b.rva.toNat ∨ a.rva.toNat = b.rva.toNat ∧ a.virtualSpan ≤ b.virtualSpan))

end SectionHeader

def readSectionHeaders (bytes : List U8) (secTable : Nat) : Nat → Nat → PeResult (List SectionHeader)
  | 0, _ => .ok []
  | n + 1, i => do
    let h ← SectionHeader.read bytes (secTable + i * SECTION_HEADER_SIZE)
    return h :: (← readSectionHeaders bytes secTable n (i + 1))

def limitRaw : List (SectionHeader × Nat) → List Nat → PeResult (List Nat)
  | (cur, i) :: (next, j) :: rest, limits =>
    if next.rva.toNat < cur.virtualEnd then .error (.overlap cur.name cur.rva next.name next.rva)
    else limitRaw ((next, j) :: rest) (limits.set i (next.rva.toNat - cur.rva.toNat))
  | _, limits => .ok limits

def rawCopyLimits (headers : List SectionHeader) : PeResult (List Nat) :=
  limitRaw (headers.zipIdx.insertionSort fun a b => a.1.Before b.1) (List.replicate headers.length (2 ^ 64 - 1))

def cutSection (bytes : List U8) (h : SectionHeader) (limit : Nat) : PeResult Section := do
  let data ←
    if h.sizeRaw = 0 || h.chars &&& SCN_CNT_UNINIT_DATA ≠ 0 then pure []
    else Reader.slice bytes h.ptrRaw (min (min (bytes.length - h.ptrRaw) h.sizeRaw) limit)
  return {
    name := h.name, rva := h.rva, virtualSize := h.virtualSize, data
    readable := h.chars &&& SCN_MEM_READ ≠ 0
    writable := h.chars &&& SCN_MEM_WRITE ≠ 0
    executable := h.chars &&& SCN_MEM_EXECUTE ≠ 0 }

def cutSections (bytes : List U8) : List (SectionHeader × Nat) → PeResult (List Section)
  | [] => .ok []
  | (h, limit) :: rest => do
    let s ← cutSection bytes h limit
    return s :: (← cutSections bytes rest)

def readSections (bytes : List U8) (h : Headers) : PeResult (List Section) := do
  let headers ← readSectionHeaders bytes h.secTable h.numSections 0
  let limits ← rawCopyLimits headers
  cutSections bytes (headers.zip limits)

/-! ## Tables -/

namespace Headers

def importTable (fuel : Nat) (h : Headers) : Walk (List Import) := do
  let imports ←
    if h.dirs.imports.rva ≠ 0 && h.dirs.imports.size ≠ 0 then parseImports fuel h.dirs.imports.rva h.is64bit else pure []
  if h.dirs.delayImports.rva ≠ 0 && h.dirs.delayImports.size ≠ 0 then
    match ← (parseDelayImports fuel h.dirs.delayImports.rva h.imageBase h.is64bit).ok with
    | some delay => return imports ++ delay
    | none => return imports
  else return imports

def exportTable (h : Headers) : Walk (List Export × Option Text) :=
  if h.dirs.exports.rva ≠ 0 && h.dirs.exports.size ≠ 0 then do
    return (← (parseExports h.dirs.exports.rva h.dirs.exports.size).ok).getD ([], none)
  else return ([], none)

def relocTable (h : Headers) : Walk (List Reloc) :=
  if h.dirs.relocs.rva ≠ 0 && h.dirs.relocs.size ≠ 0 then do
    return (← (parseRelocs h.dirs.relocs.rva h.dirs.relocs.size).ok).getD []
  else return []

def tlsTable (fuel : Nat) (h : Headers) : Walk (Option Tls) :=
  if h.dirs.tls.rva ≠ 0 then (parseTls fuel h.dirs.tls.rva h.imageBase h.is64bit).ok else return none

end Headers

def parse (fuel : Nat) (bytes : List U8) : Except Stop PeImage := do
  let h ← Walk.ofResult (readHeaders bytes)
  let sections ← Walk.ofResult (readSections bytes h)
  let imports ← (h.importTable fuel).result (fileAnswer sections)
  let exports ← h.exportTable.result (fileAnswer sections)
  let relocations ← h.relocTable.result (fileAnswer sections)
  let tls ← (h.tlsTable fuel).result (fileAnswer sections)
  let headers ← Walk.ofResult (Reader.slice bytes 0 (min h.sizeOfHeaders.toNat bytes.length))
  return {
    is64bit := h.is64bit, imageBase := h.imageBase, entryRva := h.entryRva, sizeOfImage := h.sizeOfImage
    sizeOfHeaders := h.sizeOfHeaders, subsystem := h.subsystem, stackReserve := h.stackReserve
    sections, imports, exports := exports.1, relocations, tls, dllName := exports.2, headers }

/-! ## A small file -/

def le16 (v : Nat) : List U8 := toLe 2 (BitVec.ofNat 64 v)
def le32 (v : Nat) : List U8 := toLe 4 (BitVec.ofNat 64 v)
def zeros (n : Nat) : List U8 := List.replicate n 0

/-- A 32-bit image of base `0x400000` with these directories and one section at `0x1000`, with `data` as its part of the file. -/
def smallFile (dirs : List Dir) (virtualSize : Nat) (data : List U8) : List U8 :=
  [0x4D, 0x5A] ++ zeros 58 ++ le32 64 ++
    le32 0x4550 ++ le16 0x14C ++ le16 1 ++ zeros 12 ++ le16 (96 + 8 * dirs.length) ++ zeros 2 ++
    le16 0x10B ++ zeros 26 ++ le32 0x400000 ++ zeros 24 ++ le32 0x2000 ++ le32 184 ++ zeros 28 ++ le32 dirs.length ++
    dirs.flatMap (fun d => le32 d.rva.toNat ++ le32 d.size.toNat) ++
    zeros 8 ++ le32 virtualSize ++ le32 0x1000 ++ le32 data.length ++ le32 (224 + 8 * dirs.length) ++ zeros 12 ++
    le32 0xE0000000 ++ data

def Headers.ofFile (bytes : List U8) : Headers := (readHeaders bytes).toOption.getD default

def PeImage.ofFile (bytes : List U8) : PeImage := (parse 1 bytes).toOption.getD default

end Exemu.Loader
