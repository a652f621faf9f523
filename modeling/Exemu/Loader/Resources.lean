import Exemu.Library.Keyed
import Exemu.Os.Namespace

/-! # Resources

A tree of three levels in the file: types, names and languages.
-/
namespace Exemu.Loader

open Path (Text)
open Os (fromUtf16Lossy)

def MAX_WALKED_DIR_ENTRIES : Nat := 1 <<< 20

def LANG_ANY : U16 := 0xFFFF

inductive ResourceName where
  | Id (id : U32)
  | Name (s : Text)
deriving DecidableEq

namespace Resources

def u16 (bytes : List U8) (off : Nat) : Option U16 := (Reader.u16 bytes off).toOption
def u32 (bytes : List U8) (off : Nat) : Option U32 := (Reader.u32 bytes off).toOption

def nameUnits (bytes : List U8) (off len : Nat) : List U16 := (List.range len).filterMap fun i => u16 bytes (off + i * 2)

def fromEntry (bytes : List U8) (resBase : Nat) (raw : U32) : ResourceName :=
  if raw &&& 0x80000000 ≠ 0 then
    let soff := resBase + (raw &&& 0x7fffffff).toNat
    match u16 bytes soff with
    | some len => .Name (fromUtf16Lossy (nameUnits bytes (soff + 2) len.toNat))
    | none => .Id (raw &&& 0x7fffffff)
  else .Id (raw &&& 0x7fffffff)

/-! ## The root -/

abbrev SectionRow := U32 × U32 × U32

def sectionRows (bytes : List U8) : Nat → Nat → Option (List SectionRow)
  | _, 0 => some []
  | s, n + 1 => do
    let vsize ← u32 bytes (s + 8)
    let va ← u32 bytes (s + 12)
    let rawsz ← u32 bytes (s + 16)
    let rawp ← u32 bytes (s + 20)
    return (va, if vsize.toNat < rawsz.toNat then rawsz else vsize, rawp) :: (← sectionRows bytes (s + 40) n)

def rva2off (sections : List SectionRow) (rva : U32) : Option Nat :=
  (sections.find? fun s => s.1.toNat ≤ rva.toNat && rva.toNat < s.1.toNat + s.2.1.toNat).map fun s => s.2.2.toNat + (rva.toNat - s.1.toNat)

structure Root where
  resBase : Nat
  sections : List SectionRow
deriving DecidableEq

def resourceRoot (bytes : List U8) : Option Root := do
  let pe ← u32 bytes 0x3c
  let coff := pe.toNat + 4
  let opt := coff + 20
  let magic ← u16 bytes opt
  let numSections ← u16 bytes (coff + 2)
  let optSize ← u16 bytes (coff + 16)
  let dd := opt + if magic = 0x20b then 112 else 96
  let resRva ← u32 bytes (dd + 2 * 8)
  if resRva = 0 then none
  else
    let sections ← sectionRows bytes (opt + optSize.toNat) numSections.toNat
    return ⟨← rva2off sections resRva, sections⟩

/-! ## Directories -/

structure DirEntry where
  name : U32
  off : Nat
  isDir : Bool
deriving DecidableEq

def dirTotal (bytes : List U8) (off : Nat) : Option Nat := do
  let named ← u16 bytes (off + 12)
  let ids ← u16 bytes (off + 14)
  return named.toNat + ids.toNat

def dirRows (bytes : List U8) : Nat → Nat → Option (List DirEntry)
  | _, 0 => some []
  | e, n + 1 => do
    let name ← u32 bytes e
    let offset ← u32 bytes (e + 4)
    return ⟨name, (offset &&& 0x7fffffff).toNat, offset &&& 0x80000000 != 0⟩ :: (← dirRows bytes (e + 8) n)

def dirEntries (bytes : List U8) (off budget : Nat) : Option (List DirEntry) × Nat :=
  match dirTotal bytes off with
  | none => (none, budget)
  | some total => if budget < total then (none, budget) else (dirRows bytes (off + 16) total, budget - total)

variable (bytes : List U8) (root : Root)

/-! ## Finding one -/

/-- `bytes.get(doff..end)` for a data entry. -/
def dataAt (dataOff : Nat) : Option (List U8) := do
  let rva ← u32 bytes (root.resBase + dataOff)
  let size ← u32 bytes (root.resBase + dataOff + 4)
  let doff ← rva2off root.sections rva
  let stop := min (doff + size.toNat) bytes.length
  if doff ≤ stop then some ((bytes.take stop).drop doff) else none

def findData (lang : U16) (langs : List DirEntry) : Option (List U8) := do
  let first := langs.find? fun e => !e.isDir
  let e ←
    if lang = LANG_ANY then first
    else (langs.find? fun e => !e.isDir && (e.name &&& 0x7fffffff).setWidth 16 == lang).or first
  dataAt bytes root e.off

/-- The search of a type's directory: what it returns, if it returns, and the budget. -/
def findName (name : ResourceName) (lang : U16) : List DirEntry → Nat → Option (Option (List U8)) × Nat
  | [], budget => (none, budget)
  | e :: es, budget =>
    if !e.isDir then findName name lang es budget
    else if fromEntry bytes root.resBase e.name ≠ name then findName name lang es budget
    else
      match dirEntries bytes (root.resBase + e.off) budget with
      | (none, budget) => (some none, budget)
      | (some langs, budget) => (some (findData bytes root lang langs), budget)

def findType (typeId : U32) (name : ResourceName) (lang : U16) : List DirEntry → Nat → Option (List U8)
  | [], _ => none
  | e :: es, budget =>
    if !e.isDir then findType typeId name lang es budget
    else if fromEntry bytes root.resBase e.name ≠ .Id typeId then findType typeId name lang es budget
    else
      match dirEntries bytes (root.resBase + e.off) budget with
      | (none, _) => none
      | (some entries, budget) =>
        match findName bytes root name lang entries budget with
        | (some result, _) => result
        | (none, budget) => findType typeId name lang es budget

def findResource (typeId : U32) (name : ResourceName) (lang : U16) : Option (List U8) := do
  let root ← resourceRoot bytes
  let (entries, budget) := dirEntries bytes root.resBase MAX_WALKED_DIR_ENTRIES
  findType bytes root typeId name lang (← entries) budget

/-! ## Listing all -/

structure ResourceEntry where
  typeId : U32
  typeName : Option Text
  name : ResourceName
  lang : U16
deriving DecidableEq

def typeOf (raw : U32) : U32 × Option Text :=
  if raw &&& 0x80000000 ≠ 0 then
    let soff := root.resBase + (raw &&& 0x7fffffff).toNat
    match u16 bytes soff with
    | some len => (0, some (fromUtf16Lossy (nameUnits bytes (soff + 2) len.toNat)))
    | none => (0, some [])
  else (raw &&& 0x7fffffff, none)

def listLangs (type : U32 × Option Text) (name : ResourceName) (langs : List DirEntry) : List ResourceEntry :=
  (langs.filter fun e => !e.isDir).map fun e => ⟨type.1, type.2, name, (e.name &&& 0xffff).setWidth 16⟩

def listNames (type : U32 × Option Text) : List DirEntry → Nat → List ResourceEntry × Nat
  | [], budget => ([], budget)
  | e :: es, budget =>
    if !e.isDir then listNames type es budget
    else
      match dirEntries bytes (root.resBase + e.off) budget with
      | (none, budget) => listNames type es budget
      | (some langs, budget) =>
        let rest := listNames type es budget
        (listLangs type (fromEntry bytes root.resBase e.name) langs ++ rest.1, rest.2)

def listTypes : List DirEntry → Nat → List ResourceEntry × Nat
  | [], budget => ([], budget)
  | e :: es, budget =>
    if !e.isDir then listTypes es budget
    else
      match dirEntries bytes (root.resBase + e.off) budget with
      | (none, budget) => listTypes es budget
      | (some names, budget) =>
        let own := listNames bytes root (typeOf bytes root e.name) names budget
        let rest := listTypes es own.2
        (own.1 ++ rest.1, rest.2)

def listResources : List ResourceEntry :=
  match resourceRoot bytes with
  | none => []
  | some root =>
    match dirEntries bytes root.resBase MAX_WALKED_DIR_ENTRIES with
    | (none, _) => []
    | (some entries, budget) => (listTypes bytes root entries budget).1

end Resources

end Exemu.Loader
