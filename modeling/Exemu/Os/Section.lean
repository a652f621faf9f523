import Exemu.Os.Alloc
import Exemu.Os.Module

/-! # Sections and their views

A section keeps the bytes of a file, or the parts of an image.
-/
namespace Exemu.Os

namespace Sections

def STATUS_SUCCESS : U32 := 0
def STATUS_INVALID_PARAMETER : U32 := 0xC000000D
def STATUS_INVALID_HANDLE : U32 := 0xC0000008
def STATUS_NO_MEMORY : U32 := 0xC0000017

structure ImageSection where
  rva : U32
  virtualSize : U32
  data : List U8

structure SectionImage where
  sizeOfImage : U64
  is64bit : Bool
  headers : List U8
  sections : List ImageSection

structure Section where
  data : List U8
  size : U64
  image : Option SectionImage

structure State where
  sys : Sys
  sections : Nat → Option Section
  /-- bases and sizes -/
  imageViews : List (U64 × U64)

abbrev Act := Fallible State EmuError

def onSys (f : Sys → Sys) : Act Unit := .modify fun s => { s with sys := f s.sys }

def read (addr : U64) (n : Nat) : Act (List U8) := .step fun s => (s.sys.mem.read addr n).map fun bytes => (bytes, s)

def write (addr : U64) (bytes : List U8) : Act Unit :=
  .step fun s => (s.sys.mem.write addr bytes).map fun mem => ((), { s with sys := { s.sys with mem } })

def readU64 (addr : U64) : Act U64 := do return fromLe (← read addr 8)

def writeU64 (addr v : U64) : Act Unit := write addr (toLe 8 v)

def readAt (ptr : U64) : Act U64 := if ptr ≠ 0 then readU64 ptr else pure 0

def writeAt (ptr v : U64) : Act Unit := if ptr ≠ 0 then writeU64 ptr v else pure ()

/-! ## Creation -/

def sectionImage (pe : Loader.PeImage) : SectionImage where
  sizeOfImage := pe.sizeOfImage.setWidth 64
  is64bit := pe.is64bit
  headers := pe.headers
  sections := pe.sections.map fun s => ⟨s.rva, s.virtualSize, s.data⟩

/-- `backing` is what the file of the handle holds, none without a handle, and none within for a handle
that cannot be read. -/
def ntCreateSection (images : ImageLoader) (handlePtr maxSizePtr : U64) (isImage : Bool) (backing : Option (Option (List U8))) : Act U32 := do
  if handlePtr = 0 then return STATUS_INVALID_PARAMETER
  else
    match backing.getD (some []) with
    | none => return STATUS_INVALID_HANDLE
    | some data => do
      let image := if isImage ∧ data ≠ [] then (images.parse data).map sectionImage else none
      let requested ← readAt maxSizePtr
      let imageSize := (image.map SectionImage.sizeOfImage).getD 0
      let size := alignUp (maxU64 (maxU64 (maxU64 requested imageSize) (BitVec.ofNat 64 data.length)) 1) PAGE
      let s ← Fallible.get
      let handle := s.sys.os.nextHandle
      .modify fun s =>
        { s with
          sys := { s.sys with os := { s.sys.os with nextHandle := handle + 4 } }
          sections := Function.update s.sections handle (some ⟨data, size, image⟩) }
      writeU64 handlePtr (BitVec.ofNat 64 handle)
      return STATUS_SUCCESS

/-! ## Views -/

def satSub (a b : U64) : U64 := if b ≤ a then a - b else 0

def placeView (s : Sys) (granted : U64 → Bool) (reqBase viewSize : U64) (low : Bool) (name : String) : Sys × Option U64 :=
  if reqBase ≠ 0 then
    let base := reqBase &&& ~~~(GRAN - 1)
    match s.tryMap granted base viewSize Perm.RWX name with
    | (s, true) => (s, some base)
    | (s, false) => (s, none)
  else if low then s.mapAnywhereLow granted viewSize Perm.RWX name
  else s.mapAnywhere granted viewSize Perm.RWX name

def place (granted : U64 → Bool) (reqBase viewSize : U64) (low : Bool) (name : String) : Act (Option U64) :=
  .step fun s => .ok ((placeView s.sys granted reqBase viewSize low name).2, { s with sys := (placeView s.sys granted reqBase viewSize low name).1 })

/-- `if n != 0 { mem.write(..) }` -/
def copy (addr : U64) (bytes : List U8) : Act Unit := if bytes ≠ [] then write addr bytes else pure ()

def copyAll (base : U64) : List (U64 × List U8) → Act Unit
  | [] => pure ()
  | p :: ps => do
    copy (base + p.1) p.2
    copyAll base ps

def vmInsertView (base size : U64) : Act Unit := onSys fun s => s.vmInsert ⟨base, size, true⟩

def recordImageView (base size : U64) : Act Unit :=
  .modify fun s => { s with imageViews := (s.imageViews.filter fun v => v.1 ≠ base) ++ [(base, size)] }

def flatSize (sec : Section) (offset want : U64) : U64 :=
  if want ≠ 0 then alignUp want PAGE else alignUp (maxU64 (satSub sec.size offset) 1) PAGE

def flatBytes (sec : Section) (offset viewSize : U64) : List U8 :=
  let start := min offset.toNat sec.data.length
  (sec.data.drop start).take (min viewSize.toNat (sec.data.length - start))

def mapFlatView (granted : U64 → Bool) (sec : Section) (basePtr offsetPtr sizePtr : U64) : Act U32 := do
  let offset ← readAt offsetPtr
  let want ← readAt sizePtr
  let viewSize := flatSize sec offset want
  let reqBase ← readU64 basePtr
  let s ← Fallible.get
  match ← place granted reqBase viewSize (s.sys.os.wow64Peb32 ≠ 0) "section-view" with
  | none => return STATUS_NO_MEMORY
  | some base => do
    copy base (flatBytes sec offset viewSize)
    vmInsertView base viewSize
    writeU64 basePtr base
    writeU64 sizePtr viewSize
    writeAt offsetPtr offset
    return STATUS_SUCCESS

def imageSize (img : SectionImage) : U64 := alignUp (maxU64 img.sizeOfImage PAGE) PAGE

def imageParts (img : SectionImage) (viewSize : U64) : List (U64 × List U8) :=
  (0, img.headers.take (min img.headers.length viewSize.toNat)) ::
    img.sections.map fun s => (s.rva.setWidth 64, s.data.take (min (s.rva.toNat + s.virtualSize.toNat) viewSize.toNat - s.rva.toNat))

def mapImageView (granted : U64 → Bool) (img : SectionImage) (basePtr sizePtr offsetPtr : U64) : Act U32 := do
  let viewSize := imageSize img
  let reqBase ← readU64 basePtr
  match ← place granted reqBase viewSize (!img.is64bit) "image-view" with
  | none => return STATUS_NO_MEMORY
  | some base => do
    copyAll base (imageParts img viewSize)
    vmInsertView base viewSize
    recordImageView base viewSize
    writeU64 basePtr base
    writeU64 sizePtr viewSize
    writeAt offsetPtr 0
    return STATUS_SUCCESS

def ntMapViewOfSection (granted : U64 → Bool) (sectionHandle : Nat) (basePtr offsetPtr sizePtr : U64) : Act U32 := do
  if basePtr = 0 ∨ sizePtr = 0 then return STATUS_INVALID_PARAMETER
  else do
    let s ← Fallible.get
    match s.sections sectionHandle with
    | none => return STATUS_INVALID_HANDLE
    | some sec =>
      match sec.image with
      | some img => mapImageView granted img basePtr sizePtr offsetPtr
      | none => mapFlatView granted sec basePtr offsetPtr sizePtr

def vmViewBase (s : Sys) (addr : U64) : Option U64 := (s.os.vmAllocs.find? fun a => a.base == addr).map VmAlloc.base

def ntUnmapViewOfSection (base : U64) : Act U32 := do
  let s ← Fallible.get
  match vmViewBase s.sys base with
  | none => return STATUS_INVALID_PARAMETER
  | some _ => do
    onSys fun s => s.vmFreeRegion base MEM_RELEASE
    .modify fun s => { s with imageViews := s.imageViews.filter fun v => v.1 ≠ base }
    return STATUS_SUCCESS

/-! ## Calls -/

/-- `vm` stands for the other calls that allocate, and for threads; `store` for the guest's own writes. -/
inductive Call where
  | ntCreateSection (images : ImageLoader) (handlePtr maxSizePtr : U64) (isImage : Bool) (backing : Option (Option (List U8)))
  | ntMapViewOfSection (granted : U64 → Bool) (sectionHandle : Nat) (basePtr offsetPtr sizePtr : U64)
  | ntUnmapViewOfSection (base : U64)
  | vm (op : VmOp)
  | store (addr : U64) (bytes : List U8)

def Call.run : Call → Act U32
  | .ntCreateSection images handlePtr maxSizePtr isImage backing => Sections.ntCreateSection images handlePtr maxSizePtr isImage backing
  | .ntMapViewOfSection granted sectionHandle basePtr offsetPtr sizePtr =>
    Sections.ntMapViewOfSection granted sectionHandle basePtr offsetPtr sizePtr
  | .ntUnmapViewOfSection base => Sections.ntUnmapViewOfSection base
  | .vm op => do
    onSys fun s => s.vmStep op
    return STATUS_SUCCESS
  | .store addr bytes => do
    write addr bytes
    return STATUS_SUCCESS

end Sections

end Exemu.Os
