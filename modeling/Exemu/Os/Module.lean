import Exemu.Library.Fallible
import Exemu.Loader.RelocDirectory
import Exemu.Memory.Packed
import Exemu.Os.Registry

/-! # Loading modules

`LoadLibrary` finds the file, places the image in the arena, loads what it imports and enters it
in the tables of modules and in the PEB's lists.
-/
namespace Exemu.Os

open Path (Text)
open Loader (Section Reloc Export Import ImportSymbol PeImage)

def EMULATED : List Text :=
  ["kernel32.dll", "kernelbase.dll", "user32.dll", "gdi32.dll", "advapi32.dll", "shell32.dll", "shlwapi.dll", "ole32.dll",
    "oleaut32.dll", "comctl32.dll", "comdlg32.dll", "version.dll", "ntdll.dll", "msvcrt.dll", "ws2_32.dll", "crypt32.dll",
    "setupapi.dll", "winmm.dll", "rpcrt4.dll", "userenv.dll", "psapi.dll", "imm32.dll", "gdiplus.dll"].map String.toList

structure Module where
  name : Text
  fullPath : Text
  base : U64
  size : U64
  entry : U64
  refCount : U32
  ldrEntry : U64
  threadCallsDisabled : Bool
  attached : Bool
  deriving DecidableEq

/-- The loader's part of the emulated system. The arena's end is counted without wrapping. -/
structure DllLoader where
  arenaNext : Nat
  byName : HashMap U64
  exports : AList fun _ : U64 => List Export
  modules : List Module
  system : AList fun _ : U64 => Text
  nextSystem : U64
  pendingDllmain : List (U64 × U64)
  ldrArenaNext : U64
  pebLdrData : U64
  loading : List Text

/-- `ImageLoader`, with errors that no caller tells apart. -/
structure ImageLoader where
  parse : List U8 → Option PeImage
  applyRelocations : List Section → List Reloc → U64 → U64 → Option (List Section)
  apiSetHost : Text → Option Text
  resolveExport : (Text → Option (U64 × List Export)) → Text → ImportSymbol → Option U64

/-- The loader over the parser of PE files, which is given `fuel` rounds in its open loops. -/
def peImageLoader (fuel : Nat) (apiSetHost : Text → Option Text)
    (resolveExport : (Text → Option (U64 × List Export)) → Text → ImportSymbol → Option U64) : ImageLoader where
  parse bytes := (Loader.parse fuel bytes).toOption
  applyRelocations sections relocs preferredBase actualBase := (Loader.apply sections relocs preferredBase actualBase).toOption
  apiSetHost := apiSetHost
  resolveExport := resolveExport

/-- What a load finds outside of the system's state: the configuration and the host's files. -/
structure DllEnv where
  images : ImageLoader
  imageBase : U64
  is64bit : Bool
  dllBase : Nat
  dllSize : Nat
  pebAddr : U64
  runDllmain : Bool
  findDllFile : Text → Text → Option Text
  readFile : Text → Option (List U8)

structure DllState where
  mem : VirtualMemory
  dll : DllLoader
  nextThunk : U64
  interned : List ((Text × Text) × U64)

abbrev Load := Fallible DllState EmuError

def MODULE_PAGE : Nat := 0x1000

/-! ## Names -/

/-- `path.rsplit(['/', '\\']).next()` -/
def lastComponent (path : Text) : Text := path.rtakeWhile fun c => c ≠ '/' && c ≠ '\\'

def baseName (path : Text) : Text :=
  let n := toAsciiLowercase (lastComponent path)
  if !(".dll".toList.isSuffixOf n) && !n.contains '.' then n ++ ".dll".toList else n

def canonicalName (images : ImageLoader) (raw : Text) : Text :=
  match images.apiSetHost raw with
  | some host => if ".dll".toList.isSuffixOf host then host else host ++ ".dll".toList
  | none => raw

def DllEnv.moduleName (env : DllEnv) (path : Text) : Text := canonicalName env.images (baseName path)

/-! ## Memory -/

namespace Load

def onLoader (f : DllLoader → DllLoader) : Load Unit := .modify fun s => { s with dll := f s.dll }

def write (addr : U64) (bytes : List U8) : Load Unit :=
  .step fun s => (s.mem.write addr bytes).map fun mem => ((), { s with mem })

def read (addr : U64) (n : Nat) : Load (List U8) := .step fun s => (s.mem.read addr n).map fun bytes => (bytes, s)

end Load

open Load

namespace DllEnv

variable (env : DllEnv)

def ptrSize : Nat := if env.is64bit then 8 else 4

def ptr : U64 := if env.is64bit then 8 else 4

def writePtr (addr v : U64) : Load Unit := write addr (toLe env.ptrSize v)

def readPtr (addr : U64) : Load U64 := do return fromLe (← read addr env.ptrSize)

/-! ## The PEB's lists -/

def ldrListOffsets : List U64 := if env.is64bit then [0x10, 0x20, 0x30] else [0x0c, 0x14, 0x1c]

def ldrEntryLinkOffsets : List U64 := if env.is64bit then [0x00, 0x10, 0x20] else [0x00, 0x08, 0x10]

def ldrAlloc (size : Nat) : Load U64 := do
  onLoader fun d => { d with ldrArenaNext := d.ldrArenaNext - BitVec.ofNat 64 ((size + 7) / 8 * 8) }
  return (← Fallible.get).dll.ldrArenaNext

def writeUnits (addr : U64) : List U16 → Load Unit
  | [] => write addr (toLe 2 0)
  | u :: us => do
    write addr (toLe 2 (u.setWidth 64))
    writeUnits (addr + 2) us

def ldrWriteWstr (s : Text) : Load (U64 × U16) := do
  let units := encodeUtf16 s
  let addr ← ldrAlloc (units.length * 2 + 2)
  writeUnits addr units
  return (addr, BitVec.ofNat 16 (units.length * 2))

def writeUnicodeString (at' buffer : U64) (byteLen : U16) : Load Unit := do
  write at' (toLe 2 (byteLen.setWidth 64))
  write (at' + 2) (toLe 2 ((byteLen + 2).setWidth 64))
  env.writePtr (at' + env.ptr) buffer

def listInsertTail (head link : U64) : Load Unit := do
  let blink ← env.readPtr (head + env.ptr)
  env.writePtr link head
  env.writePtr (link + env.ptr) blink
  env.writePtr blink link
  env.writePtr (head + env.ptr) link

def ldrThreadEntry (base size entry : U64) (name fullPath : Text) : Load U64 := do
  let (offDllbase, offEntry, offSize, offFull, offBasename, entrySize) : U64 × U64 × U64 × U64 × U64 × Nat :=
    if env.is64bit then (0x30, 0x38, 0x40, 0x48, 0x58, 0x68) else (0x18, 0x1c, 0x20, 0x24, 0x2c, 0x38)
  let te ← ldrAlloc entrySize
  let fullBuf ← ldrWriteWstr fullPath
  let baseBuf ← ldrWriteWstr name
  env.writePtr (te + offDllbase) base
  env.writePtr (te + offEntry) entry
  env.writePtr (te + offSize) size
  env.writeUnicodeString (te + offFull) fullBuf.1 fullBuf.2
  env.writeUnicodeString (te + offBasename) baseBuf.1 baseBuf.2
  let ldr := (← Fallible.get).dll.pebLdrData
  Fallible.each (fun offs => env.listInsertTail (ldr + offs.1) (te + offs.2)) (env.ldrListOffsets.zip env.ldrEntryLinkOffsets)
  return te

def ldrAddModule (idx : Nat) : Load Unit := do
  let d := (← Fallible.get).dll
  if env.pebAddr = 0 || d.pebLdrData = 0 then return ()
  else
    match d.modules[idx]? with
    | none => return ()
    | some m =>
      let te ← env.ldrThreadEntry m.base m.size m.entry m.name m.fullPath
      onLoader fun d => { d with modules := d.modules.modify idx fun m => { m with ldrEntry := te } }

/-! ## Imports -/

def internedName : ImportSymbol → Text
  | .named n => n
  | .ordinal o => "#ord".toList ++ (toString o.toNat).toList

/-- `resolve_import`: the thunk of an emulated function, a new one for a name that has none. -/
def resolveImport (dll : Text) (symbol : ImportSymbol) : Load U64 := do
  let s ← Fallible.get
  let key := ((env.images.apiSetHost dll).getD dll, internedName symbol)
  match s.interned.lookup key with
  | some addr => return addr
  | none =>
    Fallible.modify fun s => { s with nextThunk := s.nextThunk + 8, interned := (key, s.nextThunk) :: s.interned }
    return s.nextThunk

def moduleExports (d : DllLoader) (dll : Text) : Option (U64 × List Export) := do
  let base ← d.byName.lookup dll
  let exports ← d.exports.lookup base
  return (base, exports)

def resolveImportAddr (dll : Text) (symbol : ImportSymbol) : Load U64 := do
  let host := (env.images.apiSetHost dll).getD dll
  match env.images.resolveExport (moduleExports (← Fallible.get).dll) host symbol with
  | some addr => return addr
  | none => env.resolveImport host symbol

def bindImport (base : U64) (imp : Import) : Load Unit := do
  let addr ← env.resolveImportAddr imp.dll imp.symbol
  write (base + imp.iatRva.setWidth 64) (toLe env.ptrSize addr)

def depNames (d : DllLoader) : List Import → List Text → List Text
  | [], deps => deps
  | imp :: imports, deps =>
    let dep := canonicalName env.images imp.dll
    if EMULATED.contains dep || (d.byName.lookup dep).isSome || deps.contains dep then depNames d imports deps
    else depNames d imports (deps ++ [dep])

/-! ## Placing -/

/-- `div_ceil(a) * a` -/
def pageUp (n : Nat) : Nat := (n + (MODULE_PAGE - 1)) / MODULE_PAGE * MODULE_PAGE

def openImage (path name : Text) : Option (Text × PeImage) := do
  let file ← env.findDllFile path name
  let bytes ← env.readFile file
  let image ← env.images.parse bytes
  return (file, image)

def arenaStart (d : DllLoader) : Nat := if d.arenaNext = 0 then env.dllBase else d.arenaNext

def nextBase (d : DllLoader) : Nat := pageUp (env.arenaStart d)

def imageSpan (image : PeImage) : Nat := max (pageUp image.sizeOfImage.toNat) MODULE_PAGE

/-- Room in the arena and the sections as relocated to it, or the arena as a refusal leaves it. -/
def place (d : DllLoader) (image : PeImage) : DllLoader × Option (U64 × List Section) :=
  let base := env.nextBase d
  if env.dllBase + env.dllSize < base + imageSpan image then ({ d with arenaNext := env.arenaStart d }, none)
  else
    match env.images.applyRelocations image.sections image.relocations image.imageBase (BitVec.ofNat 64 base) with
    | none => ({ d with arenaNext := base }, none)
    | some sections => ({ d with arenaNext := base + imageSpan image }, some (BitVec.ofNat 64 base, sections))

def writeSection (base : U64) (s : Section) : Load Unit :=
  if s.data = [] then return () else write (base + s.rva.setWidth 64) s.data

def writeImage (base : U64) (headers : List U8) (sections : List Section) : Load Unit := do
  write base headers
  Fallible.each (writeSection base) sections

def register (name : Text) (base : U64) (exports : List Export) (d : DllLoader) : DllLoader :=
  { d with
    exports := d.exports.insert base exports
    byName := d.byName.insert name base
    loading := d.loading ++ [name] }

def entryOf (base : U64) (image : PeImage) : U64 := if image.entryRva ≠ 0 then base + image.entryRva.setWidth 64 else 0

/-- From the import binding to the end of `load_plugin`. -/
def finish (name file : Text) (base : U64) (image : PeImage) : Load (Option U64) := do
  Fallible.each (env.bindImport base) image.imports
  onLoader fun d =>
    { d with modules := d.modules ++ [⟨name, file, base, image.sizeOfImage.setWidth 64, entryOf base image, 1, 0, false, false⟩] }
  env.ldrAddModule ((← Fallible.get).dll.modules.length - 1)
  onLoader fun d => { d with loading := d.loading.dropLast }
  if entryOf base image ≠ 0 && env.runDllmain then
    onLoader fun d => { d with pendingDllmain := d.pendingDllmain ++ [(entryOf base image, base)] }
  return some base

/-- `load_plugin` once the image has its place: `loadDep` loads a module it imports. -/
def install (loadDep : Text → Load Unit) (name file : Text) (image : PeImage) (base : U64) (sections : List Section) :
    Load (Option U64) := do
  writeImage base image.headers sections
  onLoader (register name base image.exports)
  let deps := env.depNames (← Fallible.get).dll image.imports []
  Fallible.each (fun dep => if (env.findDllFile dep dep).isSome then loadDep dep else return ()) deps
  env.finish name file base image

def loadPlugin : Nat → Text → Text → Load (Option U64)
  | 0, _, _ => .exhausted
  | fuel + 1, path, name => do
    let d := (← Fallible.get).dll
    if d.loading.contains name then return d.byName.lookup name
    else
      match env.openImage path name with
      | none => return none
      | some (file, image) =>
        let placed := env.place d image
        onLoader fun _ => placed.1
        match placed.2 with
        | none => return none
        | some (base, sections) => env.install (fun dep => discard (loadPlugin fuel dep dep)) name file image base sections

/-! ## The calls -/

def systemHandle (name : Text) : Load U64 := do
  let d := (← Fallible.get).dll
  match d.byName.lookup name with
  | some h => return h
  | none =>
    let h := if d.nextSystem = 0 then 0x00D10000 else d.nextSystem
    onLoader fun d =>
      { d with nextSystem := h + 0x10000, byName := d.byName.insert name h, system := d.system.insert h name }
    return h

def addRef (name : Text) (d : DllLoader) : DllLoader :=
  match d.modules.findIdx? fun m => m.name == name with
  | none => d
  | some i =>
    { d with modules := d.modules.modify i fun m => { m with refCount := if m.refCount = BitVec.allOnes 32 then m.refCount else m.refCount + 1 } }

def orZero (x : Load (Option U64)) : Load U64 := fun s =>
  (x s).map fun r => (match r.1 with | .ok (some base) => .ok base | _ => .ok 0, r.2)

/-- `load_library` of a name that is in the table of names, or not. -/
def loadNamed (fuel : Nat) (path name : Text) : Option U64 → Load U64
  | some h => do
    onLoader (addRef name)
    return h
  | none =>
    if EMULATED.contains name then systemHandle name
    else do
      onLoader fun d => { d with pendingDllmain := [] }
      orZero (env.loadPlugin fuel path name)

def loadLibrary (fuel : Nat) (path : Text) : Load U64 := do
  if path = [] then return env.imageBase
  else env.loadNamed fuel path (env.moduleName path) ((← Fallible.get).dll.byName.lookup (env.moduleName path))

def moduleHandle (path : Text) : Load U64 := do
  let name := env.moduleName path
  match (← Fallible.get).dll.byName.lookup name with
  | some h => return h
  | none => if EMULATED.contains name then systemHandle name else return 0

end DllEnv

/-! ## A small system -/

def smallEnv (file : List U8) : DllEnv where
  images := peImageLoader 4 (fun _ => none) fun _ _ _ => none
  imageBase := 0x400000
  is64bit := false
  dllBase := 0x20000000
  dllSize := 0x4000000
  pebAddr := 0
  runDllmain := true
  findDllFile _ name := if name = "x.dll".toList then some "C/x.dll".toList else none
  readFile _ := some file

def smallState : DllState where
  mem := { VirtualMemory.new with regions := [⟨⟨"dlls", 0x20000000, 0x4000000, Perm.RWX⟩, fun _ => 0, 0⟩] }
  dll := ⟨0, ∅, ∅, [], ∅, 0, [], 0, 0, []⟩
  nextThunk := 0x70000000
  interned := []

end Exemu.Os
