import Exemu.Os.Module

/-! # The loader's data in the PEB

At start the heads of the three lists of modules are set up at the high end of the arena, the PEB
and the process parameters are filled in, and the program itself is entered as the first module.
-/
namespace Exemu.Os

open Path (Text)
open Load

def HANDLE_STDIN : U64 := 0x0C
def HANDLE_STDOUT : U64 := 0x10
def HANDLE_STDERR : U64 := 0x14

structure LdrConfig where
  pebLdrOff : U64
  pebLoaderlockOff : U64
  imageName : Text
  modulePathW : Text
  imageSize : U64
  imageEntry : U64
  cmdlinePtrW : U64
  envBlock : List U16

/-- `wstr_byte_len`, with the units that are left to look at. -/
def wstrUnits (addr : U64) : Nat → Nat → Load Nat
  | units, 0 => return units
  | units, left + 1 => do
    if fromLe (← read (addr + BitVec.ofNat 64 (units * 2)) 2) = 0 then return units
    else wstrUnits addr (units + 1) left

def wstrByteLen (addr : U64) : Load U16 := do return BitVec.ofNat 16 ((← wstrUnits addr 0 0x4000) * 2)

def writeRaw (addr : U64) : List U16 → Load Unit
  | [] => return ()
  | u :: us => do
    write addr (toLe 2 (u.setWidth 64))
    writeRaw (addr + 2) us

namespace DllEnv

variable (env : DllEnv) (cfg : LdrConfig)

def writeEnvBlock : Load (U64 × Nat) := do
  let addr ← ldrAlloc (max (cfg.envBlock.length * 2) 2)
  writeRaw addr cfg.envBlock
  return (addr, cfg.envBlock.length * 2)

def writeString (at' : U64) (s : Text) : Load (U64 × U16) := do
  let buf ← ldrWriteWstr s
  env.writeUnicodeString at' buf.1 buf.2
  return buf

def writeCmdline (at' : U64) (imgBuf : U64 × U16) : Load Unit := do
  if cfg.cmdlinePtrW ≠ 0 then
    let cmdLen ← wstrByteLen cfg.cmdlinePtrW
    env.writeUnicodeString at' cfg.cmdlinePtrW cmdLen
  else env.writeUnicodeString at' imgBuf.1 imgBuf.2

def beginParameters (pp : U64) (size : Nat) : Load Unit := do
  write pp (List.replicate size 0)
  write pp (toLe 4 (BitVec.ofNat 64 size))
  write (pp + 0x04) (toLe 4 (BitVec.ofNat 64 size))
  write (pp + 0x08) (toLe 4 1)

def buildProcessParameters64 : Load U64 := do
  let pp ← ldrAlloc 0x420
  beginParameters pp 0x420
  write (pp + 0x20) (toLe 8 HANDLE_STDIN)
  write (pp + 0x28) (toLe 8 HANDLE_STDOUT)
  write (pp + 0x30) (toLe 8 HANDLE_STDERR)
  discard (env.writeString (pp + 0x38) "C:\\".toList)
  discard (env.writeString (pp + 0x50) "C:\\windows\\system32".toList)
  let imgBuf ← env.writeString (pp + 0x60) cfg.modulePathW
  env.writeCmdline cfg (pp + 0x70) imgBuf
  let envBuf ← writeEnvBlock cfg
  env.writePtr (pp + 0x80) envBuf.1
  write (pp + 0x3f0) (toLe 8 (BitVec.ofNat 64 envBuf.2))
  let empty ← ldrWriteWstr []
  Fallible.each (fun off => env.writeUnicodeString (pp + off) empty.1 0) [0xb0, 0xc0, 0xd0, 0xe0]
  return pp

def buildProcessParameters32 : Load U64 := do
  let pp ← ldrAlloc 0x290
  beginParameters pp 0x290
  let imgBuf ← env.writeString (pp + 0x38) cfg.modulePathW
  env.writeCmdline cfg (pp + 0x40) imgBuf
  let envBuf ← writeEnvBlock cfg
  env.writePtr (pp + 0x48) envBuf.1
  return pp

def pebFields : List (U64 × Nat × U64) :=
  if env.is64bit then [(0x02, 1, 0), (0xBC, 4, 0), (0x118, 4, 10), (0x11C, 4, 0), (0x120, 2, 19045), (0x124, 4, 2), (0x2C0, 4, 0)]
  else [(0x02, 1, 0), (0x68, 4, 0), (0xA4, 4, 10), (0xA8, 4, 0), (0xAC, 2, 19045), (0xB0, 4, 2), (0x1D4, 4, 0)]

def seedPeb : Load Unit := do
  Fallible.each (fun field => write (env.pebAddr + field.1) (toLe field.2.1 field.2.2)) env.pebFields
  let pp ← if env.is64bit then env.buildProcessParameters64 cfg else env.buildProcessParameters32 cfg
  env.writePtr (env.pebAddr + if env.is64bit then 0x20 else 0x10) pp

def ldrSize : Nat := if env.is64bit then 0x58 else 0x30

def writeHead (head : U64) : Load Unit := do
  env.writePtr head head
  env.writePtr (head + env.ptr) head

def writeLoaderLock (cs : U64) : Load Unit := do
  env.writePtr cs 0
  write (cs + env.ptr) (toLe 4 0xFFFFFFFF)
  write (cs + env.ptr + 4) (toLe 4 0)
  env.writePtr (cs + env.ptr + 8) 0
  env.writePtr (cs + env.ptr + 8 + env.ptr) 0
  env.writePtr (cs + env.ptr + 8 + 2 * env.ptr) 0
  if cfg.pebLoaderlockOff ≠ 0 then env.writePtr (env.pebAddr + cfg.pebLoaderlockOff) cs else return ()

def programName : Text := if cfg.imageName = [] then "program.exe".toList else cfg.imageName

def initLdr : Load Unit := do
  if env.pebAddr = 0 then return ()
  else do
    onLoader fun d => if d.ldrArenaNext = 0 then { d with ldrArenaNext := BitVec.ofNat 64 (env.dllBase + env.dllSize) } else d
    let ldr ← ldrAlloc env.ldrSize
    onLoader fun d => { d with pebLdrData := ldr }
    write ldr (toLe 4 (BitVec.ofNat 64 env.ldrSize))
    write (ldr + 4) (toLe 4 1)
    Fallible.each (fun off => env.writeHead (ldr + off)) env.ldrListOffsets
    env.writePtr (env.pebAddr + cfg.pebLdrOff) ldr
    env.seedPeb cfg
    let cs ← ldrAlloc (if env.is64bit then 0x28 else 0x18)
    env.writeLoaderLock cfg cs
    discard (env.ldrThreadEntry env.imageBase cfg.imageSize cfg.imageEntry (programName cfg) cfg.modulePathW)

end DllEnv

/-! ## A small start -/

def smallConfig : LdrConfig := ⟨0x0c, 0xa0, "p.exe".toList, "C:\\p.exe".toList, 0x3000, 0x401000, 0, [0]⟩

def pebEnv (file : List U8) : DllEnv := { smallEnv file with pebAddr := 0x7FFD2000 }

def pebState : DllState :=
  { smallState with
    mem := (do
      let mem ← VirtualMemory.new.map true ⟨"dlls", 0x20000000, 0x4000000, Perm.RWX⟩
      mem.map true ⟨"peb", 0x7FFD2000, 0x1000, Perm.RW⟩ : Result VirtualMemory).toOption.getD VirtualMemory.new }

def pebStarted : DllState := ((pebEnv []).initLdr smallConfig pebState).elim pebState Prod.snd

end Exemu.Os
