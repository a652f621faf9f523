import Exemu.Core.Cpu
import Exemu.Memory.Virtual

/-! # Stack unwinding

`virtual_unwind` and the two ways it takes a frame down: by simulating what is left of an epilog,
or by undoing the unwind codes of the function's record and of the records it is chained to.
-/
namespace Exemu

/-- The source's memory trait; the typed reads are its default methods. -/
class Memory (M : Type) where
  read : M → U64 → Nat → Result (List U8)
  write : M → U64 → List U8 → Result M

instance : Memory VirtualMemory := ⟨VirtualMemory.read, VirtualMemory.write⟩

/-- `u128::from_le_bytes`. -/
def fromLe128 (bs : List U8) : U128 := bs.foldr (fun b acc => (acc <<< 8) ||| b.setWidth 128) 0

namespace Memory
variable {M : Type} [Memory M]

def readU8 (mem : M) (addr : U64) : Result U8 := do
  let bs ← read mem addr 1
  return (fromLe bs).setWidth 8

end Memory

/-! ## Records -/

inductive UnwindOp where
  | PushNonvolatile (reg : U8)
  | Alloc (size : U32)
  | SetFrameRegister
  | SaveNonvolatile (reg : U8) (offset : U32)
  | SaveXmm128 (reg : U8) (offset : U32)
  | PushMachineFrame (withErrorCode : Bool)
  | Epilog (raw : U16)
  deriving DecidableEq, Repr

structure UnwindCode where
  prologOffset : U8
  op : UnwindOp
  deriving DecidableEq, Repr

mutual

structure UnwindEntry where
  beginRva : U32
  endRva : U32
  recordRva : U32
  info : UnwindInfo

structure UnwindInfo where
  version : U8
  hasExceptionHandler : Bool
  hasTerminationHandler : Bool
  prologSize : U8
  frameRegister : Option U8
  frameOffset : U16
  codes : List UnwindCode
  handlerRva : Option U32
  handlerDataRva : Option U32
  chained : Option UnwindEntry

end

end Exemu
