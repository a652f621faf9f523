import Exemu.Core.Memory
import Mathlib.Data.Fintype.Basic

/-! # The architectural CPU state

Register indices arrive as bytes and are masked to four bits before they select a register, as in
the source; operand sizes are byte counts.
-/
namespace Exemu

instance neZero_eight : NeZero 8 := ⟨by decide⟩
instance neZero_sixteen : NeZero 16 := ⟨by decide⟩

namespace flags

def CF : U64 := 1 <<< 0
def PF : U64 := 1 <<< 2
def AF : U64 := 1 <<< 4
def ZF : U64 := 1 <<< 6
def SF : U64 := 1 <<< 7
def TF : U64 := 1 <<< 8
def IF : U64 := 1 <<< 9
def DF : U64 := 1 <<< 10
def OF : U64 := 1 <<< 11
def RESERVED_ONE : U64 := 1 <<< 1

end flags

structure X87 where
  st : Fin 8 → U128 := fun _ => 0
  cw : U16 := 0x037F
  sw : U16 := 0
  tw : U16 := 0xFFFF
  fop : U16 := 0
  fip : U64 := 0
  fcs : U16 := 0
  fdp : U64 := 0
  fds : U16 := 0
  deriving DecidableEq

def DEFAULT_GS_BASE : U64 := 0x00007FFF00000000
def DEFAULT_FS_BASE : U64 := 0x7EFD0000

structure CpuState where
  gpr : Fin 16 → U64 := fun _ => 0
  xmm : Fin 16 → U128 := fun _ => 0
  ymmHi : Fin 16 → U128 := fun _ => 0
  x87 : X87 := {}
  rip : U64 := 0
  rflags : U64 := flags.RESERVED_ONE ||| flags.IF
  gsBase : U64 := DEFAULT_GS_BASE
  fsBase : U64 := DEFAULT_FS_BASE
  deriving DecidableEq

namespace Reg

def Rax : Fin 16 := 0
def Rcx : Fin 16 := 1
def Rdx : Fin 16 := 2
def Rbx : Fin 16 := 3
def Rsp : Fin 16 := 4
def Rbp : Fin 16 := 5
def Rsi : Fin 16 := 6
def Rdi : Fin 16 := 7
def R11 : Fin 16 := 11
def R12 : Fin 16 := 12
def R13 : Fin 16 := 13
def R14 : Fin 16 := 14
def R15 : Fin 16 := 15

end Reg

/-- `index as usize & 0xf`. -/
def regIdx (index : U8) : Fin 16 := Fin.ofNat 16 index.toNat

/-- `size` bytes of ones; anything but 1, 2 and 4 means a full register. -/
def mask (size : Nat) : U64 :=
  match size with
  | 1 => 0xff
  | 2 => 0xffff
  | 4 => 0xffffffff
  | _ => BitVec.allOnes 64

namespace CpuState

def setReg (s : CpuState) (r : Fin 16) (v : U64) : CpuState :=
  { s with gpr := Function.update s.gpr r v }

def rsp (s : CpuState) : U64 := s.gpr Reg.Rsp
def setRsp (s : CpuState) (v : U64) : CpuState := s.setReg Reg.Rsp v

def gprRead (s : CpuState) (index : U8) (size : Nat) : U64 := s.gpr (regIdx index) &&& mask size

/-- Byte and word writes keep the rest of the register, a doubleword write clears the upper half. -/
def gprWrite (s : CpuState) (index : U8) (size : Nat) (value : U64) : CpuState :=
  let slot := s.gpr (regIdx index)
  s.setReg (regIdx index) <|
    match size with
    | 1 => (slot &&& ~~~(0xff : U64)) ||| (value &&& 0xff)
    | 2 => (slot &&& ~~~(0xffff : U64)) ||| (value &&& 0xffff)
    | 4 => value &&& 0xffffffff
    | _ => value

def gprReadHigh8 (s : CpuState) (index : U8) : U64 := (s.gpr (regIdx (index &&& 3)) >>> 8) &&& 0xff

def gprWriteHigh8 (s : CpuState) (index : U8) (value : U64) : CpuState :=
  let slot := s.gpr (regIdx (index &&& 3))
  s.setReg (regIdx (index &&& 3)) ((slot &&& ~~~(0xff00 : U64)) ||| ((value &&& 0xff) <<< 8))

def flag (s : CpuState) (m : U64) : Bool := s.rflags &&& m != 0

def setFlag (s : CpuState) (m : U64) (on : Bool) : CpuState :=
  { s with rflags := if on then s.rflags ||| m else s.rflags &&& ~~~m }

end CpuState

inductive Exit where
  | Continue
  | Halted
  | Interrupt (n : U8)
  | Syscall (index : U32)
  | ProcessExit (code : Int)
  deriving DecidableEq, Repr

end Exemu
