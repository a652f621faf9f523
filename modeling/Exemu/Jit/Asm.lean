import Exemu.Core.Cpu

/-! # The AArch64 instructions the compiler emits

Each constructor is one call of the assembler with the operands the compiler passes it.
-/
namespace Exemu.Jit

abbrev XReg := Nat

def ZR : XReg := 31
def R_FLAGS : XReg := 21
def R_FA : XReg := 23
def R_FB : XReg := 24
def R_FR : XReg := 25
def R_VAL : XReg := 26
def R_ADDR : XReg := 27
def R_MASK : XReg := 28
def T0 : XReg := 9
def T1 : XReg := 10
def T2 : XReg := 11
def T3 : XReg := 12

inductive Cond where
  | Eq | Ne | Cs | Cc | Vs
  deriving DecidableEq, Repr

structure Nzcv where
  n : Bool := false
  z : Bool := false
  c : Bool := false
  v : Bool := false
  deriving DecidableEq, Repr

def Cond.holds (c : Cond) (f : Nzcv) : Bool :=
  match c with
  | .Eq => f.z
  | .Ne => !f.z
  | .Cs => f.c
  | .Cc => !f.c
  | .Vs => f.v

def nzcvAdd {w : Nat} (a b : BitVec w) : Nzcv where
  n := (a + b).msb
  z := a + b == 0
  c := decide (2 ^ w ≤ a.toNat + b.toNat)
  v := a.msb == b.msb && (a + b).msb != a.msb

def nzcvSub {w : Nat} (a b : BitVec w) : Nzcv where
  n := (a - b).msb
  z := a - b == 0
  c := decide (b.toNat ≤ a.toNat)
  v := a.msb != b.msb && (a - b).msb != a.msb

inductive Seg where
  | Fs | Gs
  deriving DecidableEq, Repr

/-- Instructions that neither branch nor touch guest memory. `sf` picks 64-bit operands. -/
inductive Op where
  | movImm (rd : XReg) (v : U64)
  | movReg (rd rn : XReg)
  | mvn (rd rm : XReg)
  | addImm (rd rn : XReg) (imm : U64)
  | subImm (rd rn : XReg) (imm : U64)
  | cmpZero (rn : XReg)
  | addReg (sf : Bool) (rd rn rm : XReg) (lsl : Nat)
  | subReg (sf : Bool) (rd rn rm : XReg)
  | addsReg (sf : Bool) (rd rn rm : XReg)
  | subsReg (sf : Bool) (rd rn rm : XReg)
  | cmpRegAsr (rn rm : XReg) (sh : Nat)
  | andReg (rd rn rm : XReg)
  | orrReg (rd rn rm : XReg) (lsl : Nat)
  | eorReg (rd rn rm : XReg)
  | bicReg (rd rn rm : XReg)
  | andImm (rd rn : XReg) (imm : U64)
  | eorImm (rd rn : XReg) (imm : U64)
  | lslImm (rd rn : XReg) (sh : Nat)
  | lsrImm (rd rn : XReg) (sh : Nat)
  | asrImm (rd rn : XReg) (sh : Nat)
  | ubfx (rd rn : XReg) (lsb width : Nat)
  | sbfx (rd rn : XReg) (lsb width : Nat)
  | mul (rd rn rm : XReg)
  | smulh (rd rn rm : XReg)
  | csel (rd rn rm : XReg) (cond : Cond)
  | cset (rd : XReg) (cond : Cond)
  /-- `ldr` of a GPR slot of the CPU state, `byte` bytes into it -/
  | ldrGpr (size : Nat) (rt : XReg) (i : Fin 16) (byte : Nat)
  | strGpr (size : Nat) (rt : XReg) (i : Fin 16) (byte : Nat)
  | ldrSeg (rt : XReg) (seg : Seg)
  | ldrbParity (rt rm : XReg)
  /-- `stp`/`ldp` of a pair in the spill area of the stack frame -/
  | stpFrame (rt1 rt2 : XReg) (off : Nat)
  | ldpFrame (rt1 rt2 : XReg) (off : Nat)
  deriving DecidableEq, Repr

/-- The host registers, the spill area and the CPU state behind `x19`. The scratch fields are
what code that owns the caller-saved registers leaves in them; nothing is known about them. -/
structure Native where
  x : XReg → U64
  nzcv : Nzcv
  frame : Nat → U64
  cpu : CpuState
  scratch : XReg → U64
  scratchNzcv : Nzcv

namespace Native

def get (h : Native) (r : XReg) : U64 := if r = ZR then 0 else h.x r

def set (h : Native) (r : XReg) (v : U64) : Native :=
  if r = ZR then h else { h with x := Function.update h.x r v }

/-- After a call of a helper, or a TLB probe: `x0` to `x18` are no longer what they were. -/
def clobber (h : Native) : Native :=
  { h with x := fun r => if r ≤ 18 then h.scratch r else h.x r, nzcv := h.scratchNzcv }

end Native

def PARITY (i : U64) : U64 :=
  if ((List.range 8).countP fun k => i.getLsbD k) % 2 = 0 then 1 else 0

/-- `size` bytes of ones, shifted up `byte` bytes. -/
def laneMask (size byte : Nat) : U64 := mask size <<< (8 * byte)

def addSf (sf : Bool) (a b : U64) : U64 :=
  if sf then a + b else (a.setWidth 32 + b.setWidth 32).setWidth 64

def subSf (sf : Bool) (a b : U64) : U64 :=
  if sf then a - b else (a.setWidth 32 - b.setWidth 32).setWidth 64

def addsNzcv (sf : Bool) (a b : U64) : Nzcv :=
  if sf then nzcvAdd a b else nzcvAdd (a.setWidth 32) (b.setWidth 32)

def subsNzcv (sf : Bool) (a b : U64) : Nzcv :=
  if sf then nzcvSub a b else nzcvSub (a.setWidth 32) (b.setWidth 32)

def bitfield (v : U64) (lsb width : Nat) : U64 := (v >>> lsb) &&& (BitVec.ofNat 64 (2 ^ width - 1))

def signedBitfield (v : U64) (lsb width : Nat) : U64 :=
  ((v >>> lsb).setWidth width).signExtend 64

def Op.exec (h : Native) : Op → Native
  | .movImm rd v => h.set rd v
  | .movReg rd rn => h.set rd (h.get rn)
  | .mvn rd rm => h.set rd (~~~h.get rm)
  | .addImm rd rn imm => h.set rd (h.get rn + imm)
  | .subImm rd rn imm => h.set rd (h.get rn - imm)
  | .cmpZero rn => { h with nzcv := nzcvSub (h.get rn) 0 }
  | .addReg sf rd rn rm lsl => h.set rd (addSf sf (h.get rn) (h.get rm <<< lsl))
  | .subReg sf rd rn rm => h.set rd (subSf sf (h.get rn) (h.get rm))
  | .addsReg sf rd rn rm =>
    { (h.set rd (addSf sf (h.get rn) (h.get rm))) with nzcv := addsNzcv sf (h.get rn) (h.get rm) }
  | .subsReg sf rd rn rm =>
    { (h.set rd (subSf sf (h.get rn) (h.get rm))) with nzcv := subsNzcv sf (h.get rn) (h.get rm) }
  | .cmpRegAsr rn rm sh => { h with nzcv := nzcvSub (h.get rn) ((h.get rm).sshiftRight sh) }
  | .andReg rd rn rm => h.set rd (h.get rn &&& h.get rm)
  | .orrReg rd rn rm lsl => h.set rd (h.get rn ||| h.get rm <<< lsl)
  | .eorReg rd rn rm => h.set rd (h.get rn ^^^ h.get rm)
  | .bicReg rd rn rm => h.set rd (h.get rn &&& ~~~h.get rm)
  | .andImm rd rn imm => h.set rd (h.get rn &&& imm)
  | .eorImm rd rn imm => h.set rd (h.get rn ^^^ imm)
  | .lslImm rd rn sh => h.set rd (h.get rn <<< sh)
  | .lsrImm rd rn sh => h.set rd (h.get rn >>> sh)
  | .asrImm rd rn sh => h.set rd ((h.get rn).sshiftRight sh)
  | .ubfx rd rn lsb width => h.set rd (bitfield (h.get rn) lsb width)
  | .sbfx rd rn lsb width => h.set rd (signedBitfield (h.get rn) lsb width)
  | .mul rd rn rm => h.set rd (h.get rn * h.get rm)
  | .smulh rd rn rm =>
    h.set rd (((((h.get rn).signExtend 128) * ((h.get rm).signExtend 128)) >>> 64).setWidth 64)
  | .csel rd rn rm cond => h.set rd (if cond.holds h.nzcv then h.get rn else h.get rm)
  | .cset rd cond => h.set rd (if cond.holds h.nzcv then 1 else 0)
  | .ldrGpr size rt i byte => h.set rt ((h.cpu.gpr i >>> (8 * byte)) &&& mask size)
  | .strGpr size rt i byte =>
    let slot := (h.cpu.gpr i &&& ~~~laneMask size byte) ||| ((h.get rt &&& mask size) <<< (8 * byte))
    { h with cpu := h.cpu.setReg i slot }
  | .ldrSeg rt .Fs => h.set rt h.cpu.fsBase
  | .ldrSeg rt .Gs => h.set rt h.cpu.gsBase
  | .ldrbParity rt rm => h.set rt (PARITY (h.get rm))
  | .stpFrame rt1 rt2 off =>
    { h with frame := Function.update (Function.update h.frame off (h.get rt1)) (off + 8) (h.get rt2) }
  | .ldpFrame rt1 rt2 off => (h.set rt1 (h.frame off)).set rt2 (h.frame (off + 8))

def execOps (ops : List Op) (h : Native) : Native := ops.foldl Op.exec h

theorem execOps_append (first second : List Op) (h : Native) :
    execOps (first ++ second) h = execOps second (execOps first h) := List.foldl_append

end Exemu.Jit
