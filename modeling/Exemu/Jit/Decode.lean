import Exemu.Jit.Rt
import Mathlib.Control.Monad.Basic

/-! # The compiler's decoder

It accepts a subset of what the interpreter runs and refuses the rest.
-/
namespace Exemu.Jit

namespace Mode

def is64 (m : Mode) : Bool := m == .Long

def addrMask : Mode → U64
  | .Long => BitVec.allOnes 64
  | .Protected => 0xFFFFFFFF

def stackWidth : Mode → Nat
  | .Long => 8
  | .Protected => 4

end Mode

structure Pfx where
  rex : U8 := 0
  hasRex : Bool := false
  p66 : Bool := false
  seg : U8 := 0
  deriving DecidableEq, Repr

namespace Pfx

def w (p : Pfx) : Bool := p.rex &&& 0b1000 != 0
def r (p : Pfx) : U8 := (p.rex >>> 2) &&& 1
def x (p : Pfx) : U8 := (p.rex >>> 1) &&& 1
def b (p : Pfx) : U8 := p.rex &&& 1

end Pfx

structure MemOp where
  base : Option U8 := none
  index : Option U8 := none
  scale : Nat := 0
  disp : U64 := 0
  abs : Option U64 := none
  seg : U8 := 0
  deriving DecidableEq, Repr

inductive Rm where
  | Reg (i : U8)
  | Mem (m : MemOp)
  deriving DecidableEq, Repr

def Rm.isMem : Rm → Bool
  | .Reg _ => false
  | .Mem _ => true

structure Insn where
  pfx : Pfx
  opcode : U8
  esc : Bool
  reg : U8
  rm : Rm
  imm : U64
  len : Nat
  deriving DecidableEq, Repr

abbrev Cursor := StateT (List U8) Option

namespace Cursor

def u8 : Cursor U8 := fun
  | [] => none
  | b :: rest => some (b, rest)

def bytes : Nat → Cursor (List U8)
  | 0 => pure []
  | n + 1 => do
    let b ← u8
    let bs ← bytes n
    return b :: bs

def u16 : Cursor U64 := fromLe <$> bytes 2
def u32 : Cursor U64 := fromLe <$> bytes 4
def u64 : Cursor U64 := fromLe <$> bytes 8

end Cursor

def sext (v : U64) (size : Nat) : U64 :=
  match size with
  | 1 => (v.setWidth 8).signExtend 64
  | 2 => (v.setWidth 16).signExtend 64
  | 4 => (v.setWidth 32).signExtend 64
  | _ => v

def maskOf (size : Nat) : U64 :=
  match size with
  | 1 => 0xff
  | 2 => 0xffff
  | 4 => 0xffffffff
  | _ => BitVec.allOnes 64

/-- `c.u8()? as i8 as i64` and `c.u32()? as i32 as i64`. -/
def Cursor.i8 : Cursor U64 := do return sext ((← u8).setWidth 64) 1
def Cursor.i32 : Cursor U64 := do return sext (← u32) 4

inductive Alu where
  | Add | Or | And | Sub | Xor | Cmp
  deriving DecidableEq, Repr

namespace Alu

def fromOp (op : Nat) : Option Alu :=
  match op % 8 with
  | 0 => some .Add
  | 1 => some .Or
  | 4 => some .And
  | 5 => some .Sub
  | 6 => some .Xor
  | 7 => some .Cmp
  | _ => none

def writesBack (a : Alu) : Bool := a != .Cmp

end Alu

def opsize (mode : Mode) (p : Pfx) : Nat :=
  if mode.is64 && p.w then 8 else if p.p66 then 2 else 4

/-- The prefix loop. A REX byte is the last prefix: whatever follows it is the opcode. -/
def prefixes (mode : Mode) : List U8 → Pfx → Option (Pfx × U8 × List U8)
  | [], _ => none
  | b :: rest, pfx =>
    if b = 0x66 then prefixes mode rest { pfx with p66 := true }
    else if b = 0x2E ∨ b = 0x36 ∨ b = 0x3E ∨ b = 0x26 then prefixes mode rest pfx
    else if b = 0x64 ∨ b = 0x65 then prefixes mode rest { pfx with seg := b }
    else if b = 0xF0 ∨ b = 0xF2 ∨ b = 0xF3 ∨ b = 0x67 then none
    else if 0x40 ≤ b ∧ b ≤ 0x4F ∧ mode.is64 then
      match rest with
      | [] => none
      | op :: rest => some ({ pfx with rex := b, hasRex := true }, op, rest)
    else some (pfx, b, rest)

def hasModrm (esc : Bool) (op : Nat) : Bool :=
  if esc then
    op == 0x1F || (decide (0x40 ≤ op) && decide (op ≤ 0x4F)) ||
      [0xAF, 0xB6, 0xB7, 0xBE, 0xBF].contains op
  else
    (decide (op ≤ 0x3D) && decide (op % 8 < 4)) ||
      [0x63, 0x69, 0x6B, 0x8D, 0x80, 0x81, 0x83, 0x84, 0x85, 0x88, 0x89, 0x8A, 0x8B,
        0xC0, 0xC1, 0xC6, 0xC7, 0xD0, 0xD1, 0xD2, 0xD3, 0xF6, 0xF7, 0xFE, 0xFF].contains op

/-- The displacement `mod_` asks for. -/
def modDisp (mod_ : U8) : Cursor U64 :=
  if mod_ = 0 then pure 0 else if mod_ = 1 then Cursor.i8 else Cursor.i32

/-- The `reg` field, the operand, and the displacement of a RIP-relative one. -/
def modrm (mode : Mode) (pfx : Pfx) : Cursor (U8 × Rm × Option U64) := do
  let modrm ← Cursor.u8
  let mod_ := modrm >>> 6
  let reg := ((modrm >>> 3) &&& 7) ||| (pfx.r <<< 3)
  let rmField := modrm &&& 7
  if mod_ = 3 then return (reg, .Reg (rmField ||| (pfx.b <<< 3)), none)
  let m : MemOp := { seg := pfx.seg }
  if rmField = 4 then
    let sib ← Cursor.u8
    let index := ((sib >>> 3) &&& 7) ||| (pfx.x <<< 3)
    let baseReg := (sib &&& 7) ||| (pfx.b <<< 3)
    let m :=
      if (sib >>> 3) &&& 7 ≠ 4 ∨ pfx.x ≠ 0 then
        { m with index := some index, scale := (sib >>> 6).toNat }
      else m
    if sib &&& 7 = 5 ∧ mod_ = 0 then
      let disp ← Cursor.i32
      return (reg, .Mem { m with disp := disp }, none)
    else
      let disp ← modDisp mod_
      return (reg, .Mem { m with base := some baseReg, disp := disp }, none)
  else if rmField = 5 ∧ mod_ = 0 then
    let disp ← Cursor.i32
    if mode.is64 then return (reg, .Mem m, some disp)
    else return (reg, .Mem { m with disp := disp }, none)
  else
    let disp ← modDisp mod_
    return (reg, .Mem { m with base := some (rmField ||| (pfx.b <<< 3)), disp := disp }, none)

/-- A word or doubleword immediate at the operand size, the doubleword sign-extended. -/
def immZ (size : Nat) : Cursor U64 := do
  if size = 2 then Cursor.u16 else return (← Cursor.i32) &&& maskOf size

def immediate (mode : Mode) (pfx : Pfx) (esc : Bool) (op : Nat) (reg : U8) : Cursor U64 := do
  let size := opsize mode pfx
  if esc then
    if 0x80 ≤ op ∧ op ≤ 0x8F then Cursor.i32 else return 0
  else if [0x04, 0x0C, 0x14, 0x1C, 0x24, 0x2C, 0x34, 0x3C, 0xA8].contains op then
    return (← Cursor.u8).setWidth 64
  else if [0x05, 0x0D, 0x15, 0x1D, 0x25, 0x2D, 0x35, 0x3D, 0xA9].contains op then immZ size
  else if op = 0x6A then Cursor.i8
  else if op = 0x68 then Cursor.i32
  else if 0xA0 ≤ op ∧ op ≤ 0xA3 then
    if mode.is64 then Cursor.u64 else Cursor.u32
  else if (0x70 ≤ op ∧ op ≤ 0x7F) ∨ op = 0xEB then Cursor.i8
  else if op = 0xE8 ∨ op = 0xE9 then Cursor.i32
  else if op = 0x80 then return (← Cursor.u8).setWidth 64
  else if op = 0x81 then immZ size
  else if op = 0x83 then return (← Cursor.i8) &&& maskOf size
  else if op = 0x69 then immZ size
  else if op = 0x6B then Cursor.i8
  else if 0xB0 ≤ op ∧ op ≤ 0xB7 then return (← Cursor.u8).setWidth 64
  else if 0xB8 ≤ op ∧ op ≤ 0xBF then
    if pfx.w then Cursor.u64 else if pfx.p66 then Cursor.u16 else Cursor.u32
  else if op = 0xC0 ∨ op = 0xC1 then return (← Cursor.u8).setWidth 64
  else if op = 0xC2 then Cursor.u16
  else if op = 0xC6 then return (← Cursor.u8).setWidth 64
  else if op = 0xC7 then immZ size
  else if op = 0xF6 ∧ reg ≤ 1 then return (← Cursor.u8).setWidth 64
  else if op = 0xF7 ∧ reg ≤ 1 then immZ size
  else return 0

def decode (window : List U8) (mode : Mode) (rip : U64) : Option Insn := do
  let (pfx, opcode, rest) ← prefixes mode window {}
  let ((opcode, esc), rest) ←
    if opcode = 0x0F then (do return (← Cursor.u8, true) : Cursor (U8 × Bool)).run rest
    else some ((opcode, false), rest)
  let op := opcode.toNat
  let ((reg, rm, ripRelDisp), rest) ←
    if hasModrm esc op then (modrm mode pfx).run rest else some ((0, .Reg 0, none), rest)
  if mode.is64 ∧ rm.isMem ∧ pfx.seg = 0x64 then failure
  let (imm, rest) ← (immediate mode pfx esc op reg).run rest
  let len := window.length - rest.length
  match ripRelDisp with
  | none => return ⟨pfx, opcode, esc, reg, rm, imm, len⟩
  | some disp =>
    if pfx.seg ≠ 0 then failure
    let next := rip + BitVec.ofNat 64 len
    return ⟨pfx, opcode, esc, reg, .Mem { abs := some (next + disp) }, imm, len⟩

inductive FlagEffect where
  | Neutral
  | Overwrites
  | Reads
  deriving DecidableEq, Repr

def FlagEffect.ofAlu : Option Alu → FlagEffect
  | some _ => .Overwrites
  | none => .Reads

def flagEffect (insn : Insn) : FlagEffect :=
  let op := insn.opcode.toNat
  if insn.esc then
    if [0x1F, 0xB6, 0xB7, 0xBE, 0xBF].contains op then .Neutral else .Reads
  else if op ≤ 0x3D ∧ op % 8 < 6 then .ofAlu (Alu.fromOp (op / 8))
  else if 0x40 ≤ op ∧ op ≤ 0x4F then .Reads
  else if (0x50 ≤ op ∧ op ≤ 0x5F) ∨ op = 0x63 ∨ (0x88 ≤ op ∧ op ≤ 0x8B) ∨ op = 0x8D ∨ op = 0x90 ∨
      (0xB0 ≤ op ∧ op ≤ 0xBF) then .Neutral
  else if op = 0x68 ∨ op = 0x6A ∨ (0xA0 ≤ op ∧ op ≤ 0xA3) ∨ op = 0xC6 ∨ op = 0xC7 ∨ op = 0xC9 then
    .Neutral
  else if op = 0x80 ∨ op = 0x81 ∨ op = 0x83 then .ofAlu (Alu.fromOp (insn.reg &&& 7).toNat)
  else if op = 0x84 ∨ op = 0x85 ∨ op = 0xA8 ∨ op = 0xA9 then .Overwrites
  else if op = 0xF6 ∨ op = 0xF7 then
    match (insn.reg &&& 7).toNat with
    | 0 | 1 | 3 => .Overwrites
    | 2 => .Neutral
    | _ => .Reads
  else .Reads

/-- An overwriter with a memory destination materializes the pending flags before it starts. -/
def overwriterSettles (insn : Insn) : Bool :=
  let op := insn.opcode.toNat
  if insn.esc || !insn.rm.isMem then false
  else if op ≤ 0x3D ∧ op % 8 < 2 then (Alu.fromOp (op / 8)).any Alu.writesBack
  else if op = 0x80 ∨ op = 0x81 ∨ op = 0x83 then
    (Alu.fromOp (insn.reg &&& 7).toNat).any Alu.writesBack
  else if op = 0xF6 ∨ op = 0xF7 then insn.reg &&& 7 == 3
  else false

end Exemu.Jit
