import Exemu.Cpu.Alu
import Exemu.Library.Fallible

/-! # One instruction of the interpreter

What stands between the decoder and the work of an instruction: the operand that the ModRM byte
has chosen, its address, and how registers of each size are read and written.
-/
namespace Exemu

namespace Interp

inductive Bits where
  | B32
  | B64
  deriving DecidableEq

namespace Bits

def addrMask : Bits → U64
  | B64 => BitVec.allOnes 64
  | B32 => 0xffffffff

end Bits

structure Prefixes where
  rex : U8 := 0
  hasRex : Bool := false
  p66 : Bool := false
  rep : U8 := 0
  seg : U8 := 0
  lock : Bool := false
  deriving DecidableEq

def Prefixes.w (p : Prefixes) : Bool := p.rex &&& 0b1000 != 0

inductive Rm where
  | Reg (i : U8)
  | Mem (base disp : U64) (ripRel : Bool)
  deriving DecidableEq

structure Ctx where
  pfx : Prefixes := {}
  cur : U64
  reg : U8 := 0
  rm : Rm := .Reg 0
  bits : Bits
  deriving DecidableEq

namespace Ctx

variable (ctx : Ctx)

def rmAddr : U64 :=
  (match ctx.rm with
    | .Mem base disp ripRel => if ripRel then ctx.cur + disp else base + disp
    | .Reg _ => 0) &&& ctx.bits.addrMask

def opsize : Nat := if ctx.bits = .B64 ∧ ctx.pfx.w then 8 else if ctx.pfx.p66 then 2 else 4

end Ctx

structure Machine where
  state : CpuState
  mem : VirtualMemory

inductive Stop where
  | err (e : EmuError)
  | panic
  deriving DecidableEq

abbrev Exec := Fallible Machine Stop

def panic {α : Type} : Exec α := .step fun _ => .error .panic

def onState (f : CpuState → CpuState) : Exec Unit := .modify fun m => { m with state := f m.state }

def readUint (addr : U64) (size : Nat) : Exec U64 :=
  .step fun m => ((m.mem.readUint addr size).mapError .err).map fun v => (v, m)

def writeUint (addr : U64) (size : Nat) (v : U64) : Exec Unit :=
  .step fun m => ((m.mem.writeUint addr size v).mapError .err).map fun mem => ((), { m with mem })

def readGpr (s : CpuState) (index : U8) (size : Nat) (hasRex : Bool) : U64 :=
  if size = 1 ∧ ¬hasRex ∧ 4 ≤ index ∧ index < 8 then s.gprReadHigh8 index else s.gprRead index size

def writeGpr (s : CpuState) (index : U8) (size : Nat) (hasRex : Bool) (v : U64) : CpuState :=
  if size = 1 ∧ ¬hasRex ∧ 4 ≤ index ∧ index < 8 then s.gprWriteHigh8 index v else s.gprWrite index size v

def readRm (ctx : Ctx) (size : Nat) : Exec U64 :=
  match ctx.rm with
  | .Reg i => do return readGpr (← Fallible.get).state i size ctx.pfx.hasRex
  | .Mem .. => readUint ctx.rmAddr size

def writeRm (ctx : Ctx) (size : Nat) (v : U64) : Exec Unit :=
  match ctx.rm with
  | .Reg i => onState fun s => writeGpr s i size ctx.pfx.hasRex v
  | .Mem .. => writeUint ctx.rmAddr size v

def readRegField (ctx : Ctx) (s : CpuState) (size : Nat) : U64 := readGpr s ctx.reg size ctx.pfx.hasRex

def writeRegField (ctx : Ctx) (s : CpuState) (size : Nat) (v : U64) : CpuState := writeGpr s ctx.reg size ctx.pfx.hasRex v

/-- The end of `execute_one`: on to the next instruction. -/
def proceed (ctx : Ctx) : Exec Exit := do
  onState fun s => { s with rip := ctx.cur &&& ctx.bits.addrMask }
  return .Continue

theorem opsize_cases (ctx : Ctx) : ctx.opsize = 2 ∨ ctx.opsize = 4 ∨ ctx.opsize = 8 := by
  unfold Ctx.opsize
  split
  · exact .inr (.inr rfl)
  · split
    · exact .inl rfl
    · exact .inr (.inl rfl)

theorem opsize_uintSize (ctx : Ctx) : VirtualMemory.isUintSize ctx.opsize = true := isUintSize_iff.mpr (.inr (opsize_cases ctx))

/-! ## What is read -/

theorem fromLe_lt (bs : List U8) : (fromLe bs).toNat < 2 ^ (8 * bs.length) := by
  induction bs with
  | nil => decide
  | cons b bs ih =>
    have hByte := b.isLt
    have hStep : (fromLe (b :: bs)).toNat ≤ (fromLe bs).toNat * 2 ^ 8 + b.toNat := by
      change (((fromLe bs) <<< 8) ||| b.setWidth 64).toNat ≤ _
      rw [BitVec.toNat_or, BitVec.toNat_shiftLeft, BitVec.toNat_setWidth, Nat.mod_eq_of_lt (by omega : b.toNat < 2 ^ 64),
        Nat.shiftLeft_eq]
      have hWhole := Nat.shiftLeft_add_eq_or_of_lt hByte ((fromLe bs).toNat % 2 ^ 56)
      rw [Nat.shiftLeft_eq] at hWhole
      have hCut : (fromLe bs).toNat * 2 ^ 8 % 2 ^ 64 = (fromLe bs).toNat % 2 ^ 56 * 2 ^ 8 := by omega
      rw [hCut, ← hWhole]
      omega
    rw [List.length_cons, Nat.mul_add, Nat.pow_add]
    omega

variable {m m' : Machine} {ctx : Ctx} {size : Nat} {v : U64}

theorem readUint_run {addr : U64} (h : readUint addr size m = some (.ok v, m')) : m.mem.readUint addr size = .ok v ∧ m' = m := by
  have hStep := Fallible.step_ok_run h
  cases hRead : m.mem.readUint addr size with
  | error e =>
    rw [hRead] at hStep
    cases hStep
  | ok w =>
    rw [hRead] at hStep
    cases hStep
    exact ⟨rfl, rfl⟩

theorem readUint_ends (addr : U64) (size : Nat) (m : Machine) :
    (∃ v, readUint addr size m = some (.ok v, m)) ∨ ∃ e, readUint addr size m = some (.error e, m) := by
  cases hRead : m.mem.readUint addr size with
  | error e => exact .inr ⟨.err e, Fallible.step_of_error (by rw [hRead]; rfl)⟩
  | ok v => exact .inl ⟨v, Fallible.step_of_ok (by rw [hRead]; rfl)⟩

theorem writeUint_ends (addr : U64) (size : Nat) (v : U64) (m : Machine) :
    (∃ mem, writeUint addr size v m = some (.ok (), { m with mem })) ∨ ∃ e, writeUint addr size v m = some (.error e, m) := by
  cases hWrite : m.mem.writeUint addr size v with
  | error e => exact .inr ⟨.err e, Fallible.step_of_error (by rw [hWrite]; rfl)⟩
  | ok mem => exact .inl ⟨mem, Fallible.step_of_ok (by rw [hWrite]; rfl)⟩

theorem readUint_lt {mem : VirtualMemory} {addr : U64} (h : mem.readUint addr size = .ok v) : v.toNat < 2 ^ (8 * size) := by
  unfold VirtualMemory.readUint at h
  split at h
  · cases hLocate : mem.locate addr size Perm.READ "read" with
    | error e =>
      rw [hLocate] at h
      cases h
    | ok p =>
      rw [hLocate] at h
      cases h
      have hBytes := fromLe_lt (slice p.2.1.bytes p.2.2 size)
      rw [length_slice] at hBytes
      exact hBytes
  · cases h

variable (s : CpuState)

theorem gprRead_lt (i : U8) (hSize : VirtualMemory.isUintSize size = true) : (s.gprRead i size).toNat < 2 ^ (8 * size) := by
  unfold CpuState.gprRead
  rw [toNat_and_mask _ hSize]
  exact unsigned_lt size _

theorem readGpr_lt (i : U8) (hasRex : Bool) (hSize : VirtualMemory.isUintSize size = true) :
    (readGpr s i size hasRex).toNat < 2 ^ (8 * size) := by
  unfold readGpr
  split
  · rename_i hHigh
    have hByte : ((s.gpr (regIdx (i &&& 3)) >>> 8) &&& mask 1).toNat = unsigned 1 (s.gpr (regIdx (i &&& 3)) >>> 8) := toNat_and_mask _ (by decide)
    rw [hHigh.1]
    change ((s.gpr (regIdx (i &&& 3)) >>> 8) &&& mask 1).toNat < _
    rw [hByte]
    exact unsigned_lt 1 _
  · exact gprRead_lt s i hSize

theorem readRm_run (hSize : VirtualMemory.isUintSize size = true) (h : readRm ctx size m = some (.ok v, m')) :
    v.toNat < 2 ^ (8 * size) ∧ m' = m := by
  unfold readRm at h
  cases hRm : ctx.rm with
  | Reg i =>
    rw [hRm] at h
    cases h
    exact ⟨readGpr_lt _ _ _ hSize, rfl⟩
  | Mem base disp ripRel =>
    rw [hRm] at h
    obtain ⟨hRead, hSame⟩ := readUint_run h
    exact ⟨readUint_lt hRead, hSame⟩

/-! ## What is written -/

theorem gpr_setReg (r r' : Fin 16) (v : U64) : (s.setReg r v).gpr r' = if r' = r then v else s.gpr r' :=
  Function.update_apply ..

theorem toNat_gprRead_gprWrite (i : U8) (v : U64) (hSize : VirtualMemory.isUintSize size = true) :
    ((s.gprWrite i size v).gprRead i size).toNat = unsigned size v := by
  have hLow : ∀ (slot : U64) (size : Nat), ((slot &&& ~~~mask size) ||| (v &&& mask size)) &&& mask size = v &&& mask size := by
    intro slot size
    apply BitVec.eq_of_getLsbD_eq
    intro k hk
    simp only [BitVec.getLsbD_and, BitVec.getLsbD_or, BitVec.getLsbD_not, decide_eq_true hk, Bool.true_and]
    cases (mask size).getLsbD k <;> simp
  rw [← toNat_and_mask v hSize]
  unfold CpuState.gprRead CpuState.gprWrite CpuState.setReg
  dsimp only
  rw [Function.update_self]
  rcases isUintSize_iff.mp hSize with rfl | rfl | rfl | rfl
  · exact congrArg BitVec.toNat (hLow _ 1)
  · exact congrArg BitVec.toNat (hLow _ 2)
  · change (v &&& mask 4 &&& mask 4).toNat = _
    rw [BitVec.and_assoc, BitVec.and_self]
  · rfl

theorem gprRead_gprWrite_ne {i j : U8} (v : U64) (n k : Nat) (hNe : regIdx j ≠ regIdx i) : (s.gprWrite i n v).gprRead j k = s.gprRead j k := by
  unfold CpuState.gprRead CpuState.gprWrite CpuState.setReg
  dsimp only
  rw [Function.update_of_ne hNe]

/-- A page at `0x1000`. -/
def onePage : VirtualMemory := (VirtualMemory.new.map true ⟨"data", 0x1000, 0x1000, Perm.RW⟩).toOption.getD .new

end Interp

end Exemu
