import Exemu.Memory.Lawful
import Exemu.Cpu.Interpreter

/-! # Bit tests

`bit_op` takes the bit offset as it was read: the width of the register and the range of an
immediate are not looked at when the operand is in memory.
-/
namespace Exemu

namespace Interp

open Fallible

def readU8 (addr : U64) : Exec U8 := .step fun m => ((Memory.readU8 m.mem addr).mapError .err).map fun b => (b, m)

def writeU8 (addr : U64) (b : U8) : Exec Unit :=
  .step fun m => ((m.mem.write addr [b]).mapError .err).map fun mem => ((), { m with mem })

/-- The closure `modify`. -/
def modifyBit (op2 : U8) (v : U64) (bit : Nat) : U64 :=
  if op2 = 0xAB then v ||| (1 <<< bit)
  else if op2 = 0xB3 then v &&& ~~~((1 : U64) <<< bit)
  else if op2 = 0xBB then v ^^^ (1 <<< bit)
  else v

def bitOp (ctx : Ctx) (op2 : U8) (size : Nat) (idx : U64) : Exec Unit :=
  match ctx.rm with
  | .Reg i => do
    let bit := idx.toNat % (size * 8)
    let val := (← Fallible.get).state.gprRead i size
    onState fun s => s.setFlag flags.CF ((val >>> bit) &&& 1 != 0)
    if op2 ≠ 0xA3 then onState fun s => s.gprWrite i size (modifyBit op2 val bit) else return ()
  | .Mem .. => do
    let addr := (ctx.rmAddr + BitVec.ofInt 64 (idx.toInt / 8)) &&& ctx.bits.addrMask
    let bit := (idx &&& 7).toNat
    let byte ← readU8 addr
    onState fun s => s.setFlag flags.CF ((byte >>> bit) &&& 1 != 0)
    if op2 ≠ 0xA3 then writeU8 addr ((modifyBit op2 (byte.setWidth 64) bit).setWidth 8) else return ()

/-- `0x0F` with one of these. -/
def BIT_OPS : List U8 := [0xA3, 0xAB, 0xB3, 0xBB]

def executeBt (ctx : Ctx) (op2 : U8) : Exec Exit := do
  let idx := readRegField ctx (← Fallible.get).state ctx.opsize
  bitOp ctx op2 ctx.opsize idx
  proceed ctx

/-- The operation of `0x0F 0xBA`. -/
def subOf (reg : U8) : U8 :=
  if reg &&& 7 = 4 then 0xA3 else if reg &&& 7 = 5 then 0xAB else if reg &&& 7 = 6 then 0xB3 else 0xBB

def executeBa (ctx : Ctx) (imm : U8) : Exec Exit := do
  bitOp ctx (subOf ctx.reg) ctx.opsize (imm.setWidth 64)
  proceed ctx

/-! ## What the instructions are to do -/

def newBit (op2 : U8) (old : Bool) : Bool := if op2 = 0xAB then true else if op2 = 0xB3 then false else !old

/-- The bit at the offset is tested and changed: in the register modulo its size, in memory in the byte where it lies. -/
def testBit (ctx : Ctx) (op2 : U8) (size : Nat) (offset : Int) : Exec Unit :=
  match ctx.rm with
  | .Reg i => do
    let bit := (offset % (8 * size : Nat)).toNat
    let val := (← Fallible.get).state.gprRead i size
    onState fun s => s.setFlag flags.CF (val.getLsbD bit)
    if op2 ≠ 0xA3 then onState fun s => s.gprWrite i size (putBit val bit (newBit op2 (val.getLsbD bit))) else return ()
  | .Mem .. => do
    let addr := (ctx.rmAddr + BitVec.ofInt 64 (offset / 8)) &&& ctx.bits.addrMask
    let bit := (offset % 8).toNat
    let byte ← readU8 addr
    onState fun s => s.setFlag flags.CF (byte.getLsbD bit)
    if op2 ≠ 0xA3 then writeU8 addr (putBit byte bit (newBit op2 (byte.getLsbD bit))) else return ()

def btReference (ctx : Ctx) (op2 : U8) : Exec Exit := do
  let idx := readRegField ctx (← Fallible.get).state ctx.opsize
  testBit ctx op2 ctx.opsize (signed ctx.opsize idx)
  proceed ctx

def baReference (ctx : Ctx) (imm : U8) : Exec Exit := do
  testBit ctx (subOf ctx.reg) ctx.opsize (imm.toNat % (8 * ctx.opsize) : Nat)
  proceed ctx

/-! ## One bit -/

section Bits

variable {op2 : U8} {k : Nat}

theorem modifyBit_eq (hOp : op2 ∈ BIT_OPS) (hWrites : op2 ≠ 0xA3) (v : U64) (k : Nat) :
    modifyBit op2 v k = putBit v k (newBit op2 (v.getLsbD k)) := by
  simp only [BIT_OPS, List.mem_cons, List.not_mem_nil, or_false] at hOp
  have hPow : (1 : U64) <<< k = BitVec.twoPow 64 k := (BitVec.twoPow_eq 64 k).symm
  rcases hOp with rfl | rfl | rfl | rfl
  · exact absurd rfl hWrites
  · change v ||| (1 : U64) <<< k = putBit v k true
    rw [hPow]
    rfl
  · change v &&& ~~~((1 : U64) <<< k) = putBit v k false
    rw [hPow]
    rfl
  · change v ^^^ (1 : U64) <<< k = putBit v k !v.getLsbD k
    rw [hPow]
    apply BitVec.eq_of_getLsbD_eq
    intro j hj
    rw [getLsbD_putBit v _ hj, BitVec.getLsbD_xor, BitVec.getLsbD_twoPow]
    by_cases hSame : j = k
    · simp [hSame, show k < 64 by omega]
    · simp [hSame, Ne.symm hSame]

theorem setWidth_putBit (v : U8) (k : Nat) (b : Bool) : (putBit (v.setWidth 64) k b).setWidth 8 = putBit v k b := by
  apply BitVec.eq_of_getLsbD_eq
  intro j hj
  rw [BitVec.getLsbD_setWidth, getLsbD_putBit _ _ (by omega), getLsbD_putBit _ _ hj, BitVec.getLsbD_setWidth]
  simp [hj, show j < 64 by omega]

theorem putBit_others {w : Nat} (v : BitVec w) (b : Bool) {j : Nat} (hj : j < w) (hOther : j ≠ k) : (putBit v k b).getLsbD j = v.getLsbD j := by
  rw [getLsbD_putBit v b hj, if_neg hOther]

end Bits

/-! ## The instructions -/

section Instructions

variable {ctx : Ctx} {op2 : U8} {size : Nat} {idx : U64} {o o' : Int}

def byteAddr (ctx : Ctx) (offset : Int) : U64 := (ctx.rmAddr + BitVec.ofInt 64 (offset / 8)) &&& ctx.bits.addrMask

def Rm.isMem : Rm → Prop
  | .Reg _ => False
  | .Mem .. => True

theorem bitOp_reg (hReg : ¬ctx.rm.isMem) (hOp : op2 ∈ BIT_OPS) (hSame : o % (8 * size : Nat) = (idx.toNat : Int) % (8 * size : Nat)) :
    bitOp ctx op2 size idx = testBit ctx op2 size o := by
  cases hRm : ctx.rm with
  | Mem base disp ripRel =>
    rw [hRm] at hReg
    exact absurd trivial hReg
  | Reg i =>
    have hBit : idx.toNat % (size * 8) = (o % (8 * size : Nat)).toNat := by
      rw [hSame, Nat.mul_comm size 8]
      omega
    unfold bitOp testBit
    rw [hRm]
    dsimp only
    simp only [hBit, carried _ (by decide : 0 < 64)]
    by_cases hWrites : op2 ≠ 0xA3
    · simp only [if_pos hWrites, modifyBit_eq hOp hWrites]
    · simp only [if_neg hWrites]

theorem bitOp_mem (hMem : ctx.rm.isMem) (hOp : op2 ∈ BIT_OPS) : bitOp ctx op2 size idx = testBit ctx op2 size idx.toInt := by
  cases hRm : ctx.rm with
  | Reg i =>
    rw [hRm] at hMem
    exact absurd hMem id
  | Mem base disp ripRel =>
    have hBit : (idx &&& 7).toNat = (idx.toInt % 8).toNat := by
      rw [BitVec.toNat_and, show (7 : U64).toNat = 2 ^ 3 - 1 by rfl, Nat.and_two_pow_sub_one_eq_mod, BitVec.toInt_eq_toNat_cond]
      split <;> omega
    unfold bitOp testBit
    rw [hRm]
    dsimp only
    simp only [hBit, carried _ (by decide : 0 < 8)]
    by_cases hWrites : op2 ≠ 0xA3
    · have hChange : ∀ byte : U8, ((modifyBit op2 (byte.setWidth 64) (idx.toInt % 8).toNat).setWidth 8 : U8) =
          putBit byte (idx.toInt % 8).toNat (newBit op2 (byte.getLsbD (idx.toInt % 8).toNat)) := by
        intro byte
        rw [modifyBit_eq hOp hWrites, setWidth_putBit, BitVec.getLsbD_setWidth, decide_eq_true (by omega), Bool.true_and]
      simp only [if_pos hWrites, hChange]
    · simp only [if_neg hWrites]

theorem testBit_unmapped (hMem : ctx.rm.isMem) (s : CpuState) :
    testBit ctx op2 size o ⟨s, .new⟩ = some (.error (.err (.unmapped (byteAddr ctx o) 1)), ⟨s, .new⟩) := by
  cases hRm : ctx.rm with
  | Reg i =>
    rw [hRm] at hMem
    exact absurd hMem id
  | Mem base disp ripRel =>
    unfold testBit
    rw [hRm]
    rfl

theorem testBit_iff (hMem : ctx.rm.isMem) (s : CpuState) (hBit : o % 8 = o' % 8) :
    (∀ mem, (testBit ctx op2 size o >>= fun _ => proceed ctx) ⟨s, mem⟩ = (testBit ctx op2 size o' >>= fun _ => proceed ctx) ⟨s, mem⟩) ↔
      byteAddr ctx o = byteAddr ctx o' := by
  constructor
  · intro h
    have hNew := h .new
    rw [bind_of_error (testBit_unmapped hMem s), bind_of_error (testBit_unmapped hMem s)] at hNew
    injection hNew with hNew
    injection hNew with hNew
    injection hNew with hNew
    injection hNew with hNew
    injection hNew
  · intro hAddr mem
    have hSame : testBit ctx op2 size o = testBit ctx op2 size o' := by
      cases hRm : ctx.rm with
      | Reg i =>
        rw [hRm] at hMem
        exact absurd hMem id
      | Mem base disp ripRel =>
        unfold byteAddr at hAddr
        unfold testBit
        rw [hRm]
        simp only [hAddr, hBit]
    rw [hSame]

theorem byteAddr_low (h : byteAddr ctx o = byteAddr ctx o') :
    (ctx.rmAddr.toNat + (o / 8 % 2 ^ 64).toNat) % 2 ^ 32 = (ctx.rmAddr.toNat + (o' / 8 % 2 ^ 64).toNat) % 2 ^ 32 := by
  have hLow : ∀ x : U64, (x &&& ctx.bits.addrMask).toNat % 2 ^ 32 = x.toNat % 2 ^ 32 := by
    intro x
    cases ctx.bits with
    | B64 => rw [Bits.addrMask, BitVec.and_allOnes]
    | B32 =>
      rw [Bits.addrMask, BitVec.toNat_and, show (0xffffffff : U64).toNat = 2 ^ 32 - 1 by rfl, Nat.and_two_pow_sub_one_eq_mod]
      omega
  have hSame := congrArg (fun x : U64 => x.toNat % 2 ^ 32) h
  unfold byteAddr at hSame
  rw [hLow, hLow, BitVec.toNat_add, BitVec.toNat_add, BitVec.toNat_ofInt, BitVec.toNat_ofInt] at hSame
  omega

theorem byteAddr_signed_iff (hSize : size = 2 ∨ size = 4 ∨ size = 8) (hRange : idx.toNat < 2 ^ (8 * size)) :
    byteAddr ctx idx.toInt = byteAddr ctx (signed size idx) ↔ size = 8 ∨ idx.toNat < 2 ^ (8 * size - 1) := by
  have hSigned := signed_eq idx (isUintSize_iff.mpr (.inr hSize))
  rw [unsigned, Nat.mod_eq_of_lt hRange] at hSigned
  have hInt := BitVec.toInt_eq_toNat_cond idx
  constructor
  · intro h
    by_contra hNot
    rw [not_or] at hNot
    have hLow := byteAddr_low h
    rcases hSize with rfl | rfl | rfl
    · simp only [Nat.reduceMul, Nat.reducePow, Nat.reduceSub, Int.reducePow] at *
      split at hSigned <;> omega
    · simp only [Nat.reduceMul, Nat.reducePow, Nat.reduceSub, Int.reducePow] at *
      split at hSigned <;> omega
    · exact hNot.1 rfl
  · rintro (rfl | hSmall)
    · rw [signed, show idx.setWidth (8 * 8) = idx from BitVec.setWidth_eq idx]
    · rw [hSigned, if_pos hSmall, hInt, if_pos]
      rcases hSize with rfl | rfl | rfl <;> simp only [Nat.reduceMul, Nat.reducePow, Nat.reduceSub] at hSmall ⊢ <;> omega

theorem byteAddr_immediate_iff (hSize : size = 2 ∨ size = 4 ∨ size = 8) (imm : U8) :
    byteAddr ctx (imm.setWidth 64).toInt = byteAddr ctx (imm.toNat % (8 * size) : Nat) ↔ imm.toNat < 8 * size := by
  have hByte := imm.isLt
  have hInt : (imm.setWidth 64 : U64).toInt = imm.toNat := by
    rw [BitVec.toInt_eq_toNat_cond, BitVec.toNat_setWidth]
    omega
  rw [hInt]
  constructor
  · intro h
    have hLow := byteAddr_low h
    rcases hSize with rfl | rfl | rfl <;> omega
  · intro hSmall
    rw [Nat.mod_eq_of_lt hSmall]

theorem subOf_mem (reg : U8) : subOf reg ∈ BIT_OPS := by
  unfold subOf
  split
  · decide
  · split
    · decide
    · split <;> decide

theorem signed_mod (hSize : size = 2 ∨ size = 4 ∨ size = 8) (hRange : idx.toNat < 2 ^ (8 * size)) :
    signed size idx % (8 * size : Nat) = (idx.toNat : Int) % (8 * size : Nat) ∧ idx.toInt % 8 = signed size idx % 8 := by
  have hSigned := signed_eq idx (isUintSize_iff.mpr (.inr hSize))
  rw [unsigned, Nat.mod_eq_of_lt hRange] at hSigned
  have hInt := BitVec.toInt_eq_toNat_cond idx
  rcases hSize with rfl | rfl | rfl <;> simp only [Nat.reduceMul, Nat.reducePow, Nat.reduceSub, Int.reducePow] at * <;>
    split at hSigned <;> split at hInt <;> omega

/-- A bit is tested where it lies, and no other is changed: always in a register, and in memory if the register that holds
the offset is as wide as an address or the offset is not negative, or if the immediate is below the size. -/
theorem bitTest (ctx : Ctx) (s : CpuState) :
    (∀ op2 ∈ BIT_OPS, (∀ mem, executeBt ctx op2 ⟨s, mem⟩ = btReference ctx op2 ⟨s, mem⟩) ↔
        (ctx.rm.isMem → ctx.opsize = 8 ∨ (readRegField ctx s ctx.opsize).toNat < 2 ^ (8 * ctx.opsize - 1))) ∧
      (∀ imm, (∀ mem, executeBa ctx imm ⟨s, mem⟩ = baReference ctx imm ⟨s, mem⟩) ↔ (ctx.rm.isMem → imm.toNat < 8 * ctx.opsize)) ∧
      ∀ op2 ∈ BIT_OPS, ∀ (v : U64) (k j : Nat), j < 64 → j ≠ k → (modifyBit op2 v k).getLsbD j = v.getLsbD j := by
  have hSize := opsize_cases ctx
  refine ⟨fun op2 hOp => ?_, fun imm => ?_, fun op2 hOp v k j hj hOther => ?_⟩
  · have hRange : (readRegField ctx s ctx.opsize).toNat < 2 ^ (8 * ctx.opsize) :=
      readGpr_lt s ctx.reg ctx.pfx.hasRex (isUintSize_iff.mpr (.inr hSize))
    obtain ⟨hMod, hBit⟩ := signed_mod hSize hRange
    change (∀ mem, (bitOp ctx op2 ctx.opsize (readRegField ctx s ctx.opsize) >>= fun _ => proceed ctx) ⟨s, mem⟩ =
      (testBit ctx op2 ctx.opsize (signed ctx.opsize (readRegField ctx s ctx.opsize)) >>= fun _ => proceed ctx) ⟨s, mem⟩) ↔ _
    by_cases hMem : ctx.rm.isMem
    · rw [bitOp_mem hMem hOp, testBit_iff hMem s hBit, byteAddr_signed_iff hSize hRange]
      exact ⟨fun h _ => h, fun h => h hMem⟩
    · rw [bitOp_reg hMem hOp hMod]
      exact iff_of_true (fun _ => rfl) fun h => absurd h hMem
  · have hByte := imm.isLt
    change (∀ mem, (bitOp ctx (subOf ctx.reg) ctx.opsize (imm.setWidth 64) >>= fun _ => proceed ctx) ⟨s, mem⟩ =
      (testBit ctx (subOf ctx.reg) ctx.opsize (imm.toNat % (8 * ctx.opsize) : Nat) >>= fun _ => proceed ctx) ⟨s, mem⟩) ↔ _
    by_cases hMem : ctx.rm.isMem
    · have hBit : (imm.setWidth 64 : U64).toInt % 8 = ((imm.toNat % (8 * ctx.opsize) : Nat) : Int) % 8 := by
        rw [BitVec.toInt_eq_toNat_cond, BitVec.toNat_setWidth]
        rcases hSize with hSize | hSize | hSize <;> rw [hSize] <;> omega
      rw [bitOp_mem hMem (subOf_mem ctx.reg), testBit_iff hMem s hBit, byteAddr_immediate_iff hSize]
      exact ⟨fun h _ => h, fun h => h hMem⟩
    · have hMod : ((imm.toNat % (8 * ctx.opsize) : Nat) : Int) % (8 * ctx.opsize : Nat) =
          ((imm.setWidth 64 : U64).toNat : Int) % (8 * ctx.opsize : Nat) := by
        rw [BitVec.toNat_setWidth, Nat.mod_eq_of_lt (by omega : imm.toNat < 2 ^ 64), Int.natCast_mod, Int.emod_emod_of_dvd _ (dvd_refl _)]
      rw [bitOp_reg hMem (subOf_mem ctx.reg) hMod]
      exact iff_of_true (fun _ => rfl) fun h => absurd h hMem
  · by_cases hWrites : op2 = 0xA3
    · rw [hWrites]
      rfl
    · rw [modifyBit_eq hOp hWrites, putBit_others v _ hj hOther]

end Instructions

/-! ## A page at `0x1000` -/

/-- `BTS dword [0x1800], EBX` and `BTS dword [0x1800], 3`. -/
def bitCtx : Ctx := ⟨{}, 0x4008, 5, .Mem 0x1800 0 false, .B64⟩

theorem bitTest_of_three : executeBa bitCtx 3 ⟨{}, onePage⟩ = baReference bitCtx 3 ⟨{}, onePage⟩ :=
  ((bitTest bitCtx {}).2.1 3).mpr (fun _ => by decide) onePage

/-- Of bit 33 it is the fifth byte that changes, not the first; and of bit -1, none before the operand. -/
theorem bitTest_misses :
    ¬(∀ mem, executeBa bitCtx 33 ⟨{}, mem⟩ = baReference bitCtx 33 ⟨{}, mem⟩) ∧
      ¬∀ mem, executeBt { bitCtx with reg := 3 } 0xAB ⟨{ gpr := fun _ => 0xffffffff }, mem⟩ =
        btReference { bitCtx with reg := 3 } 0xAB ⟨{ gpr := fun _ => 0xffffffff }, mem⟩ := by
  constructor
  · intro h
    have hHere := congrArg (fun out => out.bind fun p => p.2.mem.peek 0x1804) (h onePage)
    exact absurd hHere (by decide)
  · intro h
    have hHere := congrArg (fun out => out.bind fun p => p.2.mem.peek 0x17ff) (h onePage)
    exact absurd hHere (by decide)

end Interp

end Exemu
