import Exemu.Cpu.Interpreter
import Exemu.Library.Lanes
import Exemu.Library.Put
import Exemu.Memory.Facts

/-! # Saved registers

The area of FXSAVE and XSAVE: the x87 registers in the order of the stack, their tags as one bit
each, MXCSR and the XMM registers, and behind the header of XSAVE the upper halves of the YMM
registers.
-/
namespace Exemu

open List
open BitVec hiding not_not

open Lanes

namespace X87

def top (x : X87) : Nat := ((x.sw >>> 11) &&& 7).toNat

/-- Where the register `i` of the stack is. -/
def phys (x : X87) (i : Nat) : Fin 8 := Fin.ofNat 8 (x.top + i)

end X87

namespace Interp

open Fallible

def MXCSR_MASK : U32 := 0x0000FFFF

def XCR0_SUPPORTED : U64 := 0b111

theorem reset_masked : (0x1F80 : U32) &&& MXCSR_MASK = 0x1F80 := by decide

/-- The interpreter, as far as registers are saved. No way to MXCSR goes round the mask. -/
structure Interpreter where
  state : CpuState := {}
  bits : Bits := .B64
  mxcsr : U32 := 0x1F80
  xcr0 : U64 := XCR0_SUPPORTED
  masked : mxcsr &&& MXCSR_MASK = mxcsr := by exact reset_masked

structure Core where
  cpu : Interpreter
  mem : VirtualMemory

abbrev CoreExec := Fallible Core Stop

def readBytes (addr : U64) (n : Nat) : CoreExec (List U8) :=
  .step fun c => ((c.mem.read addr n).mapError .err).map fun bs => (bs, c)

def writeBytes (addr : U64) (bs : List U8) : CoreExec Unit :=
  .step fun c => ((c.mem.write addr bs).mapError .err).map fun mem => ((), { c with mem })

def onCpu (f : Interpreter → Interpreter) : CoreExec Unit := .modify fun c => { c with cpu := f c.cpu }

/-! ## The area -/

def tagAt (tw : U16) (j : Nat) : U16 := (tw >>> (j * 2)) &&& 0b11

def abridgedFtw (full : U16) : U8 := gather 8 fun j => if tagAt full j ≠ 0b11 then (1 : U8) <<< j else 0

def fullTag (v : U128) : U16 :=
  let exp := (v >>> 64) &&& 0x7fff
  let signif : U64 := v.setWidth 64
  let integerBit := signif &&& 0x8000000000000000 != 0
  if exp = 0 ∧ signif = 0 then 0b01
  else if exp = 0x7fff ∨ (exp = 0 ∧ signif ≠ 0) ∨ (exp ≠ 0 ∧ ¬integerBit) then 0b10
  else 0b00

namespace Interpreter

def nxmm (self : Interpreter) : Nat := if self.bits = .B64 then 16 else 8

def setMxcsr (self : Interpreter) (v : U32) : Interpreter :=
  { self with mxcsr := v &&& MXCSR_MASK, masked := by rw [BitVec.and_assoc, BitVec.and_self] }

def setX87 (self : Interpreter) (x : X87) : Interpreter := { self with state := { self.state with x87 := x } }

def setXmm (self : Interpreter) (xmm : Fin 16 → U128) : Interpreter := { self with state := { self.state with xmm } }

def setYmmHi (self : Interpreter) (ymmHi : Fin 16 → U128) : Interpreter := { self with state := { self.state with ymmHi } }

/-- What `build_fxsave_area` puts where. -/
def pointerParts (x : X87) (rexw : Bool) : List (Nat × List U8) :=
  if rexw then [(8, toLe 8 x.fip), (16, toLe 8 x.fdp)]
  else [(8, toLe 4 x.fip), (12, toLe 2 (x.fcs.setWidth 64)), (16, toLe 4 x.fdp), (20, toLe 2 (x.fds.setWidth 64))]

def fxsaveParts (self : Interpreter) (rexw : Bool) : List (Nat × List U8) :=
  let x := self.state.x87
  [(0, toLe 2 (x.cw.setWidth 64)), (2, toLe 2 (x.sw.setWidth 64)), (4, [abridgedFtw x.tw]), (6, toLe 2 (x.fop.setWidth 64))] ++
    pointerParts x rexw ++ [(24, toLe 4 (self.mxcsr.setWidth 64)), (28, toLe 4 (MXCSR_MASK.setWidth 64))] ++
    (List.range 8).map (fun i => (32 + i * 16, (toLe128 (x.st (x.phys i))).take 10)) ++
    (List.range self.nxmm).map fun i => (160 + i * 16, toLe128 (self.state.xmm (Fin.ofNat 16 i)))

def buildFxsaveArea (self : Interpreter) (rexw : Bool) : List U8 := Put.overwriteAll (self.fxsaveParts rexw) (List.replicate 512 0)

end Interpreter

/-- `buf[off..off + n]` -/
def field (buf : List U8) (off n : Nat) : List U8 := (buf.drop off).take n

def slotOf (buf : List U8) (i : Nat) : U128 := fromLe128 (field buf (32 + i * 16) 10 ++ List.replicate 6 0) &&& (((1 : U128) <<< 80) - 1)

def restoredTag (ftw : U8) (phys : Fin 8) (v : U128) : U16 := if ftw &&& ((1 : U8) <<< phys.val) = 0 then 0b11 else fullTag v

def restorePointers (x : X87) (buf : List U8) (rexw : Bool) : X87 :=
  if rexw then { x with fip := fromLe (field buf 8 8), fcs := 0, fdp := fromLe (field buf 16 8), fds := 0 }
  else
    { x with
      fip := fromLe (field buf 8 4)
      fcs := (fromLe (field buf 12 2)).setWidth 16
      fdp := fromLe (field buf 16 4)
      fds := (fromLe (field buf 20 2)).setWidth 16 }

def restoreX87 (x : X87) (buf : List U8) (rexw : Bool) : X87 :=
  let ftw := (fromLe (field buf 4 1)).setWidth 8
  let x := { x with
    sw := (fromLe (field buf 2 2)).setWidth 16
    cw := (fromLe (field buf 0 2)).setWidth 16
    fop := (fromLe (field buf 6 2)).setWidth 16 }
  let x := restorePointers x buf rexw
  { x with
    st := fill 8 x.phys (slotOf buf) x.st
    tw := gather 8 fun i => (restoredTag ftw (x.phys i) (slotOf buf i) &&& 0b11) <<< ((x.phys i).val * 2) }

namespace Interpreter

def restoreX87Component (self : Interpreter) (buf : List U8) (rexw : Bool) : Interpreter := self.setX87 (restoreX87 self.state.x87 buf rexw)

def restoreXmmComponent (self : Interpreter) (buf : List U8) : Interpreter :=
  self.setXmm (fill self.nxmm (Fin.ofNat 16) (fun i => fromLe128 (field buf (160 + i * 16) 16)) self.state.xmm)

def restoreMxcsr (self : Interpreter) (buf : List U8) : Interpreter := self.setMxcsr ((fromLe (field buf 24 4)).setWidth 32)

def restoreFxsaveArea (self : Interpreter) (buf : List U8) (rexw : Bool) : Interpreter :=
  ((self.restoreX87Component buf rexw).restoreMxcsr buf).restoreXmmComponent buf

def xsaveRfbm (self : Interpreter) : U64 :=
  let eax := self.state.gprRead 0 4
  let edx := self.state.gprRead 2 4
  ((edx <<< 32) ||| eax) &&& self.xcr0 &&& XCR0_SUPPORTED

def xrstorX87 (self : Interpreter) (area : List U8) (xstateBv : U64) (rexw : Bool) : Interpreter :=
  if xstateBv &&& 1 ≠ 0 then self.restoreX87Component area rexw else self.setX87 {}

def xrstorSse (self : Interpreter) (area : List U8) (xstateBv : U64) : Interpreter :=
  let self := self.restoreMxcsr area
  if xstateBv &&& 2 ≠ 0 then self.restoreXmmComponent area else self.setXmm fun _ => 0

def xrstorApply (self : Interpreter) (area : List U8) (rfbm xstateBv : U64) (rexw : Bool) : Interpreter :=
  let self := if rfbm &&& 1 ≠ 0 then self.xrstorX87 area xstateBv rexw else self
  if rfbm &&& 2 ≠ 0 then self.xrstorSse area xstateBv else self

end Interpreter

/-! ## The instructions -/

def avxAddr (addr : U64) (i : Nat) : U64 := addr + 576 + BitVec.ofNat 64 i * 16

def writeAvxComponent (addr : U64) : CoreExec Unit := do
  let self := (← Fallible.get).cpu
  each (fun i => writeBytes (avxAddr addr i) (toLe128 (self.state.ymmHi (Fin.ofNat 16 i)))) (List.range self.nxmm)

def readAvxComponent (addr : U64) : CoreExec Unit := do
  let self := (← Fallible.get).cpu
  each (fun i => do
    let b ← readBytes (avxAddr addr i) 16
    onCpu fun c => c.setYmmHi (Function.update c.state.ymmHi (Fin.ofNat 16 i) (fromLe128 b))) (List.range self.nxmm)

def fxsave (addr : U64) (rexw : Bool) : CoreExec Unit := do
  let self := (← Fallible.get).cpu
  writeBytes addr (self.buildFxsaveArea rexw)

def fxrstor (addr : U64) (rexw : Bool) : CoreExec Unit := do
  let buf ← readBytes addr 512
  onCpu fun self => self.restoreFxsaveArea buf rexw

def xsaveHeader (addr rfbm : U64) : CoreExec Unit := do
  let oldBv := fromLe (← readBytes (addr + 512) 8)
  writeBytes (addr + 512) (toLe 8 ((oldBv &&& ~~~rfbm) ||| (rfbm &&& XCR0_SUPPORTED)))

def xsave (addr : U64) (rexw : Bool) : CoreExec Unit := do
  let self := (← Fallible.get).cpu
  let rfbm := self.xsaveRfbm
  writeBytes addr (self.buildFxsaveArea rexw)
  if rfbm &&& 4 ≠ 0 then
    writeAvxComponent addr
    xsaveHeader addr rfbm
  else xsaveHeader addr rfbm

def xrstor (addr : U64) (rexw : Bool) : CoreExec Unit := do
  let rfbm := (← Fallible.get).cpu.xsaveRfbm
  let area ← readBytes addr 512
  let xstateBv := fromLe (← readBytes (addr + 512) 8)
  onCpu fun self => self.xrstorApply area rfbm xstateBv rexw
  if rfbm &&& 4 ≠ 0 then
    if xstateBv &&& 4 ≠ 0 then readAvxComponent addr else onCpu fun self => self.setYmmHi fun _ => 0
  else return ()

def ldmxcsr (addr : U64) : CoreExec Unit := do
  let bs ← readBytes addr 4
  onCpu fun self => self.setMxcsr ((fromLe bs).setWidth 32)

def stmxcsr (addr : U64) : CoreExec Unit := do
  let self := (← Fallible.get).cpu
  writeBytes addr (toLe 4 (self.mxcsr.setWidth 64))

/-- `0x0F 0xAE`. The fences of the group do nothing. -/
def execute0fAe (ctx : Ctx) : CoreExec Unit :=
  let digit := ctx.reg &&& 7
  let isMem : Bool := match ctx.rm with
    | .Mem .. => true
    | .Reg _ => false
  if ¬isMem ∧ 5 ≤ digit then return ()
  else if isMem ∧ (digit = 6 ∨ digit = 7) then return ()
  else if digit = 0 then fxsave ctx.rmAddr ctx.pfx.w
  else if digit = 1 then fxrstor ctx.rmAddr ctx.pfx.w
  else if digit = 2 then ldmxcsr ctx.rmAddr
  else if digit = 3 then stmxcsr ctx.rmAddr
  else if digit = 4 then xsave ctx.rmAddr ctx.pfx.w
  else xrstor ctx.rmAddr ctx.pfx.w

/-! ## What the area holds -/

section Area

variable {self : Interpreter} {rexw : Bool}

def fxsaveBounds (n : Nat) (rexw : Bool) : List (Nat × Nat) :=
  [(0, 2), (2, 2), (4, 1), (6, 2)] ++ (if rexw then [(8, 8), (16, 8)] else [(8, 4), (12, 2), (16, 4), (20, 2)]) ++ [(24, 4), (28, 4)] ++
    (List.range 8).map (fun i => (32 + i * 16, 10)) ++ (List.range n).map fun i => (160 + i * 16, 16)

theorem fxsaveParts_bounds (self : Interpreter) (rexw : Bool) :
    ((self.fxsaveParts rexw).map fun p => (p.1, p.2.length)) = fxsaveBounds self.nxmm rexw := by
  unfold Interpreter.fxsaveParts Interpreter.pointerParts fxsaveBounds
  cases rexw <;> simp [Function.comp_def]

theorem nxmm_cases (self : Interpreter) : self.nxmm = 16 ∨ self.nxmm = 8 := by
  unfold Interpreter.nxmm
  split
  · exact .inl rfl
  · exact .inr rfl

theorem bounds_fit (self : Interpreter) (rexw : Bool) : ∀ b ∈ fxsaveBounds self.nxmm rexw, b.1 + b.2 ≤ 512 := by
  rcases nxmm_cases self with h | h <;> rw [h] <;> cases rexw <;> decide

theorem bounds_apart (self : Interpreter) (rexw : Bool) : (fxsaveBounds self.nxmm rexw).Pairwise fun b b' => b.1 + b.2 ≤ b'.1 ∨ b'.1 + b'.2 ≤ b.1 := by
  rcases nxmm_cases self with h | h <;> rw [h] <;> cases rexw <;> decide

theorem area_parts (self : Interpreter) (rexw : Bool) :
    Put.putAll (self.fxsaveParts rexw) (List.replicate 512 0) = some (self.buildFxsaveArea rexw) := by
  refine Put.putAll_eq fun p hp => ?_
  rw [length_replicate]
  refine bounds_fit self rexw (p.1, p.2.length) ?_
  rw [← fxsaveParts_bounds]
  exact mem_map_of_mem hp

theorem length_area (self : Interpreter) (rexw : Bool) : (self.buildFxsaveArea rexw).length = 512 :=
  (Put.length_putAll (area_parts self rexw)).trans length_replicate

theorem field_area {off : Nat} {bs : List U8} (hp : (off, bs) ∈ self.fxsaveParts rexw) : field (self.buildFxsaveArea rexw) off bs.length = bs := by
  have hSymm : Std.Symm (Put.Apart (α := U8)) := ⟨fun _ _ h => h.symm⟩
  have hPairs : (self.fxsaveParts rexw).Pairwise Put.Apart := by
    have hApart := bounds_apart self rexw
    rwa [← fxsaveParts_bounds, pairwise_map] at hApart
  have hAll : ∀ p ∈ self.fxsaveParts rexw, ∀ q ∈ self.fxsaveParts rexw, p = q ∨ Put.Apart p q := fun p hp q hq =>
    or_iff_not_imp_left.mpr (hPairs.forall hp hq)
  have hWindow := Put.putAll_window (area_parts self rexw) hAll (off, bs) hp
  unfold Put.window at hWindow
  split at hWindow
  · exact Option.some.inj hWindow
  · cases hWindow

end Area

/-! ## Numbers from their bytes -/

section Numbers

theorem getLsbD_fromLe128 (bs : List U8) {i : Nat} (hi : i < 128) : (fromLe128 bs).getLsbD i = (bs[i / 8]?.getD 0).getLsbD (i % 8) := by
  induction bs generalizing i with
  | nil => simp [fromLe128]
  | cons b bs ih =>
    have hStep : (fromLe128 (b :: bs)).getLsbD i = ((fromLe128 bs <<< 8) ||| b.setWidth 128).getLsbD i := rfl
    rw [hStep, getLsbD_or, getLsbD_shiftLeft, getLsbD_setWidth]
    rcases Nat.lt_or_ge i 8 with hHere | hLater
    · simp [hi, hHere, Nat.div_eq_of_lt hHere, Nat.mod_eq_of_lt hHere]
    · rw [ih (by omega), getLsbD_of_ge b i hLater]
      have hNext : i / 8 = (i - 8) / 8 + 1 := by omega
      have hSame : (i - 8) % 8 = i % 8 := by omega
      rw [hNext, getElem?_cons_succ, hSame]
      simp [hi, Nat.not_lt.mpr hLater]

theorem setWidth_slot {buf : List U8} {i : Nat} {v : U128} (h : field buf (32 + i * 16) 10 = (toLe128 v).take 10) :
    (slotOf buf i).setWidth 80 = v.setWidth 80 := by
  refine eq_of_getLsbD_eq fun k hk => ?_
  have hMask : (((1 : U128) <<< 80) - 1).getLsbD k = true := by
    rw [show (((1 : U128) <<< 80) - 1) = BitVec.ofNat 128 (2 ^ 80 - 1) by decide, getLsbD_ofNat, Nat.testBit_two_pow_sub_one]
    simp [hk, show k < 128 by omega]
  have hByte : ((toLe128 v).take 10 ++ List.replicate 6 0)[k / 8]? = some ((v >>> (8 * (k / 8))).setWidth 8) := by
    rw [getElem?_append_left (by simp; omega), getElem?_take_of_lt (by omega)]
    simp [toLe128, show k / 8 < 16 by omega]
  rw [getLsbD_setWidth, getLsbD_setWidth, slotOf, h, getLsbD_and, hMask, getLsbD_fromLe128 _ (by omega), hByte, Option.getD_some,
    getLsbD_setWidth, getLsbD_ushiftRight, Nat.div_add_mod]
  simp [hk, Nat.mod_lt]

end Numbers

/-! ## Tags -/

section Tags

variable {x : X87} {buf : List U8} {ftw : U8}

theorem phys_val (x : X87) (i : Nat) : (x.phys i).val = (x.top + i) % 8 := rfl

theorem phys_injective (x : X87) : ∀ i < 8, ∀ j < 8, x.phys i = x.phys j → i = j := by
  intro i hi j hj h
  have hSame := congrArg Fin.val h
  rw [phys_val, phys_val] at hSame
  omega

theorem phys_surjective (x : X87) (p : Fin 8) : ∃ i < 8, x.phys i = p := by
  have hp := p.isLt
  refine ⟨(p.val + 8 - x.top % 8) % 8, Nat.mod_lt _ (by decide), Fin.ext ?_⟩
  rw [phys_val]
  omega

theorem tagAt_lane (tw : U16) (j : Nat) : tagAt tw j = (lane 2 j tw).setWidth 16 := by
  refine eq_of_getLsbD_eq fun k hk => ?_
  have hMask : (0b11 : U16).getLsbD k = decide (k < 2) := by
    rw [show (0b11 : U16) = BitVec.ofNat 16 (2 ^ 2 - 1) by decide, getLsbD_ofNat, Nat.testBit_two_pow_sub_one]
    simp [hk]
  rw [tagAt, getLsbD_and, getLsbD_ushiftRight, hMask, getLsbD_setWidth, getLsbD_lane, Bool.and_comm, decide_eq_true hk, Bool.true_and]

theorem getLsbD_abridged (full : U16) {j : Nat} (hj : j < 8) : (abridgedFtw full).getLsbD j = decide (tagAt full j ≠ 0b11) := by
  have hSits : ∀ i < 8, Sits i (BitVec.ofBool (decide (tagAt full i ≠ 0b11))) (if tagAt full i ≠ 0b11 then (1 : U8) <<< i else 0) := by
    intro i _ k hk
    rw [getLsbD_ofBool]
    by_cases hTag : tagAt full i ≠ 0b11
    · rw [if_pos hTag, decide_eq_true hTag, show (1 : U8) = BitVec.twoPow 8 0 by decide, getLsbD_shiftLeft, getLsbD_twoPow, Bool.eq_iff_iff]
      simp only [Bool.and_eq_true, Bool.not_eq_true', decide_eq_true_eq, decide_eq_false_iff_not, Nat.mul_one, and_true]
      constructor
      · rintro ⟨⟨-, hLow⟩, -, hHere⟩
        omega
      · rintro ⟨⟨hLow, hHigh⟩, -⟩
        omega
    · rw [if_neg hTag, decide_eq_false hTag]
      simp
  have hLane := congrArg (BitVec.getLsbD · 0) (lane_gather hSits (by decide) hj)
  rw [getLsbD_lane, getLsbD_ofBool, Nat.mul_one, Nat.add_zero] at hLane
  exact hLane.trans (Bool.true_and _)

theorem bit_eq_zero_iff (ftw : U8) {j : Nat} (hj : j < 8) : ftw &&& ((1 : U8) <<< j) = 0 ↔ ftw.getLsbD j = false := by
  have hBit := and_twoPow_ne_zero ftw hj
  rw [twoPow_eq] at hBit
  rw [← hBit]
  simp

theorem fullTag_ne (v : U128) : ((fullTag v).setWidth 2).setWidth 16 ≠ (0b11 : U16) := by
  unfold fullTag
  dsimp only
  split
  · decide
  · split <;> decide

theorem restoredTag_le (ftw : U8) (p : Fin 8) (v : U128) : restoredTag ftw p v &&& 0b11 = restoredTag ftw p v := by
  unfold restoredTag fullTag
  dsimp only
  split
  · rfl
  · split
    · rfl
    · split <;> rfl

theorem abridged_restored (x : X87) (full : U16) (v : Nat → U128) :
    abridgedFtw (gather 8 fun i => (restoredTag (abridgedFtw full) (x.phys i) (v i) &&& 0b11) <<< ((x.phys i).val * 2)) = abridgedFtw full := by
  have hHigh : ∀ (t : U16) (k : Nat), 2 ≤ k → (t &&& 0b11).getLsbD k = false := by
    intro t k hk
    rw [show (0b11 : U16) = BitVec.ofNat 16 (2 ^ 2 - 1) by decide, getLsbD_and, getLsbD_ofNat, Nat.testBit_two_pow_sub_one]
    simp [show ¬k < 2 by omega]
  refine eq_of_getLsbD_eq fun j hj => ?_
  obtain ⟨i, hi, hPhys⟩ := phys_surjective x ⟨j, hj⟩
  have hVal : (x.phys i).val = j := congrArg Fin.val hPhys
  have hSits : ∀ i < 8, Sits (x.phys i).val ((restoredTag (abridgedFtw full) (x.phys i) (v i) &&& 0b11).setWidth 2)
      ((restoredTag (abridgedFtw full) (x.phys i) (v i) &&& 0b11) <<< ((x.phys i).val * 2)) :=
    fun i _ => sits_shiftLeft (hHigh _) (x.phys i).val
  have hLane := @lane_gather_at _ _ _ _ _ (fun i => (x.phys i).val) _ hSits (fun i hi j hj h => phys_injective x i hi j hj (Fin.ext h)) hi
    (by omega)
  rw [hVal] at hLane
  rw [getLsbD_abridged _ hj, getLsbD_abridged full hj, tagAt_lane, hLane, restoredTag_le]
  unfold restoredTag
  rw [hPhys]
  refine decide_eq_decide.mpr ?_
  split
  · rename_i hEmpty
    rw [bit_eq_zero_iff _ hj, getLsbD_abridged full hj, decide_eq_false_iff_not] at hEmpty
    exact iff_of_false (by decide) hEmpty
  · rename_i hTaken
    rw [bit_eq_zero_iff _ hj, getLsbD_abridged full hj, decide_eq_false_iff_not, not_not] at hTaken
    exact iff_of_true (fullTag_ne _) hTaken

end Tags

/-! ## What comes back -/

/-- The registers of the x87 unit, each to its 80 bits and the tags to the one bit that is kept of them. -/
structure SameX87 (x y : X87) : Prop where
  cw : x.cw = y.cw
  sw : x.sw = y.sw
  tags : abridgedFtw x.tw = abridgedFtw y.tw
  stack : ∀ i, (x.st i).setWidth 80 = (y.st i).setWidth 80

def SameUpTo (n : Nat) (x below above : Fin 16 → U128) : Prop := ∀ p : Fin 16, x p = if p.val < n then below p else above p

/-- The components of the mask are those of `s`, all else is as in `t`. -/
structure Restored (s t r : Interpreter) (features : U64) : Prop where
  x87 : if features &&& 1 ≠ 0 then SameX87 r.state.x87 s.state.x87 else r.state.x87 = t.state.x87
  mxcsr : r.mxcsr = if features &&& 2 ≠ 0 then s.mxcsr else t.mxcsr
  xmm : SameUpTo (if features &&& 2 ≠ 0 then s.nxmm else 0) r.state.xmm s.state.xmm t.state.xmm
  avx : SameUpTo (if features &&& 4 ≠ 0 then s.nxmm else 0) r.state.ymmHi s.state.ymmHi t.state.ymmHi
  rest : r.state = { t.state with x87 := r.state.x87, xmm := r.state.xmm, ymmHi := r.state.ymmHi }
  bits : r.bits = t.bits
  xcr0 : r.xcr0 = t.xcr0

section Components

variable {s t : Interpreter} {rexw rexw' : Bool}

theorem fill_regs {n : Nat} (hn : n ≤ 16) (x : Fin 16 → U128) (st : Fin 16 → U128) :
    SameUpTo n (fill n (Fin.ofNat 16) (fun i => x (Fin.ofNat 16 i)) st) x st := by
  have hSelf : ∀ i < 16, (Fin.ofNat 16 i).val = i := fun i hi => Nat.mod_eq_of_lt hi
  intro p
  split
  · rename_i hp
    have hPlace : Fin.ofNat 16 p.val = p := Fin.ext (hSelf p.val p.isLt)
    have hInj : ∀ i < n, ∀ j < n, Fin.ofNat 16 i = Fin.ofNat 16 j → i = j := fun i hi j hj h => by
      rw [← hSelf i (by omega), ← hSelf j (by omega), h]
    have hHere : fill n (Fin.ofNat 16) (fun i => x (Fin.ofNat 16 i)) st (Fin.ofNat 16 p.val) = x (Fin.ofNat 16 p.val) := fill_here hInj hp
    rwa [hPlace] at hHere
  · rename_i hp
    refine fill_elsewhere fun i hi hSame => hp ?_
    rw [← hSame, hSelf i (by omega)]
    exact hi

theorem restoredX87_stack (x : X87) (buf : List U8) (rexw : Bool) :
    (restoreX87 x buf rexw).st = fill 8 (restoreX87 x buf rexw).phys (slotOf buf) x.st := by
  unfold restoreX87 restorePointers
  cases rexw <;> rfl

theorem restoredX87_tags (x : X87) (buf : List U8) (rexw : Bool) :
    (restoreX87 x buf rexw).tw = gather 8 fun i =>
      (restoredTag ((fromLe (field buf 4 1)).setWidth 8) ((restoreX87 x buf rexw).phys i) (slotOf buf i) &&& 0b11) <<<
        (((restoreX87 x buf rexw).phys i).val * 2) := by
  unfold restoreX87 restorePointers
  cases rexw <;> rfl

theorem restoreX87_area (s : Interpreter) (x : X87) (rexw rexw' : Bool) :
    SameX87 (restoreX87 x (s.buildFxsaveArea rexw) rexw') s.state.x87 := by
  have hParts : ∀ off bs, (off, bs) ∈ s.fxsaveParts rexw → field (s.buildFxsaveArea rexw) off bs.length = bs := fun _ _ hp => field_area hp
  have hCw := hParts 0 (toLe 2 (s.state.x87.cw.setWidth 64)) (by simp [Interpreter.fxsaveParts])
  have hSw := hParts 2 (toLe 2 (s.state.x87.sw.setWidth 64)) (by simp [Interpreter.fxsaveParts])
  have hTags := hParts 4 [abridgedFtw s.state.x87.tw] (by simp [Interpreter.fxsaveParts])
  have hStack : ∀ i < 8, field (s.buildFxsaveArea rexw) (32 + i * 16) 10 = (toLe128 (s.state.x87.st (s.state.x87.phys i))).take 10 := by
    intro i hi
    have hSlot := hParts (32 + i * 16) ((toLe128 (s.state.x87.st (s.state.x87.phys i))).take 10) (by
      simp only [Interpreter.fxsaveParts, List.mem_append, List.mem_map, List.mem_range]
      exact .inl (.inr ⟨i, hi, rfl⟩))
    rw [length_take, length_toLe128] at hSlot
    exact hSlot
  rw [length_toLe] at hCw hSw
  have hStatus : (restoreX87 x (s.buildFxsaveArea rexw) rexw').sw = s.state.x87.sw := by
    have hHere : (restoreX87 x (s.buildFxsaveArea rexw) rexw').sw = (fromLe (field (s.buildFxsaveArea rexw) 2 2)).setWidth 16 := by
      unfold restoreX87 restorePointers
      cases rexw' <;> rfl
    rw [hHere, hSw, fromLe_toLe_setWidth (by decide) (by decide)]
  have hPhys : (restoreX87 x (s.buildFxsaveArea rexw) rexw').phys = s.state.x87.phys := by
    funext i
    unfold X87.phys X87.top
    rw [hStatus]
  refine ⟨?_, hStatus, ?_, fun p => ?_⟩
  · have hHere : (restoreX87 x (s.buildFxsaveArea rexw) rexw').cw = (fromLe (field (s.buildFxsaveArea rexw) 0 2)).setWidth 16 := by
      unfold restoreX87 restorePointers
      cases rexw' <;> rfl
    rw [hHere, hCw, fromLe_toLe_setWidth (by decide) (by decide)]
  · have hByte : (fromLe (field (s.buildFxsaveArea rexw) 4 1)).setWidth 8 = abridgedFtw s.state.x87.tw := by
      rw [show field (s.buildFxsaveArea rexw) 4 1 = [abridgedFtw s.state.x87.tw] from hTags]
      simp [fromLe]
    rw [restoredX87_tags, hByte]
    exact abridged_restored _ _ _
  · obtain ⟨i, hi, rfl⟩ := phys_surjective s.state.x87 p
    rw [restoredX87_stack, hPhys, fill_here (phys_injective _) hi]
    exact setWidth_slot (hStack i hi)

theorem restoreMxcsr_area (s t : Interpreter) (rexw : Bool) : (t.restoreMxcsr (s.buildFxsaveArea rexw)).mxcsr = s.mxcsr := by
  have hPart : (24, toLe 4 (s.mxcsr.setWidth 64)) ∈ s.fxsaveParts rexw := by simp [Interpreter.fxsaveParts]
  have hField := field_area hPart
  rw [length_toLe] at hField
  unfold Interpreter.restoreMxcsr Interpreter.setMxcsr
  rw [hField, fromLe_toLe_setWidth (by decide) (by decide)]
  exact s.masked

theorem restoreXmm_area (hMode : t.nxmm = s.nxmm) (rexw : Bool) :
    SameUpTo s.nxmm (t.restoreXmmComponent (s.buildFxsaveArea rexw)).state.xmm s.state.xmm t.state.xmm := by
  have hFill : (t.restoreXmmComponent (s.buildFxsaveArea rexw)).state.xmm =
      fill s.nxmm (Fin.ofNat 16) (fun i => s.state.xmm (Fin.ofNat 16 i)) t.state.xmm := by
    change fill t.nxmm (Fin.ofNat 16) (fun i => fromLe128 (field (s.buildFxsaveArea rexw) (160 + i * 16) 16)) t.state.xmm = _
    rw [hMode]
    refine fill_congr fun i hi => ?_
    have hPart : (160 + i * 16, toLe128 (s.state.xmm (Fin.ofNat 16 i))) ∈ s.fxsaveParts rexw := by
      simp only [Interpreter.fxsaveParts, List.mem_append, List.mem_map, List.mem_range]
      exact .inr ⟨i, hi, rfl⟩
    have hField := field_area hPart
    rw [length_toLe128] at hField
    rw [hField, fromLe128_toLe128]
  rw [hFill]
  exact fill_regs (by rcases nxmm_cases s with h | h <;> omega) _ _

end Components

/-! ## What is written -/

section Writing

variable {c c' : Core} {addr : U64} {rexw : Bool}

def xsaveParts (self : Interpreter) (rexw : Bool) (header : U64) : List (Nat × List U8) :=
  [(0, self.buildFxsaveArea rexw)] ++
    (if self.xsaveRfbm &&& 4 ≠ 0 then (List.range self.nxmm).map fun i => (576 + i * 16, toLe128 (self.state.ymmHi (Fin.ofNat 16 i))) else []) ++
    [(512, toLe 8 header)]

def placed (addr : U64) (parts : List (Nat × List U8)) : List (U64 × List U8) := parts.map fun p => (addr + BitVec.ofNat 64 p.1, p.2)

def xstateBv (old rfbm : U64) : U64 := (old &&& ~~~rfbm) ||| (rfbm &&& XCR0_SUPPORTED)

theorem avxAddr_eq (addr : U64) (i : Nat) : avxAddr addr i = addr + BitVec.ofNat 64 (576 + i * 16) := by
  unfold avxAddr
  rw [BitVec.add_assoc, BitVec.ofNat_add, BitVec.ofNat_mul]
  rfl

variable {bs : List U8}

theorem readBytes_run {n : Nat} (h : c.mem.read addr n = .ok bs) : readBytes addr n c = some (.ok bs, c) :=
  step_of_ok (by rw [h]; rfl)

theorem readBytes_ok {n : Nat} (h : readBytes addr n c = some (.ok bs, c')) : c.mem.read addr n = .ok bs ∧ c' = c := by
  have hStep := step_ok_run h
  cases hRead : c.mem.read addr n with
  | error e =>
    rw [hRead] at hStep
    cases hStep
  | ok bs' =>
    rw [hRead] at hStep
    cases hStep
    exact ⟨rfl, rfl⟩

theorem writeBytes_ok (h : writeBytes addr bs c = some (.ok (), c')) : c.mem.write addr bs = .ok c'.mem ∧ c'.cpu = c.cpu := by
  have hStep := step_ok_run h
  cases hWrite : c.mem.write addr bs with
  | error e =>
    rw [hWrite] at hStep
    cases hStep
  | ok mem =>
    rw [hWrite] at hStep
    cases hStep
    exact ⟨rfl, rfl⟩

theorem each_writes {f : Nat → U64} {g : Nat → List U8} {is : List Nat} (h : each (fun i => writeBytes (f i) (g i)) is c = some (.ok (), c')) :
    VirtualMemory.writeAll (is.map fun i => (f i, g i)) c.mem = .ok c'.mem ∧ c'.cpu = c.cpu := by
  induction is generalizing c with
  | nil =>
    cases h
    exact ⟨rfl, rfl⟩
  | cons i is ih =>
    obtain ⟨_, mid, hWrite, hThen⟩ := bind_ok_run h
    obtain ⟨hHere, hCpu⟩ := writeBytes_ok hWrite
    obtain ⟨hRest, hCpu'⟩ := ih hThen
    exact ⟨(VirtualMemory.writeAll_of_write hHere).trans hRest, hCpu'.trans hCpu⟩

theorem writeAvx_ok (h : writeAvxComponent addr c = some (.ok (), c')) :
    VirtualMemory.writeAll (placed addr ((List.range c.cpu.nxmm).map fun i => (576 + i * 16, toLe128 (c.cpu.state.ymmHi (Fin.ofNat 16 i))))) c.mem =
      .ok c'.mem ∧ c'.cpu = c.cpu := by
  obtain ⟨_, _, hGet, hEach⟩ := bind_ok_run h
  cases hGet
  obtain ⟨hAll, hCpu⟩ := each_writes hEach
  refine ⟨?_, hCpu⟩
  rw [placed, map_map]
  simp only [avxAddr_eq] at hAll
  exact hAll

theorem xsaveHeader_ok {rfbm : U64} (h : xsaveHeader addr rfbm c = some (.ok (), c')) :
    ∃ old, VirtualMemory.writeAll (placed addr [(512, toLe 8 (xstateBv old rfbm))]) c.mem = .ok c'.mem ∧ c'.cpu = c.cpu := by
  obtain ⟨bs, mid, hRead, hThen⟩ := bind_ok_run h
  obtain ⟨-, rfl⟩ := readBytes_ok hRead
  obtain ⟨hWrite, hCpu⟩ := writeBytes_ok hThen
  refine ⟨fromLe bs, ?_, hCpu⟩
  rw [show (fromLe bs &&& ~~~rfbm) ||| (rfbm &&& XCR0_SUPPORTED) = xstateBv (fromLe bs) rfbm from rfl] at hWrite
  generalize toLe 8 (xstateBv (fromLe bs) rfbm) = bytes at hWrite ⊢
  exact VirtualMemory.writeAll_of_write (p := (addr + 512, bytes)) hWrite

theorem xsave_ok (h : xsave addr rexw c = some (.ok (), c')) :
    ∃ old, VirtualMemory.writeAll (placed addr (xsaveParts c.cpu rexw (xstateBv old c.cpu.xsaveRfbm))) c.mem = .ok c'.mem ∧ c'.cpu = c.cpu := by
  obtain ⟨_, _, hGet, hThen⟩ := bind_ok_run h
  cases hGet
  obtain ⟨_, c₁, hArea, hThen⟩ := bind_ok_run hThen
  obtain ⟨hWrite, hCpu⟩ := writeBytes_ok hArea
  have hFirst : VirtualMemory.writeAll (placed addr [(0, c.cpu.buildFxsaveArea rexw)]) c.mem = .ok c₁.mem := by
    have hHere : c.mem.write (addr + BitVec.ofNat 64 0) (c.cpu.buildFxsaveArea rexw) = .ok c₁.mem := by
      rw [show addr + BitVec.ofNat 64 0 = addr from BitVec.add_zero addr]
      exact hWrite
    rw [placed, map_singleton, VirtualMemory.writeAll_of_write hHere]
    rfl
  unfold xsaveParts
  split at hThen
  · rename_i hAvx
    obtain ⟨_, c₂, hUpper, hHeader⟩ := bind_ok_run hThen
    obtain ⟨hAll, hCpu'⟩ := writeAvx_ok hUpper
    obtain ⟨old, hLast, hCpu''⟩ := xsaveHeader_ok hHeader
    refine ⟨old, ?_, hCpu''.trans (hCpu'.trans hCpu)⟩
    rw [if_pos hAvx, placed, map_append, map_append]
    rw [hCpu] at hAll
    exact VirtualMemory.writeAll_append (VirtualMemory.writeAll_append hFirst hAll) hLast
  · rename_i hNone
    obtain ⟨old, hLast, hCpu'⟩ := xsaveHeader_ok hThen
    refine ⟨old, ?_, hCpu'.trans hCpu⟩
    rw [if_neg hNone, append_nil, placed, map_append]
    exact VirtualMemory.writeAll_append hFirst hLast

def xsaveBounds (n : Nat) (avx : Bool) : List (Nat × Nat) :=
  [(0, 512)] ++ (if avx then (List.range n).map fun i => (576 + i * 16, 16) else []) ++ [(512, 8)]

theorem xsaveParts_bounds (self : Interpreter) (rexw : Bool) (header : U64) :
    ((xsaveParts self rexw header).map fun p => (p.1, p.2.length)) = xsaveBounds self.nxmm (self.xsaveRfbm &&& 4 ≠ 0) := by
  unfold xsaveParts xsaveBounds
  by_cases hAvx : self.xsaveRfbm &&& 4 ≠ 0
  · rw [if_pos hAvx, if_pos (decide_eq_true hAvx)]
    simp [length_area, Function.comp_def]
  · rw [if_neg hAvx, if_neg (by rw [decide_eq_false hAvx]; decide)]
    simp [length_area]

theorem xsaveBounds_fit (self : Interpreter) (avx : Bool) : ∀ b ∈ xsaveBounds self.nxmm avx, b.1 + b.2 ≤ 832 := by
  rcases nxmm_cases self with h | h <;> rw [h] <;> cases avx <;> decide

theorem xsaveBounds_apart (self : Interpreter) (avx : Bool) :
    (xsaveBounds self.nxmm avx).Pairwise fun b b' => b.1 + b.2 ≤ b'.1 ∨ b'.1 + b'.2 ≤ b.1 := by
  rcases nxmm_cases self with h | h <;> rw [h] <;> cases avx <;> decide

theorem xsaveParts_apart (self : Interpreter) (rexw : Bool) (header addr : U64) :
    (placed addr (xsaveParts self rexw header)).Pairwise fun p q => Apart q.1 q.2.length p.1 p.2.length := by
  have hFit : ∀ p ∈ xsaveParts self rexw header, p.1 + p.2.length ≤ 832 := by
    intro p hp
    refine xsaveBounds_fit self (self.xsaveRfbm &&& 4 ≠ 0) (p.1, p.2.length) ?_
    rw [← xsaveParts_bounds self rexw header]
    exact mem_map_of_mem hp
  have hApart := xsaveBounds_apart self (self.xsaveRfbm &&& 4 ≠ 0)
  rw [← xsaveParts_bounds self rexw header, pairwise_map] at hApart
  rw [placed, pairwise_map]
  refine hApart.imp_of_mem fun {p q} hp hq h => ?_
  have hEnd := hFit p hp
  have hEnd' := hFit q hq
  exact VirtualMemory.apart_at addr (n := q.2.length) (l := p.2.length) h.symm (by omega) (by omega)

end Writing

/-! ## There and back -/

def Unchanged (addr : U64) (bounds : List (Nat × Nat)) (m m' : VirtualMemory) : Prop :=
  ∀ b ∈ bounds, ∃ bs, m.read (addr + BitVec.ofNat 64 b.1) b.2 = .ok bs ∧ m'.read (addr + BitVec.ofNat 64 b.1) b.2 = .ok bs

section Back

variable {s t : Interpreter} {c c' : Core} {addr rfbm bv : U64} {rexw rexw' : Bool}

theorem nxmm_of_bits (h : t.bits = s.bits) : t.nxmm = s.nxmm := by
  unfold Interpreter.nxmm
  rw [h]

theorem xrstorX87_area (s t : Interpreter) (rexw rexw' : Bool) (h : rfbm &&& 1 ≠ 0 → bv &&& 1 ≠ 0) :
    ∃ x, (if rfbm &&& 1 ≠ 0 then t.xrstorX87 (s.buildFxsaveArea rexw) bv rexw' else t) = t.setX87 x ∧
      if rfbm &&& 1 ≠ 0 then SameX87 x s.state.x87 else x = t.state.x87 := by
  by_cases hX87 : rfbm &&& 1 ≠ 0
  · refine ⟨restoreX87 t.state.x87 (s.buildFxsaveArea rexw) rexw', ?_, ?_⟩
    · rw [if_pos hX87, Interpreter.xrstorX87, if_pos (h hX87)]
      rfl
    · rw [if_pos hX87]
      exact restoreX87_area s t.state.x87 rexw rexw'
  · refine ⟨t.state.x87, ?_, ?_⟩
    · rw [if_neg hX87]
      rfl
    · rw [if_neg hX87]

theorem setMxcsr_self (t : Interpreter) : t.setMxcsr t.mxcsr = t := by
  cases t with
  | mk state bits mxcsr xcr0 masked =>
    unfold Interpreter.setMxcsr
    simp only [masked]

theorem xrstorSse_area (hMode : t.bits = s.bits) (rexw : Bool) (h : rfbm &&& 2 ≠ 0 → bv &&& 2 ≠ 0) :
    ∃ v xmm, (if rfbm &&& 2 ≠ 0 then t.xrstorSse (s.buildFxsaveArea rexw) bv else t) = (t.setMxcsr v).setXmm xmm ∧
      v &&& MXCSR_MASK = (if rfbm &&& 2 ≠ 0 then s.mxcsr else t.mxcsr) ∧
      SameUpTo (if rfbm &&& 2 ≠ 0 then s.nxmm else 0) xmm s.state.xmm t.state.xmm := by
  by_cases hSse : rfbm &&& 2 ≠ 0
  · rw [if_pos hSse, if_pos hSse, if_pos hSse, Interpreter.xrstorSse, if_pos (h hSse)]
    exact ⟨_, _, rfl, restoreMxcsr_area s t rexw,
      restoreXmm_area (t := t.restoreMxcsr (s.buildFxsaveArea rexw)) (nxmm_of_bits hMode) rexw⟩
  · rw [if_neg hSse, if_neg hSse, if_neg hSse]
    refine ⟨t.mxcsr, t.state.xmm, ?_, t.masked, fun p => (if_neg (Nat.not_lt_zero _)).symm⟩
    rw [setMxcsr_self]
    rfl

theorem xrstor_restored (hMode : t.bits = s.bits) (h1 : rfbm &&& 1 ≠ 0 → bv &&& 1 ≠ 0) (h2 : rfbm &&& 2 ≠ 0 → bv &&& 2 ≠ 0) {ymm : Fin 16 → U128}
    (hAvx : SameUpTo (if rfbm &&& 4 ≠ 0 then s.nxmm else 0) ymm s.state.ymmHi t.state.ymmHi) :
    Restored s t ((t.xrstorApply (s.buildFxsaveArea rexw) rfbm bv rexw').setYmmHi ymm) rfbm := by
  obtain ⟨x, hFirst, hX87⟩ := xrstorX87_area s t rexw rexw' h1
  obtain ⟨v, xmm, hSecond, hMxcsr, hXmm⟩ := xrstorSse_area (t := t.setX87 x) hMode rexw h2
  unfold Interpreter.xrstorApply
  dsimp only
  rw [hFirst, hSecond]
  exact ⟨hX87, hMxcsr, hXmm, hAvx, rfl, rfl, rfl⟩

theorem restoreFxsaveArea_eq (self : Interpreter) (buf : List U8) (rexw : Bool) :
    self.restoreFxsaveArea buf rexw = (self.xrstorApply buf 3 3 rexw).setYmmHi self.state.ymmHi := rfl

def Core.withYmmHi (c : Core) (ymmHi : Fin 16 → U128) : Core := { c with cpu := c.cpu.setYmmHi ymmHi }

theorem each_reads {g : Nat → List U8} {is : List Nat} (h : ∀ i ∈ is, c.mem.read (avxAddr addr i) 16 = .ok (g i)) :
    each (fun i => do
      let b ← readBytes (avxAddr addr i) 16
      onCpu fun cpu => cpu.setYmmHi (Function.update cpu.state.ymmHi (Fin.ofNat 16 i) (fromLe128 b))) is c =
    some (.ok (), c.withYmmHi (is.foldl (fun st i => Function.update st (Fin.ofNat 16 i) (fromLe128 (g i))) c.cpu.state.ymmHi)) := by
  induction is generalizing c with
  | nil => rfl
  | cons i is ih =>
    let next := c.withYmmHi (Function.update c.cpu.state.ymmHi (Fin.ofNat 16 i) (fromLe128 (g i)))
    have hHere : (do
        let b ← readBytes (avxAddr addr i) 16
        onCpu fun cpu => cpu.setYmmHi (Function.update cpu.state.ymmHi (Fin.ofNat 16 i) (fromLe128 b))) c = some (.ok (), next) := by
      rw [bind_of_ok (readBytes_run (h i List.mem_cons_self))]
      rfl
    rw [each, bind_of_ok hHere, ih (c := next) fun j hj => h j (mem_cons_of_mem _ hj)]
    rfl

theorem readAvx_run {g : Nat → List U8} (h : ∀ i < c.cpu.nxmm, c.mem.read (avxAddr addr i) 16 = .ok (g i)) :
    readAvxComponent addr c = some (.ok (), c.withYmmHi (fill c.cpu.nxmm (Fin.ofNat 16) (fun i => fromLe128 (g i)) c.cpu.state.ymmHi)) := by
  unfold readAvxComponent
  rw [bind_of_ok (rfl : Fallible.get c = some (.ok c, c))]
  exact each_reads fun i hi => h i (List.mem_range.mp hi)

theorem feature_kept {k : Nat} (hk : k < 3) (old rfbm : U64) (h : rfbm &&& BitVec.twoPow 64 k ≠ 0) : xstateBv old rfbm &&& BitVec.twoPow 64 k ≠ 0 := by
  have hIff : ∀ v : U64, v &&& BitVec.twoPow 64 k ≠ 0 ↔ v.getLsbD k = true := fun v => by
    rw [← and_twoPow_ne_zero v (show k < 64 by omega), bne_iff_ne]
  rw [hIff] at h ⊢
  have hSupported : XCR0_SUPPORTED.getLsbD k = true := (show ∀ k < 3, XCR0_SUPPORTED.getLsbD k = true by decide) k hk
  rw [xstateBv, getLsbD_or, getLsbD_and, getLsbD_and, h, hSupported]
  simp

inductive SaveForm where
  | fxsave
  | xsave
  deriving DecidableEq

namespace SaveForm

def saveDigit : SaveForm → U8
  | fxsave => 0
  | xsave => 4

def restoreDigit : SaveForm → U8
  | fxsave => 1
  | xsave => 5

def features (self : Interpreter) : SaveForm → U64
  | fxsave => 3
  | xsave => self.xsaveRfbm

def bounds (self : Interpreter) : SaveForm → List (Nat × Nat)
  | fxsave => [(0, 512)]
  | xsave => xsaveBounds self.nxmm (self.xsaveRfbm &&& 4 ≠ 0)

end SaveForm

def Encodes (ctx : Ctx) (digit : U8) : Prop := ctx.reg &&& 7 = digit ∧ ∃ base disp ripRel, ctx.rm = .Mem base disp ripRel

theorem execute_of_encodes {ctx : Ctx} (form : SaveForm) :
    (Encodes ctx form.saveDigit → execute0fAe ctx = if form = .fxsave then fxsave ctx.rmAddr ctx.pfx.w else xsave ctx.rmAddr ctx.pfx.w) ∧
      (Encodes ctx form.restoreDigit → execute0fAe ctx = if form = .fxsave then fxrstor ctx.rmAddr ctx.pfx.w else xrstor ctx.rmAddr ctx.pfx.w) := by
  constructor
  · rintro ⟨hDigit, base, disp, ripRel, hMem⟩
    unfold execute0fAe
    rw [hDigit, hMem]
    cases form <;> rfl
  · rintro ⟨hDigit, base, disp, ripRel, hMem⟩
    unfold execute0fAe
    rw [hDigit, hMem]
    cases form <;> rfl

theorem fxrstor_back (hWf : VirtualMemory.WellFormed c.mem) (hSave : fxsave addr rexw c = some (.ok (), c')) {d : Core} (hMode : d.cpu.bits = c.cpu.bits)
    (hArea : Unchanged addr [(0, 512)] c'.mem d.mem) :
    ∃ r, fxrstor addr rexw' d = some (.ok (), { d with cpu := r }) ∧ Restored c.cpu d.cpu r 3 := by
  obtain ⟨_, _, hGet, hWrite⟩ := bind_ok_run hSave
  cases hGet
  obtain ⟨hMem, -⟩ := writeBytes_ok hWrite
  obtain ⟨bs, hThere, hHere⟩ := hArea (0, 512) List.mem_cons_self
  rw [show addr + BitVec.ofNat 64 (0, 512).1 = addr from BitVec.add_zero addr] at hThere hHere
  have hLength := length_area c.cpu rexw
  have hSame : bs = c.cpu.buildFxsaveArea rexw := VirtualMemory.read_written hWf hMem (by rw [hLength]; exact hThere)
  refine ⟨d.cpu.restoreFxsaveArea bs rexw', ?_, ?_⟩
  · unfold fxrstor
    rw [bind_of_ok (readBytes_run hHere)]
    rfl
  · rw [hSame, restoreFxsaveArea_eq]
    refine xrstor_restored hMode (fun _ => by decide) (fun _ => by decide) fun p => (if_neg ?_).symm
    rw [if_neg (by decide)]
    exact Nat.not_lt_zero _

theorem xrstor_back (hWf : VirtualMemory.WellFormed c.mem) (hSave : xsave addr rexw c = some (.ok (), c')) {d : Core} (hMode : d.cpu.bits = c.cpu.bits)
    (hMask : d.cpu.xsaveRfbm = c.cpu.xsaveRfbm)
    (hArea : Unchanged addr (xsaveBounds c.cpu.nxmm (c.cpu.xsaveRfbm &&& 4 ≠ 0)) c'.mem d.mem) :
    ∃ r, xrstor addr rexw' d = some (.ok (), { d with cpu := r }) ∧ Restored c.cpu d.cpu r c.cpu.xsaveRfbm := by
  obtain ⟨old, hAll, -⟩ := xsave_ok hSave
  have hCount := nxmm_of_bits hMode
  -- each part is read as it has been written
  have hPart : ∀ off bs, (off, bs) ∈ xsaveParts c.cpu rexw (xstateBv old c.cpu.xsaveRfbm) → d.mem.read (addr + BitVec.ofNat 64 off) bs.length = .ok bs := by
    intro off bs hp
    have hBound : (off, bs.length) ∈ xsaveBounds c.cpu.nxmm (c.cpu.xsaveRfbm &&& 4 ≠ 0) := by
      rw [← xsaveParts_bounds c.cpu rexw (xstateBv old c.cpu.xsaveRfbm)]
      exact List.mem_map.mpr ⟨(off, bs), hp, rfl⟩
    obtain ⟨bs', hThere, hHere⟩ := hArea _ hBound
    have hSame : bs' = bs := VirtualMemory.writeAll_read hWf hAll (xsaveParts_apart c.cpu rexw _ addr) (addr + BitVec.ofNat 64 off, bs)
      (List.mem_map.mpr ⟨(off, bs), hp, rfl⟩) hThere
    rwa [hSame] at hHere
  have hArea := hPart 0 (c.cpu.buildFxsaveArea rexw) (by simp [xsaveParts])
  rw [length_area, show addr + BitVec.ofNat 64 0 = addr from BitVec.add_zero addr] at hArea
  have hHeader := hPart 512 (toLe 8 (xstateBv old c.cpu.xsaveRfbm)) (by simp [xsaveParts])
  rw [length_toLe] at hHeader
  have h1 : c.cpu.xsaveRfbm &&& 1 ≠ 0 → xstateBv old c.cpu.xsaveRfbm &&& 1 ≠ 0 := feature_kept (k := 0) (by decide) old c.cpu.xsaveRfbm
  have h2 : c.cpu.xsaveRfbm &&& 2 ≠ 0 → xstateBv old c.cpu.xsaveRfbm &&& 2 ≠ 0 := feature_kept (k := 1) (by decide) old c.cpu.xsaveRfbm
  have h4 : c.cpu.xsaveRfbm &&& 4 ≠ 0 → xstateBv old c.cpu.xsaveRfbm &&& 4 ≠ 0 := feature_kept (k := 2) (by decide) old c.cpu.xsaveRfbm
  have hHeaderRun : readBytes (addr + 512) 8 d = some (.ok (toLe 8 (xstateBv old c.cpu.xsaveRfbm)), d) := readBytes_run hHeader
  let applied : Core := { d with cpu := d.cpu.xrstorApply (c.cpu.buildFxsaveArea rexw) c.cpu.xsaveRfbm (xstateBv old c.cpu.xsaveRfbm) rexw' }
  obtain ⟨hYmm, hBits⟩ : applied.cpu.state.ymmHi = d.cpu.state.ymmHi ∧ applied.cpu.bits = d.cpu.bits := by
    obtain ⟨x, hFirst, -⟩ := xrstorX87_area c.cpu d.cpu rexw rexw' h1
    obtain ⟨v, xmm, hSecond, -⟩ := xrstorSse_area (t := d.cpu.setX87 x) hMode rexw h2
    change (d.cpu.xrstorApply _ _ _ _).state.ymmHi = _ ∧ (d.cpu.xrstorApply _ _ _ _).bits = _
    unfold Interpreter.xrstorApply
    dsimp only
    rw [hFirst, hSecond]
    exact ⟨rfl, rfl⟩
  unfold xrstor
  rw [bind_of_ok (rfl : Fallible.get d = some (.ok d, d))]
  dsimp only
  rw [bind_of_ok (readBytes_run hArea), bind_of_ok hHeaderRun, fromLe_toLe_eight, hMask, bind_of_ok (rfl : onCpu _ d = some (.ok (), applied))]
  by_cases hAvx : c.cpu.xsaveRfbm &&& 4 ≠ 0
  · have hUpper : ∀ i < applied.cpu.nxmm, applied.mem.read (avxAddr addr i) 16 = .ok (toLe128 (c.cpu.state.ymmHi (Fin.ofNat 16 i))) := by
      intro i hi
      have hRead := hPart (576 + i * 16) (toLe128 (c.cpu.state.ymmHi (Fin.ofNat 16 i))) (by
        rw [nxmm_of_bits hBits, hCount] at hi
        rw [xsaveParts, if_pos hAvx]
        simp only [List.mem_append, List.mem_map, List.mem_range]
        exact .inl (.inr ⟨i, hi, rfl⟩))
      rwa [length_toLe128, ← avxAddr_eq] at hRead
    rw [if_pos hAvx, if_pos (h4 hAvx), readAvx_run hUpper]
    refine ⟨_, rfl, ?_⟩
    refine xrstor_restored hMode h1 h2 ?_
    rw [if_pos hAvx, nxmm_of_bits hBits, hCount, hYmm, fill_congr fun i _ => fromLe128_toLe128 _]
    exact fill_regs (by rcases nxmm_cases c.cpu with h | h <;> omega) _ _
  · rw [if_neg hAvx]
    refine ⟨applied.cpu, rfl, ?_⟩
    have hAvxSame : SameUpTo (if c.cpu.xsaveRfbm &&& 4 ≠ 0 then c.cpu.nxmm else 0) d.cpu.state.ymmHi c.cpu.state.ymmHi d.cpu.state.ymmHi := fun p => by
      rw [if_neg hAvx, if_neg (Nat.not_lt_zero _)]
    have hSame := @xrstor_restored _ _ _ _ rexw rexw' hMode h1 h2 _ hAvxSame
    rwa [← hYmm] at hSame

/-- What has been saved comes back, whatever has become of the registers since, and nothing else does. -/
theorem save_restore (form : SaveForm) {ctx ctx' : Ctx} (hWf : VirtualMemory.WellFormed c.mem) (hSaves : Encodes ctx form.saveDigit)
    (hSave : execute0fAe ctx c = some (.ok (), c')) {d : Core} (hRestores : Encodes ctx' form.restoreDigit) (hAddr : ctx'.rmAddr = ctx.rmAddr)
    (hMode : d.cpu.bits = c.cpu.bits) (hMask : form.features d.cpu = form.features c.cpu)
    (hArea : Unchanged ctx.rmAddr (form.bounds c.cpu) c'.mem d.mem) :
    ∃ r, execute0fAe ctx' d = some (.ok (), { d with cpu := r }) ∧ Restored c.cpu d.cpu r (form.features c.cpu) := by
  rw [(execute_of_encodes form).1 hSaves] at hSave
  rw [(execute_of_encodes form).2 hRestores, hAddr]
  cases form with
  | fxsave => exact fxrstor_back hWf hSave hMode hArea
  | xsave => exact xrstor_back hWf hSave hMode hMask hArea

end Back

/-! ## A page at `0x1000` -/

theorem onePage_wellFormed : VirtualMemory.WellFormed onePage := by
  unfold onePage
  cases hMap : VirtualMemory.new.map true ⟨"data", 0x1000, 0x1000, Perm.RW⟩ with
  | error e => exact VirtualMemory.wellFormed_new
  | ok m =>
    obtain ⟨-, bytes, hInsert⟩ := VirtualMemory.map_ok hMap
    exact VirtualMemory.wellFormed_new.insert hInsert

def saveCore : Core := ⟨{ state := CpuState.setReg {} 0 7 }, onePage⟩

/-- `XSAVE [0x1000]` and `XRSTOR [0x1000]`. -/
def saveCtx (reg : U8) : Ctx := ⟨{}, 0x4008, reg, .Mem 0x1000 0 false, .B64⟩

def savedAll (out : Option (Except Stop Unit × Core)) : Option Bool :=
  out.map fun p => p.1.toOption.isSome && (xsaveBounds 16 true).all fun b => (p.2.mem.read (0x1000 + BitVec.ofNat 64 b.1) b.2).toOption.isSome

theorem save_restore_of_all : ∃ c' r, execute0fAe (saveCtx 4) saveCore = some (.ok (), c') ∧
    execute0fAe (saveCtx 5) { c' with cpu := saveCore.cpu.setX87 { sw := 0x3800 } } = some (.ok (), { c' with cpu := r }) ∧
    Restored saveCore.cpu (saveCore.cpu.setX87 { sw := 0x3800 }) r saveCore.cpu.xsaveRfbm := by
  have hAll : savedAll (execute0fAe (saveCtx 4) saveCore) = some true := by decide +kernel
  obtain ⟨⟨out, c'⟩, hRun, hReads⟩ := Option.map_eq_some_iff.mp hAll
  rw [Bool.and_eq_true, List.all_eq_true] at hReads
  cases out with
  | error e => cases hReads.1
  | ok u =>
    have hArea : Unchanged 0x1000 (xsaveBounds 16 true) c'.mem c'.mem := by
      intro b hb
      have hSome := hReads.2 b hb
      cases hRead : c'.mem.read (0x1000 + BitVec.ofNat 64 b.1) b.2 with
      | error e =>
        rw [hRead] at hSome
        cases hSome
      | ok bs => exact ⟨bs, rfl, rfl⟩
    obtain ⟨r, hBack, hRestored⟩ := @save_restore _ c' .xsave (saveCtx 4) (saveCtx 5)
      onePage_wellFormed ⟨rfl, _, _, _, rfl⟩ hRun { c' with cpu := saveCore.cpu.setX87 { sw := 0x3800 } } ⟨rfl, _, _, _, rfl⟩ rfl rfl rfl hArea
    exact ⟨c', r, hRun, hBack, hRestored⟩

end Interp

end Exemu
