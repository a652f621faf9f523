import Exemu.Jit.Shape

/-! # Every compiled block has the shape

One lemma for each emitter says what it needs to be known and what it makes known; `lower` is put
together from them, one case for each group of opcodes, and the compiler's loop from `lower`.
-/
namespace Exemu.Jit

open VirtualMemory (isUintSize)

/-- What a `Commit` reads is known. -/
def Commit.Reads (k : Known) : Commit → Prop
  | .None => True
  | .Flags => k.reg R_FA = true
  | .Gpr .. => k.reg R_VAL = true

theorem Commit.Reads.keeps {commit : Commit} {k l : Known} (hCommit : commit.Reads k) (h : k.Keeps l) :
    commit.Reads l := by
  cases commit with
  | None => trivial
  | Flags => exact h.reg _ (by decide) hCommit
  | Gpr => exact h.reg _ (by decide) hCommit

namespace Compiler

def known (c : Compiler) : Known := after .entry c.asm

structure Ready (c : Compiler) : Prop where
  body : ∀ target, Body c.slotBase target 0 .entry c.asm
  begun : begins c.asm = c.insns + 1
  links : c.linkTargets = []
  flags : c.known.reg R_FLAGS = true
  mask : c.known.reg R_MASK = true
  pending : Pending c.flags c.known
  before : Pending c.insnFlags c.known
  spilt : c.spilled = true → Spilt c.insnFlags c.known

structure Grew (c d : Compiler) : Prop where
  ready : Ready d
  insns : d.insns = c.insns
  slotBase : d.slotBase = c.slotBase
  mode : d.mode = c.mode
  keeps : c.known.Keeps d.known

theorem Ready.grew {c : Compiler} (h : Ready c) : Grew c c := ⟨h, rfl, rfl, rfl, .refl _⟩

theorem Grew.trans {c d e : Compiler} (hcd : Grew c d) (hde : Grew d e) : Grew c e where
  ready := hde.ready
  insns := hde.insns.trans hcd.insns
  slotBase := hde.slotBase.trans hcd.slotBase
  mode := hde.mode.trans hcd.mode
  keeps := hcd.keeps.trans hde.keeps

theorem known_emit (c : Compiler) (is : List Inst) : (c.emit is).known = after c.known is :=
  after_append _ _ _

theorem known_ops (c : Compiler) (os : List Op) : (c.ops os).known = flowOps c.known os :=
  (known_emit c _).trans (after_ops _ _)

section Emit

variable {c : Compiler}

theorem Ready.emit (h : Ready c) {is : List Inst} (hBegins : begins is = 0)
    (hKeeps : c.known.Keeps (after c.known is))
    (hBody : ∀ target, Body c.slotBase target (c.insns + 1) c.known is) : Grew c (c.emit is) := by
  have hKnown := known_emit c is
  have hReg : ∀ r, ¬ r ≤ 18 → c.known.reg r = true → (c.emit is).known.reg r = true := by
    rw [hKnown]
    exact hKeeps.reg
  refine ⟨⟨fun target => ?_, ?_, h.links, hReg _ (by decide) h.flags, hReg _ (by decide) h.mask, ?_,
    ?_, ?_⟩, rfl, rfl, rfl, by rwa [hKnown]⟩
  · refine body_append (h.body target) ?_
    rw [h.begun, Nat.zero_add]
    exact hBody target
  · exact (begins_append _ _).trans (by rw [hBegins, h.begun]; rfl)
  · rw [hKnown]
    exact h.pending.keeps hKeeps
  · rw [hKnown]
    exact h.before.keeps hKeeps
  · intro hSpilled
    rw [hKnown]
    exact (h.spilt hSpilled).keeps hKeeps

theorem Ready.ops (h : Ready c) (regs : List XReg) {os : List Op}
    (hRegs : ∀ r ∈ regs, c.known.reg r = true) (hFine : fineOps (.ofRegs regs) os = true) :
    Grew c (c.ops os) ∧
      ∀ r, (flowOps (.ofRegs regs) os).reg r = true → (c.ops os).known.reg r = true := by
  have hLe := Known.ofRegs_le regs hRegs
  have hFine' := fineOps_mono hLe hFine
  refine ⟨h.emit (begins_ops os) ?_ fun target => body_ops (seesOps_of_fine hFine'), fun r hr => ?_⟩
  · rw [after_ops]
    exact (le_flowOps hFine').keeps
  · rw [known_ops]
    exact (flowOps_mono hLe os).reg r hr

variable {slots : Option Nat} {target : Nat → Option U64} {k : Known} {f : Flags} {size : Nat} {commit : Commit}

theorem exit_shape {n retired : Nat} {fault : Bool} {os : List Op} (hPos : 0 < n) (hSees : seesOps k os = true)
    (hRip : (flowOps k os).reg T2 = true) (hFlags : (flowOps k os).reg R_FLAGS = true)
    (hRetired : retired + (if fault then 1 else 0) = n) :
    ExitCode.Shape slots target n k ⟨os, ⟨retired, fault, none, false⟩⟩ :=
  ⟨hPos, hSees, hRip, hFlags, hRetired, nofun, nofun, nofun⟩

theorem sees_settle (hFlags : k.reg R_FLAGS = true) (hMask : k.reg R_MASK = true) (hPend : Pending f k) (t : U64) :
    seesOps k (emitFlags f ++ [.movImm T2 t]) = true ∧
      (flowOps k (emitFlags f ++ [.movImm T2 t])).reg T2 = true ∧
      (flowOps k (emitFlags f ++ [.movImm T2 t])).reg R_FLAGS = true := by
  have hFine := fine_emitFlags hFlags hMask hPend
  have hLe := le_flowOps hFine
  refine ⟨?_, ?_, ?_⟩
  · rw [seesOps_append, seesOps_of_fine hFine]
    rfl
  · rw [flowOps_append]
    rfl
  · rw [flowOps_append]
    exact hLe.reg _ hFlags

theorem exitCode_shape {n retired : Nat} {fault : Bool} (hPos : 0 < n) (hFlags : k.reg R_FLAGS = true)
    (hMask : k.reg R_MASK = true) (hPend : Pending f k) (t : U64) (hRetired : retired + (if fault then 1 else 0) = n) :
    (exitCode f t retired fault).Shape slots target n k := by
  obtain ⟨hSees, hRip, hFlags⟩ := sees_settle hFlags hMask hPend t
  exact exit_shape hPos hSees hRip hFlags hRetired

theorem Ready.emitLoad (h : Ready c) (dst : XReg) (hDst : dst ≠ R_MASK) (hAddr : c.known.reg R_ADDR = true)
    (hSize : isUintSize size = true) :
    Grew c (c.emitLoad dst size) ∧ (c.emitLoad dst size).known.reg dst = true := by
  have hKeeps := Known.keeps_clobber c.known
  refine ⟨h.emit rfl (Known.keeps_loaded c.known dst) fun target => ?_, ?_⟩
  · exact ⟨hAddr, hDst, hSize, exitCode_shape (Nat.succ_pos _) (hKeeps.reg _ (by decide) h.flags)
      (hKeeps.reg _ (by decide) h.mask) (h.before.keeps hKeeps) _ rfl, rfl, trivial⟩
  · rw [Compiler.emitLoad, known_emit]
    simp [after, Inst.flow, Known.loaded, Known.set]

theorem known_unspill (hSpilt : Spilt f k) :
    (flowOps k (unspill f)).reg R_FLAGS = true ∧ Pending f (flowOps k (unspill f)) := by
  obtain ⟨hFlags, hRest⟩ := hSpilt
  by_cases hLive : f = .Live
  · subst hLive
    exact ⟨by simpa [unspill, flowOps, Op.flow, Known.set, R_FLAGS, R_FR] using hFlags, nofun⟩
  · obtain ⟨hR, hA, hB⟩ := hRest hLive
    refine ⟨?_, fun _ => ⟨?_, ?_, ?_⟩⟩ <;>
      simp [unspill, hLive, flowOps, Op.flow, Known.set, R_FLAGS, R_FR, R_FA, R_FB, hFlags, hR, hA, hB]

theorem mask_unspill (hMask : k.reg R_MASK = true) : (flowOps k (unspill f)).reg R_MASK = true := by
  by_cases hLive : f = .Live <;>
    simp [unspill, hLive, flowOps, Op.flow, Known.set, R_FLAGS, R_FR, R_FA, R_FB, R_MASK] <;>
    exact hMask

theorem sees_unspill (k : Known) (f : Flags) : seesOps k (unspill f) = true := by
  unfold unspill
  split <;> rfl

theorem Ready.faultStub (h : Ready c) (hKeeps : c.known.Keeps k) (target : Nat → Option U64) :
    c.faultStub.Shape c.slotBase target (c.insns + 1) k := by
  have hMask := hKeeps.reg _ (by decide) h.mask
  unfold Compiler.faultStub
  split <;> rename_i hSpilled
  · obtain ⟨hFlags, hPend⟩ := known_unspill ((h.spilt hSpilled).keeps hKeeps)
    obtain ⟨hSees, hRip, hFlags⟩ := sees_settle hFlags (mask_unspill hMask) hPend c.rip
    refine exit_shape (Nat.succ_pos _) ?_ ?_ ?_ rfl
    · rw [seesOps_append, sees_unspill]
      exact hSees
    · rw [flowOps_append]
      exact hRip
    · rw [flowOps_append]
      exact hFlags
  · exact exitCode_shape (Nat.succ_pos _) (hKeeps.reg _ (by decide) h.flags) hMask (h.before.keeps hKeeps) _ rfl

theorem fine_emitCommit (hCommit : commit.Reads k) : fineOps k (emitCommit commit) = true := by
  cases commit with
  | None => rfl
  | Flags => exact fineOps_mono (Known.ofRegs_le [R_FA] (by simpa [Commit.Reads] using hCommit)) rfl
  | Gpr idx size hasRex =>
    refine fineOps_mono (Known.ofRegs_le [R_VAL] (by simpa [Commit.Reads] using hCommit)) ?_
    simp only [emitCommit, storeGpr]
    split
    · rfl
    · split <;> rfl

theorem wrote_shape {n : Nat} {last : Op} (hPos : 0 < n) (hFlags : k.reg R_FLAGS = true) (hMask : k.reg R_MASK = true)
    (hPend : Pending f k) (hCommit : commit.Reads k) (hLast : ∀ l : Known, k.Le l → l.reg R_FLAGS = true →
      last.sees l = true ∧ (last.flow l).reg T2 = true ∧ (last.flow l).reg R_FLAGS = true) :
    ExitCode.Shape slots target n k ⟨emitCommit commit ++ emitFlags f ++ [last], ⟨n, false, none, false⟩⟩ := by
  have hCommitFine := fine_emitCommit hCommit
  have hLe := le_flowOps hCommitFine
  have hFlagsFine := fine_emitFlags (hLe.reg _ hFlags) (hLe.reg _ hMask) (hPend.keeps hLe.keeps)
  have hFine : fineOps k (emitCommit commit ++ emitFlags f) = true := by
    rw [fineOps_append, hCommitFine, hFlagsFine]
    rfl
  have hLeAll := le_flowOps hFine
  obtain ⟨hSees, hRip, hOut⟩ := hLast _ hLeAll (hLeAll.reg _ hFlags)
  refine exit_shape hPos ?_ ?_ ?_ rfl
  · rw [seesOps_append, seesOps_of_fine hFine]
    simpa [seesOps] using hSees
  · rw [flowOps_append]
    exact hRip
  · rw [flowOps_append]
    exact hOut

theorem last_movImm (t : U64) (l : Known) (hFlags : l.reg R_FLAGS = true) :
    (Op.movImm T2 t).sees l = true ∧ ((Op.movImm T2 t).flow l).reg T2 = true ∧
      ((Op.movImm T2 t).flow l).reg R_FLAGS = true := ⟨rfl, rfl, hFlags⟩

theorem last_movReg {l : Known} (hFa : l.reg R_FA = true) (hFlags : l.reg R_FLAGS = true) :
    (Op.movReg T2 R_FA).sees l = true ∧ ((Op.movReg T2 R_FA).flow l).reg T2 = true ∧
      ((Op.movReg T2 R_FA).flow l).reg R_FLAGS = true := by
  refine ⟨rfl, ?_, hFlags⟩
  simp [Op.flow, Op.ok, Op.srcs, Op.dst, Op.readsNzcv, Known.get, hFa]

theorem Ready.store (h : Ready c) {src : XReg} {push : Bool} (next : U64) (nextReg : Option XReg)
    (hAddr : c.known.reg R_ADDR = true) (hSrc : c.known.reg src = true) (hSize : isUintSize size = true)
    (hCommit : commit.Reads (c.known.stored push)) (hNext : ∀ r, nextReg = some r → r = R_FA ∧ c.known.reg R_FA = true) :
    Grew c (c.emit [.store src size push (c.wroteStub commit next nextReg) c.faultStub]) ∧
      (c.emit [.store src size push (c.wroteStub commit next nextReg) c.faultStub]).known =
        c.known.stored push := by
  have hKeeps := Known.keeps_stored push hAddr
  have hFlags := hKeeps.reg _ (by decide) h.flags
  have hMask := hKeeps.reg _ (by decide) h.mask
  have hPend := h.pending.keeps hKeeps
  refine ⟨h.emit rfl hKeeps fun target => ?_, known_emit c _⟩
  refine ⟨hAddr, hSrc, hSize, ?_, ?_, h.faultStub hKeeps target, ?_, trivial⟩
  · cases nextReg with
    | none => exact wrote_shape (Nat.succ_pos _) hFlags hMask hPend hCommit fun l _ hl => last_movImm next l hl
    | some r =>
      obtain ⟨rfl, hFa⟩ := hNext r rfl
      exact wrote_shape (Nat.succ_pos _) hFlags hMask hPend hCommit fun l hLe hl =>
        last_movReg (hLe.reg _ (hKeeps.reg _ (by decide) hFa)) hl
  · cases nextReg <;> rfl
  · unfold Compiler.faultStub
    split <;> rfl

theorem Ready.emitStore (h : Ready c) {src : XReg} (next : U64) (hAddr : c.known.reg R_ADDR = true)
    (hSrc : c.known.reg src = true) (hSize : isUintSize size = true) (hCommit : commit.Reads c.known) :
    Grew c (c.emitStore src size commit next) := by
  have hReads := hCommit.keeps (Known.keeps_stored false hAddr)
  obtain ⟨hGrew, hKnown⟩ := h.store next none hAddr hSrc hSize hReads nofun
  have hFine := fine_emitCommit hReads
  refine hGrew.trans (hGrew.ready.emit (begins_ops _) ?_ fun target => body_ops ?_)
  · rw [after_ops, hKnown]
    exact (le_flowOps hFine).keeps
  · rw [hKnown]
    exact seesOps_of_fine hFine

theorem Ready.emitStorePush (h : Ready c) {w : Nat} (next : U64) (nextReg : Option XReg)
    (hAddr : c.known.reg R_ADDR = true) (hVal : c.known.reg R_VAL = true)
    (hSize : isUintSize w = true)
    (hNext : ∀ r, nextReg = some r → r = R_FA ∧ c.known.reg R_FA = true) :
    Grew c (c.emitStorePush w next nextReg) := by
  have hReads : (Commit.Gpr 4 8 true).Reads (c.known.stored true) := by
    simp [Commit.Reads, Known.stored, Known.set, Known.get, hAddr]
  obtain ⟨hGrew, hKnown⟩ := h.store next nextReg hAddr hVal hSize hReads hNext
  have hFine := fine_emitCommit hReads
  refine hGrew.trans (hGrew.ready.emit (begins_ops _) ?_ fun target => body_ops ?_)
  · rw [after_ops, hKnown]
    exact (le_flowOps hFine).keeps
  · rw [hKnown]
    exact seesOps_of_fine hFine

theorem Ready.setFlags (h : Ready c) (hPend : Pending f c.known) : Grew c (c.setFlags f) :=
  ⟨⟨h.body, h.begun, h.links, h.flags, h.mask, hPend, h.before, h.spilt⟩, rfl, rfl, rfl, .refl _⟩

theorem Ready.materialize (h : Ready c) : Grew c c.materialize := by
  have hFine := fine_emitFlags h.flags h.mask h.pending
  have hGrew : Grew c (c.ops (emitFlags c.flags)) := by
    refine h.emit (begins_ops _) ?_ fun target => body_ops (seesOps_of_fine hFine)
    rw [after_ops]
    exact (le_flowOps hFine).keeps
  have hReady := hGrew.ready
  exact hGrew.trans ⟨⟨hReady.body, hReady.begun, hReady.links, hReady.flags, hReady.mask, nofun, nofun,
    fun hSpilled => ⟨(hReady.spilt hSpilled).1, nofun⟩⟩, rfl, rfl, rfl, .refl _⟩

theorem Ready.settleForRmDest (h : Ready c) (rm : Rm) (op : Alu) : Grew c (c.settleForRmDest rm op) := by
  unfold Compiler.settleForRmDest
  split
  · exact h.materialize
  · exact h.grew

end Emit

section Operands

variable {c : Compiler}

variable (mode : Mode) {size : Nat} {src : XReg}

theorem fine_emitAddr (m : MemOp) : fineOps (.ofRegs []) (emitAddr mode m) = true ∧
    (flowOps (.ofRegs []) (emitAddr mode m)).reg R_ADDR = true := by
  unfold emitAddr emitBase segBase emitDisp wrapAddr
  cases m.abs with
  | some abs => exact ⟨rfl, rfl⟩
  | none =>
    cases m.base <;> cases m.index <;> cases mode.is64 <;> dsimp only <;> split_ifs <;> exact ⟨rfl, rfl⟩

theorem Ready.rmAddr (h : Ready c) (rm : Rm) : Grew c (c.rmAddr rm) ∧
    (rm.isMem = true → (c.rmAddr rm).known.reg R_ADDR = true) := by
  cases rm with
  | Reg i => exact ⟨(h.ops [] nofun (rfl : fineOps _ [] = true)).1, nofun⟩
  | Mem m =>
    obtain ⟨hFine, hReg⟩ := fine_emitAddr c.mode m
    obtain ⟨hGrew, hKnown⟩ := h.ops [] nofun hFine
    exact ⟨hGrew, fun _ => hKnown _ hReg⟩

theorem fine_loadGpr (dst : XReg) (hDst : dst ≠ R_MASK) (idx : U8) (size : Nat) (hasRex : Bool) :
    fineOps (.ofRegs []) [loadGpr dst idx size hasRex] = true ∧
      (flowOps (.ofRegs []) [loadGpr dst idx size hasRex]).reg dst = true := by
  unfold loadGpr
  split <;>
    simp [fineOps, flowOps, Op.ok, Op.srcs, Op.readsNzcv, Op.framed, Op.stores, Op.flow, Op.dst, hDst]

theorem Ready.readRm (h : Ready c) {rm : Rm} {dst : XReg} (hasRex : Bool) (hDst : dst ≠ R_MASK)
    (hAddr : rm.isMem = true → c.known.reg R_ADDR = true) (hSize : isUintSize size = true) :
    Grew c (c.readRm rm dst size hasRex) ∧ (c.readRm rm dst size hasRex).known.reg dst = true := by
  cases rm with
  | Reg i =>
    obtain ⟨hFine, hReg⟩ := fine_loadGpr dst hDst i size hasRex
    obtain ⟨hGrew, hKnown⟩ := h.ops [] nofun hFine
    exact ⟨hGrew, hKnown _ hReg⟩
  | Mem m => exact h.emitLoad dst hDst (hAddr rfl) hSize

theorem Ready.operand (h : Ready c) (dst : XReg) (rm : Rm) (hasRex : Bool) (hDst : dst ≠ R_MASK)
    (hSize : isUintSize size = true) :
    Grew c ((c.rmAddr rm).readRm rm dst size hasRex) ∧
      ((c.rmAddr rm).readRm rm dst size hasRex).known.reg dst = true ∧
      (rm.isMem = true → ((c.rmAddr rm).readRm rm dst size hasRex).known.reg R_ADDR = true) := by
  obtain ⟨hFirst, hAddr⟩ := h.rmAddr rm
  obtain ⟨hSecond, hKnown⟩ := hFirst.ready.readRm hasRex hDst hAddr hSize
  exact ⟨hFirst.trans hSecond, hKnown, fun hMem => hSecond.keeps.reg _ (by decide) (hAddr hMem)⟩

theorem fine_storeGpr (idx : U8) (size : Nat) (hasRex : Bool) (hSrc : src ≠ ZR) :
    fineOps (.ofRegs [src]) [storeGpr src idx size hasRex] = true := by
  have hNot : ZR ≠ R_MASK := by decide
  unfold storeGpr
  split
  · simp [fineOps, Op.ok, Op.srcs, Op.readsNzcv, Op.framed, Op.stores, Op.dst, Known.get, Known.ofRegs,
      hSrc, hNot]
  · split <;>
      simp [fineOps, Op.ok, Op.srcs, Op.readsNzcv, Op.framed, Op.stores, Op.dst, Known.get, Known.ofRegs,
        hSrc, hNot]

theorem Ready.storeGpr (h : Ready c) (idx : U8) (size : Nat) (hasRex : Bool) (hSrc : src ≠ ZR)
    (hKnown : c.known.reg src = true) : Grew c (c.ops [Jit.storeGpr src idx size hasRex]) :=
  (h.ops [src] (by simpa using hKnown) (fine_storeGpr idx size hasRex hSrc)).1

theorem Ready.writeRm (h : Ready c) {rm : Rm} (hasRex : Bool) (next : U64) (hSrc : src ≠ ZR) (hKnown : c.known.reg src = true)
    (hAddr : rm.isMem = true → c.known.reg R_ADDR = true) (hSize : isUintSize size = true) :
    Grew c (c.writeRm rm src size hasRex next) := by
  cases rm with
  | Reg i => exact h.storeGpr i size hasRex hSrc hKnown
  | Mem m => exact h.emitStore next (hAddr rfl) hKnown hSize trivial

theorem Ready.pushAddr (h : Ready c) (w : Nat) :
    Grew c (c.pushAddr w) ∧ (c.pushAddr w).known.reg R_ADDR = true := by
  have hFine : fineOps (.ofRegs []) ([.ldrGpr 8 T0 Reg.Rsp 0, .subImm R_ADDR T0 (BitVec.ofNat 64 w)] ++
      wrapAddr c.mode R_ADDR) = true ∧ (flowOps (.ofRegs []) ([.ldrGpr 8 T0 Reg.Rsp 0,
        .subImm R_ADDR T0 (BitVec.ofNat 64 w)] ++ wrapAddr c.mode R_ADDR)).reg R_ADDR = true := by
    cases hMode : c.mode <;> exact ⟨rfl, rfl⟩
  obtain ⟨hGrew, hKnown⟩ := h.ops [] nofun hFine.1
  exact ⟨hGrew, hKnown _ hFine.2⟩

theorem Ready.stackAddr (h : Ready c) (r : Fin 16) :
    Grew c (c.ops (.ldrGpr 8 R_ADDR r 0 :: wrapAddr c.mode R_ADDR)) ∧
      (c.ops (.ldrGpr 8 R_ADDR r 0 :: wrapAddr c.mode R_ADDR)).known.reg R_ADDR = true := by
  have hFine : fineOps (.ofRegs []) (.ldrGpr 8 R_ADDR r 0 :: wrapAddr c.mode R_ADDR) = true ∧
      (flowOps (.ofRegs []) (.ldrGpr 8 R_ADDR r 0 :: wrapAddr c.mode R_ADDR)).reg R_ADDR = true := by
    cases hMode : c.mode <;> exact ⟨rfl, rfl⟩
  obtain ⟨hGrew, hKnown⟩ := h.ops [] nofun hFine.1
  exact ⟨hGrew, hKnown _ hFine.2⟩

theorem isUintSize_opsize (p : Pfx) : isUintSize (opsize mode p) = true := by
  unfold opsize
  split
  · rfl
  · split <;> rfl

theorem isUintSize_stackWidth : isUintSize mode.stackWidth = true := by
  cases mode <;> rfl

end Operands

section Alu

variable {c : Compiler}

theorem fine_emitArithValue (size : Nat) (sub : Bool) :
    fineOps (.ofRegs [R_FA, R_FB]) (emitArithValue size sub) = true ∧
      (flowOps (.ofRegs [R_FA, R_FB]) (emitArithValue size sub)).reg R_FR = true := by
  unfold emitArithValue maskTo
  split
  · cases sub <;> exact ⟨rfl, rfl⟩
  · split <;> cases sub <;> exact ⟨rfl, rfl⟩

theorem fine_emitArithEager (size : Nat) (sub keepCf : Bool) :
    fineOps (.ofRegs [R_FLAGS, R_MASK, R_FA, R_FB])
        (emitArithEagerValue size sub ++ flagsArith size sub keepCf) = true ∧
      (flowOps (.ofRegs [R_FLAGS, R_MASK, R_FA, R_FB])
        (emitArithEagerValue size sub ++ flagsArith size sub keepCf)).reg R_FR = true := by
  unfold emitArithEagerValue
  split <;> cases sub <;> cases keepCf <;> exact ⟨rfl, rfl⟩

theorem fine_emitLogicValue (op : Alu) : fineOps (.ofRegs [R_FA, R_FB]) [emitLogicValue op] = true ∧
    (flowOps (.ofRegs [R_FA, R_FB]) [emitLogicValue op]).reg R_FR = true := by
  cases op <;> exact ⟨rfl, rfl⟩

theorem fine_logicEager (op : Alu) (size : Nat) :
    fineOps (.ofRegs [R_FLAGS, R_MASK, R_FA, R_FB]) ([emitLogicValue op, .bicReg R_FLAGS R_FLAGS R_MASK] ++
        flagsSzpInto R_FLAGS R_FR size) = true ∧
      (flowOps (.ofRegs [R_FLAGS, R_MASK, R_FA, R_FB])
        ([emitLogicValue op, .bicReg R_FLAGS R_FLAGS R_MASK] ++
          flagsSzpInto R_FLAGS R_FR size)).reg R_FR = true := by
  cases op <;> exact ⟨rfl, rfl⟩

theorem Ready.deferred (h : Ready c) {os : List Op} {f : Flags} (hA : c.known.reg R_FA = true)
    (hB : c.known.reg R_FB = true)
    (hFine : fineOps (.ofRegs [R_FA, R_FB]) os = true ∧
      (flowOps (.ofRegs [R_FA, R_FB]) os).reg R_FR = true) :
    Grew c ((c.ops os).setFlags f) ∧ ((c.ops os).setFlags f).known.reg R_FR = true := by
  obtain ⟨hGrew, hKnown⟩ := h.ops [R_FA, R_FB] (by simp [hA, hB]) hFine.1
  have hR := hKnown _ hFine.2
  have hPend : Pending f (c.ops os).known := fun _ =>
    ⟨hGrew.keeps.reg _ (by decide) hA, hGrew.keeps.reg _ (by decide) hB, hR⟩
  exact ⟨hGrew.trans (hGrew.ready.setFlags hPend), hR⟩

theorem Ready.eager (h : Ready c) {os : List Op} (hA : c.known.reg R_FA = true)
    (hB : c.known.reg R_FB = true)
    (hFine : fineOps (.ofRegs [R_FLAGS, R_MASK, R_FA, R_FB]) os = true ∧
      (flowOps (.ofRegs [R_FLAGS, R_MASK, R_FA, R_FB]) os).reg R_FR = true) :
    Grew c ((c.ops os).setFlags .Live) ∧ ((c.ops os).setFlags .Live).known.reg R_FR = true := by
  obtain ⟨hGrew, hKnown⟩ := h.ops [R_FLAGS, R_MASK, R_FA, R_FB] (by simp [h.flags, h.mask, hA, hB])
    hFine.1
  exact ⟨hGrew.trans (hGrew.ready.setFlags nofun), hKnown _ hFine.2⟩

theorem Ready.emitAlu (h : Ready c) (op : Alu) (size : Nat) (hA : c.known.reg R_FA = true)
    (hB : c.known.reg R_FB = true) :
    Grew c (c.emitAlu op size) ∧ (c.emitAlu op size).known.reg R_FR = true := by
  unfold Compiler.emitAlu Compiler.emitArithEager
  split
  · cases op <;>
      first
      | exact h.deferred hA hB (fine_emitArithValue size _)
      | exact h.deferred hA hB (fine_emitLogicValue _)
  · cases op <;>
      first
      | exact h.eager hA hB (fine_emitArithEager size _ _)
      | exact h.eager hA hB (fine_logicEager _ size)

theorem Ready.emitIncdec (h : Ready c) (size : Nat) (isInc : Bool) (hA : c.known.reg R_FA = true) :
    Grew c (c.emitIncdec size isInc) ∧ (c.emitIncdec size isInc).known.reg R_FR = true := by
  obtain ⟨hOne, hKnown⟩ := h.ops [] nofun (rfl : fineOps _ [.movImm R_FB 1] = true)
  have hA' := hOne.keeps.reg _ (by decide) hA
  have hB := hKnown R_FB rfl
  unfold Compiler.emitIncdec Compiler.emitArithEager
  dsimp only
  split
  · obtain ⟨hGrew, hR⟩ := hOne.ready.deferred hA' hB (fine_emitArithValue size !isInc)
    exact ⟨hOne.trans hGrew, hR⟩
  · obtain ⟨hGrew, hR⟩ := hOne.ready.eager hA' hB (fine_emitArithEager size (!isInc) true)
    exact ⟨hOne.trans hGrew, hR⟩

theorem Ready.finishRmDest (h : Ready c) (insn : Insn) (op : Alu) {size : Nat} (hasRex : Bool)
    (next : U64) (hR : c.known.reg R_FR = true)
    (hAddr : insn.rm.isMem = true → c.known.reg R_ADDR = true)
    (hSize : isUintSize size = true) :
    Grew c (c.finishRmDest insn op size hasRex next) := by
  unfold Compiler.finishRmDest
  split
  · exact h.writeRm hasRex next (by decide) hR hAddr hSize
  · exact h.grew

end Alu

section Exits

variable {c : Compiler}

/-- A compiler whose code is a whole block of `c.insns + 1` instructions. -/
def Complete (c : Compiler) : Prop := ∃ target, Shaped c.slotBase target (c.insns + 1) c.asm

theorem takeSlot_spec (c : Compiler) (t : U64) :
    ∃ slot links, c.takeSlot t = (slot, { c with linkTargets := links }) ∧
      c.linkTargets.length ≤ links.length ∧
      ∀ s, slot = some s → ∃ base, c.slotBase = some base ∧ s = base + c.linkTargets.length ∧
        c.linkTargets.length < MAX_LINKS ∧ links.length = c.linkTargets.length + 1 := by
  unfold Compiler.takeSlot
  split <;> rename_i hBase
  · exact ⟨none, c.linkTargets, rfl, le_rfl, nofun⟩
  · split <;> rename_i hFull
    · exact ⟨none, c.linkTargets, rfl, le_rfl, nofun⟩
    · refine ⟨_, _, rfl, by simp, ?_⟩
      rintro s ⟨⟩
      exact ⟨_, hBase, rfl, by omega, by simp⟩

variable {target : Nat → Option U64}

theorem linkExit_shape {k : Known} {slots slot : Option Nat} {n : Nat} {f : Flags} {t : U64} (hPos : 0 < n)
    (hFlags : k.reg R_FLAGS = true) (hMask : k.reg R_MASK = true) (hPend : Pending f k)
    (hSlot : ∀ s, slot = some s → target s = some t ∧
      ∃ base, slots = some base ∧ base ≤ s ∧ s < base + MAX_LINKS) :
    ExitCode.Shape slots target n k ⟨emitFlags f ++ [.movImm T2 t], ⟨n, false, slot, false⟩⟩ := by
  obtain ⟨hSees, hRip, hOut⟩ := sees_settle hFlags hMask hPend t
  exact ⟨hPos, hSees, hRip, hOut, rfl, fun s hs => ⟨rfl, (hSlot s hs).2⟩,
    fun s hs _ => ⟨_, _, rfl, (hSlot s hs).1⟩, nofun⟩

structure Rested (n : Nat) (c : Compiler) : Prop where
  body : ∀ target, Body c.slotBase target 0 .entry c.asm
  begun : begins c.asm = n
  links : c.linkTargets = []
  flags : c.known.reg R_FLAGS = true
  mask : c.known.reg R_MASK = true
  pending : Pending c.flags c.known

theorem Ready.rested (h : Ready c) : Rested (c.insns + 1) c :=
  ⟨h.body, h.begun, h.links, h.flags, h.mask, h.pending⟩

theorem Rested.shaped {n : Nat} (h : Rested n c) {e : ExitCode} (hShape : e.Shape c.slotBase target n c.known)
    (hFault : e.tail.fault = false) : Shaped c.slotBase target n (c.asm ++ [.exit e]) :=
  ⟨c.asm, e, rfl, h.begun, h.body target, hShape, hFault⟩

theorem Rested.leave {n : Nat} (h : Rested n c) (hPos : 0 < n) (t : U64) (kind : ExitKind) (hKind : kind ≠ .Fault) :
    (∃ target, Shaped c.slotBase target n (c.leave c.flags t n kind).asm) ∧
      (c.leave c.flags t n kind).insns = c.insns ∧
      (c.leave c.flags t n kind).slotBase = c.slotBase := by
  obtain ⟨slot, links, hTake, -, hSlot⟩ := takeSlot_spec c t
  cases kind with
  | Fault => exact absurd rfl hKind
  | Return =>
    refine ⟨⟨fun _ => none, h.shaped ?_ rfl⟩, rfl, rfl⟩
    exact exitCode_shape hPos h.flags h.mask h.pending t rfl
  | Link =>
    simp only [Compiler.leave, Compiler.exitTo, hTake]
    refine ⟨⟨fun _ => some t, h.shaped (linkExit_shape hPos h.flags h.mask h.pending fun s hs => ?_) rfl⟩,
      rfl, rfl⟩
    obtain ⟨base, hBase, hEq, hLt, -⟩ := hSlot s hs
    exact ⟨rfl, base, hBase, by omega, by omega⟩

theorem Ready.leave (h : Ready c) (t : U64) (kind : ExitKind) (hKind : kind ≠ .Fault) :
    Complete (c.leave c.flags t (c.insns + 1) kind) ∧
      (c.leave c.flags t (c.insns + 1) kind).insns = c.insns ∧
      (c.leave c.flags t (c.insns + 1) kind).slotBase = c.slotBase := by
  obtain ⟨⟨target, hShaped⟩, hInsns, hSlots⟩ := h.rested.leave (Nat.succ_pos _) t kind hKind
  refine ⟨⟨target, ?_⟩, hInsns, hSlots⟩
  rwa [hInsns, hSlots]

theorem Ready.exitIndirect (h : Ready c) (hFa : c.known.reg R_FA = true) :
    Complete (c.exitIndirect .Live R_FA (c.insns + 1)) ∧
      (c.exitIndirect .Live R_FA (c.insns + 1)).insns = c.insns ∧
      (c.exitIndirect .Live R_FA (c.insns + 1)).slotBase = c.slotBase := by
  obtain ⟨slot, links, hTake, -, hSlot⟩ := takeSlot_spec c INDIRECT_TARGET
  simp only [Compiler.exitIndirect, hTake]
  refine ⟨⟨fun _ => none, h.rested.shaped ⟨Nat.succ_pos _, rfl, ?_, h.flags, rfl, fun s hs => ⟨rfl, ?_⟩, ?_, fun _ _ _ => rfl⟩
    rfl⟩, rfl, rfl⟩
  · simp [flowOps, emitFlags, Op.flow, Op.ok, Op.srcs, Op.dst, Op.readsNzcv, Known.get, hFa]
  · obtain ⟨base, hBase, hEq, hLt, -⟩ := hSlot s hs
    exact ⟨base, hBase, by omega, by omega⟩
  · intro s hs hDirect
    cases hDirect

theorem fine_emitCondValue (cc : Nat) : fineOps (.ofRegs [R_FLAGS]) (emitCondValue cc T0) = true ∧
    (flowOps (.ofRegs [R_FLAGS]) (emitCondValue cc T0)).reg T0 = true := by
  unfold emitCondValue condBit
  cases hNeg : cc % 2 == 1 <;> dsimp only <;> split <;> exact ⟨rfl, rfl⟩

theorem fine_branchIfCond (cc : Nat) : fineOps (.ofRegs [R_FLAGS]) (branchIfCond cc).1 = true ∧
    (branchIfCond cc).2.sees (flowOps (.ofRegs [R_FLAGS]) (branchIfCond cc).1) = true := by
  unfold branchIfCond
  dsimp only
  split <;> first | exact ⟨rfl, rfl⟩ | exact fine_emitCondValue cc

theorem Test.sees_mono {k l : Known} (h : k.Le l) {t : Test} (hSees : t.sees k = true) :
    t.sees l = true := by
  cases t <;> exact h.reg _ hSees

theorem Ready.branch (h : Ready c) (cc : Nat) {fall e : ExitCode}
    (hFall : ∀ k : Known, c.known.Le k → fall.Shape c.slotBase target (c.insns + 1) k) (hFallFault : fall.tail.fault = false)
    (hExit : ∀ k : Known, c.known.Le k → e.Shape c.slotBase target (c.insns + 1) k) (hFault : e.tail.fault = false) :
    Shaped c.slotBase target (c.insns + 1)
      (((c.ops (branchIfCond cc).1).emit [.branch (branchIfCond cc).2 fall]).emit [.exit e]).asm := by
  obtain ⟨hFine, hTest⟩ := fine_branchIfCond cc
  have hLe := Known.ofRegs_le [R_FLAGS] (by simpa using h.flags)
  have hFine' := fineOps_mono hLe hFine
  have hGrew := (h.ops [R_FLAGS] (by simpa using h.flags) hFine).1
  have hKnown := known_ops c (branchIfCond cc).1
  have hLe' : c.known.Le (c.ops (branchIfCond cc).1).known := hKnown ▸ le_flowOps hFine'
  have hTest' : (branchIfCond cc).2.sees (c.ops (branchIfCond cc).1).known = true :=
    hKnown ▸ Test.sees_mono (flowOps_mono hLe _) hTest
  refine ⟨_, e, rfl, ?_, ?_, ?_, hFault⟩
  · exact (begins_append _ _).trans hGrew.ready.begun
  · refine body_append (hGrew.ready.body target) ?_
    rw [hGrew.ready.begun, Nat.zero_add]
    exact ⟨hTest', hFall _ hLe', hFallFault, trivial⟩
  · rw [show after .entry ((c.ops (branchIfCond cc).1).emit [.branch (branchIfCond cc).2 fall]).asm =
      (c.ops (branchIfCond cc).1).known from after_append _ _ _]
    exact hExit _ hLe'

theorem Ready.emitJcc (h : Ready c) (cc : Nat) (t fall : U64) :
    Complete (c.emitJcc cc t fall) ∧ (c.emitJcc cc t fall).insns = c.insns ∧
      (c.emitJcc cc t fall).slotBase = c.slotBase := by
  have hMat := h.materialize
  have hReady := hMat.ready
  obtain ⟨slot1, links1, hTake1, -, hSlot1⟩ := takeSlot_spec c.materialize fall
  obtain ⟨slot2, links2, hTake2, -, hSlot2⟩ := takeSlot_spec
    (({ c.materialize with linkTargets := links1 }.ops (branchIfCond cc).1).emit
      [.branch (branchIfCond cc).2 ⟨emitFlags .Live ++ [Op.movImm T2 fall],
        ⟨c.materialize.insns + 1, false, slot1, false⟩⟩]) t
  simp only [Compiler.emitJcc, Compiler.exitTo, Compiler.leave, hTake1, hTake2]
  refine ⟨⟨fun s => if slot1 = some s then some fall else some t, ?_⟩, hMat.insns, hMat.slotBase⟩
  have hFlags := fun (k : Known) (hLe : c.materialize.known.Le k) => hLe.reg _ hReady.flags
  have hMask := fun (k : Known) (hLe : c.materialize.known.Le k) => hLe.reg _ hReady.mask
  refine hReady.branch cc (fun k hLe => ?_) rfl (fun k hLe => ?_) rfl
  · refine linkExit_shape (Nat.succ_pos _) (hFlags k hLe) (hMask k hLe) nofun fun s hs => ⟨if_pos hs, ?_⟩
    obtain ⟨base, hBase, hEq, hLt, -⟩ := hSlot1 s hs
    exact ⟨base, hBase, by omega, by omega⟩
  · refine linkExit_shape (Nat.succ_pos _) (hFlags k hLe) (hMask k hLe) nofun fun s hs => ?_
    obtain ⟨base, hBase, hEq, hLt, -⟩ := hSlot2 s hs
    have hLt : links1.length < MAX_LINKS := hLt
    have hEq : s = base + links1.length := hEq
    refine ⟨if_neg fun hFirst => ?_, base, hBase, by omega, by omega⟩
    obtain ⟨base', hBase', hEq', -, hLen⟩ := hSlot1 s hFirst
    have hSame : base = base' := Option.some.inj (hBase.symm.trans hBase')
    omega

end Exits

section Lower

variable {c : Compiler}

/-- What lowering an instruction leaves: the next instruction can follow, or the block is complete. -/
def Lowers (c : Compiler) : Lowered × Compiler → Prop
  | (.Ok, d) => Grew c d
  | (.Terminated, d) => Complete d ∧ d.insns = c.insns ∧ d.slotBase = c.slotBase
  | (.Unsupported, _) => True

theorem Grew.lowers {d : Compiler} (h : Grew c d) : Lowers c (.Ok, d) := h

theorem Grew.andThen {d : Compiler} (h : Grew c d) {r : Lowered × Compiler} (hr : Lowers d r) :
    Lowers c r := by
  obtain ⟨kind, e⟩ := r
  cases kind with
  | Ok => exact h.trans hr
  | Terminated => exact ⟨hr.1, hr.2.1.trans h.insns, hr.2.2.trans h.slotBase⟩
  | Unsupported => trivial

theorem lowers_ite {p : Prop} [Decidable p] {a b : Lowered × Compiler} (ha : Lowers c a)
    (hb : Lowers c b) : Lowers c (if p then a else b) := by
  split
  · exact ha
  · exact hb

theorem fine_shift (kind : Shift) (size count : Nat) :
    fineOps (.ofRegs [R_FLAGS, R_FB]) (shiftValue kind size count ++ shiftFlags kind size count) = true ∧
      (flowOps (.ofRegs [R_FLAGS, R_FB])
        (shiftValue kind size count ++ shiftFlags kind size count)).reg R_VAL = true ∧
      (flowOps (.ofRegs [R_FLAGS, R_FB])
        (shiftValue kind size count ++ shiftFlags kind size count)).reg R_FA = true := by
  unfold shiftValue shiftFlags maskTo
  cases kind <;> dsimp only <;> split_ifs <;> exact ⟨rfl, rfl, rfl⟩

variable {size : Nat} {os : List Op} (mode : Mode)

theorem Ready.emitShift (h : Ready c) (insn : Insn) (count next : U64) (hasRex : Bool)
    (hSize : isUintSize size = true) : Lowers c (c.emitShift insn size count next hasRex) := by
  unfold Compiler.emitShift
  split
  · trivial
  · rename_i kind hKind
    dsimp only
    generalize (count &&& if size = 8 then 0x3f else 0x1f).toNat = n
    by_cases hZero : n = 0
    · rw [if_pos hZero]
      obtain ⟨hGrew, hVal, hAddr⟩ := h.operand R_VAL insn.rm hasRex (by decide) hSize
      exact hGrew.trans (hGrew.ready.writeRm hasRex next (by decide) hVal hAddr hSize)
    · rw [if_neg hZero]
      have hMat := h.materialize
      obtain ⟨hRead, hB, hAddr⟩ := hMat.ready.operand R_FB insn.rm hasRex (by decide) hSize
      obtain ⟨hFine, hFineVal, hFineFa⟩ := fine_shift kind size n
      obtain ⟨hOps, hKnown⟩ := hRead.ready.ops [R_FLAGS, R_FB] (by simp [hRead.ready.flags, hB]) hFine
      have hGrew := (hMat.trans hRead).trans hOps
      have hVal := hKnown _ hFineVal
      have hFa := hKnown _ hFineFa
      split
      · rename_i i hRm
        have hMov := (hGrew.ready.ops [R_FA] (by simpa using hFa)
          (rfl : fineOps _ [.movReg R_FLAGS R_FA] = true)).1
        have hStore := hMov.ready.storeGpr i size hasRex (by decide) (hMov.keeps.reg _ (by decide) hVal)
        have hAll := (hGrew.trans hMov).trans hStore
        simpa [Compiler.ops, Compiler.emit] using hAll.lowers
      · rename_i m hRm
        have hMem : insn.rm.isMem = true := by rw [hRm]; rfl
        exact hGrew.trans (hGrew.ready.emitStore next (hOps.keeps.reg _ (by decide) (hAddr hMem)) hVal
          hSize hFa)

theorem Ready.compute (h : Ready c) (regs : List XReg) {src : XReg} (idx : U8) (size : Nat) (hasRex : Bool) (hSrc : src ≠ ZR)
    (hRegs : ∀ r ∈ regs, c.known.reg r = true)
    (hFine : fineOps (.ofRegs regs) os = true ∧ (flowOps (.ofRegs regs) os).reg src = true) :
    Grew c (c.ops (os ++ [Jit.storeGpr src idx size hasRex])) := by
  obtain ⟨hOps, hKnown⟩ := h.ops regs hRegs hFine.1
  have hGrew := hOps.trans (hOps.ready.storeGpr idx size hasRex hSrc (hKnown _ hFine.2))
  simpa [Compiler.ops, Compiler.emit] using hGrew

theorem fine_sbfxMask (bits size : Nat) :
    fineOps (.ofRegs [R_VAL]) (.sbfx R_VAL R_VAL 0 bits :: maskTo R_VAL size) = true ∧
      (flowOps (.ofRegs [R_VAL]) (.sbfx R_VAL R_VAL 0 bits :: maskTo R_VAL size)).reg R_VAL = true := by
  unfold maskTo
  split <;> exact ⟨rfl, rfl⟩

theorem fine_mvnMask (size : Nat) :
    fineOps (.ofRegs [R_VAL]) (.mvn R_VAL R_VAL :: maskTo R_VAL size) = true ∧
      (flowOps (.ofRegs [R_VAL]) (.mvn R_VAL R_VAL :: maskTo R_VAL size)).reg R_VAL = true := by
  unfold maskTo
  split <;> exact ⟨rfl, rfl⟩

theorem fine_cmov (reg : U8) (op size : Nat) (hasRex : Bool) :
    fineOps (.ofRegs [R_FLAGS, R_FA]) ([loadGpr R_VAL reg size hasRex] ++ emitCondValue op T0 ++
        [.cmpZero T0, .csel R_VAL R_FA R_VAL .Ne]) = true ∧
      (flowOps (.ofRegs [R_FLAGS, R_FA]) ([loadGpr R_VAL reg size hasRex] ++ emitCondValue op T0 ++
        [.cmpZero T0, .csel R_VAL R_FA R_VAL .Ne])).reg R_VAL = true := by
  unfold loadGpr emitCondValue condBit
  split <;> cases hNeg : op % 2 == 1 <;> dsimp only <;> split <;> exact ⟨rfl, rfl⟩

theorem fine_imulImm (v : U64) (size : Nat) :
    fineOps (.ofRegs [R_FLAGS, R_FA]) ([.movImm R_FB v] ++ emitImul size) = true ∧
      (flowOps (.ofRegs [R_FLAGS, R_FA]) ([.movImm R_FB v] ++ emitImul size)).reg R_VAL = true := by
  unfold emitImul maskTo
  split <;> exact ⟨rfl, rfl⟩

theorem fine_imulReg (reg : U8) (size : Nat) (hasRex : Bool) :
    fineOps (.ofRegs [R_FLAGS, R_FB]) ([loadGpr R_FA reg size hasRex] ++ emitImul size) = true ∧
      (flowOps (.ofRegs [R_FLAGS, R_FB]) ([loadGpr R_FA reg size hasRex] ++ emitImul size)).reg R_VAL =
        true := by
  unfold loadGpr emitImul maskTo
  split <;> split <;> exact ⟨rfl, rfl⟩

theorem Ready.lower0f (h : Ready c) (insn : Insn) (next : U64) : Lowers c (c.lower0f insn next) := by
  have hSize := isUintSize_opsize c.mode insn.pfx
  unfold Compiler.lower0f
  dsimp only
  split
  · exact h.grew
  split
  · obtain ⟨hRead, hFa, -⟩ := h.materialize.ready.operand R_FA insn.rm insn.pfx.hasRex (by decide) hSize
    have hGrew := hRead.ready.compute [R_FLAGS, R_FA] insn.reg (opsize c.mode insn.pfx) insn.pfx.hasRex
      (by decide) (by simp [hRead.ready.flags, hFa])
      (fine_cmov insn.reg insn.opcode.toNat (opsize c.mode insn.pfx) insn.pfx.hasRex)
    refine (h.materialize.trans hRead).andThen (Grew.lowers ?_)
    simpa using hGrew
  split
  · exact h.emitJcc _ _ _
  split
  · obtain ⟨hRead, hFb, -⟩ := h.materialize.ready.operand R_FB insn.rm insn.pfx.hasRex (by decide) hSize
    have hGrew := hRead.ready.compute [R_FLAGS, R_FB] insn.reg (opsize c.mode insn.pfx) insn.pfx.hasRex
      (by decide) (by simp [hRead.ready.flags, hFb])
      (fine_imulReg insn.reg (opsize c.mode insn.pfx) insn.pfx.hasRex)
    exact (h.materialize.trans hRead).andThen hGrew.lowers
  split
  · have hSrc : isUintSize (if insn.opcode.toNat % 2 = 0 then 1 else 2) = true := by
      split <;> rfl
    obtain ⟨hRead, hVal, -⟩ := h.operand R_VAL insn.rm insn.pfx.hasRex (by decide) hSrc
    split
    · obtain ⟨hFine, hOut⟩ := fine_sbfxMask ((if insn.opcode.toNat % 2 = 0 then 1 else 2) * 8)
        (opsize c.mode insn.pfx)
      obtain ⟨hOps, hKnown⟩ := hRead.ready.ops [R_VAL] (by simpa using hVal) hFine
      exact (hRead.trans hOps).andThen
        (hOps.ready.storeGpr insn.reg _ insn.pfx.hasRex (by decide) (hKnown _ hOut)).lowers
    · exact hRead.andThen (hRead.ready.storeGpr insn.reg _ insn.pfx.hasRex (by decide) hVal).lowers
  · trivial

theorem fine_accImm (size : Nat) (hasRex : Bool) (v : U64) :
    fineOps (.ofRegs []) [loadGpr R_FA 0 size hasRex, .movImm R_FB v] = true ∧
      (flowOps (.ofRegs []) [loadGpr R_FA 0 size hasRex, .movImm R_FB v]).reg R_FA = true ∧
      (flowOps (.ofRegs []) [loadGpr R_FA 0 size hasRex, .movImm R_FB v]).reg R_FB = true := by
  unfold loadGpr
  split <;> exact ⟨rfl, rfl, rfl⟩

theorem Ready.accImm (h : Ready c) (op : Alu) (size : Nat) (hasRex : Bool) (v : U64) :
    Grew c ((c.ops [Jit.loadGpr R_FA 0 size hasRex, .movImm R_FB v]).emitAlu op size) ∧
      ((c.ops [Jit.loadGpr R_FA 0 size hasRex, .movImm R_FB v]).emitAlu op size).known.reg R_FR = true := by
  obtain ⟨hFine, hFa, hFb⟩ := fine_accImm size hasRex v
  obtain ⟨hLoad, hKnown⟩ := h.ops [] nofun hFine
  obtain ⟨hAlu, hR⟩ := hLoad.ready.emitAlu op size (hKnown _ hFa) (hKnown _ hFb)
  exact ⟨hLoad.trans hAlu, hR⟩

theorem Ready.lowerAlu (h : Ready c) (insn : Insn) (op : Alu) (next : U64) :
    Lowers c (c.lowerAlu insn op next) := by
  have hSize : isUintSize
      (if insn.opcode.toNat % 8 % 2 = 0 ∧ insn.opcode.toNat % 8 ≠ 5 then 1 else opsize c.mode insn.pfx) =
        true := by
    split
    · rfl
    · exact isUintSize_opsize _ _
  unfold Compiler.lowerAlu
  dsimp only
  generalize (if insn.opcode.toNat % 8 % 2 = 0 ∧ insn.opcode.toNat % 8 ≠ 5 then 1
    else opsize c.mode insn.pfx) = size at hSize ⊢
  split
  · have hSettle := h.settleForRmDest insn.rm op
    obtain ⟨hRead, hFa, hAddr⟩ := hSettle.ready.operand R_FA insn.rm insn.pfx.hasRex (by decide) hSize
    obtain ⟨hFine, hOut⟩ := fine_loadGpr R_FB (by decide) insn.reg size insn.pfx.hasRex
    obtain ⟨hLoad, hKnown⟩ := hRead.ready.ops [] nofun hFine
    obtain ⟨hAlu, hR⟩ := hLoad.ready.emitAlu op size (hLoad.keeps.reg _ (by decide) hFa) (hKnown _ hOut)
    have hKeeps := hLoad.keeps.trans hAlu.keeps
    have hFinish := hAlu.ready.finishRmDest insn op insn.pfx.hasRex next hR
      (fun hMem => hKeeps.reg _ (by decide) (hAddr hMem)) hSize
    exact ((((hSettle.trans hRead).trans hLoad).trans hAlu).trans hFinish).lowers
  split
  · obtain ⟨hRead, hFb, -⟩ := h.operand R_FB insn.rm insn.pfx.hasRex (by decide) hSize
    obtain ⟨hFine, hOut⟩ := fine_loadGpr R_FA (by decide) insn.reg size insn.pfx.hasRex
    obtain ⟨hLoad, hKnown⟩ := hRead.ready.ops [] nofun hFine
    obtain ⟨hAlu, hR⟩ := hLoad.ready.emitAlu op size (hKnown _ hOut) (hLoad.keeps.reg _ (by decide) hFb)
    refine ((hRead.trans hLoad).trans hAlu).andThen (Grew.lowers ?_)
    split
    · exact hAlu.ready.storeGpr _ _ _ (by decide) hR
    · exact hAlu.ready.grew
  · obtain ⟨hAlu, hR⟩ := h.accImm op size insn.pfx.hasRex (insn.imm &&& maskOf size)
    refine hAlu.andThen (Grew.lowers ?_)
    split
    · exact hAlu.ready.storeGpr _ _ _ (by decide) hR
    · exact hAlu.ready.grew

theorem fine_release (released : U64) :
    fineOps (.ofRegs [R_ADDR]) (if released < 4096 then [.addImm T0 R_ADDR released]
        else [.movImm T0 released, .addReg true T0 R_ADDR T0 0]) = true ∧
      (flowOps (.ofRegs [R_ADDR]) (if released < 4096 then [.addImm T0 R_ADDR released]
        else [.movImm T0 released, .addReg true T0 R_ADDR T0 0])).reg T0 = true := by
  split <;> exact ⟨rfl, rfl⟩

theorem fine_storeSp : fineOps (.ofRegs [T0]) (wrapAddr mode T0 ++ [.strGpr 8 T0 Reg.Rsp 0]) = true := by
  cases mode <;> rfl

theorem Ready.lowerRet (h : Ready c) (insn : Insn) : Lowers c (c.lowerRet insn) := by
  obtain ⟨hStack, hAddr⟩ := h.materialize.ready.stackAddr Reg.Rsp
  obtain ⟨hLoad, hFa⟩ := hStack.ready.emitLoad R_FA (by decide) hAddr (isUintSize_stackWidth c.mode)
  obtain ⟨hFine, hOut⟩ := fine_release
    (BitVec.ofNat 64 c.mode.stackWidth + if insn.opcode = 0xC2 then insn.imm else 0)
  obtain ⟨hOps, hKnown⟩ := hLoad.ready.ops [R_ADDR]
    (by simpa using hLoad.keeps.reg _ (by decide) hAddr) hFine
  obtain ⟨hStore, -⟩ := hOps.ready.ops [T0] (by simpa using hKnown _ hOut) (fine_storeSp c.mode)
  have hAll := (((h.materialize.trans hStack).trans hLoad).trans hOps).trans hStore
  exact hAll.andThen (hStore.ready.exitIndirect ((hOps.keeps.trans hStore.keeps).reg _ (by decide) hFa))

theorem fine_pop (w : U64) (r : Fin 16) :
    fineOps (.ofRegs [R_ADDR, R_VAL]) (.addImm T0 R_ADDR w :: wrapAddr mode T0 ++ wrapAddr mode R_VAL ++
        [.strGpr 8 T0 Reg.Rsp 0, .strGpr 8 R_VAL r 0]) = true ∧
      fineOps (.ofRegs [R_ADDR, R_VAL]) (.addImm T0 R_ADDR w :: wrapAddr mode T0 ++
        [.strGpr 8 T0 Reg.Rsp 0, .strGpr 8 R_VAL r 0]) = true := by
  cases mode <;> exact ⟨rfl, rfl⟩

theorem fine_lea (m : MemOp) (size : Nat) :
    fineOps (.ofRegs []) (emitAddr mode m ++ [.movReg R_VAL R_ADDR] ++ maskTo R_VAL size) = true ∧
      (flowOps (.ofRegs []) (emitAddr mode m ++ [.movReg R_VAL R_ADDR] ++ maskTo R_VAL size)).reg R_VAL =
        true := by
  obtain ⟨hFine, hOut⟩ := fine_emitAddr mode m
  have hTail : fineOps (.ofRegs [R_ADDR]) ([.movReg R_VAL R_ADDR] ++ maskTo R_VAL size) = true ∧
      (flowOps (.ofRegs [R_ADDR]) ([.movReg R_VAL R_ADDR] ++ maskTo R_VAL size)).reg R_VAL = true := by
    unfold maskTo
    split <;> exact ⟨rfl, rfl⟩
  have hLe := Known.ofRegs_le [R_ADDR] (k := flowOps (.ofRegs []) (emitAddr mode m))
    (by simpa using hOut)
  rw [List.append_assoc, fineOps_append, flowOps_append, hFine, Bool.true_and]
  exact ⟨fineOps_mono hLe hTail.1, (flowOps_mono hLe _).reg _ hTail.2⟩

theorem fine_moffs (imm : U64) (seg : U8) :
    fineOps (.ofRegs []) (.movImm R_ADDR imm :: segBase seg ++ wrapAddr mode R_ADDR) = true ∧
      (flowOps (.ofRegs []) (.movImm R_ADDR imm :: segBase seg ++ wrapAddr mode R_ADDR)).reg R_ADDR =
        true := by
  unfold segBase
  cases mode <;> split_ifs <;> exact ⟨rfl, rfl⟩

theorem fine_movImm (dst : XReg) (hDst : dst ≠ R_MASK) (v : U64) :
    fineOps (.ofRegs []) [.movImm dst v] = true ∧ (flowOps (.ofRegs []) [.movImm dst v]).reg dst = true := by
  simp [fineOps, flowOps, Op.ok, Op.srcs, Op.readsNzcv, Op.framed, Op.stores, Op.flow, Op.dst, hDst]

theorem Ready.push (h : Ready c) (os : List Op) (next : U64)
    (hFine : fineOps (.ofRegs []) os = true ∧ (flowOps (.ofRegs []) os).reg R_VAL = true) :
    Grew c (((c.ops os).pushAddr c.mode.stackWidth).emitStorePush c.mode.stackWidth next none) := by
  obtain ⟨hOps, hKnown⟩ := h.ops [] nofun hFine.1
  obtain ⟨hPush, hAddr⟩ := hOps.ready.pushAddr c.mode.stackWidth
  exact (hOps.trans hPush).trans (hPush.ready.emitStorePush next none hAddr
    (hPush.keeps.reg _ (by decide) (hKnown _ hFine.2)) (isUintSize_stackWidth c.mode) nofun)

theorem Ready.movLoad (h : Ready c) (insn : Insn) (hSize : isUintSize size = true) :
    Grew c (((c.rmAddr insn.rm).readRm insn.rm R_VAL size insn.pfx.hasRex).ops
      [Jit.storeGpr R_VAL insn.reg size insn.pfx.hasRex]) := by
  obtain ⟨hRead, hVal, -⟩ := h.operand R_VAL insn.rm insn.pfx.hasRex (by decide) hSize
  exact hRead.trans (hRead.ready.storeGpr _ _ _ (by decide) hVal)

theorem Ready.movStore (h : Ready c) (insn : Insn) (next : U64) (hSize : isUintSize size = true)
    (hFine : fineOps (.ofRegs []) os = true ∧ (flowOps (.ofRegs []) os).reg R_VAL = true) :
    Grew c (((c.rmAddr insn.rm).ops os).writeRm insn.rm R_VAL size insn.pfx.hasRex next) := by
  obtain ⟨hAddr, hKnownAddr⟩ := h.rmAddr insn.rm
  obtain ⟨hOps, hKnown⟩ := hAddr.ready.ops [] nofun hFine.1
  exact (hAddr.trans hOps).trans (hOps.ready.writeRm _ next (by decide) (hKnown _ hFine.2)
    (fun hMem => hOps.keeps.reg _ (by decide) (hKnownAddr hMem)) hSize)

theorem Ready.aluWith (h : Ready c) (insn : Insn) (op : Alu) (hSize : isUintSize size = true)
    (hFine : fineOps (.ofRegs []) os = true ∧ (flowOps (.ofRegs []) os).reg R_FB = true) :
    Grew c ((((c.rmAddr insn.rm).readRm insn.rm R_FA size insn.pfx.hasRex).ops os).emitAlu op size) ∧
      ((((c.rmAddr insn.rm).readRm insn.rm R_FA size insn.pfx.hasRex).ops os).emitAlu op size).known.reg
        R_FR = true ∧
      (insn.rm.isMem = true → ((((c.rmAddr insn.rm).readRm insn.rm R_FA size insn.pfx.hasRex).ops
        os).emitAlu op size).known.reg R_ADDR = true) := by
  obtain ⟨hRead, hFa, hAddr⟩ := h.operand R_FA insn.rm insn.pfx.hasRex (by decide) hSize
  obtain ⟨hOps, hKnown⟩ := hRead.ready.ops [] nofun hFine.1
  obtain ⟨hAlu, hR⟩ := hOps.ready.emitAlu op size (hOps.keeps.reg _ (by decide) hFa) (hKnown _ hFine.2)
  exact ⟨(hRead.trans hOps).trans hAlu, hR,
    fun hMem => (hOps.keeps.trans hAlu.keeps).reg _ (by decide) (hAddr hMem)⟩

theorem Ready.lowerInsn (h : Ready c) (insn : Insn) (next : U64) : Lowers c (c.lowerInsn insn next) := by
  have hOp := isUintSize_opsize c.mode insn.pfx
  have hSized : isUintSize
      (if insn.opcode.toNat % 2 = 0 then 1 else opsize c.mode insn.pfx) = true := by
    split
    · rfl
    · exact hOp
  have hWidth := isUintSize_stackWidth c.mode
  unfold Compiler.lowerInsn
  dsimp only
  generalize (if insn.opcode.toNat % 2 = 0 then 1 else opsize c.mode insn.pfx) = sized at hSized ⊢
  refine lowers_ite ?_ ?_
  · exact h.lower0f insn next
  -- the two-operand forms
  refine lowers_ite ?_ ?_
  · split
    · trivial
    · exact h.lowerAlu insn _ next
  -- `inc` and `dec` of protected mode
  refine lowers_ite ?_ ?_
  · obtain ⟨hFine, hOut⟩ := fine_loadGpr R_FA (by decide) (insn.opcode &&& 7) (opsize c.mode insn.pfx) insn.pfx.hasRex
    obtain ⟨hLoad, hKnown⟩ := h.materialize.ready.ops [] nofun hFine
    obtain ⟨hInc, hR⟩ := hLoad.ready.emitIncdec (opsize c.mode insn.pfx)
      (decide (insn.opcode.toNat < 0x48)) (hKnown _ hOut)
    exact ((h.materialize.trans hLoad).trans hInc).trans (hInc.ready.storeGpr _ _ _ (by decide) hR)
  -- `push`, `pop`, `push imm`
  refine lowers_ite ?_ ?_
  · exact h.push _ next ⟨rfl, rfl⟩
  refine lowers_ite ?_ ?_
  · obtain ⟨hStack, hAddr⟩ := h.stackAddr Reg.Rsp
    obtain ⟨hLoad, hVal⟩ := hStack.ready.emitLoad R_VAL (by decide) hAddr hWidth
    exact (hStack.trans hLoad).trans (hLoad.ready.ops [R_ADDR, R_VAL]
      (by simp [hLoad.keeps.reg _ (by decide) hAddr, hVal]) (fine_pop c.mode _ _).1).1
  refine lowers_ite ?_ ?_
  · exact h.push _ next ⟨rfl, rfl⟩
  -- `movsxd`, `imul`
  refine lowers_ite ?_ ?_
  · obtain ⟨hRead, hVal, -⟩ := h.operand R_VAL insn.rm insn.pfx.hasRex (by decide)
      (rfl : isUintSize 4 = true)
    exact hRead.trans (hRead.ready.compute [R_VAL] _ _ _ (by decide) (by simpa using hVal)
      (fine_sbfxMask 32 _))
  refine lowers_ite ?_ ?_
  · obtain ⟨hRead, hFa, -⟩ := h.materialize.ready.operand R_FA insn.rm insn.pfx.hasRex (by decide) hOp
    exact (h.materialize.trans hRead).trans (hRead.ready.compute [R_FLAGS, R_FA] _ _ _ (by decide)
      (by simp [hRead.ready.flags, hFa]) (fine_imulImm _ _))
  refine lowers_ite ?_ ?_
  · exact h.emitJcc _ _ _
  -- the immediate forms of the two-operand group
  refine lowers_ite ?_ ?_
  · have hGroup : isUintSize
        (if insn.opcode.toNat = 0x80 then 1 else opsize c.mode insn.pfx) = true := by
      split
      · rfl
      · exact hOp
    split
    · trivial
    · rename_i a _
      have hSettle := h.settleForRmDest insn.rm a
      obtain ⟨hAlu, hR, hAddr⟩ := hSettle.ready.aluWith insn a hGroup (fine_movImm R_FB (by decide) _)
      exact (hSettle.trans hAlu).trans (hAlu.ready.finishRmDest insn a _ next hR hAddr hGroup)
  refine lowers_ite ?_ ?_
  · exact (h.aluWith insn .And hSized (fine_loadGpr R_FB (by decide) _ _ _)).1
  -- moves
  refine lowers_ite ?_ ?_
  · exact h.movStore insn next hSized (fine_loadGpr R_VAL (by decide) _ _ _)
  refine lowers_ite ?_ ?_
  · exact h.movLoad insn hSized
  refine lowers_ite ?_ ?_
  · split
    · trivial
    · exact h.compute [] _ _ _ (by decide) nofun (fine_lea c.mode _ _)
  refine lowers_ite ?_ ?_
  · exact h.grew
  refine lowers_ite ?_ ?_
  · split
    · trivial
    · obtain ⟨hFine, hOut⟩ := fine_moffs c.mode insn.imm insn.pfx.seg
      obtain ⟨hOps, hKnown⟩ := h.ops [] nofun hFine
      have hAddr := hKnown _ hOut
      split
      · obtain ⟨hLoad, hVal⟩ := hOps.ready.emitLoad R_VAL (by decide) hAddr hSized
        exact (hOps.trans hLoad).trans (hLoad.ready.storeGpr _ _ _ (by decide) hVal)
      · obtain ⟨hFine, hOut⟩ := fine_loadGpr R_VAL (by decide) 0 sized insn.pfx.hasRex
        obtain ⟨hVal, hKnownVal⟩ := hOps.ready.ops [] nofun hFine
        exact (hOps.trans hVal).trans (hVal.ready.emitStore next (hVal.keeps.reg _ (by decide) hAddr)
          (hKnownVal _ hOut) hSized trivial)
  refine lowers_ite ?_ ?_
  · exact (h.accImm .And sized insn.pfx.hasRex _).1
  refine lowers_ite ?_ ?_
  · exact h.compute [] _ _ _ (by decide) nofun (fine_movImm R_VAL (by decide) _)
  refine lowers_ite ?_ ?_
  · exact h.compute [] _ _ _ (by decide) nofun (fine_movImm R_VAL (by decide) _)
  refine lowers_ite ?_ ?_
  · exact h.emitShift insn _ next _ hSized
  refine lowers_ite ?_ ?_
  · split
    · trivial
    · exact h.movStore insn next hSized (fine_movImm R_VAL (by decide) _)
  -- returns, `leave`, calls and jumps
  refine lowers_ite ?_ ?_
  · exact h.lowerRet insn
  refine lowers_ite ?_ ?_
  · obtain ⟨hStack, hAddr⟩ := h.stackAddr Reg.Rbp
    obtain ⟨hLoad, hVal⟩ := hStack.ready.emitLoad R_VAL (by decide) hAddr hWidth
    exact (hStack.trans hLoad).trans (hLoad.ready.ops [R_ADDR, R_VAL]
      (by simp [hLoad.keeps.reg _ (by decide) hAddr, hVal]) (fine_pop c.mode _ _).2).1
  refine lowers_ite ?_ ?_
  · have hPush := h.push [.movImm R_VAL next] ((next + insn.imm) &&& c.mode.addrMask) ⟨rfl, rfl⟩
    exact hPush.andThen (hPush.ready.leave _ .Link nofun)
  refine lowers_ite ?_ ?_
  · exact h.leave _ .Link nofun
  refine lowers_ite ?_ ?_
  · split
    · obtain ⟨hRead, hVal, hAddr⟩ := h.operand R_VAL insn.rm insn.pfx.hasRex (by decide) hSized
      obtain ⟨hFine, hOut⟩ := fine_mvnMask sized
      obtain ⟨hOps, hKnown⟩ := hRead.ready.ops [R_VAL] (by simpa using hVal) hFine
      exact (hRead.trans hOps).trans (hOps.ready.writeRm _ next (by decide) (hKnown _ hOut)
        (fun hMem => hOps.keeps.reg _ (by decide) (hAddr hMem)) hSized)
    split
    · have hSettle := h.settleForRmDest insn.rm .Sub
      obtain ⟨hRead, hB, hAddr⟩ := hSettle.ready.operand R_FB insn.rm insn.pfx.hasRex (by decide) hSized
      obtain ⟨hZero, hKnown⟩ := hRead.ready.ops [] nofun (rfl : fineOps _ [.movImm R_FA 0] = true)
      obtain ⟨hAlu, hR⟩ := hZero.ready.emitAlu .Sub sized (hKnown _ rfl) (hZero.keeps.reg _ (by decide) hB)
      have hKeeps := hZero.keeps.trans hAlu.keeps
      exact (((hSettle.trans hRead).trans hZero).trans hAlu).trans
        (hAlu.ready.finishRmDest insn .Sub _ next hR
          (fun hMem => hKeeps.reg _ (by decide) (hAddr hMem)) hSized)
    · trivial
  -- `call` and `jmp` through an operand
  refine lowers_ite ?_ ?_
  · have hSize : isUintSize (if c.mode.is64 then 8 else 4) = true := by split <;> rfl
    obtain ⟨hRead, hFa, -⟩ := h.materialize.ready.operand R_FA insn.rm insn.pfx.hasRex (by decide) hSize
    have hAll := h.materialize.trans hRead
    split
    · obtain ⟨hVal, hKnown⟩ := hRead.ready.ops [] nofun (rfl : fineOps _ [.movImm R_VAL next] = true)
      obtain ⟨hPush, hAddr⟩ := hVal.ready.pushAddr c.mode.stackWidth
      have hKeeps := hVal.keeps.trans hPush.keeps
      have hFa' := hKeeps.reg _ (by decide) hFa
      have hStore := hPush.ready.emitStorePush next (some R_FA) hAddr
        (hPush.keeps.reg _ (by decide) (hKnown _ rfl)) hWidth fun r hr => ⟨(Option.some.inj hr).symm, hFa'⟩
      exact (((hAll.trans hVal).trans hPush).trans hStore).andThen
        (hStore.ready.exitIndirect (hStore.keeps.reg _ (by decide) hFa'))
    · exact hAll.andThen (hRead.ready.exitIndirect hFa)
  refine lowers_ite ?_ ?_
  · split
    · trivial
    · obtain ⟨hRead, hFa, hAddr⟩ := h.materialize.ready.operand R_FA insn.rm insn.pfx.hasRex (by decide) hSized
      obtain ⟨hInc, hR⟩ := hRead.ready.emitIncdec sized ((insn.reg &&& 7).toNat == 0) hFa
      exact ((h.materialize.trans hRead).trans hInc).trans (hInc.ready.writeRm _ next (by decide) hR
        (fun hMem => hInc.keeps.reg _ (by decide) (hAddr hMem)) hSized)
  · trivial

end Lower

section Scan

variable {c : Compiler} {mem : VirtualMemory}

theorem reg_spill (k : Known) (f : Flags) : (flowOps k (spill f)).reg = k.reg := by
  unfold spill
  split <;> rfl

theorem sees_spill (k : Known) (f : Flags) : seesOps k (spill f) = true := by
  unfold spill
  split <;> rfl

theorem spilt_spill {k : Known} {f : Flags} (hFlags : k.reg R_FLAGS = true) (hPend : Pending f k) :
    Spilt f (flowOps k (spill f)) := by
  by_cases hLive : f = .Live
  · subst hLive
    exact ⟨by simp [spill, flowOps, Op.flow, FSPILL, Known.get, hFlags], fun h => absurd rfl h⟩
  · obtain ⟨hA, hB, hR⟩ := hPend hLive
    refine ⟨?_, fun _ => ⟨?_, ?_, ?_⟩⟩ <;>
      simp [spill, hLive, flowOps, Op.flow, FSPILL, Known.get, hFlags, hA, hB, hR]

theorem Rested.spill {n : Nat} (h : Rested n c) :
    Rested n (c.ops (spill c.flags)) ∧ Spilt c.flags (c.ops (spill c.flags)).known := by
  have hKnown := known_ops c (Jit.spill c.flags)
  have hReg : (c.ops (Jit.spill c.flags)).known.reg = c.known.reg := by rw [hKnown, reg_spill]
  refine ⟨⟨fun target => ?_, ?_, h.links, ?_, ?_, ?_⟩, ?_⟩
  · exact body_append (h.body target) (body_ops (sees_spill _ _))
  · exact (begins_append _ _).trans (by rw [begins_ops, h.begun, Nat.add_zero])
  · rw [hReg]
    exact h.flags
  · rw [hReg]
    exact h.mask
  · unfold Pending
    rw [hReg]
    exact h.pending
  · rw [hKnown]
    exact spilt_spill h.flags h.pending

theorem Rested.prepare {n : Nat} (h : Rested n c) (mem : VirtualMemory) (insn : Insn) (next : U64) :
    Rested n (c.prepare mem insn next) ∧
      ((c.prepare mem insn next).spilled = true → Spilt (c.prepare mem insn next).flags
        (c.prepare mem insn next).known) ∧
      (c.prepare mem insn next).insns = c.insns ∧ (c.prepare mem insn next).slotBase = c.slotBase := by
  unfold Compiler.prepare
  dsimp only
  split <;> rename_i hSpilled
  · have hSame : ∀ d e : Bool, Rested n { c with defer := d, spilled := e } := fun _ _ =>
      ⟨h.body, h.begun, h.links, h.flags, h.mask, h.pending⟩
    exact ⟨(hSame _ _).spill.1, fun _ => (hSame _ _).spill.2, rfl, rfl⟩
  · exact ⟨⟨h.body, h.begun, h.links, h.flags, h.mask, h.pending⟩, fun hNot => absurd hNot hSpilled,
      rfl, rfl⟩

theorem Rested.mark (h : Rested c.insns c) (hSpilt : c.spilled = true → Spilt c.flags c.known) (rip : U64) :
    Ready { c.emit [.begin rip] with insnFlags := c.flags } where
  body target := body_append (h.body target) trivial
  begun := (begins_append _ _).trans (by rw [h.begun]; rfl)
  links := h.links
  flags := (known_emit c [.begin rip]).symm ▸ h.flags
  mask := (known_emit c [.begin rip]).symm ▸ h.mask
  pending := (known_emit c [.begin rip]).symm ▸ h.pending
  before := (known_emit c [.begin rip]).symm ▸ h.pending
  spilt hSpilled := (known_emit c [.begin rip]).symm ▸ hSpilt hSpilled

theorem Rested.lower (h : Rested c.insns c) (hSpilt : c.spilled = true → Spilt c.flags c.known)
    (rip next : U64) (insn : Insn) {kind : Lowered} {d : Compiler}
    (hLower : (c.emit [.begin rip]).lower insn next = (kind, d)) :
    match (kind, d) with
    | (.Ok, d) => Rested (d.insns + 1) { d with insns := d.insns + 1 } ∧ d.insns = c.insns ∧
        d.slotBase = c.slotBase
    | (.Terminated, d) => (∃ target, Shaped d.slotBase target (d.insns + 1) d.asm) ∧
        d.insns = c.insns ∧ d.slotBase = c.slotBase
    | (.Unsupported, _) => True := by
  have hLowers : Lowers _ ((c.emit [.begin rip]).lower insn next) :=
    (h.mark hSpilt rip).lowerInsn insn next
  rw [hLower] at hLowers
  cases kind with
  | Ok =>
    have hRested := hLowers.ready.rested
    exact ⟨⟨hRested.body, hRested.begun, hRested.links, hRested.flags, hRested.mask, hRested.pending⟩,
      hLowers.insns, hLowers.slotBase⟩
  | Terminated => exact hLowers
  | Unsupported => trivial

def Scanned (limit : Nat) (slotBase : Option Nat) : Compiler × U64 × StopReason → Prop
  | (d, _, reason) => d.insns ≤ limit ∧ d.slotBase = slotBase ∧
      (reason = .Terminator → ∃ target, Shaped d.slotBase target d.insns d.asm) ∧
      (reason ≠ .Terminator → Rested d.insns d)

theorem scan_spec (mem : VirtualMemory) (start stop : U64) (n : Nat) (rip : U64) (h : Rested c.insns c) :
    Scanned (c.insns + n) c.slotBase (scan mem start stop n c rip) := by
  induction n generalizing c rip with
  | zero => exact ⟨le_rfl, rfl, nofun, fun _ => h⟩
  | succ n ih =>
    have hRip : Rested c.insns { c with rip := rip } :=
      ⟨h.body, h.begun, h.links, h.flags, h.mask, h.pending⟩
    rw [scan]
    split
    · exact ⟨by omega, rfl, nofun, fun _ => h⟩
    dsimp only
    split
    · exact ⟨by dsimp only; omega, rfl, nofun, fun _ => hRip⟩
    split
    · exact ⟨by dsimp only; omega, rfl, nofun, fun _ => hRip⟩
    rename_i insn _
    obtain ⟨hPrep, hSpilt, hInsns, hSlots⟩ := hRip.prepare mem insn
      ((rip + BitVec.ofNat 64 insn.len) &&& c.mode.addrMask)
    generalize ({ c with rip := rip } : Compiler).prepare mem insn
      ((rip + BitVec.ofNat 64 insn.len) &&& c.mode.addrMask) = e at hPrep hSpilt hInsns hSlots ⊢
    have hInsns : e.insns = c.insns := hInsns
    have hSlots : e.slotBase = c.slotBase := hSlots
    rw [← hInsns] at hPrep
    rcases hLower : (e.emit [.begin rip]).lower insn
      ((rip + BitVec.ofNat 64 insn.len) &&& c.mode.addrMask) with ⟨kind, d⟩
    have hNext := hPrep.lower hSpilt rip _ insn hLower
    cases kind with
    | Ok =>
      obtain ⟨hRested, hD, hDSlots⟩ := hNext
      dsimp only
      split
      · exact ⟨by dsimp only; omega, hDSlots.trans hSlots, nofun, fun _ => hRested⟩
      · have hGoal := ih (c := { d with insns := d.insns + 1 })
          ((rip + BitVec.ofNat 64 insn.len) &&& c.mode.addrMask) hRested
        have hLimit : d.insns + 1 + n = c.insns + (n + 1) := by omega
        rw [← hLimit, ← hDSlots.trans hSlots]
        exact hGoal
    | Terminated =>
      obtain ⟨hShaped, hD, hDSlots⟩ := hNext
      exact ⟨by dsimp only; omega, hDSlots.trans hSlots, fun _ => hShaped, fun hNot => absurd rfl hNot⟩
    | Unsupported => exact ⟨by omega, hSlots, nofun, fun _ => hPrep⟩

theorem Rested.new (mode : Mode) (start : U64) (slotBase : Option Nat) :
    Rested 0 (Compiler.new mode start slotBase) :=
  ⟨fun _ => trivial, rfl, rfl, rfl, rfl, nofun⟩

end Scan

section Kind

variable {c d : Compiler}

theorem kind_ite {p : Prop} [Decidable p] {a b a' b' : Lowered × Compiler} (ha : a.1 = a'.1)
    (hb : b.1 = b'.1) : (if p then a else b).1 = (if p then a' else b').1 := by
  split
  · exact ha
  · exact hb

variable (insn : Insn)

theorem kind_emitShift (size : Nat) (count next : U64) (hasRex : Bool) :
    (c.emitShift insn size count next hasRex).1 = (d.emitShift insn size count next hasRex).1 := by
  unfold Compiler.emitShift
  split
  · rfl
  · refine kind_ite rfl ?_
    cases insn.rm <;> rfl

theorem kind_lower0f (next : U64) : (c.lower0f insn next).1 = (d.lower0f insn next).1 := by
  unfold Compiler.lower0f
  repeat' refine kind_ite ?_ ?_
  all_goals rfl

theorem kind_lowerAlu (op : Alu) (next : U64) : (c.lowerAlu insn op next).1 = (d.lowerAlu insn op next).1 := by
  unfold Compiler.lowerAlu
  repeat' refine kind_ite ?_ ?_
  all_goals rfl

theorem kind_lowerInsn (hMode : d.mode = c.mode) (insn : Insn) (next : U64) :
    (c.lowerInsn insn next).1 = (d.lowerInsn insn next).1 := by
  unfold Compiler.lowerInsn
  rw [hMode]
  refine kind_ite (kind_lower0f insn next) ?_
  refine kind_ite ?_ ?_
  · split
    · rfl
    · exact kind_lowerAlu insn _ next
  repeat' refine kind_ite ?_ ?_
  all_goals
    first
    | rfl
    | exact kind_emitShift insn _ _ next _
    | (split <;> rfl)
    | (dsimp only; split <;> rfl)

theorem kind_lower (hMode : d.mode = c.mode) (insn : Insn) (next : U64) :
    (c.lower insn next).1 = (d.lower insn next).1 := by
  unfold Compiler.lower
  exact kind_lowerInsn (c := { c with insnFlags := c.flags }) (d := { d with insnFlags := d.flags }) hMode
    insn next

def Alike : Compiler × U64 × StopReason → Compiler × U64 × StopReason → Prop
  | (c, rip, reason), (d, rip', reason') => d.insns = c.insns ∧ rip' = rip ∧ reason' = reason

theorem prepare_insns (c : Compiler) (mem : VirtualMemory) (insn : Insn) (next : U64) :
    (c.prepare mem insn next).insns = c.insns ∧ (c.prepare mem insn next).mode = c.mode := by
  unfold Compiler.prepare
  dsimp only
  split <;> exact ⟨rfl, rfl⟩

theorem scan_alike (mem : VirtualMemory) (start stop : U64) (n : Nat) (rip : U64) (hc : Rested c.insns c)
    (hd : Rested d.insns d) (hInsns : d.insns = c.insns) (hMode : d.mode = c.mode) :
    Alike (scan mem start stop n c rip) (scan mem start stop n d rip) := by
  induction n generalizing c d rip with
  | zero => exact ⟨hInsns, rfl, rfl⟩
  | succ n ih =>
    have hRest : ∀ {e : Compiler}, Rested e.insns e → Rested e.insns { e with rip := rip } := fun h =>
      ⟨h.body, h.begun, h.links, h.flags, h.mask, h.pending⟩
    rw [scan, scan]
    split
    · exact ⟨hInsns, rfl, rfl⟩
    have hDecode : decode (fetchWindow mem rip) d.mode rip = decode (fetchWindow mem rip) c.mode rip := by
      rw [hMode]
    have hMask : d.mode.addrMask = c.mode.addrMask := congrArg Mode.addrMask hMode
    dsimp only
    rw [hDecode, hMask]
    split
    · exact ⟨hInsns, rfl, rfl⟩
    split
    · exact ⟨hInsns, rfl, rfl⟩
    rename_i insn _
    have hStep : ∀ {e : Compiler}, Rested e.insns e →
        Ready { (({ e with rip := rip } : Compiler).prepare mem insn ((rip + BitVec.ofNat 64 insn.len) &&&
          c.mode.addrMask)).emit [.begin rip] with
          insnFlags := (({ e with rip := rip } : Compiler).prepare mem insn ((rip +
            BitVec.ofNat 64 insn.len) &&& c.mode.addrMask)).flags } ∧
        (({ e with rip := rip } : Compiler).prepare mem insn ((rip + BitVec.ofNat 64 insn.len) &&&
          c.mode.addrMask)).insns = e.insns ∧
        (({ e with rip := rip } : Compiler).prepare mem insn ((rip + BitVec.ofNat 64 insn.len) &&&
          c.mode.addrMask)).mode = e.mode := by
      intro e he
      obtain ⟨hPrep, hSpilt, -, -⟩ := (hRest he).prepare mem insn
        ((rip + BitVec.ofNat 64 insn.len) &&& c.mode.addrMask)
      obtain ⟨hSame, hSameMode⟩ := prepare_insns { e with rip := rip } mem insn
        ((rip + BitVec.ofNat 64 insn.len) &&& c.mode.addrMask)
      refine ⟨Rested.mark ?_ hSpilt rip, hSame, hSameMode⟩
      rw [hSame]
      exact hPrep
    obtain ⟨hReadyC, hInsnsC, hModeC⟩ := hStep hc
    obtain ⟨hReadyD, hInsnsD, hModeD⟩ := hStep hd
    generalize ({ c with rip := rip } : Compiler).prepare mem insn
      ((rip + BitVec.ofNat 64 insn.len) &&& c.mode.addrMask) = c' at hReadyC hInsnsC hModeC ⊢
    generalize ({ d with rip := rip } : Compiler).prepare mem insn
      ((rip + BitVec.ofNat 64 insn.len) &&& c.mode.addrMask) = d' at hReadyD hInsnsD hModeD ⊢
    have hLowersC : Lowers _ ((c'.emit [.begin rip]).lower insn ((rip + BitVec.ofNat 64 insn.len) &&&
      c.mode.addrMask)) := hReadyC.lowerInsn insn _
    have hLowersD : Lowers _ ((d'.emit [.begin rip]).lower insn ((rip + BitVec.ofNat 64 insn.len) &&&
      c.mode.addrMask)) := hReadyD.lowerInsn insn _
    have hModes : d'.mode = c'.mode := hModeD.trans (hMode.trans hModeC.symm)
    have hKind : ((c'.emit [.begin rip]).lower insn ((rip + BitVec.ofNat 64 insn.len) &&&
        c.mode.addrMask)).1 = ((d'.emit [.begin rip]).lower insn ((rip + BitVec.ofNat 64 insn.len) &&&
        c.mode.addrMask)).1 :=
      kind_lower (c := c'.emit [.begin rip]) (d := d'.emit [.begin rip]) hModes insn _
    rcases hLowerC : (c'.emit [.begin rip]).lower insn ((rip + BitVec.ofNat 64 insn.len) &&&
      c.mode.addrMask) with ⟨kind, c₁⟩
    rcases hLowerD : (d'.emit [.begin rip]).lower insn ((rip + BitVec.ofNat 64 insn.len) &&&
      c.mode.addrMask) with ⟨kind', d₁⟩
    rw [hLowerC, hLowerD] at hKind
    rw [hLowerC] at hLowersC
    rw [hLowerD] at hLowersD
    obtain rfl : kind = kind' := hKind
    have hEqual : d'.insns = c'.insns := hInsnsD.trans (hInsns.trans hInsnsC.symm)
    cases kind with
    | Ok =>
      have hC : c₁.insns = c'.insns := hLowersC.insns
      have hD : d₁.insns = d'.insns := hLowersD.insns
      have hModeC' : c₁.mode = c'.mode := hLowersC.mode
      have hModeD' : d₁.mode = d'.mode := hLowersD.mode
      have hAfter : ∀ {e : Compiler}, Ready e → Rested (e.insns + 1) { e with insns := e.insns + 1 } := fun h =>
        ⟨h.rested.body, h.rested.begun, h.rested.links, h.rested.flags, h.rested.mask, h.rested.pending⟩
      dsimp only
      split
      · exact ⟨by dsimp only; omega, rfl, rfl⟩
      · exact ih (c := { c₁ with insns := c₁.insns + 1 }) (d := { d₁ with insns := d₁.insns + 1 }) _
          (hAfter hLowersC.ready) (hAfter hLowersD.ready) (by dsimp only; omega)
          (hModeD'.trans (hModes.trans hModeC'.symm))
    | Terminated =>
      have hC : c₁.insns = c'.insns := hLowersC.2.1
      have hD : d₁.insns = d'.insns := hLowersD.2.1
      exact ⟨by dsimp only; omega, rfl, rfl⟩
    | Unsupported => exact ⟨hEqual, rfl, rfl⟩

end Kind

end Compiler

theorem compile_shaped {mem : VirtualMemory} {mode : Mode} {start stop : U64} {maxInsns : Nat}
    {slotBase : Option Nat} {plan : BlockPlan}
    (h : compile mem mode start maxInsns slotBase stop = some plan) :
    plan.insns ≤ maxInsns ∧ plan.start = start ∧ plan.bytes < 4096 ∧
      (plan.insns ≠ 0 → ∃ target, Shaped slotBase target plan.insns plan.code) := by
  unfold compile at h
  have hScanned := Compiler.scan_spec mem start stop maxInsns (c := Compiler.new mode start slotBase) start
    (Compiler.Rested.new mode start slotBase)
  rcases hScan : Compiler.scan mem start stop maxInsns (Compiler.new mode start slotBase) start with
    ⟨c, endRip, reason⟩
  rw [hScan] at h hScanned
  obtain ⟨hInsns, hSlots, hDone, hRest⟩ := hScanned
  have hInsns : c.insns ≤ maxInsns := by simpa [Compiler.new] using hInsns
  have hSlots : c.slotBase = slotBase := hSlots
  dsimp only at h
  split at h <;> rename_i hBytes
  · obtain rfl := Option.some.inj h
    refine ⟨hInsns, rfl, by simpa [BitVec.lt_def] using hBytes, fun hSome => ?_⟩
    dsimp only at hSome ⊢
    unfold Compiler.finish
    split <;> rename_i hReason
    · rw [← hSlots]
      exact hDone hReason
    · obtain ⟨hShaped, -, -⟩ := (hRest hReason).leave (Nat.pos_of_ne_zero hSome) endRip
        (.of (decide (reason = .Full ∨ reason = .Wrapped))) (by unfold ExitKind.of; split <;> nofun)
      rwa [hSlots] at hShaped
  · cases h

theorem compile_slots {mem : VirtualMemory} {mode : Mode} {start stop : U64} {maxInsns : Nat}
    {slotBase : Option Nat} {plan : BlockPlan}
    (h : compile mem mode start maxInsns slotBase stop = some plan) (slotBase' : Option Nat) :
    ∃ plan', compile mem mode start maxInsns slotBase' stop = some plan' ∧ plan'.insns = plan.insns := by
  have hAlike := Compiler.scan_alike mem start stop maxInsns (c := Compiler.new mode start slotBase)
    (d := Compiler.new mode start slotBase') start (Compiler.Rested.new mode start slotBase)
    (Compiler.Rested.new mode start slotBase') rfl rfl
  unfold compile at h ⊢
  rcases hScan : Compiler.scan mem start stop maxInsns (Compiler.new mode start slotBase) start with
    ⟨c, endRip, reason⟩
  rcases hScan' : Compiler.scan mem start stop maxInsns (Compiler.new mode start slotBase') start with
    ⟨d, endRip', reason'⟩
  rw [hScan, hScan'] at hAlike
  rw [hScan] at h
  obtain ⟨hInsns, rfl, rfl⟩ := hAlike
  dsimp only at h ⊢
  split at h
  · obtain rfl := Option.some.inj h
    rename_i hBytes
    rw [if_pos hBytes]
    exact ⟨_, rfl, hInsns⟩
  · cases h

end Exemu.Jit
