import Exemu.Jit.Asm
import Exemu.Jit.Decode

/-! # The block compiler

One pass over guest instructions from `start`, emitting host code for each.
-/
namespace Exemu.Jit

def F_CF : Nat := 0
def F_PF : Nat := 2
def F_AF : Nat := 4
def F_ZF : Nat := 6
def F_SF : Nat := 7
def F_OF : Nat := 11
def ARITH_MASK : U64 :=
  (1 <<< F_CF) ||| (1 <<< F_PF) ||| (1 <<< F_AF) ||| (1 <<< F_ZF) ||| (1 <<< F_SF) ||| (1 <<< F_OF)

def FSPILL : Nat := 96

def MAX_INSNS : Nat := 64
def MAX_LINKS : Nat := 2
def INDIRECT_TARGET : U64 := BitVec.allOnes 64

inductive StopReason where
  | Unsupported (rip : U64) (opcode : U8) (esc : Bool)
  | FetchFailed (rip : U64)
  | Full
  | Terminator
  | Wrapped
  | Breakpoint (rip : U64)
  deriving DecidableEq, Repr

inductive Commit where
  | None
  | Flags
  | Gpr (idx : U8) (size : Nat) (hasRex : Bool)
  deriving DecidableEq, Repr

/-- Where the guest's arithmetic flags are: in `R_FLAGS`, or still to be computed. -/
inductive Flags where
  | Live
  | Arith (size : Nat) (sub : Bool) (keepCf : Bool)
  | Logic (size : Nat)
  deriving DecidableEq, Repr

inductive ExitKind where
  | Return
  | Fault
  | Link
  deriving DecidableEq, Repr

def ExitKind.of (linkable : Bool) : ExitKind := if linkable then .Link else .Return

/-- What `emit_exit_tail` bakes into an exit. -/
structure Tail where
  retired : Nat
  fault : Bool
  slot : Option Nat
  indirect : Bool
  deriving DecidableEq, Repr

structure ExitCode where
  ops : List Op
  tail : Tail
  deriving DecidableEq, Repr

inductive Test where
  /-- `tbnz` or `tbz` -/
  | bit (rt : XReg) (n : Nat) (set : Bool)
  | cbnz (rt : XReg)
  deriving DecidableEq, Repr

inductive Inst where
  /-- marks the first host instruction of the guest instruction at `rip`; no code -/
  | begin (rip : U64)
  | op (o : Op)
  | load (dst : XReg) (size : Nat) (fault : ExitCode)
  /-- `push`: `R_VAL` holds the address afterwards, on every path out of the access -/
  | store (src : XReg) (size : Nat) (push : Bool) (wrote fault : ExitCode)
  | branch (test : Test) (fall : ExitCode)
  | exit (e : ExitCode)
  deriving DecidableEq, Repr

structure Compiler where
  asm : List Inst
  mode : Mode
  insns : Nat
  rip : U64
  flags : Flags
  insnFlags : Flags
  defer : Bool
  spilled : Bool
  slotBase : Option Nat
  linkTargets : List U64

inductive Lowered where
  | Ok
  | Terminated
  | Unsupported
  deriving DecidableEq, Repr

structure BlockPlan where
  start : U64
  insns : Nat
  endRip : U64
  bytes : Nat
  code : List Inst
  words : Nat
  stop : StopReason
  links : List U64

def high8 (size : Nat) (hasRex : Bool) (idx : U8) : Bool :=
  size == 1 && !hasRex && (decide (4 ≤ idx) && decide (idx < 8))

def loadGpr (dst : XReg) (idx : U8) (size : Nat) (hasRex : Bool) : Op :=
  if high8 size hasRex idx then .ldrGpr 1 dst (regIdx (idx &&& 3)) 1
  else .ldrGpr size dst (regIdx idx) 0

def storeGpr (src : XReg) (idx : U8) (size : Nat) (hasRex : Bool) : Op :=
  if high8 size hasRex idx then .strGpr 1 src (regIdx (idx &&& 3)) 1
  else if size = 4 then .strGpr 8 src (regIdx idx) 0
  else .strGpr size src (regIdx idx) 0

def maskTo (r : XReg) (size : Nat) : List Op :=
  if size = 8 then [] else [.andImm r r (maskOf size)]

def segBase (seg : U8) : List Op :=
  if seg = 0x65 then [.ldrSeg T0 .Gs, .addReg true R_ADDR R_ADDR T0 0]
  else if seg = 0x64 then [.ldrSeg T0 .Fs, .addReg true R_ADDR R_ADDR T0 0]
  else []

def wrapAddr (mode : Mode) (r : XReg) : List Op :=
  if mode.is64 then [] else [.andImm r r 0xffffffff]

def emitBase (m : MemOp) : List Op :=
  match m.base, m.index with
  | some b, some i =>
    [.ldrGpr 8 R_ADDR (regIdx b) 0, .ldrGpr 8 T0 (regIdx i) 0, .addReg true R_ADDR R_ADDR T0 m.scale]
  | some b, none => [.ldrGpr 8 R_ADDR (regIdx b) 0]
  | none, some i => [.ldrGpr 8 T0 (regIdx i) 0, .lslImm R_ADDR T0 m.scale]
  | none, none => [.movImm R_ADDR 0]

def emitDisp (disp : U64) : List Op :=
  if disp = 0 then []
  else if 0 < disp.toInt ∧ disp.toInt < 4096 then [.addImm R_ADDR R_ADDR disp]
  else if disp.toInt < 0 ∧ -disp.toInt < 4096 then [.subImm R_ADDR R_ADDR (-disp)]
  else [.movImm T0 disp, .addReg true R_ADDR R_ADDR T0 0]

def emitAddr (mode : Mode) (m : MemOp) : List Op :=
  match m.abs with
  | some abs => [.movImm R_ADDR (abs &&& mode.addrMask)]
  | none => emitBase m ++ segBase m.seg ++ emitDisp m.disp ++ wrapAddr mode R_ADDR

def emitRmAddr (mode : Mode) : Rm → List Op
  | .Reg _ => []
  | .Mem m => emitAddr mode m

def flagsSzpInto (dst res : XReg) (size : Nat) : List Op :=
  [ .cmpZero res, .cset T3 .Eq, .orrReg dst dst T3 F_ZF,
    .ubfx T3 res (size * 8 - 1) 1, .orrReg dst dst T3 F_SF,
    .andImm T3 res 0xff, .ldrbParity T3 T3, .orrReg dst dst T3 F_PF ]

def flagsArith (size : Nat) (sub keepCf : Bool) : List Op :=
  (if keepCf then
    [.movImm T2 (ARITH_MASK &&& ~~~((1 : U64) <<< F_CF)), .bicReg R_FLAGS R_FLAGS T2]
  else
    [ .bicReg R_FLAGS R_FLAGS R_MASK, .cset T3 (if sub then .Cc else .Cs),
      .orrReg R_FLAGS R_FLAGS T3 F_CF ]) ++
  [ .cset T3 .Vs, .orrReg R_FLAGS R_FLAGS T3 F_OF,
    .eorReg T3 R_FA R_FB, .eorReg T3 T3 R_FR, .ubfx T3 T3 4 1, .orrReg R_FLAGS R_FLAGS T3 F_AF ] ++
  flagsSzpInto R_FLAGS R_FR size

/-- `adds` or `subs` of two registers. -/
def addsSubs (sub sf : Bool) (rd rn rm : XReg) : Op :=
  if sub then .subsReg sf rd rn rm else .addsReg sf rd rn rm

def addSub (sub sf : Bool) (rd rn rm : XReg) : Op :=
  if sub then .subReg sf rd rn rm else .addReg sf rd rn rm 0

def shiftOperands (size : Nat) : List Op :=
  [.lslImm T0 R_FA (64 - size * 8), .lslImm T1 R_FB (64 - size * 8)]

def compareOperands (size : Nat) (sub : Bool) : List Op :=
  if size = 8 then [addsSubs sub true ZR R_FA R_FB]
  else if size = 4 then [addsSubs sub false ZR R_FA R_FB]
  else shiftOperands size ++ [addsSubs sub true ZR T0 T1]

def emitFlags : Flags → List Op
  | .Live => []
  | .Logic size => .bicReg R_FLAGS R_FLAGS R_MASK :: flagsSzpInto R_FLAGS R_FR size
  | .Arith size sub keepCf => compareOperands size sub ++ flagsArith size sub keepCf

def emitArithValue (size : Nat) (sub : Bool) : List Op :=
  if size = 8 ∨ size = 4 then [addSub sub (size == 8) R_FR R_FA R_FB]
  else addSub sub true R_FR R_FA R_FB :: maskTo R_FR size

def emitArithEagerValue (size : Nat) (sub : Bool) : List Op :=
  if size = 8 ∨ size = 4 then [addsSubs sub (size == 8) R_FR R_FA R_FB]
  else shiftOperands size ++
    [addsSubs sub true R_FR T0 T1, .lsrImm R_FR R_FR (64 - size * 8)]

def emitLogicValue (op : Alu) : Op :=
  match op with
  | .And => .andReg R_FR R_FA R_FB
  | .Or => .orrReg R_FR R_FA R_FB 0
  | _ => .eorReg R_FR R_FA R_FB

def flip (dst : XReg) : Op := .eorImm dst dst 1

def condBit (dst : XReg) (bit : Nat) (neg : Bool) : List Op :=
  .ubfx dst R_FLAGS bit 1 :: if neg then [flip dst] else []

def emitCondValue (cc : Nat) (dst : XReg) : List Op :=
  let neg := cc % 2 == 1
  match cc % 16 / 2 with
  | 0 => condBit dst F_OF neg
  | 1 => condBit dst F_CF neg
  | 2 => condBit dst F_ZF neg
  | 3 =>
    [.ubfx dst R_FLAGS F_CF 1, .ubfx T3 R_FLAGS F_ZF 1, .orrReg dst dst T3 0] ++
      if neg then [flip dst] else []
  | 4 => condBit dst F_SF neg
  | 5 => condBit dst F_PF neg
  | 6 =>
    [.ubfx dst R_FLAGS F_SF 1, .ubfx T3 R_FLAGS F_OF 1, .eorReg dst dst T3] ++
      if neg then [flip dst] else []
  | _ =>
    [ .ubfx dst R_FLAGS F_SF 1, .ubfx T3 R_FLAGS F_OF 1, .eorReg dst dst T3,
      .ubfx T3 R_FLAGS F_ZF 1, .orrReg dst dst T3 0 ] ++
      if neg then [flip dst] else []

def branchIfCond (cc : Nat) : List Op × Test :=
  let set := cc % 2 == 0
  match cc % 16 / 2 with
  | 0 => ([], .bit R_FLAGS F_OF set)
  | 1 => ([], .bit R_FLAGS F_CF set)
  | 2 => ([], .bit R_FLAGS F_ZF set)
  | 4 => ([], .bit R_FLAGS F_SF set)
  | 5 => ([], .bit R_FLAGS F_PF set)
  | _ => (emitCondValue cc T0, .cbnz T0)

def emitCommit : Commit → List Op
  | .None => []
  | .Flags => [.movReg R_FLAGS R_FA]
  | .Gpr idx size hasRex => [storeGpr R_VAL idx size hasRex]

def emitImul (size : Nat) : List Op :=
  (if size = 8 then
    [.mul R_VAL R_FA R_FB, .smulh T1 R_FA R_FB, .cmpRegAsr T1 R_VAL 63, .cset T3 .Ne]
  else
    [.sbfx T0 R_FA 0 (size * 8), .sbfx T1 R_FB 0 (size * 8), .mul T2 T0 T1, .movReg R_VAL T2] ++
    maskTo R_VAL size ++
    [.sbfx T0 R_VAL 0 (size * 8), .subsReg true ZR T0 T2, .cset T3 .Ne]) ++
  [ .movImm T0 ((1 <<< F_CF) ||| (1 <<< F_OF)), .bicReg R_FLAGS R_FLAGS T0,
    .orrReg R_FLAGS R_FLAGS T3 F_CF, .orrReg R_FLAGS R_FLAGS T3 F_OF ]

inductive Shift where
  | Shl | Shr | Sar
  deriving DecidableEq, Repr

def Shift.ofKind (kind : Nat) : Option Shift :=
  match kind with
  | 4 | 6 => some .Shl
  | 5 => some .Shr
  | 7 => some .Sar
  | _ => none

/-- The shifted value in `R_VAL`, the bit shifted out last in `T3`. -/
def shiftValue (kind : Shift) (size count : Nat) : List Op :=
  match kind with
  | .Shl =>
    (if count ≤ size * 8 then [.ubfx T3 R_FB (size * 8 - count) 1] else [.movImm T3 0]) ++
      .lslImm R_VAL R_FB (min count 63) :: maskTo R_VAL size
  | .Sar =>
    [.sbfx T0 R_FB 0 (size * 8), .ubfx T3 T0 (count - 1) 1, .asrImm R_VAL T0 (min count 63)] ++
      maskTo R_VAL size
  | .Shr => [.ubfx T3 R_FB (count - 1) 1, .lsrImm R_VAL R_FB (min count 63)]

/-- The flags of a shift by a nonzero count, into `R_FA`. -/
def shiftFlags (kind : Shift) (size count : Nat) : List Op :=
  let clear : U64 := (1 <<< F_CF) ||| (1 <<< F_SF) ||| (1 <<< F_ZF) ||| (1 <<< F_PF) |||
    (if count = 1 then 1 <<< F_OF else 0)
  [.movImm T0 clear, .bicReg R_FA R_FLAGS T0, .orrReg R_FA R_FA T3 F_CF] ++
  (if count = 1 then
    match kind with
    | .Shl => [.ubfx T0 R_VAL (size * 8 - 1) 1, .eorReg T0 T0 T3, .orrReg R_FA R_FA T0 F_OF]
    | .Shr => [.ubfx T0 R_FB (size * 8 - 1) 1, .orrReg R_FA R_FA T0 F_OF]
    | .Sar => []
  else []) ++
  flagsSzpInto R_FA R_VAL size

def exitCode (flags : Flags) (rip : U64) (retired : Nat) (fault : Bool) : ExitCode :=
  ⟨emitFlags flags ++ [.movImm T2 rip], ⟨retired, fault, none, false⟩⟩

/-- The pair of spills in front of an instruction that sets flags and touches memory. -/
def spill (flags : Flags) : List Op :=
  .stpFrame R_FLAGS R_FR FSPILL :: if flags ≠ .Live then [.stpFrame R_FA R_FB (FSPILL + 16)] else []

def unspill (flags : Flags) : List Op :=
  .ldpFrame R_FLAGS R_FR FSPILL :: if flags ≠ .Live then [.ldpFrame R_FA R_FB (FSPILL + 16)] else []

namespace Compiler

def emit (c : Compiler) (is : List Inst) : Compiler := { c with asm := c.asm ++ is }

def ops (c : Compiler) (os : List Op) : Compiler := c.emit (os.map .op)

def takeSlot (c : Compiler) (target : U64) : Option Nat × Compiler :=
  match c.slotBase with
  | none => (none, c)
  | some base =>
    if c.linkTargets.length ≥ MAX_LINKS then (none, c)
    else
      (some (base + c.linkTargets.length), { c with linkTargets := c.linkTargets ++ [target] })

def exitTo (c : Compiler) (flags : Flags) (rip : U64) (retired : Nat) (kind : ExitKind) :
    ExitCode × Compiler :=
  let ops := emitFlags flags ++ [.movImm T2 rip]
  match kind with
  | .Link =>
    let (slot, c) := c.takeSlot rip
    (⟨ops, ⟨retired, false, slot, false⟩⟩, c)
  | _ => (⟨ops, ⟨retired, kind == .Fault, none, false⟩⟩, c)

def leave (c : Compiler) (flags : Flags) (rip : U64) (retired : Nat) (kind : ExitKind) : Compiler :=
  let (e, c) := c.exitTo flags rip retired kind
  c.emit [.exit e]

def exitIndirect (c : Compiler) (flags : Flags) (target : XReg) (retired : Nat) : Compiler :=
  let (slot, c) := c.takeSlot INDIRECT_TARGET
  c.emit [.exit ⟨emitFlags flags ++ [.movReg T2 target], ⟨retired, false, slot, true⟩⟩]

def emitLoad (c : Compiler) (dst : XReg) (size : Nat) : Compiler :=
  c.emit [.load dst size (exitCode c.insnFlags c.rip c.insns true)]

/-- The two ways out of a `StoreStub`: the store reached the block's own code, or faulted. -/
def wroteStub (c : Compiler) (commit : Commit) (nextRip : U64) (nextReg : Option XReg) : ExitCode :=
  match nextReg with
  | none =>
    ⟨emitCommit commit ++ emitFlags c.flags ++ [.movImm T2 nextRip], ⟨c.insns + 1, false, none, false⟩⟩
  | some r =>
    ⟨emitCommit commit ++ emitFlags c.flags ++ [.movReg T2 r], ⟨c.insns + 1, false, none, false⟩⟩

def faultStub (c : Compiler) : ExitCode :=
  let e := exitCode c.insnFlags c.rip c.insns true
  if c.spilled then { e with ops := unspill c.insnFlags ++ e.ops } else e

def emitStore (c : Compiler) (src : XReg) (size : Nat) (commit : Commit) (nextRip : U64) : Compiler :=
  (c.emit [.store src size false (c.wroteStub commit nextRip none) c.faultStub]).ops (emitCommit commit)

def emitStorePush (c : Compiler) (w : Nat) (next : U64) (nextReg : Option XReg) : Compiler :=
  let commit := Commit.Gpr 4 8 true
  (c.emit [.store R_VAL w true (c.wroteStub commit next nextReg) c.faultStub]).ops
    [storeGpr R_VAL 4 8 true]

def rmAddr (c : Compiler) (rm : Rm) : Compiler := c.ops (emitRmAddr c.mode rm)

def readRm (c : Compiler) (rm : Rm) (dst : XReg) (size : Nat) (hasRex : Bool) : Compiler :=
  match rm with
  | .Reg i => c.ops [loadGpr dst i size hasRex]
  | .Mem _ => c.emitLoad dst size

def writeRm (c : Compiler) (rm : Rm) (src : XReg) (size : Nat) (hasRex : Bool) (next : U64) : Compiler :=
  match rm with
  | .Reg i => c.ops [storeGpr src i size hasRex]
  | .Mem _ => c.emitStore src size .None next

def materialize (c : Compiler) : Compiler :=
  { c.ops (emitFlags c.flags) with flags := .Live, insnFlags := .Live }

def settleForRmDest (c : Compiler) (rm : Rm) (op : Alu) : Compiler :=
  if rm.isMem && op.writesBack then c.materialize else c

def setFlags (c : Compiler) (flags : Flags) : Compiler := { c with flags := flags }

def emitArithEager (c : Compiler) (size : Nat) (sub keepCf : Bool) : Compiler :=
  (c.ops (emitArithEagerValue size sub ++ flagsArith size sub keepCf)).setFlags .Live

def emitAlu (c : Compiler) (op : Alu) (size : Nat) : Compiler :=
  if c.defer then
    match op with
    | .Add => (c.ops (emitArithValue size false)).setFlags (.Arith size false false)
    | .Sub | .Cmp => (c.ops (emitArithValue size true)).setFlags (.Arith size true false)
    | _ => (c.ops [emitLogicValue op]).setFlags (.Logic size)
  else
    match op with
    | .Add | .Sub | .Cmp => c.emitArithEager size (op != .Add) false
    | _ =>
      (c.ops ([emitLogicValue op, .bicReg R_FLAGS R_FLAGS R_MASK] ++
        flagsSzpInto R_FLAGS R_FR size)).setFlags .Live

def emitIncdec (c : Compiler) (size : Nat) (isInc : Bool) : Compiler :=
  let c := c.ops [.movImm R_FB 1]
  if c.defer then (c.ops (emitArithValue size !isInc)).setFlags (.Arith size (!isInc) true)
  else c.emitArithEager size (!isInc) true

def finishRmDest (c : Compiler) (insn : Insn) (op : Alu) (size : Nat) (hasRex : Bool) (next : U64) :
    Compiler :=
  if op.writesBack then c.writeRm insn.rm R_FR size hasRex next else c

/-- The stack pointer moved down by `w`, in `R_ADDR`. -/
def pushAddr (c : Compiler) (w : Nat) : Compiler :=
  c.ops ([.ldrGpr 8 T0 Reg.Rsp 0, .subImm R_ADDR T0 (BitVec.ofNat 64 w)] ++ wrapAddr c.mode R_ADDR)

def emitJcc (c : Compiler) (cc : Nat) (target fallthrough : U64) : Compiler :=
  let c := c.materialize
  let (os, test) := branchIfCond cc
  let (fall, c) := c.exitTo .Live fallthrough (c.insns + 1) .Link
  ((c.ops os).emit [.branch test fall]).leave .Live target (c.insns + 1) .Link

def emitShift (c : Compiler) (insn : Insn) (size : Nat) (count : U64) (next : U64) (hasRex : Bool) :
    Lowered × Compiler :=
  match Shift.ofKind (insn.reg &&& 7).toNat with
  | none => (.Unsupported, c)
  | some kind =>
    let count := (count &&& if size = 8 then 0x3f else 0x1f).toNat
    if count = 0 then
      (.Ok, ((c.rmAddr insn.rm).readRm insn.rm R_VAL size hasRex).writeRm insn.rm R_VAL size hasRex next)
    else
      let c := (c.materialize.rmAddr insn.rm).readRm insn.rm R_FB size hasRex
      let c := c.ops (shiftValue kind size count ++ shiftFlags kind size count)
      match insn.rm with
      | .Reg i => (.Ok, c.ops [.movReg R_FLAGS R_FA, storeGpr R_VAL i size hasRex])
      | .Mem _ => (.Ok, c.emitStore R_VAL size .Flags next)

def lower0f (c : Compiler) (insn : Insn) (next : U64) : Lowered × Compiler :=
  let hasRex := insn.pfx.hasRex
  let op := insn.opcode.toNat
  let size := opsize c.mode insn.pfx
  if op = 0x1F then (.Ok, c)
  else if 0x40 ≤ op ∧ op ≤ 0x4F then
    let c := (c.materialize.rmAddr insn.rm).readRm insn.rm R_FA size hasRex
    (.Ok, c.ops ([loadGpr R_VAL insn.reg size hasRex] ++ emitCondValue op T0 ++
      [.cmpZero T0, .csel R_VAL R_FA R_VAL .Ne, storeGpr R_VAL insn.reg size hasRex]))
  else if 0x80 ≤ op ∧ op ≤ 0x8F then
    (.Terminated, c.emitJcc op ((next + insn.imm) &&& c.mode.addrMask) next)
  else if op = 0xAF then
    let c := (c.materialize.rmAddr insn.rm).readRm insn.rm R_FB size hasRex
    (.Ok, c.ops ([loadGpr R_FA insn.reg size hasRex] ++ emitImul size ++
      [storeGpr R_VAL insn.reg size hasRex]))
  else if op = 0xB6 ∨ op = 0xB7 ∨ op = 0xBE ∨ op = 0xBF then
    let src := if op % 2 = 0 then 1 else 2
    let c := (c.rmAddr insn.rm).readRm insn.rm R_VAL src hasRex
    let c := if op ≥ 0xBE then c.ops (.sbfx R_VAL R_VAL 0 (src * 8) :: maskTo R_VAL size) else c
    (.Ok, c.ops [storeGpr R_VAL insn.reg size hasRex])
  else (.Unsupported, c)

/-- The two-operand forms at opcodes `00` to `3D`. -/
def lowerAlu (c : Compiler) (insn : Insn) (op : Alu) (next : U64) : Lowered × Compiler :=
  let hasRex := insn.pfx.hasRex
  let form := insn.opcode.toNat % 8
  let size := if form % 2 = 0 ∧ form ≠ 5 then 1 else opsize c.mode insn.pfx
  if form ≤ 1 then
    let c := ((c.settleForRmDest insn.rm op).rmAddr insn.rm).readRm insn.rm R_FA size hasRex
    let c := (c.ops [loadGpr R_FB insn.reg size hasRex]).emitAlu op size
    (.Ok, c.finishRmDest insn op size hasRex next)
  else if form ≤ 3 then
    let c := (c.rmAddr insn.rm).readRm insn.rm R_FB size hasRex
    let c := (c.ops [loadGpr R_FA insn.reg size hasRex]).emitAlu op size
    (.Ok, if op.writesBack then c.ops [storeGpr R_FR insn.reg size hasRex] else c)
  else
    let c := (c.ops [loadGpr R_FA 0 size hasRex, .movImm R_FB (insn.imm &&& maskOf size)]).emitAlu op size
    (.Ok, if op.writesBack then c.ops [storeGpr R_FR 0 size hasRex] else c)

/-- `ret` and `ret imm16`. -/
def lowerRet (c : Compiler) (insn : Insn) : Lowered × Compiler :=
  let c := c.materialize
  let w := c.mode.stackWidth
  let c := (c.ops (.ldrGpr 8 R_ADDR Reg.Rsp 0 :: wrapAddr c.mode R_ADDR)).emitLoad R_FA w
  let released := BitVec.ofNat 64 w + if insn.opcode = 0xC2 then insn.imm else 0
  let c := c.ops (if released < 4096 then [.addImm T0 R_ADDR released]
    else [.movImm T0 released, .addReg true T0 R_ADDR T0 0])
  let c := c.ops (wrapAddr c.mode T0 ++ [.strGpr 8 T0 Reg.Rsp 0])
  (.Terminated, c.exitIndirect .Live R_FA (c.insns + 1))

/-- `lower`, after its first assignment. -/
def lowerInsn (c : Compiler) (insn : Insn) (next : U64) : Lowered × Compiler :=
  let p := insn.pfx
  let hasRex := p.hasRex
  let op := insn.opcode.toNat
  let w := c.mode.stackWidth
  let opreg := (insn.opcode &&& 7) ||| (p.b <<< 3)
  let sub := (insn.reg &&& 7).toNat
  /- the byte form of an even opcode -/
  let sized := if op % 2 = 0 then 1 else opsize c.mode p
  if insn.esc then c.lower0f insn next
  else if op ≤ 0x3D ∧ op % 8 < 6 then
    match Alu.fromOp (op / 8) with
    | none => (.Unsupported, c)
    | some a => c.lowerAlu insn a next
  else if 0x40 ≤ op ∧ op ≤ 0x4F ∧ !c.mode.is64 then
    let r := insn.opcode &&& 7
    let size := opsize c.mode p
    let c := (c.materialize.ops [loadGpr R_FA r size hasRex]).emitIncdec size (decide (op < 0x48))
    (.Ok, c.ops [storeGpr R_FR r size hasRex])
  else if 0x50 ≤ op ∧ op ≤ 0x57 then
    (.Ok, ((c.ops [.ldrGpr 8 R_VAL (regIdx opreg) 0]).pushAddr w).emitStorePush w next none)
  else if 0x58 ≤ op ∧ op ≤ 0x5F then
    let c := (c.ops (.ldrGpr 8 R_ADDR Reg.Rsp 0 :: wrapAddr c.mode R_ADDR)).emitLoad R_VAL w
    (.Ok, c.ops (.addImm T0 R_ADDR (BitVec.ofNat 64 w) :: wrapAddr c.mode T0 ++ wrapAddr c.mode R_VAL ++
      [.strGpr 8 T0 Reg.Rsp 0, .strGpr 8 R_VAL (regIdx opreg) 0]))
  else if (op = 0x68 ∨ op = 0x6A) ∧ !p.p66 then
    (.Ok, ((c.ops [.movImm R_VAL insn.imm]).pushAddr w).emitStorePush w next none)
  else if op = 0x63 ∧ c.mode.is64 then
    let size := opsize c.mode p
    let c := (c.rmAddr insn.rm).readRm insn.rm R_VAL 4 hasRex
    (.Ok, c.ops (.sbfx R_VAL R_VAL 0 32 :: maskTo R_VAL size ++ [storeGpr R_VAL insn.reg size hasRex]))
  else if op = 0x69 ∨ op = 0x6B then
    let size := opsize c.mode p
    let c := (c.materialize.rmAddr insn.rm).readRm insn.rm R_FA size hasRex
    (.Ok, c.ops ([.movImm R_FB (insn.imm &&& maskOf size)] ++ emitImul size ++
      [storeGpr R_VAL insn.reg size hasRex]))
  else if 0x70 ≤ op ∧ op ≤ 0x7F then
    (.Terminated, c.emitJcc op ((next + insn.imm) &&& c.mode.addrMask) next)
  else if op = 0x80 ∨ op = 0x81 ∨ op = 0x83 then
    let size := if op = 0x80 then 1 else opsize c.mode p
    match Alu.fromOp sub with
    | none => (.Unsupported, c)
    | some a =>
      let c := ((c.settleForRmDest insn.rm a).rmAddr insn.rm).readRm insn.rm R_FA size hasRex
      let c := (c.ops [.movImm R_FB (insn.imm &&& maskOf size)]).emitAlu a size
      (.Ok, c.finishRmDest insn a size hasRex next)
  else if op = 0x84 ∨ op = 0x85 then
    let c := (c.rmAddr insn.rm).readRm insn.rm R_FA sized hasRex
    (.Ok, (c.ops [loadGpr R_FB insn.reg sized hasRex]).emitAlu .And sized)
  else if op = 0x88 ∨ op = 0x89 then
    (.Ok, ((c.rmAddr insn.rm).ops [loadGpr R_VAL insn.reg sized hasRex]).writeRm insn.rm R_VAL sized
      hasRex next)
  else if op = 0x8A ∨ op = 0x8B then
    let c := (c.rmAddr insn.rm).readRm insn.rm R_VAL sized hasRex
    (.Ok, c.ops [storeGpr R_VAL insn.reg sized hasRex])
  else if op = 0x8D then
    match insn.rm with
    | .Reg _ => (.Unsupported, c)
    | .Mem m =>
      let size := opsize c.mode p
      (.Ok, c.ops (emitAddr c.mode m ++ [.movReg R_VAL R_ADDR] ++ maskTo R_VAL size ++
        [storeGpr R_VAL insn.reg size hasRex]))
  else if op = 0x90 ∧ p.b = 0 then (.Ok, c)
  else if 0xA0 ≤ op ∧ op ≤ 0xA3 then
    if c.mode.is64 ∧ p.seg = 0x64 then (.Unsupported, c)
    else
      let c := c.ops (.movImm R_ADDR insn.imm :: segBase p.seg ++ wrapAddr c.mode R_ADDR)
      if op = 0xA0 ∨ op = 0xA1 then
        (.Ok, (c.emitLoad R_VAL sized).ops [storeGpr R_VAL 0 sized hasRex])
      else (.Ok, (c.ops [loadGpr R_VAL 0 sized hasRex]).emitStore R_VAL sized .None next)
  else if op = 0xA8 ∨ op = 0xA9 then
    (.Ok, (c.ops [loadGpr R_FA 0 sized hasRex, .movImm R_FB (insn.imm &&& maskOf sized)]).emitAlu .And sized)
  else if 0xB0 ≤ op ∧ op ≤ 0xB7 then
    (.Ok, c.ops [.movImm R_VAL (insn.imm &&& 0xff), storeGpr R_VAL opreg 1 hasRex])
  else if 0xB8 ≤ op ∧ op ≤ 0xBF then
    let size := opsize c.mode p
    (.Ok, c.ops [.movImm R_VAL (insn.imm &&& maskOf size), storeGpr R_VAL opreg size hasRex])
  else if op = 0xC0 ∨ op = 0xC1 ∨ op = 0xD0 ∨ op = 0xD1 then
    c.emitShift insn sized (if op < 0xD0 then insn.imm else 1) next hasRex
  else if op = 0xC6 ∨ op = 0xC7 then
    if sub ≠ 0 then (.Unsupported, c)
    else
      (.Ok, ((c.rmAddr insn.rm).ops [.movImm R_VAL (insn.imm &&& maskOf sized)]).writeRm insn.rm R_VAL
        sized hasRex next)
  else if (op = 0xC2 ∨ op = 0xC3) ∧ !p.p66 then c.lowerRet insn
  else if op = 0xC9 then
    let c := (c.ops (.ldrGpr 8 R_ADDR Reg.Rbp 0 :: wrapAddr c.mode R_ADDR)).emitLoad R_VAL w
    (.Ok, c.ops (.addImm T0 R_ADDR (BitVec.ofNat 64 w) :: wrapAddr c.mode T0 ++
      [.strGpr 8 T0 Reg.Rsp 0, .strGpr 8 R_VAL Reg.Rbp 0]))
  else if op = 0xE8 ∧ !p.p66 then
    let target := (next + insn.imm) &&& c.mode.addrMask
    let c := ((c.ops [.movImm R_VAL next]).pushAddr w).emitStorePush w target none
    (.Terminated, c.leave c.flags target (c.insns + 1) .Link)
  else if op = 0xE9 ∨ op = 0xEB then
    let target := (next + insn.imm) &&& c.mode.addrMask
    (.Terminated, c.leave c.flags target (c.insns + 1) .Link)
  else if op = 0xF6 ∨ op = 0xF7 then
    if sub = 2 then
      let c := (c.rmAddr insn.rm).readRm insn.rm R_VAL sized hasRex
      (.Ok, (c.ops (.mvn R_VAL R_VAL :: maskTo R_VAL sized)).writeRm insn.rm R_VAL sized hasRex next)
    else if sub = 3 then
      let c := ((c.settleForRmDest insn.rm .Sub).rmAddr insn.rm).readRm insn.rm R_FB sized hasRex
      let c := (c.ops [.movImm R_FA 0]).emitAlu .Sub sized
      (.Ok, c.finishRmDest insn .Sub sized hasRex next)
    else (.Unsupported, c)
  else if op = 0xFF ∧ (sub = 2 ∨ sub = 4) ∧ !p.p66 then
    let size := if c.mode.is64 then 8 else 4
    let c := (c.materialize.rmAddr insn.rm).readRm insn.rm R_FA size hasRex
    let c :=
      if sub = 2 then ((c.ops [.movImm R_VAL next]).pushAddr w).emitStorePush w next (some R_FA) else c
    (.Terminated, c.exitIndirect .Live R_FA (c.insns + 1))
  else if op = 0xFE ∨ op = 0xFF then
    if sub > 1 then (.Unsupported, c)
    else
      let c := (c.materialize.rmAddr insn.rm).readRm insn.rm R_FA sized hasRex
      (.Ok, (c.emitIncdec sized (sub == 0)).writeRm insn.rm R_FR sized hasRex next)
  else (.Unsupported, c)

def lower (c : Compiler) (insn : Insn) (next : U64) : Lowered × Compiler :=
  lowerInsn { c with insnFlags := c.flags } insn next

end Compiler

def DEFER_SCAN : Nat := 12

/-- The next reader or overwriter of the flags, looking at most `budget` instructions ahead. -/
def deferPays (mem : VirtualMemory) (mode : Mode) : Nat → U64 → Bool
  | 0, _ => false
  | budget + 1, rip =>
    match mem.fetch rip 16 with
    | .error _ => false
    | .ok window =>
      match decode window mode rip with
      | none => false
      | some insn =>
        match flagEffect insn with
        | .Overwrites => !overwriterSettles insn
        | .Reads => false
        | .Neutral => deferPays mem mode budget ((rip + BitVec.ofNat 64 insn.len) &&& mode.addrMask)

/-- The bytes that can be fetched at `rip`, at most 16 of them. -/
def fetchWindow (mem : VirtualMemory) (rip : U64) : List U8 :=
  match mem.fetch rip 16 with
  | .ok window => window
  | .error _ =>
    ((List.range 16).map fun n => mem.fetch (rip + BitVec.ofNat 64 n) 1).takeWhile Except.isOk
      |>.flatMap fun r => r.toOption.getD []

namespace Compiler

def new (mode : Mode) (start : U64) (slotBase : Option Nat) : Compiler where
  asm := []
  mode := mode
  insns := 0
  rip := start
  flags := .Live
  insnFlags := .Live
  defer := false
  spilled := false
  slotBase := slotBase
  linkTargets := []

def prepare (c : Compiler) (mem : VirtualMemory) (insn : Insn) (next : U64) : Compiler :=
  let setsFlags := flagEffect insn ≠ .Neutral
  let c := { c with
    defer := decide setsFlags && deferPays mem c.mode DEFER_SCAN next
    spilled := decide setsFlags && insn.rm.isMem }
  if c.spilled then c.ops (spill c.flags) else c

/-- The loop body, `n` times at most. An unsupported instruction emits nothing. -/
def scan (mem : VirtualMemory) (start stopBefore : U64) :
    Nat → Compiler → U64 → Compiler × U64 × StopReason
  | 0, c, rip => (c, rip, .Full)
  | n + 1, c, rip =>
    if rip = stopBefore then (c, rip, .Breakpoint rip)
    else
      let c := { c with rip := rip }
      let window := fetchWindow mem rip
      if window = [] then (c, rip, .FetchFailed rip)
      else
        match decode window c.mode rip with
        | none => (c, rip, .Unsupported rip (window.headD 0) false)
        | some insn =>
          let next := (rip + BitVec.ofNat 64 insn.len) &&& c.mode.addrMask
          let c := c.prepare mem insn next
          match (c.emit [.begin rip]).lower insn next with
          | (.Ok, c) =>
            let c := { c with insns := c.insns + 1 }
            if next < start then (c, next, .Wrapped) else scan mem start stopBefore n c next
          | (.Terminated, c) => ({ c with insns := c.insns + 1 }, next, .Terminator)
          | (.Unsupported, _) => (c, rip, .Unsupported rip insn.opcode insn.esc)

def finish (c : Compiler) (endRip : U64) (stop : StopReason) : Compiler :=
  if stop = .Terminator then c
  else c.leave c.flags endRip c.insns (.of (decide (stop = .Full ∨ stop = .Wrapped)))

end Compiler

def movImmWords (v : U64) : Nat :=
  let halves := fun (v : U64) => (List.range 4).countP fun i => (v >>> (16 * i)) &&& 0xffff != 0
  max 1 (min (halves v) (halves (~~~v)))

def Op.words : Op → Nat
  | .movImm _ v => movImmWords v
  | _ => 1

def SLOT_BYTES : Nat := 24

def Tail.words (t : Tail) : Nat :=
  2 + (if t.retired ≠ 0 then 2 else 0) +
  (match t.slot with
    | none => 0
    | some slot =>
      16 + (if slot * SLOT_BYTES + 16 ≤ 32760 then 0 else 1) + (if t.indirect then 3 else 0) +
        movImmWords (BitVec.ofNat 64 slot) + 1) + 2

def ExitCode.words (e : ExitCode) : Nat := (e.ops.map Op.words).sum + e.tail.words

def Inst.words : Inst → Nat
  | .begin _ => 0
  | .op o => o.words
  | .load _ size fault => (if size = 1 then 6 else 7) + 9 + fault.words
  | .store _ size push wrote fault =>
    (if size = 1 then 6 else 7) + 9 + (if push then 2 else 0) + 2 + wrote.words + fault.words
  | .branch _ fall => 1 + fall.words
  | .exit e => e.words

def blockWords (start : U64) (code : List Inst) : Nat :=
  11 + movImmWords start + 2 + (code.map Inst.words).sum + 8

/-- `none` is the failed assertion on the block's length in bytes. -/
def compile (mem : VirtualMemory) (mode : Mode) (start : U64) (maxInsns : Nat) (slotBase : Option Nat)
    (stopBefore : U64) : Option BlockPlan :=
  let (c, endRip, stop) := Compiler.scan mem start stopBefore maxInsns (Compiler.new mode start slotBase) start
  let code := (c.finish endRip stop).asm
  let bytes := (endRip - start) &&& mode.addrMask
  if bytes < 4096 then
    some {
      start := start
      insns := c.insns
      endRip := endRip
      bytes := bytes.toNat
      code := code
      words := blockWords start code
      stop := stop
      links := (c.finish endRip stop).linkTargets }
  else none

end Exemu.Jit
