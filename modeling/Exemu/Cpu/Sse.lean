import Exemu.Cpu.Floats
import Exemu.Cpu.Mmx
import Exemu.Cpu.Pcmpstr
import Exemu.Memory.Lawful

/-! # The SSE instructions

The handlers behind the opcode bytes 0F, 0F 38 and 0F 3A.
-/
namespace Exemu.Interp

open Lanes

/-! ## Reads that are noted -/

/-- A machine, and the reads of its memory: where and how many bytes. -/
structure Watched where
  machine : Machine
  reads : List (U64 × Nat) := []

abbrev SseExec := Fallible Watched Stop

def onMachine {α : Type} (x : Exec α) : SseExec α := fun w => (x w.machine).map fun p => (p.1, { w with machine := p.2 })

def noteRead (addr : U64) (n : Nat) : SseExec Unit := .modify fun w => { w with reads := w.reads ++ [(addr, n)] }

def fetchBytes (addr : U64) (n : Nat) : Exec (List U8) := .step fun m => ((m.mem.read addr n).mapError .err).map fun bs => (bs, m)

def loadBytes (addr : U64) (n : Nat) : SseExec (List U8) := do
  noteRead addr n
  onMachine (fetchBytes addr n)

def loadUint (addr : U64) (size : Nat) : SseExec U64 := do
  noteRead addr size
  onMachine (readUint addr size)

/-- `read_rm` -/
def loadRm (ctx : Ctx) (size : Nat) : SseExec U64 :=
  match ctx.rm with
  | .Reg _ => onMachine (readRm ctx size)
  | .Mem .. => loadUint ctx.rmAddr size

def storeBytes (addr : U64) (bs : List U8) : SseExec Unit :=
  onMachine (.step fun m => ((m.mem.write addr bs).mapError .err).map fun mem => ((), { m with mem }))

def getState : SseExec CpuState := fun w => some (.ok w.machine.state, w)

def putState (f : CpuState → CpuState) : SseExec Unit := onMachine (onState f)

def refuse {α : Type} (e : EmuError) : SseExec α := onMachine (fail e)

def xmm (s : CpuState) (i : U8) : U128 := s.xmm (regIdx i)

def setXmm (s : CpuState) (i : U8) (v : U128) : CpuState := { s with xmm := Function.update s.xmm (regIdx i) v }

def sseRm (ctx : Ctx) (n : Nat) : SseExec U128 :=
  match ctx.rm with
  | .Reg i => do return xmm (← getState) i
  | .Mem .. => do return fromLe128 (← loadBytes ctx.rmAddr n)

def sseStoreFull (ctx : Ctx) (val : U128) : SseExec Unit :=
  match ctx.rm with
  | .Reg i => putState fun s => setXmm s i val
  | .Mem .. => storeBytes ctx.rmAddr (toLe128 val)

def sseStoreLow (ctx : Ctx) (n : Nat) (val : U128) : SseExec Unit :=
  match ctx.rm with
  | .Reg i => putState fun s => setXmm s i ((xmm s i &&& ~~~lowMask n) ||| (val &&& lowMask n))
  | .Mem .. => storeBytes ctx.rmAddr ((toLe128 val).take n)

def movScalarLoad (ctx : Ctx) (n : Nat) : SseExec Unit :=
  match ctx.rm with
  | .Reg i => putState fun s => setXmm s ctx.reg ((xmm s ctx.reg &&& ~~~lowMask n) ||| (xmm s i &&& lowMask n))
  | .Mem .. => do
    let v ← sseRm ctx n
    putState fun s => setXmm s ctx.reg (v &&& lowMask n)

/-! ## Arms with an operand -/

/-- So many bytes of the operand are read, and then this is done with it. -/
structure Arm where
  bytes : Nat
  run : CpuState → U128 → Result CpuState

def Arm.exec (arm : Arm) (ctx : Ctx) : SseExec Unit := do
  let v ← sseRm ctx arm.bytes
  let s ← getState
  match arm.run s v with
  | .ok s' => putState fun _ => s'
  | .error e => refuse e

def into (reg : U8) (n : Nat) (f : U128 → U128 → U128) : Arm := ⟨n, fun s b => .ok (setXmm s reg (f (xmm s reg) b))⟩

def kindOf (ctx : Ctx) : Sse := if ctx.pfx.rep = 0xF3 then .Ss else if ctx.pfx.rep = 0xF2 then .Sd else if ctx.pfx.p66 then .Pd else .Ps

def gprSize (ctx : Ctx) : Nat := if ctx.pfx.w then 8 else 4

def outOf (ctx : Ctx) (n : Nat) (f : U128 → U64) : Arm := ⟨n, fun s b => .ok (writeRegField ctx s (gprSize ctx) (f b))⟩

/-- `{:02x}` -/
def hex02 (v : U8) : String := (if v < 16 then "0" else "") ++ String.ofList (Nat.toDigits 16 v.toNat)

def prefixText (ctx : Ctx) : String :=
  if ctx.pfx.rep = 0xF3 then "f3 " else if ctx.pfx.rep = 0xF2 then "f2 " else if ctx.pfx.p66 then "66 " else ""

def unsupported (op2 : U8) (ctx : Ctx) (group : String) : EmuError :=
  .unsupported (group ++ ": " ++ prefixText ctx ++ "0f " ++ hex02 op2)

def unsupported3 (esc op3 : U8) (ctx : Ctx) (group : String) : EmuError :=
  .unsupported (group ++ ": " ++ prefixText ctx ++ "0f " ++ hex02 esc ++ " " ++ hex02 op3)

def setCompareFlags (fp : Floats) (s : CpuState) (a b : U64) : CpuState :=
  let s := s.setFlag flags.OF false
  let s := s.setFlag flags.SF false
  let s := s.setFlag flags.AF false
  if fp.isNan a ∨ fp.isNan b then
    let s := s.setFlag flags.ZF true
    let s := s.setFlag flags.PF true
    s.setFlag flags.CF true
  else
    let s := s.setFlag flags.ZF (fp.eq a b)
    let s := s.setFlag flags.PF false
    s.setFlag flags.CF (fp.lt a b)

def movmskps (v : U128) : U64 := (((v >>> 31) &&& 1) ||| ((v >>> 62) &&& 2) ||| ((v >>> 93) &&& 4) ||| ((v >>> 124) &&& 8)).setWidth 64

def movmskpd (v : U128) : U64 := (((v >>> 63) &&& 1) ||| ((v >>> 126) &&& 2)).setWidth 64

def cvt2si (fp : Floats) (ctx : Ctx) (op2 : U8) (v : U128) : U64 :=
  let f := if kindOf ctx = .Sd then f64Lane v 0 else fp.widen (f32Lane v 0)
  cvtFToInt fp f (op2 = 0x2C) (gprSize ctx)

/-- `0x50` -/
def movmsk (ctx : Ctx) : Arm :=
  ⟨16, fun s v => match kindOf ctx with
    | .Ps => .ok (writeRegField ctx s (gprSize ctx) (movmskps v))
    | .Pd => .ok (writeRegField ctx s (gprSize ctx) (movmskpd v))
    | _ => .error (unsupported 0x50 ctx "movmsk ss/sd")⟩

/-- `0x5B` -/
def cvt5b (fp : Floats) (ctx : Ctx) : Arm :=
  ⟨16, fun s v => match kindOf ctx with
    | .Ps => .ok (setXmm s ctx.reg (cvtdq2ps fp v))
    | .Pd => .ok (setXmm s ctx.reg (cvtps2dq fp v false))
    | .Ss => .ok (setXmm s ctx.reg (cvtps2dq fp v true))
    | .Sd => .error (unsupported 0x5B ctx "cvt 5b/f2")⟩

/-- `0x70` -/
def shuffle70 (ctx : Ctx) (imm : U8) : Arm :=
  ⟨16, fun s v => match kindOf ctx with
    | .Pd => .ok (setXmm s ctx.reg (pshufd v imm))
    | .Sd => .ok (setXmm s ctx.reg (pshuflw v imm))
    | .Ss => .ok (setXmm s ctx.reg (pshufhw v imm))
    | .Ps => .error (unsupported 0x70 ctx "pshufw(mm)")⟩

/-- `0xC2` -/
def cmp (fp : Floats) (ctx : Ctx) (imm : U8) : Arm :=
  match kindOf ctx with
  | .Ps => into ctx.reg 16 fun dst src => pcmpFloat fp dst src false imm
  | .Pd => into ctx.reg 16 fun dst src => pcmpFloat fp dst src true imm
  | .Ss => into ctx.reg 4 fun dst src => cmpScalar fp false dst src imm
  | .Sd => into ctx.reg 8 fun dst src => cmpScalar fp true dst src imm

/-- `0x2E` and `0x2F` -/
def comi (fp : Floats) (ctx : Ctx) : Arm :=
  if kindOf ctx = .Pd then ⟨8, fun s b => .ok (setCompareFlags fp s (f64Lane (xmm s ctx.reg) 0) (f64Lane b 0))⟩
  else ⟨4, fun s b => .ok (setCompareFlags fp s (fp.widen (f32Lane (xmm s ctx.reg) 0)) (fp.widen (f32Lane b 0)))⟩

def arithOf (fp : Floats) (op2 : U8) : U64 → U64 → U64 :=
  if op2 = 0x58 then fp.add
  else if op2 = 0x59 then fp.mul
  else if op2 = 0x5C then fp.sub
  else if op2 = 0x5D then fun a b => if fp.lt a b then a else b
  else if op2 = 0x5E then fp.div
  else fun a b => if fp.lt b a then a else b

def shiftOf (op2 : U8) (dst : U128) (count : U64) : U128 :=
  if op2 = 0xD1 then shiftR dst 2 count false
  else if op2 = 0xD2 then shiftR dst 4 count false
  else if op2 = 0xD3 then shiftR dst 8 count false
  else if op2 = 0xE1 then shiftR dst 2 count true
  else if op2 = 0xE2 then shiftR dst 4 count true
  else if op2 = 0xF1 then shiftL dst 2 count
  else if op2 = 0xF2 then shiftL dst 4 count
  else shiftL dst 8 count

def sseInteger (op2 : U8) : Option (U128 → U128 → U128) :=
  if op2 ∈ [0x60, 0x61, 0x62] then some fun a b => punpck a b (1 <<< (op2 - 0x60).toNat) false
  else if op2 = 0x6C then some fun a b => punpck a b 8 false
  else if op2 ∈ [0x68, 0x69, 0x6A] then some fun a b => punpck a b (1 <<< (op2 - 0x68).toNat) true
  else if op2 = 0x6D then some fun a b => punpck a b 8 true
  else if op2 ∈ [0x74, 0x75, 0x76] then some fun a b => pcmp a b (1 <<< (op2 - 0x74).toNat) false
  else if op2 ∈ [0x64, 0x65, 0x66] then some fun a b => pcmp a b (1 <<< (op2 - 0x64).toNat) true
  else if op2 ∈ [0xFC, 0xFD, 0xFE] then some fun a b => addSub a b (1 <<< (op2 - 0xFC).toNat) true
  else if op2 = 0xD4 then some fun a b => addSub a b 8 true
  else if op2 ∈ [0xF8, 0xF9, 0xFA, 0xFB] then some fun a b => addSub a b (1 <<< (op2 - 0xF8).toNat) false
  else if op2 ∈ [0xD8, 0xD9, 0xDC, 0xDD, 0xE8, 0xE9, 0xEC, 0xED] then
    let esz := if op2 &&& 1 = 0 then 1 else 2
    let add := decide (op2 ∈ [0xDC, 0xDD, 0xEC, 0xED])
    let signed := decide (op2 ∈ [0xE8, 0xE9, 0xEC, 0xED])
    some fun a b => addSubSat a b esz add signed
  else if op2 = 0xD5 then some pmullw
  else if op2 = 0xE5 then some fun a b => pmulh a b true
  else if op2 = 0xE4 then some fun a b => pmulh a b false
  else if op2 = 0xF4 then some pmuludq
  else if op2 = 0xF5 then some pmaddwd
  else if op2 = 0xE0 then some fun a b => pavg a b 1
  else if op2 = 0xE3 then some fun a b => pavg a b 2
  else if op2 = 0xF6 then some psadbw
  else if op2 = 0x63 then some fun a b => pack a b 2 true
  else if op2 = 0x6B then some fun a b => pack a b 4 true
  else if op2 = 0x67 then some fun a b => pack a b 2 false
  else if op2 = 0xDA then some fun a b => byteMinmax a b false
  else if op2 = 0xDE then some fun a b => byteMinmax a b true
  else if op2 ∈ [0xDB, 0x54] then some fun a b => a &&& b
  else if op2 ∈ [0xDF, 0x55] then some fun a b => ~~~a &&& b
  else if op2 ∈ [0xEB, 0x56] then some fun a b => a ||| b
  else if op2 ∈ [0xEF, 0x57] then some fun a b => a ^^^ b
  else if op2 ∈ [0xD1, 0xD2, 0xD3, 0xE1, 0xE2, 0xF1, 0xF2, 0xF3] then
    some fun dst count => shiftOf op2 dst ((count &&& LOW64).setWidth 64)
  else none

def sseArm (fp : Floats) (ctx : Ctx) (imm op2 : U8) : Option Arm :=
  let kind := kindOf ctx
  let reg := ctx.reg
  if op2 = 0x10 ∧ (kind = .Ps ∨ kind = .Pd) then some (into reg 16 fun _ v => v)
  else if op2 = 0x28 then some (into reg 16 fun _ v => v)
  else if op2 ∈ [0x2C, 0x2D] then some (outOf ctx 8 (cvt2si fp ctx op2))
  else if op2 ∈ [0x2E, 0x2F] then some (comi fp ctx)
  else if op2 = 0x50 then some (movmsk ctx)
  else if op2 = 0x51 then some (into reg 16 (sseUnary fp kind fp.sqrt))
  else if op2 ∈ [0x58, 0x59, 0x5C, 0x5D, 0x5E, 0x5F] then some (into reg 16 (sseArith fp kind (arithOf fp op2)))
  else if op2 = 0x5A ∧ kind = .Sd then some (into reg 8 fun dst v => (dst &&& ~~~LOW32) ||| (fp.narrow (f64Lane v 0)).setWidth 128)
  else if op2 = 0x5A ∧ kind = .Ss then some (into reg 4 fun dst v => (dst &&& ~~~LOW64) ||| (fp.widen (f32Lane v 0)).setWidth 128)
  else if op2 = 0x5B then some (cvt5b fp ctx)
  else if op2 = 0xF0 ∧ kind = .Sd then some (into reg 16 fun _ v => v)
  else if op2 = 0x6F then some (into reg 16 fun _ v => v)
  else if op2 = 0x7E ∧ kind = .Ss then some (into reg 8 fun _ v => v &&& LOW64)
  else if op2 = 0xC5 then some (outOf ctx 16 fun v => ((v >>> ((imm &&& 7).toNat * 16)) &&& 0xFFFF).setWidth 64)
  else if op2 = 0xD7 then some (outOf ctx 16 fun v => (pmovmskb v).setWidth 64)
  else if op2 = 0x70 then some (shuffle70 ctx imm)
  else if op2 = 0xC2 then some (cmp fp ctx imm)
  else if op2 = 0xC6 then some (into reg 16 fun dst src => if kind = .Pd then shufpd dst src imm else shufps dst src imm)
  else (sseInteger op2).map (into reg 16)

/-! ## The handlers -/

/-- `0x12` and `0x16` -/
def movHalf (ctx : Ctx) (high : Bool) : SseExec Unit :=
  match ctx.rm with
  | .Reg i => putState fun s => setXmm s ctx.reg <|
    if high then (xmm s ctx.reg &&& LOW64) ||| (xmm s i <<< 64) else (xmm s ctx.reg &&& ~~~LOW64) ||| (xmm s i >>> 64)
  | .Mem .. => do
    let v ← sseRm ctx 8
    putState fun s => setXmm s ctx.reg <|
      if high then (xmm s ctx.reg &&& LOW64) ||| (v <<< 64) else (xmm s ctx.reg &&& ~~~LOW64) ||| (v &&& LOW64)

/-- `0x2A` -/
def cvtsi2s (fp : Floats) (ctx : Ctx) : SseExec Unit := do
  let v ← loadRm ctx (gprSize ctx)
  let src := sext v (gprSize ctx)
  putState fun s => setXmm s ctx.reg <|
    if kindOf ctx = .Sd then (xmm s ctx.reg &&& ~~~LOW64) ||| (fp.ofI64 src).setWidth 128
    else (xmm s ctx.reg &&& ~~~LOW32) ||| (fp.singleOfI64 src).setWidth 128

/-- `0xC4` -/
def pinsrw (ctx : Ctx) (imm : U8) : SseExec Unit := do
  let word : U128 ← match ctx.rm with
    | .Reg i => do pure (((← getState).gpr (regIdx i)).setWidth 16 |>.setWidth 128)
    | .Mem .. => do pure (fromLe128 (← loadBytes ctx.rmAddr 2))
  let lane := (imm &&& 7).toNat
  putState fun s => setXmm s ctx.reg ((xmm s ctx.reg &&& ~~~((0xFFFF : U128) <<< (lane * 16))) ||| (word <<< (lane * 16)))

def psGroup (op2 digit imm : U8) (src : U128) : Option U128 :=
  let esz := if op2 = 0x71 then 2 else if op2 = 0x72 then 4 else 8
  if digit = 2 then some (shiftR src esz (imm.setWidth 64) false)
  else if op2 ∈ [0x71, 0x72] ∧ digit = 4 then some (shiftR src esz (imm.setWidth 64) true)
  else if digit = 6 then some (shiftL src esz (imm.setWidth 64))
  else if op2 = 0x73 ∧ digit = 3 then some (if imm ≥ 16 then 0 else src >>> (imm.toNat * 8))
  else if op2 = 0x73 ∧ digit = 7 then some (if imm ≥ 16 then 0 else src <<< (imm.toNat * 8))
  else none

/-- `0x71` to `0x73` -/
def psShift (ctx : Ctx) (imm op2 : U8) : SseExec Unit := do
  let src ← sseRm ctx 16
  match psGroup op2 (ctx.reg &&& 7) imm src with
  | some out => sseStoreFull ctx out
  | none => refuse (unsupported op2 ctx "psh-group")

/-- `0xD6` -/
def movq (ctx : Ctx) (v : U128) : SseExec Unit :=
  match ctx.rm with
  | .Reg i => putState fun s => setXmm s i v
  | .Mem .. => storeBytes ctx.rmAddr ((toLe128 v).take 8)

def sseStore (ctx : Ctx) (s : CpuState) : SseExec Unit := sseStoreFull ctx (xmm s ctx.reg)

def sseOther (fp : Floats) (ctx : Ctx) (imm op2 : U8) (s : CpuState) : SseExec Unit :=
  let kind := kindOf ctx
  let v := xmm s ctx.reg
  if op2 = 0x10 then movScalarLoad ctx (if kind = .Ss then 4 else 8)
  else if op2 = 0x11 then
    match kind with
    | .Ss => sseStoreLow ctx 4 v
    | .Sd => sseStoreLow ctx 8 v
    | _ => sseStoreFull ctx v
  else if op2 = 0x12 then movHalf ctx false
  else if op2 = 0x13 then sseStoreLow ctx 8 (v &&& LOW64)
  else if op2 = 0x16 then movHalf ctx true
  else if op2 = 0x17 then sseStoreLow ctx 8 (v >>> 64)
  else if op2 ∈ [0x29, 0x7F, 0x2B, 0xE7] then sseStore ctx s
  else if op2 = 0x2A then cvtsi2s fp ctx
  else if op2 = 0x5A then refuse (unsupported op2 ctx "cvtps2pd/cvtpd2ps")
  else if op2 = 0xF0 then refuse (unsupported op2 ctx "0f f0")
  else if op2 = 0x6E then do
    let src ← loadRm ctx (gprSize ctx)
    putState fun s => setXmm s ctx.reg (src.setWidth 128)
  else if op2 = 0x7E then onMachine (writeRm ctx (gprSize ctx) (v.setWidth 64))
  else if op2 = 0xD6 then movq ctx (v &&& LOW64)
  else if op2 = 0xC4 then pinsrw ctx imm
  else if op2 ∈ [0x71, 0x72, 0x73] then psShift ctx imm op2
  else refuse (unsupported op2 ctx "sse")

def execSse (fp : Floats) (ctx : Ctx) (imm op2 : U8) : SseExec Unit :=
  match sseArm fp ctx imm op2 with
  | some arm => arm.exec ctx
  | none => do sseOther fp ctx imm op2 (← getState)

def crcByte (crc : U32) (byte : U8) : U32 :=
  (List.range 8).foldl (fun crc _ => if crc &&& 1 ≠ 0 then (crc >>> 1) ^^^ 0x82F63B78 else crc >>> 1) (crc ^^^ byte.setWidth 32)

def crc32Size (ctx : Ctx) (op3 : U8) : Nat := if op3 = 0xF0 then 1 else if ctx.pfx.p66 then 2 else if ctx.pfx.w then 8 else 4

def crc32 (ctx : Ctx) (op3 : U8) : SseExec Unit := do
  let src ← loadRm ctx (crc32Size ctx op3)
  putState fun s =>
    let crc := (List.range (crc32Size ctx op3)).foldl (fun crc i => crcByte crc ((src >>> (i * 8)).setWidth 8))
      ((readRegField ctx s (gprSize ctx)).setWidth 32)
    writeRegField ctx s (gprSize ctx) (crc.setWidth 64)

def ptest (s : CpuState) (a b : U128) : CpuState :=
  let s := s.setFlag flags.ZF (b &&& a == 0)
  let s := s.setFlag flags.CF (b &&& ~~~a == 0)
  [flags.OF, flags.SF, flags.AF, flags.PF].foldl (fun s f => s.setFlag f false) s

/-- The sizes of PMOVSX and PMOVZX: of a source element and of a destination element. -/
def pmovxSizes (op3 : U8) : Nat × Nat :=
  let sel := op3 &&& 0x0F
  if sel = 0 then (1, 2) else if sel = 1 then (1, 4) else if sel = 2 then (1, 8) else if sel = 3 then (2, 4) else if sel = 4 then (2, 8) else (4, 8)

/-- `matches!(ctx.rm, Rm::Reg(i) if i == reg)` -/
def aliased (ctx : Ctx) : Bool := decide (ctx.rm = .Reg ctx.reg)

def sse38Arm (ctx : Ctx) (op3 : U8) : Option Arm :=
  let reg := ctx.reg
  if op3 = 0x00 then some (into reg 16 pshufb)
  else if op3 ∈ [0x01, 0x02, 0x03, 0x05, 0x06, 0x07] then
    let esz := if op3 = 0x02 ∨ op3 = 0x06 then 4 else 2
    let sub := decide (op3 ∈ [0x05, 0x06, 0x07])
    let sat := decide (op3 = 0x03 ∨ op3 = 0x07)
    some (into reg 16 fun a b => phaddsub a b esz sub sat (aliased ctx))
  else if op3 = 0x04 then some (into reg 16 pmaddubsw)
  else if op3 ∈ [0x08, 0x09, 0x0A] then some (into reg 16 fun a b => psign a b (1 <<< (op3 - 0x08).toNat))
  else if op3 = 0x0B then some (into reg 16 pmulhrsw)
  else if op3 ∈ [0x1C, 0x1D, 0x1E] then some (into reg 16 fun _ v => pabs v (1 <<< (op3 - 0x1C).toNat))
  else if op3 ∈ [0x10, 0x14, 0x15] then
    let esz := if op3 = 0x10 then 1 else if op3 = 0x14 then 4 else 8
    some ⟨16, fun s b => .ok (setXmm s reg (blendVar (xmm s reg) b (xmm s 0) esz))⟩
  else if op3 = 0x17 then some ⟨16, fun s b => .ok (ptest s (xmm s reg) b)⟩
  else if op3 ∈ [0x20, 0x21, 0x22, 0x23, 0x24, 0x25, 0x30, 0x31, 0x32, 0x33, 0x34, 0x35] then
    let sizes := pmovxSizes op3
    some (into reg (16 / sizes.2 * sizes.1) fun _ v => pmovx v sizes.1 sizes.2 (op3 < 0x30))
  else if op3 = 0x28 then some (into reg 16 pmuldq)
  else if op3 ∈ [0x29, 0x37] then some (into reg 16 fun a b => pcmp a b 8 (op3 = 0x37))
  else if op3 = 0x2A then some (into reg 16 fun _ v => v)
  else if op3 = 0x2B then some (into reg 16 packusdw)
  else if op3 ∈ [0x38, 0x39, 0x3A, 0x3B, 0x3C, 0x3D, 0x3E, 0x3F] then
    let sel := op3 &&& 3
    let esz := if sel = 0 then 1 else if sel = 1 then 4 else if sel = 2 then 2 else 4
    some (into reg 16 fun a b => intMinmax a b esz (sel = 0 ∨ sel = 1) (op3 ≥ 0x3C))
  else if op3 = 0x40 then some (into reg 16 pmulld)
  else if op3 = 0x41 then some (into reg 16 fun _ v => phminposuw v)
  else none

def execSse0f38 (ctx : Ctx) (op3 : U8) : SseExec Unit :=
  if op3 = 0xF0 ∨ op3 = 0xF1 then crc32 ctx op3
  else match sse38Arm ctx op3 with
    | some arm => arm.exec ctx
    | none => refuse (unsupported3 0x38 op3 ctx "sse38")

def roundMode (mxcsr : U32) (imm : U8) : U8 := if imm &&& 0x04 ≠ 0 then ((mxcsr >>> 13) &&& 3).setWidth 8 else imm &&& 3

def sse3aArm (fp : Floats) (mxcsr : U32) (ctx : Ctx) (imm op3 : U8) : Option Arm :=
  let reg := ctx.reg
  if op3 ∈ [0x08, 0x09, 0x0A, 0x0B] then some (into reg 16 (rounded fp op3 (roundMode mxcsr imm)))
  else if op3 ∈ [0x0C, 0x0D, 0x0E] then
    let esz := if op3 = 0x0C then 4 else if op3 = 0x0D then 8 else 2
    some (into reg 16 fun dst src => blendImm dst src imm esz)
  else if op3 = 0x0F then some (into reg 16 fun a b => palignr a b imm)
  else if op3 = 0x40 then some (into reg 16 fun dst src => dpps fp dst src imm)
  else if op3 = 0x41 then some (into reg 16 fun dst src => dppd fp dst src imm)
  else if op3 = 0x42 then some (into reg 16 fun a b => mpsadbw a b imm)
  else if op3 ∈ [0x60, 0x61, 0x62, 0x63] then some ⟨16, fun s b => .ok (pcmpstr s (xmm s reg) b imm (op3 ≤ 0x61) (op3 &&& 1 == 1))⟩
  else none

/-- The size of an element and the number of places of PEXTR and PINSR of doublewords. -/
def pextrShape (ctx : Ctx) : Nat × Nat := if ctx.pfx.w then (8, 2) else (4, 4)

def isReg (rm : Rm) : Bool :=
  match rm with
  | .Reg _ => true
  | .Mem .. => false

/-- `0x14` to `0x16` -/
def pextr (ctx : Ctx) (imm op3 : U8) (s : CpuState) : SseExec Unit :=
  let shape := if op3 = 0x14 then (1, 16) else if op3 = 0x15 then (2, 8) else pextrShape ctx
  let idx := imm.toNat % shape.2
  let v : U64 := ((xmm s ctx.reg >>> (idx * shape.1 * 8)) &&& emask shape.1).setWidth 64
  onMachine (writeRm ctx (if op3 ≠ 0x16 ∧ isReg ctx.rm then gprSize ctx else shape.1) v)

/-- `0x20` and `0x22` -/
def pinsr (ctx : Ctx) (imm op3 : U8) : SseExec Unit := do
  let shape := if op3 = 0x20 then (1, 16) else pextrShape ctx
  let raw : U64 ← match ctx.rm with
    | .Reg i => do pure ((← getState).gprRead i (if shape.1 = 8 then 8 else 4))
    | .Mem .. => loadUint ctx.rmAddr shape.1
  let gp := raw &&& (emask shape.1).setWidth 64
  let place := imm.toNat % shape.2 * shape.1 * 8
  let mask := emask shape.1 <<< place
  putState fun s => setXmm s ctx.reg ((xmm s ctx.reg &&& ~~~mask) ||| ((gp.setWidth 128 <<< place) &&& mask))

def insertLane (ctx : Ctx) (imm : U8) (dword : U32) (s : CpuState) : CpuState :=
  let place := ((imm >>> 4) &&& 3).toNat * 32
  let mask := LOW32 <<< place
  let dst := (xmm s ctx.reg &&& ~~~mask) ||| ((dword.setWidth 128 <<< place) &&& mask)
  setXmm s ctx.reg <| (List.range 4).foldl (fun dst l => if imm >>> l &&& (1 : U8) = 1 then dst &&& ~~~(LOW32 <<< (l * 32)) else dst) dst

/-- `0x21` -/
def insertps (ctx : Ctx) (imm : U8) : SseExec Unit :=
  match ctx.rm with
  | .Reg i => putState fun s => insertLane ctx imm ((xmm s i >>> (((imm >>> 6) &&& 3).toNat * 32)).setWidth 32) s
  | .Mem .. => do
    let dword ← loadUint ctx.rmAddr 4
    putState (insertLane ctx imm (dword.setWidth 32))

/-- `0x17` -/
def extractps (ctx : Ctx) (imm : U8) (s : CpuState) : SseExec Unit :=
  onMachine (writeRm ctx (if isReg ctx.rm ∧ ctx.pfx.w then 8 else 4) (((xmm s ctx.reg >>> ((imm &&& 3).toNat * 32)) &&& LOW32).setWidth 64))

def Ctx.pastImm (ctx : Ctx) : Ctx := { ctx with cur := ctx.cur + 1 }

def sse3aOther (ctx : Ctx) (imm op3 : U8) (s : CpuState) : SseExec Unit :=
  if op3 ∈ [0x14, 0x15, 0x16] then pextr ctx imm op3 s
  else if op3 = 0x17 then extractps ctx imm s
  else if op3 ∈ [0x20, 0x22] then pinsr ctx imm op3
  else if op3 = 0x21 then insertps ctx imm
  else refuse (unsupported3 0x3A op3 ctx "sse3a")

def sse3aBody (fp : Floats) (mxcsr : U32) (ctx : Ctx) (imm op3 : U8) : SseExec Unit :=
  match sse3aArm fp mxcsr ctx imm op3 with
  | some arm => arm.exec ctx
  | none => do sse3aOther ctx imm op3 (← getState)

def execSse0f3a (fp : Floats) (mxcsr : U32) (ctx : Ctx) (imm op3 : U8) : SseExec Unit := sse3aBody fp mxcsr ctx.pastImm imm op3

end Exemu.Interp
