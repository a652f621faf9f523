import Exemu.Jit.Compile

/-! # Running compiled code

A block runs to the exit its code chooses: back to the dispatcher, or on into the block a link
slot names.
-/
namespace Exemu.Jit

inductive Stop where
  | ret (fault : Bool)
  | link (code : Nat)
  | undefined
  deriving DecidableEq, Repr

namespace Native

def prologue (h : Native) : Native := (h.set R_FLAGS h.cpu.rflags).set R_MASK ARITH_MASK

def epilogue (h : Native) : Native := { h with cpu := { h.cpu with rflags := h.get R_FLAGS } }

def setRip (h : Native) (rip : U64) : Native := { h with cpu := { h.cpu with rip := rip } }

end Native

def Test.holds (t : Test) (h : Native) : Bool :=
  match t with
  | .bit rt n set => (h.get rt).getLsbD n == set
  | .cbnz rt => h.get rt != 0

/-- The code of `emit_exit_tail`; the target is in `T2`. -/
def Tail.exec (t : Tail) (h : Native) (ctx : BlockCtx) : Stop × Native × BlockCtx :=
  let target := h.get T2
  let h := h.setRip target
  let ctx := { ctx with retired := ctx.retired + t.retired }
  match t.slot with
  | none => (.ret t.fault, h, ctx)
  | some slot =>
    let s := ctx.links slot
    if ctx.linkLimit ≤ ctx.retired ∨ s.epoch ≠ ctx.linkEpoch ∨ (t.indirect ∧ s.key ≠ target) then
      (.ret t.fault, h, { ctx with pending := some slot })
    else (.link s.code, h.clobber, ctx)

def ExitCode.exec (e : ExitCode) (h : Native) (ctx : BlockCtx) : Stop × Native × BlockCtx :=
  e.tail.exec (execOps e.ops h) ctx

/-- Where a load or a store resumes: its result in place, the scratch registers gone. -/
def Native.loaded (h : Native) (dst : XReg) (v : U64) : Native := h.clobber.set dst v

def Native.stored (h : Native) (push : Bool) : Native :=
  if push then h.clobber.set R_VAL (h.get R_ADDR) else h.clobber

def exec : List Inst → Native → BlockCtx → Stop × Native × BlockCtx
  | [], h, ctx => (.undefined, h, ctx)
  | .begin rip :: k, h, ctx => exec k h (ctx.record (.begun rip))
  | .op o :: k, h, ctx => exec k (o.exec h) ctx
  | .load dst size fault :: k, h, ctx =>
    match ctx.load (h.get R_ADDR) size with
    | .Done ⟨v, .OK⟩ ctx => exec k (h.loaded dst v) ctx
    | .Done _ ctx => fault.exec h.clobber ctx
    | .Undefined ctx => (.undefined, h, ctx)
  | .store src size push wrote fault :: k, h, ctx =>
    match ctx.store (h.get R_ADDR) size (h.get src) with
    | .Done .OK ctx => exec k (h.stored push) ctx
    | .Done .WROTE_CODE ctx => wrote.exec (h.stored push) ctx
    | .Done .FAULT ctx => fault.exec (h.stored push) ctx
    | .Undefined ctx => (.undefined, h, ctx)
  | .branch test fall :: k, h, ctx => if test.holds h then exec k h ctx else fall.exec h ctx
  | .exit e :: _, h, ctx => e.exec h ctx

structure Block where
  code : Option (List Inst)
  insns : Nat
  page0 : U64
  page1 : U64
  gen0 : U64
  gen1 : U64
  globalGen : U64
  origin : Origin

def BlockCtx.chain (ctx : BlockCtx) (linked : Bool) (origin : Origin) : BlockCtx :=
  { ctx with codeLo := origin.start, codeHi := origin.start + BitVec.ofNat 64 origin.bytes }.record
    (.entered linked origin ctx.mem)

inductive Ret where
  | returned (fault : Bool) (h : Native) (ctx : BlockCtx)
  | undefined (ctx : BlockCtx)
  | outOfFuel

def chase (blocks : List Block) : Nat → Bool → Nat → Native → BlockCtx → Ret
  | 0, _, _, _, _ => .outOfFuel
  | fuel + 1, linked, idx, h, ctx =>
    match blocks[idx]? with
    | some ⟨some code, _, _, _, _, _, _, origin⟩ =>
      match exec code h (ctx.chain linked origin) with
      | (.ret fault, h, ctx) => .returned fault h.epilogue ctx
      | (.link idx, h, ctx) => chase blocks fuel true idx h ctx
      | (.undefined, _, ctx) => .undefined ctx
    | _ => .undefined ctx

def callBlock (blocks : List Block) (idx : Nat) (h : Native) (ctx : BlockCtx) : Ret :=
  chase blocks (ctx.linkLimit + 1) false idx h.prologue ctx

end Exemu.Jit
