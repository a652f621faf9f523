import Exemu.Jit.Cache

/-! # Calls into compiled code

A call runs block after block along live links.
-/
namespace Exemu.Jit

/-- How an exit is taken: back to the dispatcher, or along a live link. -/
inductive Leaves (e : ExitCode) (h : Native) (ctx : BlockCtx) : Stop × Native × BlockCtx → Prop
  | plain (hSlot : e.tail.slot = none) :
      Leaves e h ctx (.ret e.tail.fault, (execOps e.ops h).setRip ((execOps e.ops h).get T2),
        { ctx with retired := ctx.retired + e.tail.retired })
  | refused {s : Nat} (hSlot : e.tail.slot = some s) :
      Leaves e h ctx (.ret e.tail.fault, (execOps e.ops h).setRip ((execOps e.ops h).get T2),
        { ctx with retired := ctx.retired + e.tail.retired, pending := some s })
  | linked {s : Nat} (hSlot : e.tail.slot = some s) (hLimit : ctx.retired + e.tail.retired < ctx.linkLimit)
      (hEpoch : (ctx.links s).epoch = ctx.linkEpoch)
      (hKey : e.tail.indirect = true → (ctx.links s).key = (execOps e.ops h).get T2) :
      Leaves e h ctx (.link (ctx.links s).code,
        ((execOps e.ops h).setRip ((execOps e.ops h).get T2)).clobber,
        { ctx with retired := ctx.retired + e.tail.retired })

theorem leaves (e : ExitCode) (h : Native) (ctx : BlockCtx) : Leaves e h ctx (e.exec h ctx) := by
  unfold ExitCode.exec Tail.exec
  dsimp only
  split <;> rename_i hSlot
  · exact .plain hSlot
  split <;> rename_i hRefuse
  · exact .refused hSlot
  · simp only [not_or, not_and, not_le, Decidable.not_not] at hRefuse
    exact .linked hSlot hRefuse.1 hRefuse.2.1 fun hIndirect => hRefuse.2.2 (by simpa using hIndirect)

theorem get_set_self (h : Native) {r : XReg} (hr : r ≠ ZR) (v : U64) : (h.set r v).get r = v := by
  simp [Native.get, Native.set, hr]

theorem ExitCode.Shape.rip_of_target {slots : Option Nat} {target : Nat → Option U64} {n : Nat} {k : Known}
    {e : ExitCode} (hShape : e.Shape slots target n k) {s : Nat} (hSlot : e.tail.slot = some s) {t : U64}
    (hTarget : target s = some t) (h : Native) : (execOps e.ops h).get T2 = t := by
  cases hIndirect : e.tail.indirect with
  | true =>
    rw [hShape.indirect s hSlot hIndirect] at hTarget
    cases hTarget
  | false =>
    obtain ⟨os, t', hOps, hAimed⟩ := hShape.direct s hSlot hIndirect
    obtain rfl := Option.some.inj (hAimed.symm.trans hTarget)
    rw [hOps, execOps_append]
    exact get_set_self _ (by decide) _

structure Tied (jit : Jit) (ctx : BlockCtx) : Prop where
  links : ctx.links = jit.links
  codePages : ctx.codePages = jit.codePages
  live : ctx.live = jit.codePageSet
  epoch : ctx.linkEpoch = jit.linkEpoch ∨ ctx.linkEpoch = LINK_EPOCH_DEAD

section Call

variable {target : Nat → Option U64} {jit : Jit} {ctx ctx' : BlockCtx}

theorem Tied.act (h : Tied jit ctx) (hAct : Act ctx ctx') : Tied jit ctx' := by
  have hFixed := hAct.fixed
  refine ⟨hFixed.links.trans h.links, hFixed.codePages.trans h.codePages, hFixed.live.trans h.live, ?_⟩
  cases hAct with
  | begun rip => exact h.epoch
  | inlineLoad hSize hProbe hHost => exact h.epoch
  | readFill hOn hRead =>
    rw [BlockCtx.tlbFill_eq]
    exact h.epoch
  | inlineStore hSize hProbe hHost => exact h.epoch
  | helperStore hWrite =>
    rw [landed_eq]
    dsimp only
    split
    · exact .inr rfl
    · exact h.epoch

theorem Tied.stray (h : Tied jit ctx) (hStray : Stray ctx ctx') : Tied jit ctx' := by
  cases hStray <;> exact ⟨h.links, h.codePages, h.live, h.epoch⟩

theorem Tied.tail (h : Tied jit ctx) (retired : Nat) (pending : Option Nat) :
    Tied jit { ctx with retired := retired, pending := pending } :=
  ⟨h.links, h.codePages, h.live, h.epoch⟩

theorem Tied.chain (h : Tied jit ctx) (linked : Bool) (origin : Origin) : Tied jit (ctx.chain linked origin) :=
  ⟨h.links, h.codePages, h.live, h.epoch⟩

theorem Tied.live_slot (h : Tied jit ctx) (hSane : Sane target jit) {s : Nat}
    (hEpoch : (ctx.links s).epoch = ctx.linkEpoch) :
    ctx.linkEpoch = jit.linkEpoch ∧ (jit.links s).epoch = jit.linkEpoch := by
  rw [h.links] at hEpoch
  have hSame : ctx.linkEpoch = jit.linkEpoch := by
    rcases h.epoch with hSame | hDead
    · exact hSame
    · have hLe := BitVec.le_def.mp (hSane.epochs s)
      have hLt := BitVec.lt_def.mp hSane.alive
      rw [hEpoch, hDead] at hLe
      omega
  exact ⟨hSame, hEpoch.trans hSame⟩

/-- An invariant of the context of a call: what compiled code may do keeps it, and it survives the
entry of every block a live link leads to. -/
structure Carried (jit : Jit) (I : BlockCtx → Prop) : Prop where
  act : ∀ {ctx ctx'}, Tied jit ctx → I ctx → Act ctx ctx' → I ctx'
  stray : ∀ {ctx ctx'}, Tied jit ctx → I ctx → Stray ctx ctx' → I ctx'
  tail : ∀ {ctx} (retired : Nat) (pending : Option Nat), I ctx →
    I { ctx with retired := retired, pending := pending }
  link : ∀ {ctx s b}, Tied jit ctx → I ctx → ctx.linkEpoch = jit.linkEpoch →
    (jit.links s).epoch = jit.linkEpoch → jit.blocks[(jit.links s).code]? = some b →
    I (ctx.chain true b.origin)

theorem Carried.acts {I : BlockCtx → Prop} (hI : Carried jit I) (hTied : Tied jit ctx) (h : I ctx)
    (hActs : Acts ctx ctx') : Tied jit ctx' ∧ I ctx' := by
  induction hActs with
  | refl => exact ⟨hTied, h⟩
  | tail _ hAct ih => exact ⟨ih.1.act hAct, hI.act ih.1 ih.2 hAct⟩

def Ret.Ends (target : Nat → Option U64) (jit : Jit) (mode : Mode) (I : BlockCtx → Prop) : Ret → Prop
  | .returned _ h ctx => Tied jit ctx ∧ I ctx ∧
      ∀ s, ctx.pending = some s → Awaits target jit.blocks s h.cpu.rip mode.is64
  | .undefined ctx => Tied jit ctx ∧ I ctx ∧ ctx.pending = none
  | .outOfFuel => True

theorem is64_inj {m m' : Mode} (h : m.is64 = m'.is64) : m = m' := by
  cases m <;> cases m' <;> first | rfl | cases h

theorem Sane.chase (hSane : Sane target jit) {I : BlockCtx → Prop} (hI : Carried jit I) {mode : Mode}
    (fuel : Nat) {idx : Nat} {linked : Bool} {b : Block} {h : Native}
    (hGet : jit.blocks[idx]? = some b) (hCode : b.code.isSome = true) (hMode : b.origin.mode = mode)
    (hTied : Tied jit ctx) (hPending : ctx.pending = none) (hEnter : I (ctx.chain linked b.origin)) :
    (chase jit.blocks fuel linked idx h ctx).Ends target jit mode I := by
  induction fuel generalizing idx linked b h ctx with
  | zero => trivial
  | succ fuel ih =>
    obtain ⟨code, hCode⟩ := Option.isSome_iff_exists.mp hCode
    have hPlaced := hSane.placed idx b code hGet hCode
    obtain ⟨slots, hSlots, hShaped⟩ := hPlaced.shaped
    obtain ⟨bCode, insns, page0, page1, gen0, gen1, globalGen, origin⟩ := b
    obtain rfl : bCode = some code := hCode
    dsimp only at hMode hEnter
    rw [Jit.chase, hGet]
    dsimp only
    have hExits := exec_shaped hShaped h (ctx.chain linked origin)
    generalize exec code h (ctx.chain linked origin) = r at hExits
    cases hExits with
    | stray hActs hStray =>
      obtain ⟨hTied', hI'⟩ := hI.acts (hTied.chain linked origin) hEnter hActs
      refine ⟨hTied'.stray hStray, hI.stray hTied' hI' hStray, ?_⟩
      have hSame := hActs.fixed.pending
      cases hStray <;> exact hSame.trans hPending
    | @exit ctx₁ h₁ e m k hActs hShape hBegun =>
      obtain ⟨hTied', hI'⟩ := hI.acts (hTied.chain linked origin) hEnter hActs
      have hPending' : ctx₁.pending = none := hActs.fixed.pending.trans hPending
      have hOwner : ∀ s, e.tail.slot = some s → s / MAX_LINKS = idx := by
        intro s hs
        obtain ⟨-, base, hBase, hLow, hHigh⟩ := hShape.slot s hs
        exact Sane.div_maxLinks (hSlots base hBase) hLow hHigh
      have hLeaves := leaves e h₁ ctx₁
      generalize e.exec h₁ ctx₁ = r at hLeaves
      cases hLeaves with
      | plain hSlot =>
        refine ⟨hTied'.tail _ _, hI.tail _ _ hI', fun s hs => ?_⟩
        rw [hPending'] at hs
        cases hs
      | refused hSlot =>
        refine ⟨hTied'.tail _ _, hI.tail _ _ hI', fun s hs => ?_⟩
        obtain rfl := Option.some.inj hs
        refine ⟨⟨_, by rw [hOwner _ hSlot]; exact hGet, congrArg Mode.is64 hMode⟩, fun t ht => ?_⟩
        exact (hShape.rip_of_target hSlot ht h₁).symm
      | @linked s hSlot hLimit hEpoch hKey =>
        obtain ⟨hSame, hLive⟩ := hTied'.live_slot hSane hEpoch
        obtain ⟨⟨o, b', ho, hb', hSome, hMap⟩, -⟩ := hSane.linked s hLive
        rw [show (ctx₁.links s).code = (jit.links s).code by rw [hTied'.links]]
        rw [hOwner s hSlot] at ho
        obtain rfl := Option.some.inj (hGet.symm.trans ho)
        obtain ⟨b'', hb'', -, hMode'⟩ := hSane.mapped _ _ _ hMap
        obtain rfl := Option.some.inj (hb'.symm.trans hb'')
        refine ih hb' hSome ((is64_inj hMode').trans hMode) (hTied'.tail _ _) hPending' ?_
        exact hI.link (hTied'.tail _ _) (hI.tail _ _ hI') hSame hLive hb'

end Call
end Exemu.Jit
