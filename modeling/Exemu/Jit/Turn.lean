import Exemu.Jit.Call

/-! # Turns of the dispatcher

`Turns` lists what one round of the dispatcher can do.
-/
namespace Exemu.Jit

section Steps

variable {target : Nat → Option U64} {jit jit' : Jit}

theorem Sane.tune (h : Sane target jit) (maxInsns : Nat) (tlb : Nat → TlbEntry) (tlbLive : Bool) (tlbGen : U64)
    (tlbWatch : Bool) (tlbMem : Nat) (tlbOn : Bool) (debug : Option DebugControl) (debugGen : U64) :
    Sane target { jit with
      maxInsns := maxInsns, tlb := tlb, tlbLive := tlbLive, tlbGen := tlbGen, tlbWatch := tlbWatch
      tlbMem := tlbMem, tlbOn := tlbOn, debug := debug, debugGen := debugGen } :=
  ⟨h.filter, h.alive, h.epochs, h.gens, h.mapped, h.lined, h.placed, h.linked, h.awaits⟩

theorem Sane.debugGenerationCheck (h : Sane target jit) : Sane target jit.debugGenerationCheck := by
  unfold Jit.debugGenerationCheck
  split
  · exact h
  split
  · exact h
  · exact (h.tune _ _ _ _ _ _ _ _ _).flush target

theorem Sane.drop (h : Sane target jit) : Sane target { jit with pending := none } :=
  ⟨h.filter, h.alive, h.epochs, h.gens, h.mapped, h.lined, h.placed, h.linked, nofun⟩

variable {rip : U64} {idx : Nat} {mem : VirtualMemory}

theorem Sane.fillPending (h : Sane target jit) {long : Bool} {b : Block} (hMap : jit.map rip long = some idx)
    (hGet : jit.blocks[idx]? = some b) (hCode : b.code.isSome = true) : Sane target (jit.fillPending rip long idx) := by
  unfold Jit.fillPending
  split
  · rename_i slot hPending
    split
    · rename_i hHere
      obtain ⟨⟨o, ho, hLong⟩, hAimed⟩ := h.awaits slot hPending
      exact {
        filter := h.filter
        alive := h.alive
        epochs := fun s => by
          dsimp only
          split
          · exact BitVec.le_refl _
          · exact h.epochs s
        gens := h.gens
        mapped := h.mapped
        lined := h.lined
        placed := h.placed
        linked := fun s hs => by
          dsimp only at hs ⊢
          split <;> rename_i hSlot
          · subst hSlot
            refine ⟨⟨o, b, ho, hGet, hCode, ?_⟩, fun t ht => ?_⟩
            · rw [hLong, hHere.1]
              exact hMap
            · rw [hAimed t ht, hHere.2]
          · rw [if_neg hSlot] at hs
            exact h.linked s hs
        awaits := nofun }
    · exact h.drop
  · exact h

theorem fillPending_eq (jit : Jit) (rip : U64) (long : Bool) (idx : Nat) : jit.fillPending rip long idx =
    { jit with links := (jit.fillPending rip long idx).links, pending := none } := by
  unfold Jit.fillPending
  split
  · split <;> rfl
  · rename_i hNone
    cases jit
    dsimp only at hNone
    rw [hNone]

theorem Sane.settleSmc (h : Sane target jit) (smc : U64) (smcHits : Nat) :
    Sane target (jit.settleSmc smc smcHits) := by
  unfold Jit.settleSmc
  split
  · exact h
  split
  · exact h.unlinkAll
  · exact h

def LinksTo (Q : Origin → Prop) (jit : Jit) : Prop :=
  ∀ s b, (jit.links s).epoch = jit.linkEpoch → jit.blocks[(jit.links s).code]? = some b → Q b.origin

variable {Q : Origin → Prop}

theorem linksTo_unlinkAll (h : Sane target jit) : LinksTo Q jit.unlinkAll := fun s _ hs =>
  absurd hs (BitVec.ne_of_lt (h.unlinkAll_dead s))

theorem linksTo_flush (h : Sane target jit) : LinksTo Q jit.flush := fun s _ hs =>
  absurd hs (BitVec.ne_of_lt (h.flush_dead s))

theorem LinksTo.finds (hQ : LinksTo Q jit) (h : Sane target jit) {mode : Mode} (hFinds : Finds rip mode mem jit idx jit') :
    LinksTo Q jit' := by
  cases hFinds with
  | cached hMap => exact hQ
  | lined hMap => exact hQ
  | @built jit₁ b hMap hRoom hFresh hFits =>
    have hLinks : (jit₁.addBlock rip mode.is64 b).2.links = jit₁.links ∧
        (jit₁.addBlock rip mode.is64 b).2.linkEpoch = jit₁.linkEpoch := by
      unfold Jit.addBlock
      dsimp only
      split
      · rw [Sane.noteCodePage_eq, Sane.noteCodePage_eq]
        exact ⟨rfl, rfl⟩
      · exact ⟨rfl, rfl⟩
    have hQ₁ : LinksTo Q jit₁ := by
      rcases hRoom with hEq | hEq <;> rw [hEq]
      · exact hQ
      · exact linksTo_flush (Q := Q) h
    intro s o hs ho
    rw [hLinks.1, hLinks.2] at hs
    rw [(addBlock_get _ _ _ _).1, hLinks.1] at ho
    obtain ⟨⟨_, b', -, hb', -, -⟩, -⟩ := (h.room hRoom).linked s hs
    rw [List.getElem?_append_left (List.getElem?_eq_some_iff.mp hb').1] at ho
    exact hQ₁ s o hs ho

theorem LinksTo.validates (hQ : LinksTo Q jit) {ok : Bool} (hVal : Validates mem jit idx ok jit') : LinksTo Q jit' := by
  cases hVal with
  | current hGet hCurrent => exact hQ
  | @checked b hGet hValid =>
    intro s o hs ho
    dsimp only at hs ho
    by_cases hi : idx = (jit.links s).code
    · subst hi
      rw [List.getElem?_set_self (List.getElem?_eq_some_iff.mp hGet).1] at ho
      obtain rfl := Option.some.inj ho
      exact hQ s b hs hGet
    · rw [List.getElem?_set_ne hi] at ho
      exact hQ s o hs ho
  | missing hGet => exact hQ
  | stale hGet hStale => exact hQ

theorem LinksTo.dispatches (hQ : LinksTo Q jit) (h : Sane target jit) {mode : Mode}
    (hDisp : Dispatches rip mode mem jit idx jit') : LinksTo Q jit' := by
  cases hDisp with
  | valid hFinds hVal => exact (hQ.finds h hFinds).validates hVal
  | rebuilt hFirst hVal hFinds =>
    obtain ⟨target₁, hSane, -⟩ := h.finds hFirst
    exact LinksTo.finds (linksTo_flush hSane) (hSane.flush target₁) hFinds

theorem LinksTo.fillPending (hQ : LinksTo Q jit) {long : Bool} {b : Block} (hGet : jit.blocks[idx]? = some b)
    (hb : Q b.origin) : LinksTo Q (jit.fillPending rip long idx) := by
  unfold Jit.fillPending
  split
  · split
    · intro s o hs ho
      dsimp only at hs ho
      split at hs <;> rename_i hSlot
      · rw [if_pos hSlot] at ho
        obtain rfl := Option.some.inj (hGet.symm.trans ho)
        exact hb
      · rw [if_neg hSlot] at ho
        exact hQ s o hs ho
    · exact hQ
  · exact hQ

theorem LinksTo.drop (hQ : LinksTo Q jit) : LinksTo Q { jit with pending := none } := hQ

theorem LinksTo.debugGenerationCheck (hQ : LinksTo Q jit) (h : Sane target jit) :
    LinksTo Q jit.debugGenerationCheck := by
  unfold Jit.debugGenerationCheck
  split
  · exact hQ
  split
  · exact hQ
  · exact linksTo_flush (h.tune _ _ _ _ _ _ _ _ _)

theorem SameTlb.debugGenerationCheck (jit : Jit) : SameTlb jit jit.debugGenerationCheck := by
  unfold Jit.debugGenerationCheck
  split
  · exact refl jit
  split
  · exact refl jit
  · rename_i d _ _
    have hTuned : SameTlb jit { jit with debugGen := d.generation } := ⟨rfl, rfl, rfl, rfl, rfl, rfl, rfl⟩
    exact hTuned.trans (flush _)

theorem SameTlb.fillPending (jit : Jit) (rip : U64) (long : Bool) (idx : Nat) :
    SameTlb jit (jit.fillPending rip long idx) := by
  rw [fillPending_eq]
  exact ⟨rfl, rfl, rfl, rfl, rfl, rfl, rfl⟩

theorem SameTlb.settleSmc (jit : Jit) (smc : U64) (smcHits : Nat) : SameTlb jit (jit.settleSmc smc smcHits) := by
  unfold Jit.settleSmc
  split
  · exact refl jit
  split
  · exact unlinkAll jit
  · exact refl jit

theorem settleSmc_blocks (jit : Jit) (smc : U64) (smcHits : Nat) :
    (jit.settleSmc smc smcHits).blocks = jit.blocks := by
  unfold Jit.settleSmc
  split
  · rfl
  split
  · rw [Sane.unlinkAll_eq]
  · rfl

end Steps

inductive Turns (p : Params) (m : Machine) (retired : Nat) : Turn → Prop
  | panicked (hNone : m.jit.debugGenerationCheck.dispatch m.native.cpu.rip p.mode m.mem = none) :
      Turns p m retired (.done .panicked m)
  | uncompiled {idx : Nat} {jit : Jit} {r : Run}
      (hDisp : Dispatches m.native.cpu.rip p.mode m.mem m.jit.debugGenerationCheck idx jit)
      (hInsns : r.insns = retired) :
      Turns p m retired (.done (.ran r) (m.setJit { jit with pending := none }))
  | stopped {idx : Nat} {jit : Jit} {b : Block}
      (hDisp : Dispatches m.native.cpu.rip p.mode m.mem m.jit.debugGenerationCheck idx jit)
      (hGet : jit.blocks[idx]? = some b) (hCode : b.code.isSome = true) (hBudget : p.budget < retired + b.insns) :
      Turns p m retired (.done (.ran (.SideExit retired))
        ((m.setJit (jit.fillPending m.native.cpu.rip p.mode.is64 idx)).record (.dispatched b.origin m.mem)))
  | called {idx : Nat} {jit : Jit} {b : Block}
      (hDisp : Dispatches m.native.cpu.rip p.mode m.mem m.jit.debugGenerationCheck idx jit)
      (hGet : jit.blocks[idx]? = some b) (hCode : b.code.isSome = true) (hBudget : retired + b.insns ≤ p.budget) :
      Turns p m retired
        (((m.setJit (jit.fillPending m.native.cpu.rip p.mode.is64 idx)).record (.dispatched b.origin m.mem)).back p
          (callBlock (jit.fillPending m.native.cpu.rip p.mode.is64 idx).blocks idx m.native
            ((jit.fillPending m.native.cpu.rip p.mode.is64 idx).blockCtx p retired m.mem
              (m.log ++ [.dispatched b.origin m.mem]))))

theorem turns {target : Nat → Option U64} {p : Params} {m : Machine} (h : Sane target m.jit) (retired : Nat) :
    Turns p m retired (m.turn p retired) := by
  unfold Machine.turn
  dsimp only
  split
  · rename_i hNone
    exact .panicked hNone
  rename_i idx jit hDispatch
  have hDisp := dispatch_dispatches h.debugGenerationCheck hDispatch
  split
  · rename_i hGet
    split <;> rename_i hBudget
    · have hStopped := Turns.stopped hDisp hGet rfl hBudget
      exact hStopped
    · have hCalled := Turns.called hDisp hGet rfl (Nat.le_of_not_lt hBudget)
      exact hCalled
  · split
    · rename_i hZero
      exact .uncompiled hDisp hZero.symm
    split <;> exact .uncompiled hDisp rfl

section Machine

variable {target : Nat → Option U64} {p : Params} {m : Machine} {retired : Nat}

theorem tied_blockCtx (jit : Jit) (p : Params) (retired : Nat) (mem : VirtualMemory) (log : List Event) :
    Tied jit (jit.blockCtx p retired mem log) := ⟨rfl, rfl, rfl, .inl rfl⟩

variable {jit : Jit}

theorem Sane.callBlock (h : Sane target jit) {I : BlockCtx → Prop} (hI : Carried jit I) {idx : Nat} {b : Block}
    (native : Native) {mem : VirtualMemory} {log : List Event} (hGet : jit.blocks[idx]? = some b)
    (hCode : b.code.isSome = true) (hMode : b.origin.mode = p.mode)
    (hEnter : I ((jit.blockCtx p retired mem log).chain false b.origin)) :
    (callBlock jit.blocks idx native (jit.blockCtx p retired mem log)).Ends target jit p.mode I :=
  h.chase hI _ hGet hCode hMode (tied_blockCtx _ _ _ _ _) rfl hEnter

theorem Sane.leave (h : Sane target jit) {pending : Option Nat} {rip : U64} {long : Bool}
    (hPending : ∀ s, pending = some s → Awaits target jit.blocks s rip long) (tlb : Nat → TlbEntry) :
    Sane target { jit with tlb := tlb, pending := pending, pendingRip := rip, pendingLong := long } :=
  ⟨h.filter, h.alive, h.epochs, h.gens, h.mapped, h.lined, h.placed, h.linked, hPending⟩

theorem Sane.harvest (h : Sane target m.jit) {native : Native} {ctx : BlockCtx}
    (hPending : ∀ s, ctx.pending = some s →
      Awaits target m.jit.blocks s native.cpu.rip p.mode.is64) :
    Sane target (m.harvest p native ctx).jit := (h.leave hPending ctx.tlb).settleSmc _ _

def Turn.machine : Turn → Machine
  | .done _ m => m
  | .again _ m => m

inductive Backs (p : Params) (m : Machine) : Ret → Turn → Prop
  | undefined (ctx : BlockCtx) : Backs p m (.undefined ctx) (.done .undefined (m.harvest p m.native ctx))
  | outOfFuel : Backs p m .outOfFuel (.done .outOfFuel m)
  | faulted (h : Native) (ctx : BlockCtx) :
      Backs p m (.returned true h ctx) (.done (.ran (.Faulted ctx.retired)) (m.harvest p h ctx))
  | executed (h : Native) (ctx : BlockCtx) (hBudget : p.budget ≤ ctx.retired) :
      Backs p m (.returned false h ctx) (.done (.ran (.Executed ctx.retired)) (m.harvest p h ctx))
  | again (h : Native) (ctx : BlockCtx) (hBudget : ctx.retired < p.budget) :
      Backs p m (.returned false h ctx) (.again ctx.retired (m.harvest p h ctx))

theorem backs (p : Params) (m : Machine) (r : Ret) : Backs p m r (m.back p r) := by
  cases r with
  | undefined ctx => exact .undefined ctx
  | outOfFuel => exact .outOfFuel
  | returned fault h ctx =>
    unfold Machine.back
    cases fault with
    | true => exact .faulted h ctx
    | false =>
      dsimp only
      split
      · rename_i hFault
        cases hFault
      split <;> rename_i hBudget
      · exact .executed h ctx hBudget
      · exact .again h ctx (Nat.lt_of_not_le hBudget)

theorem carried_true (jit : Jit) : Carried jit fun _ => True :=
  ⟨fun _ _ _ => trivial, fun _ _ _ => trivial, fun _ _ _ => trivial, fun _ _ _ _ _ => trivial⟩

theorem Sane.mode_of_map (h : Sane target jit) {rip : U64} {mode : Mode} {idx : Nat} {b : Block}
    (hMap : jit.map rip mode.is64 = some idx) (hGet : jit.blocks[idx]? = some b) : b.origin.mode = mode := by
  obtain ⟨b', hb', -, hMode⟩ := h.mapped _ _ _ hMap
  obtain rfl := Option.some.inj (hGet.symm.trans hb')
  exact is64_inj hMode

theorem turn_rule {J : Machine → Prop} (h : Sane target m.jit) (retired : Nat) (hPanicked : J m)
    (hUncompiled : ∀ {idx : Nat} {jit : Jit},
      Dispatches m.native.cpu.rip p.mode m.mem m.jit.debugGenerationCheck idx jit →
      J (m.setJit { jit with pending := none }))
    (hFilled : ∀ {idx : Nat} {jit : Jit} {b : Block},
      Dispatches m.native.cpu.rip p.mode m.mem m.jit.debugGenerationCheck idx jit →
      jit.blocks[idx]? = some b → b.code.isSome = true →
      J ((m.setJit (jit.fillPending m.native.cpu.rip p.mode.is64 idx)).record (.dispatched b.origin m.mem)))
    (hCalled : ∀ {idx : Nat} {jit jit' : Jit} {b : Block} {target' : Nat → Option U64},
      Dispatches m.native.cpu.rip p.mode m.mem m.jit.debugGenerationCheck idx jit →
      jit.blocks[idx]? = some b → b.code.isSome = true → jit.fillPending m.native.cpu.rip p.mode.is64 idx = jit' →
      Sane target' jit' → J ((m.setJit jit').record (.dispatched b.origin m.mem)) → ∃ I : BlockCtx → Prop,
        Carried jit' I ∧
        I ((jit'.blockCtx p retired m.mem (m.log ++ [.dispatched b.origin m.mem])).chain false b.origin) ∧
        ∀ {native : Native} {ctx : BlockCtx}, Tied jit' ctx → I ctx →
          (∀ s, ctx.pending = some s → Awaits target' jit'.blocks s native.cpu.rip p.mode.is64) →
          J (((m.setJit jit').record (.dispatched b.origin m.mem)).harvest p native ctx)) :
    J (m.turn p retired).machine := by
  have hTurns := turns (p := p) h retired
  generalize m.turn p retired = t at hTurns
  cases hTurns with
  | panicked hNone => exact hPanicked
  | uncompiled hDisp hInsns => exact hUncompiled hDisp
  | stopped hDisp hGet hCode hBudget => exact hFilled hDisp hGet hCode
  | @called idx jit b hDisp hGet hCode hBudget =>
    obtain ⟨target', hSane, hMap⟩ := h.debugGenerationCheck.dispatches hDisp
    have hMode := hSane.mode_of_map hMap hGet
    have hSane' := hSane.fillPending hMap hGet hCode
    have hJ := hFilled hDisp hGet hCode
    obtain ⟨jit', hEq⟩ : ∃ jit', jit.fillPending m.native.cpu.rip p.mode.is64 idx = jit' := ⟨_, rfl⟩
    have hGet' : jit'.blocks[idx]? = some b := by
      rw [← hEq, fillPending_eq]
      exact hGet
    rw [hEq] at hSane' hJ ⊢
    obtain ⟨I, hI, hEnter, hHarvest⟩ := hCalled hDisp hGet hCode hEq hSane' hJ
    have hEnds := hSane'.callBlock hI m.native hGet' hCode hMode hEnter
    have hBacks := backs p ((m.setJit jit').record (.dispatched b.origin m.mem)) (Jit.callBlock jit'.blocks idx
      m.native (jit'.blockCtx p retired m.mem (m.log ++ [.dispatched b.origin m.mem])))
    generalize Jit.callBlock jit'.blocks idx m.native _ = r at hEnds hBacks
    generalize Machine.back _ p r = t at hBacks
    cases hBacks with
    | undefined ctx =>
      refine hHarvest hEnds.1 hEnds.2.1 fun s hs => ?_
      rw [hEnds.2.2] at hs
      cases hs
    | outOfFuel => exact hJ
    | faulted native ctx => exact hHarvest hEnds.1 hEnds.2.1 hEnds.2.2
    | executed native ctx hBudget => exact hHarvest hEnds.1 hEnds.2.1 hEnds.2.2
    | again native ctx hBudget => exact hHarvest hEnds.1 hEnds.2.1 hEnds.2.2

theorem Sane.turn (h : Sane target m.jit) (p : Params) (retired : Nat) :
    ∃ target', Sane target' (m.turn p retired).machine.jit := by
  have hDispatched := fun {idx jit} (hDisp : Dispatches m.native.cpu.rip p.mode m.mem m.jit.debugGenerationCheck idx jit) =>
    h.debugGenerationCheck.dispatches hDisp
  refine turn_rule (J := fun m => ∃ target', Sane target' m.jit) h retired ⟨target, h⟩ (fun hDisp => ?_)
    (fun hDisp hGet hCode => ?_) fun {_ _ _ _ target'} _ _ _ _ hSane _ => ⟨_, carried_true _, trivial,
      fun _ _ hPending => ⟨target', Sane.harvest hSane hPending⟩⟩
  · obtain ⟨target', hSane, -⟩ := hDispatched hDisp
    exact ⟨target', hSane.drop⟩
  · obtain ⟨target', hSane, hMap⟩ := hDispatched hDisp
    exact ⟨target', hSane.fillPending hMap hGet hCode⟩

theorem loop_rule {J : Machine → Prop} (hTurn : ∀ m retired, J m → J (m.turn p retired).machine) (fuel : Nat) (h : J m)
    (retired : Nat) : J (Machine.loop p fuel m retired).2 := by
  induction fuel generalizing m retired with
  | zero => exact h
  | succ fuel ih =>
    have hNext := hTurn m retired h
    rw [Machine.loop]
    generalize m.turn p retired = t at hNext
    cases t with
    | done out m' => exact hNext
    | again retired' m' => exact ih hNext retired'

end Machine
end Exemu.Jit
