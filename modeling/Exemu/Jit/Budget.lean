import Exemu.Jit.History

/-! # What a run costs

A run reports the instructions it began, but for one that faulted, and stays within its budget:
a link is taken only while the longest block still fits.
-/
namespace Exemu.Jit

/-! ## One block -/

section Block

variable {slots : Option Nat} {target : Nat → Option U64}

theorem Shaped.begins {insns : Nat} {code : List Inst} (h : Shaped slots target insns code) : begins code = insns := by
  obtain ⟨body, e, rfl, rfl, -⟩ := h
  simp [begins_append, Jit.begins]

theorem log_exit (e : ExitCode) (h : Native) (ctx : BlockCtx) : (e.exec h ctx).2.2.log = ctx.log := by
  have hLeaves := leaves e h ctx
  generalize e.exec h ctx = r at hLeaves
  cases hLeaves <;> rfl

/-- Code that reaches an exit has begun no more instructions than it has. -/
theorem begun_le (code : List Inst) (h : Native) (ctx : BlockCtx) (hStop : (exec code h ctx).1 ≠ .undefined) :
    begunIn (exec code h ctx).2.2.log ≤ begunIn ctx.log + begins code := by
  induction code generalizing h ctx with
  | nil => exact absurd rfl hStop
  | cons i is hRest =>
    cases i with
    | begin rip =>
      have hTail := hRest h (ctx.record (.begun rip)) hStop
      rw [BlockCtx.log_record, BlockCtx.begunIn_append, Nat.add_assoc, Nat.add_comm (begunIn [_])] at hTail
      exact hTail
    | op o => exact hRest _ _ hStop
    | load dst size fault =>
      simp only [exec] at hStop ⊢
      split <;> rename_i hLoad
      · rw [← Acts.begun_of_load hLoad]
        simp only [hLoad] at hStop
        exact hRest _ _ hStop
      · rw [log_exit, Acts.begun_of_load hLoad]
        exact Nat.le_add_right _ _
      · simp [hLoad] at hStop
    | store src size push wrote fault =>
      simp only [exec] at hStop ⊢
      split <;> rename_i hStore
      · rw [← Acts.begun_of_store hStore]
        simp only [hStore] at hStop
        exact hRest _ _ hStop
      · rw [log_exit, Acts.begun_of_store hStore]
        exact Nat.le_add_right _ _
      · rw [log_exit, Acts.begun_of_store hStore]
        exact Nat.le_add_right _ _
      · simp [hStore] at hStop
    | branch test fall =>
      simp only [exec] at hStop ⊢
      split <;> rename_i hTest
      · simp only [hTest, if_true] at hStop
        exact hRest _ _ hStop
      · rw [log_exit]
        exact Nat.le_add_right _ _
    | exit e =>
      simp only [exec, log_exit]
      exact Nat.le_add_right _ _

end Block

/-! ## Along the links -/

def Run.lost : Run → Nat
  | .Faulted _ => 1
  | _ => 0

/-- What a call leaves of its budget, and how many instructions it has begun. -/
def Ret.Counts (budget retired begun : Nat) : Ret → Prop
  | .returned fault _ ctx => ctx.retired ≤ budget ∧ begunIn ctx.log + retired = begun + ctx.retired + (if fault then 1 else 0) ∧
      (if fault then retired ≤ ctx.retired ∧ ctx.retired < budget else retired < ctx.retired)
  | .undefined _ => True
  | .outOfFuel => False

theorem Ret.Counts.after {budget retired retired' begun begun' : Nat} {r : Ret} (h : r.Counts budget retired' begun')
    (hMore : retired ≤ retired') (hBegun : begun' + retired = begun + retired') : r.Counts budget retired begun := by
  cases r with
  | returned fault native ctx =>
    obtain ⟨hWithin, hCount, hOn⟩ := h
    refine ⟨hWithin, by omega, ?_⟩
    split_ifs at hOn ⊢ <;> omega
  | undefined ctx => trivial
  | outOfFuel => exact h

section Call

variable {target : Nat → Option U64} {jit : Jit} {ctx : BlockCtx} {budget : Nat}

theorem ExitCode.Shape.retires {slots : Option Nat} {m : Nat} {k : Known} {e : ExitCode} (h : e.Shape slots target m k) :
    if e.tail.fault = true then e.tail.retired + 1 = m else e.tail.retired = m ∧ 0 < m := by
  have hPos := h.pos
  have hRetired := h.retired
  split_ifs at hRetired ⊢ <;> omega

theorem Sane.chase_counts (hSane : Sane target jit) (fuel : Nat) {idx : Nat} {linked : Bool} {b : Block} {h : Native}
    (hGet : jit.blocks[idx]? = some b) (hCode : b.code.isSome = true) (hTied : Tied jit ctx)
    (hLimit : ctx.linkLimit ≤ budget + 1 - jit.longest) (hRoom : ctx.retired + b.insns ≤ budget)
    (hFuel : 0 < fuel ∧ ctx.linkLimit < ctx.retired + fuel) :
    (Jit.chase jit.blocks fuel linked idx h ctx).Counts budget ctx.retired (begunIn ctx.log) := by
  induction fuel generalizing idx linked b h ctx with
  | zero => exact absurd hFuel.1 (Nat.lt_irrefl 0)
  | succ fuel hNext =>
    obtain ⟨code, hCode⟩ := Option.isSome_iff_exists.mp hCode
    obtain ⟨slots, hSlots, hShaped⟩ := (hSane.placed idx b code hGet hCode).shaped
    obtain ⟨bCode, insns, page0, page1, gen0, gen1, globalGen, origin⟩ := b
    obtain rfl : bCode = some code := hCode
    dsimp only at hRoom hShaped
    rw [Jit.chase, hGet]
    dsimp only
    have hExits := exec_shaped hShaped h (ctx.chain linked origin)
    have hMost := begun_le code h (ctx.chain linked origin)
    rw [hShaped.begins] at hMost
    have hEntered : begunIn (ctx.chain linked origin).log = begunIn ctx.log := BlockCtx.begunIn_append ctx.log [_]
    rw [hEntered] at hMost
    generalize exec code h (ctx.chain linked origin) = r at hExits hMost
    cases hExits with
    | stray hActs hStray => trivial
    | @exit ctx₁ h₁ e m k hActs hShape hBegun =>
      have hSame : ctx₁.retired = ctx.retired := hActs.fixed.retired
      have hLimits : ctx₁.linkLimit = ctx.linkLimit := hActs.fixed.linkLimit
      have hRetires := hShape.retires
      have hTied' := (carried_true jit).acts (hTied.chain linked origin) trivial hActs
      rw [hEntered] at hBegun
      rw [log_exit] at hMost
      have hLeaves := leaves e h₁ ctx₁
      generalize e.exec h₁ ctx₁ = r at hLeaves hMost
      cases hLeaves with
      | plain hSlot =>
        have hLe := hMost (by simp)
        simp only [Ret.Counts, hSame]
        split_ifs at hRetires ⊢ <;> omega
      | @refused s hSlot =>
        have hLe := hMost (by simp)
        simp only [Ret.Counts, hSame]
        split_ifs at hRetires ⊢ <;> omega
      | @linked s hSlot hLink hEpoch hKey =>
        obtain ⟨hSame, hLive⟩ := hTied'.1.live_slot hSane hEpoch
        obtain ⟨⟨o, b', ho, hb', hSome, hMap⟩, -⟩ := hSane.linked s hLive
        rw [show (ctx₁.links s).code = (jit.links s).code by rw [hTied'.1.links]]
        obtain ⟨code', hCode'⟩ := Option.isSome_iff_exists.mp hSome
        have hLongest := (hSane.placed _ _ _ hb' hCode').longest
        rw [if_neg (by simp [(hShape.slot s hSlot).1])] at hRetires
        -- the limit leaves room for the longest block
        have hCounts := @hNext _ _ true b' ((execOps e.ops h₁).setRip ((execOps e.ops h₁).get T2)).clobber hb' hSome
          (hTied'.1.tail (ctx₁.retired + e.tail.retired) ctx₁.pending) (by simp only [hLimits]; omega) (by simp only; omega) (by simp only; omega)
        exact hCounts.after (by simp only; omega) (by simp only; omega)

theorem Sane.callBlock_counts (h : Sane target jit) (p : Params) {idx : Nat} {b : Block} (native : Native) (mem : VirtualMemory)
    (log : List Event) {retired : Nat} (hGet : jit.blocks[idx]? = some b) (hCode : b.code.isSome = true)
    (hRoom : retired + b.insns ≤ p.budget) :
    (Jit.callBlock jit.blocks idx native (jit.blockCtx p retired mem log)).Counts p.budget retired (begunIn log) := by
  have hLimit : (jit.blockCtx p retired mem log).linkLimit ≤ p.budget + 1 - jit.longest := by
    simp only [Jit.blockCtx, Params.linkLimit]
    split_ifs <;> omega
  exact h.chase_counts _ hGet hCode (tied_blockCtx jit p retired mem log) hLimit hRoom ⟨Nat.succ_pos _, by omega⟩

end Call

/-! ## The dispatcher -/

/-- What a run tells about itself, against the log: `Executed` is the whole budget or a breakpoint. -/
structure Run.Accounts (budget : Nat) (debug : Option DebugControl) (retired : Nat) (m m' : Machine) (r : Run) : Prop where
  within : r.insns ≤ budget
  begun : begunIn m'.log + retired = begunIn m.log + r.insns + r.lost
  executed : ∀ n, r = .Executed n → n = budget ∨ debug.any (fun d => d.isBreak m'.native.cpu.rip) = true
  faulted : ∀ n, r = .Faulted n → n < budget
  uncompiled : r = .NotCompiled → retired = 0 ∧ m'.native = m.native ∧ m'.mem = m.mem

def Outcome.Accounts (budget : Nat) (debug : Option DebugControl) (retired : Nat) (m m' : Machine) : Outcome → Prop
  | .ran r => r.Accounts budget debug retired m m'
  | .outOfFuel => False
  | .panicked => True
  | .undefined => True

def Turn.Accounts (p : Params) (retired : Nat) (m : Machine) : Turn → Prop
  | .done out m' => out.Accounts p.budget p.debug retired m m'
  | .again retired' m' => retired < retired' ∧ retired' < p.budget ∧ begunIn m'.log + retired = begunIn m.log + retired'

section Dispatch

variable {target : Nat → Option U64} {p : Params} {m m' : Machine} {retired : Nat}

theorem back_accounts {r : Ret} {begun : Nat} (h : r.Counts p.budget retired begun) (hBegun : begun = begunIn m'.log)
    (hLog : begunIn m.log = begunIn m'.log) : (m'.back p r).Accounts p retired m := by
  have hBacks := backs p m' r
  generalize m'.back p r = t at hBacks
  cases hBacks with
  | undefined ctx => trivial
  | outOfFuel => exact h
  | faulted native ctx =>
    obtain ⟨hWithin, hCount, hOn⟩ := h
    refine ⟨hWithin, ?_, nofun, ?_, nofun⟩
    · simp only [Machine.harvest, Run.insns, Run.lost]
      simp only [if_true] at hCount
      omega
    · rintro n ⟨⟩
      exact hOn.2
  | executed native ctx hBudget =>
    obtain ⟨hWithin, hCount, hOn⟩ := h
    refine ⟨hWithin, ?_, ?_, nofun, nofun⟩
    · simp only [Machine.harvest, Run.insns, Run.lost]
      simp at hCount
      omega
    · rintro n ⟨⟩
      exact .inl (le_antisymm hWithin hBudget)
  | again native ctx hBudget =>
    obtain ⟨hWithin, hCount, hOn⟩ := h
    simp at hCount hOn
    refine ⟨hOn, hBudget, ?_⟩
    simp only [Machine.harvest]
    omega

theorem Sane.turn_accounts (h : Sane target m.jit) (hRetired : retired ≤ p.budget) : (m.turn p retired).Accounts p retired m := by
  unfold Machine.turn
  dsimp only
  split
  · trivial
  rename_i idx jit hDispatch
  obtain ⟨target', hSane, hMap⟩ := h.debugGenerationCheck.dispatches (dispatch_dispatches h.debugGenerationCheck hDispatch)
  split
  · rename_i insns page0 page1 gen0 gen1 globalGen origin hGet
    have hDispatched : begunIn (m.log ++ [.dispatched origin m.mem]) = begunIn m.log := BlockCtx.begunIn_append m.log [_]
    split <;> rename_i hBudget
    · refine ⟨hRetired, ?_, nofun, nofun, nofun⟩
      change begunIn (m.log ++ [_]) + retired = begunIn m.log + retired + 0
      rw [hDispatched, Nat.add_zero]
    · have hGet' := hGet
      rw [← show (jit.fillPending m.native.cpu.rip p.mode.is64 idx).blocks = jit.blocks by rw [fillPending_eq]] at hGet'
      have hCounts := (hSane.fillPending hMap hGet rfl).callBlock_counts p m.native m.mem
        (m.log ++ [.dispatched origin m.mem]) hGet' rfl (Nat.le_of_not_lt hBudget)
      exact back_accounts hCounts rfl hDispatched.symm
  · split <;> rename_i hZero
    · subst hZero
      exact ⟨hRetired, rfl, nofun, nofun, fun _ => ⟨rfl, rfl, rfl⟩⟩
    split <;> rename_i hBreak
    · refine ⟨hRetired, rfl, ?_, nofun, nofun⟩
      rintro n ⟨⟩
      exact .inr hBreak
    · exact ⟨hRetired, rfl, nofun, nofun, nofun⟩

theorem Outcome.Accounts.after {budget : Nat} {debug : Option DebugControl} {m₀ : Machine} {retired' : Nat} {out : Outcome}
    (h : out.Accounts budget debug retired' m m') (hMore : 0 < retired')
    (hBegun : begunIn m.log + retired = begunIn m₀.log + retired') : out.Accounts budget debug retired m₀ m' := by
  cases out with
  | ran r =>
    have hCount := h.begun
    exact ⟨h.within, by omega, h.executed, h.faulted, fun hNot => absurd (h.uncompiled hNot).1 (Nat.ne_of_gt hMore)⟩
  | panicked => trivial
  | undefined => trivial
  | outOfFuel => exact h

theorem Outcome.Accounts.setJit {budget : Nat} {debug : Option DebugControl} {jit : Jit} {out : Outcome}
    (h : out.Accounts budget debug retired (m.setJit jit) m') : out.Accounts budget debug retired m m' := by
  cases out with
  | ran r => exact ⟨h.within, h.begun, h.executed, h.faulted, h.uncompiled⟩
  | panicked => trivial
  | undefined => trivial
  | outOfFuel => exact h

/-- Every turn retires an instruction, so the loop ends before its fuel does. -/
theorem loop_accounts (fuel : Nat) (h : ∃ target, Sane target m.jit) (hRetired : retired ≤ p.budget) (hFuel : p.budget < retired + fuel) :
    (Machine.loop p fuel m retired).1.Accounts p.budget p.debug retired m (Machine.loop p fuel m retired).2 := by
  induction fuel generalizing m retired with
  | zero => omega
  | succ fuel hNext =>
    obtain ⟨target, hSane⟩ := h
    have hTurn := hSane.turn_accounts hRetired
    have hAfter := hSane.turn p retired
    rw [Machine.loop]
    generalize m.turn p retired = t at hTurn hAfter
    cases t with
    | done out m' => exact hTurn
    | again retired' m' =>
      obtain ⟨hMore, hLess, hBegun⟩ := hTurn
      exact (hNext hAfter (Nat.le_of_lt hLess) (by omega)).after (by omega) hBegun

end Dispatch

theorem sane_history (capacity : Nat) (native : Native) (mem : VirtualMemory) (ops : List HostOp) :
    ∃ target, Sane target ((Machine.start capacity native mem).history ops).jit :=
  history_rule (J := fun m => ∃ target, Sane target m.jit) (fun _ op h => Sane.apply h op) ops (sane_start capacity native mem)

/-- Whatever became of the engine before: a run begins as many instructions as it reports, and one more if it faulted, it never
exceeds its budget, and it falls short of it only where it says so. -/
theorem run_accounts (capacity : Nat) (native native' : Native) (mem : VirtualMemory) (ops : List HostOp) (mode : Mode) (budget : Nat) :
    ((((Machine.start capacity native mem).history ops).setNative native').run mode budget).1.Accounts (min budget (2 ^ 32 - 1 - MAX_INSNS))
      ((Machine.start capacity native mem).history ops).jit.debug 0 (((Machine.start capacity native mem).history ops).setNative native')
      ((((Machine.start capacity native mem).history ops).setNative native').run mode budget).2 := by
  obtain ⟨target, hSane⟩ := sane_history capacity native mem ops
  generalize (Machine.start capacity native mem).history ops = m at hSane ⊢
  have hChecked := hSane.tlbCheck m.mem m.memId (m.jit.watching m.mem)
  have hLoop := loop_accounts (p := (m.setNative native').params mode budget true)
    (m := (m.setNative native').setJit (m.jit.tlbCheck m.mem m.memId (m.jit.watching m.mem))) (_ + 1)
    ⟨target, hChecked⟩ (Nat.zero_le _) (by rw [Nat.zero_add]; exact Nat.lt_succ_self _)
  exact hLoop.setJit

end Exemu.Jit
