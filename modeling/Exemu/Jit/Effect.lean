import Exemu.Jit.Emit

/-! # What a block does to its context

Compiled code acts on the block context through marks, loads and stores and then leaves through
one exit; `Act` lists the actions, and what each can change.
-/
namespace Exemu.Jit

open VirtualMemory (isUintSize)

def Event.isBegun : Event → Bool
  | .begun _ => true
  | _ => false

def begunIn (log : List Event) : Nat := log.countP Event.isBegun

namespace BlockCtx

@[simp] theorem log_record (ctx : BlockCtx) (e : Event) : (ctx.record e).log = ctx.log ++ [e] := rfl

@[simp] theorem begunIn_append (log log' : List Event) :
    begunIn (log ++ log') = begunIn log + begunIn log' := List.countP_append ..

theorem tlbFill_eq (ctx : BlockCtx) (half : Half) (addr : U64) :
    ctx.tlbFill half addr = { ctx with tlb := (ctx.tlbFill half addr).tlb } := by
  unfold tlbFill
  split
  · rfl
  · dsimp only
    split <;> rfl

variable {ctx ctx' : BlockCtx} {addr : U64} {size : Nat}

theorem read_cases {r : ReadResult} (h : ctx.read addr size = (r, ctx')) :
    (∃ v, ctx.mem.readUint addr size = .ok v ∧ r = ⟨v, .OK⟩ ∧
      ctx' = if ctx.tlbOn then ctx.tlbFill .READ addr else ctx) ∨ (r = ⟨0, .FAULT⟩ ∧ ctx' = ctx) := by
  have hJit : ∀ {s : ReadResult} {d : BlockCtx}, jitRead ctx addr size = (s, d) →
      (∃ v, ctx.mem.readUint addr size = .ok v ∧ s = ⟨v, .OK⟩ ∧
        d = if ctx.tlbOn then ctx.tlbFill .READ addr else ctx) ∨ (s = ⟨0, .FAULT⟩ ∧ d = ctx) := by
    intro s d hRead
    unfold jitRead at hRead
    split at hRead <;> obtain ⟨rfl, rfl⟩ := Prod.mk.inj hRead
    · rename_i v hMem
      exact .inl ⟨v, hMem, rfl, rfl⟩
    · exact .inr ⟨rfl, rfl⟩
  unfold BlockCtx.read jitReadWatched at h
  split at h
  · split at h
    · obtain ⟨rfl, rfl⟩ := Prod.mk.inj h
      exact .inr ⟨rfl, rfl⟩
    · exact hJit h
  · exact hJit h

theorem write_cases {v : U64} {s : Status} (h : ctx.write addr size v = (s, ctx')) :
    (∃ mem, ctx.mem.writeUint addr size v = .ok mem ∧
      s = (if ctx.ownHit addr size then .WROTE_CODE else .OK) ∧ ctx' = ctx.landed mem addr size) ∨
    (s = .FAULT ∧ ctx' = ctx) := by
  have hJit : ∀ {t : Status} {d : BlockCtx}, jitWrite ctx addr size v = (t, d) →
      (∃ mem, ctx.mem.writeUint addr size v = .ok mem ∧
        t = (if ctx.ownHit addr size then .WROTE_CODE else .OK) ∧ d = ctx.landed mem addr size) ∨
      (t = .FAULT ∧ d = ctx) := by
    intro t d hWrite
    unfold jitWrite at hWrite
    split at hWrite <;> obtain ⟨rfl, rfl⟩ := Prod.mk.inj hWrite
    · exact .inr ⟨rfl, rfl⟩
    · rename_i mem hMem
      exact .inl ⟨mem, hMem, rfl, rfl⟩
  unfold BlockCtx.write jitWriteWatched at h
  split at h
  · split at h
    · obtain ⟨rfl, rfl⟩ := Prod.mk.inj h
      exact .inr ⟨rfl, rfl⟩
    · exact hJit h
  · exact hJit h

theorem load_cases {r : ReadResult} (h : ctx.load addr size = .Done r ctx') :
    (∃ p v, ctx.tlbProbe .READ addr size = some p ∧ ctx.mem.hostRead p size = some v ∧ r = ⟨v, .OK⟩ ∧
      ctx' = ctx.record (.inlined .READ addr size p ctx.debug ctx.mem)) ∨
    (∃ v, ctx.mem.readUint addr size = .ok v ∧ r = ⟨v, .OK⟩ ∧
      ctx' = if ctx.tlbOn then ctx.tlbFill .READ addr else ctx) ∨ (r = ⟨0, .FAULT⟩ ∧ ctx' = ctx) := by
  unfold load at h
  split at h
  · rename_i p hProbe
    dsimp only at h
    split at h <;> cases h
    rename_i v hHost
    exact .inl ⟨p, v, hProbe, hHost, rfl, rfl⟩
  · obtain ⟨rfl, rfl⟩ := Access.Done.inj h
    exact .inr (read_cases rfl)

theorem store_cases {v : U64} {s : Status} (h : ctx.store addr size v = .Done s ctx') :
    (∃ p mem, ctx.tlbProbe .WRITE addr size = some p ∧ ctx.mem.hostWrite p size v = some mem ∧ s = .OK ∧
      ctx' = { ctx.record (.inlined .WRITE addr size p ctx.debug ctx.mem) with mem := mem }.record
        (.stored addr size ctx.mem ctx.live .Inline)) ∨
    (∃ mem, ctx.mem.writeUint addr size v = .ok mem ∧
      s = (if ctx.ownHit addr size then .WROTE_CODE else .OK) ∧ ctx' = ctx.landed mem addr size) ∨
    (s = .FAULT ∧ ctx' = ctx) := by
  unfold store at h
  split at h
  · rename_i p hProbe
    dsimp only at h
    split at h <;> cases h
    rename_i mem hHost
    exact .inl ⟨p, mem, hProbe, hHost, rfl, rfl⟩
  · obtain ⟨rfl, rfl⟩ := Access.Done.inj h
    exact .inr (write_cases rfl)

end BlockCtx

section Act

variable {ctx ctx' : BlockCtx} {addr : U64} {size : Nat}

/-- One action of compiled code inside a block. Accesses that are refused change nothing. -/
inductive Act : BlockCtx → BlockCtx → Prop
  | begun (ctx : BlockCtx) (rip : U64) : Act ctx (ctx.record (.begun rip))
  | inlineLoad {ctx : BlockCtx} {addr : U64} {size : Nat} {p : HostPtr} {v : U64}
      (hSize : isUintSize size = true) (hProbe : ctx.tlbProbe .READ addr size = some p)
      (hHost : ctx.mem.hostRead p size = some v) :
      Act ctx (ctx.record (.inlined .READ addr size p ctx.debug ctx.mem))
  | readFill {ctx : BlockCtx} {addr : U64} {size : Nat} {v : U64} (hOn : ctx.tlbOn = true)
      (hRead : ctx.mem.readUint addr size = .ok v) : Act ctx (ctx.tlbFill .READ addr)
  | inlineStore {ctx : BlockCtx} {addr : U64} {size : Nat} {p : HostPtr} {v : U64} {mem : VirtualMemory}
      (hSize : isUintSize size = true) (hProbe : ctx.tlbProbe .WRITE addr size = some p)
      (hHost : ctx.mem.hostWrite p size v = some mem) :
      Act ctx ({ ctx.record (.inlined .WRITE addr size p ctx.debug ctx.mem) with mem := mem }.record
        (.stored addr size ctx.mem ctx.live .Inline))
  | helperStore {ctx : BlockCtx} {addr : U64} {size : Nat} {v : U64} {mem : VirtualMemory}
      (hWrite : ctx.mem.writeUint addr size v = .ok mem) : Act ctx (ctx.landed mem addr size)

inductive Stray : BlockCtx → BlockCtx → Prop
  | load {ctx : BlockCtx} {addr : U64} {size : Nat} {p : HostPtr}
      (hSize : isUintSize size = true) (hProbe : ctx.tlbProbe .READ addr size = some p)
      (hHost : ctx.mem.hostRead p size = none) :
      Stray ctx (ctx.record (.inlined .READ addr size p ctx.debug ctx.mem))
  | store {ctx : BlockCtx} {addr : U64} {size : Nat} {p : HostPtr} {v : U64}
      (hSize : isUintSize size = true) (hProbe : ctx.tlbProbe .WRITE addr size = some p)
      (hHost : ctx.mem.hostWrite p size v = none) :
      Stray ctx (ctx.record (.inlined .WRITE addr size p ctx.debug ctx.mem))

abbrev Acts : BlockCtx → BlockCtx → Prop := Relation.ReflTransGen Act

theorem acts_load {r : ReadResult} (hSize : isUintSize size = true)
    (h : ctx.load addr size = .Done r ctx') : Acts ctx ctx' := by
  rcases BlockCtx.load_cases h with ⟨p, v, hProbe, hHost, -, rfl⟩ | ⟨v, hRead, -, rfl⟩ | ⟨-, rfl⟩
  · exact .single (.inlineLoad hSize hProbe hHost)
  · split <;> rename_i hOn
    · exact .single (.readFill hOn hRead)
    · exact .refl
  · exact .refl

theorem acts_store {v : U64} {s : Status} (hSize : isUintSize size = true)
    (h : ctx.store addr size v = .Done s ctx') : Acts ctx ctx' := by
  rcases BlockCtx.store_cases h with ⟨p, mem, hProbe, hHost, -, rfl⟩ | ⟨mem, hWrite, -, rfl⟩ | ⟨-, rfl⟩
  · exact .single (.inlineStore hSize hProbe hHost)
  · exact .single (.helperStore hWrite)
  · exact .refl

theorem stray_load (hSize : isUintSize size = true)
    (h : ctx.load addr size = .Undefined ctx') : Stray ctx ctx' := by
  unfold BlockCtx.load at h
  split at h
  · rename_i p hProbe
    dsimp only at h
    split at h <;> cases h
    rename_i hHost
    exact .load hSize hProbe hHost
  · cases h

theorem stray_store {v : U64} (hSize : isUintSize size = true)
    (h : ctx.store addr size v = .Undefined ctx') : Stray ctx ctx' := by
  unfold BlockCtx.store at h
  split at h
  · rename_i p hProbe
    dsimp only at h
    split at h <;> cases h
    rename_i hHost
    exact .store hSize hProbe hHost
  · cases h

structure Fixed (ctx ctx' : BlockCtx) : Prop where
  codeLo : ctx'.codeLo = ctx.codeLo
  codeHi : ctx'.codeHi = ctx.codeHi
  retired : ctx'.retired = ctx.retired
  linkLimit : ctx'.linkLimit = ctx.linkLimit
  links : ctx'.links = ctx.links
  codePages : ctx'.codePages = ctx.codePages
  live : ctx'.live = ctx.live
  pending : ctx'.pending = ctx.pending
  tlbOn : ctx'.tlbOn = ctx.tlbOn
  debug : ctx'.debug = ctx.debug

theorem Fixed.refl (ctx : BlockCtx) : Fixed ctx ctx := ⟨rfl, rfl, rfl, rfl, rfl, rfl, rfl, rfl, rfl, rfl⟩

theorem Fixed.trans {a b c : BlockCtx} (hab : Fixed a b) (hbc : Fixed b c) : Fixed a c :=
  ⟨hbc.codeLo.trans hab.codeLo, hbc.codeHi.trans hab.codeHi, hbc.retired.trans hab.retired,
    hbc.linkLimit.trans hab.linkLimit, hbc.links.trans hab.links, hbc.codePages.trans hab.codePages,
    hbc.live.trans hab.live, hbc.pending.trans hab.pending, hbc.tlbOn.trans hab.tlbOn, hbc.debug.trans hab.debug⟩

theorem fixed_tlbFill (ctx : BlockCtx) (half : Half) (addr : U64) : Fixed ctx (ctx.tlbFill half addr) := by
  rw [BlockCtx.tlbFill_eq]
  exact ⟨rfl, rfl, rfl, rfl, rfl, rfl, rfl, rfl, rfl, rfl⟩

theorem landed_eq (ctx : BlockCtx) (mem : VirtualMemory) (addr : U64) (size : Nat) :
    ctx.landed mem addr size =
      { ctx with
        mem := mem
        log := ctx.log ++ [.stored addr size ctx.mem ctx.live (if ctx.pageHit addr size then .Reported else .Silent)]
        smc := if ctx.pageHit addr size then if ctx.smcHits = 0 then addr else ctx.smc else ctx.smc
        smcHits := if ctx.pageHit addr size then ctx.smcHits + 1 else ctx.smcHits
        linkEpoch := if ctx.pageHit addr size then LINK_EPOCH_DEAD else ctx.linkEpoch
        tlb := (ctx.landed mem addr size).tlb } := by
  unfold BlockCtx.landed
  cases ctx.pageHit addr size <;> cases ctx.tlbOn
  · rfl
  · dsimp only [if_true]
    rw [BlockCtx.tlbFill_eq]
    rfl
  · rfl
  · dsimp only [if_true]
    rw [BlockCtx.tlbFill_eq]
    rfl

theorem landed_tlb (ctx : BlockCtx) (mem : VirtualMemory) (addr : U64) (size : Nat) :
    (ctx.landed mem addr size).tlb =
      if ctx.tlbOn then ({ ctx with mem := mem }.tlbFill .WRITE addr).tlb else ctx.tlb := by
  -- a fill reads the TLB and the memory alone
  have hFill : ∀ c : BlockCtx, c.tlb = ctx.tlb → c.mem = mem →
      (c.tlbFill .WRITE addr).tlb = ({ ctx with mem := mem }.tlbFill .WRITE addr).tlb := by
    intro c hTlb hMem
    unfold BlockCtx.tlbFill BlockCtx.tlbHas BlockCtx.tlbSpan
    dsimp only
    rw [hTlb, hMem]
    split
    · exact hTlb
    · split
      · exact hTlb
      · rfl
  unfold BlockCtx.landed
  dsimp only
  by_cases hOn : ctx.tlbOn = true
  · rw [if_pos hOn, if_pos hOn]
    exact hFill _ (by split <;> rfl) (by split <;> rfl)
  · rw [if_neg hOn, if_neg hOn]
    split <;> rfl

theorem Act.fixed (h : Act ctx ctx') : Fixed ctx ctx' := by
  cases h with
  | begun rip => exact ⟨rfl, rfl, rfl, rfl, rfl, rfl, rfl, rfl, rfl, rfl⟩
  | inlineLoad hSize hProbe hHost => exact ⟨rfl, rfl, rfl, rfl, rfl, rfl, rfl, rfl, rfl, rfl⟩
  | readFill hOn hRead => exact fixed_tlbFill ctx _ _
  | inlineStore hSize hProbe hHost => exact ⟨rfl, rfl, rfl, rfl, rfl, rfl, rfl, rfl, rfl, rfl⟩
  | helperStore hWrite =>
    rw [landed_eq]
    exact ⟨rfl, rfl, rfl, rfl, rfl, rfl, rfl, rfl, rfl, rfl⟩

theorem Acts.fixed (h : Acts ctx ctx') : Fixed ctx ctx' := by
  induction h with
  | refl => exact .refl ctx
  | tail _ hAct ih => exact ih.trans hAct.fixed

end Act

section Exec

variable {slots : Option Nat} {target : Nat → Option U64}

/-- The two ways a block's code runs: into a dangling pointer, or to one of its exits. -/
inductive Exits (slots : Option Nat) (target : Nat → Option U64) (n : Nat) (ctx : BlockCtx) :
    Stop × Native × BlockCtx → Prop
  | stray {ctx₁ ctx₂ : BlockCtx} {h : Native} (hActs : Acts ctx ctx₁) (hStray : Stray ctx₁ ctx₂) :
      Exits slots target n ctx (.undefined, h, ctx₂)
  | exit {ctx₁ : BlockCtx} {h : Native} {e : ExitCode} {m : Nat} {k : Known} (hActs : Acts ctx ctx₁)
      (hShape : e.Shape slots target m k) (hBegun : begunIn ctx₁.log + n = begunIn ctx.log + m) :
      Exits slots target n ctx (e.exec h ctx₁)

variable {ctx : BlockCtx}

theorem Exits.prepend {n m : Nat} {ctx₁ : BlockCtx} {r : Stop × Native × BlockCtx} (hActs : Acts ctx ctx₁)
    (hBegun : begunIn ctx₁.log + n = begunIn ctx.log + m) (h : Exits slots target m ctx₁ r) :
    Exits slots target n ctx r := by
  cases h with
  | stray hRest hStray => exact .stray (hActs.trans hRest) hStray
  | exit hRest hShape hCount => exact .exit (hActs.trans hRest) hShape (by omega)

theorem Acts.begun_of_load {ctx' : BlockCtx} {addr : U64} {size : Nat} {r : ReadResult}
    (h : ctx.load addr size = .Done r ctx') : begunIn ctx'.log = begunIn ctx.log := by
  rcases BlockCtx.load_cases h with ⟨p, v, -, -, -, rfl⟩ | ⟨v, -, -, rfl⟩ | ⟨-, rfl⟩
  · rw [BlockCtx.log_record, BlockCtx.begunIn_append]
    rfl
  · split
    · rw [BlockCtx.tlbFill_eq]
    · rfl
  · rfl

theorem Acts.begun_of_store {ctx' : BlockCtx} {addr : U64} {size : Nat} {v : U64} {s : Status}
    (h : ctx.store addr size v = .Done s ctx') : begunIn ctx'.log = begunIn ctx.log := by
  rcases BlockCtx.store_cases h with ⟨p, mem, -, -, -, rfl⟩ | ⟨mem, -, -, rfl⟩ | ⟨-, rfl⟩
  · simp only [BlockCtx.log_record, BlockCtx.begunIn_append]
    rfl
  · rw [landed_eq]
    exact BlockCtx.begunIn_append ..
  · rfl

theorem exec_body {body : List Inst} {e : ExitCode} {n : Nat} {k : Known} {h : Native}
    (hBody : Body slots target n k body) (hShape : e.Shape slots target (n + begins body) (after k body)) :
    Exits slots target n ctx (exec (body ++ [.exit e]) h ctx) := by
  induction body generalizing n k h ctx with
  | nil => exact .exit .refl hShape rfl
  | cons i is ih =>
    cases i with
    | begin rip =>
      refine Exits.prepend (.single (.begun ctx rip)) ?_ (ih hBody ?_)
      · rw [BlockCtx.log_record, BlockCtx.begunIn_append]
        change begunIn ctx.log + 1 + n = _
        omega
      · rwa [Nat.add_right_comm, Nat.add_assoc]
    | op o => exact ih hBody.2 hShape
    | load dst size fault =>
      obtain ⟨-, -, hSize, hFault, -, hRest⟩ := hBody
      simp only [List.cons_append, exec]
      split <;> rename_i hLoad
      · exact Exits.prepend (acts_load hSize hLoad) (by rw [Acts.begun_of_load hLoad]) (ih hRest hShape)
      · exact .exit (acts_load hSize hLoad) hFault (by rw [Acts.begun_of_load hLoad])
      · exact .stray .refl (stray_load hSize hLoad)
    | store src size push wrote fault =>
      obtain ⟨-, -, hSize, hWrote, -, hFault, -, hRest⟩ := hBody
      simp only [List.cons_append, exec]
      split <;> rename_i hStore
      · exact Exits.prepend (acts_store hSize hStore) (by rw [Acts.begun_of_store hStore]) (ih hRest hShape)
      · exact .exit (acts_store hSize hStore) hWrote (by rw [Acts.begun_of_store hStore])
      · exact .exit (acts_store hSize hStore) hFault (by rw [Acts.begun_of_store hStore])
      · exact .stray .refl (stray_store hSize hStore)
    | branch t fall =>
      obtain ⟨-, hFall, -, hRest⟩ := hBody
      simp only [List.cons_append, exec]
      split
      · exact ih hRest hShape
      · exact .exit .refl hFall rfl
    | exit e => exact hBody.elim

theorem exec_shaped {insns : Nat} {code : List Inst} (hShaped : Shaped slots target insns code)
    (h : Native) (ctx : BlockCtx) : Exits slots target 0 ctx (exec code h ctx) := by
  obtain ⟨body, e, rfl, rfl, hBody, hShape, -⟩ := hShaped
  exact exec_body hBody (by rwa [Nat.zero_add])

end Exec

end Exemu.Jit
