import Exemu.Cpu.Interpreter

/-! # String instructions

Three of the five loops keep their count to themselves until they are through; the two that
compare write it back with every element.
-/
namespace Exemu

namespace Interp

open Fallible

inductive StringOp where
  | stos
  | movs
  | lods
  | scas
  | cmps
  deriving DecidableEq

def stringStep (s : CpuState) (size : Nat) : U64 := if s.flag flags.DF then -BitVec.ofNat 64 size else BitVec.ofNat 64 size

def setReg (r : Fin 16) (v : U64) : Exec Unit := onState fun s => s.setReg r v

/-! ## The loops that count for themselves -/

def stosBody (size : Nat) (step val : U64) : Exec Unit := do
  let di := (← Fallible.get).state.gpr Reg.Rdi
  writeUint di size val
  setReg Reg.Rdi (di + step)

def movsBody (size : Nat) (step : U64) : Exec Unit := do
  let s := (← Fallible.get).state
  let v ← readUint (s.gpr Reg.Rsi) size
  writeUint (s.gpr Reg.Rdi) size v
  setReg Reg.Rsi (s.gpr Reg.Rsi + step)
  setReg Reg.Rdi (s.gpr Reg.Rdi + step)

def lodsBody (ctx : Ctx) (size : Nat) (step : U64) : Exec Unit := do
  let si := (← Fallible.get).state.gpr Reg.Rsi
  let v ← readUint si size
  onState fun s => s.gprWrite 0 size v
  setReg Reg.Rsi ((si + step) &&& ctx.bits.addrMask)

/-- `k` times the same. -/
def reps (x : Exec Unit) : Nat → Exec Unit
  | 0 => return ()
  | k + 1 => do
    x
    reps x k

/-- `while count > 0`, with a count that is not RCX. -/
def counted (ctx : Ctx) (body : Exec Unit) : Exec Unit := do
  let s := (← Fallible.get).state
  let count : U64 := if ctx.pfx.rep ≠ 0 then s.gpr Reg.Rcx else 1
  reps body count.toNat
  if ctx.pfx.rep ≠ 0 then setReg Reg.Rcx 0 else return ()

def stringStos (ctx : Ctx) (size : Nat) : Exec Unit := do
  let s := (← Fallible.get).state
  counted ctx (stosBody size (stringStep s size) (s.gprRead 0 size))

def stringMovs (ctx : Ctx) (size : Nat) : Exec Unit := do
  let s := (← Fallible.get).state
  counted ctx (movsBody size (stringStep s size))

def stringLods (ctx : Ctx) (size : Nat) : Exec Unit := do
  let s := (← Fallible.get).state
  counted ctx (lodsBody ctx size (stringStep s size))

/-! ## The loops that compare -/

def scasBody (ctx : Ctx) (size : Nat) (step acc : U64) : Exec Unit := do
  let di := (← Fallible.get).state.gpr Reg.Rdi
  let v ← readUint di size
  onState fun s => (sub s acc v 0 size).1
  setReg Reg.Rdi ((di + step) &&& ctx.bits.addrMask)

def cmpsBody (ctx : Ctx) (size : Nat) (step : U64) : Exec Unit := do
  let s := (← Fallible.get).state
  let a ← readUint (s.gpr Reg.Rsi) size
  let b ← readUint (s.gpr Reg.Rdi) size
  onState fun s => (sub s a b 0 size).1
  setReg Reg.Rsi ((s.gpr Reg.Rsi + step) &&& ctx.bits.addrMask)
  setReg Reg.Rdi ((s.gpr Reg.Rdi + step) &&& ctx.bits.addrMask)

def repStringBreak (ctx : Ctx) : Exec Bool := do
  let c := ((← Fallible.get).state.gpr Reg.Rcx - 1) &&& ctx.bits.addrMask
  setReg Reg.Rcx c
  let zf := (← Fallible.get).state.flag flags.ZF
  return c == 0 || (ctx.pfx.rep == 0xF3 && !zf) || (ctx.pfx.rep == 0xF2 && zf)

/-- `loop`, for as many rounds as are given. -/
def scanLoop (ctx : Ctx) (body : Exec Unit) : Nat → Exec Unit
  | 0 => .exhausted
  | fuel + 1 => do
    if ctx.pfx.rep ≠ 0 ∧ (← Fallible.get).state.gpr Reg.Rcx = 0 then return ()
    else
      body
      if ctx.pfx.rep = 0 then return ()
      else if ← repStringBreak ctx then return () else scanLoop ctx body fuel

def scanned (ctx : Ctx) (body : Exec Unit) : Exec Unit := do
  let rcx := (← Fallible.get).state.gpr Reg.Rcx
  scanLoop ctx body (rcx.toNat + 1)

def stringScas (ctx : Ctx) (size : Nat) : Exec Unit := do
  let s := (← Fallible.get).state
  scanned ctx (scasBody ctx size (stringStep s size) (s.gprRead 0 size))

def stringCmps (ctx : Ctx) (size : Nat) : Exec Unit := do
  let s := (← Fallible.get).state
  scanned ctx (cmpsBody ctx size (stringStep s size))

def stringOp (ctx : Ctx) (size : Nat) : StringOp → Exec Unit
  | .stos => stringStos ctx size
  | .movs => stringMovs ctx size
  | .lods => stringLods ctx size
  | .scas => stringScas ctx size
  | .cmps => stringCmps ctx size

def executeString (ctx : Ctx) (size : Nat) (op : StringOp) : Exec Exit := do
  stringOp ctx size op
  proceed ctx

/-! ## Elements -/

def StringOp.hasSource (op : StringOp) : Prop := op = .movs ∨ op = .lods ∨ op = .cmps

def StringOp.hasDestination (op : StringOp) : Prop := op ≠ .lods

instance (op : StringOp) : Decidable op.hasSource := inferInstanceAs (Decidable (_ ∨ _))

instance (op : StringOp) : Decidable op.hasDestination := inferInstanceAs (Decidable (_ ≠ _))

/-- What is done with one element. `s` is the state in which the instruction began. -/
def access (size : Nat) (s : CpuState) (op : StringOp) : Exec Unit := do
  let si := (← Fallible.get).state.gpr Reg.Rsi
  let di := (← Fallible.get).state.gpr Reg.Rdi
  match op with
  | .stos => writeUint di size (s.gprRead 0 size)
  | .movs => do
    let v ← readUint si size
    writeUint di size v
  | .lods => do
    let v ← readUint si size
    onState fun t => t.gprWrite 0 size v
  | .scas => do
    let v ← readUint di size
    onState fun t => (sub t (s.gprRead 0 size) v 0 size).1
  | .cmps => do
    let a ← readUint si size
    let b ← readUint di size
    onState fun t => (sub t a b 0 size).1

def advance (ctx : Ctx) (step : U64) (op : StringOp) (t : CpuState) : CpuState :=
  let u := if op.hasSource then t.setReg Reg.Rsi ((t.gpr Reg.Rsi + step) &&& ctx.bits.addrMask) else t
  let v := if op.hasDestination then u.setReg Reg.Rdi ((t.gpr Reg.Rdi + step) &&& ctx.bits.addrMask) else u
  v.setReg Reg.Rcx ((t.gpr Reg.Rcx - 1) &&& ctx.bits.addrMask)

def element (ctx : Ctx) (size : Nat) (s : CpuState) (op : StringOp) : Exec Unit := do
  access size s op
  onState (advance ctx (stringStep s size) op)

def turn (ctx : Ctx) (size : Nat) (s : CpuState) : StringOp → Exec Unit
  | .stos => stosBody size (stringStep s size) (s.gprRead 0 size)
  | .movs => movsBody size (stringStep s size)
  | .lods => lodsBody ctx size (stringStep s size)
  | .scas => do
    scasBody ctx size (stringStep s size) (s.gprRead 0 size)
    discard (repStringBreak ctx)
  | .cmps => do
    cmpsBody ctx size (stringStep s size)
    discard (repStringBreak ctx)

/-- The element after the first `k` faults. -/
def FaultsAt (ctx : Ctx) (size : Nat) (op : StringOp) (k : Nat) (m : Machine) (e : Stop) (m' : Machine) : Prop :=
  ∃ t, reps (turn ctx size m.state op) k m = some (.ok (), t) ∧ turn ctx size m.state op t = some (.error e, m')

/-- An index after `k` elements. -/
def advanced (ctx : Ctx) (step index : U64) (k : Nat) : U64 :=
  if k = 0 then index else (index + BitVec.ofNat 64 k * step) &&& ctx.bits.addrMask

/-- The state is that after exactly `k` elements. -/
structure Restartable (ctx : Ctx) (size : Nat) (op : StringOp) (k : Nat) (m m' : Machine) : Prop where
  elements : reps (element ctx size m.state op) k m = some (.ok (), m')
  count : m'.state.gpr Reg.Rcx = advanced ctx (-1) (m.state.gpr Reg.Rcx) k
  source : m'.state.gpr Reg.Rsi = if op.hasSource then advanced ctx (stringStep m.state size) (m.state.gpr Reg.Rsi) k else m.state.gpr Reg.Rsi
  destination : m'.state.gpr Reg.Rdi =
    if op.hasDestination then advanced ctx (stringStep m.state size) (m.state.gpr Reg.Rdi) k else m.state.gpr Reg.Rdi
  rip : m'.state.rip = m.state.rip

/-! ## Rounds -/

section Rounds

variable {x : Exec Unit} {m m' t : Machine} {e : Stop} {k k' : Nat}

theorem reps_succ (h : x m = some (.ok (), t)) : reps x (k + 1) m = reps x k t := bind_of_ok h

theorem reps_add (h : reps x k m = some (.ok (), t)) : reps x (k + k') m = reps x k' t := by
  induction k generalizing m with
  | zero =>
    cases h
    rw [Nat.zero_add]
  | succ k ih =>
    obtain ⟨a, s₁, hFirst, hRest⟩ := bind_ok_run h
    rw [Nat.add_right_comm, reps_succ hFirst]
    exact ih hRest

theorem reps_error {n : Nat} (h : reps x n m = some (.error e, m')) : ∃ k t, k < n ∧ reps x k m = some (.ok (), t) ∧ x t = some (.error e, m') := by
  induction n generalizing m with
  | zero => cases h
  | succ n ih =>
    rcases bind_run h with ⟨a, s₁, hFirst, hRest⟩ | ⟨e', hFirst, hSame⟩
    · obtain ⟨k, t, hLess, hRounds, hFails⟩ := ih hRest
      exact ⟨k + 1, t, Nat.succ_lt_succ hLess, (reps_succ hFirst).trans hRounds, hFails⟩
    · cases hSame
      exact ⟨0, m, Nat.zero_lt_succ n, rfl, hFirst⟩

theorem rounds_le (hRounds : reps x k m = some (.ok (), t)) (hFails : x t = some (.error e, m')) {t' : Machine}
    (hOther : reps x k' m = some (.ok (), t')) : k' ≤ k := by
  by_contra hMore
  obtain ⟨j, rfl⟩ := Nat.exists_eq_add_of_lt (Nat.lt_of_not_le hMore)
  rw [Nat.add_assoc, reps_add hRounds, reps, bind_of_error hFails] at hOther
  cases hOther

theorem reps_keeps {α : Type} {f : Machine → α} (hx : ∀ m t, x m = some (.ok (), t) → f t = f m) (h : reps x k m = some (.ok (), t)) : f t = f m := by
  induction k generalizing m with
  | zero =>
    cases h
    rfl
  | succ k ih =>
    obtain ⟨a, s₁, hFirst, hRest⟩ := bind_ok_run h
    exact (ih hRest).trans (hx m s₁ hFirst)

end Rounds

/-! ## Single rounds -/

section Turns

variable {ctx : Ctx} {size : Nat} {step val acc : U64} {s : CpuState} {op : StringOp} {m m' t : Machine} {e : Stop} {k : Nat}

theorem stosBody_ends (m : Machine) : (∃ mem, stosBody size step val m =
    some (.ok (), ⟨m.state.setReg Reg.Rdi (m.state.gpr Reg.Rdi + step), mem⟩)) ∨ ∃ e, stosBody size step val m = some (.error e, m) := by
  unfold stosBody
  rw [bind_of_ok rfl]
  rcases writeUint_ends (m.state.gpr Reg.Rdi) size val m with ⟨mem, hWrite⟩ | ⟨e, hWrite⟩
  · exact .inl ⟨mem, bind_of_ok hWrite⟩
  · exact .inr ⟨e, bind_of_error hWrite⟩

theorem movsBody_ends (m : Machine) : (∃ mem, movsBody size step m =
    some (.ok (), ⟨(m.state.setReg Reg.Rsi (m.state.gpr Reg.Rsi + step)).setReg Reg.Rdi (m.state.gpr Reg.Rdi + step), mem⟩)) ∨
      ∃ e, movsBody size step m = some (.error e, m) := by
  unfold movsBody
  rw [bind_of_ok rfl]
  rcases readUint_ends (m.state.gpr Reg.Rsi) size m with ⟨v, hRead⟩ | ⟨e, hRead⟩
  · rw [bind_of_ok hRead]
    rcases writeUint_ends (m.state.gpr Reg.Rdi) size v m with ⟨mem, hWrite⟩ | ⟨e, hWrite⟩
    · exact .inl ⟨mem, bind_of_ok hWrite⟩
    · exact .inr ⟨e, bind_of_error hWrite⟩
  · exact .inr ⟨e, bind_of_error hRead⟩

theorem lodsBody_ends (m : Machine) : (∃ v, lodsBody ctx size step m =
    some (.ok (), ⟨(m.state.gprWrite 0 size v).setReg Reg.Rsi ((m.state.gpr Reg.Rsi + step) &&& ctx.bits.addrMask), m.mem⟩)) ∨
      ∃ e, lodsBody ctx size step m = some (.error e, m) := by
  unfold lodsBody
  rw [bind_of_ok rfl]
  rcases readUint_ends (m.state.gpr Reg.Rsi) size m with ⟨v, hRead⟩ | ⟨e, hRead⟩
  · exact .inl ⟨v, bind_of_ok hRead⟩
  · exact .inr ⟨e, bind_of_error hRead⟩

theorem turn_counted (hOp : op ≠ .scas ∧ op ≠ .cmps) (m : Machine) :
    (∃ t, turn ctx size s op m = some (.ok (), t) ∧ t.state.gpr Reg.Rcx = m.state.gpr Reg.Rcx ∧ t.state.rip = m.state.rip) ∨
      ∃ e, turn ctx size s op m = some (.error e, m) := by
  cases op with
  | scas => exact absurd rfl hOp.1
  | cmps => exact absurd rfl hOp.2
  | stos =>
    rcases (stosBody_ends m : _ ∨ ∃ e, stosBody size (stringStep s size) (s.gprRead 0 size) m = some (.error e, m)) with ⟨mem, hDone⟩ | ⟨e, hFails⟩
    · exact .inl ⟨_, hDone, rfl, rfl⟩
    · exact .inr ⟨e, hFails⟩
  | movs =>
    rcases (movsBody_ends m : _ ∨ ∃ e, movsBody size (stringStep s size) m = some (.error e, m)) with ⟨mem, hDone⟩ | ⟨e, hFails⟩
    · exact .inl ⟨_, hDone, rfl, rfl⟩
    · exact .inr ⟨e, hFails⟩
  | lods =>
    rcases (lodsBody_ends m : _ ∨ ∃ e, lodsBody ctx size (stringStep s size) m = some (.error e, m)) with ⟨v, hDone⟩ | ⟨e, hFails⟩
    · exact .inl ⟨_, hDone, rfl, rfl⟩
    · exact .inr ⟨e, hFails⟩

theorem bind_onState {x : Exec Unit} {f : CpuState → CpuState} (h : x m = some (.ok (), t)) :
    (x >>= fun _ => onState f) m = some (.ok (), ⟨f t.state, t.mem⟩) := bind_of_ok h

theorem repStringBreak_run (m : Machine) : discard (repStringBreak ctx) m =
    some (.ok (), ⟨m.state.setReg Reg.Rcx ((m.state.gpr Reg.Rcx - 1) &&& ctx.bits.addrMask), m.mem⟩) := rfl

attribute [local irreducible] sub

theorem scasBody_run (m : Machine) {v : U64} (hRead : readUint (m.state.gpr Reg.Rdi) size m = some (.ok v, m)) : scasBody ctx size step acc m =
    some (.ok (), ⟨(sub m.state acc v 0 size).1.setReg Reg.Rdi ((m.state.gpr Reg.Rdi + step) &&& ctx.bits.addrMask), m.mem⟩) := by
  unfold scasBody
  rw [bind_of_ok rfl, bind_of_ok hRead]
  rfl

theorem access_scas (s : CpuState) (m : Machine) {v : U64} (hRead : readUint (m.state.gpr Reg.Rdi) size m = some (.ok v, m)) :
    access size s .scas m = some (.ok (), ⟨(sub m.state (s.gprRead 0 size) v 0 size).1, m.mem⟩) := by
  change (readUint (m.state.gpr Reg.Rdi) size >>= fun v => onState fun t => (sub t (s.gprRead 0 size) v 0 size).1) m = _
  rw [bind_of_ok hRead]
  rfl

theorem advance_scas (t : CpuState) : advance ctx step .scas t =
    (t.setReg Reg.Rdi ((t.gpr Reg.Rdi + step) &&& ctx.bits.addrMask)).setReg Reg.Rcx ((t.gpr Reg.Rcx - 1) &&& ctx.bits.addrMask) := rfl

theorem advance_cmps (t : CpuState) : advance ctx step .cmps t =
    ((t.setReg Reg.Rsi ((t.gpr Reg.Rsi + step) &&& ctx.bits.addrMask)).setReg Reg.Rdi ((t.gpr Reg.Rdi + step) &&& ctx.bits.addrMask)).setReg
      Reg.Rcx ((t.gpr Reg.Rcx - 1) &&& ctx.bits.addrMask) := rfl

theorem turn_scas (s : CpuState) : turn ctx size s .scas = element ctx size s .scas := by
  funext m
  change (scasBody ctx size (stringStep s size) (s.gprRead 0 size) >>= fun _ => discard (repStringBreak ctx)) m = _
  unfold element
  rcases readUint_ends (m.state.gpr Reg.Rdi) size m with ⟨v, hRead⟩ | ⟨e, hRead⟩
  · rw [bind_of_ok (scasBody_run m hRead), repStringBreak_run, bind_onState (access_scas s m hRead), advance_scas]
    simp only [gpr_setReg, sub_gpr]
    rfl
  · have hBody : scasBody ctx size (stringStep s size) (s.gprRead 0 size) m = some (.error e, m) :=
      (bind_of_ok rfl).trans (bind_of_error hRead)
    have hAccess : access size s .scas m = some (.error e, m) := (bind_of_ok rfl).trans ((bind_of_ok rfl).trans (bind_of_error hRead))
    rw [bind_of_error hBody, bind_of_error hAccess]

theorem cmpsBody_run (m : Machine) {a b : U64} (hFirst : readUint (m.state.gpr Reg.Rsi) size m = some (.ok a, m))
    (hSecond : readUint (m.state.gpr Reg.Rdi) size m = some (.ok b, m)) : cmpsBody ctx size step m =
    some (.ok (), ⟨((sub m.state a b 0 size).1.setReg Reg.Rsi ((m.state.gpr Reg.Rsi + step) &&& ctx.bits.addrMask)).setReg Reg.Rdi
      ((m.state.gpr Reg.Rdi + step) &&& ctx.bits.addrMask), m.mem⟩) := by
  unfold cmpsBody
  rw [bind_of_ok rfl, bind_of_ok hFirst, bind_of_ok hSecond]
  rfl

theorem access_cmps (s : CpuState) (m : Machine) {a b : U64} (hFirst : readUint (m.state.gpr Reg.Rsi) size m = some (.ok a, m))
    (hSecond : readUint (m.state.gpr Reg.Rdi) size m = some (.ok b, m)) :
    access size s .cmps m = some (.ok (), ⟨(sub m.state a b 0 size).1, m.mem⟩) := by
  change (readUint (m.state.gpr Reg.Rsi) size >>= fun a => readUint (m.state.gpr Reg.Rdi) size >>= fun b =>
    onState fun t => (sub t a b 0 size).1) m = _
  rw [bind_of_ok hFirst, bind_of_ok hSecond]
  rfl

theorem turn_cmps (s : CpuState) : turn ctx size s .cmps = element ctx size s .cmps := by
  funext m
  change (cmpsBody ctx size (stringStep s size) >>= fun _ => discard (repStringBreak ctx)) m = _
  unfold element
  have hFails : ∀ e, (readUint (m.state.gpr Reg.Rsi) size >>= fun _ => readUint (m.state.gpr Reg.Rdi) size) m = some (.error e, m) →
      cmpsBody ctx size (stringStep s size) m = some (.error e, m) ∧ access size s .cmps m = some (.error e, m) := by
    intro e hReads
    rcases readUint_ends (m.state.gpr Reg.Rsi) size m with ⟨a, hFirst⟩ | ⟨e', hFirst⟩
    · rw [bind_of_ok hFirst] at hReads
      exact ⟨(bind_of_ok rfl).trans ((bind_of_ok hFirst).trans (bind_of_error hReads)),
        (bind_of_ok rfl).trans ((bind_of_ok rfl).trans ((bind_of_ok hFirst).trans (bind_of_error hReads)))⟩
    · rw [bind_of_error hFirst] at hReads
      cases hReads
      exact ⟨(bind_of_ok rfl).trans (bind_of_error hFirst), (bind_of_ok rfl).trans ((bind_of_ok rfl).trans (bind_of_error hFirst))⟩
  rcases readUint_ends (m.state.gpr Reg.Rsi) size m with ⟨a, hFirst⟩ | ⟨e, hFirst⟩
  · rcases readUint_ends (m.state.gpr Reg.Rdi) size m with ⟨b, hSecond⟩ | ⟨e, hSecond⟩
    · rw [bind_of_ok (cmpsBody_run m hFirst hSecond), repStringBreak_run, bind_onState (access_cmps s m hFirst hSecond), advance_cmps]
      simp only [gpr_setReg, sub_gpr]
      rfl
    · obtain ⟨hBody, hAccess⟩ := hFails e ((bind_of_ok hFirst).trans hSecond)
      rw [bind_of_error hBody, bind_of_error hAccess]
  · obtain ⟨hBody, hAccess⟩ := hFails e (bind_of_error hFirst)
    rw [bind_of_error hBody, bind_of_error hAccess]

/-! ## Elements, one after the other -/

theorem access_keeps (s : CpuState) (op : StringOp) (h : access size s op m = some (.ok (), t)) :
    t.state.gpr Reg.Rcx = m.state.gpr Reg.Rcx ∧ t.state.gpr Reg.Rsi = m.state.gpr Reg.Rsi ∧ t.state.gpr Reg.Rdi = m.state.gpr Reg.Rdi ∧
      t.state.rip = m.state.rip := by
  obtain ⟨_, s₁, hGet, h⟩ := bind_ok_run h
  cases hGet
  obtain ⟨_, s₁, hGet, h⟩ := bind_ok_run h
  cases hGet
  have hStored : ∀ {addr v} {t' : Machine}, writeUint addr size v m = some (.ok (), t') → t'.state = m.state := by
    intro addr v t' hWrite
    rcases writeUint_ends addr size v m with ⟨mem, hDone⟩ | ⟨e, hFails⟩
    · rw [hDone] at hWrite
      cases hWrite
      rfl
    · rw [hFails] at hWrite
      cases hWrite
  cases op with
  | stos =>
    rw [hStored h]
    exact ⟨rfl, rfl, rfl, rfl⟩
  | movs =>
    obtain ⟨v, s₁, hRead, hWrite⟩ := bind_ok_run h
    obtain ⟨-, rfl⟩ := readUint_run hRead
    rw [hStored hWrite]
    exact ⟨rfl, rfl, rfl, rfl⟩
  | lods =>
    obtain ⟨v, s₁, hRead, hEnd⟩ := bind_ok_run h
    obtain ⟨-, rfl⟩ := readUint_run hRead
    cases hEnd
    exact ⟨rfl, rfl, rfl, rfl⟩
  | scas =>
    obtain ⟨v, s₁, hRead, hEnd⟩ := bind_ok_run h
    obtain ⟨-, rfl⟩ := readUint_run hRead
    cases hEnd
    simp only [sub_gpr, sub_rip, and_self]
  | cmps =>
    obtain ⟨a, s₁, hRead, h⟩ := bind_ok_run h
    obtain ⟨-, rfl⟩ := readUint_run hRead
    obtain ⟨b, s₁, hRead, hEnd⟩ := bind_ok_run h
    obtain ⟨-, rfl⟩ := readUint_run hRead
    cases hEnd
    simp only [sub_gpr, sub_rip, and_self]

theorem element_run (s : CpuState) (op : StringOp) (h : element ctx size s op m = some (.ok (), t)) :
    t.state.gpr Reg.Rcx = (m.state.gpr Reg.Rcx - 1) &&& ctx.bits.addrMask ∧
      t.state.gpr Reg.Rsi = (if op.hasSource then (m.state.gpr Reg.Rsi + stringStep s size) &&& ctx.bits.addrMask else m.state.gpr Reg.Rsi) ∧
      t.state.gpr Reg.Rdi = (if op.hasDestination then (m.state.gpr Reg.Rdi + stringStep s size) &&& ctx.bits.addrMask else m.state.gpr Reg.Rdi) ∧
      t.state.rip = m.state.rip := by
  obtain ⟨_, s₁, hAccess, hEnd⟩ := bind_ok_run h
  obtain ⟨hCount, hSource, hDestination, hRip⟩ := access_keeps s op hAccess
  cases hEnd
  rw [← hCount, ← hSource, ← hDestination, ← hRip]
  cases op <;> exact ⟨rfl, rfl, rfl, rfl⟩

theorem mask_add (ctx : Ctx) (a b : U64) : ((a &&& ctx.bits.addrMask) + b) &&& ctx.bits.addrMask = (a + b) &&& ctx.bits.addrMask := by
  cases ctx.bits with
  | B64 => rw [Bits.addrMask, BitVec.and_allOnes, BitVec.and_allOnes, BitVec.and_allOnes]
  | B32 =>
    refine BitVec.eq_of_toNat_eq ?_
    rw [Bits.addrMask, BitVec.toNat_and, BitVec.toNat_and, BitVec.toNat_add, BitVec.toNat_and, BitVec.toNat_add,
      show (0xffffffff : U64).toNat = 2 ^ 32 - 1 by rfl, Nat.and_two_pow_sub_one_eq_mod, Nat.and_two_pow_sub_one_eq_mod,
      Nat.and_two_pow_sub_one_eq_mod]
    omega

theorem advanced_succ (ctx : Ctx) (step index : U64) (k : Nat) :
    advanced ctx step ((index + step) &&& ctx.bits.addrMask) k = advanced ctx step index (k + 1) := by
  unfold advanced
  rw [if_neg (Nat.succ_ne_zero k)]
  have hStep : index + BitVec.ofNat 64 (k + 1) * step = index + step + BitVec.ofNat 64 k * step := by
    rw [BitVec.ofNat_add, BitVec.add_mul, BitVec.one_mul, BitVec.add_assoc, BitVec.add_comm step]
  rw [hStep]
  split
  · rename_i hZero
    simp [hZero]
  · exact mask_add ctx _ _

theorem elements_run (s : CpuState) (op : StringOp) (h : reps (element ctx size s op) k m = some (.ok (), t)) :
    t.state.gpr Reg.Rcx = advanced ctx (-1) (m.state.gpr Reg.Rcx) k ∧
      t.state.gpr Reg.Rsi = (if op.hasSource then advanced ctx (stringStep s size) (m.state.gpr Reg.Rsi) k else m.state.gpr Reg.Rsi) ∧
      t.state.gpr Reg.Rdi = (if op.hasDestination then advanced ctx (stringStep s size) (m.state.gpr Reg.Rdi) k else m.state.gpr Reg.Rdi) ∧
      t.state.rip = m.state.rip := by
  induction k generalizing m with
  | zero =>
    cases h
    exact ⟨rfl, (ite_self _).symm, (ite_self _).symm, rfl⟩
  | succ k ih =>
    obtain ⟨_, s₁, hFirst, hRest⟩ := bind_ok_run h
    obtain ⟨hCount, hSource, hDestination, hRip⟩ := element_run s op hFirst
    obtain ⟨hCount', hSource', hDestination', hRip'⟩ := ih hRest
    refine ⟨?_, ?_, ?_, hRip'.trans hRip⟩
    · rw [hCount', hCount, ← advanced_succ, BitVec.sub_eq_add_neg]
    · rw [hSource', hSource]
      split
      · exact advanced_succ ..
      · rfl
    · rw [hDestination', hDestination]
      split
      · exact advanced_succ ..
      · rfl

theorem restartable_of_elements (op : StringOp) (h : reps (element ctx size m.state op) k m = some (.ok (), m')) :
    Restartable ctx size op k m m' := by
  obtain ⟨hCount, hSource, hDestination, hRip⟩ := elements_run m.state op h
  exact ⟨h, hCount, hSource, hDestination, hRip⟩

/-! ## The loops, when they fail -/

theorem counted_error {body : Exec Unit} (hRep : ctx.pfx.rep ≠ 0) (h : counted ctx body m = some (.error e, m')) :
    ∃ k t, k < (m.state.gpr Reg.Rcx).toNat ∧ reps body k m = some (.ok (), t) ∧ body t = some (.error e, m') := by
  unfold counted at h
  rw [bind_of_ok rfl] at h
  simp only [if_pos hRep] at h
  rcases bind_run h with ⟨_, s₁, -, hEnd⟩ | ⟨e', hFails, hSame⟩
  · cases hEnd
  · cases hSame
    exact reps_error hFails

theorem scanLoop_error {body : Exec Unit} {fuel : Nat} (hRep : ctx.pfx.rep ≠ 0) (h : scanLoop ctx body fuel m = some (.error e, m')) :
    ∃ k t, reps (body >>= fun _ => discard (repStringBreak ctx)) k m = some (.ok (), t) ∧
      (body >>= fun _ => discard (repStringBreak ctx)) t = some (.error e, m') := by
  induction fuel generalizing m with
  | zero => cases h
  | succ fuel ih =>
    unfold scanLoop at h
    rw [bind_of_ok rfl] at h
    split at h
    · cases h
    · rcases bind_run h with ⟨_, s₁, hBody, hRest⟩ | ⟨e', hBody, hSame⟩
      · obtain ⟨done, s₂, hBreak, hRest⟩ | ⟨e', hBreak, -⟩ := bind_run hRest
        · have hTurn : (body >>= fun _ => discard (repStringBreak ctx)) m = some (.ok (), s₂) := by
            rw [bind_of_ok hBody]
            cases hBreak
            exact repStringBreak_run s₁
          cases done with
          | true => cases hRest
          | false =>
            obtain ⟨k, t, hRounds, hFails⟩ := ih hRest
            exact ⟨k + 1, t, (reps_succ hTurn).trans hRounds, hFails⟩
        · cases hBreak
      · cases hSame
        exact ⟨0, m, rfl, bind_of_error hBody⟩

theorem count_down (ctx : Ctx) {v : U64} (k : Nat) (hPos : 0 < k) (hLess : k ≤ v.toNat) :
    ((v - BitVec.ofNat 64 k) &&& ctx.bits.addrMask).toNat < v.toNat := by
  have hRange := v.isLt
  have hMask : ((v - BitVec.ofNat 64 k) &&& ctx.bits.addrMask).toNat ≤ (v - BitVec.ofNat 64 k).toNat := by
    rw [BitVec.toNat_and]
    exact Nat.and_le_left
  have hTaken : (v - BitVec.ofNat 64 k).toNat = v.toNat - k := by
    rw [BitVec.toNat_sub, BitVec.toNat_ofNat]
    omega
  omega

/-! ## The instructions -/

theorem executeString_error (h : executeString ctx size op m = some (.error e, m')) : stringOp ctx size op m = some (.error e, m') := by
  rcases bind_run h with ⟨_, s₁, -, hEnd⟩ | ⟨e', hFails, hSame⟩
  · cases hEnd
  · cases hSame
    exact hFails

theorem stringScas_run (m : Machine) : stringScas ctx size m =
    scanLoop ctx (scasBody ctx size (stringStep m.state size) (m.state.gprRead 0 size)) ((m.state.gpr Reg.Rcx).toNat + 1) m := by
  unfold stringScas scanned
  rw [bind_of_ok rfl, bind_of_ok rfl]

theorem stringCmps_run (m : Machine) : stringCmps ctx size m =
    scanLoop ctx (cmpsBody ctx size (stringStep m.state size)) ((m.state.gpr Reg.Rcx).toNat + 1) m := by
  unfold stringCmps scanned
  rw [bind_of_ok rfl, bind_of_ok rfl]

theorem stringOp_counted (hOp : op ≠ .scas ∧ op ≠ .cmps) (m : Machine) : stringOp ctx size op m = counted ctx (turn ctx size m.state op) m := by
  cases op with
  | scas => exact absurd rfl hOp.1
  | cmps => exact absurd rfl hOp.2
  | stos =>
    rw [show turn ctx size m.state .stos = stosBody size (stringStep m.state size) (m.state.gprRead 0 size) by rfl]
    change stringStos ctx size m = _
    unfold stringStos
    rw [bind_of_ok rfl]
  | movs =>
    rw [show turn ctx size m.state .movs = movsBody size (stringStep m.state size) by rfl]
    change stringMovs ctx size m = _
    unfold stringMovs
    rw [bind_of_ok rfl]
  | lods =>
    rw [show turn ctx size m.state .lods = lodsBody ctx size (stringStep m.state size) by rfl]
    change stringLods ctx size m = _
    unfold stringLods
    rw [bind_of_ok rfl]

theorem faultsAt_of_error (hRep : ctx.pfx.rep ≠ 0) (h : executeString ctx size op m = some (.error e, m')) :
    ∃ k, FaultsAt ctx size op k m e m' ∧ (op ≠ .scas ∧ op ≠ .cmps → k < (m.state.gpr Reg.Rcx).toNat) := by
  have hFails := executeString_error h
  by_cases hCounted : op ≠ .scas ∧ op ≠ .cmps
  · rw [stringOp_counted hCounted] at hFails
    obtain ⟨k, t, hLess, hRounds, hFails⟩ := counted_error hRep hFails
    exact ⟨k, ⟨t, hRounds, hFails⟩, fun _ => hLess⟩
  · cases op with
    | scas =>
      obtain ⟨k, t, hRounds, hFails⟩ := scanLoop_error hRep ((stringScas_run m).symm.trans hFails)
      exact ⟨k, ⟨t, hRounds, hFails⟩, fun hNot => absurd hNot hCounted⟩
    | cmps =>
      obtain ⟨k, t, hRounds, hFails⟩ := scanLoop_error hRep ((stringCmps_run m).symm.trans hFails)
      exact ⟨k, ⟨t, hRounds, hFails⟩, fun hNot => absurd hNot hCounted⟩
    | stos => exact absurd ⟨by decide, by decide⟩ hCounted
    | movs => exact absurd ⟨by decide, by decide⟩ hCounted
    | lods => exact absurd ⟨by decide, by decide⟩ hCounted

theorem FaultsAt.unique {k' : Nat} {e' : Stop} {m'' : Machine} (h : FaultsAt ctx size op k m e m') (h' : FaultsAt ctx size op k' m e' m'') :
    k = k' := by
  obtain ⟨t, hRounds, hFails⟩ := h
  obtain ⟨t', hRounds', hFails'⟩ := h'
  exact Nat.le_antisymm (rounds_le hRounds' hFails' hRounds) (rounds_le hRounds hFails hRounds')

theorem access_fails (s : CpuState) (op : StringOp) (h : access size s op t = some (.error e, m')) : m' = t := by
  have hRead : ∀ {addr} {f : U64 → Exec Unit}, (∀ v, f v t = some (.error e, m') → m' = t) → (readUint addr size >>= f) t = some (.error e, m') →
      m' = t := by
    intro addr f hf hRun
    rcases readUint_ends addr size t with ⟨v, hDone⟩ | ⟨e', hFails⟩
    · rw [bind_of_ok hDone] at hRun
      exact hf v hRun
    · rw [bind_of_error hFails] at hRun
      cases hRun
      rfl
  have hWrite : ∀ {addr v}, writeUint addr size v t = some (.error e, m') → m' = t := by
    intro addr v hRun
    rcases writeUint_ends addr size v t with ⟨mem, hDone⟩ | ⟨e', hFails⟩
    · rw [hDone] at hRun
      cases hRun
    · rw [hFails] at hRun
      cases hRun
      rfl
  have hNever : ∀ {f : CpuState → CpuState}, onState f t = some (.error e, m') → m' = t := by
    intro f hRun
    cases hRun
  unfold access at h
  rw [bind_of_ok rfl, bind_of_ok rfl] at h
  cases op with
  | stos => exact hWrite h
  | movs => exact hRead (fun v => hWrite) h
  | lods => exact hRead (fun v => hNever) h
  | scas => exact hRead (fun v => hNever) h
  | cmps => exact hRead (fun a => hRead fun b => hNever) h

theorem element_fails (op : StringOp) (h : element ctx size s op t = some (.error e, m')) : m' = t := by
  rcases bind_run h with ⟨_, s₁, -, hEnd⟩ | ⟨e', hAccess, hSame⟩
  · cases hEnd
  · cases hSame
    exact access_fails s op hAccess

theorem turn_scan (s : CpuState) (hScan : op = .scas ∨ op = .cmps) : turn ctx size s op = element ctx size s op := by
  rcases hScan with rfl | rfl
  · exact turn_scas s
  · exact turn_cmps s

/-- A string instruction that faults leaves the state after the elements it has done if it is one of those that compare,
or has done none. -/
theorem restartable_iff (hRep : ctx.pfx.rep ≠ 0) (hRun : executeString ctx size op m = some (.error e, m')) :
    (∃ k, FaultsAt ctx size op k m e m') ∧
      ∀ k, FaultsAt ctx size op k m e m' → (Restartable ctx size op k m m' ↔ op = .scas ∨ op = .cmps ∨ k = 0) := by
  obtain ⟨k₀, hFault, hLess⟩ := faultsAt_of_error hRep hRun
  refine ⟨⟨k₀, hFault⟩, fun k hk => ?_⟩
  obtain rfl := hFault.unique hk
  obtain ⟨t, hRounds, hFails⟩ := hk
  by_cases hScan : op = .scas ∨ op = .cmps
  · rw [turn_scan m.state hScan] at hRounds hFails
    obtain rfl := element_fails op hFails
    refine iff_of_true (restartable_of_elements op hRounds) ?_
    rcases hScan with hScan | hScan
    · exact .inl hScan
    · exact .inr (.inl hScan)
  · have hCounted : op ≠ .scas ∧ op ≠ .cmps := not_or.mp hScan
    -- the round that fails changes nothing, and those before it have left the count alone
    have hLast : m' = t := by
      rcases (turn_counted hCounted t : _ ∨ ∃ e, turn ctx size m.state op t = some (.error e, t)) with ⟨u, hDone, -⟩ | ⟨e', hFails'⟩
      · rw [hDone] at hFails
        cases hFails
      · rw [hFails'] at hFails
        cases hFails
        rfl
    have hCount : t.state.gpr Reg.Rcx = m.state.gpr Reg.Rcx := by
      refine reps_keeps (f := fun u => u.state.gpr Reg.Rcx) (fun a b hDone => ?_) hRounds
      rcases (turn_counted hCounted a : _ ∨ ∃ e, turn ctx size m.state op a = some (.error e, a)) with ⟨u, hDone', hSame, -⟩ | ⟨e', hFails'⟩
      · rw [hDone'] at hDone
        cases hDone
        exact hSame
      · rw [hFails'] at hDone
        cases hDone
    rw [hLast]
    constructor
    · intro h
      by_contra hNot
      have hNonzero : k₀ ≠ 0 := fun hZero => hNot (.inr (.inr hZero))
      have hDown := count_down ctx k₀ (Nat.pos_of_ne_zero hNonzero) (hLess hCounted).le
      have hAfter := h.count
      unfold advanced at hAfter
      have hMinus : m.state.gpr Reg.Rcx + BitVec.ofNat 64 k₀ * -1 = m.state.gpr Reg.Rcx - BitVec.ofNat 64 k₀ := by
        rw [BitVec.mul_neg, show (1 : U64) = 1#64 from rfl, BitVec.mul_one, ← BitVec.sub_eq_add_neg]
      rw [if_neg hNonzero, hCount, hMinus] at hAfter
      rw [← hAfter] at hDown
      exact absurd hDown (Nat.lt_irrefl _)
    · rintro (hScas | hCmps | rfl)
      · exact absurd hScas hCounted.1
      · exact absurd hCmps hCounted.2
      · cases hRounds
        exact restartable_of_elements op rfl

end Turns

/-! ## At the end of a page -/

/-- A page at `0x1000`, and an index two bytes before its end. -/
def stringStart : Machine :=
  { state := { gpr := fun i => if i = 1 then 4 else if i = 7 then 0x1ffe else 0 }
    mem := (VirtualMemory.new.map true ⟨"data", 0x1000, 0x1000, Perm.RW⟩).toOption.getD .new }

def repCtx : Ctx := ⟨{ rep := 0xF3 }, 0x4002, 0, .Reg 0, .B64⟩

def stringEnd (out : Option (Except Stop Exit × Machine)) : Option (Bool × U64 × U64 × U64) :=
  out.map fun p => (p.1.toOption.isNone, p.2.state.gpr Reg.Rcx, p.2.state.gpr Reg.Rdi, p.2.state.rip)

/-- `REPE SCASB` finds two zeros, and stands at the third. -/
theorem restartable_scas : ∃ e m', executeString repCtx 1 .scas stringStart = some (.error e, m') ∧
    m'.state.gpr Reg.Rcx = 2 ∧ ∃ k, Restartable repCtx 1 .scas k stringStart m' := by
  have hEnd : stringEnd (executeString repCtx 1 .scas stringStart) = some (true, 2, 0x2000, 0) := by decide
  obtain ⟨⟨r, m'⟩, hRun, hSame⟩ := Option.map_eq_some_iff.mp hEnd
  cases r with
  | ok x => cases hSame
  | error e =>
    obtain ⟨⟨k, hk⟩, hAll⟩ := restartable_iff (by decide) hRun
    exact ⟨e, m', hRun, (Prod.mk.inj (Prod.mk.inj hSame).2).1, k, (hAll k hk).mpr (.inl rfl)⟩

/-- `REP STOSB` writes two bytes, and still has four to write. -/
theorem restartable_misses : ∃ e m', executeString repCtx 1 .stos stringStart = some (.error e, m') ∧
    FaultsAt repCtx 1 .stos 2 stringStart e m' ∧ m'.state.gpr Reg.Rcx = 4 ∧ m'.state.gpr Reg.Rdi = 0x2000 ∧
      ¬Restartable repCtx 1 .stos 2 stringStart m' := by
  have hEnd : stringEnd (executeString repCtx 1 .stos stringStart) = some (true, 4, 0x2000, 0) := by decide
  obtain ⟨⟨r, m'⟩, hRun, hSame⟩ := Option.map_eq_some_iff.mp hEnd
  cases r with
  | ok x => cases hSame
  | error e =>
    obtain ⟨k, hk, -⟩ := faultsAt_of_error (by decide) hRun
    have hCount : m'.state.gpr Reg.Rcx = 4 := (Prod.mk.inj (Prod.mk.inj hSame).2).1
    have hIndex : m'.state.gpr Reg.Rdi = 0x2000 := (Prod.mk.inj (Prod.mk.inj (Prod.mk.inj hSame).2).2).1
    have hTwo : ((reps (turn repCtx 1 stringStart.state .stos) 2 stringStart).map fun p => p.1.toOption.isSome) = some true := by decide
    have hThree : ((reps (turn repCtx 1 stringStart.state .stos) 3 stringStart).map fun p => p.1.toOption.isSome) = some false := by
      decide
    obtain ⟨⟨r₂, t⟩, hRounds, hOk⟩ := Option.map_eq_some_iff.mp hTwo
    obtain ⟨⟨r₃, t'⟩, hStands, hNot⟩ := Option.map_eq_some_iff.mp hThree
    cases r₂ with
    | error e => cases hOk
    | ok u =>
      cases r₃ with
      | ok u => cases hNot
      | error e₃ =>
        obtain ⟨j, t₂, hLess, hBefore, hFails⟩ := reps_error hStands
        obtain rfl : j = 2 := Nat.le_antisymm (Nat.lt_succ_iff.mp hLess) (rounds_le hBefore hFails hRounds)
        obtain rfl := hk.unique (show FaultsAt repCtx 1 .stos 2 stringStart e₃ t' from ⟨t₂, hBefore, hFails⟩)
        refine ⟨e, m', hRun, hk, hCount, hIndex, fun h => ?_⟩
        have hAfter := h.count
        rw [hCount] at hAfter
        exact absurd hAfter (by decide)

end Interp

end Exemu
