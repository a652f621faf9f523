import Exemu.Core.Unwind
import Exemu.Library.Fallible

/-! # Callbacks into the guest

A call that runs guest functions records a frame on one of two stacks, seats the first function on
the guest's stack and is resumed where that returns, for the next one.
-/
namespace Exemu.Os.Callbacks

/-! ## State -/

abbrev Callee := U64 × List U64

structure CbFrame where
  remaining : List Callee
  retAddr : U64
  finalRsp : U64
  result : U64
  modal : Bool
deriving DecidableEq

structure ClientCbState where
  gpr : List U64
  xmm : List U128
deriving DecidableEq

structure Win32kCbFrame where
  resumeRip : U64
  resumeRsp : U64
  resumeFlags : U64
  remaining : List Callee
  callBase : U64
  result : Option U64
  client : Option ClientCbState
deriving DecidableEq

structure Env where
  is64bit : Bool
  wow64 : Bool
  cbDriver : U64
  win32kCbDriver : U64
  clientCbDispatcher : U64

structure State (M : Type) where
  cpu : CpuState
  mem : M
  cbStack : List CbFrame
  win32kCb : List Win32kCbFrame
  dlgproc : U64
  dialogHwnd : U64
  dialogResult : Option U64
  pendingProcessExit : Option Int
  syscallGuestRsp : U64
  syscallResumeAsIs : Bool

inductive Fault where
  | refused (e : EmuError)
  | noDispatcher
  /-- a callback returned that nobody made -/
  | noFrame

inductive Outcome where
  | Resume
  | Return (v : U64)
  | Exit (code : Int)
deriving DecidableEq

section Calls

variable {M : Type} [Memory M]

abbrev Act (M : Type) := Fallible (State M) Fault

def refuse {α : Type} : Result α → Except Fault α
  | .ok a => .ok a
  | .error e => .error (.refused e)

def onCpu (f : CpuState → CpuState) : Act M Unit := .modify fun s => { s with cpu := f s.cpu }

def read (addr : U64) (n : Nat) : Act M U64 := .step fun s => (refuse (Memory.read s.mem addr n)).map fun bytes => (fromLe bytes, s)

def write (n : Nat) (addr v : U64) : Act M Unit := .step fun s => (refuse (Memory.write s.mem addr (toLe n v))).map fun mem => ((), { s with mem })

/-! ## Seating -/

def argRegs : List (Fin 16) := [Reg.Rcx, Reg.Rdx, 8, 9]

def setArgs (args : List U64) (cpu : CpuState) : CpuState := (argRegs.zip args).foldl (fun cpu p => cpu.setReg p.1 p.2) cpu

def pushArgs : List U64 → U64 → Act M U64
  | [], sp => pure sp
  | a :: args, sp => do
    write 4 (sp - 4) a
    pushArgs args (sp - 4)

variable (env : Env)

def seatArgs (args : List U64) (retThunk baseRsp : U64) : Act M Unit :=
  if env.is64bit then do
    onCpu (setArgs args)
    let sp := (baseRsp &&& ~~~0xf) - 0x20 - 8
    write 8 sp retThunk
    onCpu fun cpu => cpu.setRsp sp
  else do
    let sp ← pushArgs args.reverse (baseRsp &&& ~~~0xf)
    write 4 (sp - 4) retThunk
    onCpu fun cpu => cpu.setRsp (sp - 4)

def setupCallArgs (func : U64) (args : List U64) (retThunk baseRsp : U64) : Act M Unit := do
  seatArgs env args retThunk baseRsp
  onCpu fun cpu => { cpu with rip := func }

def NTUSER_DPI_UNAWARE : U64 := 0x6010
def NT_USER_CALL_WIN_PROC : U64 := 4
def CALL_LEN : U64 := 0x48

def arg (args : List U64) (i : Nat) : U64 := args[i]?.getD 0

/-- The parameters of `NtUserCallWinProc`: the size, the address and the value of each. -/
def winProcParams (params func : U64) (args : List U64) : List (Nat × U64 × U64) :=
  [(8, params, func), (8, params + 0x08, arg args 0), (4, params + 0x10, arg args 1), (8, params + 0x18, arg args 2),
    (8, params + 0x20, arg args 3), (4, params + 0x28, 0), (4, params + 0x2c, 0), (4, params + 0x30, 0),
    (4, params + 0x34, NTUSER_DPI_UNAWARE), (8, params + 0x38, 0), (8, params + 0x40, func), (8, params + 0x48, 0)]

def cbFrameFields (frame params : U64) : List (Nat × U64 × U64) :=
  [(8, frame + 0x20, params), (4, frame + 0x28, CALL_LEN), (4, frame + 0x2c, NT_USER_CALL_WIN_PROC)]

def paramsAt (callBase : U64) : U64 := (callBase - 0x100) &&& ~~~0xf
def frameAt (callBase : U64) : U64 := (paramsAt callBase - 0x30) &&& ~~~0xf

def seatClientWinProc (func : U64) (args : List U64) (callBase : U64) : Act M Unit := do
  if env.clientCbDispatcher = 0 then .step fun _ => .error .noDispatcher
  else
    .each (fun w => write w.1 w.2.1 w.2.2) (winProcParams (paramsAt callBase) func args)
    .each (fun w => write w.1 w.2.1 w.2.2) (cbFrameFields (frameAt callBase) (paramsAt callBase))
    onCpu fun cpu => { cpu.setRsp (frameAt callBase) with rip := env.clientCbDispatcher }

def seatWin32kCallback (func : U64) (args : List U64) (callBase : U64) : Act M Unit := do
  let s ← .get
  if (s.win32kCb.head?.bind Win32kCbFrame.client).isSome then seatClientWinProc env func args callBase
  else setupCallArgs env func args env.win32kCbDriver callBase

/-! ## The calls -/

def slot : U64 := if env.is64bit then 8 else 4

def invokeCallbacks (calls : List Callee) (result : U64) (argc : U32) (modal : Bool) : Act M Outcome :=
  match calls with
  | [] => return .Return result
  | callee :: q => do
    let savedRsp := (← .get).cpu.rsp
    let retAddr ← read savedRsp (slot env).toNat
    let cleanup := if env.is64bit then 0 else argc.setWidth 64 * 4
    let finalRsp := savedRsp + slot env + cleanup
    .modify fun s => { s with cbStack := ⟨q, retAddr, finalRsp, result, modal⟩ :: s.cbStack }
    setupCallArgs env callee.1 callee.2 env.cbDriver savedRsp
    return .Resume

def WM_COMMAND : U64 := 0x0111
def IDCANCEL : U64 := 2

def popCb (f : CbFrame) (below : List CbFrame) : Act M Outcome := do
  .modify fun s => { s with cbStack := below }
  let s ← .get
  match below, s.pendingProcessExit with
  | [], some code => do
    .modify fun s => { s with pendingProcessExit := none }
    return .Exit code
  | _, _ => do
    let result := if f.modal then s.dialogResult.getD IDCANCEL else f.result
    .modify fun s => { s with dialogResult := if f.modal then none else s.dialogResult }
    onCpu fun cpu => { cpu.setRsp f.finalRsp with rip := f.retAddr }
    onCpu fun cpu => if env.is64bit then cpu.setReg Reg.Rax result else cpu.gprWrite 0 4 result
    return .Resume

/-- A callback has returned. `pump` is the command that the host's event loop brings, if it is asked and brings one. -/
def cbAdvance (pump : Option U64) : Act M Outcome := do
  let s ← .get
  match s.cbStack with
  | [] => .step fun _ => .error .noFrame
  | f :: below =>
    match f.remaining with
    | callee :: rest => do
      .modify fun s => { s with cbStack := { f with remaining := rest } :: below }
      setupCallArgs env callee.1 callee.2 env.cbDriver (f.finalRsp - slot env)
      return .Resume
    | [] =>
      if f.modal && s.dialogResult.isNone then
        match pump with
        | some id => do
          setupCallArgs env s.dlgproc [s.dialogHwnd, WM_COMMAND, id, 0] env.cbDriver (f.finalRsp - slot env)
          return .Resume
        | none => do
          .modify fun s => { s with dialogResult := some IDCANCEL }
          popCb env f below
      else popCb env f below

def CLIENT_CB_GPRS : List (Fin 16) := [Reg.Rbx, Reg.Rbp, Reg.Rsi, Reg.Rdi, Reg.R12, Reg.R13, Reg.R14, Reg.R15]
def CLIENT_CB_XMMS : List (Fin 16) := [6, 7, 8, 9, 10, 11, 12, 13, 14, 15]

def ClientCbState.capture (cpu : CpuState) : ClientCbState := ⟨CLIENT_CB_GPRS.map cpu.gpr, CLIENT_CB_XMMS.map cpu.xmm⟩

def canCallClient : Bool := !env.wow64 || env.clientCbDispatcher != 0

def callWndprocsFromSyscall (calls : List Callee) (result : Option U64) (stackReserve : U64) : Act M Bool :=
  if !canCallClient env then return false
  else
    match calls with
    | [] => return false
    | callee :: remaining => do
      let s ← .get
      let callBase := s.syscallGuestRsp - stackReserve
      let frame : Win32kCbFrame :=
        { resumeRip := s.cpu.gpr Reg.Rcx, resumeRsp := s.syscallGuestRsp, resumeFlags := s.cpu.gpr Reg.R11, remaining, callBase, result,
          client := if env.wow64 then some (.capture s.cpu) else none }
      .modify fun s => { s with win32kCb := frame :: s.win32kCb }
      .onError (seatWin32kCallback env callee.1 callee.2 callBase) fun s => { s with win32kCb := s.win32kCb.tail }
      .modify fun s => { s with syscallResumeAsIs := true }
      return true

def win32kCbAdvance : Act M Outcome := do
  let s ← .get
  match s.win32kCb with
  | [] => .step fun _ => .error .noFrame
  | f :: below =>
    match f.remaining with
    | callee :: rest => do
      .modify fun s => { s with win32kCb := { f with remaining := rest } :: below }
      seatWin32kCallback env callee.1 callee.2 f.callBase
      return .Resume
    | [] => do
      .modify fun s => { s with win32kCb := below }
      onCpu fun cpu => { cpu.setRsp f.resumeRsp with rip := f.resumeRip, rflags := f.resumeFlags }
      onCpu fun cpu => f.result.elim cpu fun result => cpu.setReg Reg.Rax result
      return .Resume

inductive Call where
  | invokeCallbacks (calls : List Callee) (result : U64) (argc : U32) (modal : Bool)
  | cbAdvance (pump : Option U64)
  | callWndprocsFromSyscall (calls : List Callee) (result : Option U64) (stackReserve : U64)
  | win32kCbAdvance

/-! ## What seating writes -/

def pushWrites : List U64 → U64 → List (Nat × U64 × U64)
  | [], _ => []
  | a :: args, sp => (4, sp - 4, a) :: pushWrites args (sp - 4)

def pushed : Nat → U64 → U64
  | 0, sp => sp
  | n + 1, sp => pushed n (sp - 4)

def callWrites (args : List U64) (retThunk baseRsp : U64) : List (Nat × U64 × U64) :=
  if env.is64bit then [(8, (baseRsp &&& ~~~0xf) - 0x20 - 8, retThunk)]
  else pushWrites args.reverse (baseRsp &&& ~~~0xf) ++ [(4, pushed args.length (baseRsp &&& ~~~0xf) - 4, retThunk)]

def clientWrites (func : U64) (args : List U64) (callBase : U64) : List (Nat × U64 × U64) :=
  winProcParams (paramsAt callBase) func args ++ cbFrameFields (frameAt callBase) (paramsAt callBase)

def writeAll : M → List (Nat × U64 × U64) → Result M
  | mem, [] => .ok mem
  | mem, w :: ws => do writeAll (← Memory.write mem w.2.1 (toLe w.1 w.2.2)) ws

def Takes (mem : M) (ws : List (Nat × U64 × U64)) : Prop := (writeAll mem ws).isOk = true

instance (mem : M) (ws : List (Nat × U64 × U64)) : Decidable (Takes mem ws) := inferInstanceAs (Decidable (_ = true))

structure SameStacks (s s' : State M) : Prop where
  cb : s'.cbStack = s.cbStack
  win32k : s'.win32kCb = s.win32kCb

structure Performed {α : Type} (s : State M) (ws : List (Nat × U64 × U64)) (P : α → Prop) (r : Except Fault α) (s' : State M) : Prop where
  same : SameStacks s s'
  done : ∀ mem, writeAll s.mem ws = .ok mem → s'.mem = mem ∧ ∃ a, r = .ok a ∧ P a
  refused : ∀ e, writeAll s.mem ws = .error e → r = .error (.refused e)

def Performs {α : Type} (x : Act M α) (ws : List (Nat × U64 × U64)) (P : α → Prop) : Prop := ∀ s, x.Ends s (Performed s ws P)

section Performs

variable {α β : Type} {x : Act M α} {ws ws' : List (Nat × U64 × U64)} {P : α → Prop} {Q : β → Prop}

theorem writeAll_append (mem : M) (ws ws' : List (Nat × U64 × U64)) :
    writeAll mem (ws ++ ws') = (writeAll mem ws).bind fun mem' => writeAll mem' ws' := by
  induction ws generalizing mem with
  | nil => rfl
  | cons w ws ih =>
    rw [List.cons_append, writeAll, writeAll]
    cases Memory.write mem w.2.1 (toLe w.1 w.2.2) with
    | error e => rfl
    | ok mem' => exact ih mem'

theorem Performs.pure {a : α} (ha : P a) : Performs (Pure.pure a : Act M α) [] P := by
  refine fun s => (Fallible.ends_pure a).mpr ⟨⟨rfl, rfl⟩, fun mem hMem => ?_, fun e he => ?_⟩
  · cases hMem
    exact ⟨rfl, a, rfl, ha⟩
  · cases he

theorem performs_onCpu (f : CpuState → CpuState) : Performs (onCpu f : Act M Unit) [] fun _ => True := by
  refine fun s => (Fallible.ends_modify _).mpr ⟨⟨rfl, rfl⟩, fun mem hMem => ?_, fun e he => ?_⟩
  · cases hMem
    exact ⟨rfl, (), rfl, trivial⟩
  · cases he

theorem performs_write (n : Nat) (addr v : U64) : Performs (write n addr v : Act M Unit) [(n, addr, v)] fun _ => True := by
  intro s
  cases hWrite : Memory.write s.mem addr (toLe n v) with
  | error e =>
    have hAll : writeAll s.mem [(n, addr, v)] = .error e := by
      rw [writeAll, hWrite]
      rfl
    refine (Fallible.ends_of_run (Fallible.step_of_error (e := .refused e) (by rw [hWrite]; rfl))).mpr ⟨⟨rfl, rfl⟩, fun mem hMem => ?_, fun e' he => ?_⟩
    · cases hAll.symm.trans hMem
    · cases hAll.symm.trans he
      rfl
  | ok mem' =>
    have hAll : writeAll s.mem [(n, addr, v)] = .ok mem' := by
      rw [writeAll, hWrite]
      rfl
    refine (Fallible.ends_of_run (Fallible.step_of_ok (a := ()) (t := { s with mem := mem' }) (by rw [hWrite]; rfl))).mpr
      ⟨⟨rfl, rfl⟩, fun mem hMem => ?_, fun e' he => ?_⟩
    · cases hAll.symm.trans hMem
      exact ⟨rfl, (), rfl, trivial⟩
    · cases hAll.symm.trans he

theorem Performs.bind {f : α → Act M β} (hx : Performs x ws P) (hf : ∀ a, P a → Performs (f a) ws' Q) : Performs (x >>= f) (ws ++ ws') Q := by
  refine fun s => Fallible.ends_bind.mpr ((hx s).mono fun r s₁ hFirst => ?_)
  have hBoth := writeAll_append s.mem ws ws'
  cases hAll : writeAll s.mem ws with
  | error e =>
    rw [hAll] at hBoth
    obtain rfl := hFirst.refused e hAll
    refine ⟨hFirst.same, fun mem hMem => ?_, fun e' he => ?_⟩
    · cases hBoth.symm.trans hMem
    · cases hBoth.symm.trans he
      rfl
  | ok mem =>
    rw [hAll] at hBoth
    obtain ⟨rfl, a, rfl, ha⟩ := hFirst.done mem hAll
    refine (hf a ha s₁).mono fun r s₂ hSecond => ⟨⟨?_, ?_⟩, fun mem hMem => ?_, fun e he => ?_⟩
    · exact hSecond.same.cb.trans hFirst.same.cb
    · exact hSecond.same.win32k.trans hFirst.same.win32k
    · exact hSecond.done mem (hBoth.symm.trans hMem)
    · exact hSecond.refused e (hBoth.symm.trans he)

theorem performs_each (ws : List (Nat × U64 × U64)) : Performs (.each (fun w => write w.1 w.2.1 w.2.2) ws : Act M Unit) ws fun _ => True := by
  induction ws with
  | nil => exact .pure trivial
  | cons w ws ih => exact (performs_write w.1 w.2.1 w.2.2).bind fun _ _ => ih

theorem performs_pushArgs (args : List U64) (sp : U64) :
    Performs (pushArgs args sp : Act M U64) (pushWrites args sp) (· = pushed args.length sp) := by
  induction args generalizing sp with
  | nil => exact .pure rfl
  | cons a args ih => exact (performs_write 4 (sp - 4) a).bind fun _ _ => ih (sp - 4)

theorem performs_setupCallArgs (func : U64) (args : List U64) (retThunk baseRsp : U64) :
    Performs (setupCallArgs env func args retThunk baseRsp : Act M Unit) (callWrites env args retThunk baseRsp) fun _ => True := by
  have hSeat : Performs (seatArgs env args retThunk baseRsp : Act M Unit) (callWrites env args retThunk baseRsp) fun _ => True := by
    unfold seatArgs callWrites
    split
    · exact .bind (performs_onCpu (setArgs args)) fun _ _ => .bind (performs_write 8 _ _) fun _ _ => performs_onCpu _
    · refine .bind (performs_pushArgs _ _) fun sp hsp => ?_
      rw [List.length_reverse] at hsp
      subst hsp
      exact .bind (performs_write 4 _ _) fun _ _ => performs_onCpu _
  have hAll := hSeat.bind (f := fun _ => onCpu fun cpu => { cpu with rip := func }) fun _ _ => performs_onCpu _
  rwa [List.append_nil] at hAll

theorem performs_seatClientWinProc (hDispatcher : env.clientCbDispatcher ≠ 0) (func : U64) (args : List U64) (callBase : U64) :
    Performs (seatClientWinProc env func args callBase : Act M Unit) (clientWrites func args callBase) fun _ => True := by
  unfold seatClientWinProc
  rw [if_neg hDispatcher]
  have hFrame := (performs_each (M := M) (cbFrameFields (frameAt callBase) (paramsAt callBase))).bind
    (f := fun _ => onCpu fun cpu => { cpu.setRsp (frameAt callBase) with rip := env.clientCbDispatcher }) fun _ _ => performs_onCpu _
  rw [List.append_nil] at hFrame
  exact .bind (performs_each _) fun _ _ => hFrame

end Performs

/-! ## What a refused write leaves -/

/-- Where a guest access of the program is refused, it leaves the stacks of `s`. -/
def Restores {α : Type} (s : State M) (x : Act M α) (s₁ : State M) : Prop := ∀ e s', x s₁ = some (.error (.refused e), s') → SameStacks s s'

def Call.Meets (s : State M) : Call → Prop
  | .invokeCallbacks calls result argc modal => Restores s (Callbacks.invokeCallbacks env calls result argc modal) s
  | .cbAdvance pump => Restores s (Callbacks.cbAdvance env pump) s
  | .callWndprocsFromSyscall calls result stackReserve => Restores s (Callbacks.callWndprocsFromSyscall env calls result stackReserve) s
  | .win32kCbAdvance => Restores s (Callbacks.win32kCbAdvance env) s

def Win32kCbFrame.SeatsNext (f : Win32kCbFrame) (mem : M) (callee : Callee) : Prop :=
  if f.client.isSome then env.clientCbDispatcher ≠ 0 → Takes mem (clientWrites callee.1 callee.2 f.callBase)
  else Takes mem (callWrites env callee.2 env.win32kCbDriver f.callBase)

def Call.Fine (s : State M) : Call → Prop
  | .invokeCallbacks calls _ _ _ => ∀ callee ∈ calls.head?, (Memory.read s.mem s.cpu.rsp (slot env).toNat).isOk = true →
      Takes s.mem (callWrites env callee.2 env.cbDriver s.cpu.rsp)
  | .cbAdvance _ => ∀ f ∈ s.cbStack.head?, ∀ callee ∈ f.remaining.head?, Takes s.mem (callWrites env callee.2 env.cbDriver (f.finalRsp - slot env))
  | .callWndprocsFromSyscall .. => True
  | .win32kCbAdvance => ∀ f ∈ s.win32kCb.head?, ∀ callee ∈ f.remaining.head?, f.SeatsNext env s.mem callee

section Restores

variable {α β : Type} {s s₁ s₂ : State M} {x : Act M α} {f : α → Act M β} {ws : List (Nat × U64 × U64)} {P : α → Prop}

omit [Memory M] in
theorem restores_pure (s s₁ : State M) (a : α) : Restores s (pure a) s₁ := by
  intro e s' h
  cases h

omit [Memory M] in
theorem restores_ok {a : α} {t : State M} (h : x s₁ = some (.ok a, t)) : Restores s (x >>= f) s₁ ↔ Restores s (f a) t := by
  rw [Restores, Restores, Fallible.bind_of_ok h]

omit [Memory M] in
theorem restores_congr {y : Act M α} (h : x s₁ = y s₁) : Restores s (x >>= f) s₁ ↔ Restores s (y >>= f) s₁ := by
  have hBind : (x >>= f) s₁ = (y >>= f) s₁ := congrArg (fun o => Option.bind o fun r => Fallible.pass s₁ r f) h
  rw [Restores, Restores, hBind]

omit [Memory M] in
theorem restores_onError {undo : State M → State M} (hx : Fallible.Within SameStacks x) (hUndo : ∀ s₂, SameStacks s₁ s₂ → SameStacks s (undo s₂))
    (hf : ∀ a s₂, Restores s (f a) s₂) : Restores s (.onError x undo >>= f) s₁ := by
  obtain ⟨⟨r, s₂⟩, hRun, hSame⟩ := hx s₁
  cases r with
  | ok a =>
    have hOk : Fallible.onError x undo s₁ = some (.ok a, s₂) := by rw [Fallible.onError, hRun]
    exact (restores_ok hOk).mpr (hf a s₂)
  | error e =>
    have hError : Fallible.onError x undo s₁ = some (.error e, undo s₂) := by rw [Fallible.onError, hRun]
    intro e' s' h
    cases (Fallible.bind_of_error hError).symm.trans h
    exact hUndo s₂ hSame

theorem restores_iff (hx : Performs x ws P) (b : β) : Restores s (x >>= fun _ => pure b) s₁ ↔ Takes s₁.mem ws ∨ SameStacks s s₁ := by
  obtain ⟨⟨r, s₂⟩, hRun, hEnd⟩ := hx s₁
  cases hAll : writeAll s₁.mem ws with
  | ok mem =>
    obtain ⟨-, a, rfl, -⟩ := hEnd.done mem hAll
    refine iff_of_true ((restores_ok hRun).mpr (restores_pure s s₂ b)) (.inl ?_)
    rw [Takes, hAll]
    rfl
  | error e =>
    have hRefused : ¬Takes s₁.mem ws := by
      rw [Takes, hAll]
      exact Bool.false_ne_true
    obtain rfl : r = _ := hEnd.refused e hAll
    rw [or_iff_right hRefused]
    constructor
    · intro h
      have hSame := h e s₂ (Fallible.bind_of_error hRun)
      exact ⟨hEnd.same.cb.symm.trans hSame.cb, hEnd.same.win32k.symm.trans hSame.win32k⟩
    · intro h e' s' hFails
      cases (Fallible.bind_of_error hRun).symm.trans hFails
      exact ⟨hEnd.same.cb.trans h.cb, hEnd.same.win32k.trans h.win32k⟩

theorem invokeCallbacks_restores_iff (s : State M) (calls : List Callee) (result : U64) (argc : U32) (modal : Bool) :
    Restores s (invokeCallbacks env calls result argc modal) s ↔ (Call.invokeCallbacks calls result argc modal).Fine env s := by
  cases calls with
  | nil =>
    refine iff_of_true (restores_pure s s (Outcome.Return result)) fun callee hCallee => ?_
    cases hCallee
  | cons callee q =>
    have hHead : (Call.invokeCallbacks (callee :: q) result argc modal).Fine env s ↔
        ((Memory.read s.mem s.cpu.rsp (slot env).toNat).isOk = true → Takes s.mem (callWrites env callee.2 env.cbDriver s.cpu.rsp)) :=
      ⟨fun h => h callee rfl, fun h callee' hCallee => Option.some.inj hCallee ▸ h⟩
    rw [hHead, invokeCallbacks, restores_ok (t := s) rfl]
    cases hRead : Memory.read s.mem s.cpu.rsp (slot env).toNat with
    | error e =>
      have hFails : read s.cpu.rsp (slot env).toNat s = some (.error (.refused e), s) := Fallible.step_of_error (by rw [hRead]; rfl)
      refine iff_of_true (fun e' s' hRun => ?_) fun hOk => absurd hOk Bool.false_ne_true
      cases (Fallible.bind_of_error hFails).symm.trans hRun
      exact ⟨rfl, rfl⟩
    | ok bytes =>
      have hReads : read s.cpu.rsp (slot env).toNat s = some (.ok (fromLe bytes), s) := Fallible.step_of_ok (by rw [hRead]; rfl)
      rw [restores_ok hReads, restores_ok (f := fun _ => _ >>= fun _ => _) rfl, restores_iff (performs_setupCallArgs env _ _ _ _)]
      refine (or_iff_left fun hSame => ?_).trans ⟨fun h _ => h, fun h => h rfl⟩
      exact absurd (congrArg List.length hSame.cb) (Nat.succ_ne_self _)

omit [Memory M] in
theorem popCb_restores (s s₁ : State M) (f : CbFrame) (below : List CbFrame) : Restores s (popCb env f below) s₁ := by
  unfold popCb
  rw [restores_ok (f := fun _ => _ >>= fun _ => _) rfl, restores_ok rfl]
  split
  · rw [restores_ok (f := fun _ => _) rfl]
    exact restores_pure _ _ _
  · rw [restores_ok (f := fun _ => _ >>= fun _ => _) rfl, restores_ok (f := fun _ => _ >>= fun _ => _) rfl, restores_ok (f := fun _ => _) rfl]
    exact restores_pure _ _ _

theorem cbAdvance_restores_iff (s : State M) (pump : Option U64) : Restores s (cbAdvance env pump) s ↔ (Call.cbAdvance pump).Fine env s := by
  rw [cbAdvance, restores_ok (t := s) rfl]
  cases hStack : s.cbStack with
  | nil =>
    refine iff_of_true (fun e s' h => ?_) fun f hf => ?_
    · cases h
    · rw [hStack] at hf
      cases hf
  | cons f below =>
    dsimp only
    cases hRemaining : f.remaining with
    | cons callee rest =>
      have hFine : (Call.cbAdvance pump).Fine env s ↔ Takes s.mem (callWrites env callee.2 env.cbDriver (f.finalRsp - slot env)) := by
        refine ⟨fun h => h f (by rw [hStack]; rfl) callee (by rw [hRemaining]; rfl), fun h f' hf callee' hCallee => ?_⟩
        rw [hStack] at hf
        cases hf
        rw [hRemaining] at hCallee
        cases hCallee
        exact h
      dsimp only
      rw [hFine, restores_ok (f := fun _ => _ >>= fun _ => _) rfl, restores_iff (performs_setupCallArgs env _ _ _ _)]
      refine or_iff_left fun hSame => ?_
      have hTop := (congrArg List.head? (hSame.cb.trans hStack)).trans List.head?_cons
      have hRest : rest = callee :: rest := (congrArg CbFrame.remaining (Option.some.inj hTop)).trans hRemaining
      exact absurd (congrArg List.length hRest).symm (Nat.succ_ne_self _)
    | nil =>
      dsimp only
      refine iff_of_true ?_ fun f' hf callee hCallee => ?_
      · split
        · cases pump with
          | some id =>
            dsimp only
            rw [restores_iff (performs_setupCallArgs env _ _ _ _)]
            exact .inr ⟨rfl, rfl⟩
          | none =>
            dsimp only
            rw [restores_ok (f := fun _ => _) rfl]
            exact popCb_restores env _ _ f below
        · exact popCb_restores env _ _ f below
      · rw [hStack] at hf
        cases hf
        rw [hRemaining] at hCallee
        cases hCallee

theorem Performs.within (hx : Performs x ws P) : Fallible.Within SameStacks x := fun s => (hx s).mono fun _ _ hEnd => hEnd.same

theorem seatWin32kCallback_within (func : U64) (args : List U64) (callBase : U64) :
    Fallible.Within SameStacks (seatWin32kCallback env func args callBase : Act M Unit) := by
  intro s
  rw [seatWin32kCallback, Fallible.ends_ok (a := s) (t := s) rfl]
  split
  · by_cases hDispatcher : env.clientCbDispatcher = 0
    · rw [seatClientWinProc, if_pos hDispatcher]
      exact ⟨_, rfl, rfl, rfl⟩
    · exact (performs_seatClientWinProc env hDispatcher func args callBase).within s
  · exact (performs_setupCallArgs env _ _ _ _).within s

theorem callWndprocsFromSyscall_restores (s : State M) (calls : List Callee) (result : Option U64) (stackReserve : U64) :
    Restores s (callWndprocsFromSyscall env calls result stackReserve) s := by
  unfold callWndprocsFromSyscall
  split
  · exact restores_pure _ _ _
  · cases calls with
    | nil => exact restores_pure _ _ _
    | cons callee remaining =>
      dsimp only
      rw [restores_ok (t := s) rfl, restores_ok (f := fun _ => _ >>= fun _ => _) rfl]
      refine restores_onError (seatWin32kCallback_within env _ _ _) (fun s₂ hSame => ⟨hSame.cb, congrArg List.tail hSame.win32k⟩) fun _ s₂ => ?_
      rw [restores_ok (f := fun _ => _) rfl]
      exact restores_pure _ _ _

theorem seatWin32kCallback_client (h : (s₁.win32kCb.head?.bind Win32kCbFrame.client).isSome = true) (func : U64) (args : List U64) (callBase : U64) :
    seatWin32kCallback env func args callBase s₁ = seatClientWinProc env func args callBase s₁ :=
  congrFun (if_pos h) s₁

theorem seatWin32kCallback_plain (h : (s₁.win32kCb.head?.bind Win32kCbFrame.client).isSome = false) (func : U64) (args : List U64) (callBase : U64) :
    seatWin32kCallback env func args callBase s₁ = setupCallArgs env func args env.win32kCbDriver callBase s₁ :=
  congrFun (if_neg (ne_true_of_eq_false h)) s₁

theorem win32kCbAdvance_restores_iff (s : State M) : Restores s (win32kCbAdvance env) s ↔ Call.win32kCbAdvance.Fine env s := by
  rw [win32kCbAdvance, restores_ok (t := s) rfl]
  cases hStack : s.win32kCb with
  | nil =>
    refine iff_of_true (fun e s' h => ?_) fun f hf => ?_
    · cases h
    · rw [hStack] at hf
      cases hf
  | cons f below =>
    dsimp only
    cases hRemaining : f.remaining with
    | cons callee rest =>
      have hFine : Call.win32kCbAdvance.Fine env s ↔ f.SeatsNext env s.mem callee := by
        refine ⟨fun h => h f (by rw [hStack]; rfl) callee (by rw [hRemaining]; rfl), fun h f' hf callee' hCallee => ?_⟩
        rw [hStack] at hf
        cases hf
        rw [hRemaining] at hCallee
        cases hCallee
        exact h
      have hChanged : ∀ s₁ : State M, s₁.win32kCb = { f with remaining := rest } :: below → ¬SameStacks s s₁ := by
        intro s₁ h₁ hSame
        have hTop := (congrArg List.head? (h₁.symm.trans (hSame.win32k.trans hStack))).trans List.head?_cons
        have hRest : rest = callee :: rest := (congrArg Win32kCbFrame.remaining (Option.some.inj hTop)).trans hRemaining
        exact absurd (congrArg List.length hRest).symm (Nat.succ_ne_self _)
      dsimp only
      rw [hFine, restores_ok (f := fun _ => _ >>= fun _ => _) rfl, Win32kCbFrame.SeatsNext]
      cases hClient : f.client.isSome with
      | false =>
        rw [if_neg Bool.false_ne_true]
        refine (restores_congr (seatWin32kCallback_plain env ?_ _ _ _)).trans ?_
        · exact hClient
        · rw [restores_iff (performs_setupCallArgs env _ _ _ _)]
          exact or_iff_left (hChanged _ rfl)
      | true =>
        rw [if_pos rfl]
        refine (restores_congr (seatWin32kCallback_client env ?_ _ _ _)).trans ?_
        · exact hClient
        by_cases hDispatcher : env.clientCbDispatcher = 0
        · refine iff_of_true (fun e s' hRun => ?_) fun hOther => absurd hDispatcher hOther
          rw [seatClientWinProc, if_pos hDispatcher] at hRun
          cases hRun
        · rw [restores_iff (performs_seatClientWinProc env hDispatcher _ _ _)]
          exact (or_iff_left (hChanged _ rfl)).trans ⟨fun h _ => h, fun h => h hDispatcher⟩
    | nil =>
      dsimp only
      rw [restores_ok (f := fun _ => _) rfl, restores_ok (f := fun _ => _) rfl, restores_ok (f := fun _ => _) rfl]
      refine iff_of_true (restores_pure _ _ _) fun f' hf callee hCallee => ?_
      rw [hStack] at hf
      cases hf
      rw [hRemaining] at hCallee
      cases hCallee

end Restores

end Calls

def cramped : State VirtualMemory where
  cpu := ({} : CpuState).setRsp 0x10000
  mem := { VirtualMemory.new with regions := [⟨⟨"stack", 0x10000, 0x1000, Perm.RW⟩, fun _ => 0, 0⟩] }
  cbStack := []
  win32kCb := []
  dlgproc := 0
  dialogHwnd := 0
  dialogResult := none
  pendingProcessExit := none
  syscallGuestRsp := 0
  syscallResumeAsIs := false

end Exemu.Os.Callbacks
