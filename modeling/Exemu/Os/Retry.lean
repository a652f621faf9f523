import Exemu.Os.Frame
import Exemu.Os.Order

/-! # The call a thread makes again

A wait that cannot be satisfied takes its caller back to the `SYSCALL` instruction before another
thread runs.
-/

namespace Exemu.CpuState

/-- The `SYSCALL` instruction, in `len` bytes. -/
def syscall (cpu : CpuState) (len : U64) : CpuState :=
  let retRip := cpu.rip + len
  let cpu := cpu.setReg Reg.Rcx retRip
  let cpu := cpu.setReg Reg.R11 cpu.rflags
  { cpu with rip := retRip }

end Exemu.CpuState

namespace Exemu.Os

open VirtualMemory

def retry (cpu : CpuState) : CpuState :=
  { cpu with rip := cpu.gpr Reg.Rcx - SYSCALL_INSN_LEN, rflags := cpu.gpr Reg.R11 }

theorem retry_syscall (cpu : CpuState) (len : U64) :
    (retry (cpu.syscall len)).syscall SYSCALL_INSN_LEN = cpu.syscall len := by
  have hRcx : (cpu.syscall len).gpr Reg.Rcx = cpu.rip + len := by
    simp [CpuState.syscall, CpuState.setReg, Reg.Rcx, Reg.R11]
  have hR11 : (cpu.syscall len).gpr Reg.R11 = cpu.rflags := by
    simp [CpuState.syscall, CpuState.setReg]
  have hBack : cpu.rip + len - SYSCALL_INSN_LEN + SYSCALL_INSN_LEN = cpu.rip + len := BitVec.sub_add_cancel _ _
  have hRetry : retry (cpu.syscall len) =
      { cpu.syscall len with rip := cpu.rip + len - SYSCALL_INSN_LEN, rflags := cpu.rflags } := by
    rw [retry, hRcx, hR11]
  rw [hRetry]
  simp only [CpuState.syscall, CpuState.setReg]
  congr 1
  funext i
  by_cases h11 : i = Reg.R11
  · simp [h11]
  · by_cases h1 : i = Reg.Rcx
    · simp [h1, hBack, Function.update_of_ne (show Reg.Rcx ≠ Reg.R11 by decide)]
    · simp [h11, h1]

variable {s : Sys} {granted : U64 → Bool} {p : Process}

theorem rewind_entered {s₁ : Sys} {saved : SavedContext} (hEnter : s.enterSyscall granted = (s₁, .ok saved)) :
    s₁.os.rewindSyscall s₁.cpu = retry s.cpu := by
  have hRsp : s₁.os.syscallGuestRsp = s.cpu.rsp := by
    obtain ⟨next, top, hOs⟩ := s.enterSyscall_os granted
    rw [hEnter] at hOs
    exact congrArg (·.syscallGuestRsp) hOs
  unfold WinOs.rewindSyscall
  rw [(enterSyscall_entered hEnter).cpu, hRsp]
  split
  · simp [clearDf, retry, CpuState.rsp, CpuState.setRsp, CpuState.setReg, Function.update_idem, Reg.Rcx, Reg.R11,
      Reg.Rsp]
  · simp [clearDf, retry, CpuState.rsp, CpuState.setRsp, CpuState.setReg]

/-! ## A wait that gives way -/

namespace WinOs

variable (os : WinOs)

theorem kobjectAcquire_os (h tid : Nat) : ∃ k, (os.kobjectAcquire h tid).1 = { os with kobjects := k } := by
  unfold kobjectAcquire
  split <;> exact ⟨_, rfl⟩

theorem acquireAll_os (handles : List Nat) (tid : Nat) : ∃ k, os.acquireAll handles tid = { os with kobjects := k } := by
  unfold acquireAll
  induction handles generalizing os with
  | nil => exact ⟨os.kobjects, rfl⟩
  | cons h hs ih =>
    obtain ⟨k, hFirst⟩ := os.kobjectAcquire_os h tid
    obtain ⟨k', hRest⟩ := ih { os with kobjects := k }
    refine ⟨k', ?_⟩
    rw [List.foldl_cons, hFirst, hRest]

theorem acquireAny_os (tid : Nat) (handles : List Nat) (i : Nat) :
    ∃ k, (os.acquireAny tid handles i).1 = { os with kobjects := k } := by
  induction handles generalizing os i with
  | nil => exact ⟨os.kobjects, rfl⟩
  | cons h hs ih =>
    obtain ⟨k, hFirst⟩ := os.kobjectAcquire_os h tid
    unfold acquireAny
    split
    · rename_i os' hAcquire
      exact ⟨k, by rw [← hFirst, hAcquire]⟩
    · rename_i os' hAcquire
      obtain ⟨k', hRest⟩ := ih os' (i + 1)
      rw [hAcquire] at hFirst
      dsimp only at hFirst
      subst hFirst
      exact ⟨k', hRest⟩

end WinOs

def Syscall.waits : Syscall → Bool
  | .waitForSingleObject _ _ => true
  | .waitForMultipleObjects _ _ _ => true
  | _ => false

def GivesWay (s s' : Sys) : Prop :=
  ∃ desc next t, HandsOver s s'
    (fun t => { t with saved := s.os.rewindSyscall s.cpu, state := .Blocked, wait := some desc }) next t

section
variable {s : Sys} (hFresh : s.os.syscallResumeAsIs = false) (hCurrent : s.os.current < s.os.threads.length)
include hFresh hCurrent

theorem ntWait_givesWay {handles : List Nat} {all : Bool} {timeout : NtTimeout}
    (hBlocked : (s.ntWait handles all timeout).1.os.syscallResumeAsIs = true) :
    GivesWay s (s.ntWait handles all timeout).1 := by
  have hStays : ∀ k : Nat → Option KObject, { s.os with kobjects := k }.syscallResumeAsIs ≠ true := by
    simp [hFresh]
  unfold Sys.ntWait at hBlocked ⊢
  dsimp only at hBlocked ⊢
  split at hBlocked
  · split at hBlocked
    · obtain ⟨k, hOs⟩ := s.os.acquireAll_os handles s.os.currentTid
      exact absurd (hOs ▸ hBlocked) (hStays k)
    · obtain ⟨k, hOs⟩ := s.os.acquireAny_os s.os.currentTid handles 0
      generalize s.os.acquireAny s.os.currentTid handles 0 = acquired at hBlocked hOs
      obtain ⟨os, _ | i⟩ := acquired <;> exact absurd (hOs ▸ hBlocked) (hStays k)
  · rename_i hUnsat
    split at hBlocked
    · simp [hFresh] at hBlocked
    · rename_i hTimeout
      rw [if_neg hUnsat, if_neg hTimeout]
      cases hBlock : ({ s with cpu := s.os.rewindSyscall s.cpu } : Sys).blockAndSwitch ⟨handles, all⟩ with
      | none =>
        rw [hBlock] at hBlocked
        dsimp only at hBlocked
        split at hBlocked <;> simp [hFresh] at hBlocked
      | some s' =>
        obtain ⟨next, hPick, rfl⟩ := Sys.blockAndSwitch_parks hBlock
        refine ⟨⟨handles, all⟩, next, HandsOver.park { s with cpu := s.os.rewindSyscall s.cpu } hCurrent (.refl _) hPick
          ⟨rfl, rfl, rfl, rfl, rfl, le_rfl⟩ rfl⟩

theorem waits_givesWay {call : Syscall} {granted : U64 → Bool} (hWaits : call.waits = true)
    (hBlocked : (Sys.ntHandler granted call s).1.os.syscallResumeAsIs = true) :
    GivesWay s (Sys.ntHandler granted call s).1 := by
  cases call with
  | waitForSingleObject h timeout =>
    unfold Sys.ntHandler Sys.ntWaitForSingleObject at hBlocked ⊢
    dsimp only at hBlocked ⊢
    split at hBlocked
    · simp [hFresh] at hBlocked
    · rename_i hThere
      rw [if_neg hThere]
      exact ntWait_givesWay hFresh hCurrent hBlocked
  | waitForMultipleObjects handles waitType timeout =>
    unfold Sys.ntHandler Sys.ntWaitForMultipleObjects at hBlocked ⊢
    dsimp only at hBlocked ⊢
    split at hBlocked
    · simp [hFresh] at hBlocked
    · split at hBlocked
      · simp [hFresh] at hBlocked
      · split at hBlocked
        · simp [hFresh] at hBlocked
        · rename_i hCount hType hThere
          rw [if_neg hCount, if_neg hType, if_neg hThere]
          exact ntWait_givesWay hFresh hCurrent hBlocked
  | _ => cases hWaits

end

theorem GivesWay.saves {s' : Sys} (h : GivesWay s s') (hCurrent : s.os.current < s.os.threads.length) :
    s'.os.current ≠ s.os.current ∧ ∃ t, s'.os.threads[s.os.current]? = some t ∧
      t.saved = s.os.rewindSyscall s.cpu ∧ t.mode32 = s.os.guestMode32 := by
  obtain ⟨desc, next, u, hOver⟩ := h
  constructor
  · rw [hOver.current]
    exact hOver.other
  · have hHere := List.getElem?_eq_getElem hCurrent
    rw [hOver.threads, WinOs.handOver_get, WinOs.modThread_get, hHere]
    simp only [Option.map_some, if_true, hOver.other, if_false, Option.some.injEq, exists_eq_left']
    simp [WinOs.modThread]

theorem turn_saves {t : Turn} {call : Syscall} (hCurrent : p.sys.os.current < p.sys.os.threads.length)
    (hLive : (p.turn t).exited = none) (hCalls : p.calls t = some (s, .syscall call granted))
    (hWaits : call.waits = true) (hBlocked : (Sys.ntHandler granted call s).1.os.syscallResumeAsIs = true) :
    (p.turn t).sys.os.current ≠ p.sys.os.current ∧
      ∃ u, (p.turn t).sys.os.threads[p.sys.os.current]? = some u ∧ u.saved = retry p.sys.cpu ∧ u.mode32 = p.mode32 := by
  have hStrands : Call.strands s (.syscall call granted) = false := by
    cases call with
    | terminateThread h code => cases hWaits
    | _ => rfl
  obtain ⟨hFrames, hTurn⟩ := Process.turn_of_call hCalls hStrands
  rcases hTurn with hExit | ⟨-, hSettled⟩
  · simp [hLive] at hExit
  have hHere : s.os.current = p.sys.os.current := hFrames.threads.current
  have hThere : s.os.current < s.os.threads.length := by
    rw [hFrames.threads.threads, hFrames.threads.current]
    exact hCurrent
  cases (Process.calls_made hCalls).2 with
  | «syscall» call granted writes after mode32 s₀ s saved hTurn hFrames₀ hCpu hMem hEnter hResult =>
  have hFresh : s.os.syscallResumeAsIs = false := by
    obtain ⟨next, top, hOs⟩ := s₀.enterSyscall_os granted
    rw [hEnter] at hOs
    exact congrArg (·.syscallResumeAsIs) hOs
  obtain ⟨hAway, u, hGet, hSaved, hMode⟩ := (waits_givesWay hFresh hThere hWaits hBlocked).saves hThere
  have hSame := hSettled.threads
  rw [hSame.threads, hSame.current, ← hHere]
  refine ⟨hAway, u, hGet, ?_, hMode.trans hFrames.threads.mode⟩
  rw [hSaved, rewind_entered hEnter, hCpu]

/-- A thread that gave way in turn `j`, inside a wait, is in front of the same call again when it comes
back: `SYSCALL` takes it to the very state in which it called. -/
structure WaitsRetry (p : Process) (ts : List Turn) : Prop where
  again : ∀ (j k : Nat) (t : Turn) (s : Sys) (call : Syscall) (granted : U64 → Bool), j < k → k < ts.length →
    ts[j]? = some t → (p.run (ts.take j)).calls t = some (s, .syscall call granted) → call.waits = true →
    (Sys.ntHandler granted call s).1.os.syscallResumeAsIs = true →
    (∀ m, j < m → m ≤ k → (p.run (ts.take m)).sys.os.current ≠ (p.run (ts.take j)).sys.os.current) →
    (p.run (ts.take (k + 1))).exited = none →
    (p.run (ts.take (k + 1))).sys.os.current = (p.run (ts.take j)).sys.os.current →
    (p.run (ts.take (k + 1))).sys.cpu = retry (p.run (ts.take j)).sys.cpu ∧
      (p.run (ts.take (k + 1))).mode32 = (p.run (ts.take j)).mode32 ∧
      ∀ (cpu : CpuState) (len : U64), (p.run (ts.take j)).sys.cpu = cpu.syscall len →
        (p.run (ts.take (k + 1))).sys.cpu.syscall SYSCALL_INSN_LEN = (p.run (ts.take j)).sys.cpu

theorem exited_of_run {ts : List Turn} {j k : Nat} (hjk : j ≤ k) (hLive : (p.run (ts.take k)).exited = none) :
    (p.run (ts.take j)).exited = none := by
  induction k, hjk using Nat.le_induction with
  | base => exact hLive
  | succ k hjk ih =>
    cases hTurn : ts[k]? with
    | none =>
      rw [p.run_of_none hTurn] at hLive
      exact ih hLive
    | some t =>
      rw [p.run_succ hTurn] at hLive
      exact ih (exited_of_turn hLive)

theorem run_retries (ts : List Turn) (hStarts : p.Starts) : WaitsRetry p ts where
  again := by
    intro j k t s call granted hjk hk hTurn hCalls hWaits hBlocked hAway hLive hComes
    have hThen := exited_of_run (show j + 1 ≤ k + 1 by omega) hLive
    have hBefore := exited_of_run (show j ≤ k + 1 by omega) hLive
    obtain ⟨-, u, hGet, hSaved, hMode⟩ := turn_saves (run_current hStarts j hBefore)
      (by rw [← p.run_succ hTurn]; exact hThen) hCalls hWaits hBlocked
    rw [← p.run_succ hTurn] at hGet
    obtain ⟨hCpu, hMode32⟩ :=
      run_loads hStarts hjk hk hGet (fun m hjm hmk => hAway m (by omega) hmk) hLive hComes
    rw [hSaved] at hCpu
    refine ⟨hCpu, hMode32.trans hMode, ?_⟩
    intro cpu len hCall
    rw [hCpu, hCall, retry_syscall]

/-! ## Returning and calling again -/

/-- Whatever the handler does to the registers, its caller goes on behind the call as it was there, with
the handler's answer; `spares` is what is asked of the handler. -/
def ReturnsToCaller (spares : Sys → Sys → SavedContext → Prop) (answer : Sys → Nat → U64) (s : Sys)
    (granted : U64 → Bool) (handler : Handler) : Prop :=
  ∀ s₁ saved s' status, s.enterSyscall granted = (s₁, .ok saved) → handler s₁ = (s', .ok status) →
    s'.os.syscallResumeAsIs = false → s'.os.pendingSyscallExit = none → spares s₁ s' saved →
    ∃ r, s.dispatchSyscall granted handler = (r, .ok .Continue) ∧ Returns s.cpu r.cpu ∧
      r.cpu.gpr Reg.Rax = answer s' status

def statusAnswer (_ : Sys) (status : Nat) : U64 := BitVec.ofNat 64 (status % 2 ^ 32)

def ownAnswer (s' : Sys) (status : Nat) : U64 := s'.os.syscallResult64.getD (statusAnswer s' status)

/-- A call whose handler spares the frame returns to its caller, and a wait that gave way is made again. -/
theorem syscall_returns_or_retries :
    (∀ (s : Sys) (granted : U64 → Bool) (handler : Handler), WellFormed s.mem →
      ReturnsToCaller SparesFrame ownAnswer s granted handler) ∧
    ∀ (p : Process) (ts : List Turn), p.Starts → WaitsRetry p ts := by
  constructor
  · intro s granted handler hWf s₁ saved s' status hEnter hHandler hReturns hStays hFrame
    exact dispatch_returns hWf hEnter hHandler hReturns hStays hFrame
  · intro p ts hStarts
    exact run_retries ts hStarts

theorem Process.boot_wellFormed : WellFormed Process.boot.sys.mem := by
  unfold Process.boot
  dsimp only
  cases hStack : VirtualMemory.new.map true ⟨"stack", 0x1000000000, 0x200000, Perm.RW⟩ with
  | error e => exact wellFormed_new
  | ok mem =>
    obtain ⟨-, _, hInsert⟩ := map_ok hStack
    change WellFormed ((mem.map true ⟨"teb", GS_BASE, 0x2000, Perm.RW⟩).toOption.getD .new)
    cases hTeb : mem.map true ⟨"teb", GS_BASE, 0x2000, Perm.RW⟩ with
    | error e => exact wellFormed_new
    | ok mem' =>
      obtain ⟨-, _, hInsert'⟩ := map_ok hTeb
      exact (wellFormed_new.insert hInsert).insert hInsert'

/-- `NtCreateEvent` with its handle to be stored where the caller's RBX is kept. -/
def createsInFrame : Handler := fun s =>
  Sys.writeBack [(GS_BASE + TEB_REGION_SIZE - frame.SIZE, 8, 0x1000)]
    (Sys.ntHandler (fun _ => true) (.createEvent none false false) s)

/-- The handler answers, for its caller to go on, and leaves a state with the property. -/
def answersWith (s : Sys) (granted : U64 → Bool) (handler : Handler) (check : Sys → SavedContext → Sys → Bool) : Bool :=
  match s.enterSyscall granted with
  | (s₁, .ok saved) =>
    match handler s₁ with
    | (s', .ok _) =>
      !s'.os.syscallResumeAsIs && s'.os.pendingSyscallExit.isNone && check s₁ saved s'
    | _ => false
  | _ => false

theorem answersWith_spec {handler : Handler} {check : Sys → SavedContext → Sys → Bool}
    (h : answersWith s granted handler check = true) :
    ∃ s₁ saved s' status, s.enterSyscall granted = (s₁, .ok saved) ∧ handler s₁ = (s', .ok status) ∧
      s'.os.syscallResumeAsIs = false ∧ s'.os.pendingSyscallExit = none ∧ check s₁ saved s' = true := by
  unfold answersWith at h
  split at h
  · rename_i s₁ saved hEnter
    split at h
    · rename_i s' status hHandler
      simp only [Bool.and_eq_true, Bool.not_eq_true', Option.isNone_iff_eq_none] at h
      exact ⟨s₁, saved, s', status, hEnter, hHandler, h.1.1, h.1.2, h.2⟩
    · cases h
  · cases h

theorem overwritten_frame_changes_caller :
    WellFormed Process.boot.sys.mem ∧
      ¬ReturnsToCaller (fun _ _ _ => True) statusAnswer Process.boot.sys (fun _ => true) createsInFrame := by
  refine ⟨Process.boot_wellFormed, fun h => ?_⟩
  have hRun : answersWith Process.boot.sys (fun _ => true) createsInFrame (fun _ _ _ =>
      (Process.boot.sys.dispatchSyscall (fun _ => true) createsInFrame).1.cpu.gpr Reg.Rbx !=
        Process.boot.sys.cpu.gpr Reg.Rbx) = true := by decide
  obtain ⟨s₁, saved, s', status, hEnter, hHandler, hReturns, hStays, hRbx⟩ := answersWith_spec hRun
  obtain ⟨r, hDispatch, hCaller, -⟩ := h s₁ saved s' status hEnter hHandler hReturns hStays trivial
  rw [bne_iff_ne, hDispatch] at hRbx
  exact hRbx (hCaller.gpr 0)

def createsOnStack : Handler := fun s =>
  Sys.writeBack [(0x10000FFFF8, 8, 0x1000)] (Sys.ntHandler (fun _ => true) (.createEvent none false false) s)

def waitsForEvent : List Turn :=
  [.api (.createThread 0 0x140002000 7 0) (fun _ => true) [] {} false,
    .syscall (.createEvent none false false) (fun _ => true) [] {} false,
    .syscall (.waitForSingleObject 0x1004 .Infinite) (fun _ => true) [] {} false,
    .syscall (.setEvent 0x1004) (fun _ => true) [] {} false,
    .api .sleep (fun _ => true) [] {} false]

def sameWord (mem mem' : VirtualMemory) (a : U64) : Bool :=
  match mem.readUint a 8, mem'.readUint a 8 with
  | .ok v, .ok w => v == w
  | _, _ => false

theorem sameWord_spec {mem mem' : VirtualMemory} {a : U64} (h : sameWord mem mem' a = true) :
    ∃ v, mem.readUint a 8 = .ok v ∧ mem'.readUint a 8 = .ok v := by
  unfold sameWord at h
  split at h
  · rename_i v w hv hw
    obtain rfl := of_decide_eq_true h
    exact ⟨v, hv, hw⟩
  · cases h

def sparesFrame (s₁ : Sys) (saved : SavedContext) (s' : Sys) : Bool :=
  match saved with
  | .Teb base => (frame.slots base).all (sameWord s₁.mem s'.mem)
  | .Host _ => false

theorem sparesFrame_spec {s₁ s' : Sys} {saved : SavedContext} (h : sparesFrame s₁ saved s' = true) :
    SparesFrame s₁ s' saved := by
  cases saved with
  | Teb base => exact fun a hMem => sameWord_spec (List.all_eq_true.mp h a hMem)
  | Host ctx => cases h

def waitGivesWay (p : Process) (t : Turn) : Bool :=
  match p.calls t with
  | some (s, .syscall call granted) => call.waits && (Sys.ntHandler granted call s).1.os.syscallResumeAsIs
  | _ => false

theorem waitGivesWay_spec {t : Turn} (h : waitGivesWay p t = true) :
    ∃ s call granted, p.calls t = some (s, .syscall call granted) ∧ call.waits = true ∧
      (Sys.ntHandler granted call s).1.os.syscallResumeAsIs = true := by
  unfold waitGivesWay at h
  split at h
  · rename_i s call granted hCalls
    obtain ⟨hWaits, hBlocked⟩ := (Bool.and_eq_true _ _).mp h
    exact ⟨s, call, granted, hCalls, hWaits, hBlocked⟩
  · cases h

theorem syscall_returns_or_retries_event :
    (∃ r, Process.boot.sys.dispatchSyscall (fun _ => true) createsOnStack = (r, .ok .Continue) ∧
      Returns Process.boot.sys.cpu r.cpu) ∧
    (Process.boot.run (waitsForEvent.take 5)).sys.cpu = retry (Process.boot.run (waitsForEvent.take 2)).sys.cpu := by
  constructor
  · have hRun : answersWith Process.boot.sys (fun _ => true) createsOnStack sparesFrame = true := by decide
    obtain ⟨s₁, saved, s', status, hEnter, hHandler, hReturns, hStays, hFrame⟩ := answersWith_spec hRun
    obtain ⟨r, hDispatch, hCaller, -⟩ := syscall_returns_or_retries.1 _ _ _ Process.boot_wellFormed s₁ saved s' status
      hEnter hHandler hReturns hStays (sparesFrame_spec hFrame)
    exact ⟨r, hDispatch, hCaller⟩
  · have hRun : waitGivesWay (Process.boot.run (waitsForEvent.take 2)) waitsForEvent[2] = true := by decide
    obtain ⟨s, call, granted, hCalls, hWaits, hBlocked⟩ := waitGivesWay_spec hRun
    have hAway : ∀ m, 2 < m → m ≤ 4 → (Process.boot.run (waitsForEvent.take m)).sys.os.current ≠
        (Process.boot.run (waitsForEvent.take 2)).sys.os.current := by
      intro m hLow hHigh
      obtain rfl | rfl : m = 3 ∨ m = 4 := by omega
      all_goals decide
    exact ((syscall_returns_or_retries.2 _ waitsForEvent Process.boot_starts).again 2 4 _ s call granted (by decide)
      (by decide) rfl hCalls hWaits hBlocked hAway (by decide) (by decide)).1

end Exemu.Os
