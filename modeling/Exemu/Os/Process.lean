import Exemu.Os.Syscall

/-! # The process: guest code, API calls and system calls of its threads, one at a time

Arguments of a call are the values the call reads, `writes` the results it stores for the guest.
-/
namespace Exemu.Os

inductive Api where
  | createThread (reqStack entry param flags : U64)
  | exitThread (code : U32)
  | threadExit
  | resumeThread (h : Nat)
  | suspendThread (h : Nat)
  | terminateThread (h : Nat) (code : U32)
  | sleep
  | switchToThread
  | createSync (spec : ObjectSpec)
  | openSync (name : Option Name)
  | signalSync (op : SignalOp) (h : Nat) (relCount : Int)
  | signalEvent (h : Nat)
  | waitSingle (h timeout : Nat)
  | waitMultiple (handles : List Nat) (waitAll : Bool) (timeout : Nat)
  | closeHandle (h : Nat)
  | wineUnixCall (req : ServerReq)
  | virtualAlloc (addr size : U64) (committed : Bool)
  | virtualFree (addr : U64)
  | createProcess (suspended : Bool)

inductive Syscall where
  | createThreadEx (reqStack entry param : U64) (suspended : Bool)
  | terminateThread (h : Nat) (code : U32)
  | suspendThread (h : Nat)
  | resumeThread (h : Nat)
  | createEvent (name : Option Name) (manual initial : Bool)
  | openEvent (name : Option Name)
  | setEvent (h : Nat)
  | createMutant (name : Option Name) (owned : Bool)
  | createSemaphore (name : Option Name) (initial max : Int)
  | releaseSemaphore (h : Nat) (release : Int)
  | waitForSingleObject (h : Nat) (timeout : NtTimeout)
  | waitForMultipleObjects (handles : List Nat) (waitType : Nat) (timeout : NtTimeout)
  | deviceIoControlFile (polled : Result Nat)
  | close (h : Nat)
  | allocateVirtualMemory (addr size : U64) (committed : Bool) (maxAddr : U64)
  | freeVirtualMemory (addr : U64)
  | mapViewOfSection (reqBase viewSize : U64) (low : Bool)
  | unmapViewOfSection (base : U64)
  | createUserProcess
  | terminateProcess (h : Nat) (code : Int)

def unclosable (h : Nat) : Bool :=
  h == 2 ^ 64 - 1 || h == 2 ^ 64 - 2 || h == 0x0C || h == 0x10 || h == 0x14

namespace Sys

def withOs (s : Sys) (r : WinOs × Nat) : Sys × Outcome := ({ s with os := r.1 }, .Return r.2)

def withStatus (s : Sys) (r : WinOs × Nat) : Sys × Result Nat := ({ s with os := r.1 }, .ok r.2)

def spawnedApi (r : Sys × Result (Option (Nat × Nat))) : Sys × Outcome :=
  match r with
  | (s, .ok (some (handle, _))) => (s, .Return handle)
  | (s, _) => (s, .Return 0)

def spawnedStatus (r : Sys × Result (Option (Nat × Nat))) : Sys × Result Nat :=
  match r with
  | (s, .ok (some _)) => (s, .ok STATUS_SUCCESS)
  | (s, .ok none) => (s, .ok STATUS_NO_MEMORY)
  | (s, .error e) => (s, .error e)

def completeAndYield (s : Sys) (after : CpuState) : Sys × Outcome :=
  let s := { s with cpu := after }
  (s.yieldAndSwitch.getD s, .Resume)

def callApi (s : Sys) (granted : U64 → Bool) (after : CpuState) : Api → Sys × Outcome
  | .createThread reqStack entry param flags =>
    spawnedApi (s.spawnThread granted reqStack entry param (flags &&& CREATE_SUSPENDED != 0))
  | .exitThread code => s.exitThread code
  | .threadExit => s.threadStartReturned
  | .resumeThread h => s.withOs (s.os.resumeThread h)
  | .suspendThread h => s.withOs (s.os.suspendThread h)
  | .terminateThread h code => s.terminateThread h code
  | .sleep => s.completeAndYield after
  | .switchToThread => s.completeAndYield after
  | .createSync spec => s.withOs ({ s.os with lastError := 0 }.makeObject spec)
  | .openSync name => s.withOs (s.os.openSync name)
  | .signalSync op h relCount => s.withOs (s.os.signalSync op h relCount)
  | .signalEvent h => ({ s with os := (s.os.signalEventHandle h).1 }, .Return 0)
  | .waitSingle h timeout => s.waitSingle h timeout
  | .waitMultiple handles waitAll timeout => s.waitMultiple handles waitAll timeout
  | .closeHandle h => ({ s with os := (s.os.closeHandle h).1 }, .Return 1)
  | .wineUnixCall req => s.wineUnixCall req
  | .virtualAlloc addr size committed =>
    let (s, base) := s.vmAllocRegionBelow granted addr size committed (BitVec.allOnes 64)
    (s, .Return base.toNat)
  | .virtualFree addr => (s.vmRelease addr, .Return 1)
  | .createProcess suspended =>
    let (os, _, th) := s.os.createChild
    let os := if suspended then os else ((os.resumeChildThread th).map (·.1)).getD os
    ({ s with os := os }, .Return 1)

/-- A call that has done its work writes its results to the guest, and fails with the first store that
fails; one that gave way to another thread has nothing to write yet. -/
def writeBack (writes : List Field) (r : Sys × Result Nat) : Sys × Result Nat :=
  match r with
  | (s, .error e) => (s, .error e)
  | (s, .ok status) =>
    if s.os.syscallResumeAsIs then (s, .ok status)
    else
      match s.seed writes with
      | (s, .error e) => (s, .error e)
      | (s, .ok ()) => (s, .ok status)

def ntHandler (granted : U64 → Bool) : Syscall → Handler
  | .createThreadEx reqStack entry param suspended => fun s =>
    if s.os.isWow64 then spawnedStatus (s.spawnWow64Thread granted reqStack entry param suspended)
    else spawnedStatus (s.spawnThread granted reqStack entry param suspended)
  | .terminateThread h code => fun s => s.ntTerminateThread h code
  | .suspendThread h => fun s => s.withStatus (s.os.ntSuspendThread h)
  | .resumeThread h => fun s => s.withStatus (s.os.ntResumeThread h)
  | .createEvent name manual initial => fun s =>
    s.withStatus ((s.os.makeObject ⟨.Event, name, manual, initial, 0, 0⟩).1, STATUS_SUCCESS)
  | .openEvent name => fun s => (s, .ok (s.os.ntOpenEvent name).1)
  | .setEvent h => fun s => s.withStatus (s.os.ntSetEvent h)
  | .createMutant name owned => fun s =>
    s.withStatus ((s.os.makeObject ⟨.Mutex, name, false, owned, 0, 0⟩).1, STATUS_SUCCESS)
  | .createSemaphore name initial max => fun s =>
    let (os, status, _) := s.os.ntCreateSemaphore name initial max
    s.withStatus (os, status)
  | .releaseSemaphore h release => fun s => s.withStatus (s.os.ntReleaseSemaphore h release)
  | .waitForSingleObject h timeout => fun s => s.ntWaitForSingleObject h timeout
  | .waitForMultipleObjects handles waitType timeout => fun s =>
    s.ntWaitForMultipleObjects handles waitType timeout
  | .deviceIoControlFile polled => fun s => s.afdBlock polled
  | .close h => fun s =>
    if unclosable h then (s, .ok STATUS_SUCCESS)
    else
      let (os, closed) := s.os.closeHandle h
      s.withStatus (os, if closed then STATUS_SUCCESS else STATUS_INVALID_HANDLE)
  | .allocateVirtualMemory addr size committed maxAddr => fun s =>
    let (s, base) := s.vmAllocRegionBelow granted addr size committed maxAddr
    (s, .ok (if base = 0 then STATUS_NO_MEMORY else STATUS_SUCCESS))
  | .freeVirtualMemory addr => fun s => (s.vmRelease addr, .ok STATUS_SUCCESS)
  | .mapViewOfSection reqBase viewSize low => fun s =>
    let (s, base) := s.mapView granted reqBase viewSize low
    (s, .ok (if base.isNone then STATUS_NO_MEMORY else STATUS_SUCCESS))
  | .unmapViewOfSection base => fun s =>
    if s.os.vmAllocs.any fun a => a.base == base then (s.vmRelease base, .ok STATUS_SUCCESS)
    else (s, .ok STATUS_INVALID_PARAMETER)
  | .createUserProcess => fun s => s.withStatus (s.os.createChild.1, STATUS_SUCCESS)
  | .terminateProcess h code => fun s =>
    if h = 0 ∨ h = 2 ^ 64 - 1 then
      ({ s with os := { s.os with pendingSyscallExit := some code } }, .ok STATUS_SUCCESS)
    else
      let (os, found) := s.os.terminateChild h
      s.withStatus (os, if found then STATUS_SUCCESS else STATUS_INVALID_HANDLE)

end Sys

inductive Turn where
  /-- `n` instructions of translated code -/
  | native (cpu : CpuState) (stores : List (U64 × List U8)) (n : Nat)
  /-- one interpreted instruction, which may change the mode -/
  | instruction (cpu : CpuState) (stores : List (U64 × List U8)) (mode32 : Bool)
  | api (call : Api) (granted : U64 → Bool) (writes : List Field) (after : CpuState) (mode32 : Bool)
  | syscall (call : Syscall) (granted : U64 → Bool) (writes : List Field) (after : CpuState) (mode32 : Bool)
  /-- modules came or went -/
  | modules (hasTls : Bool)

structure Process where
  sys : Sys
  mode32 : Bool
  exited : Option Int

def applyStores (mem : VirtualMemory) (stores : List (U64 × List U8)) : VirtualMemory :=
  stores.foldl (fun mem w => (mem.write w.1 w.2).toOption.getD mem) mem

namespace Process

def top (p : Process) : Sys := { p.sys with os := { p.sys.os with guestMode32 := p.mode32 } }

/-- `apply_thread_mode_switch`, at the end of every turn. -/
def settle (p : Process) (s : Sys) : Process :=
  { p with
    sys := { s with os := { s.os with pendingModeSwitch := none } }
    mode32 := s.os.pendingModeSwitch.getD p.mode32 }

def goOn (p : Process) (s : Sys) (after : CpuState) (mode32 : Bool) : Process :=
  { p.settle { s with cpu := after } with mode32 := mode32 }

def finishApi (p : Process) (writes : List Field) (after : CpuState) (mode32 : Bool) : Sys × Outcome → Process
  | (s, .Return _) => p.goOn (s.seed writes).1 after mode32
  | (s, .Resume) => p.settle s
  | (s, .Exit code) => { p.settle s with exited := some code }

def finishSyscall (p : Process) (after : CpuState) (mode32 : Bool) : Sys × Result Exit → Process
  | (s, .ok (.ProcessExit code)) => { p.settle s with exited := some code }
  | (s, .ok _) => p.settle s
  | (s, .error _) => p.goOn s after mode32

/-- A turn that begins with the tick of one instruction, unless the tick ends the time slice. -/
def ticked (p : Process) (k : Sys → Process) : Process :=
  match p.top.preemptBy 1 with
  | (s, true) => p.settle s
  | (s, false) => k s

def turn (p : Process) (t : Turn) : Process :=
  if p.exited.isSome then p
  else
    match t with
    | .native cpu stores n =>
      p.settle (({ p.top with cpu := cpu, mem := applyStores p.sys.mem stores } : Sys).preemptBy n).1
    | .instruction cpu stores mode32 =>
      p.ticked fun s => p.goOn { s with mem := applyStores s.mem stores } cpu mode32
    | .api call granted writes after mode32 =>
      p.ticked fun s => p.finishApi writes after mode32 (s.callApi granted after call)
    | .syscall call granted writes after mode32 =>
      p.ticked fun s =>
        p.finishSyscall after mode32
          (s.dispatchSyscall granted fun s => Sys.writeBack writes (Sys.ntHandler granted call s))
    | .modules hasTls => p.settle { p.top with os := { p.top.os with hasTls := hasTls } }

def run (p : Process) (ts : List Turn) : Process := ts.foldl turn p

end Process

def WinOs.new (cfg : WinConfig) (vallocBase exitThunk tlsThunk entryThunk wow64Peb32 : U64)
    (wow64Threading : Option Wow64Threading) : WinOs where
  cfg := cfg
  lastError := 0
  vmAllocs := []
  vallocNext := vallocBase
  nextHandle := 0x1000
  kobjects _ := none
  namedKobjects _ := none
  currentTid := MAIN_TID
  threads := [{ Thread.main MAIN_TID with tebBase := cfg.tebBase }]
  current := 0
  nextTid := MAIN_TID + 1
  threadExitThunk := exitThunk
  threadTlsThunk := tlsThunk
  threadEntryThunk := entryThunk
  hasTls := false
  schedTicks := 0
  children := []
  wow64Peb32 := wow64Peb32
  guestMode32 := false
  pendingModeSwitch := none
  wow64Threading := wow64Threading
  unixStackTop := 0
  syscallGuestRsp := 0
  syscallResumeAsIs := false
  syscallResult64 := none
  pendingSyscallExit := none
  unixCallBlocked := false

/-- A process about to run its main thread, with any memory and any state of the processor. -/
structure Process.Starts (p : Process) : Prop where
  os : ∃ cfg vallocBase exitThunk tlsThunk entryThunk wow64Peb32 wow64Threading,
    p.sys.os = WinOs.new cfg vallocBase exitThunk tlsThunk entryThunk wow64Peb32 wow64Threading
  live : p.exited = none

def GS_BASE : U64 := 0x00007FFF00000000

def Process.boot : Process where
  sys :=
    { os := WinOs.new ⟨true, GS_BASE, GS_BASE + 0x2000⟩ 0x4000000000 0x7EFF00000000 0x7EFF00000010
        0x7EFF00000020 0 none
      cpu := { ({ gsBase := GS_BASE, rip := 0x140001000 } : CpuState).setRsp 0x1000100000 with rflags := 0x202 }
      mem := (do
        let mem ← VirtualMemory.new.map true ⟨"stack", 0x1000000000, 0x200000, Perm.RW⟩
        mem.map true ⟨"teb", GS_BASE, 0x2000, Perm.RW⟩ : Result VirtualMemory).toOption.getD VirtualMemory.new }
  mode32 := false
  exited := none

theorem Process.boot_starts : Process.boot.Starts := ⟨⟨_, _, _, _, _, _, _, rfl⟩, rfl⟩

end Exemu.Os
