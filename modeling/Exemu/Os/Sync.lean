import Exemu.Os.Thread

/-! # Creating, signalling, waiting for and closing kernel objects -/
namespace Exemu.Os

def WAIT_OBJECT_0 : Nat := 0
def WAIT_TIMEOUT : Nat := 0x102
def STATUS_SUCCESS : Nat := 0
def STATUS_WAIT_0 : Nat := 0
def STATUS_TIMEOUT : Nat := 0x102
def STATUS_NO_MEMORY : Nat := 0xC0000017
def STATUS_PENDING : Nat := 0x103
def STATUS_INVALID_HANDLE : Nat := 0xC0000008
def STATUS_INVALID_PARAMETER : Nat := 0xC000000D
def STATUS_OBJECT_TYPE_MISMATCH : Nat := 0xC0000024
def STATUS_OBJECT_NAME_NOT_FOUND : Nat := 0xC0000034
def STATUS_SEMAPHORE_LIMIT_EXCEEDED : Nat := 0xC0000047
def MAXIMUM_WAIT_OBJECTS : Nat := 64
def SYSCALL_INSN_LEN : U64 := 2

structure ObjectSpec where
  kind : SyncKind
  name : Option Name
  manual : Bool
  signaled : Bool
  count : Int
  max : Int

inductive NtTimeout where
  | Infinite
  | Poll
  | Finite
deriving DecidableEq, Repr

namespace WinOs

def newObject (os : WinOs) (spec : ObjectSpec) : KObject :=
  match spec.kind with
  | .Event => .Event spec.manual spec.signaled
  | .Timer => .Timer spec.manual spec.signaled
  | .Mutex =>
    .Mutex (if spec.signaled then some os.currentTid else none) (if spec.signaled then 1 else 0)
  | .Semaphore => .Semaphore spec.count spec.max

def makeObject (os : WinOs) (spec : ObjectSpec) : WinOs × Nat :=
  match spec.name.bind os.namedKobjects with
  | some h => ({ os with lastError := 183 }, h)
  | none =>
    let obj := os.newObject spec
    let (h, os) := os.allocKhandle
    let os := os.setObject h obj
    match spec.name with
    | some n => ({ os with namedKobjects := Function.update os.namedKobjects n (some h) }, h)
    | none => (os, h)

def openSync (os : WinOs) (name : Option Name) : WinOs × Nat :=
  match name.bind os.namedKobjects with
  | some h => (os, h)
  | none => ({ os with lastError := 2 }, 0)

def ntOpenEvent (os : WinOs) (name : Option Name) : Nat × Option Nat :=
  match name with
  | none => (STATUS_INVALID_PARAMETER, none)
  | some n =>
    match os.namedKobjects n with
    | some h => (STATUS_SUCCESS, some h)
    | none => (STATUS_OBJECT_NAME_NOT_FOUND, none)

def ntCreateSemaphore (os : WinOs) (name : Option Name) (initial max : Int) : WinOs × Nat × Option Nat :=
  if max < 1 ∨ initial < 0 ∨ initial > max then (os, STATUS_INVALID_PARAMETER, none)
  else
    let (os, h) := os.makeObject ⟨.Semaphore, name, false, false, initial, max⟩
    (os, STATUS_SUCCESS, some h)

def signaledBy (op : SignalOp) (tid : Nat) (relCount : Int) (o : KObject) : KObject × Bool :=
  match op, o with
  | .SetEvent, .Event manual _ => (.Event manual true, true)
  | .SetEvent, .Timer manual _ => (.Timer manual true, true)
  | .ResetEvent, .Event manual _ => (.Event manual false, true)
  | .ResetEvent, .Timer manual _ => (.Timer manual false, true)
  | .PulseEvent, .Event manual _ => (.Event manual false, true)
  | .PulseEvent, .Timer manual _ => (.Timer manual false, true)
  | .ReleaseMutex, .Mutex owner recursion =>
    if owner = some tid then
      (.Mutex (if recursion - 1 = 0 then none else owner) (recursion - 1), true)
    else (o, false)
  | .ReleaseSemaphore, .Semaphore count max =>
    let bump := Int.bmod (count + relCount) (2 ^ 32)
    if max > 0 ∧ bump > max then (o, false) else (.Semaphore bump max, true)
  | _, o => (o, false)

def signalSync (os : WinOs) (op : SignalOp) (handle : Nat) (relCount : Int) : WinOs × Nat :=
  match os.kobjects handle with
  | none => (os, 1)
  | some obj =>
    let (obj, ok) := signaledBy op os.currentTid relCount obj
    (os.setObject handle obj, ok.toNat)

def signalEventHandle (os : WinOs) (handle : Nat) : WinOs × Bool :=
  match os.kobjects handle with
  | some (.Event manual _) => (os.setObject handle (.Event manual true), true)
  | some (.Timer manual _) => (os.setObject handle (.Timer manual true), true)
  | _ => (os, false)

def ntSetEvent (os : WinOs) (handle : Nat) : WinOs × Nat :=
  match os.kobjects handle with
  | none => (os, STATUS_INVALID_HANDLE)
  | some (.Event manual _) => (os.setObject handle (.Event manual true), STATUS_SUCCESS)
  | some (.Timer manual _) => (os.setObject handle (.Timer manual true), STATUS_SUCCESS)
  | some _ => (os, STATUS_OBJECT_TYPE_MISMATCH)

def ntReleaseSemaphore (os : WinOs) (handle : Nat) (release : Int) : WinOs × Nat :=
  match os.kobjects handle with
  | none => (os, STATUS_INVALID_HANDLE)
  | some (.Semaphore count max) =>
    if release < 1 then (os, STATUS_INVALID_PARAMETER)
    else if count + release < 2 ^ 31 ∧ (max ≤ 0 ∨ count + release ≤ max) then
      (os.setObject handle (.Semaphore (count + release) max), STATUS_SUCCESS)
    else (os, STATUS_SEMAPHORE_LIMIT_EXCEEDED)
  | some _ => (os, STATUS_OBJECT_TYPE_MISMATCH)

def kobjectAcquire (os : WinOs) (handle tid : Nat) : WinOs × Bool :=
  match os.kobjects handle with
  | none => (os, true)
  | some o => (os.setObject handle (o.acquire tid).1, (o.acquire tid).2)

def acquireAll (os : WinOs) (handles : List Nat) (tid : Nat) : WinOs :=
  handles.foldl (fun os h => (os.kobjectAcquire h tid).1) os

/-- Tries the handles in order; `i` is the position of the first of them. -/
def acquireAny (os : WinOs) (tid : Nat) : List Nat → Nat → WinOs × Option Nat
  | [], _ => (os, none)
  | h :: hs, i =>
    match os.kobjectAcquire h tid with
    | (os, true) => (os, some i)
    | (os, false) => os.acquireAny tid hs (i + 1)

def childByProcessHandle (os : WinOs) (handle : Nat) : Option Nat :=
  os.children.findIdx? (·.processHandle == handle)

def childByThreadHandle (os : WinOs) (handle : Nat) : Option Nat :=
  os.children.findIdx? (·.threadHandle == handle)

def forgetChildHandle (os : WinOs) (handle : Nat) : WinOs :=
  let children :=
    match os.childByProcessHandle handle with
    | some i => os.children.modify i fun c => { c with processHandle := 0 }
    | none => os.children
  let children :=
    match children.findIdx? (·.threadHandle == handle) with
    | some i => children.modify i fun c => { c with threadHandle := 0 }
    | none => children
  { os with children := children.filter fun c => c.processHandle != 0 || c.threadHandle != 0 }

def closeHandle (os : WinOs) (handle : Nat) : WinOs × Bool :=
  match os.kobjects handle with
  | none => (os, false)
  | some _ =>
    let os : WinOs :=
      { os with
        kobjects := Function.update os.kobjects handle none
        namedKobjects := fun n => if os.namedKobjects n = some handle then none else os.namedKobjects n }
    (os.forgetChildHandle handle, true)

def dupKobjectHandle (os : WinOs) (src : Nat) : WinOs × Option Nat :=
  match os.kobjects src with
  | none => (os, none)
  | some dup =>
    let (h, os) := os.allocKhandle
    (os.setObject h dup, some h)

/-- `exited = true` in the objects behind a child's two handles. -/
def markChildExited (os : WinOs) (c : ChildProcess) : WinOs :=
  let os :=
    match os.kobjects c.processHandle with
    | some (.Process _) => os.setObject c.processHandle (.Process true)
    | _ => os
  os.markExited c.threadHandle

def createChild (os : WinOs) : WinOs × Nat × Nat :=
  let (ph, os) := os.allocKhandle
  let (th, os) := os.allocKhandle
  let os := (os.setObject ph (.Process false)).setObject th (.Thread false)
  ({ os with children := os.children ++ [⟨ph, th, .NotStarted, 1⟩] }, ph, th)

def resumeChildThread (os : WinOs) (handle : Nat) : Option (WinOs × Nat) :=
  (os.childByThreadHandle handle).bind fun i =>
    os.children[i]?.map fun c =>
      let count := c.suspendCount - 1
      if count = 0 ∧ c.state = .NotStarted then
        let os : WinOs :=
          { os with children := os.children.set i { c with suspendCount := count, state := .Exited } }
        (os.markChildExited c, c.suspendCount)
      else
        ({ os with children := os.children.set i { c with suspendCount := count } }, c.suspendCount)

def terminateChild (os : WinOs) (handle : Nat) : WinOs × Bool :=
  match os.childByProcessHandle handle with
  | none => (os, false)
  | some i =>
    match os.children[i]? with
    | none => (os, false)
    | some c =>
      if c.state = .NotStarted then
        let os : WinOs := { os with children := os.children.set i { c with state := .Exited } }
        (os.markChildExited c, true)
      else (os, true)

/-- Back to the `SYSCALL` instruction, on the guest's own stack. -/
def rewindSyscall (os : WinOs) (cpu : CpuState) : CpuState :=
  let retRip := cpu.gpr Reg.Rcx
  let cpu := { cpu with rip := retRip - SYSCALL_INSN_LEN, rflags := cpu.gpr Reg.R11 }
  cpu.setRsp os.syscallGuestRsp

end WinOs

namespace Sys

def waitSingle (s : Sys) (handle timeout : Nat) : Sys × Outcome :=
  match s.os.kobjectAcquire handle s.os.currentTid with
  | (os, true) => ({ s with os := os }, .Return WAIT_OBJECT_0)
  | (os, false) =>
    let s := { s with os := os }
    if timeout = 0 then (s, .Return WAIT_TIMEOUT)
    else
      match s.blockAndSwitch ⟨[handle], true⟩ with
      | some s => (s, .Resume)
      | none => (s, .Return WAIT_OBJECT_0)

def waitMultipleBlocks (s : Sys) (handles : List Nat) (waitAll : Bool) (timeout : Nat) : Sys × Outcome :=
  if timeout = 0 then (s, .Return WAIT_TIMEOUT)
  else
    match s.blockAndSwitch ⟨handles, waitAll⟩ with
    | some s => (s, .Resume)
    | none => (s, .Return WAIT_OBJECT_0)

def waitMultiple (s : Sys) (handles : List Nat) (waitAll : Bool) (timeout : Nat) : Sys × Outcome :=
  let tid := s.os.currentTid
  if s.os.waitSatisfiable ⟨handles, waitAll⟩ tid then
    if waitAll then ({ s with os := s.os.acquireAll handles tid }, .Return WAIT_OBJECT_0)
    else
      match s.os.acquireAny tid handles 0 with
      | (os, some i) => ({ s with os := os }, .Return (WAIT_OBJECT_0 + i))
      | (os, none) => waitMultipleBlocks { s with os := os } handles waitAll timeout
  else waitMultipleBlocks s handles waitAll timeout

def ntWait (s : Sys) (handles : List Nat) (all : Bool) (timeout : NtTimeout) : Sys × Result Nat :=
  let tid := s.os.currentTid
  if s.os.waitSatisfiable ⟨handles, all⟩ tid then
    if all then ({ s with os := s.os.acquireAll handles tid }, .ok STATUS_WAIT_0)
    else
      match s.os.acquireAny tid handles 0 with
      | (os, some i) => ({ s with os := os }, .ok (STATUS_WAIT_0 + i))
      | (os, none) => ({ s with os := os }, .ok STATUS_WAIT_0)
  else if timeout = .Poll then (s, .ok STATUS_TIMEOUT)
  else
    let s := { s with cpu := s.os.rewindSyscall s.cpu }
    match s.blockAndSwitch ⟨handles, all⟩ with
    | some s => ({ s with os := { s.os with syscallResumeAsIs := true } }, .ok STATUS_WAIT_0)
    | none =>
      if timeout = .Infinite then (s, .error (.os "guest deadlock"))
      else (s, .ok STATUS_TIMEOUT)

def ntWaitForSingleObject (s : Sys) (handle : Nat) (timeout : NtTimeout) : Sys × Result Nat :=
  if (s.os.kobjects handle).isNone then (s, .ok STATUS_INVALID_HANDLE)
  else s.ntWait [handle] false timeout

/-- `waitType` is 0 for all of the handles and 1 for any of them. -/
def ntWaitForMultipleObjects (s : Sys) (handles : List Nat) (waitType : Nat) (timeout : NtTimeout) :
    Sys × Result Nat :=
  if handles.length = 0 ∨ handles.length > MAXIMUM_WAIT_OBJECTS then (s, .ok STATUS_INVALID_PARAMETER)
  else if waitType > 1 then (s, .ok STATUS_INVALID_PARAMETER)
  else if handles.any fun h => (s.os.kobjects h).isNone then (s, .ok STATUS_INVALID_HANDLE)
  else s.ntWait handles (waitType == 0) timeout

def serverSelectWait (s : Sys) (handles : List Nat) (all : Bool) (timeout : Nat) : Sys × Nat :=
  let tid := s.os.currentTid
  if s.os.waitSatisfiable ⟨handles, all⟩ tid then
    let os := if all then s.os.acquireAll handles tid else (s.os.acquireAny tid handles 0).1
    ({ s with os := os }, STATUS_SUCCESS)
  else if timeout = 0 then (s, STATUS_TIMEOUT)
  else
    match s.blockAndSwitch ⟨handles, all⟩ with
    | some s => ({ s with os := { s.os with unixCallBlocked := true } }, STATUS_PENDING)
    | none => (s, STATUS_SUCCESS)

def srvSelect (s : Sys) (handles : List Nat) (op timeout : Nat) : Sys × Nat :=
  if op > 1 then (s, STATUS_INVALID_PARAMETER)
  else if handles.length = 0 ∨ handles.length > MAXIMUM_WAIT_OBJECTS then (s, STATUS_INVALID_PARAMETER)
  else s.serverSelectWait handles (op == 1) timeout

/-- A wait in the device control of a socket. Any other thread may run meanwhile; without one the
socket is polled, with the result `polled`. -/
def afdBlock (s : Sys) (polled : Result Nat) : Sys × Result Nat :=
  let s := { s with cpu := s.os.rewindSyscall s.cpu }
  match s.blockAndSwitch ⟨[], true⟩ with
  | some s => ({ s with os := { s.os with syscallResumeAsIs := true } }, .ok STATUS_PENDING)
  | none => (s, polled)

end Sys

inductive ServerReq where
  | createEvent (manual initial : Bool)
  | select (handles : List Nat) (op timeout : Nat)
  | closeHandle (handle : Nat)
  | dupHandle (src : Nat)
deriving DecidableEq, Repr

namespace Sys

def wineServerCall (s : Sys) (req : ServerReq) : Sys × Nat :=
  let s : Sys := { s with os := { s.os with unixCallBlocked := false } }
  match req with
  | .createEvent manual initial =>
    let (os, _) := s.os.makeObject ⟨.Event, none, manual, initial, 0, 0⟩
    ({ s with os := os }, STATUS_SUCCESS)
  | .select handles op timeout => s.srvSelect handles op timeout
  | .closeHandle handle =>
    let (os, closed) := s.os.closeHandle handle
    ({ s with os := os }, if closed then STATUS_SUCCESS else STATUS_INVALID_HANDLE)
  | .dupHandle src =>
    let (os, h) := s.os.dupKobjectHandle src
    ({ s with os := os }, if h.isSome then STATUS_SUCCESS else STATUS_INVALID_HANDLE)

/-- The call is made again when the thread runs next, if it was switched out inside it. -/
def wineUnixCall (s : Sys) (req : ServerReq) : Sys × Outcome :=
  let (s, status) := s.wineServerCall req
  if s.os.unixCallBlocked then (s, .Resume) else (s, .Return status)

end Sys

end Exemu.Os
