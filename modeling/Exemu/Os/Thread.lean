import Exemu.Core.Cpu
import Exemu.Memory.Virtual
import Exemu.Os.Object

/-! # The thread table and the switch between threads -/
namespace Exemu.Os

def CREATE_SUSPENDED : U64 := 4
def STILL_ACTIVE : U32 := 259
def THREAD_STACK_SIZE : U64 := 0x00100000
def TIMESLICE : Nat := 50000
def THREAD_TEB_SIZE : U64 := 0x4000
def WOW64_THREAD_BLOCK : U64 := 0x8000
def WOW64_THREAD_CPU_AREA : U64 := THREAD_TEB_SIZE + 0x2000
def NT_CURRENT_THREAD : Nat := 2 ^ 64 - 2
def MAIN_TID : Nat := 0x1001

inductive ThreadState where
  | Ready
  | Running
  | Blocked
  | Suspended
  | Terminated
deriving DecidableEq, Repr

structure WaitDesc where
  handles : List Nat
  all : Bool
deriving DecidableEq, Repr

structure Thread where
  tid : Nat
  handle : Nat
  state : ThreadState
  saved : CpuState
  exitCode : U32 := STILL_ACTIVE
  stackBase : U64 := 0
  stackSize : U64 := 0
  tebBase : U64 := 0
  tebOwned : U64 := 0
  suspendCount : Nat := 0
  wait : Option WaitDesc := none
  pendingEntry : Option (U64 × U64) := none
  mode32 : Bool := false
  wow64Block : U64 := 0
  wow64Stack32 : U64 × U64 := (0, 0)

def Thread.main (tid : Nat) : Thread := { tid, handle := 0, state := .Running, saved := {} }

structure WinConfig where
  is64bit : Bool
  tebBase : U64
  pebAddr : U64

structure VmAlloc where
  base : U64
  size : U64
  committed : Bool

inductive ChildState where
  | NotStarted
  | Exited
deriving DecidableEq, Repr

/-- A child process, run to its end inside the call that resumes it. -/
structure ChildProcess where
  processHandle : Nat
  threadHandle : Nat
  state : ChildState
  suspendCount : Nat

structure Wow64Threading where
  ldrpInitialize : U64
  rtlUserThreadStart32 : U64

abbrev Name := List Char

/-- The part of the operating system that threads, objects, waits and system calls share. -/
structure WinOs where
  cfg : WinConfig
  lastError : U32
  vmAllocs : List VmAlloc
  vallocNext : U64
  nextHandle : Nat
  kobjects : Nat → Option KObject
  namedKobjects : Name → Option Nat
  currentTid : Nat
  threads : List Thread
  current : Nat
  nextTid : Nat
  threadExitThunk : U64
  threadTlsThunk : U64
  threadEntryThunk : U64
  /-- there are TLS callbacks or modules to notify -/
  hasTls : Bool
  schedTicks : Nat
  children : List ChildProcess
  wow64Peb32 : U64
  guestMode32 : Bool
  pendingModeSwitch : Option Bool
  wow64Threading : Option Wow64Threading
  unixStackTop : U64
  syscallGuestRsp : U64
  syscallResumeAsIs : Bool
  syscallResult64 : Option U64
  pendingSyscallExit : Option Int
  unixCallBlocked : Bool

structure Sys where
  os : WinOs
  cpu : CpuState
  mem : VirtualMemory

namespace WinOs

def modThread (os : WinOs) (i : Nat) (f : Thread → Thread) : WinOs :=
  { os with threads := os.threads.modify i f }

def waitSatisfiable (os : WinOs) (w : WaitDesc) (tid : Nat) : Bool :=
  let sig := fun h => (os.kobjects h).all (·.isSignaled tid)
  if w.all then w.handles.all sig else w.handles.any sig

def runnable (os : WinOs) (i : Nat) : Bool :=
  match os.threads[i]? with
  | none => false
  | some t =>
    match t.state with
    | .Ready => true
    | .Blocked => t.wait.all fun w => os.waitSatisfiable w t.tid
    | _ => false

/-- The next thread that can run, in the order of the table and starting behind the current one. -/
def pickNext (os : WinOs) : Option Nat :=
  let n := os.threads.length
  ((List.range' 1 (n - 1)).map fun s => (os.current + s) % n).find? os.runnable

def threadByHandle (os : WinOs) (handle : Nat) : Option Nat :=
  os.threads.findIdx? fun t => t.handle == handle && handle != 0

def ntThreadIndex (os : WinOs) (handle : Nat) : Option Nat :=
  if handle = NT_CURRENT_THREAD then some os.current else os.threadByHandle handle

def currentThreadTeb (os : WinOs) : U64 := (os.threads[os.current]?.map (·.tebBase)).getD 0

def allocKhandle (os : WinOs) : Nat × WinOs :=
  (os.nextHandle, { os with nextHandle := os.nextHandle + 4 })

def setObject (os : WinOs) (h : Nat) (o : KObject) : WinOs :=
  { os with kobjects := Function.update os.kobjects h (some o) }

/-- `exited = true` in the object behind a thread's handle. -/
def markExited (os : WinOs) (h : Nat) : WinOs :=
  match os.kobjects h with
  | some (.Thread _) => os.setObject h (.Thread true)
  | _ => os

def isWow64 (os : WinOs) : Bool := os.wow64Peb32 != 0

end WinOs

namespace Sys

/-- The mode of the thread that leaves is noted, the state of the one that comes is loaded. -/
def activate (s : Sys) (next : Nat) : Sys :=
  let os := s.os.modThread s.os.current fun t => { t with mode32 := s.os.guestMode32 }
  match os.threads[next]? with
  | none => s
  | some t =>
    let os := os.modThread next fun t => { t with state := .Running, wait := none }
    { s with
      os := { os with
        pendingModeSwitch := some t.mode32
        current := next
        currentTid := t.tid
        schedTicks := 0 }
      cpu := t.saved }

/-- The current thread's state is saved under `state` before another thread is activated. -/
def park (s : Sys) (state : ThreadState) (wait : Thread → Option WaitDesc) (next : Nat) : Sys :=
  let os := s.os.modThread s.os.current fun t =>
    { t with saved := s.cpu, state := state, wait := wait t }
  { s with os := os }.activate next

def blockAndSwitch (s : Sys) (desc : WaitDesc) : Option Sys :=
  s.os.pickNext.map fun next => s.park .Blocked (fun _ => some desc) next

def yieldAndSwitch (s : Sys) : Option Sys :=
  s.os.pickNext.map fun next => s.park .Ready (·.wait) next

/-- The slice is counted down by `n` instructions; the state and whether another thread took over. -/
def preemptBy (s : Sys) (n : Nat) : Sys × Bool :=
  if s.os.threads.length < 2 then (s, false)
  else
    let ticks := s.os.schedTicks + n
    if ticks < TIMESLICE then ({ s with os := { s.os with schedTicks := ticks } }, false)
    else
      let s : Sys := { s with os := { s.os with schedTicks := 0 } }
      match s.yieldAndSwitch with
      | some s' => (s', true)
      | none => (s, false)

end Sys

/-- How an API call ends: a value for the caller, the end of the process, or a thread as it is. -/
inductive Outcome where
  | Return (value : Nat)
  | Exit (code : Int)
  | Resume
deriving DecidableEq, Repr

end Exemu.Os
