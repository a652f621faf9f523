import Mathlib.Algebra.Order.Ring.Nat

/-! # Kernel objects -/
namespace Exemu.Os

inductive SyncKind where
  | Event
  | Mutex
  | Semaphore
  | Timer
deriving DecidableEq, Repr

inductive SignalOp where
  | SetEvent
  | ResetEvent
  | PulseEvent
  | ReleaseMutex
  | ReleaseSemaphore
deriving DecidableEq, Repr

/-- Mutex owners are thread ids; recursion counts and semaphore counts are 32-bit and wrap. -/
inductive KObject where
  | Event (manualReset signaled : Bool)
  | Mutex (owner : Option Nat) (recursion : Nat)
  | Semaphore (count max : Int)
  | Timer (manualReset signaled : Bool)
  | Thread (exited : Bool)
  | Process (exited : Bool)
deriving DecidableEq, Repr

namespace KObject

def isSignaled (o : KObject) (tid : Nat) : Bool :=
  match o with
  | Event _ signaled | Timer _ signaled => signaled
  | Semaphore count _ => decide (0 < count)
  | Mutex owner _ => owner.isNone || owner == some tid
  | Thread exited | Process exited => exited

def acquire (o : KObject) (tid : Nat) : KObject × Bool :=
  match o with
  | Event manualReset signaled =>
    if signaled then (Event manualReset manualReset, true) else (o, false)
  | Timer manualReset signaled =>
    if signaled then (Timer manualReset manualReset, true) else (o, false)
  | Semaphore count max => if 0 < count then (Semaphore (count - 1) max, true) else (o, false)
  | Mutex none _ => (Mutex (some tid) 1, true)
  | Mutex (some owner) recursion =>
    if owner = tid then (Mutex (some owner) ((recursion + 1) % 2 ^ 32), true) else (o, false)
  | Thread exited | Process exited => (o, exited)

def owner? : KObject → Option Nat
  | Mutex owner _ => owner
  | _ => none

def isMutex : KObject → Bool
  | Mutex _ _ => true
  | _ => false

variable (o : KObject)

theorem acquire_snd (tid : Nat) : (o.acquire tid).2 = o.isSignaled tid := by
  cases o with
  | Event manualReset signaled => cases signaled <;> rfl
  | Timer manualReset signaled => cases signaled <;> rfl
  | Semaphore count max => by_cases h : 0 < count <;> simp [acquire, isSignaled, h]
  | Mutex owner recursion =>
    cases owner with
    | none => rfl
    | some owner => by_cases h : owner = tid <;> simp [acquire, isSignaled, h]
  | Thread exited => rfl
  | Process exited => rfl

theorem acquire_of_not_signaled {o : KObject} {tid : Nat} (h : o.isSignaled tid = false) :
    (o.acquire tid).1 = o := by
  cases o with
  | Event manualReset signaled => cases signaled <;> first | rfl | cases h
  | Timer manualReset signaled => cases signaled <;> first | rfl | cases h
  | Semaphore count max =>
    have hCount : ¬0 < count := by simpa [isSignaled] using h
    simp [acquire, hCount]
  | Mutex owner recursion =>
    cases owner with
    | none => cases h
    | some owner =>
      have hOwner : owner ≠ tid := by simpa [isSignaled] using h
      simp [acquire, hOwner]
  | Thread exited => rfl
  | Process exited => rfl

theorem isMutex_acquire (tid : Nat) : (o.acquire tid).1.isMutex = o.isMutex := by
  cases o with
  | Mutex owner recursion =>
    cases owner with
    | none => rfl
    | some owner => by_cases h : owner = tid <;> simp [acquire, isMutex, h]
  | Semaphore count max => by_cases h : 0 < count <;> simp [acquire, isMutex, h]
  | Event manualReset signaled => cases signaled <;> rfl
  | Timer manualReset signaled => cases signaled <;> rfl
  | Thread exited => rfl
  | Process exited => rfl

theorem owner?_acquire (tid : Nat) :
    (o.acquire tid).1.owner? = if o.isMutex && o.isSignaled tid then some tid else o.owner? := by
  cases o with
  | Mutex owner recursion =>
    cases owner with
    | none => rfl
    | some owner => by_cases h : owner = tid <;> simp [acquire, isMutex, isSignaled, owner?, h]
  | Semaphore count max => by_cases h : 0 < count <;> simp [acquire, isMutex, owner?, h]
  | Event manualReset signaled => cases signaled <;> rfl
  | Timer manualReset signaled => cases signaled <;> rfl
  | Thread exited => rfl
  | Process exited => rfl

end KObject

end Exemu.Os
