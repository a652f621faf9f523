import Exemu.Core.Memory
import Exemu.Library.Stamp

/-! # The message queues of the threads -/
namespace Exemu.Os

def WM_QUIT : U32 := 0x0012
def WM_CLOSE : U32 := 0x0010
def WM_PAINT : U32 := 0x000F
def WM_KEYDOWN : U32 := 0x0100

structure PostedMsg where
  hwnd : U64
  message : U32
  wparam : U64
  lparam : U64
deriving DecidableEq, Repr

structure MsgThread where
  tid : Nat
  msgs : List PostedMsg := []
  quitCode : Option U32 := none
deriving DecidableEq, Repr

/-- `windows` also tells which thread created a window, of which the system keeps no record. -/
structure MsgState where
  threads : List MsgThread
  current : Nat
  windows : U64 → Option Nat
  lastError : Nat
  runs : current < threads.length

/-- What a retrieval comes upon: a message of the queue, or a `WM_QUIT` made up for a quit code. -/
inductive Found where
  | queued (m : PostedMsg)
  | quit (code : U32)
deriving DecidableEq, Repr

def Found.msg : Found → PostedMsg
  | queued m => m
  | quit code => ⟨0, WM_QUIT, code.setWidth 64, 0⟩

namespace MsgState

def currentThread (s : MsgState) : MsgThread := s.threads.get ⟨s.current, s.runs⟩

def modThread (s : MsgState) (idx : Nat) (f : MsgThread → MsgThread) : MsgState :=
  { s with threads := s.threads.modify idx f, runs := by rw [List.length_modify]; exact s.runs }

def msgTarget (s : MsgState) (_hwnd : U64) : Nat := s.current

def enqueue (s : MsgState) (idx : Nat) (m : PostedMsg) : MsgState :=
  s.modThread idx fun t => { t with msgs := t.msgs ++ [m] }

def postInternal (s : MsgState) (m : PostedMsg) : MsgState := s.enqueue (s.msgTarget m.hwnd) m

def setQuit (s : MsgState) (code : U32) : MsgState :=
  s.modThread s.current fun t => { t with quitCode := some code }

/-- An end of the input asks for `WM_QUIT`, if nothing has yet. -/
def insertQuit (s : MsgState) : MsgState :=
  s.modThread s.current fun t => { t with quitCode := some (t.quitCode.getD 0) }

def msgNext (s : MsgState) : MsgState × Option Found :=
  match s.currentThread.msgs with
  | m :: rest => (s.modThread s.current fun t => { t with msgs := rest }, some (.queued m))
  | [] =>
    match s.currentThread.quitCode with
    | some code => (s.modThread s.current fun t => { t with quitCode := none }, some (.quit code))
    | none => (s, none)

def msgPeek (s : MsgState) (remove : Bool) : MsgState × Option Found :=
  match s.currentThread.msgs with
  | m :: rest =>
    (if remove then s.modThread s.current fun t => { t with msgs := rest } else s, some (.queued m))
  | [] =>
    match s.currentThread.quitCode with
    | some code =>
      (if remove then s.modThread s.current fun t => { t with quitCode := none } else s, some (.quit code))
    | none => (s, none)

def postMessage (s : MsgState) (m : PostedMsg) : MsgState × Nat :=
  if m.message = WM_QUIT then (s.setQuit (m.wparam.setWidth 32), 1)
  else (s.enqueue (s.msgTarget m.hwnd) m, 1)

def postThreadMessage (s : MsgState) (tid : Nat) (message : U32) (wparam lparam : U64) : MsgState × Nat :=
  match s.threads.findIdx? (·.tid == tid) with
  | none => ({ s with lastError := 1444 }, 0)
  | some idx => (s.enqueue idx ⟨0, message, wparam, lparam⟩, 1)

def postQuitMessage (s : MsgState) (code : U32) : MsgState × Nat := (s.setQuit code, 0)

/-! ## The system calls of user32 -/

def ntUserPostMessage (s : MsgState) (m : PostedMsg) : MsgState × Nat :=
  if m.message = WM_QUIT then (s.setQuit (m.wparam.setWidth 32), 1)
  else if m.hwnd ≠ 0 ∧ (s.windows ((m.hwnd.setWidth 32).setWidth 64)).isNone then (s, 0)
  else (s.postInternal m, 1)

/-- A piece of raw input: the window procedure is asked about it, or it turns into messages. -/
inductive RawInput where
  | asked
  | posts (ms : List PostedMsg)

/-- What one round of a retrieval finds outside of the queues; `dialog` is one nobody attends to, and only
there while no raw input waits. -/
structure Round where
  fileDialog : List PostedMsg := []
  headless : Bool := false
  closed : Bool := false
  paint : Option U64 := none
  dialog : Option U64 := none
  input : Option RawInput := none
  closedMeanwhile : Bool := false

def synthesizePaint (s : MsgState) (paint : Option U64) : MsgState :=
  if s.currentThread.msgs ≠ [] then s
  else
    match paint with
    | some hwnd => s.postInternal ⟨hwnd, WM_PAINT, 0, 0⟩
    | none => s

def cancelUnattendedDialog (s : MsgState) (dialog : Option U64) : MsgState :=
  if s.currentThread.quitCode.isNone ∨ s.currentThread.msgs ≠ [] then s
  else
    match dialog with
    | some hwnd => s.postInternal ⟨hwnd, WM_CLOSE, 0, 0⟩
    | none => s

def prepare (s : MsgState) (r : Round) : MsgState :=
  let s := r.fileDialog.foldl postInternal s
  let s := if r.headless then s.insertQuit else s
  let s := if r.closed then s.insertQuit else s
  (s.synthesizePaint r.paint).cancelUnattendedDialog r.dialog

/-! ## Other threads and windows -/

def createThread (s : MsgState) (tid : Nat) : MsgState :=
  { s with
    threads := s.threads ++ [{ tid := tid }]
    runs := by rw [List.length_append]; exact Nat.lt_add_right _ s.runs }

def createWindow (s : MsgState) (hwnd : U64) : MsgState :=
  { s with windows := Function.update s.windows hwnd (some s.current) }

def destroyWindow (s : MsgState) (hwnd : U64) : MsgState :=
  { s with windows := Function.update s.windows hwnd none }

def schedule (s : MsgState) (i : Nat) : MsgState :=
  if h : i < s.threads.length then { s with current := i, runs := h } else s

end MsgState

end Exemu.Os
