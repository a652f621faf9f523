import Exemu.Core.Memory
import Exemu.Library.Forest

/-! # Windows

The windows are a flat table in the order they were made; a window names its parent by handle.
-/
namespace Exemu.Os

namespace Windows

def WS_VISIBLE : U32 := 0x10000000
def CW_USEDEFAULT : BitVec 32 := 0x80000000
def DEFAULT_X : BitVec 32 := 100
def DEFAULT_Y : BitVec 32 := 100
def DEFAULT_CX : BitVec 32 := 640
def DEFAULT_CY : BitVec 32 := 480
def WINDOW_ANCESTRY_MAX : Nat := 64

structure Rect where
  x : BitVec 32
  y : BitVec 32
  cx : BitVec 32
  cy : BitVec 32
deriving DecidableEq

structure Window where
  rect : Rect
  style : U32
  parent : U32
  shown : Bool
  needsPaint : Bool
  dialogInfo : U64
  dialogCancelled : Bool
deriving DecidableEq

structure State where
  windows : List (U32 × Window)
  capture : U32
  focus : U32
  active : U32
  nextHandle : U64
deriving DecidableEq

namespace State

def window (s : State) (hwnd : U32) : Option Window := s.windows.lookup hwnd

def windowMut (s : State) (hwnd : U32) (f : Window → Window) : State := { s with windows := Forest.alter hwnd f s.windows }

/-! ## The way up -/

def isTop (s : State) (w : Window) : Bool := decide (w.parent = 0) || (s.window w.parent).isNone

def surfaceOwnerWithin (s : State) : Nat → U32 → U32
  | 0, cur => cur
  | n + 1, cur =>
    match s.window cur with
    | none => cur
    | some w => if s.isTop w then cur else surfaceOwnerWithin s n w.parent

def surfaceOwner (s : State) (hwnd : U32) : U32 := s.surfaceOwnerWithin WINDOW_ANCESTRY_MAX hwnd

def chainVisibleWithin (s : State) : Nat → U32 → Bool
  | 0, _ => false
  | n + 1, cur =>
    match s.window cur with
    | none => false
    | some w => if !w.shown then false else if s.isTop w then true else chainVisibleWithin s n w.parent

def chainVisible (s : State) (hwnd : U32) : Bool := s.chainVisibleWithin WINDOW_ANCESTRY_MAX hwnd

def clientOriginWithin (s : State) : Nat → U32 → BitVec 32 × BitVec 32 → BitVec 32 × BitVec 32
  | 0, _, origin => origin
  | n + 1, cur, origin =>
    match s.window cur with
    | none => origin
    | some w => if s.isTop w then origin else clientOriginWithin s n w.parent (origin.1 + w.rect.x, origin.2 + w.rect.y)

def clientOrigin (s : State) (hwnd : U32) : BitVec 32 × BitVec 32 := s.clientOriginWithin WINDOW_ANCESTRY_MAX hwnd (0, 0)

/-! ## Windows that are shown and have the input -/

def shownWindow (s : State) : Option U32 := (s.windows.find? fun x => x.2.shown && decide (s.surfaceOwner x.1 = x.1)).map Prod.fst

def inputRoot (s : State) (hwnd : U32) : Option U32 :=
  if hwnd = 0 then s.shownWindow
  else
    let root := s.surfaceOwner hwnd
    ((s.window root).filter Window.shown).map fun _ => root

def keyboardTarget (s : State) (hwnd : U32) : U32 :=
  if hwnd = 0 then (([s.focus, s.active].find? fun h => decide (h ≠ 0) && (s.window h).isSome).getD (s.shownWindow.getD 0))
  else
    match s.inputRoot hwnd with
    | none => 0
    | some root =>
      ([s.focus, s.active].find? fun h => decide (h ≠ 0) && (s.window h).isSome && decide (s.surfaceOwner h = root)).getD root

def resolveDcHwnd (s : State) (hwnd : U32) : U32 :=
  if hwnd ≠ 0 ∧ (s.window hwnd).isSome then hwnd
  else ((s.windows.map Prod.fst).find? fun h => decide (s.surfaceOwner h = h)).getD 0

/-! ## Calls -/

def allocHandle (s : State) : U32 × State := (s.nextHandle.setWidth 32, { s with nextHandle := s.nextHandle + 4 })

def subst (v default : BitVec 32) : BitVec 32 := if v = CW_USEDEFAULT then default else v

/-- `names` tells whether the class and the title can be read, `dispatched` whether the messages of the
creation can be written. -/
def ntUserCreateWindowEx (names dispatched : Bool) (rect : Rect) (style parent : U32) (s : State) : Option U32 × State :=
  if !names then (none, s)
  else
    let (hwnd, s) := s.allocHandle
    let visible := decide (style &&& WS_VISIBLE ≠ 0)
    let rect := ⟨subst rect.x DEFAULT_X, subst rect.y DEFAULT_Y, subst rect.cx DEFAULT_CX, subst rect.cy DEFAULT_CY⟩
    let s := { s with windows := s.windows ++ [(hwnd, ⟨rect, style, parent, visible, visible, 0, false⟩)] }
    (if dispatched then some hwnd else none, s)

def destroyWindow (s : State) (hwnd : U32) : Bool × State :=
  let existed := s.windows.any fun x => decide (x.1 = hwnd)
  let s := { s with windows := Forest.remove hwnd s.windows }
  if existed then
    (existed,
      { s with
        capture := if s.capture = hwnd then 0 else s.capture
        focus := if s.focus = hwnd then 0 else s.focus
        active := if s.active = hwnd then 0 else s.active })
  else (existed, s)

def ntUserShowWindow (hwnd : U32) (cmd : BitVec 32) (s : State) : Option U32 × State :=
  let wasVisible := ((s.window hwnd).map Window.shown).getD false
  let s := s.windowMut hwnd fun w =>
    { w with shown := decide (cmd ≠ 0), needsPaint := if cmd ≠ 0 then true else w.needsPaint }
  let s := if cmd ≠ 0 ∧ s.surfaceOwner hwnd = hwnd then { s with active := hwnd } else s
  (some (if wasVisible then 1 else 0), s)

def ntUserSetFocus (hwnd : U32) (s : State) : Option U32 × State :=
  if s.focus = hwnd ∨ (s.window hwnd).isNone then (some s.focus, s) else (some s.focus, { s with focus := hwnd })

def setCapture (hwnd : U32) (s : State) : Option U32 × State :=
  if s.capture = hwnd then (some s.capture, s)
  else (some s.capture, { s with capture := if (s.window hwnd).isSome then hwnd else 0 })

def ntUserSetActiveWindow (hwnd : U32) (s : State) : Option U32 × State :=
  (some s.active, if (s.window hwnd).isSome then { s with active := hwnd } else s)

def setDialogInfo (hwnd : U32) (info : U64) (s : State) : Option U32 × State :=
  if (s.window hwnd).isNone then (some 0, s) else (some 1, s.windowMut hwnd fun w => { w with dialogInfo := info })

def takePaintPending (s : State) : Option U32 × State :=
  match s.windows.find? fun x => x.2.needsPaint && s.chainVisible x.1 with
  | none => (none, s)
  | some x => (some x.1, s.windowMut x.1 fun w => { w with needsPaint := false })

def dialog (s : State) (asked : Bool) : Option U32 :=
  (s.windows.reverse.find? fun x => decide (x.2.dialogInfo ≠ 0) && decide (x.2.dialogCancelled = asked)).map Prod.fst

/-- `unattended` tells whether the thread is to quit, with no message and no input left. -/
def cancelUnattendedDialog (unattended : Bool) (s : State) : State :=
  if !unattended then s
  else
    match s.dialog false with
    | some hwnd => s.windowMut hwnd fun w => { w with dialogCancelled := true }
    | none =>
      match s.dialog true with
      | some hwnd => (s.destroyWindow hwnd).2
      | none => s

def new (nextHandle : U64) : State := ⟨[], 0, 0, 0, nextHandle⟩

end State

/-- `otherHandle` stands for a call that takes a handle for something else. -/
inductive Call where
  | ntUserCreateWindowEx (names dispatched : Bool) (rect : Rect) (style parent : U32)
  | ntUserDestroyWindow (hwnd : U32)
  | defWindowProcClose (hwnd : U32)
  | cancelUnattendedDialog (unattended : Bool)
  | ntUserShowWindow (hwnd : U32) (cmd : BitVec 32)
  | ntUserSetFocus (hwnd : U32)
  | setCapture (hwnd : U32)
  | ntUserSetActiveWindow (hwnd : U32)
  | setDialogInfo (hwnd : U32) (info : U64)
  | takePaintPending
  | otherHandle

def Call.run (s : State) : Call → State
  | .ntUserCreateWindowEx names dispatched rect style parent => (s.ntUserCreateWindowEx names dispatched rect style parent).2
  | .ntUserDestroyWindow hwnd => (s.destroyWindow hwnd).2
  | .defWindowProcClose hwnd => (s.destroyWindow hwnd).2
  | .cancelUnattendedDialog unattended => s.cancelUnattendedDialog unattended
  | .ntUserShowWindow hwnd cmd => (s.ntUserShowWindow hwnd cmd).2
  | .ntUserSetFocus hwnd => (s.ntUserSetFocus hwnd).2
  | .setCapture hwnd => (s.setCapture hwnd).2
  | .ntUserSetActiveWindow hwnd => (s.ntUserSetActiveWindow hwnd).2
  | .setDialogInfo hwnd info => (s.setDialogInfo hwnd info).2
  | .takePaintPending => s.takePaintPending.2
  | .otherHandle => s.allocHandle.2

end Windows

end Exemu.Os
