import Exemu.Core.Memory
import Exemu.Library.Session
import Mathlib.Data.Finset.Basic

/-! # The windows of the host

`WindowModel` turns what becomes of the guest's windows into what the host has to do.
-/
namespace Exemu.Gui

def SW_HIDE : BitVec 32 := 0

inductive WindowCommand where
  | Create (hwnd parent : U32) (x y : BitVec 32) (w h : U32) (visible : Bool) (title : String)
  | SetTitle (hwnd : U32) (title : String)
  | Show (hwnd : U32) (cmd : BitVec 32)
  | Pos (hwnd : U32) (rect : Fin 4 → BitVec 32)
  | Present (hwnd w h : U32) (bgra : List U8)
  | Destroy (hwnd : U32)

inductive HostAction where
  | Open (hwnd w h : U32) (title : String)
  | Title (hwnd : U32) (title : String)
  | Front (hwnd : U32)
  | Hide (hwnd : U32)
  | Resize (hwnd w h : U32)
  | Present (hwnd : U32)
  | Close (hwnd : U32)
deriving DecidableEq

structure Top where
  w : U32
  h : U32
  title : String
  opened : Bool
  shown : Bool
deriving DecidableEq

structure WindowModel where
  order : List U32
  tops : U32 → Option Top
  children : Finset U32

/-- `max(1)`. -/
def atLeastOne (v : U32) : U32 := if v = 0 then 1 else v

/-- `max(0) as u32`. -/
def nonNegative (v : BitVec 32) : U32 := if v.toInt < 0 then 0 else v

namespace WindowModel

def new : WindowModel := ⟨[], fun _ => none, ∅⟩

def isChild (m : WindowModel) (hwnd : U32) : Bool := decide (hwnd ∈ m.children)

def isOpen (m : WindowModel) (hwnd : U32) : Bool := (m.tops hwnd).any (·.opened)

def setTop (m : WindowModel) (hwnd : U32) (top : Top) : WindowModel := { m with tops := Function.update m.tops hwnd (some top) }

/-- `order.push` and `tops.insert`. -/
def addTop (m : WindowModel) (hwnd : U32) (top : Top) : WindowModel := { m.setTop hwnd top with order := m.order ++ [hwnd] }

def forget (m : WindowModel) (hwnd : U32) : WindowModel where
  order := m.order.filter (· ≠ hwnd)
  tops := Function.update m.tops hwnd none
  children := m.children.erase hwnd

def known (m : WindowModel) (hwnd : U32) : Bool := (m.tops hwnd).isSome || m.isChild hwnd

def ensureTop (m : WindowModel) (hwnd w h : U32) (title : String) : List HostAction × WindowModel :=
  let m := if (m.tops hwnd).isSome then m else m.addTop hwnd ⟨w, h, title, false, false⟩
  match m.tops hwnd with
  | none => ([], m)
  | some entry =>
    if entry.opened then ([], m)
    else ([.Open hwnd (atLeastOne entry.w) (atLeastOne entry.h) entry.title], m.setTop hwnd { entry with opened := true })

def show' (m : WindowModel) (hwnd : U32) : List HostAction × WindowModel :=
  let (actions, m) := m.ensureTop hwnd 1 1 "exemu"
  let m := match m.tops hwnd with
    | none => m
    | some top => m.setTop hwnd { top with shown := true }
  (actions ++ [.Front hwnd], m)

def hide (m : WindowModel) (hwnd : U32) : List HostAction × WindowModel :=
  match m.tops hwnd with
  | none => ([], m)
  | some top =>
    if !top.shown then ([], m)
    else (if !top.opened then [] else [.Hide hwnd], m.setTop hwnd { top with shown := false })

def plan (m : WindowModel) : WindowCommand → List HostAction × WindowModel
  | .Create hwnd parent _ _ w h visible title =>
    if parent ≠ 0 ∧ m.known parent then ([], { m with children := insert hwnd m.children })
    else
      let m := (m.forget hwnd).addTop hwnd ⟨w, h, title, false, false⟩
      if !visible then ([], m) else m.show' hwnd
  | .SetTitle hwnd title =>
    match m.tops hwnd with
    | none => ([], m)
    | some top => (if !top.opened then [] else [.Title hwnd title], m.setTop hwnd { top with title := title })
  | .Show hwnd cmd =>
    if (m.tops hwnd).isNone then ([], m)
    else if cmd = SW_HIDE then m.hide hwnd
    else m.show' hwnd
  | .Pos hwnd rect =>
    let w := nonNegative (rect 2)
    let h := nonNegative (rect 3)
    match m.tops hwnd with
    | none => ([], m)
    | some top =>
      if w = 0 ∨ h = 0 ∨ (top.w = w ∧ top.h = h) then ([], m)
      else (if !top.opened then [] else [.Resize hwnd w h], m.setTop hwnd { top with w := w, h := h })
  | .Present hwnd w h _ =>
    if hwnd ∈ m.children then ([], m)
    else
      let (actions, m) :=
        if m.isOpen hwnd then ([], m)
        else
          let m := if (m.tops hwnd).isSome then m else m.addTop hwnd ⟨w, h, "exemu", false, false⟩
          m.show' hwnd
      (actions ++ [.Present hwnd], m)
  | .Destroy hwnd =>
    let m := { m with children := m.children.erase hwnd }
    let wasOpen := m.isOpen hwnd
    (if wasOpen then [.Close hwnd] else [], m.forget hwnd)

def planAll (m : WindowModel) : List WindowCommand → List HostAction × WindowModel
  | [] => ([], m)
  | cmd :: cmds =>
    let (actions, m) := m.plan cmd
    let (rest, m) := m.planAll cmds
    (actions ++ rest, m)

end WindowModel

end Exemu.Gui
