import Exemu.Library.Fallible
import Exemu.Os.Message
import Exemu.Os.Window

/-! # Raw input and the windows under it

A piece of raw input turns into a message for one window.
-/
namespace Exemu.Os

namespace HitTest

open Fallible

def WM_KEYUP : U32 := 0x0101
def WM_MOUSEMOVE : U32 := 0x0200
def WM_LBUTTONDOWN : U32 := 0x0201
def WM_LBUTTONUP : U32 := 0x0202
def WM_RBUTTONDOWN : U32 := 0x0204
def WM_RBUTTONUP : U32 := 0x0205
def WM_NCHITTEST : U32 := 0x0084
def WM_MOUSEFIRST : U32 := 0x0200
def WM_MOUSELAST_NC : U32 := 0x020d
def NC_MOUSE_DELTA : U32 := 0x0160
def MK_LBUTTON : U64 := 1
def MK_RBUTTON : U64 := 2
def CLIENT : U64 := 1
def NOWHERE : U64 := 0
def TRANSPARENT : U64 := BitVec.allOnes 64
def HIT_TEST_ROUNDS_MAX : Nat := 8

inductive MouseButton where
  | Left
  | Right
deriving DecidableEq

inductive InputEvent where
  | Close
  | MouseMove (hwnd : U32) (x y : BitVec 32)
  | MouseButton (hwnd : U32) (button : MouseButton) (down : Bool) (x y : BitVec 32)
  | Key (hwnd vk : U32) (down : Bool)
deriving DecidableEq

namespace InputEvent

def hwnd : InputEvent → U32
  | .Close => 0
  | .MouseMove hwnd _ _ => hwnd
  | .MouseButton hwnd _ _ _ _ => hwnd
  | .Key hwnd _ _ => hwnd

def message : InputEvent → Option (U32 × U64)
  | .Close => none
  | .MouseMove .. => some (WM_MOUSEMOVE, 0)
  | .MouseButton _ .Left down _ _ => some (if down then (WM_LBUTTONDOWN, MK_LBUTTON) else (WM_LBUTTONUP, 0))
  | .MouseButton _ .Right down _ _ => some (if down then (WM_RBUTTONDOWN, MK_RBUTTON) else (WM_RBUTTONUP, 0))
  | .Key _ vk down => some (if down then WM_KEYDOWN else WM_KEYUP, vk.setWidth 64)

def point : InputEvent → Option (BitVec 32 × BitVec 32)
  | .MouseMove _ x y => some (x, y)
  | .MouseButton _ _ _ x y => some (x, y)
  | _ => none

def pointOr (ev : InputEvent) : BitVec 32 × BitVec 32 := ev.point.getD (0, 0)

end InputEvent

def packPoint (x y : BitVec 32) : U64 := (x.setWidth 64 &&& 0xffff) ||| ((y.setWidth 64 &&& 0xffff) <<< 16)

/-! ## The windows under a point -/

open Windows (WINDOW_ANCESTRY_MAX)

def clientSize (w : Windows.Window) : BitVec 32 × BitVec 32 :=
  (if w.rect.cx.slt 1 then 1 else w.rect.cx, if w.rect.cy.slt 1 then 1 else w.rect.cy)

def containsPoint (st : Windows.State) (hwnd : U32) (x y : BitVec 32) : Bool :=
  match st.window hwnd with
  | none => false
  | some w =>
    let o := st.clientOrigin hwnd
    o.1.sle x && o.2.sle y && x.slt (o.1 + (clientSize w).1) && y.slt (o.2 + (clientSize w).2)

def childUnder (st : Windows.State) (cur : U32) (x y : BitVec 32) (skip : List U32) : Option U32 :=
  (st.windows.reverse.find? fun p => p.2.parent == cur && p.2.shown && !skip.contains p.1 && containsPoint st p.1 x y).map (·.1)

def windowFromPointWithin (st : Windows.State) (x y : BitVec 32) (skip : List U32) : Nat → U32 → U32
  | 0, cur => cur
  | n + 1, cur =>
    match childUnder st cur x y skip with
    | some h => windowFromPointWithin st x y skip n h
    | none => cur

def windowFromPointIn (st : Windows.State) (root : U32) (x y : BitVec 32) (skip : List U32) : U32 :=
  if skip.contains root || !containsPoint st root x y then 0 else windowFromPointWithin st x y skip WINDOW_ANCESTRY_MAX root

/-- The window that an event with a point is for, but for those that have let it through. -/
def windowUnder (st : Windows.State) (ev : InputEvent) (skip : List U32) : U32 :=
  match st.inputRoot ev.hwnd with
  | none => 0
  | some root => windowFromPointIn st root ev.pointOr.1 ev.pointOr.2 skip

/-! ## State -/

/-- An event whose window procedure is being asked. `id` tells which of the events it is. -/
structure PendingHitTest where
  id : Nat
  ev : InputEvent
  msg : U32
  wparam : U64
  hwnd : U32
  lp : U64
  skipped : List U32
deriving DecidableEq

structure Win32kCbFrame where
  remaining : List (U64 × List U64)
  result : Option U64
  pending : Option PendingHitTest

inductive Fate where
  | posted (m : PostedMsg)
  /-- it is in the `MSG` of a call that says so -/
  | reported (m : PostedMsg)
  /-- with the windows of the time, nobody takes it but those that let it through -/
  | dropped (windows : Windows.State) (skipped : List U32)

structure Desk where
  windows : Windows.State
  wndprocs : U32 → U64
  canCallClient : Bool
  msgs : MsgState
  rawInput : List InputEvent
  /-- the last frame comes first -/
  win32kCb : List Win32kCbFrame
  /-- all events taken from the raw input -/
  taken : List InputEvent
  fates : List (Nat × Fate)
  /-- the event in the `MSG` of the call that is going on -/
  inMsg : Option (Nat × PostedMsg)
  /-- the events for which a window procedure was asked, each time -/
  asked : List Nat
  answers : List (Nat × U32 × U64)

/-- Whether the guest's memory takes what a call writes: the `MSG`, and a callback on the stack. -/
structure Guest where
  fills : Bool
  seats : Bool

inductive Fault where
  | guest

inductive Outcome where
  | returns (r : U64)
  | calls (wndproc : U64) (args : List U64)
  /-- the call is still in its loop -/
  | waits
deriving DecidableEq

abbrev Act := Fallible Desk Fault

namespace Desk

def wndprocFor (s : Desk) (hwnd : U32) : U64 := if (s.windows.window hwnd).isSome then s.wndprocs hwnd else 0

def settle (s : Desk) (id : Nat) (fate : Fate) : Desk := { s with fates := s.fates ++ [(id, fate)] }

def post (s : Desk) (id : Nat) (m : PostedMsg) : Desk := { s with msgs := s.msgs.postInternal m }.settle id (.posted m)

def ask (s : Desk) (id : Nat) : Desk := { s with asked := s.asked ++ [id] }

def lastCb (s : Desk) (f : Win32kCbFrame → Win32kCbFrame) : Desk :=
  match s.win32kCb with
  | [] => s
  | frame :: rest => { s with win32kCb := f frame :: rest }

/-- The caller goes on with this value: an event in its `MSG` is reported to it by a one. -/
def answer (s : Desk) (r : U64) : Desk :=
  { s with fates := s.fates ++ if r = 1 then s.inMsg.toList.map fun p => (p.1, .reported p.2) else [], inMsg := none }

end Desk

def touch (ok : Bool) : Act Unit := fun s => some (if ok then .ok () else .error .guest, s)

/-- `event` is the one the message is made for, if it is made for one. -/
def writeMsgFull (guest : Guest) (lp : U64) (event : Option Nat) (m : PostedMsg) : Act Unit :=
  if lp = 0 then return ()
  else do
    touch guest.fills
    modify fun s => { s with inMsg := event.map fun id => (id, m) }

def returns (r : U64) : Act Outcome := do
  modify fun s => s.answer r
  return .returns r

/-! ## Asking the windows -/

def hitMessage (st : Windows.State) (ev : InputEvent) (msg : U32) (wparam : U64) (hwnd : U32) (code : U64) : PostedMsg :=
  if code = CLIENT then
    ⟨hwnd.setWidth 64, msg, wparam, packPoint (ev.pointOr.1 - (st.clientOrigin hwnd).1) (ev.pointOr.2 - (st.clientOrigin hwnd).2)⟩
  else if WM_MOUSEFIRST ≤ msg ∧ msg ≤ WM_MOUSELAST_NC then
    ⟨hwnd.setWidth 64, msg - NC_MOUSE_DELTA, code, packPoint ev.pointOr.1 ev.pointOr.2⟩
  else ⟨hwnd.setWidth 64, msg, wparam, packPoint ev.pointOr.1 ev.pointOr.2⟩

def deliverHit (guest : Guest) (p : PendingHitTest) (code : U64) : Act Unit := do
  let s ← get
  let m := hitMessage s.windows p.ev p.msg p.wparam p.hwnd code
  if p.lp = 0 then modify fun s => s.post p.id m
  else writeMsgFull guest p.lp (some p.id) m

def Desk.askable (s : Desk) (hwnd : U32) : Bool := s.wndprocFor hwnd != 0 && s.canCallClient

def armHitTest (guest : Guest) (p : PendingHitTest) : Act (Option (U64 × List U64)) := do
  let s ← get
  if !s.askable p.hwnd || decide (HIT_TEST_ROUNDS_MAX ≤ p.skipped.length) then
    deliverHit guest p (if containsPoint s.windows p.hwnd p.ev.pointOr.1 p.ev.pointOr.2 then CLIENT else NOWHERE)
    return none
  else
    modify fun s => s.ask p.id
    return some (s.wndprocFor p.hwnd, [p.hwnd.setWidth 64, WM_NCHITTEST.setWidth 64, 0, packPoint p.ev.pointOr.1 p.ev.pointOr.2])

def callHitTestFromSyscall (guest : Guest) (p : PendingHitTest) : Act Unit := do
  touch guest.seats
  modify fun s => { s with win32kCb := ⟨[], none, some p⟩ :: s.win32kCb }

def beginHitTest (guest : Guest) (p : PendingHitTest) : Act (Option (U64 × List U64)) := do
  match ← armHitTest guest p with
  | some call =>
    callHitTestFromSyscall guest p
    return some call
  | none => return none

/-- Nothing more than the answer of a window procedure: whom to ask next, if anybody. -/
def finishHitTest (guest : Guest) (p : PendingHitTest) (lresult : U64) : Act Unit := do
  modify fun s => { s with answers := s.answers ++ [(p.id, p.hwnd, lresult)] }
  modify fun s => s.lastCb fun frame => { frame with result := some 1 }
  let s ← get
  if lresult = TRANSPARENT then
    let skipped := p.skipped ++ [p.hwnd]
    let next := windowUnder s.windows p.ev skipped
    if next ≠ 0 ∧ next ≠ p.hwnd then
      let p := { p with hwnd := next, skipped := skipped }
      match ← armHitTest guest p with
      | some call => modify fun s => s.lastCb fun frame => { frame with remaining := frame.remaining ++ [call], pending := some p }
      | none => return ()
    else
      modify fun s => s.settle p.id (.dropped s.windows skipped)
      writeMsgFull guest p.lp none ⟨0, 0, 0, 0⟩
  else deliverHit guest p lresult

def nextCall (guest : Guest) (lresult : U64) : Act Outcome := do
  let s ← get
  match s.win32kCb with
  | [] => exhausted
  | frame :: rest =>
    match frame.remaining with
    | (func, args) :: remaining =>
      modify fun s => s.lastCb fun frame => { frame with remaining := remaining }
      touch guest.seats
      return .calls func args
    | [] =>
      modify fun s => { s with win32kCb := rest }
      returns (frame.result.getD lresult)

def win32kCbAdvance (guest : Guest) (lresult : U64) : Act Outcome := do
  let s ← get
  match s.win32kCb with
  | [] => exhausted
  | frame :: _ =>
    match frame.remaining, frame.pending with
    | [], some p =>
      modify fun s => s.lastCb fun frame => { frame with pending := none }
      finishHitTest guest p lresult
    | _, _ => pure ()
    nextCall guest lresult

/-! ## Routing -/

def routeRawInput (guest : Guest) (lp : U64) (id : Nat) (ev : InputEvent) : Act (Option (U64 × List U64)) := do
  let s ← get
  match ev.message with
  | none => return none
  | some (msg, wparam) =>
    match ev.point with
    | none =>
      let target := s.windows.keyboardTarget ev.hwnd
      if target ≠ 0 then modify fun s => s.post id ⟨target.setWidth 64, msg, wparam, 0⟩
      else modify fun s => s.settle id (.dropped s.windows [])
      return none
    | some (x, y) =>
      let capture := s.windows.capture
      if capture ≠ 0 ∧ (s.windows.window capture).isSome then
        let o := s.windows.clientOrigin capture
        modify fun s => s.post id ⟨capture.setWidth 64, msg, wparam, packPoint (x - o.1) (y - o.2)⟩
        return none
      else
        let target := windowUnder s.windows ev []
        if target = 0 then
          modify fun s => s.settle id (.dropped s.windows [])
          return none
        else beginHitTest guest ⟨id, ev, msg, wparam, target, lp, []⟩

def popFront : Act (Option (Nat × InputEvent)) := fun s =>
  match s.rawInput with
  | [] => some (.ok none, s)
  | ev :: rest => some (.ok (some (s.taken.length, ev)), { s with rawInput := rest, taken := s.taken ++ [ev] })

/-! ## The calls -/

/-- What one round of a retrieval finds: the windows as what comes before has left them, and new input,
of which the end is not kept. -/
structure Look where
  round : MsgState.Round
  windows : Windows.State
  wndprocs : U32 → U64
  arrived : List InputEvent

def Desk.prepare (s : Desk) (l : Look) : Desk :=
  { s with windows := l.windows, wndprocs := l.wndprocs, msgs := s.msgs.prepare l.round, rawInput := s.rawInput ++ l.arrived.filter (· ≠ .Close) }

def msgNext : Act (Option Found) := fun s => some (.ok s.msgs.msgNext.2, { s with msgs := s.msgs.msgNext.1 })

def msgPeek (remove : Bool) : Act (Option Found) := fun s => some (.ok (s.msgs.msgPeek remove).2, { s with msgs := (s.msgs.msgPeek remove).1 })

/-- A `WM_QUIT` is not made up yet. -/
def nextIfAny : Act (Option Found) := fun s => if s.msgs.currentThread.msgs ≠ [] then msgNext s else some (.ok none, s)

def peekIfAny (remove : Bool) : Act (Option Found) := fun s => if s.msgs.currentThread.msgs ≠ [] then msgPeek remove s else some (.ok none, s)

def popIf (remove : Bool) : Act (Option (Nat × InputEvent)) := if remove then popFront else return none

def tellMsg (guest : Guest) (lp : U64) (m : PostedMsg) (r : U64) : Act Outcome := do
  writeMsgFull guest lp none m
  returns r

def getResult (m : PostedMsg) : U64 := if m.message = WM_QUIT then 0 else 1

def getRound (guest : Guest) (lp : U64) (l : Look) : Act (Option Outcome) := do
  modify fun s => s.prepare l
  match ← nextIfAny with
  | some f => some <$> tellMsg guest lp f.msg (getResult f.msg)
  | none =>
    match ← popFront with
    | some (id, ev) => return (← routeRawInput guest lp id ev).map fun call => .calls call.1 call.2
    | none =>
      match ← msgNext with
      | some f => some <$> tellMsg guest lp f.msg (getResult f.msg)
      | none =>
        modify fun s => { s with msgs := if l.round.closedMeanwhile then s.msgs.insertQuit else s.msgs }
        return none

def ntUserGetMessage (guest : Guest) (lp : U64) : List Look → Act Outcome
  | [] => return .waits
  | l :: ls => do
    match ← getRound guest lp l with
    | some outcome => return outcome
    | none => ntUserGetMessage guest lp ls

def peekAgain (guest : Guest) (lp : U64) (remove : Bool) : Act Outcome := do
  match ← msgPeek remove with
  | some f => tellMsg guest lp f.msg 1
  | none => returns 0

def ntUserPeekMessage (guest : Guest) (lp : U64) (remove : Bool) (l : Look) : Act Outcome := do
  modify fun s => s.prepare l
  match ← peekIfAny remove with
  | some f => tellMsg guest lp f.msg 1
  | none =>
    match ← popIf remove with
    | some (id, ev) =>
      match ← routeRawInput guest lp id ev with
      | some (func, args) => return .calls func args
      | none =>
        match ← msgPeek true with
        | some f => tellMsg guest lp f.msg 1
        | none => peekAgain guest lp remove
    | none => peekAgain guest lp remove

def callWndprocsFromSyscall (guest : Guest) (calls : List (U64 × List U64)) (result : Option U64) : Act Outcome := do
  let s ← get
  match calls with
  | [] => returns (result.getD 0)
  | (func, args) :: remaining =>
    if !s.canCallClient then returns (result.getD 0)
    else
      touch guest.seats
      modify fun s => { s with win32kCb := ⟨remaining, result, none⟩ :: s.win32kCb }
      return .calls func args

end HitTest

end Exemu.Os
