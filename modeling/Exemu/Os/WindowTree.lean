import Exemu.Os.Window

/-! # Destroyed windows

A window that is destroyed leaves alone. As long as none has children when it goes, every parent
is in the table and no window comes to the top that was not there before.
-/
namespace Exemu.Os

namespace Windows

def Window.parentHandle (w : Window) : Option U32 := if w.parent = 0 then none else some w.parent

def State.keys (s : State) : List U32 := s.windows.map Prod.fst

variable {s s' : State} {hwnd : U32}

theorem parentHandle_eq_some {w : Window} {p : U32} : w.parentHandle = some p ↔ w.parent ≠ 0 ∧ w.parent = p := by
  unfold Window.parentHandle
  split
  · rename_i hTop
    exact ⟨fun hNo => by (cases hNo), fun hBoth => absurd hTop hBoth.1⟩
  · rename_i hParent
    exact ⟨fun hSome => ⟨hParent, Option.some.inj hSome⟩, fun hBoth => congrArg some hBoth.2⟩

variable {h : U32}

theorem window_isSome : (s.window h).isSome = true ↔ h ∈ s.keys := by
  rw [State.window, List.lookup_isSome_iff]
  constructor
  · rintro ⟨x, hx, hEq⟩
    exact List.mem_map.mpr ⟨x, hx, (beq_iff_eq.mp hEq).symm⟩
  · intro hIn
    obtain ⟨x, hx, hEq⟩ := List.mem_map.mp hIn
    exact ⟨x, hx, beq_iff_eq.mpr hEq.symm⟩

theorem window_mem {w : Window} (hWindow : s.window h = some w) : (h, w) ∈ s.windows := by
  obtain ⟨before, after, hSplit, -⟩ := List.lookup_eq_some_iff.mp hWindow
  rw [hSplit]
  exact List.mem_append_right _ List.mem_cons_self

def InTable (s : State) (h : U32) : Prop := h = 0 ∨ h ∈ s.keys

/-- Every parent is in the table, and what has the input is too. -/
structure Upright (s : State) : Prop where
  closed : Forest.Closed Window.parentHandle s.windows
  capture : InTable s s.capture
  focus : InTable s s.focus
  active : InTable s s.active

theorem upright_new (nextHandle : U64) : Upright (State.new nextHandle) := ⟨Forest.Closed.nil, .inl rfl, .inl rfl, .inl rfl⟩

/-! ## What a destruction does -/

def Under (s : State) : U32 → U32 → Prop := Forest.Under Window.parentHandle s.windows

/-- The window is gone with all that is under it, and no window has come to the top. -/
structure Razed (hwnd : U32) (s s' : State) : Prop where
  gone : ∀ h, h = hwnd ∨ Under s hwnd h → h ∉ s'.keys
  orphans : ∀ h ∈ s'.keys, ¬Under s' hwnd h
  owners : ∀ h ∈ s'.keys, s'.surfaceOwner h = h → s.surfaceOwner h = h
  shown : ∀ h, s'.shownWindow = some h → h ∈ s'.keys ∧ s.surfaceOwner h = h
  input : ∀ h, InTable s' (s'.keyboardTarget h)
  drawn : ∀ h, InTable s' (s'.resolveDcHwnd h)
  visible : ∀ h ∈ s'.keys, s'.chainVisible h = s.chainVisible h
  origin : ∀ h ∈ s'.keys, s'.clientOrigin h = s.clientOrigin h

theorem shownWindow_spec (hShown : s.shownWindow = some h) : h ∈ s.keys ∧ s.surfaceOwner h = h := by
  obtain ⟨x, hFind, rfl⟩ := Option.map_eq_some_iff.mp hShown
  have hHolds := List.find?_some hFind
  exact ⟨List.mem_map_of_mem (List.mem_of_find?_eq_some hFind), of_decide_eq_true (Bool.and_eq_true_iff.mp hHolds).2⟩

theorem shownWindow_inTable : InTable s (s.shownWindow.getD 0) := by
  cases hShown : s.shownWindow with
  | none => exact .inl rfl
  | some h => exact .inr (shownWindow_spec hShown).1

theorem inputRoot_mem {root : U32} (hRoot : s.inputRoot h = some root) : root ∈ s.keys := by
  unfold State.inputRoot at hRoot
  split at hRoot
  · exact (shownWindow_spec hRoot).1
  · obtain ⟨w, hWindow, rfl⟩ := Option.map_eq_some_iff.mp hRoot
    exact window_isSome.mp (Option.isSome_iff_exists.mpr ⟨w, (Option.filter_eq_some_iff.mp hWindow).1⟩)

theorem keyboardTarget_inTable (h : U32) : InTable s (s.keyboardTarget h) := by
  unfold State.keyboardTarget
  split
  · cases hFind : [s.focus, s.active].find? fun h => decide (h ≠ 0) && (s.window h).isSome with
    | none => exact shownWindow_inTable
    | some target =>
      have hHolds := List.find?_some hFind
      exact .inr (window_isSome.mp (Bool.and_eq_true_iff.mp hHolds).2)
  · cases hRoot : s.inputRoot h with
    | none => exact .inl rfl
    | some root =>
      dsimp only
      cases hFind : [s.focus, s.active].find? fun h => decide (h ≠ 0) && (s.window h).isSome && decide (s.surfaceOwner h = root) with
      | none => exact .inr (inputRoot_mem hRoot)
      | some target =>
        have hHolds := List.find?_some hFind
        exact .inr (window_isSome.mp (Bool.and_eq_true_iff.mp (Bool.and_eq_true_iff.mp hHolds).1).2)

theorem resolveDcHwnd_inTable (h : U32) : InTable s (s.resolveDcHwnd h) := by
  unfold State.resolveDcHwnd
  split
  · rename_i hKnown
    exact .inr (window_isSome.mp hKnown.2)
  · cases hFind : (s.windows.map Prod.fst).find? fun h => decide (s.surfaceOwner h = h) with
    | none => exact .inl rfl
    | some target => exact .inr (List.mem_of_find?_eq_some hFind)

section Removal

variable (hWindows : s'.windows = Forest.remove hwnd s.windows)

include hWindows

variable {h : U32}

theorem keys_removed : h ∈ s'.keys ↔ h ∈ s.keys ∧ h ≠ hwnd := by
  rw [State.keys, hWindows]
  exact Forest.key_remove

theorem window_removed (hNe : h ≠ hwnd) : s'.window h = s.window h := by
  rw [State.window, hWindows]
  exact Forest.lookup_remove hNe

variable (hNone : Forest.Childless Window.parentHandle s.windows hwnd)

include hNone

theorem way_up {w : Window} (hNe : h ≠ hwnd) (hWindow : s.window h = some w) : s'.isTop w = s.isTop w ∧ (s.isTop w = false → w.parent ≠ hwnd) := by
  by_cases hParent : w.parent = 0
  · unfold State.isTop
    rw [decide_eq_true hParent]
    exact ⟨rfl, fun hNo => by (cases hNo)⟩
  · have hOther : w.parent ≠ hwnd := fun hEq => hNe (hNone (h, w) (window_mem hWindow) (parentHandle_eq_some.mpr ⟨hParent, hEq⟩))
    unfold State.isTop
    rw [window_removed hWindows hOther]
    exact ⟨rfl, fun _ => hOther⟩

theorem surfaceOwner_removed (hNe : h ≠ hwnd) : s'.surfaceOwner h = s.surfaceOwner h := by
  unfold State.surfaceOwner
  generalize WINDOW_ANCESTRY_MAX = n
  induction n generalizing h with
  | zero => rfl
  | succ n ih =>
    unfold State.surfaceOwnerWithin
    rw [window_removed hWindows hNe]
    cases hWindow : s.window h with
    | none => rfl
    | some w =>
      obtain ⟨hTop, hParent⟩ := way_up hWindows hNone hNe hWindow
      dsimp only
      rw [hTop]
      cases hEnd : s.isTop w with
      | true => rfl
      | false => exact ih (hParent hEnd)

theorem chainVisible_removed (hNe : h ≠ hwnd) : s'.chainVisible h = s.chainVisible h := by
  unfold State.chainVisible
  generalize WINDOW_ANCESTRY_MAX = n
  induction n generalizing h with
  | zero => rfl
  | succ n ih =>
    unfold State.chainVisibleWithin
    rw [window_removed hWindows hNe]
    cases hWindow : s.window h with
    | none => rfl
    | some w =>
      obtain ⟨hTop, hParent⟩ := way_up hWindows hNone hNe hWindow
      dsimp only
      rw [hTop]
      cases hEnd : s.isTop w with
      | true => rfl
      | false => exact congrArg _ (ih (hParent hEnd))

theorem clientOrigin_removed (hNe : h ≠ hwnd) : s'.clientOrigin h = s.clientOrigin h := by
  unfold State.clientOrigin
  generalize WINDOW_ANCESTRY_MAX = n
  generalize ((0, 0) : BitVec 32 × BitVec 32) = origin
  induction n generalizing h origin with
  | zero => rfl
  | succ n ih =>
    unfold State.clientOriginWithin
    rw [window_removed hWindows hNe]
    cases hWindow : s.window h with
    | none => rfl
    | some w =>
      obtain ⟨hTop, hParent⟩ := way_up hWindows hNone hNe hWindow
      dsimp only
      rw [hTop]
      cases hEnd : s.isTop w with
      | true => rfl
      | false => exact ih (hParent hEnd) _

theorem razed : Razed hwnd s s' where
  gone h hGone hIn := by
    refine ((keys_removed hWindows).mp hIn).2 ?_
    rcases hGone with hEq | hUnder
    · exact hEq
    · exact hNone.under hUnder
  orphans h _ hUnder := by
    rw [Under, hWindows] at hUnder
    obtain ⟨x, hx, hNe, hParent⟩ := Forest.Under.of_remove hUnder
    exact hNe (hNone x hx hParent)
  owners h hIn hOwner := by
    rw [← surfaceOwner_removed hWindows hNone ((keys_removed hWindows).mp hIn).2]
    exact hOwner
  shown h hShown := by
    obtain ⟨hIn, hOwner⟩ := shownWindow_spec hShown
    rw [← surfaceOwner_removed hWindows hNone ((keys_removed hWindows).mp hIn).2]
    exact ⟨hIn, hOwner⟩
  input := keyboardTarget_inTable
  drawn := resolveDcHwnd_inTable
  visible h hIn := chainVisible_removed hWindows hNone ((keys_removed hWindows).mp hIn).2
  origin h hIn := clientOrigin_removed hWindows hNone ((keys_removed hWindows).mp hIn).2

end Removal

/-! ## Calls -/

def Call.destroys (s : State) : Call → Option U32
  | .ntUserDestroyWindow hwnd => some hwnd
  | .defWindowProcClose hwnd => some hwnd
  | .cancelUnattendedDialog unattended => if unattended ∧ s.dialog false = none then s.dialog true else none
  | _ => none

def Call.Given (s : State) : Call → Prop
  | .ntUserCreateWindowEx _ _ _ _ parent => InTable s parent
  | _ => True

structure Call.Meets (s : State) (c : Call) : Prop where
  upright : Upright (c.run s)
  razed : ∀ hwnd, c.destroys s = some hwnd → hwnd ∈ s.keys → Razed hwnd s (c.run s)

/-- No window that is destroyed has children, and no handle is shown that names no window. -/
structure Call.Safe (s : State) (c : Call) : Prop where
  childless : ∀ hwnd, c.destroys s = some hwnd → hwnd ∈ s.keys → ∀ x ∈ s.windows, x.2.parent ≠ 0 → x.2.parent = hwnd → x.1 = hwnd
  known : ∀ hwnd cmd, c = .ntUserShowWindow hwnd cmd → cmd ≠ 0 → InTable s hwnd

theorem childless_iff : (∀ x ∈ s.windows, x.2.parent ≠ 0 → x.2.parent = hwnd → x.1 = hwnd) ↔ Forest.Childless Window.parentHandle s.windows hwnd := by
  constructor
  · intro hNone x hx hParent
    obtain ⟨hNe, hEq⟩ := parentHandle_eq_some.mp hParent
    exact hNone x hx hNe hEq
  · exact fun hNone x hx hNe hEq => hNone x hx (parentHandle_eq_some.mpr ⟨hNe, hEq⟩)

theorem any_key : (s.windows.any fun x => decide (x.1 = hwnd)) = true ↔ hwnd ∈ s.keys := by
  rw [List.any_eq_true]
  constructor
  · rintro ⟨x, hx, hEq⟩
    exact List.mem_map.mpr ⟨x, hx, of_decide_eq_true hEq⟩
  · intro hIn
    obtain ⟨x, hx, hEq⟩ := List.mem_map.mp hIn
    exact ⟨x, hx, decide_eq_true hEq⟩

theorem destroyWindow_known (hIn : hwnd ∈ s.keys) : (s.destroyWindow hwnd).2 =
    { s with
      windows := Forest.remove hwnd s.windows
      capture := if s.capture = hwnd then 0 else s.capture
      focus := if s.focus = hwnd then 0 else s.focus
      active := if s.active = hwnd then 0 else s.active } :=
  congrArg Prod.snd (if_pos (any_key.mpr hIn))

theorem destroyWindow_missing (hOut : hwnd ∉ s.keys) : (s.destroyWindow hwnd).2 = s := by
  have hSame : Forest.remove hwnd s.windows = s.windows := by
    refine List.filter_eq_self.mpr fun x hx => decide_eq_true ?_
    rintro rfl
    exact hOut (List.mem_map_of_mem hx)
  calc
    (s.destroyWindow hwnd).2 = { s with windows := Forest.remove hwnd s.windows } :=
      congrArg Prod.snd (if_neg fun hExisted => hOut (any_key.mp hExisted))
    _ = s := by rw [hSame]

theorem InTable.cleared (hIn : InTable s h) (hWindows : s'.windows = Forest.remove hwnd s.windows) : InTable s' (if h = hwnd then 0 else h) := by
  split
  · exact .inl rfl
  · rename_i hNe
    exact hIn.imp_right fun hKey => (keys_removed hWindows).mpr ⟨hKey, hNe⟩

theorem destroyWindow_upright (h : Upright s) (hNone : hwnd ∈ s.keys → Forest.Childless Window.parentHandle s.windows hwnd) :
    Upright (s.destroyWindow hwnd).2 := by
  by_cases hIn : hwnd ∈ s.keys
  · rw [destroyWindow_known hIn]
    exact ⟨h.closed.remove (hNone hIn), h.capture.cleared rfl, h.focus.cleared rfl, h.active.cleared rfl⟩
  · rw [destroyWindow_missing hIn]
    exact h

theorem windowMut_map {f : Window → Window} (hf : ∀ w, (f w).parent = w.parent) :
    (s.windowMut hwnd f).windows.map (fun x => (x.1, x.2.parentHandle)) = s.windows.map fun x => (x.1, x.2.parentHandle) :=
  Forest.map_alter fun w => by rw [Window.parentHandle, Window.parentHandle, hf]

theorem windowMut_keys {f : Window → Window} (hf : ∀ w, (f w).parent = w.parent) : (s.windowMut hwnd f).keys = s.keys := by
  have hFirst := congrArg (List.map Prod.fst) (@windowMut_map s hwnd f hf)
  rw [List.map_map, List.map_map] at hFirst
  exact hFirst

theorem Upright.windowMut (h : Upright s) (hwnd : U32) {f : Window → Window} (hf : ∀ w, (f w).parent = w.parent) : Upright (s.windowMut hwnd f) := by
  have hSlot : ∀ slot, InTable s slot → InTable (s.windowMut hwnd f) slot := by
    intro slot hIn
    rw [InTable, windowMut_keys hf]
    exact hIn
  exact ⟨h.closed.of_map (windowMut_map hf), hSlot _ h.capture, hSlot _ h.focus, hSlot _ h.active⟩

theorem ntUserCreateWindowEx_upright (h : Upright s) (names dispatched : Bool) (rect : Rect) (style : U32) {parent : U32} (hParent : InTable s parent) :
    Upright (s.ntUserCreateWindowEx names dispatched rect style parent).2 := by
  cases names with
  | false => exact h
  | true =>
    have hSlot : ∀ slot, InTable s slot → InTable (s.ntUserCreateWindowEx true dispatched rect style parent).2 slot := by
      refine fun slot hIn => hIn.imp_right fun hKey => ?_
      show slot ∈ (s.windows ++ [_]).map Prod.fst
      rw [List.map_append]
      exact List.mem_append_left _ hKey
    refine ⟨h.closed.append fun p hp => ?_, hSlot _ h.capture, hSlot _ h.focus, hSlot _ h.active⟩
    obtain ⟨hNe, rfl⟩ := parentHandle_eq_some.mp hp
    exact hParent.resolve_left hNe

def showing (s : State) (hwnd : U32) (cmd : BitVec 32) : State :=
  s.windowMut hwnd fun w => { w with shown := decide (cmd ≠ 0), needsPaint := if cmd ≠ 0 then true else w.needsPaint }

theorem ntUserShowWindow_eq (s : State) (hwnd : U32) (cmd : BitVec 32) : (s.ntUserShowWindow hwnd cmd).2 =
    if cmd ≠ 0 ∧ (showing s hwnd cmd).surfaceOwner hwnd = hwnd then { showing s hwnd cmd with active := hwnd } else showing s hwnd cmd := rfl

theorem showing_keys (s : State) (hwnd : U32) (cmd : BitVec 32) : (showing s hwnd cmd).keys = s.keys := windowMut_keys fun _ => rfl

theorem ntUserShowWindow_upright (h : Upright s) {cmd : BitVec 32} (hKnown : cmd ≠ 0 → InTable s hwnd) :
    Upright (s.ntUserShowWindow hwnd cmd).2 := by
  have hShowing : Upright (showing s hwnd cmd) := h.windowMut hwnd fun _ => rfl
  rw [ntUserShowWindow_eq]
  split
  · rename_i hActive
    exact ⟨hShowing.closed, hShowing.capture, hShowing.focus, (hKnown hActive.1).imp_right fun hKey => showing_keys s hwnd cmd ▸ hKey⟩
  · exact hShowing

theorem surfaceOwner_missing (hOut : hwnd ∉ s.keys) : s.surfaceOwner hwnd = hwnd := by
  have hNone : s.window hwnd = none := Option.not_isSome_iff_eq_none.mp fun hSome => hOut (window_isSome.mp hSome)
  unfold State.surfaceOwner
  cases WINDOW_ANCESTRY_MAX with
  | zero => rfl
  | succ n =>
    unfold State.surfaceOwnerWithin
    rw [hNone]

theorem ntUserShowWindow_known {cmd : BitVec 32} (hCmd : cmd ≠ 0) (hAfter : Upright (s.ntUserShowWindow hwnd cmd).2) : InTable s hwnd := by
  by_contra hOut
  have hMissing : hwnd ∉ (showing s hwnd cmd).keys := fun hIn => hOut (.inr (showing_keys s hwnd cmd ▸ hIn))
  rw [ntUserShowWindow_eq, if_pos ⟨hCmd, surfaceOwner_missing hMissing⟩] at hAfter
  exact hOut (hAfter.active.imp_right fun hKey => showing_keys s hwnd cmd ▸ hKey)

theorem Upright.input (h : Upright s) {capture focus active : U32} (hCapture : InTable s capture) (hFocus : InTable s focus)
    (hActive : InTable s active) : Upright { s with capture, focus, active } :=
  ⟨h.closed, hCapture, hFocus, hActive⟩

theorem cancelUnattendedDialog_destroys {unattended : Bool}
    (hDestroys : (if unattended = true ∧ s.dialog false = none then s.dialog true else none) = some hwnd) :
    s.cancelUnattendedDialog unattended = (s.destroyWindow hwnd).2 := by
  split at hDestroys
  · rename_i hBoth
    unfold State.cancelUnattendedDialog
    rw [hBoth.1, hBoth.2, hDestroys]
    rfl
  · cases hDestroys

theorem cancelUnattendedDialog_keeps (h : Upright s) {unattended : Bool}
    (hNone : (if unattended = true ∧ s.dialog false = none then s.dialog true else none) = none) :
    Upright (s.cancelUnattendedDialog unattended) := by
  unfold State.cancelUnattendedDialog
  cases unattended with
  | false => exact h
  | true =>
    rw [if_neg (by decide)]
    cases hFirst : s.dialog false with
    | some asked => exact h.windowMut asked fun _ => rfl
    | none =>
      rw [hFirst, if_pos ⟨rfl, rfl⟩] at hNone
      rw [hNone]
      exact h

variable {c : Call}

theorem run_destroys (hDestroys : c.destroys s = some hwnd) : c.run s = (s.destroyWindow hwnd).2 := by
  cases c with
  | ntUserDestroyWindow h =>
    cases hDestroys
    rfl
  | defWindowProcClose h =>
    cases hDestroys
    rfl
  | cancelUnattendedDialog unattended => exact cancelUnattendedDialog_destroys hDestroys
  | _ => cases hDestroys

theorem run_keeps (h : Upright s) (hGiven : c.Given s) (hNone : c.destroys s = none)
    (hKnown : ∀ hwnd cmd, c = .ntUserShowWindow hwnd cmd → cmd ≠ 0 → InTable s hwnd) : Upright (c.run s) := by
  cases c with
  | ntUserCreateWindowEx names dispatched rect style parent => exact ntUserCreateWindowEx_upright h names dispatched rect style hGiven
  | ntUserDestroyWindow hwnd => cases hNone
  | defWindowProcClose hwnd => cases hNone
  | cancelUnattendedDialog unattended => exact cancelUnattendedDialog_keeps h hNone
  | ntUserShowWindow hwnd cmd => exact ntUserShowWindow_upright h (hKnown hwnd cmd rfl)
  | ntUserSetFocus hwnd =>
    show Upright (s.ntUserSetFocus hwnd).2
    unfold State.ntUserSetFocus
    split
    · exact h
    · rename_i hBoth
      have hSome : (s.window hwnd).isSome = true := Option.isSome_iff_ne_none.mpr fun hNo => hBoth (.inr (Option.isNone_iff_eq_none.mpr hNo))
      exact h.input h.capture (.inr (window_isSome.mp hSome)) h.active
  | setCapture hwnd =>
    show Upright (s.setCapture hwnd).2
    unfold State.setCapture
    split
    · exact h
    · refine h.input ?_ h.focus h.active
      split
      · rename_i hSome
        exact .inr (window_isSome.mp hSome)
      · exact .inl rfl
  | ntUserSetActiveWindow hwnd =>
    show Upright (if (s.window hwnd).isSome then { s with active := hwnd } else s)
    split
    · rename_i hSome
      exact h.input h.capture h.focus (.inr (window_isSome.mp hSome))
    · exact h
  | setDialogInfo hwnd info =>
    show Upright (s.setDialogInfo hwnd info).2
    unfold State.setDialogInfo
    split
    · exact h
    · exact h.windowMut hwnd fun _ => rfl
  | takePaintPending =>
    show Upright s.takePaintPending.2
    unfold State.takePaintPending
    split
    · exact h
    · exact h.windowMut _ fun _ => rfl
  | otherHandle => exact ⟨h.closed, h.capture, h.focus, h.active⟩

theorem Call.Safe.meets (hSafe : c.Safe s) (h : Upright s) (hGiven : c.Given s) : c.Meets s := by
  cases hDestroys : c.destroys s with
  | none => exact ⟨run_keeps h hGiven hDestroys hSafe.known, fun hwnd hSome => by (cases hDestroys.symm.trans hSome)⟩
  | some hwnd =>
    have hNone : hwnd ∈ s.keys → Forest.Childless Window.parentHandle s.windows hwnd :=
      fun hIn => childless_iff.mp (hSafe.childless hwnd hDestroys hIn)
    refine ⟨?_, fun other hSome hIn => ?_⟩
    · rw [run_destroys hDestroys]
      exact destroyWindow_upright h hNone
    · cases hDestroys.symm.trans hSome
      rw [run_destroys hDestroys, destroyWindow_known hIn]
      exact razed rfl (hNone hIn)

theorem Call.Meets.safe (hMeets : c.Meets s) : c.Safe s where
  childless hwnd hDestroys hIn := by
    have hOrphans := (hMeets.razed hwnd hDestroys hIn).orphans
    rw [run_destroys hDestroys, destroyWindow_known hIn] at hOrphans
    exact childless_iff.mpr (Forest.Childless.of_removed fun x hx => hOrphans x.1 (List.mem_map_of_mem hx))
  known hwnd cmd hEq hCmd := by
    subst hEq
    exact ntUserShowWindow_known hCmd hMeets.upright

/-! ## Runs -/

inductive Run (ok : State → Call → Prop) : State → Prop where
  | new (nextHandle : U64) : Run ok (State.new nextHandle)
  | step {s : State} (c : Call) : Run ok s → c.Given s → ok s c → Run ok (c.run s)

/-- After every run of safe calls the table is closed under parents and the input is with windows of
the table; and one more call keeps this, and takes with a window all that is under it, exactly if
that call is safe. -/
theorem Run.window_meets (h : Run Call.Safe s) : Upright s ∧ ∀ c : Call, c.Given s → (c.Meets s ↔ c.Safe s) := by
  have hUpright : Upright s := by
    induction h with
    | new nextHandle => exact upright_new nextHandle
    | step c _ hGiven hSafe ih => exact (hSafe.meets ih hGiven).upright
  exact ⟨hUpright, fun c hGiven => ⟨Call.Meets.safe, fun hSafe => hSafe.meets hUpright hGiven⟩⟩

def aRect : Rect := ⟨10, 10, 200, 100⟩

def dressed : State :=
  (Call.ntUserCreateWindowEx true true aRect WS_VISIBLE 0x1000).run ((Call.ntUserCreateWindowEx true true aRect WS_VISIBLE 0).run (State.new 0x1000))

theorem dressed_run {ok : State → Call → Prop} (hOk : ∀ s rect style parent, ok s (.ntUserCreateWindowEx true true rect style parent)) : Run ok dressed :=
  .step _ (.step _ (.new 0x1000) (.inl rfl) (hOk _ _ _ _)) (.inr (by decide)) (hOk _ _ _ _)

theorem button_destroyed : (Call.ntUserDestroyWindow 0x1004).Meets dressed := by
  have hRun : Run Call.Safe dressed :=
    dressed_run fun s rect style parent => ⟨fun hwnd hDestroys => by (cases hDestroys), fun hwnd cmd hEq => by (cases hEq)⟩
  refine (hRun.window_meets.2 (.ntUserDestroyWindow 0x1004) trivial).mpr ⟨fun hwnd hDestroys _ => ?_, fun hwnd cmd hEq => by (cases hEq)⟩
  cases hDestroys
  decide

/-- The button outlives its window, and is then a window of its own. -/
theorem button_orphaned : Run (fun _ _ => True) dressed ∧ dressed.surfaceOwner 0x1004 = 0x1000 ∧
    ((Call.ntUserDestroyWindow 0x1000).run dressed).shownWindow = some 0x1004 ∧ ¬(Call.ntUserDestroyWindow 0x1000).Meets dressed := by
  refine ⟨dressed_run fun _ _ _ _ => trivial, by decide, by decide, fun hMeets => ?_⟩
  have hShown := (hMeets.razed 0x1000 rfl (by decide)).shown 0x1004 (by decide)
  exact absurd hShown.2 (by decide)

end Windows

end Exemu.Os
