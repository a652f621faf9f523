import Exemu.Gui.Host

/-! # What the host is told

A handle made top-level again while its window is open is forgotten without that window being
closed.
-/
namespace Exemu.Gui

open Session (Event)

namespace HostAction

def hwnd : HostAction → U32
  | .Open hwnd .. => hwnd
  | .Title hwnd _ => hwnd
  | .Front hwnd => hwnd
  | .Hide hwnd => hwnd
  | .Resize hwnd .. => hwnd
  | .Present hwnd => hwnd
  | .Close hwnd => hwnd

def event : HostAction → Event U32
  | .Open hwnd .. => .opens hwnd
  | .Close hwnd => .closes hwnd
  | .Title hwnd _ => .uses hwnd
  | .Front hwnd => .uses hwnd
  | .Hide hwnd => .uses hwnd
  | .Resize hwnd .. => .uses hwnd
  | .Present hwnd => .uses hwnd

end HostAction

def WindowCommand.hwnd : WindowCommand → U32
  | .Create hwnd .. => hwnd
  | .SetTitle hwnd _ => hwnd
  | .Show hwnd _ => hwnd
  | .Pos hwnd _ => hwnd
  | .Present hwnd .. => hwnd
  | .Destroy hwnd => hwnd

namespace WindowModel

variable {m : WindowModel} {hwnd : U32} {top : Top} {cmd : WindowCommand}

structure Listed (m : WindowModel) : Prop where
  once : m.order.Nodup
  tops : ∀ hwnd, hwnd ∈ m.order ↔ (m.tops hwnd).isSome = true

def OnlyChild (m : WindowModel) (hwnd : U32) : Prop := hwnd ∈ m.children ∧ m.tops hwnd = none

def MakesTop (m : WindowModel) : WindowCommand → Prop
  | .Create _ parent .. => ¬(parent ≠ 0 ∧ m.known parent = true)
  | _ => False

def Fresh (m : WindowModel) (cmd : WindowCommand) : Prop := m.MakesTop cmd → m.isOpen cmd.hwnd = false

/-! ## The updates -/

theorem isOpen_setTop (m : WindowModel) (hwnd : U32) (top : Top) : (m.setTop hwnd top).isOpen = Function.update m.isOpen hwnd top.opened := by
  funext h
  unfold isOpen setTop
  by_cases hHere : h = hwnd
  · subst hHere
    simp only [Function.update_self, Option.any_some]
  · simp only [Function.update_of_ne hHere]

theorem isOpen_addTop (m : WindowModel) (hwnd : U32) (top : Top) : (m.addTop hwnd top).isOpen = Function.update m.isOpen hwnd top.opened :=
  isOpen_setTop m hwnd top

theorem isOpen_forget (m : WindowModel) (hwnd : U32) : (m.forget hwnd).isOpen = Function.update m.isOpen hwnd false := by
  funext h
  unfold isOpen forget
  by_cases hHere : h = hwnd
  · subst hHere
    simp only [Function.update_self, Option.any_none]
  · simp only [Function.update_of_ne hHere]

theorem isOpen_of_some (h : m.tops hwnd = some top) : m.isOpen hwnd = top.opened := by
  unfold isOpen
  rw [h, Option.any_some]

variable {top' : Top}

theorem isOpen_reset (h : m.tops hwnd = some top) (hSame : top'.opened = top.opened) : (m.setTop hwnd top').isOpen = m.isOpen := by
  rw [isOpen_setTop, hSame, ← isOpen_of_some h, Function.update_eq_self]

theorem Listed.setTop (hListed : m.Listed) (h : m.tops hwnd ≠ none) (top : Top) : (m.setTop hwnd top).Listed where
  once := hListed.once
  tops k := by
    rw [show (m.setTop hwnd top).order = m.order from rfl, hListed.tops]
    change _ ↔ (Function.update m.tops hwnd (some top) k).isSome = true
    by_cases hHere : k = hwnd
    · subst hHere
      simpa [Option.isSome_iff_ne_none] using h
    · rw [Function.update_of_ne hHere]

theorem Listed.addTop (hListed : m.Listed) (h : m.tops hwnd = none) (top : Top) : (m.addTop hwnd top).Listed where
  once := by
    refine List.nodup_append.mpr ⟨hListed.once, List.nodup_singleton hwnd, ?_⟩
    rintro k hk k' hk' rfl
    rw [List.mem_singleton.mp hk', hListed.tops, h] at hk
    cases hk
  tops k := by
    change k ∈ m.order ++ [hwnd] ↔ (Function.update m.tops hwnd (some top) k).isSome = true
    rw [List.mem_append, List.mem_singleton, hListed.tops]
    by_cases hHere : k = hwnd
    · subst hHere
      simp
    · rw [Function.update_of_ne hHere]
      exact or_iff_left hHere

theorem Listed.forget (hListed : m.Listed) (hwnd : U32) : (m.forget hwnd).Listed where
  once := hListed.once.filter _
  tops k := by
    change k ∈ m.order.filter (· ≠ hwnd) ↔ (Function.update m.tops hwnd none k).isSome = true
    rw [List.mem_filter, hListed.tops]
    by_cases hHere : k = hwnd
    · subst hHere
      simp
    · rw [Function.update_of_ne hHere]
      simp [hHere]

/-! ## Each command -/

structure Plans (m : WindowModel) (hwnd : U32) (out : List HostAction × WindowModel) : Prop where
  session : Session m.isOpen (out.1.map HostAction.event) out.2.isOpen
  listed : m.Listed → out.2.Listed
  concerns : ∀ a ∈ out.1, a.hwnd = hwnd
  told : out.1 ≠ [] → ¬out.2.OnlyChild hwnd

variable {out : List HostAction × WindowModel}

theorem Plans.quiet {m' : WindowModel} (hSame : m'.isOpen = m.isOpen) (hListed : m.Listed → m'.Listed) : Plans m hwnd ([], m') where
  session := by
    rw [hSame]
    exact .nil
  listed := hListed
  concerns _ ha := absurd ha List.not_mem_nil
  told h := absurd rfl h

theorem Plans.silent (m : WindowModel) (hwnd : U32) : Plans m hwnd ([], m) := .quiet rfl id

theorem Plans.of_same {m' : WindowModel} (hSame : m'.isOpen = m.isOpen) (hListed : m.Listed → m'.Listed) (h : Plans m' hwnd out) : Plans m hwnd out where
  session := hSame ▸ h.session
  listed hHere := h.listed (hListed hHere)
  concerns := h.concerns
  told := h.told

theorem Plans.word {a : HostAction} (h : Plans m hwnd out) (hOpen : out.2.isOpen hwnd = true) (ha : a.event = .uses hwnd) (hHere : a.hwnd = hwnd) :
    Plans m hwnd (out.1 ++ [a], out.2) where
  session := by
    rw [List.map_append, List.map_singleton, ha]
    exact h.session.append (Session.one hOpen)
  listed := h.listed
  concerns b hb := by
    rcases List.mem_append.mp hb with hb | hb
    · exact h.concerns b hb
    · rw [List.mem_singleton.mp hb]
      exact hHere
  told _ hOnly := by
    have hNone : out.2.isOpen hwnd = false := by
      unfold isOpen
      rw [hOnly.2, Option.any_none]
    rw [hNone] at hOpen
    cases hOpen

theorem tops_setTop (m : WindowModel) (hwnd : U32) (top : Top) : (m.setTop hwnd top).tops hwnd = some top := Function.update_self ..

theorem not_onlyChild (m : WindowModel) (hwnd : U32) (top : Top) : ¬(m.setTop hwnd top).OnlyChild hwnd := by
  rintro ⟨-, hNone⟩
  rw [tops_setTop] at hNone
  cases hNone

theorem tops_addTop (m : WindowModel) (hwnd : U32) (top : Top) : (m.addTop hwnd top).tops hwnd = some top := Function.update_self ..

theorem Plans.reset {a : HostAction} (h : m.tops hwnd = some top) (hSame : top'.opened = top.opened) (ha : a.event = .uses hwnd)
    (hHere : a.hwnd = hwnd) : Plans m hwnd (if !top.opened then [] else [a], m.setTop hwnd top') where
  session := by
    rw [isOpen_reset h hSame]
    split
    · exact .nil
    · rename_i hOpen
      refine .cons ?_ ?_
      · rw [ha]
        change m.isOpen hwnd = true
        rw [isOpen_of_some h]
        simpa using hOpen
      · rw [ha]
        exact .nil
  listed hListed := hListed.setTop (h ▸ Option.some_ne_none _) top'
  concerns b hb := by
    split at hb
    · exact absurd hb List.not_mem_nil
    · rw [List.mem_singleton.mp hb]
      exact hHere
  told _ := not_onlyChild m hwnd top'

theorem ensureTop_known (h : m.tops hwnd = some top) (w h' : U32) (title : String) :
    m.ensureTop hwnd w h' title = if top.opened then ([], m) else
      ([.Open hwnd (atLeastOne top.w) (atLeastOne top.h) top.title], m.setTop hwnd { top with opened := true }) := by
  simp only [ensureTop, h, Option.isSome_some, if_true]

theorem ensureTop_plans (h : m.tops hwnd = some top) (w h' : U32) (title : String) :
    Plans m hwnd (m.ensureTop hwnd w h' title) ∧ (m.ensureTop hwnd w h' title).2.tops hwnd = some { top with opened := true } := by
  rw [ensureTop_known h]
  split
  · rename_i hOpen
    refine ⟨.silent m hwnd, ?_⟩
    rw [h, ← hOpen]
  · rename_i hOpen
    refine ⟨⟨?_, fun hListed => hListed.setTop (h ▸ Option.some_ne_none _) _, ?_, ?_⟩, tops_setTop m hwnd _⟩
    · rw [isOpen_setTop]
      exact Session.one ((isOpen_of_some h).trans (Bool.eq_false_iff.mpr hOpen))
    · rintro a ha
      rw [List.mem_singleton.mp ha]
      rfl
    · exact fun _ => not_onlyChild m hwnd _

theorem Plans.then_set (h : Plans m hwnd out) (hThere : out.2.tops hwnd = some top) (hSame : top'.opened = top.opened) :
    Plans m hwnd (out.1, out.2.setTop hwnd top') where
  session := by
    rw [isOpen_reset hThere hSame]
    exact h.session
  listed hListed := (h.listed hListed).setTop (hThere ▸ Option.some_ne_none _) top'
  concerns := h.concerns
  told _ := not_onlyChild out.2 hwnd top'

theorem show_plans (h : m.tops hwnd = some top) : Plans m hwnd (m.show' hwnd) ∧ (m.show' hwnd).2.isOpen hwnd = true := by
  obtain ⟨hPlans, hThere⟩ := ensureTop_plans h 1 1 "exemu"
  have hShow : m.show' hwnd = ((m.ensureTop hwnd 1 1 "exemu").1 ++ [.Front hwnd],
      (m.ensureTop hwnd 1 1 "exemu").2.setTop hwnd { top with opened := true, shown := true }) := by
    simp only [show', hThere]
  have hSet : Plans m hwnd ((m.ensureTop hwnd 1 1 "exemu").1, (m.ensureTop hwnd 1 1 "exemu").2.setTop hwnd { top with opened := true, shown := true }) :=
    hPlans.then_set hThere rfl
  have hOpen : ((m.ensureTop hwnd 1 1 "exemu").2.setTop hwnd { top with opened := true, shown := true }).isOpen hwnd = true :=
    isOpen_of_some (tops_setTop _ hwnd _)
  rw [hShow]
  exact ⟨hSet.word hOpen rfl rfl, hOpen⟩

theorem hide_plans (m : WindowModel) (hwnd : U32) : Plans m hwnd (m.hide hwnd) := by
  unfold hide
  split
  · exact .silent m hwnd
  · rename_i top hSome
    split
    · exact .silent m hwnd
    · exact .reset hSome rfl rfl rfl

theorem isOpen_remade (hClosed : m.isOpen hwnd = false) (hNew : top.opened = false) : (m.addTop hwnd top).isOpen = m.isOpen := by
  rw [isOpen_addTop, hNew, ← hClosed, Function.update_eq_self]

theorem create_plans {parent w h : U32} {x y : BitVec 32} {visible : Bool} {title : String}
    (hFresh : m.Fresh (.Create hwnd parent x y w h visible title)) : Plans m hwnd (m.plan (.Create hwnd parent x y w h visible title)) := by
  rw [plan]
  split
  · exact .quiet rfl fun hListed => ⟨hListed.once, hListed.tops⟩
  · rename_i hTop
    have hForgot : (m.forget hwnd).isOpen = m.isOpen := by
      rw [isOpen_forget, ← hFresh hTop]
      exact Function.update_eq_self ..
    have hSame : ((m.forget hwnd).addTop hwnd ⟨w, h, title, false, false⟩).isOpen = m.isOpen :=
      (isOpen_remade (hForgot ▸ hFresh hTop) rfl).trans hForgot
    have hListed (hl : m.Listed) : ((m.forget hwnd).addTop hwnd ⟨w, h, title, false, false⟩).Listed :=
      (hl.forget hwnd).addTop (Function.update_self ..) _
    dsimp only
    split
    · exact .quiet hSame hListed
    · exact .of_same hSame hListed (show_plans (tops_addTop _ hwnd _)).1

theorem present_plans (m : WindowModel) (hwnd w h : U32) (bgra : List U8) : Plans m hwnd (m.plan (.Present hwnd w h bgra)) := by
  rw [plan]
  split
  · exact .silent m hwnd
  · dsimp only
    by_cases hOpen : m.isOpen hwnd = true
    · rw [if_pos hOpen]
      exact (Plans.silent m hwnd).word hOpen rfl rfl
    · rw [if_neg hOpen]
      cases hTop : m.tops hwnd with
      | some top =>
        rw [Option.isSome_some, if_pos rfl]
        obtain ⟨hPlans, hShown⟩ := show_plans hTop
        exact hPlans.word hShown rfl rfl
      | none =>
        rw [Option.isSome_none, if_neg Bool.false_ne_true]
        obtain ⟨hPlans, hShown⟩ := show_plans (tops_addTop m hwnd ⟨w, h, "exemu", false, false⟩)
        have hSame := isOpen_remade (Bool.eq_false_iff.mpr hOpen) (show (⟨w, h, "exemu", false, false⟩ : Top).opened = false from rfl)
        exact (Plans.of_same hSame (fun hListed => hListed.addTop hTop _) hPlans).word hShown rfl rfl

theorem destroy_plans (m : WindowModel) (hwnd : U32) : Plans m hwnd (m.plan (.Destroy hwnd)) where
  session := by
    change Session m.isOpen (List.map _ (if m.isOpen hwnd then _ else _)) (WindowModel.isOpen (forget { m with children := m.children.erase hwnd } hwnd))
    rw [isOpen_forget]
    change Session m.isOpen _ (Function.update m.isOpen hwnd false)
    split
    · rename_i hOpen
      exact Session.one hOpen
    · rename_i hClosed
      rw [← Bool.eq_false_iff.mpr hClosed, Function.update_eq_self]
      exact .nil
  listed hListed := Listed.forget (m := { m with children := m.children.erase hwnd }) ⟨hListed.once, hListed.tops⟩ hwnd
  concerns a ha := by
    change a ∈ (if m.isOpen hwnd then [HostAction.Close hwnd] else []) at ha
    split at ha
    · rw [List.mem_singleton.mp ha]
      rfl
    · exact absurd ha List.not_mem_nil
  told _ hOnly := Finset.notMem_erase hwnd _ hOnly.1

theorem plan_plans (hFresh : m.Fresh cmd) : Plans m cmd.hwnd (m.plan cmd) := by
  cases cmd with
  | Create hwnd parent x y w h visible title => exact create_plans hFresh
  | SetTitle hwnd title =>
    rw [plan]
    split
    · exact .silent m hwnd
    · rename_i top hSome
      exact .reset hSome rfl rfl rfl
  | Show hwnd cmd =>
    rw [plan]
    split
    · exact .silent m hwnd
    · rename_i hSome
      split
      · exact hide_plans m hwnd
      · cases hTop : m.tops hwnd with
        | none => exact absurd (hTop ▸ rfl) hSome
        | some top => exact (show_plans hTop).1
  | Pos hwnd rect =>
    rw [plan]
    split
    · exact .silent m hwnd
    · rename_i top hSome
      split
      · exact .silent m hwnd
      · exact .reset hSome rfl rfl rfl
  | Present hwnd w h bgra => exact present_plans m hwnd w h bgra
  | Destroy hwnd => exact destroy_plans m hwnd

theorem onlyChild_silent (hOnly : m.OnlyChild cmd.hwnd) (hNot : ¬m.MakesTop cmd) : (m.plan cmd).1 = [] := by
  obtain ⟨hChild, hNone⟩ := hOnly
  cases cmd with
  | Create hwnd parent x y w h visible title =>
    rw [plan]
    rw [if_pos (not_not.mp hNot)]
  | SetTitle hwnd title =>
    rw [plan]
    rw [show m.tops hwnd = none from hNone]
  | Show hwnd cmd =>
    rw [plan]
    rw [show m.tops hwnd = none from hNone]
    rfl
  | Pos hwnd rect =>
    rw [plan]
    rw [show m.tops hwnd = none from hNone]
  | Present hwnd w h bgra =>
    rw [plan]
    rw [if_pos (show hwnd ∈ m.children from hChild)]
  | Destroy hwnd =>
    have hClosed : m.isOpen hwnd = false := by
      unfold isOpen
      rw [show m.tops hwnd = none from hNone, Option.any_none]
    change (if m.isOpen hwnd then _ else _) = _
    rw [hClosed, if_neg Bool.false_ne_true]

/-! ## Every run -/

def AllFresh (m : WindowModel) : List WindowCommand → Prop
  | [] => True
  | cmd :: cmds => m.Fresh cmd ∧ (m.plan cmd).2.AllFresh cmds

theorem planAll_session {cmds : List WindowCommand} (hFresh : m.AllFresh cmds) :
    Session m.isOpen ((m.planAll cmds).1.map HostAction.event) (m.planAll cmds).2.isOpen := by
  induction cmds generalizing m with
  | nil => exact .nil
  | cons cmd cmds ih =>
    rw [planAll, List.map_append]
    exact (plan_plans hFresh.1).session.append (ih hFresh.2)

theorem planAll_listed {cmds : List WindowCommand} (hFresh : m.AllFresh cmds) (hListed : m.Listed) : (m.planAll cmds).2.Listed := by
  induction cmds generalizing m with
  | nil => exact hListed
  | cons cmd cmds ih => exact ih hFresh.2 ((plan_plans hFresh.1).listed hListed)

theorem new_listed : new.Listed where
  once := List.nodup_nil
  tops _ := by simp [new]

def openAfter (actions : List HostAction) : U32 → Bool := (actions.map HostAction.event).foldl Session.after fun _ => false

structure Heard (actions : List HostAction) (m : WindowModel) : Prop where
  /-- `true` stands for an opening, and `false` for a closing. -/
  alternates : ∀ hwnd, (false :: Session.brackets hwnd (actions.map HostAction.event)).IsChain (· ≠ ·)
  uses : ∀ before a rest, actions = before ++ a :: rest → a.event = .uses a.hwnd → openAfter before a.hwnd = true
  opened : m.isOpen = openAfter actions
  listed : m.Listed
  childless : ∀ cmd, m.Fresh cmd → ∀ a ∈ (m.plan cmd).1, (m.OnlyChild a.hwnd → m.MakesTop cmd) ∧ ¬(m.plan cmd).2.OnlyChild a.hwnd

theorem plan_childless (hFresh : m.Fresh cmd) (a : HostAction) (ha : a ∈ (m.plan cmd).1) :
    (m.OnlyChild a.hwnd → m.MakesTop cmd) ∧ ¬(m.plan cmd).2.OnlyChild a.hwnd := by
  have hPlans := plan_plans hFresh
  rw [hPlans.concerns a ha]
  refine ⟨fun hOnly => ?_, hPlans.told (List.ne_nil_of_mem ha)⟩
  by_contra hNot
  rw [onlyChild_silent hOnly hNot] at ha
  exact absurd ha List.not_mem_nil

/-- Windows are opened and closed in turn, and used while they are open. -/
theorem planAll_heard {cmds : List WindowCommand} (hFresh : new.AllFresh cmds) : Heard (new.planAll cmds).1 (new.planAll cmds).2 where
  alternates hwnd := (planAll_session hFresh).alternates hwnd
  uses before a rest hSplit ha := by
    have hAllowed := (planAll_session hFresh).allowed (show _ = before.map HostAction.event ++ a.event :: rest.map HostAction.event by
      rw [hSplit, List.map_append, List.map_cons])
    rw [ha] at hAllowed
    exact hAllowed
  opened := (planAll_session hFresh).opened_eq
  listed := planAll_listed hFresh new_listed
  childless _ hNext := plan_childless hNext

/-- A window, a control in it, and the end of the window. -/
theorem planAll_heard_of_control : ∃ cmds, (new.planAll cmds).1 = [.Open 1 2 3 "a", .Front 1, .Present 1, .Close 1] ∧
    Heard (new.planAll cmds).1 (new.planAll cmds).2 :=
  ⟨[.Create 1 0 0 0 2 3 true "a", .Create 5 1 0 0 1 1 true "b", .Present 1 2 3 [], .Present 5 1 1 [], .Destroy 1], by decide,
    planAll_heard ⟨fun _ => rfl, fun _ => rfl, fun h => h.elim, fun h => h.elim, fun h => h.elim, trivial⟩⟩

/-- A window announced twice is opened twice. -/
theorem planAll_misses : (new.planAll [.Create 1 0 0 0 2 3 true "a", .Create 1 0 0 0 2 3 true "a"]).1 =
      [.Open 1 2 3 "a", .Front 1, .Open 1 2 3 "a", .Front 1] ∧
    ¬Heard (new.planAll [.Create 1 0 0 0 2 3 true "a", .Create 1 0 0 0 2 3 true "a"]).1
      (new.planAll [.Create 1 0 0 0 2 3 true "a", .Create 1 0 0 0 2 3 true "a"]).2 :=
  ⟨by decide, fun h => absurd (h.alternates 1) (by decide)⟩

end WindowModel

end Exemu.Gui
