import Exemu.Os.Message

/-! # Which thread gets a posted message, and when -/
namespace Exemu.Os

inductive MsgOp where
  | postMessage (m : PostedMsg)
  | ntUserPostMessage (m : PostedMsg)
  | postThreadMessage (tid : Nat) (message : U32) (wparam lparam : U64)
  | postQuitMessage (code : U32)
  | postInternal (m : PostedMsg)
  | insertQuit
  | msgNext
  | msgPeek (remove : Bool)
  | createThread (tid : Nat)
  | createWindow (hwnd : U64)
  | destroyWindow (hwnd : U64)
  | schedule (i : Nat)

def MsgOp.takes : MsgOp → Bool
  | .msgNext => true
  | .msgPeek remove => remove
  | _ => false

namespace MsgState

def step (s : MsgState) : MsgOp → MsgState × Option Found
  | .postMessage m => ((s.postMessage m).1, none)
  | .ntUserPostMessage m => ((s.ntUserPostMessage m).1, none)
  | .postThreadMessage tid message wparam lparam => ((s.postThreadMessage tid message wparam lparam).1, none)
  | .postQuitMessage code => ((s.postQuitMessage code).1, none)
  | .postInternal m => (s.postInternal m, none)
  | .insertQuit => (s.insertQuit, none)
  | .msgNext => s.msgNext
  | .msgPeek remove => s.msgPeek remove
  | .createThread tid => (s.createThread tid, none)
  | .createWindow hwnd => (s.createWindow hwnd, none)
  | .destroyWindow hwnd => (s.destroyWindow hwnd, none)
  | .schedule i => (s.schedule i, none)

def next (s : MsgState) (op : MsgOp) : MsgState := (s.step op).1

def run (s : MsgState) (ops : List MsgOp) : MsgState := ops.foldl next s

def queue (s : MsgState) (i : Nat) : List PostedMsg := (s.threads[i]?).elim [] (·.msgs)

/-- The messages a step posts to a thread, if those to a window go where `route` says. -/
def posted (route : MsgState → U64 → Nat) (i : Nat) (s : MsgState) : MsgOp → List PostedMsg
  | .postMessage m => if m.message ≠ WM_QUIT ∧ route s m.hwnd = i then [m] else []
  | .ntUserPostMessage m =>
    if m.message ≠ WM_QUIT ∧ ¬(m.hwnd ≠ 0 ∧ (s.windows ((m.hwnd.setWidth 32).setWidth 64)).isNone) ∧
      route s m.hwnd = i then [m] else []
  | .postThreadMessage tid message wparam lparam =>
    if s.threads.findIdx? (·.tid == tid) = some i then [⟨0, message, wparam, lparam⟩] else []
  | .postInternal m => if route s m.hwnd = i then [m] else []
  | _ => []

def retrieved (i : Nat) (s : MsgState) (op : MsgOp) : List PostedMsg :=
  if op.takes = true ∧ s.current = i then
    match (s.step op).2 with
    | some (.queued m) => [m]
    | _ => []
  else []

end MsgState

/-- Over a run the messages posted to a thread are retrieved by it, each once and in order, a `WM_QUIT` is
made up only where the queue is empty, and a retrieval gives the front of the queue. -/
structure Delivers (route : MsgState → U64 → Nat) (s : MsgState) (ops : List MsgOp) : Prop where
  inOrder : ∀ i, s.queue i ++ Stamp.stream MsgState.next (MsgState.posted route i) s ops =
    Stamp.stream MsgState.next (MsgState.retrieved i) s ops ++ (s.run ops).queue i
  quitLast : ∀ n op code, ops[n]? = some op → ((s.run (ops.take n)).step op).2 = some (.quit code) →
    (s.run (ops.take n)).queue (s.run (ops.take n)).current = []
  served : ∀ n op m rest, ops[n]? = some op → op.takes = true →
    (s.run (ops.take n)).queue (s.run (ops.take n)).current = m :: rest →
      ((s.run (ops.take n)).step op).2 = some (.queued m)

namespace MsgState

variable {s : MsgState} {i idx : Nat} {m : PostedMsg}

theorem queue_current (s : MsgState) : s.queue s.current = s.currentThread.msgs := by
  unfold queue currentThread
  rw [List.getElem?_eq_getElem s.runs]
  rfl

theorem queue_modThread (f : MsgThread → MsgThread) :
    (s.modThread idx f).queue i = (s.threads[i]?).elim [] fun t => if idx = i then (f t).msgs else t.msgs := by
  unfold queue
  change ((s.threads.modify idx f)[i]?).elim [] (·.msgs) = _
  rw [List.getElem?_modify]
  by_cases hHere : idx = i <;> cases s.threads[i]? <;> simp [hHere]

theorem queue_modThread_same {f : MsgThread → MsgThread} (hf : ∀ t, (f t).msgs = t.msgs) :
    (s.modThread idx f).queue i = s.queue i := by
  rw [queue_modThread]
  unfold queue
  cases s.threads[i]? with
  | none => rfl
  | some t =>
    change (if idx = i then (f t).msgs else t.msgs) = t.msgs
    rw [hf, ite_self]

theorem queue_setQuit (code : U32) : (s.setQuit code).queue i = s.queue i := queue_modThread_same fun _ => rfl

theorem queue_insertQuit : s.insertQuit.queue i = s.queue i := queue_modThread_same fun _ => rfl

theorem queue_enqueue (hIdx : idx < s.threads.length) :
    (s.enqueue idx m).queue i = s.queue i ++ if idx = i then [m] else [] := by
  unfold enqueue
  rw [queue_modThread]
  unfold queue
  by_cases hHere : idx = i
  · subst hHere
    rw [List.getElem?_eq_getElem hIdx, if_pos rfl]
    exact if_pos rfl
  · rw [if_neg hHere, List.append_nil]
    cases s.threads[i]? with
    | none => rfl
    | some t => exact if_neg hHere

variable {rest : List PostedMsg} {op : MsgOp}

theorem queue_pop (hQueue : s.currentThread.msgs = m :: rest) :
    s.queue i = (if s.current = i then [m] else []) ++
      (s.modThread s.current fun t => { t with msgs := rest }).queue i := by
  rw [queue_modThread]
  by_cases hHere : s.current = i
  · subst hHere
    rw [queue_current, hQueue, List.getElem?_eq_getElem s.runs, if_pos rfl]
    exact (congrArg (m :: ·) (if_pos rfl)).symm
  · rw [if_neg hHere, List.nil_append]
    unfold queue
    cases s.threads[i]? with
    | none => rfl
    | some t => exact (if_neg hHere).symm

theorem msgNext_queued (hQueue : s.currentThread.msgs = m :: rest) :
    s.msgNext = (s.modThread s.current fun t => { t with msgs := rest }, some (.queued m)) := by
  unfold msgNext
  rw [hQueue]

theorem msgPeek_queued (hQueue : s.currentThread.msgs = m :: rest) (remove : Bool) :
    s.msgPeek remove =
      (if remove then s.modThread s.current fun t => { t with msgs := rest } else s, some (.queued m)) := by
  unfold msgPeek
  rw [hQueue]

theorem msgNext_empty (hQueue : s.currentThread.msgs = []) :
    (∀ i, s.msgNext.1.queue i = s.queue i) ∧ ∀ m, s.msgNext.2 ≠ some (.queued m) := by
  unfold msgNext
  rw [hQueue]
  cases s.currentThread.quitCode with
  | none => exact ⟨fun _ => rfl, fun _ hFound => by cases hFound⟩
  | some code => exact ⟨fun _ => queue_modThread_same fun _ => rfl, fun _ hFound => by cases hFound⟩

theorem msgPeek_empty (hQueue : s.currentThread.msgs = []) (remove : Bool) :
    (∀ i, (s.msgPeek remove).1.queue i = s.queue i) ∧ ∀ m, (s.msgPeek remove).2 ≠ some (.queued m) := by
  unfold msgPeek
  rw [hQueue]
  cases s.currentThread.quitCode with
  | none => exact ⟨fun _ => rfl, fun _ hFound => by cases hFound⟩
  | some code =>
    cases remove with
    | false => exact ⟨fun _ => rfl, fun _ hFound => by cases hFound⟩
    | true => exact ⟨fun _ => queue_modThread_same fun _ => rfl, fun _ hFound => by cases hFound⟩

theorem retrieved_of_not_takes (hTakes : op.takes = false) : retrieved i s op = [] := by
  unfold retrieved
  rw [hTakes]
  exact if_neg fun hBoth => Bool.false_ne_true hBoth.1

theorem takes_flow (hTakes : op.takes = true) : s.queue i = retrieved i s op ++ (s.next op).queue i := by
  have hFront : ∀ {m rest}, s.currentThread.msgs = m :: rest →
      s.step op = (s.modThread s.current fun t => { t with msgs := rest }, some (.queued m)) := by
    intro m rest hQueue
    cases op with
    | msgNext => exact msgNext_queued hQueue
    | msgPeek remove =>
      obtain rfl : remove = true := hTakes
      exact msgPeek_queued hQueue true
    | _ => cases hTakes
  have hEmpty : s.currentThread.msgs = [] →
      (∀ i, (s.step op).1.queue i = s.queue i) ∧ ∀ m, (s.step op).2 ≠ some (.queued m) := by
    intro hQueue
    cases op with
    | msgNext => exact msgNext_empty hQueue
    | msgPeek remove => exact msgPeek_empty hQueue remove
    | _ => cases hTakes
  unfold retrieved next
  cases hQueue : s.currentThread.msgs with
  | cons m rest =>
    rw [hFront hQueue, hTakes]
    simp only [true_and]
    exact queue_pop hQueue
  | nil =>
    obtain ⟨hSame, hNone⟩ := hEmpty hQueue
    rw [hSame]
    split
    · split
      · rename_i m hFound
        exact absurd hFound (hNone m)
      · rfl
    · rfl

theorem step_flow (i : Nat) (s : MsgState) (op : MsgOp) :
    s.queue i ++ posted (fun s _ => s.current) i s op = retrieved i s op ++ (s.next op).queue i := by
  cases hTakes : op.takes with
  | true =>
    have hNothing : posted (fun s _ => s.current) i s op = [] := by
      cases op with
      | msgNext => rfl
      | msgPeek remove => rfl
      | _ => cases hTakes
    rw [hNothing, List.append_nil]
    exact takes_flow hTakes
  | false =>
    rw [retrieved_of_not_takes hTakes, List.nil_append]
    cases op with
    | postMessage m =>
      change _ ++ (if m.message ≠ WM_QUIT ∧ s.current = i then [m] else []) = (s.postMessage m).1.queue i
      unfold postMessage
      by_cases hQuit : m.message = WM_QUIT
      · rw [if_pos hQuit, if_neg fun hBoth => hBoth.1 hQuit, List.append_nil]
        exact (queue_setQuit _).symm
      · rw [if_neg hQuit]
        simp only [ne_eq, hQuit, not_false_eq_true, true_and]
        exact (queue_enqueue s.runs).symm
    | ntUserPostMessage m =>
      change _ ++ (if m.message ≠ WM_QUIT ∧ ¬(m.hwnd ≠ 0 ∧ (s.windows ((m.hwnd.setWidth 32).setWidth 64)).isNone = true) ∧
        s.current = i then [m] else []) = (s.ntUserPostMessage m).1.queue i
      unfold ntUserPostMessage
      by_cases hQuit : m.message = WM_QUIT
      · rw [if_pos hQuit, if_neg fun hBoth => hBoth.1 hQuit, List.append_nil]
        exact (queue_setQuit _).symm
      · rw [if_neg hQuit]
        by_cases hDead : m.hwnd ≠ 0 ∧ (s.windows ((m.hwnd.setWidth 32).setWidth 64)).isNone = true
        · rw [if_pos hDead, if_neg fun hBoth => hBoth.2.1 hDead, List.append_nil]
        · rw [if_neg hDead]
          simp only [ne_eq, hQuit, not_false_eq_true, true_and, show ¬(¬m.hwnd = 0 ∧ _) from hDead]
          exact (queue_enqueue s.runs).symm
    | postThreadMessage tid message wparam lparam =>
      change _ ++ (if s.threads.findIdx? (·.tid == tid) = some i then [_] else []) =
        (s.postThreadMessage tid message wparam lparam).1.queue i
      unfold postThreadMessage
      cases hFound : s.threads.findIdx? (·.tid == tid) with
      | none =>
        rw [if_neg (by exact nofun), List.append_nil]
        rfl
      | some idx =>
        have hIdx : idx < s.threads.length := (List.findIdx?_eq_some_iff_getElem.mp hFound).1
        simp only [Option.some.injEq]
        exact (queue_enqueue hIdx).symm
    | postQuitMessage code => exact (List.append_nil _).trans (queue_setQuit code).symm
    | postInternal m => exact (queue_enqueue s.runs).symm
    | insertQuit => exact (List.append_nil _).trans queue_insertQuit.symm
    | msgNext => cases hTakes
    | msgPeek remove =>
      obtain rfl : remove = false := hTakes
      refine (List.append_nil _).trans ?_
      change _ = (s.msgPeek false).1.queue i
      cases hQueue : s.currentThread.msgs with
      | nil => exact ((msgPeek_empty hQueue false).1 i).symm
      | cons m rest =>
        rw [msgPeek_queued hQueue]
        rfl
    | createThread tid =>
      refine (List.append_nil _).trans ?_
      change (s.threads[i]?).elim [] (·.msgs) = ((s.threads ++ [{ tid := tid }])[i]?).elim [] (·.msgs)
      by_cases hOld : i < s.threads.length
      · rw [List.getElem?_append_left hOld]
      · rw [List.getElem?_append_right (by omega), List.getElem?_eq_none (by omega)]
        cases i - s.threads.length <;> rfl
    | createWindow hwnd => exact List.append_nil _
    | destroyWindow hwnd => exact List.append_nil _
    | schedule j =>
      refine (List.append_nil _).trans ?_
      change _ = (s.schedule j).queue i
      unfold schedule
      split <;> rfl

theorem quit_last {code : U32} (hFound : (s.step op).2 = some (.quit code)) : s.queue s.current = [] := by
  rw [queue_current]
  cases hQueue : s.currentThread.msgs with
  | nil => rfl
  | cons m rest =>
    cases op with
    | msgNext =>
      change s.msgNext.2 = _ at hFound
      rw [msgNext_queued hQueue] at hFound
      cases hFound
    | msgPeek remove =>
      change (s.msgPeek remove).2 = _ at hFound
      rw [msgPeek_queued hQueue] at hFound
      cases hFound
    | _ => cases hFound

theorem takes_served (hTakes : op.takes = true) (hQueue : s.queue s.current = m :: rest) :
    (s.step op).2 = some (.queued m) := by
  rw [queue_current] at hQueue
  cases op with
  | msgNext => exact congrArg Prod.snd (msgNext_queued hQueue)
  | msgPeek remove => exact congrArg Prod.snd (msgPeek_queued hQueue remove)
  | _ => cases hTakes

end MsgState

/-! ## The calls are runs of steps -/

/-- Messages go to the thread that posts them, from any state and over any run. -/
theorem delivers_to_poster (s : MsgState) (ops : List MsgOp) : Delivers (fun s _ => s.current) s ops where
  inOrder i := Stamp.stream_conserves (MsgState.step_flow i) s ops
  quitLast _ _ _ _ hFound := MsgState.quit_last hFound
  served _ _ _ _ _ hTakes hQueue := MsgState.takes_served hTakes hQueue

/-- The thread that created a window; other messages go to the thread that posts them. -/
def MsgState.creator (s : MsgState) (hwnd : U64) : Nat := (s.windows hwnd).getD s.current

def postsAcross : List MsgOp :=
  [.createWindow 0x10010, .createThread 2, .schedule 1, .postMessage ⟨0x10010, 0x0400, 7, 99⟩, .schedule 0, .msgNext]

def oneThread : MsgState := ⟨[{ tid := 1 }], 0, fun _ => none, 0, by decide⟩

theorem creator_not_served : ¬∀ s ops, Delivers MsgState.creator s ops := by
  intro hAll
  have hOrder := (hAll oneThread postsAcross).inOrder 0
  have hRun : oneThread.queue 0 ++ Stamp.stream MsgState.next (MsgState.posted MsgState.creator 0) oneThread postsAcross ≠
      Stamp.stream MsgState.next (MsgState.retrieved 0) oneThread postsAcross ++ (oneThread.run postsAcross).queue 0 := by
    decide
  exact hRun hOrder

end Exemu.Os
