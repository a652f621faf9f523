import Exemu.Os.Table

/-! # What a wait reports, and what its thread has acquired -/
namespace Exemu.Os

namespace KObject

theorem isSignaled_of_owner {o : KObject} {tid : Nat} (h : o.owner? = some tid) : o.isSignaled tid = true := by
  cases o with
  | Mutex owner recursion =>
    obtain rfl : owner = some tid := h
    simp [isSignaled]
  | _ => cases h

theorem owner?_iterate {o : KObject} {tid : Nat} (hMutex : o.isMutex = true) (hSignaled : o.isSignaled tid = true)
    (k : Nat) : ((fun o => (KObject.acquire o tid).1)^[k + 1] o).owner? = some tid := by
  have hFirst : (o.acquire tid).1.owner? = some tid := by
    rw [owner?_acquire, hMutex, hSignaled]
    rfl
  induction k generalizing o with
  | zero => exact hFirst
  | succ k ih =>
    have hMutex' : (o.acquire tid).1.isMutex = true := by rw [isMutex_acquire, hMutex]
    have hSignaled' := isSignaled_of_owner hFirst
    refine ih hMutex' hSignaled' ?_
    rw [owner?_acquire, hMutex', hSignaled']
    rfl

end KObject

namespace WinOs

/-- The thread `tid` acquired the object behind `h`, at least once. -/
def Acquired (os os' : WinOs) (tid h : Nat) : Prop :=
  ∃ o k, os.kobjects h = some o ∧ o.isSignaled tid = true ∧
    os'.kobjects h = some ((fun o => (KObject.acquire o tid).1)^[k + 1] o)

theorem kobjectAcquire_snd (os : WinOs) (h tid : Nat) :
    (os.kobjectAcquire h tid).2 = (os.kobjects h).all (·.isSignaled tid) := by
  unfold kobjectAcquire
  cases os.kobjects h with
  | none => rfl
  | some o => exact o.acquire_snd tid

variable {os : WinOs} {tid : Nat}

theorem kobjectAcquire_of_fails {h : Nat} (hFails : (os.kobjectAcquire h tid).2 = false) :
    (os.kobjectAcquire h tid).1 = os := by
  unfold kobjectAcquire at hFails ⊢
  cases hGet : os.kobjects h with
  | none => rfl
  | some o =>
    rw [hGet] at hFails
    dsimp only at hFails ⊢
    rw [o.acquire_snd] at hFails
    rw [KObject.acquire_of_not_signaled hFails]
    unfold setObject
    rw [← hGet, Function.update_eq_self]

theorem kobjectAcquire_get (os : WinOs) (h tid h' : Nat) :
    (os.kobjectAcquire h tid).1.kobjects h' =
      (os.kobjects h').map fun o => if h' = h then (o.acquire tid).1 else o := by
  unfold kobjectAcquire
  cases hGet : os.kobjects h with
  | none =>
    by_cases hh : h' = h
    · subst hh
      rw [hGet]
      rfl
    · cases hOther : os.kobjects h' <;> simp [hh]
  | some o =>
    by_cases hh : h' = h
    · subst hh
      simp [setObject, hGet]
    · cases hOther : os.kobjects h' <;> simp [setObject, hh, hOther]

theorem acquireAll_get (os : WinOs) (handles : List Nat) (tid h : Nat) :
    (os.acquireAll handles tid).kobjects h =
      (os.kobjects h).map ((fun o => (KObject.acquire o tid).1)^[handles.count h]) := by
  unfold acquireAll
  induction handles generalizing os with
  | nil => simp
  | cons x xs ih =>
    rw [List.foldl_cons, ih, kobjectAcquire_get]
    by_cases hx : h = x
    · subst hx
      cases os.kobjects h <;> simp
    · have hCount : (x :: xs).count h = xs.count h := List.count_cons_of_ne (Ne.symm hx)
      rw [hCount]
      cases os.kobjects h <;> simp [hx]

theorem acquireAll_acquired {handles : List Nat} {h : Nat} {o : KObject}
    (hAll : os.waitSatisfiable ⟨handles, true⟩ tid = true) (hMem : h ∈ handles) (hGet : os.kobjects h = some o) :
    Acquired os (os.acquireAll handles tid) tid h := by
  have hSignaled : o.isSignaled tid = true := by
    unfold waitSatisfiable at hAll
    have hEach := List.all_eq_true.mp hAll h hMem
    rwa [hGet] at hEach
  obtain ⟨k, hk⟩ := Nat.exists_eq_succ_of_ne_zero (List.count_pos_iff.mpr hMem).ne'
  refine ⟨o, k, hGet, hSignaled, ?_⟩
  rw [acquireAll_get, hGet, hk]
  rfl

theorem acquireAny_spec {os' : WinOs} {handles : List Nat} {i : Nat} {found : Option Nat}
    (h : os.acquireAny tid handles i = (os', found)) :
    (found = none ∧ os' = os ∧ os.waitSatisfiable ⟨handles, false⟩ tid = false) ∨
      ∃ m x, found = some (i + m) ∧ handles[m]? = some x ∧ (os.kobjectAcquire x tid).2 = true ∧
        os' = (os.kobjectAcquire x tid).1 := by
  induction handles generalizing i with
  | nil =>
    cases h
    exact .inl ⟨rfl, rfl, rfl⟩
  | cons x xs ih =>
    unfold acquireAny at h
    split at h
    · rename_i os₁ hAcquire
      cases h
      refine .inr ⟨0, x, rfl, rfl, ?_, ?_⟩
      · rw [hAcquire]
      · rw [hAcquire]
    · rename_i os₁ hAcquire
      have hFails : (os.kobjectAcquire x tid).2 = false := by rw [hAcquire]
      have hSame : os₁ = os := by
        have hKept := kobjectAcquire_of_fails hFails
        rwa [hAcquire] at hKept
      subst hSame
      rcases ih h with ⟨rfl, rfl, hNot⟩ | ⟨m, y, rfl, hGet, hTaken, rfl⟩
      · refine .inl ⟨rfl, rfl, ?_⟩
        unfold waitSatisfiable at hNot ⊢
        rw [kobjectAcquire_snd] at hFails
        simp only [List.any_cons, hFails, Bool.false_or]
        exact hNot
      · exact .inr ⟨m + 1, y, by rw [Nat.add_assoc, Nat.add_comm 1 m], hGet, hTaken, rfl⟩

theorem kobjectAcquire_acquired {h : Nat} {o : KObject} (hTaken : (os.kobjectAcquire h tid).2 = true)
    (hGet : os.kobjects h = some o) : Acquired os (os.kobjectAcquire h tid).1 tid h := by
  rw [kobjectAcquire_snd, hGet] at hTaken
  refine ⟨o, 0, hGet, hTaken, ?_⟩
  rw [kobjectAcquire_get, hGet]
  simp

end WinOs

/-- What a report of success tells of the handles of a wait: all of them, or some of them. -/
inductive WaitReport where
  | all (handles : List Nat)
  | any (handles : List Nat)
deriving DecidableEq, Repr

namespace Api

/-- The value is `WAIT_OBJECT_0`, possibly plus an index, or the server's `STATUS_SUCCESS`. -/
def reportsBy (value : Nat) : Api → Option WaitReport
  | .waitSingle h _ => if value = WAIT_OBJECT_0 then some (.all [h]) else none
  | .waitMultiple handles true _ => if value = WAIT_OBJECT_0 then some (.all handles) else none
  | .waitMultiple handles false _ => handles[value]?.map fun h => .all [h]
  | .wineUnixCall (.select handles op _) =>
    if value = STATUS_SUCCESS then some (if op == 1 || handles.length == 1 then .all handles else .any handles)
    else none
  | _ => none

def reports (s : Sys) (granted : U64 → Bool) (after : CpuState) (call : Api) : Option WaitReport :=
  match (s.callApi granted after call).2 with
  | .Return value => call.reportsBy value
  | _ => none

end Api

namespace Syscall

def reportsBy (status : Nat) : Syscall → Option WaitReport
  | .waitForSingleObject h _ => if status = STATUS_WAIT_0 then some (.all [h]) else none
  | .waitForMultipleObjects handles waitType _ =>
    if waitType = 0 then if status = STATUS_WAIT_0 then some (.all handles) else none
    else if status < MAXIMUM_WAIT_OBJECTS then handles[status]?.map fun h => .all [h]
    else none
  | _ => none

def reports (s : Sys) (granted : U64 → Bool) (call : Syscall) : Option WaitReport :=
  match Sys.ntHandler granted call s with
  | (s', .ok status) => if s'.os.syscallResumeAsIs then none else call.reportsBy status
  | (_, .error _) => none

end Syscall

def Call.reports (s : Sys) : Call → Option WaitReport
  | .api call granted after => call.reports s granted after
  | .syscall call granted => call.reports s granted

def WaitReport.holds (s : Sys) (os' : WinOs) : WaitReport → Prop
  | .all handles =>
    ∀ h ∈ handles, s.os.kobjects h ≠ none → WinOs.Acquired s.os os' s.os.currentTid h
  | .any handles =>
    (∀ h ∈ handles, s.os.kobjects h ≠ none) → ∃ h ∈ handles, WinOs.Acquired s.os os' s.os.currentTid h

def Sys.deadlocks (s : Sys) (handles : List Nat) (all : Bool) : Bool :=
  !handles.isEmpty && !s.os.waitSatisfiable ⟨handles, all⟩ s.os.currentTid && s.os.pickNext.isNone

namespace Api

/-- The wait answers `WAIT_OBJECT_0` because no other thread can run, or its `WAIT_TIMEOUT` is also the
number of one of its handles. -/
def misreports (s : Sys) : Api → Bool
  | .waitSingle h timeout => timeout != 0 && s.deadlocks [h] true
  | .waitMultiple handles waitAll timeout =>
    if timeout = 0 then
      !waitAll && decide (WAIT_TIMEOUT < handles.length) &&
        !s.os.waitSatisfiable ⟨handles, waitAll⟩ s.os.currentTid
    else s.deadlocks handles waitAll
  | .wineUnixCall (.select handles op timeout) =>
    decide (op ≤ 1 ∧ handles.length ≤ MAXIMUM_WAIT_OBJECTS) && timeout != 0 && s.deadlocks handles (op == 1)
  | _ => false

end Api

def Call.misreports (s : Sys) : Call → Bool
  | .api call _ _ => call.misreports s
  | .syscall _ _ => false

namespace Sys

variable {s : Sys}

theorem blockAndSwitch_none {desc : WaitDesc} (h : s.blockAndSwitch desc = none) : s.os.pickNext.isNone = true := by
  unfold blockAndSwitch at h
  rw [Option.map_eq_none_iff] at h
  rw [h]
  rfl

variable {timeout value : Nat} {handles : List Nat} {r : WaitReport}

theorem waitSingle_holds {h : Nat} (hReturn : (s.waitSingle h timeout).2 = .Return value) (hValue : value = WAIT_OBJECT_0)
    (hHonest : (timeout != 0 && s.deadlocks [h] true) = false) :
    WaitReport.holds s (s.waitSingle h timeout).1.os (.all [h]) := by
  intro x hx hSome
  obtain rfl := List.mem_singleton.mp hx
  obtain ⟨o, hGet⟩ := Option.ne_none_iff_exists'.mp hSome
  have hSnd := s.os.kobjectAcquire_snd x s.os.currentTid
  unfold waitSingle at hReturn ⊢
  cases hAcquire : s.os.kobjectAcquire x s.os.currentTid with
  | mk os taken =>
    rw [hAcquire] at hReturn hSnd
    cases taken with
    | true =>
      have hAcquired := WinOs.kobjectAcquire_acquired (by rw [hAcquire]) hGet
      rw [hAcquire] at hAcquired
      exact hAcquired
    | false =>
      have hSame : os = s.os := by
        have hKept := WinOs.kobjectAcquire_of_fails (show (s.os.kobjectAcquire x s.os.currentTid).2 = false by rw [hAcquire])
        rwa [hAcquire] at hKept
      subst hSame
      dsimp only at hReturn hSnd
      split at hReturn
      · cases hReturn
        cases hValue
      · rename_i hTimeout
        cases hBlock : s.blockAndSwitch ⟨[x], true⟩ with
        | some s' =>
          rw [hBlock] at hReturn
          cases hReturn
        | none =>
          have hNot : s.os.waitSatisfiable ⟨[x], true⟩ s.os.currentTid = false := by
            unfold WinOs.waitSatisfiable
            simp [← hSnd]
          simp [deadlocks, hNot, blockAndSwitch_none hBlock, hTimeout] at hHonest

theorem holds_of_any {os' : WinOs} {found : Option Nat} {m x : Nat}
    (hAny : s.os.acquireAny s.os.currentTid handles 0 = (os', found)) (hFound : found = some m)
    (hGet : handles[m]? = some x) : WaitReport.holds s os' (.all [x]) := by
  intro y hy hSome
  obtain rfl := List.mem_singleton.mp hy
  obtain ⟨o, ho⟩ := Option.ne_none_iff_exists'.mp hSome
  rcases WinOs.acquireAny_spec hAny with ⟨rfl, -, -⟩ | ⟨k, z, rfl, hz, hTaken, rfl⟩
  · cases hFound
  · have hkm : k = m := by simpa using hFound
    subst hkm
    obtain rfl : z = y := Option.some.inj (hz.symm.trans hGet)
    exact WinOs.kobjectAcquire_acquired hTaken ho

theorem waitMultipleBlocks_returns {s₀ : Sys} {waitAll : Bool}
    (hReturn : (s₀.waitMultipleBlocks handles waitAll timeout).2 = .Return value) :
    timeout = 0 ∧ value = WAIT_TIMEOUT ∨ timeout ≠ 0 ∧ value = WAIT_OBJECT_0 ∧ s₀.os.pickNext.isNone = true := by
  unfold waitMultipleBlocks at hReturn
  split at hReturn
  · rename_i hTimeout
    cases hReturn
    exact .inl ⟨hTimeout, rfl⟩
  · rename_i hTimeout
    cases hBlock : s₀.blockAndSwitch ⟨handles, waitAll⟩ with
    | some s' =>
      rw [hBlock] at hReturn
      cases hReturn
    | none =>
      rw [hBlock] at hReturn
      cases hReturn
      exact .inr ⟨hTimeout, rfl, blockAndSwitch_none hBlock⟩

theorem waitMultiple_holds {waitAll : Bool} (hReturn : (s.waitMultiple handles waitAll timeout).2 = .Return value)
    (hReport : (Api.waitMultiple handles waitAll timeout).reportsBy value = some r)
    (hHonest : (Api.waitMultiple handles waitAll timeout).misreports s = false) :
    r.holds s (s.waitMultiple handles waitAll timeout).1.os := by
  unfold waitMultiple at hReturn ⊢
  dsimp only at hReturn ⊢
  cases hSat : s.os.waitSatisfiable ⟨handles, waitAll⟩ s.os.currentTid with
  | true =>
    rw [hSat] at hReturn
    cases waitAll with
    | true =>
      simp only [Api.reportsBy] at hReport
      split at hReport
      · obtain rfl := Option.some.inj hReport
        intro h hMem hSome
        obtain ⟨o, hGet⟩ := Option.ne_none_iff_exists'.mp hSome
        exact WinOs.acquireAll_acquired hSat hMem hGet
      · cases hReport
    | false =>
      simp only [if_true, Bool.false_eq_true, if_false] at hReturn ⊢
      cases hAny : s.os.acquireAny s.os.currentTid handles 0 with
      | mk os' found =>
        rw [hAny] at hReturn
        cases found with
        | none =>
          rcases WinOs.acquireAny_spec hAny with ⟨-, -, hNot⟩ | ⟨m, x, hFound, -⟩
          · rw [hSat] at hNot
            cases hNot
          · cases hFound
        | some i =>
          cases hReturn
          obtain ⟨x, hx, rfl⟩ := Option.map_eq_some_iff.mp hReport
          exact holds_of_any hAny (by rw [WAIT_OBJECT_0, Nat.zero_add]) hx
  | false =>
    rw [hSat] at hReturn
    have hBlocks : (s.waitMultipleBlocks handles waitAll timeout).2 = .Return value := hReturn
    exfalso
    unfold Api.misreports at hHonest
    rcases waitMultipleBlocks_returns hBlocks with ⟨rfl, rfl⟩ | ⟨hTimeout, rfl, hAlone⟩
    · cases waitAll with
      | true => cases hReport
      | false =>
        obtain ⟨x, hx, -⟩ := Option.map_eq_some_iff.mp hReport
        have hLong := (List.getElem?_eq_some_iff.mp hx).1
        simp [hSat, hLong] at hHonest
    · have hNonempty : handles.isEmpty = false := by
        cases handles with
        | cons => rfl
        | nil =>
          cases waitAll with
          | true => cases hSat
          | false => cases hReport
      simp [hTimeout, deadlocks, hSat, hAlone, hNonempty] at hHonest

theorem select_holds {op : Nat}
    (hReport : (Api.wineUnixCall (.select handles op timeout)).reportsBy (s.srvSelect handles op timeout).2 = some r)
    (hHonest : (Api.wineUnixCall (.select handles op timeout)).misreports s = false) :
    r.holds s (s.srvSelect handles op timeout).1.os := by
  simp only [Api.reportsBy] at hReport
  split at hReport
  on_goal 2 => cases hReport
  rename_i hSuccess
  obtain rfl := Option.some.inj hReport
  -- one handle is all of them
  suffices hHolds : (if op == 1 then WaitReport.all handles else .any handles).holds s
      (s.srvSelect handles op timeout).1.os by
    by_cases hOp : op == 1
    · simpa [hOp] using hHolds
    · rw [if_neg hOp] at hHolds
      split
      · rename_i hSingle
        obtain ⟨x, rfl⟩ := List.length_eq_one_iff.mp (by simpa [hOp] using hSingle)
        intro y hy hSome
        obtain rfl := List.mem_singleton.mp hy
        obtain ⟨z, hz, hAcquired⟩ := hHolds fun h hMem => by rwa [List.mem_singleton.mp hMem]
        rwa [List.mem_singleton.mp hz] at hAcquired
      · exact hHolds
  unfold srvSelect at hSuccess ⊢
  split
  · rename_i hOp
    rw [if_pos hOp] at hSuccess
    cases hSuccess
  · rename_i hOp
    rw [if_neg hOp] at hSuccess
    split
    · rename_i hLength
      rw [if_pos hLength] at hSuccess
      cases hSuccess
    · rename_i hLength
      rw [if_neg hLength] at hSuccess
      unfold serverSelectWait at hSuccess ⊢
      dsimp only at hSuccess ⊢
      cases hSat : s.os.waitSatisfiable ⟨handles, op == 1⟩ s.os.currentTid with
      | true =>
        cases hAll : op == 1 with
        | true =>
          intro h hMem hSome
          obtain ⟨o, hGet⟩ := Option.ne_none_iff_exists'.mp hSome
          exact WinOs.acquireAll_acquired (hAll ▸ hSat) hMem hGet
        | false =>
          rw [hAll] at hSat
          intro hValid
          change ∃ h ∈ handles,
            WinOs.Acquired s.os (s.os.acquireAny s.os.currentTid handles 0).1 s.os.currentTid h
          cases hAny : s.os.acquireAny s.os.currentTid handles 0 with
          | mk os' found =>
            rcases WinOs.acquireAny_spec hAny with ⟨-, -, hNot⟩ | ⟨m, x, -, hx, hTaken, rfl⟩
            · rw [hSat] at hNot
              cases hNot
            · have hMem := List.mem_of_getElem? hx
              obtain ⟨o, hGet⟩ := Option.ne_none_iff_exists'.mp (hValid x hMem)
              exact ⟨x, hMem, WinOs.kobjectAcquire_acquired hTaken hGet⟩
      | false =>
        exfalso
        rw [hSat] at hSuccess
        simp only [Bool.false_eq_true, if_false] at hSuccess
        split at hSuccess
        · cases hSuccess
        · rename_i hTimeout
          cases hBlock : s.blockAndSwitch ⟨handles, op == 1⟩ with
          | some s' =>
            rw [hBlock] at hSuccess
            cases hSuccess
          | none =>
            have hShort : op ≤ 1 ∧ handles.length ≤ MAXIMUM_WAIT_OBJECTS := by omega
            have hNonempty : handles.isEmpty = false := by
              cases handles with
              | cons => rfl
              | nil => exact absurd (Or.inl rfl) hLength
            simp [Api.misreports, hShort, hTimeout, deadlocks, hSat, blockAndSwitch_none hBlock, hNonempty] at hHonest

theorem ntWait_holds {all : Bool} {timeout : NtTimeout} {s' : Sys} {status : Nat}
    (hAnswer : s.ntWait handles all timeout = (s', .ok status)) (hStays : s'.os.syscallResumeAsIs = false)
    (hReport : (if all then if status = STATUS_WAIT_0 then some (WaitReport.all handles) else none
      else handles[status]?.map fun h => .all [h]) = some r) (hLength : handles.length ≤ MAXIMUM_WAIT_OBJECTS) :
    r.holds s s'.os := by
  have hNoTimeout : status ≠ STATUS_TIMEOUT := by
    rintro rfl
    cases all with
    | true => cases hReport
    | false =>
      obtain ⟨x, hx, -⟩ := Option.map_eq_some_iff.mp hReport
      have hLong := (List.getElem?_eq_some_iff.mp hx).1
      unfold STATUS_TIMEOUT at hLong
      unfold MAXIMUM_WAIT_OBJECTS at hLength
      omega
  unfold ntWait at hAnswer
  dsimp only at hAnswer
  cases hSat : s.os.waitSatisfiable ⟨handles, all⟩ s.os.currentTid with
  | true =>
    cases all with
    | true =>
      rw [hSat] at hAnswer
      cases hAnswer
      obtain rfl := Option.some.inj hReport
      intro h hMem hSome
      obtain ⟨o, hGet⟩ := Option.ne_none_iff_exists'.mp hSome
      exact WinOs.acquireAll_acquired hSat hMem hGet
    | false =>
      rw [hSat] at hAnswer
      simp only [if_true, Bool.false_eq_true, if_false] at hAnswer hReport
      cases hAny : s.os.acquireAny s.os.currentTid handles 0 with
      | mk os' found =>
        rw [hAny] at hAnswer
        cases found with
        | none =>
          rcases WinOs.acquireAny_spec hAny with ⟨-, -, hNot⟩ | ⟨m, x, hFound, -⟩
          · rw [hSat] at hNot
            cases hNot
          · cases hFound
        | some i =>
          cases hAnswer
          obtain ⟨x, hx, rfl⟩ := Option.map_eq_some_iff.mp hReport
          exact holds_of_any hAny (by rw [STATUS_WAIT_0, Nat.zero_add]) hx
  | false =>
    exfalso
    rw [hSat] at hAnswer
    simp only [Bool.false_eq_true, if_false] at hAnswer
    split at hAnswer
    · cases hAnswer
      exact hNoTimeout rfl
    · split at hAnswer
      · cases hAnswer
        cases hStays
      · split at hAnswer
        · cases hAnswer
        · cases hAnswer
          exact hNoTimeout rfl

end Sys

theorem report_holds {s : Sys} {c : Call} {r : WaitReport} (hHonest : c.misreports s = false)
    (hReport : c.reports s = some r) : r.holds s (c.makes s).os := by
  cases c with
  | api call granted after =>
    change call.reports s granted after = some r at hReport
    unfold Api.reports at hReport
    split at hReport
    on_goal 2 => cases hReport
    rename_i value hReturn
    cases call with
    | waitSingle h timeout =>
      simp only [Api.reportsBy] at hReport
      split at hReport
      · rename_i hValue
        obtain rfl := Option.some.inj hReport
        exact Sys.waitSingle_holds hReturn hValue hHonest
      · cases hReport
    | waitMultiple handles waitAll timeout => exact Sys.waitMultiple_holds hReturn hReport hHonest
    | wineUnixCall req =>
      cases req with
      | select handles op timeout =>
        change (s.wineUnixCall (.select handles op timeout)).2 = _ at hReturn
        change r.holds s (s.wineUnixCall (.select handles op timeout)).1.os
        rw [Sys.wineUnixCall_os]
        have hValue : value = (({ s with os := { s.os with unixCallBlocked := false } } : Sys).srvSelect handles
            op timeout).2 := by
          unfold Sys.wineUnixCall Sys.wineServerCall at hReturn
          dsimp only at hReturn
          split at hReturn
          · cases hReturn
          · exact (Outcome.Return.inj hReturn).symm
        subst hValue
        exact Sys.select_holds (s := { s with os := { s.os with unixCallBlocked := false } }) hReport hHonest
      | _ => cases hReport
    | _ => cases hReport
  | «syscall» call granted =>
    change call.reports s granted = some r at hReport
    unfold Syscall.reports at hReport
    split at hReport
    on_goal 2 => cases hReport
    rename_i s' status hAnswer
    split at hReport
    · cases hReport
    · rename_i hStays
      rw [Bool.not_eq_true] at hStays
      have hMakes : (Call.makes s (.syscall call granted)).os = s'.os := congrArg (·.1.os) hAnswer
      rw [hMakes]
      cases call with
      | waitForSingleObject h timeout =>
        change s.ntWaitForSingleObject h timeout = _ at hAnswer
        unfold Sys.ntWaitForSingleObject at hAnswer
        split at hAnswer
        · cases hAnswer
          cases hReport
        · dsimp only [Syscall.reportsBy] at hReport
          have hSingle : ([h][status]?.map fun h => WaitReport.all [h]) = some r := by
            split at hReport
            · rename_i hValue
              rw [hValue]
              exact hReport
            · cases hReport
          exact Sys.ntWait_holds hAnswer hStays (by rw [if_neg Bool.false_ne_true]; exact hSingle)
            (show 1 ≤ 64 by decide)
      | waitForMultipleObjects handles waitType timeout =>
        change s.ntWaitForMultipleObjects handles waitType timeout = _ at hAnswer
        unfold Sys.ntWaitForMultipleObjects at hAnswer
        dsimp only [Syscall.reportsBy] at hReport
        split at hAnswer
        · cases hAnswer
          simp [STATUS_INVALID_PARAMETER, MAXIMUM_WAIT_OBJECTS, STATUS_WAIT_0] at hReport
        · rename_i hLength
          split at hAnswer
          · cases hAnswer
            simp [STATUS_INVALID_PARAMETER, MAXIMUM_WAIT_OBJECTS, STATUS_WAIT_0] at hReport
          · split at hAnswer
            · cases hAnswer
              simp [STATUS_INVALID_HANDLE, MAXIMUM_WAIT_OBJECTS, STATUS_WAIT_0] at hReport
            · refine Sys.ntWait_holds hAnswer hStays ?_ (by omega)
              by_cases hType : waitType = 0
              · rw [if_pos hType] at hReport
                rw [if_pos (beq_iff_eq.mpr hType)]
                exact hReport
              · rw [if_neg hType] at hReport
                rw [if_neg (by simpa using hType)]
                split at hReport
                · exact hReport
                · cases hReport
      | _ => cases hReport

end Exemu.Os
