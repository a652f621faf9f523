import Exemu.Os.Retry
import Exemu.Os.Wait

/-! # Waits for all of several objects -/
namespace Exemu.Os

/-- One object after the other is acquired, once for each time it is listed. A handle without an object
stands for none. -/
inductive TakesEach (tid : Nat) : (Nat → Option KObject) → List Nat → (Nat → Option KObject) → Prop
  | nil (objects) : TakesEach tid objects [] objects
  | unknown {objects after h handles} (hNone : objects h = none) (hRest : TakesEach tid objects handles after) :
      TakesEach tid objects (h :: handles) after
  | takes {objects after h handles} (o) (hGet : objects h = some o) (hTaken : (o.acquire tid).2 = true)
      (hRest : TakesEach tid (Function.update objects h (some (o.acquire tid).1)) handles after) :
      TakesEach tid objects (h :: handles) after

namespace KObject

def affords (tid n : Nat) : KObject → Bool
  | Event false signaled | Timer false signaled => signaled && decide (n ≤ 1)
  | Semaphore count _ => decide ((n : Int) ≤ count)
  | o => o.isSignaled tid

theorem affords_succ (o : KObject) (tid n : Nat) :
    o.affords tid (n + 1) = (o.isSignaled tid && (n == 0 || (o.acquire tid).1.affords tid n)) := by
  cases o with
  | Event manual signaled =>
    cases manual <;> cases signaled <;> cases n <;> simp [affords, isSignaled, acquire]
  | Timer manual signaled =>
    cases manual <;> cases signaled <;> cases n <;> simp [affords, isSignaled, acquire]
  | Semaphore count max =>
    by_cases hCount : 0 < count
    · rw [Bool.eq_iff_iff]
      simp only [affords, isSignaled, acquire, hCount, if_true, decide_true, Bool.true_and, Bool.or_eq_true,
        decide_eq_true_eq, beq_iff_eq]
      omega
    · rw [Bool.eq_iff_iff]
      simp only [affords, isSignaled, hCount, decide_false, Bool.false_and, decide_eq_true_eq, Bool.false_eq_true,
        iff_false]
      omega
  | Mutex owner recursion =>
    cases owner with
    | none => simp [affords, isSignaled, acquire]
    | some owner => by_cases hOwner : owner = tid <;> simp [affords, isSignaled, acquire, hOwner]
  | Thread exited => cases exited <;> simp [affords, isSignaled, acquire]
  | Process exited => cases exited <;> simp [affords, isSignaled, acquire]

end KObject

def Affords (tid : Nat) (objects : Nat → Option KObject) (handles : List Nat) : Prop :=
  ∀ h ∈ handles, ∀ o, objects h = some o → o.affords tid (handles.count h) = true

section

variable {tid x : Nat} {objects after : Nat → Option KObject} {handles : List Nat} {o : KObject}

theorem affords_cons_unknown (hNone : objects x = none) :
    Affords tid objects (x :: handles) ↔ Affords tid objects handles := by
  have hOther : ∀ {h u}, objects h = some u → (x :: handles).count h = handles.count h := by
    intro h u hGet
    refine List.count_cons_of_ne ?_
    rintro rfl
    cases hNone.symm.trans hGet
  constructor
  · intro hAll h hMem u hGet
    rw [← hOther hGet]
    exact hAll h (List.mem_cons_of_mem _ hMem) u hGet
  · intro hAll h hMem u hGet
    rw [hOther hGet]
    refine hAll h ((List.mem_cons.mp hMem).resolve_left ?_) u hGet
    rintro rfl
    cases hNone.symm.trans hGet

theorem affords_cons (hGet : objects x = some o) :
    Affords tid objects (x :: handles) ↔
      o.isSignaled tid = true ∧ Affords tid (Function.update objects x (some (o.acquire tid).1)) handles := by
  have hFirst : (x :: handles).count x = handles.count x + 1 := List.count_cons_self
  have hOther : ∀ {h}, h ≠ x → (x :: handles).count h = handles.count h :=
    fun hne => List.count_cons_of_ne (Ne.symm hne)
  constructor
  · intro hAll
    have hHere := hAll x List.mem_cons_self o hGet
    rw [hFirst, KObject.affords_succ, Bool.and_eq_true, Bool.or_eq_true, beq_iff_eq] at hHere
    refine ⟨hHere.1, fun h hMem u hu => ?_⟩
    by_cases hx : h = x
    · subst hx
      rw [Function.update_self] at hu
      obtain rfl := Option.some.inj hu
      exact hHere.2.resolve_left (List.count_pos_iff.mpr hMem).ne'
    · rw [Function.update_of_ne hx] at hu
      rw [← hOther hx]
      exact hAll h (List.mem_cons_of_mem _ hMem) u hu
  · rintro ⟨hSignaled, hAll⟩ h hMem u hu
    by_cases hx : h = x
    · subst hx
      obtain rfl := Option.some.inj (hGet.symm.trans hu)
      rw [hFirst, KObject.affords_succ, hSignaled, Bool.true_and, Bool.or_eq_true, beq_iff_eq]
      by_cases hAgain : h ∈ handles
      · exact .inr (hAll h hAgain _ (Function.update_self ..))
      · exact .inl (List.count_eq_zero.mpr hAgain)
    · rw [hOther hx]
      exact hAll h ((List.mem_cons.mp hMem).resolve_left hx) u ((Function.update_of_ne hx ..).trans hu)

theorem TakesEach.affords (h : TakesEach tid objects handles after) : Affords tid objects handles := by
  induction h with
  | nil => exact fun _ hMem => absurd hMem List.not_mem_nil
  | unknown hNone _ ih => exact (affords_cons_unknown hNone).mpr ih
  | takes o hGet hTaken _ ih =>
    rw [o.acquire_snd] at hTaken
    exact (affords_cons hGet).mpr ⟨hTaken, ih⟩

end

namespace WinOs

variable {os : WinOs} {tid : Nat} {handles : List Nat}

theorem acquireAll_takesEach (hAffords : Affords tid os.kobjects handles) :
    TakesEach tid os.kobjects handles (os.acquireAll handles tid).kobjects := by
  induction handles generalizing os with
  | nil => exact .nil _
  | cons x xs ih =>
    change TakesEach tid os.kobjects (x :: xs) ((os.kobjectAcquire x tid).1.acquireAll xs tid).kobjects
    cases hGet : os.kobjects x with
    | none =>
      have hSame : (os.kobjectAcquire x tid).1 = os := by
        unfold kobjectAcquire
        rw [hGet]
      rw [hSame]
      exact .unknown hGet (ih ((affords_cons_unknown hGet).mp hAffords))
    | some o =>
      obtain ⟨hSignaled, hRest⟩ := (affords_cons hGet).mp hAffords
      have hTaken : (os.kobjectAcquire x tid).1.kobjects =
          Function.update os.kobjects x (some (o.acquire tid).1) := by
        unfold kobjectAcquire
        rw [hGet]
        rfl
      rw [← hTaken] at hRest
      have hThen := ih hRest
      rw [hTaken] at hThen
      exact .takes o hGet (o.acquire_snd tid ▸ hSignaled) hThen

theorem satisfiable_of_affords (hAffords : Affords tid os.kobjects handles) :
    os.waitSatisfiable ⟨handles, true⟩ tid = true := by
  unfold waitSatisfiable
  rw [if_pos rfl, List.all_eq_true]
  intro h hMem
  cases hGet : os.kobjects h with
  | none => rfl
  | some o =>
    have hHere := hAffords h hMem o hGet
    obtain ⟨n, hn⟩ := Nat.exists_eq_succ_of_ne_zero (List.count_pos_iff.mpr hMem).ne'
    rw [hn, Nat.succ_eq_add_one, KObject.affords_succ, Bool.and_eq_true] at hHere
    exact hHere.1

end WinOs

/-! ## The three front ends -/

namespace Call

def waitsAll : Call → Option (List Nat)
  | .api (.waitMultiple handles true _) _ _ => some handles
  | .api (.wineUnixCall (.select handles op _)) _ _ => if op = 1 then some handles else none
  | .syscall (.waitForMultipleObjects handles waitType _) _ => if waitType = 0 then some handles else none
  | _ => none

def accepts (s : Sys) : Call → Prop
  | .api (.wineUnixCall (.select handles _ _)) _ _ => 0 < handles.length ∧ handles.length ≤ MAXIMUM_WAIT_OBJECTS
  | .syscall (.waitForMultipleObjects handles _ _) _ =>
    (0 < handles.length ∧ handles.length ≤ MAXIMUM_WAIT_OBJECTS) ∧ ∀ h ∈ handles, s.os.kobjects h ≠ none
  | _ => True

/-- Success is reported and every object has been acquired each time it is listed, or neither. -/
def AllOrNone (s : Sys) (c : Call) (handles : List Nat) : Prop :=
  (c.reports s = some (.all handles) ∧
      TakesEach s.os.currentTid s.os.kobjects handles (c.makes s).os.kobjects) ∨
    (c.reports s ≠ some (.all handles) ∧ (c.makes s).os.kobjects = s.os.kobjects)

/-- Where all of the objects are signaled, each is so as often as it is listed; elsewhere there is another
thread to run, or the wait does not claim success. -/
def Affordable (s : Sys) (c : Call) (handles : List Nat) : Prop :=
  if s.os.waitSatisfiable ⟨handles, true⟩ s.os.currentTid then
    c.accepts s → Affords s.os.currentTid s.os.kobjects handles
  else c.misreports s = false

theorem allOrNone_iff_of {s : Sys} {c : Call} {handles : List Nat}
    (hSat : s.os.waitSatisfiable ⟨handles, true⟩ s.os.currentTid = true → c.accepts s →
      c.reports s = some (.all handles) ∧
        (c.makes s).os.kobjects = (s.os.acquireAll handles s.os.currentTid).kobjects)
    (hRefused : ¬c.accepts s → c.reports s ≠ some (.all handles) ∧ (c.makes s).os.kobjects = s.os.kobjects)
    (hNot : s.os.waitSatisfiable ⟨handles, true⟩ s.os.currentTid = false →
      (c.makes s).os.kobjects = s.os.kobjects ∧ (c.reports s = some (.all handles) ↔ c.misreports s = true)) :
    c.AllOrNone s handles ↔ c.Affordable s handles := by
  unfold Affordable
  cases hHere : s.os.waitSatisfiable ⟨handles, true⟩ s.os.currentTid with
  | true =>
    rw [if_pos rfl]
    constructor
    · rintro (⟨-, hTakes⟩ | ⟨hQuiet, -⟩) hAccepts
      · exact hTakes.affords
      · exact absurd (hSat hHere hAccepts).1 hQuiet
    · intro hAffords
      by_cases hAccepts : c.accepts s
      · obtain ⟨hReports, hTaken⟩ := hSat hHere hAccepts
        refine .inl ⟨hReports, ?_⟩
        rw [hTaken]
        exact WinOs.acquireAll_takesEach (hAffords hAccepts)
      · exact .inr (hRefused hAccepts)
  | false =>
    rw [if_neg Bool.false_ne_true]
    obtain ⟨hSame, hReports⟩ := hNot hHere
    constructor
    · rintro (⟨-, hTakes⟩ | ⟨hQuiet, -⟩)
      · cases hHere.symm.trans (WinOs.satisfiable_of_affords hTakes.affords)
      · exact Bool.eq_false_iff.mpr fun hMis => hQuiet (hReports.mpr hMis)
    · exact fun hMis => .inr ⟨fun hSaid => Bool.false_ne_true (hMis.symm.trans (hReports.mp hSaid)), hSame⟩

end Call

namespace Sys

variable {s : Sys} {handles : List Nat}

theorem blockAndSwitch_some {s' : Sys} {desc : WaitDesc} (h : s.blockAndSwitch desc = some s') :
    s'.os.kobjects = s.os.kobjects ∧ s.os.pickNext.isNone = false := by
  refine ⟨(blockAndSwitch_objects h).objects, ?_⟩
  obtain ⟨next, hNext, -⟩ := Option.map_eq_some_iff.mp h
  rw [hNext]
  rfl

theorem deadlocks_all (h : s.os.waitSatisfiable ⟨handles, true⟩ s.os.currentTid = false) :
    s.deadlocks handles true = s.os.pickNext.isNone := by
  have hNonempty : handles.isEmpty = false := by
    cases handles with
    | cons => rfl
    | nil => cases h
  simp [deadlocks, h, hNonempty]

theorem waitMultiple_all_satisfiable (timeout : Nat)
    (h : s.os.waitSatisfiable ⟨handles, true⟩ s.os.currentTid = true) :
    s.waitMultiple handles true timeout =
      ({ s with os := s.os.acquireAll handles s.os.currentTid }, .Return WAIT_OBJECT_0) := by
  unfold waitMultiple
  dsimp only
  rw [if_pos h, if_pos rfl]

theorem waitMultiple_all_blocks (timeout : Nat)
    (h : s.os.waitSatisfiable ⟨handles, true⟩ s.os.currentTid = false) :
    (s.waitMultiple handles true timeout).1.os.kobjects = s.os.kobjects ∧
      ((s.waitMultiple handles true timeout).2 = .Return WAIT_OBJECT_0 ↔
        timeout ≠ 0 ∧ s.os.pickNext.isNone = true) := by
  have hBlocks : s.waitMultiple handles true timeout = s.waitMultipleBlocks handles true timeout := by
    unfold waitMultiple
    dsimp only
    rw [h, if_neg Bool.false_ne_true]
  rw [hBlocks]
  unfold waitMultipleBlocks
  split
  · rename_i hTimeout
    refine ⟨rfl, fun hReturn => ?_, fun hBoth => absurd hTimeout hBoth.1⟩
    cases hReturn
  · rename_i hTimeout
    cases hBlock : s.blockAndSwitch ⟨handles, true⟩ with
    | some s' =>
      obtain ⟨hSame, hOther⟩ := blockAndSwitch_some hBlock
      refine ⟨hSame, fun hReturn => ?_, fun hBoth => ?_⟩
      · cases hReturn
      · cases hOther.symm.trans hBoth.2
    | none => exact ⟨rfl, fun _ => ⟨hTimeout, blockAndSwitch_none hBlock⟩, fun _ => rfl⟩

theorem serverSelectWait_all_satisfiable (s : Sys) (timeout : Nat)
    (h : s.os.waitSatisfiable ⟨handles, true⟩ s.os.currentTid = true) :
    s.serverSelectWait handles true timeout =
      ({ s with os := s.os.acquireAll handles s.os.currentTid }, STATUS_SUCCESS) := by
  unfold serverSelectWait
  dsimp only
  rw [if_pos h, if_pos rfl]

theorem serverSelectWait_all_blocks (s : Sys) (timeout : Nat)
    (h : s.os.waitSatisfiable ⟨handles, true⟩ s.os.currentTid = false) (hFresh : s.os.unixCallBlocked = false) :
    (s.serverSelectWait handles true timeout).1.os.kobjects = s.os.kobjects ∧
      ((s.serverSelectWait handles true timeout).2 = STATUS_SUCCESS ∧
          (s.serverSelectWait handles true timeout).1.os.unixCallBlocked = false ↔
        timeout ≠ 0 ∧ s.os.pickNext.isNone = true) := by
  unfold serverSelectWait
  dsimp only
  rw [h, if_neg Bool.false_ne_true]
  split
  · rename_i hTimeout
    refine ⟨rfl, fun hReturn => ?_, fun hBoth => absurd hTimeout hBoth.1⟩
    cases hReturn.1
  · rename_i hTimeout
    cases hBlock : s.blockAndSwitch ⟨handles, true⟩ with
    | some s' =>
      obtain ⟨hSame, hOther⟩ := blockAndSwitch_some hBlock
      refine ⟨hSame, fun hReturn => ?_, fun hBoth => ?_⟩
      · cases hReturn.1
      · cases hOther.symm.trans hBoth.2
    | none => exact ⟨rfl, fun _ => ⟨hTimeout, blockAndSwitch_none hBlock⟩, fun _ => ⟨rfl, hFresh⟩⟩

theorem wineUnixCall_returns {req : ServerReq} {status : Nat} :
    (s.wineUnixCall req).2 = .Return status ↔
      (s.wineServerCall req).2 = status ∧ (s.wineServerCall req).1.os.unixCallBlocked = false := by
  unfold wineUnixCall
  split
  rename_i s' status' hCall
  rw [hCall]
  split
  · rename_i hBlocked
    exact ⟨fun hReturn => (by cases hReturn), fun hBoth => Bool.noConfusion (hBlocked.symm.trans hBoth.2)⟩
  · rename_i hBlocked
    rw [Outcome.Return.injEq]
    exact (and_iff_left (Bool.eq_false_iff.mpr hBlocked)).symm

theorem ntWait_all_blocks (timeout : NtTimeout) (s' : Sys) (status : Nat)
    (h : s.os.waitSatisfiable ⟨handles, true⟩ s.os.currentTid = false) :
    (s.ntWait handles true timeout).1.os.kobjects = s.os.kobjects ∧
      (s.ntWait handles true timeout = (s', .ok status) → s'.os.syscallResumeAsIs = false →
        status = STATUS_TIMEOUT) := by
  unfold ntWait
  dsimp only
  rw [h, if_neg Bool.false_ne_true]
  split
  · refine ⟨rfl, fun hAnswer _ => ?_⟩
    cases hAnswer
    rfl
  · split
    · rename_i s₁ hBlock
      refine ⟨(blockAndSwitch_some hBlock).1, fun hAnswer hStays => ?_⟩
      cases hAnswer
      cases hStays
    · split
      · refine ⟨rfl, fun hAnswer _ => ?_⟩
        cases hAnswer
      · refine ⟨rfl, fun hAnswer _ => ?_⟩
        cases hAnswer
        rfl

theorem ntWait_all_satisfiable (timeout : NtTimeout)
    (h : s.os.waitSatisfiable ⟨handles, true⟩ s.os.currentTid = true) :
    s.ntWait handles true timeout = ({ s with os := s.os.acquireAll handles s.os.currentTid }, .ok STATUS_WAIT_0) := by
  unfold ntWait
  dsimp only
  rw [if_pos h, if_pos rfl]

end Sys

variable {s : Sys} {handles : List Nat}

variable (granted : U64 → Bool)

theorem waitMultiple_allOrNone {timeout : Nat} (after : CpuState) :
    Call.AllOrNone s (.api (.waitMultiple handles true timeout) granted after) handles ↔
      Call.Affordable s (.api (.waitMultiple handles true timeout) granted after) handles := by
  have hReports : Call.reports s (.api (.waitMultiple handles true timeout) granted after) = some (.all handles) ↔
      (s.waitMultiple handles true timeout).2 = .Return WAIT_OBJECT_0 := by
    change Api.reports s granted after (.waitMultiple handles true timeout) = _ ↔ _
    have hCall : (s.callApi granted after (.waitMultiple handles true timeout)).2 =
        (s.waitMultiple handles true timeout).2 := rfl
    unfold Api.reports
    rw [hCall]
    cases (s.waitMultiple handles true timeout).2 with
    | Return value =>
      dsimp only [Api.reportsBy]
      by_cases hValue : value = WAIT_OBJECT_0 <;> simp [hValue]
    | _ => simp
  refine Call.allOrNone_iff_of (fun hSat _ => ?_) (fun hRefused => absurd trivial hRefused) (fun hNot => ?_)
  · have hDone := Sys.waitMultiple_all_satisfiable timeout hSat
    rw [hReports]
    change (s.waitMultiple handles true timeout).2 = _ ∧ (s.waitMultiple handles true timeout).1.os.kobjects = _
    rw [hDone]
    exact ⟨rfl, rfl⟩
  · obtain ⟨hSame, hTold⟩ := Sys.waitMultiple_all_blocks timeout hNot
    refine ⟨hSame, hReports.trans (hTold.trans ?_)⟩
    change _ ↔ (Api.waitMultiple handles true timeout).misreports s = true
    unfold Api.misreports
    by_cases hTimeout : timeout = 0
    · simp [hTimeout]
    · simp [hTimeout, Sys.deadlocks_all hNot]

theorem select_allOrNone {timeout : Nat} (after : CpuState) :
    Call.AllOrNone s (.api (.wineUnixCall (.select handles 1 timeout)) granted after) handles ↔
      Call.Affordable s (.api (.wineUnixCall (.select handles 1 timeout)) granted after) handles := by
  have hReports : Call.reports s (.api (.wineUnixCall (.select handles 1 timeout)) granted after) =
      some (.all handles) ↔ (s.wineUnixCall (.select handles 1 timeout)).2 = .Return STATUS_SUCCESS := by
    change Api.reports s granted after (.wineUnixCall (.select handles 1 timeout)) = _ ↔ _
    have hCall : (s.callApi granted after (.wineUnixCall (.select handles 1 timeout))).2 =
        (s.wineUnixCall (.select handles 1 timeout)).2 := rfl
    unfold Api.reports
    rw [hCall]
    cases (s.wineUnixCall (.select handles 1 timeout)).2 with
    | Return value =>
      dsimp only [Api.reportsBy]
      by_cases hValue : value = STATUS_SUCCESS <;> simp [hValue]
    | _ => simp
  rw [Sys.wineUnixCall_returns] at hReports
  let s₀ : Sys := { s with os := { s.os with unixCallBlocked := false } }
  have hMakes : (Call.makes s (.api (.wineUnixCall (.select handles 1 timeout)) granted after)).os.kobjects =
      (s₀.srvSelect handles 1 timeout).1.os.kobjects :=
    congrArg (fun r : Sys => r.os.kobjects) (Sys.wineUnixCall_os s (.select handles 1 timeout))
  change _ ↔ (s₀.srvSelect handles 1 timeout).2 = _ ∧ (s₀.srvSelect handles 1 timeout).1.os.unixCallBlocked = _ at hReports
  have hWaits : 0 < handles.length ∧ handles.length ≤ MAXIMUM_WAIT_OBJECTS →
      s₀.srvSelect handles 1 timeout = s₀.serverSelectWait handles true timeout := by
    rintro ⟨hSome, hFew⟩
    have hLength : ¬(handles.length = 0 ∨ handles.length > MAXIMUM_WAIT_OBJECTS) := by
      rintro (hNone | hMany) <;> omega
    unfold Sys.srvSelect
    rw [if_neg (by decide), if_neg hLength]
    rfl
  have hRefused : ¬(0 < handles.length ∧ handles.length ≤ MAXIMUM_WAIT_OBJECTS) →
      s₀.srvSelect handles 1 timeout = (s₀, STATUS_INVALID_PARAMETER) := by
    intro hBad
    have hLength : handles.length = 0 ∨ handles.length > MAXIMUM_WAIT_OBJECTS := by omega
    unfold Sys.srvSelect
    rw [if_neg (by decide), if_pos hLength]
  have hQuiet : ¬(0 < handles.length ∧ handles.length ≤ MAXIMUM_WAIT_OBJECTS) →
      Call.reports s (.api (.wineUnixCall (.select handles 1 timeout)) granted after) ≠ some (.all handles) ∧
        (Call.makes s (.api (.wineUnixCall (.select handles 1 timeout)) granted after)).os.kobjects =
          s.os.kobjects := by
    intro hBad
    rw [Ne, hReports, hMakes, hRefused hBad]
    refine ⟨fun hTold => ?_, rfl⟩
    cases hTold.1
  refine Call.allOrNone_iff_of (fun hSat hAccepts => ?_) hQuiet (fun hNot => ?_)
  · have hDone := Sys.serverSelectWait_all_satisfiable s₀ timeout hSat
    obtain ⟨objects, hOs⟩ := s₀.os.acquireAll_os handles s₀.os.currentTid
    rw [hReports, hMakes, hWaits hAccepts, hDone]
    refine ⟨⟨rfl, congrArg (·.unixCallBlocked) hOs⟩, ?_⟩
    ext1 h
    exact (s₀.os.acquireAll_get handles _ h).trans (s.os.acquireAll_get handles _ h).symm
  · change _ ∧ (_ ↔ (Api.wineUnixCall (.select handles 1 timeout)).misreports s = true)
    by_cases hAccepts : 0 < handles.length ∧ handles.length ≤ MAXIMUM_WAIT_OBJECTS
    · obtain ⟨hSame, hTold⟩ := Sys.serverSelectWait_all_blocks s₀ timeout hNot rfl
      rw [← hWaits hAccepts] at hSame hTold
      refine ⟨hMakes.trans hSame, hReports.trans (hTold.trans ?_)⟩
      have hPick : s₀.os.pickNext = s.os.pickNext := rfl
      simp [Api.misreports, hAccepts.2, Sys.deadlocks_all hNot, hPick]
    · have hNone : handles.length ≤ MAXIMUM_WAIT_OBJECTS → handles = [] := by
        intro hFew
        exact List.length_eq_zero_iff.mp (by omega)
      refine ⟨(hQuiet hAccepts).2, fun hTold => absurd hTold (hQuiet hAccepts).1, fun hMis => ?_⟩
      simp only [Api.misreports, Sys.deadlocks, Bool.and_eq_true, decide_eq_true_eq] at hMis
      obtain ⟨⟨⟨-, hFew⟩, -⟩, ⟨hNonempty, -⟩, -⟩ := hMis
      rw [hNone hFew] at hNonempty
      cases hNonempty

theorem ntReports_all (s : Sys) (handles : List Nat) (timeout : NtTimeout) (granted : U64 → Bool) :
    Call.reports s (.syscall (.waitForMultipleObjects handles 0 timeout) granted) = some (.all handles) ↔
      (s.ntWaitForMultipleObjects handles 0 timeout).2 = .ok STATUS_WAIT_0 ∧
        (s.ntWaitForMultipleObjects handles 0 timeout).1.os.syscallResumeAsIs = false := by
  change Syscall.reports s granted (.waitForMultipleObjects handles 0 timeout) = _ ↔ _
  have hCall : Sys.ntHandler granted (.waitForMultipleObjects handles 0 timeout) s =
      s.ntWaitForMultipleObjects handles 0 timeout := rfl
  unfold Syscall.reports
  rw [hCall]
  obtain ⟨s', e | status⟩ := s.ntWaitForMultipleObjects handles 0 timeout
  · simp
  · dsimp only [Syscall.reportsBy]
    by_cases hStatus : status = STATUS_WAIT_0 <;> cases hResume : s'.os.syscallResumeAsIs <;>
      simp [hStatus]

theorem waitForMultipleObjects_allOrNone {timeout : NtTimeout} (hFresh : s.os.syscallResumeAsIs = false) :
    Call.AllOrNone s (.syscall (.waitForMultipleObjects handles 0 timeout) granted) handles ↔
      Call.Affordable s (.syscall (.waitForMultipleObjects handles 0 timeout) granted) handles := by
  have hReports := ntReports_all s handles timeout granted
  have hMakes : (Call.makes s (.syscall (.waitForMultipleObjects handles 0 timeout) granted)).os.kobjects =
      (s.ntWaitForMultipleObjects handles 0 timeout).1.os.kobjects := rfl
  have hWaits : Call.accepts s (.syscall (.waitForMultipleObjects handles 0 timeout) granted) →
      s.ntWaitForMultipleObjects handles 0 timeout = s.ntWait handles true timeout := by
    rintro ⟨⟨hSome, hFew⟩, hKnown⟩
    have hLength : ¬(handles.length = 0 ∨ handles.length > MAXIMUM_WAIT_OBJECTS) := by
      rintro (hNone | hMany) <;> omega
    have hAll : ¬(handles.any fun h => (s.os.kobjects h).isNone) = true := by
      simpa using hKnown
    unfold Sys.ntWaitForMultipleObjects
    rw [if_neg hLength, if_neg (by decide), if_neg hAll]
    rfl
  have hRefused : ¬Call.accepts s (.syscall (.waitForMultipleObjects handles 0 timeout) granted) →
      ∃ status, status ≠ STATUS_WAIT_0 ∧ s.ntWaitForMultipleObjects handles 0 timeout = (s, .ok status) := by
    intro hBad
    unfold Sys.ntWaitForMultipleObjects
    split
    · exact ⟨_, by decide, rfl⟩
    · rename_i hLength
      rw [if_neg (by decide)]
      split
      · exact ⟨_, by decide, rfl⟩
      · rename_i hKnown
        refine absurd ⟨?_, ?_⟩ hBad
        · omega
        · simpa using hKnown
  have hQuiet : ¬Call.accepts s (.syscall (.waitForMultipleObjects handles 0 timeout) granted) →
      Call.reports s (.syscall (.waitForMultipleObjects handles 0 timeout) granted) ≠ some (.all handles) ∧
        (Call.makes s (.syscall (.waitForMultipleObjects handles 0 timeout) granted)).os.kobjects =
          s.os.kobjects := by
    intro hBad
    obtain ⟨status, hStatus, hAnswer⟩ := hRefused hBad
    rw [Ne, hReports, hMakes, hAnswer]
    refine ⟨fun hTold => hStatus ?_, rfl⟩
    cases hTold.1
    rfl
  refine Call.allOrNone_iff_of (fun hSat hAccepts => ?_) hQuiet (fun hNot => ?_)
  · have hDone := Sys.ntWait_all_satisfiable timeout hSat
    obtain ⟨objects, hOs⟩ := s.os.acquireAll_os handles s.os.currentTid
    rw [hReports, hMakes, hWaits hAccepts, hDone]
    exact ⟨⟨rfl, (congrArg (·.syscallResumeAsIs) hOs).trans hFresh⟩, rfl⟩
  · by_cases hAccepts : Call.accepts s (.syscall (.waitForMultipleObjects handles 0 timeout) granted)
    · cases hAnswer : s.ntWait handles true timeout with
      | mk s' answer =>
        obtain ⟨hSame, hTimeout⟩ := Sys.ntWait_all_blocks timeout s' STATUS_WAIT_0 hNot
        rw [hReports, hMakes, hWaits hAccepts]
        refine ⟨hSame, fun hTold => ?_, fun hMis => (by cases hMis)⟩
        rw [hAnswer] at hTold hTimeout
        obtain ⟨rfl, hStays⟩ := hTold
        cases hTimeout rfl hStays
    · exact ⟨(hQuiet hAccepts).2, fun hTold => absurd hTold (hQuiet hAccepts).1, fun hMis => (by cases hMis)⟩

/-- A wait for all of several objects, in any state, takes all of them or none exactly when it is affordable. -/
theorem all_or_none_iff_affordable {p : Process} {t : Turn} {c : Call} (hCalls : p.calls t = some (s, c))
    (hWaits : c.waitsAll = some handles) : c.AllOrNone s handles ↔ c.Affordable s handles := by
  cases (Process.calls_made hCalls).2 with
  | api call granted writes after mode32 s hTurn hFrames hCpu hMem hResult =>
    cases call with
    | waitMultiple listed waitAll timeout =>
      cases waitAll with
      | true =>
        obtain rfl : listed = handles := Option.some.inj hWaits
        exact waitMultiple_allOrNone granted after
      | false => cases hWaits
    | wineUnixCall req =>
      cases req with
      | select listed op timeout =>
        obtain ⟨rfl, hListed⟩ := Option.ite_none_right_eq_some.mp hWaits
        obtain rfl := Option.some.inj hListed
        exact select_allOrNone granted after
      | _ => cases hWaits
    | _ => cases hWaits
  | «syscall» call granted writes after mode32 s₀ s saved hTurn hFrames₀ hCpu hMem hEnter hResult =>
    cases call with
    | waitForMultipleObjects listed waitType timeout =>
      obtain ⟨rfl, hListed⟩ := Option.ite_none_right_eq_some.mp hWaits
      obtain rfl := Option.some.inj hListed
      have hFresh : s.os.syscallResumeAsIs = false := by
        obtain ⟨next, top, hOs⟩ := s₀.enterSyscall_os granted
        rw [hEnter] at hOs
        exact congrArg (·.syscallResumeAsIs) hOs
      exact waitForMultipleObjects_allOrNone granted hFresh
    | _ => cases hWaits

def listsEventTwice (manual : Bool) : List Turn :=
  [.api (.createSync ⟨.Event, none, manual, true, 0, 0⟩) (fun _ => true) [] {} false,
    .api (.waitMultiple [0x1000, 0x1000] true 0) (fun _ => true) [] {} false]

theorem all_or_none_manual : ∃ s c, (Process.boot.run ((listsEventTwice true).take 1)).calls
    (.api (.waitMultiple [0x1000, 0x1000] true 0) (fun _ => true) [] {} false) = some (s, c) ∧
      c.AllOrNone s [0x1000, 0x1000] := by
  have hRun : ((Process.boot.run ((listsEventTwice true).take 1)).calls
      (.api (.waitMultiple [0x1000, 0x1000] true 0) (fun _ => true) [] {} false)).any
        (fun r => r.1.os.kobjects 0x1000 == some (.Event true true)) = true := by decide
  obtain ⟨⟨s, c⟩, hCalls, hSet⟩ := Option.any_eq_true .. |>.mp hRun
  rw [beq_iff_eq] at hSet
  obtain rfl := Process.calls_api hCalls
  refine ⟨s, _, hCalls, (all_or_none_iff_affordable hCalls rfl).mpr ?_⟩
  have hAffords : Affords s.os.currentTid s.os.kobjects [0x1000, 0x1000] := by
    intro h hMem o hGet
    obtain rfl : h = 0x1000 := by simpa using hMem
    obtain rfl := Option.some.inj (hSet.symm.trans hGet)
    rfl
  unfold Call.Affordable
  rw [if_pos (WinOs.satisfiable_of_affords hAffords)]
  exact fun _ => hAffords

/-- A single wait takes an auto-reset event twice. -/
theorem event_taken_twice : Process.boot.Starts ∧
    ¬∀ n t s c handles, (listsEventTwice false)[n]? = some t →
      (Process.boot.run ((listsEventTwice false).take n)).calls t = some (s, c) → c.waitsAll = some handles →
        c.AllOrNone s handles := by
  refine ⟨Process.boot_starts, fun hAll => ?_⟩
  have hRun : ((Process.boot.run ((listsEventTwice false).take 1)).calls
      (.api (.waitMultiple [0x1000, 0x1000] true 0) (fun _ => true) [] {} false)).any
        (fun r => r.2.reports r.1 == some (.all [0x1000, 0x1000]) &&
          r.1.os.kobjects 0x1000 == some (.Event false true)) = true := by decide
  obtain ⟨⟨s, c⟩, hCalls, hSaid⟩ := Option.any_eq_true .. |>.mp hRun
  rw [Bool.and_eq_true, beq_iff_eq, beq_iff_eq] at hSaid
  have hHolds := hAll 1 _ s c [0x1000, 0x1000] rfl hCalls (by obtain rfl := Process.calls_api hCalls; rfl)
  rcases hHolds with ⟨-, hTakes⟩ | ⟨hQuiet, -⟩
  · have hTwice := hTakes.affords 0x1000 List.mem_cons_self _ hSaid.2
    cases hTwice
  · exact hQuiet hSaid.1

end Exemu.Os
