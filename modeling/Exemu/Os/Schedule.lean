import Exemu.Os.Process

/-! # What the calls do to the thread table -/
namespace Exemu.Os

/-- The scheduler sees the same threads and the same current one. -/
structure SameThreads (os os' : WinOs) : Prop where
  threads : os'.threads = os.threads
  current : os'.current = os.current
  currentTid : os'.currentTid = os.currentTid
  mode : os'.guestMode32 = os.guestMode32
  pending : os'.pendingModeSwitch = os.pendingModeSwitch
  nextTid : os.nextTid ≤ os'.nextTid

namespace SameThreads

variable {os os' os'' : WinOs}

theorem refl (os : WinOs) : SameThreads os os := ⟨rfl, rfl, rfl, rfl, rfl, le_rfl⟩

theorem trans (h : SameThreads os os') (h' : SameThreads os' os'') : SameThreads os os'' :=
  ⟨h'.threads.trans h.threads, h'.current.trans h.current, h'.currentTid.trans h.currentTid,
    h'.mode.trans h.mode, h'.pending.trans h.pending, h.nextTid.trans h'.nextTid⟩

end SameThreads

/-- The objects, their names and the child processes are the same. -/
structure SameObjects (os os' : WinOs) : Prop where
  objects : os'.kobjects = os.kobjects
  names : os'.namedKobjects = os.namedKobjects
  next : os'.nextHandle = os.nextHandle
  children : os'.children = os.children

namespace SameObjects

variable {os os' os'' : WinOs}

theorem refl (os : WinOs) : SameObjects os os := ⟨rfl, rfl, rfl, rfl⟩

theorem trans (h : SameObjects os os') (h' : SameObjects os' os'') : SameObjects os os'' :=
  ⟨h'.objects.trans h.objects, h'.names.trans h.names, h'.next.trans h.next, h'.children.trans h.children⟩

end SameObjects

structure Frames (os os' : WinOs) : Prop where
  threads : SameThreads os os'
  objects : SameObjects os os'

namespace Frames

variable {os os' os'' : WinOs}

theorem refl (os : WinOs) : Frames os os := ⟨.refl os, .refl os⟩

theorem trans (h : Frames os os') (h' : Frames os' os'') : Frames os os'' :=
  ⟨h.threads.trans h'.threads, h.objects.trans h'.objects⟩

end Frames

/-! ## Calls on kernel objects leave the threads alone -/

namespace WinOs

theorem setObject_same (os : WinOs) (h : Nat) (o : KObject) : SameThreads os (os.setObject h o) :=
  ⟨rfl, rfl, rfl, rfl, rfl, le_rfl⟩

theorem markExited_same (os : WinOs) (h : Nat) : SameThreads os (os.markExited h) := by
  unfold markExited
  split
  · exact os.setObject_same _ _
  · exact .refl os

theorem makeObject_same (os : WinOs) (spec : ObjectSpec) : SameThreads os (os.makeObject spec).1 := by
  unfold makeObject
  split
  · exact ⟨rfl, rfl, rfl, rfl, rfl, le_rfl⟩
  · cases spec.name <;> exact ⟨rfl, rfl, rfl, rfl, rfl, le_rfl⟩

theorem openSync_same (os : WinOs) (name : Option Name) : SameThreads os (os.openSync name).1 := by
  unfold openSync
  split <;> exact ⟨rfl, rfl, rfl, rfl, rfl, le_rfl⟩

theorem signalSync_same (os : WinOs) (op : SignalOp) (h : Nat) (n : Int) :
    SameThreads os (os.signalSync op h n).1 := by
  unfold signalSync
  split
  · exact .refl os
  · exact os.setObject_same _ _

theorem signalEventHandle_same (os : WinOs) (h : Nat) : SameThreads os (os.signalEventHandle h).1 := by
  unfold signalEventHandle
  split
  · exact os.setObject_same _ _
  · exact os.setObject_same _ _
  · exact .refl os

theorem ntSetEvent_same (os : WinOs) (h : Nat) : SameThreads os (os.ntSetEvent h).1 := by
  unfold ntSetEvent
  split
  · exact .refl os
  · exact os.setObject_same _ _
  · exact os.setObject_same _ _
  · exact .refl os

theorem ntCreateSemaphore_same (os : WinOs) (name : Option Name) (initial max : Int) :
    SameThreads os (os.ntCreateSemaphore name initial max).1 := by
  unfold ntCreateSemaphore
  split
  · exact .refl os
  · exact os.makeObject_same _

theorem ntReleaseSemaphore_same (os : WinOs) (h : Nat) (n : Int) :
    SameThreads os (os.ntReleaseSemaphore h n).1 := by
  unfold ntReleaseSemaphore
  split
  · exact .refl os
  · split
    · exact .refl os
    · split
      · exact os.setObject_same _ _
      · exact .refl os
  · exact .refl os

theorem kobjectAcquire_same (os : WinOs) (h tid : Nat) : SameThreads os (os.kobjectAcquire h tid).1 := by
  unfold kobjectAcquire
  split
  · exact .refl os
  · exact os.setObject_same _ _

theorem acquireAll_same (os : WinOs) (handles : List Nat) (tid : Nat) :
    SameThreads os (os.acquireAll handles tid) := by
  unfold acquireAll
  induction handles generalizing os with
  | nil => exact .refl os
  | cons h hs ih => exact (os.kobjectAcquire_same h tid).trans (ih _)

theorem acquireAny_same (os : WinOs) (tid : Nat) (handles : List Nat) (i : Nat) :
    SameThreads os (os.acquireAny tid handles i).1 := by
  induction handles generalizing os i with
  | nil => exact .refl os
  | cons h hs ih =>
    have hFirst := os.kobjectAcquire_same h tid
    unfold acquireAny
    split
    · rename_i os' hAcquire
      rw [hAcquire] at hFirst
      exact hFirst
    · rename_i os' hAcquire
      rw [hAcquire] at hFirst
      exact hFirst.trans (ih os' (i + 1))

theorem closeHandle_same (os : WinOs) (h : Nat) : SameThreads os (os.closeHandle h).1 := by
  unfold closeHandle
  split
  · exact .refl os
  · exact ⟨rfl, rfl, rfl, rfl, rfl, le_rfl⟩

theorem dupKobjectHandle_same (os : WinOs) (h : Nat) : SameThreads os (os.dupKobjectHandle h).1 := by
  unfold dupKobjectHandle
  split
  · exact .refl os
  · exact ⟨rfl, rfl, rfl, rfl, rfl, le_rfl⟩

theorem createChild_same (os : WinOs) : SameThreads os os.createChild.1 :=
  ⟨rfl, rfl, rfl, rfl, rfl, le_rfl⟩

theorem markChildExited_same {os os' : WinOs} (h : SameThreads os os')
    (c : ChildProcess) : SameThreads os (os'.markChildExited c) := by
  unfold WinOs.markChildExited
  split
  · exact h.trans ((os'.setObject_same _ _).trans (markExited_same _ _))
  · exact h.trans (markExited_same _ _)

theorem resumeChildThread_same {os os' : WinOs} {h n : Nat} (hResume : os.resumeChildThread h = some (os', n)) :
    SameThreads os os' := by
  simp only [resumeChildThread, Option.bind_eq_some_iff, Option.map_eq_some_iff] at hResume
  obtain ⟨i, -, c, -, hResult⟩ := hResume
  split at hResult
  · cases hResult
    refine markChildExited_same ?_ c
    exact ⟨rfl, rfl, rfl, rfl, rfl, le_rfl⟩
  · cases hResult
    exact ⟨rfl, rfl, rfl, rfl, rfl, le_rfl⟩

theorem terminateChild_same (os : WinOs) (h : Nat) : SameThreads os (os.terminateChild h).1 := by
  unfold terminateChild
  split
  · exact .refl os
  · split
    · exact .refl os
    · split
      · refine markChildExited_same ?_ _
        exact ⟨rfl, rfl, rfl, rfl, rfl, le_rfl⟩
      · exact .refl os

theorem resumeThread_cases (os : WinOs) (h : Nat) :
    (os.resumeThread h).1 = os ∨ ∃ i, (os.resumeThread h).1 = os.resumeAt i := by
  unfold resumeThread
  cases os.threadByHandle h with
  | none => exact .inl rfl
  | some i => exact .inr ⟨i, rfl⟩

theorem suspendThread_cases (os : WinOs) (h : Nat) :
    (os.suspendThread h).1 = os ∨ ∃ i, os.threadByHandle h = some i ∧ (os.suspendThread h).1 = os.suspendAt i := by
  unfold suspendThread
  cases os.threadByHandle h with
  | none => exact .inl rfl
  | some i => exact .inr ⟨i, rfl, rfl⟩

theorem ntSuspendThread_cases (os : WinOs) (h : Nat) :
    (os.ntSuspendThread h).1 = os ∨
      ∃ i, os.ntThreadIndex h = some i ∧ (os.ntSuspendThread h).1 = os.suspendAt i := by
  unfold ntSuspendThread
  cases os.ntThreadIndex h with
  | none => exact .inl rfl
  | some i => exact .inr ⟨i, rfl, rfl⟩

theorem ntResumeThread_cases (os : WinOs) (h : Nat) :
    SameThreads os (os.ntResumeThread h).1 ∨ ∃ i, (os.ntResumeThread h).1 = os.resumeAt i := by
  unfold ntResumeThread
  cases hChild : os.resumeChildThread h with
  | some r => exact .inl (resumeChildThread_same hChild)
  | none =>
    cases os.ntThreadIndex h with
    | none => exact .inl (.refl os)
    | some i => exact .inr ⟨i, rfl⟩

theorem createProcess_same (os : WinOs) (held : Bool) :
    SameThreads os (if held then os.createChild.1
      else ((os.createChild.1.resumeChildThread os.createChild.2.2).map (·.1)).getD os.createChild.1) := by
  cases held with
  | true => exact os.createChild_same
  | false =>
    cases hResume : os.createChild.1.resumeChildThread os.createChild.2.2 with
    | none => exact os.createChild_same
    | some r => exact os.createChild_same.trans (resumeChildThread_same hResume)

end WinOs

namespace Sys

theorem mapFound_os (found : Sys × Option U64) (granted : U64 → Bool) (size : U64) (perm : Perm)
    (name : String) : (mapFound found granted size perm name).1.os = found.1.os := by
  unfold mapFound tryMap
  split
  · rfl
  · rename_i s' base
    cases s'.mem.mapFixed (granted base) base size perm name <;> rfl

theorem vmFindFree_os (s : Sys) (size : U64) :
    ∃ next, (s.vmFindFree size).1.os = { s.os with vallocNext := next } := by
  cases h : findFreeFrom s.mem size s.searchFuel (alignUp s.os.vallocNext GRAN) with
  | none => exact ⟨s.os.vallocNext, by rw [vmFindFree, h]⟩
  | some base => exact ⟨base + alignUp size GRAN, by rw [vmFindFree, h]⟩

theorem vmFindFreeBelow_os (s : Sys) (size maxAddr : U64) :
    ∃ next, (s.vmFindFreeBelow size maxAddr).1.os = { s.os with vallocNext := next } := by
  unfold vmFindFreeBelow
  split
  · exact s.vmFindFree_os size
  · exact ⟨s.os.vallocNext, rfl⟩

theorem mapAnywhere_os (s : Sys) (granted : U64 → Bool) (size : U64) (perm : Perm) (name : String) :
    ∃ next, (s.mapAnywhere granted size perm name).1.os = { s.os with vallocNext := next } := by
  unfold mapAnywhere
  rw [mapFound_os]
  exact s.vmFindFree_os size

theorem mapAnywhereLow_os (s : Sys) (granted : U64 → Bool) (size : U64) (perm : Perm) (name : String) :
    ∃ next, (s.mapAnywhereLow granted size perm name).1.os = { s.os with vallocNext := next } := by
  unfold mapAnywhereLow
  rw [mapFound_os]
  exact s.vmFindFreeBelow_os size _

theorem frames_of_vallocNext {os os' : WinOs} (h : ∃ next, os' = { os with vallocNext := next }) :
    Frames os os' := by
  obtain ⟨next, rfl⟩ := h
  exact ⟨⟨rfl, rfl, rfl, rfl, rfl, le_rfl⟩, ⟨rfl, rfl, rfl, rfl⟩⟩

theorem mapAnywhere_frames (s : Sys) (granted : U64 → Bool) (size : U64) (perm : Perm) (name : String) :
    Frames s.os (s.mapAnywhere granted size perm name).1.os :=
  frames_of_vallocNext (s.mapAnywhere_os granted size perm name)

theorem mapAnywhereLow_frames (s : Sys) (granted : U64 → Bool) (size : U64) (perm : Perm) (name : String) :
    Frames s.os (s.mapAnywhereLow granted size perm name).1.os :=
  frames_of_vallocNext (s.mapAnywhereLow_os granted size perm name)

theorem tryMap_os (s : Sys) (granted : U64 → Bool) (base size : U64) (perm : Perm) (name : String) :
    (s.tryMap granted base size perm name).1.os = s.os := by
  unfold tryMap
  split <;> rfl

theorem setLastError_frames (s : Sys) (code : U32) : Frames s.os (s.setLastError code).os :=
  ⟨⟨rfl, rfl, rfl, rfl, rfl, le_rfl⟩, ⟨rfl, rfl, rfl, rfl⟩⟩

theorem vmInsert_frames (s : Sys) (a : VmAlloc) : Frames s.os (s.vmInsert a).os :=
  ⟨⟨rfl, rfl, rfl, rfl, rfl, le_rfl⟩, ⟨rfl, rfl, rfl, rfl⟩⟩

theorem vmAllocRegionBelow_frames (s : Sys) (granted : U64 → Bool) (addr size : U64) (committed : Bool)
    (maxAddr : U64) : Frames s.os (s.vmAllocRegionBelow granted addr size committed maxAddr).1.os := by
  unfold vmAllocRegionBelow
  extract_lets size' base
  split
  · have hFound := (mapFound_os (s.vmFindFreeBelow size' maxAddr) granted size' Perm.RWX "valloc")
    have hSearch := frames_of_vallocNext (s.vmFindFreeBelow_os size' maxAddr)
    split
    · rename_i s' hMap
      rw [hMap] at hFound
      exact (hFound ▸ hSearch).trans (s'.setLastError_frames 8)
    · rename_i s' b hMap
      rw [hMap] at hFound
      exact (hFound ▸ hSearch).trans (s'.vmInsert_frames _)
  · split
    · exact ⟨⟨rfl, rfl, rfl, rfl, rfl, le_rfl⟩, ⟨rfl, rfl, rfl, rfl⟩⟩
    · split
      · have hMapped := s.tryMap_os granted base size' Perm.RWX "valloc"
        split
        · rename_i s' hMap
          rw [hMap] at hMapped
          exact hMapped ▸ s'.vmInsert_frames _
        · rename_i s' hMap
          rw [hMap] at hMapped
          exact hMapped ▸ Frames.refl _
      · exact .refl _

theorem vmRelease_frames (s : Sys) (addr : U64) : Frames s.os (s.vmRelease addr).os := by
  unfold vmRelease
  extract_lets base
  split <;> exact ⟨⟨rfl, rfl, rfl, rfl, rfl, le_rfl⟩, ⟨rfl, rfl, rfl, rfl⟩⟩

theorem mapView_frames (s : Sys) (granted : U64 → Bool) (reqBase viewSize : U64) (low : Bool) :
    Frames s.os (s.mapView granted reqBase viewSize low).1.os := by
  unfold mapView
  extract_lets base placed
  have hPlaced : Frames s.os placed.1.os := by
    unfold placed
    split
    · have hMapped := s.tryMap_os granted base viewSize Perm.RWX "section-view"
      split <;> (rename_i s' hMap; rw [hMap] at hMapped; exact hMapped ▸ Frames.refl _)
    · split
      · exact s.mapAnywhereLow_frames ..
      · exact s.mapAnywhere_frames ..
  clear_value placed
  obtain ⟨s', _ | b⟩ := placed
  · exact hPlaced
  · exact hPlaced.trans (s'.vmInsert_frames _)

theorem newThreadTeb_frames (s : Sys) (granted : U64 → Bool) (tid : Nat) (stackBase stackTop : U64) :
    Frames s.os (s.newThreadTeb granted tid stackBase stackTop).1.os := by
  unfold newThreadTeb
  have hMapped := s.mapAnywhere_frames granted THREAD_TEB_SIZE Perm.RW "thread-teb"
  split
  · rename_i s' hMap
    rw [hMap] at hMapped
    exact hMapped
  · rename_i s' tebBase hMap
    rw [hMap] at hMapped
    split <;> (rename_i hSeed; exact hMapped.trans ((congrArg (·.1.os) hSeed) ▸ Frames.refl _))

theorem freeThreadStack_os (s : Sys) (i : Nat) : (s.freeThreadStack i).os = s.os := by
  unfold freeThreadStack
  cases s.os.threads[i]? with
  | none => rfl
  | some t =>
    have hFold : ∀ (rs : List (U64 × U64)) (s : Sys),
        (rs.foldl (fun s r => s.unmap r.1 r.2) s).os = s.os := by
      intro rs
      induction rs with
      | nil => exact fun _ => rfl
      | cons r rs ih => exact fun s => ih (s.unmap r.1 r.2)
    exact hFold _ s

end Sys

def Thread.ended (code : U32) (t : Thread) : Thread := { t with state := .Terminated, exitCode := code }

theorem WinOs.markExited_os (os : WinOs) (h : Nat) : ∃ k, os.markExited h = { os with kobjects := k } := by
  unfold WinOs.markExited
  split
  · exact ⟨_, rfl⟩
  · exact ⟨os.kobjects, rfl⟩

theorem Sys.endThread_os (s : Sys) (i : Nat) (code : U32) :
    ∃ k, (s.endThread i code).os = { s.os.modThread i (Thread.ended code) with kobjects := k } := by
  unfold Sys.endThread
  rw [Sys.freeThreadStack_os]
  exact WinOs.markExited_os _ _

theorem Sys.endThread_same (s : Sys) (i : Nat) (code : U32) :
    SameThreads (s.os.modThread i (Thread.ended code)) (s.endThread i code).os := by
  unfold Sys.endThread
  rw [Sys.freeThreadStack_os]
  exact WinOs.markExited_same _ _

variable {os : WinOs}

theorem WinOs.pickNext_spec {next : Nat} (hCurrent : os.current < os.threads.length) (h : os.pickNext = some next) :
    next ≠ os.current ∧ next < os.threads.length ∧ os.runnable next = true := by
  unfold pickNext at h
  have hRun := List.find?_some h
  obtain ⟨d, hd, hNext⟩ := List.mem_map.mp (List.mem_of_find?_eq_some h)
  rw [List.mem_range'_1] at hd
  obtain ⟨hLow, hHigh⟩ := hd
  have hPos : 0 < os.threads.length := by omega
  refine ⟨?_, hNext ▸ Nat.mod_lt _ hPos, hRun⟩
  intro hEq
  rw [hEq] at hNext
  by_cases hWrap : os.current + d < os.threads.length
  · rw [Nat.mod_eq_of_lt hWrap] at hNext
    omega
  · rw [Nat.mod_eq_sub_mod (by omega), Nat.mod_eq_of_lt (by omega)] at hNext
    omega

theorem SameThreads.modThread {os' : WinOs} (h : SameThreads os os') (i : Nat) (f : Thread → Thread) :
    SameThreads (os.modThread i f) (os'.modThread i f) where
  threads := congrArg (List.modify · i f) h.threads
  current := h.current
  currentTid := h.currentTid
  mode := h.mode
  pending := h.pending
  nextTid := h.nextTid

theorem SameThreads.suspendAt {os' : WinOs} (h : SameThreads os os') (i : Nat) :
    SameThreads (os.suspendAt i) (os'.suspendAt i) := by
  unfold WinOs.suspendAt
  rw [h.current]
  exact h.modThread i _

/-! ## The moves of the scheduler -/

/-- What one call does to the thread table; `suspended` and `ended` are the threads it is asked to
suspend and to end. -/
inductive Moves (s : Sys) (suspended ended : Option Nat) (s' : Sys) : Prop where
  | stays (hSame : SameThreads s.os s'.os)
  | spawns (t : Thread) (hThreads : s'.os.threads = s.os.threads ++ [t])
      (hState : t.state = .Ready ∨ t.state = .Suspended) (hCount : 0 < t.suspendCount → t.state = .Suspended)
      (hTid : s.os.nextTid ≤ t.tid ∧ t.tid < s'.os.nextTid)
      (hRest : SameThreads { s.os with threads := s'.os.threads } s'.os)
  | suspends (i : Nat) (hAsked : suspended = some i) (hSame : SameThreads (s.os.suspendAt i) s'.os)
  | resumes (i : Nat) (hSame : SameThreads (s.os.resumeAt i) s'.os)
  | ends (i : Nat) (code : U32) (hAsked : ended = some i) (hOther : i ≠ s.os.current)
      (hSame : SameThreads (s.os.modThread i (Thread.ended code)) s'.os)
  | parks (s₀ : Sys) (state : ThreadState) (wait : Thread → Option WaitDesc) (next : Nat)
      (hFrom : SameThreads s.os s₀.os) (hState : state = .Ready ∨ state = .Blocked)
      (hPick : s₀.os.pickNext = some next) (hSame : SameThreads (s₀.park state wait next).os s'.os)
      (hCpu : s'.cpu = (s₀.park state wait next).cpu)
  | leaves (s₀ : Sys) (code : U32) (next : Nat) (hAsked : ended = some s.os.current)
      (hFrom : SameThreads (s.os.modThread s.os.current (Thread.ended code)) s₀.os)
      (hPick : s₀.os.pickNext = some next) (hSame : SameThreads (s₀.activate next).os s'.os)
      (hCpu : s'.cpu = (s₀.activate next).cpu)

namespace Api

def suspends (os : WinOs) : Api → Option Nat
  | .suspendThread h => os.threadByHandle h
  | _ => none

def ends (os : WinOs) : Api → Option Nat
  | .exitThread _ => some os.current
  | .threadExit => some os.current
  | .terminateThread h _ => os.threadByHandle h
  | _ => none

end Api

namespace Syscall

def suspends (os : WinOs) : Syscall → Option Nat
  | .suspendThread h => os.ntThreadIndex h
  | _ => none

def ends (os : WinOs) : Syscall → Option Nat
  | .terminateThread h _ => os.ntThreadIndex h
  | _ => none

def strands (s : Sys) : Syscall → Bool
  | .terminateThread h code =>
    s.os.ntThreadIndex h == some s.os.current && (s.endThread s.os.current code).os.pickNext.isNone
  | _ => false

end Syscall

namespace Sys

variable {s : Sys} {suspended ended : Option Nat}

structure Calm (s : Sys) (suspended ended : Option Nat) (s' : Sys) : Prop where
  moves : Moves s suspended ended s'
  current : s'.os.current = s.os.current

variable {s' : Sys} (granted : U64 → Bool) {s₀ : Sys} {desc : WaitDesc}

theorem Calm.quiet (h : SameThreads s.os s'.os) : Calm s suspended ended s' :=
  ⟨.stays h, h.current⟩

/-- What creating a thread does: nothing the scheduler sees, or one more thread under a fresh id. -/
inductive Spawns (s : Sys) (held : Bool) (s' : Sys) : Prop where
  | fails (hFrames : Frames s.os s'.os)
  | enlists (s₁ : Sys) (t : Nat → Thread) (hFrames : Frames s.os s₁.os)
      (hTid : ∀ h, s.os.nextTid ≤ (t h).tid ∧ (t h).tid < s₁.os.nextTid) (hResult : s' = (s₁.enlist held t).1)

theorem Spawns.calm {held : Bool} (h : Spawns s held s') : Calm s suspended ended s' := by
  cases h with
  | fails hFrames => exact .quiet hFrames.threads
  | enlists s₁ t hFrames hTid hResult =>
    subst hResult
    have hSame := hFrames.threads
    refine ⟨.spawns _ (congrArg (· ++ [_]) hSame.threads) ?_ ?_ (hTid _)
      ⟨rfl, hSame.current, hSame.currentTid, hSame.mode, hSame.pending, hSame.nextTid⟩, hSame.current⟩
    · cases held
      · exact .inl rfl
      · exact .inr rfl
    · cases held
      · exact fun h => absurd h (Nat.lt_irrefl 0)
      · exact fun _ => rfl

theorem bumpTid_frames (s : Sys) : Frames s.os { s.os with nextTid := s.os.nextTid + 1 } :=
  ⟨⟨rfl, rfl, rfl, rfl, rfl, Nat.le_succ _⟩, ⟨rfl, rfl, rfl, rfl⟩⟩

theorem spawnThread_spawns (reqStack entry param : U64) (held : Bool) :
    Spawns s held (s.spawnThread granted reqStack entry param held).1 := by
  unfold spawnThread
  extract_lets stackSize
  have hStack := s.mapAnywhere_frames granted stackSize Perm.RWX "thread-stack"
  generalize s.mapAnywhere granted stackSize Perm.RWX "thread-stack" = mapped at hStack ⊢
  obtain ⟨s₁, _ | stackBase⟩ := mapped
  · exact .fails (hStack.trans (s₁.setLastError_frames 8))
  · dsimp only
    have hTeb := newThreadTeb_frames { s₁ with os := { s₁.os with nextTid := s₁.os.nextTid + 1 } } granted
      s₁.os.nextTid stackBase (stackBase + stackSize)
    generalize newThreadTeb { s₁ with os := { s₁.os with nextTid := s₁.os.nextTid + 1 } } granted
      s₁.os.nextTid stackBase (stackBase + stackSize) = teb at hTeb ⊢
    have hBoth := (hStack.trans s₁.bumpTid_frames).trans hTeb
    obtain ⟨s₂, _ | tebBase⟩ := teb
    · exact .fails (hBoth.trans ((s₂.unmap stackBase stackSize).setLastError_frames 8))
    · dsimp only
      generalize initialState s₂.os tebBase (stackBase + stackSize) entry param = start
      obtain ⟨st, slots, pendingEntry⟩ := start
      have hSlots : (s₂.seed slots).1.os = s₂.os := rfl
      dsimp only
      generalize s₂.seed slots = seeded at hSlots ⊢
      obtain ⟨s₃, e | done⟩ := seeded
      · exact .fails (hSlots ▸ hBoth)
      · dsimp only
        refine .enlists s₃ _ (hSlots ▸ hBoth) ?_ rfl
        exact fun _ => ⟨hStack.threads.nextTid, hSlots ▸ hTeb.threads.nextTid⟩

theorem seedWow64_frames (s : Sys) (w : Wow64Threading) (tid : Nat)
    (stack32 stack32Top stack64 block entry param : U64) :
    Frames s.os (s.seedWow64 w tid stack32 stack32Top stack64 block entry param).1.os := by
  unfold seedWow64
  extract_lets teb32 area
  split
  · rename_i s₁ e hSeed
    exact (congrArg (·.1.os) hSeed) ▸ Frames.refl _
  · rename_i s₁ hSeed
    have hFirst : Frames s.os s₁.os := (congrArg (·.1.os) hSeed) ▸ Frames.refl _
    split
    · exact hFirst
    · exact hFirst

theorem spawnWow64Thread_spawns (reqStack entry param : U64) (held : Bool) :
    Spawns s held (s.spawnWow64Thread granted reqStack entry param held).1 := by
  unfold spawnWow64Thread
  cases s.os.wow64Threading with
  | none => exact .fails (.refl _)
  | some w =>
    dsimp only
    generalize alignUp (maxU64 reqStack THREAD_STACK_SIZE) PAGE = size
    have hLow := s.mapAnywhereLow_frames granted size Perm.RW "wow64-thread-stack32"
    generalize s.mapAnywhereLow granted size Perm.RW "wow64-thread-stack32" = low at hLow ⊢
    obtain ⟨s₁, _ | stack32⟩ := low
    · exact .fails (hLow.trans (s₁.setLastError_frames 8))
    · dsimp only
      have hHigh := s₁.mapAnywhere_frames granted THREAD_STACK_SIZE Perm.RWX "wow64-thread-stack64"
      generalize s₁.mapAnywhere granted THREAD_STACK_SIZE Perm.RWX "wow64-thread-stack64" = high at hHigh ⊢
      obtain ⟨s₂, _ | stack64⟩ := high
      · exact .fails (hLow.trans (hHigh.trans ((s₂.unmap stack32 size).setLastError_frames 8)))
      · dsimp only
        have hBlock := s₂.mapAnywhereLow_frames granted WOW64_THREAD_BLOCK Perm.RW "wow64-thread-teb"
        generalize s₂.mapAnywhereLow granted WOW64_THREAD_BLOCK Perm.RW "wow64-thread-teb" = blk at hBlock ⊢
        have hTwo := hLow.trans hHigh
        obtain ⟨s₃, _ | block⟩ := blk
        · exact .fails (hTwo.trans (hBlock.trans
            (((s₃.unmap stack32 size).unmap stack64 THREAD_STACK_SIZE).setLastError_frames 8)))
        · have hThree := hTwo.trans hBlock
          dsimp only
          have hSeed := seedWow64_frames { s₃ with os := { s₃.os with nextTid := s₃.os.nextTid + 1 } } w
            s₃.os.nextTid stack32 (stack32 + size) stack64 block entry param
          generalize seedWow64 { s₃ with os := { s₃.os with nextTid := s₃.os.nextTid + 1 } } w
            s₃.os.nextTid stack32 (stack32 + size) stack64 block entry param = seeded at hSeed ⊢
          have hAll := (hThree.trans s₃.bumpTid_frames).trans hSeed
          obtain ⟨s₄, e | done⟩ := seeded
          · exact .fails hAll
          · dsimp only
            refine .enlists s₄ _ hAll ?_ rfl
            exact fun _ => ⟨hThree.threads.nextTid, hSeed.threads.nextTid⟩

theorem blockAndSwitch_parks (h : s₀.blockAndSwitch desc = some s') :
    ∃ next, s₀.os.pickNext = some next ∧ s' = s₀.park .Blocked (fun _ => some desc) next := by
  obtain ⟨next, hPick, rfl⟩ := Option.map_eq_some_iff.mp h
  exact ⟨next, hPick, rfl⟩

theorem blockAndSwitch_moves (hFrom : SameThreads s.os s₀.os) (h : s₀.blockAndSwitch desc = some s') :
    Moves s suspended ended s' := by
  obtain ⟨next, hPick, rfl⟩ := blockAndSwitch_parks h
  exact .parks s₀ _ _ next hFrom (.inr rfl) hPick (.refl _) rfl

theorem yieldAndSwitch_moves (hFrom : SameThreads s.os s₀.os) (h : s₀.yieldAndSwitch = some s') :
    Moves s suspended ended s' := by
  obtain ⟨next, hPick, rfl⟩ := Option.map_eq_some_iff.mp h
  exact .parks s₀ _ _ next hFrom (.inl rfl) hPick (.refl _) rfl

/-- The thread that called goes on, unless the call says it switched. -/
structure Answers (s : Sys) (suspended ended : Option Nat) (r : Sys × Outcome) : Prop where
  moves : Moves s suspended ended r.1
  switched : r.1.os.current = s.os.current ∨ r.2 = .Resume

theorem Answers.quiet {r : Sys × Outcome} (h : SameThreads s.os r.1.os) : Answers s suspended ended r :=
  ⟨.stays h, .inl h.current⟩

theorem Calm.answers {r : Sys × Outcome} (h : Calm s suspended ended r.1) : Answers s suspended ended r :=
  ⟨h.moves, .inl h.current⟩

theorem leaveTo_answers {code : U32} (hAsked : ended = some s.os.current)
    (hFrom : SameThreads (s.os.modThread s.os.current (Thread.ended code)) s₀.os) :
    (∃ c, (s₀.leaveTo code).2 = .Exit c) ∨ Answers s suspended ended (s₀.leaveTo code) := by
  unfold leaveTo
  cases hPick : s₀.os.pickNext with
  | none => exact .inl ⟨_, rfl⟩
  | some next => exact .inr ⟨.leaves s₀ code next hAsked hFrom hPick (.refl _) rfl, .inr rfl⟩

theorem exitThread_answers (code : U32) (hAsked : ended = some s.os.current) :
    (∃ c, (s.exitThread code).2 = .Exit c) ∨ Answers s suspended ended (s.exitThread code) :=
  leaveTo_answers hAsked (s.endThread_same _ _)

theorem terminateThread_answers (h : Nat) (code : U32) (hAsked : ended = s.os.threadByHandle h) :
    (∃ c, (s.terminateThread h code).2 = .Exit c) ∨ Answers s suspended ended (s.terminateThread h code) := by
  unfold terminateThread
  cases hIndex : s.os.threadByHandle h with
  | none => exact .inr (.quiet (.refl _))
  | some i =>
    rw [hIndex] at hAsked
    dsimp only
    split
    · rename_i hCurrent
      subst hCurrent
      exact leaveTo_answers hAsked (s.endThread_same _ _)
    · rename_i hOther
      have hSame := s.endThread_same i code
      exact .inr ⟨.ends i code hAsked hOther hSame, .inl hSame.current⟩

theorem waitSingle_answers (h timeout : Nat) : Answers s suspended ended (s.waitSingle h timeout) := by
  unfold waitSingle
  have hAcquire := s.os.kobjectAcquire_same h s.os.currentTid
  generalize s.os.kobjectAcquire h s.os.currentTid = acquired at hAcquire ⊢
  obtain ⟨os, _ | _⟩ := acquired
  · dsimp only
    split
    · exact .quiet hAcquire
    · cases hBlock : ({ s with os := os } : Sys).blockAndSwitch ⟨[h], true⟩ with
      | none => exact .quiet hAcquire
      | some s' =>
        exact ⟨blockAndSwitch_moves hAcquire hBlock, .inr rfl⟩
  · exact .quiet hAcquire

theorem waitMultipleBlocks_answers (hFrom : SameThreads s.os s₀.os) (handles : List Nat) (waitAll : Bool) (timeout : Nat) :
    Answers s suspended ended (s₀.waitMultipleBlocks handles waitAll timeout) := by
  unfold waitMultipleBlocks
  split
  · exact .quiet hFrom
  · cases hBlock : s₀.blockAndSwitch ⟨handles, waitAll⟩ with
    | none => exact .quiet hFrom
    | some s' =>
      exact ⟨blockAndSwitch_moves hFrom hBlock, .inr rfl⟩

theorem waitMultiple_answers (handles : List Nat) (waitAll : Bool) (timeout : Nat) :
    Answers s suspended ended (s.waitMultiple handles waitAll timeout) := by
  unfold waitMultiple
  extract_lets tid
  split
  · split
    · exact .quiet (s.os.acquireAll_same handles tid)
    · have hAcquire := s.os.acquireAny_same tid handles 0
      generalize s.os.acquireAny tid handles 0 = acquired at hAcquire ⊢
      obtain ⟨os, _ | i⟩ := acquired
      · exact waitMultipleBlocks_answers hAcquire handles waitAll timeout
      · exact .quiet hAcquire
  · exact waitMultipleBlocks_answers (.refl _) handles waitAll timeout

theorem serverSelectWait_answers (hFrom : SameThreads s.os s₀.os) (handles : List Nat) (all : Bool) (timeout : Nat) :
    Moves s suspended ended (s₀.serverSelectWait handles all timeout).1 ∧
      ((s₀.serverSelectWait handles all timeout).1.os.current = s.os.current ∨
        (s₀.serverSelectWait handles all timeout).1.os.unixCallBlocked = true) := by
  unfold serverSelectWait
  extract_lets tid os
  split
  · have hAcquire : SameThreads s₀.os os := by
      unfold os
      split
      · exact s₀.os.acquireAll_same handles tid
      · exact s₀.os.acquireAny_same tid handles 0
    exact ⟨.stays (hFrom.trans hAcquire), .inl (hFrom.trans hAcquire).current⟩
  · split
    · exact ⟨.stays hFrom, .inl hFrom.current⟩
    · cases hBlock : s₀.blockAndSwitch ⟨handles, all⟩ with
      | none => exact ⟨.stays hFrom, .inl hFrom.current⟩
      | some s' =>
        obtain ⟨next, hPick, hPark⟩ := blockAndSwitch_parks hBlock
        refine ⟨?_, .inr rfl⟩
        exact .parks s₀ .Blocked (fun _ => some ⟨handles, all⟩) next hFrom (.inr rfl) hPick
          (hPark ▸ ⟨rfl, rfl, rfl, rfl, rfl, le_rfl⟩) (hPark ▸ rfl)

theorem wineUnixCall_answers (req : ServerReq) : Answers s suspended ended (s.wineUnixCall req) := by
  unfold wineUnixCall wineServerCall
  have hStart : SameThreads s.os { s.os with unixCallBlocked := false } := ⟨rfl, rfl, rfl, rfl, rfl, le_rfl⟩
  cases req with
  | createEvent manual initial =>
    have hMake := hStart.trans (WinOs.makeObject_same _ ⟨.Event, none, manual, initial, 0, 0⟩)
    dsimp only
    split <;> exact .quiet hMake
  | closeHandle handle =>
    have hClose := hStart.trans (WinOs.closeHandle_same _ handle)
    dsimp only
    split <;> exact .quiet hClose
  | dupHandle src =>
    have hDup := hStart.trans (WinOs.dupKobjectHandle_same _ src)
    dsimp only
    split <;> exact .quiet hDup
  | select handles op timeout =>
    dsimp only
    have hSelect : Moves s suspended ended
        (srvSelect { s with os := { s.os with unixCallBlocked := false } } handles op timeout).1 ∧
        ((srvSelect { s with os := { s.os with unixCallBlocked := false } } handles op timeout).1.os.current =
            s.os.current ∨
          (srvSelect { s with os := { s.os with unixCallBlocked := false } } handles op
            timeout).1.os.unixCallBlocked = true) := by
      unfold srvSelect
      split
      · exact ⟨.stays hStart, .inl rfl⟩
      · split
        · exact ⟨.stays hStart, .inl rfl⟩
        · exact serverSelectWait_answers hStart handles _ timeout
    obtain ⟨hMoves, hSwitched⟩ := hSelect
    split
    · exact ⟨hMoves, .inr rfl⟩
    · rename_i hBlocked
      exact ⟨hMoves, .inl (hSwitched.resolve_right hBlocked)⟩

theorem completeAndYield_answers (after : CpuState) : Answers s suspended ended (s.completeAndYield after) := by
  have hFrom : SameThreads s.os ({ s with cpu := after } : Sys).os := .refl _
  unfold completeAndYield
  extract_lets s₀
  cases hYield : s₀.yieldAndSwitch with
  | none => exact ⟨.stays hFrom, .inr rfl⟩
  | some s' => exact ⟨yieldAndSwitch_moves hFrom hYield, .inr rfl⟩

theorem spawnedApi_answers {r : Sys × Result (Option (Nat × Nat))} (h : Calm s suspended ended r.1) :
    Answers s suspended ended (spawnedApi r) := by
  unfold spawnedApi
  split <;> exact h.answers

theorem callApi_answers (after : CpuState) (call : Api) :
    (∃ c, (s.callApi granted after call).2 = .Exit c) ∨
      Answers s (call.suspends s.os) (call.ends s.os) (s.callApi granted after call) := by
  cases call with
  | createThread reqStack entry param flags =>
    exact .inr (spawnedApi_answers (spawnThread_spawns granted reqStack entry param _).calm)
  | exitThread code => exact exitThread_answers code rfl
  | threadExit => exact exitThread_answers _ rfl
  | resumeThread h =>
    rcases s.os.resumeThread_cases h with hSame | ⟨i, hResumed⟩
    · exact .inr (.quiet (by rw [show (s.callApi granted after (.resumeThread h)).1.os = s.os from hSame]; exact .refl _))
    · exact .inr ⟨.resumes i (by rw [← hResumed]; exact .refl _), .inl (congrArg (·.current) hResumed)⟩
  | suspendThread h =>
    rcases s.os.suspendThread_cases h with hSame | ⟨i, hIndex, hSuspended⟩
    · exact .inr (.quiet (by rw [show (s.callApi granted after (.suspendThread h)).1.os = s.os from hSame]; exact .refl _))
    · exact .inr ⟨.suspends i hIndex (by rw [← hSuspended]; exact .refl _), .inl (congrArg (·.current) hSuspended)⟩
  | terminateThread h code => exact terminateThread_answers h code rfl
  | sleep => exact .inr (completeAndYield_answers after)
  | switchToThread => exact .inr (completeAndYield_answers after)
  | createSync spec =>
    have hStart : SameThreads s.os { s.os with lastError := 0 } := ⟨rfl, rfl, rfl, rfl, rfl, le_rfl⟩
    exact .inr (.quiet (hStart.trans (WinOs.makeObject_same _ spec)))
  | openSync name => exact .inr (.quiet (s.os.openSync_same name))
  | signalSync op h n => exact .inr (.quiet (s.os.signalSync_same op h n))
  | signalEvent h => exact .inr (.quiet (s.os.signalEventHandle_same h))
  | waitSingle h timeout => exact .inr (waitSingle_answers h timeout)
  | waitMultiple handles waitAll timeout => exact .inr (waitMultiple_answers handles waitAll timeout)
  | closeHandle h => exact .inr (.quiet (s.os.closeHandle_same h))
  | wineUnixCall req => exact .inr (wineUnixCall_answers req)
  | virtualAlloc addr size committed =>
    exact .inr (.quiet (s.vmAllocRegionBelow_frames granted addr size committed (BitVec.allOnes 64)).threads)
  | virtualFree addr => exact .inr (.quiet (s.vmRelease_frames addr).threads)
  | createProcess held => exact .inr (.quiet (s.os.createProcess_same held))

/-- A system call that switches says that the new thread is to go on as it is. -/
structure Serves (s : Sys) (suspended ended : Option Nat) (r : Sys × Result Nat) : Prop where
  moves : Moves s suspended ended r.1
  switched : r.1.os.current = s.os.current ∨
    r.1.os.syscallResumeAsIs = true ∧ r.1.os.pendingSyscallExit = s.os.pendingSyscallExit ∧
      ∃ status, r.2 = .ok status

theorem Serves.quiet {r : Sys × Result Nat} (h : SameThreads s.os r.1.os) : Serves s suspended ended r :=
  ⟨.stays h, .inl h.current⟩

theorem Calm.serves {r : Sys × Result Nat} (h : Calm s suspended ended r.1) : Serves s suspended ended r :=
  ⟨h.moves, .inl h.current⟩

theorem spawnedStatus_serves {r : Sys × Result (Option (Nat × Nat))} (h : Calm s suspended ended r.1) :
    Serves s suspended ended (spawnedStatus r) := by
  unfold spawnedStatus
  split <;> exact h.serves

theorem activate_fields (s : Sys) (next : Nat) :
    (s.activate next).os.syscallResumeAsIs = s.os.syscallResumeAsIs ∧
      (s.activate next).os.pendingSyscallExit = s.os.pendingSyscallExit := by
  unfold activate
  extract_lets os
  split <;> exact ⟨rfl, rfl⟩

theorem blockAndSwitch_serves {status : Nat} (hFrom : SameThreads s.os s₀.os)
    (hExit : s₀.os.pendingSyscallExit = s.os.pendingSyscallExit) (h : s₀.blockAndSwitch desc = some s') :
    Serves s suspended ended ({ s' with os := { s'.os with syscallResumeAsIs := true } }, .ok status) := by
  obtain ⟨next, hPick, rfl⟩ := blockAndSwitch_parks h
  refine ⟨.parks s₀ .Blocked (fun _ => some desc) next hFrom (.inr rfl) hPick
    ⟨rfl, rfl, rfl, rfl, rfl, le_rfl⟩ rfl, .inr ⟨rfl, ?_, status, rfl⟩⟩
  exact (activate_fields _ next).2.trans hExit

theorem ntWait_serves (handles : List Nat) (all : Bool) (timeout : NtTimeout) :
    Serves s suspended ended (s.ntWait handles all timeout) := by
  unfold ntWait
  extract_lets tid s₀
  split
  · split
    · exact .quiet (s.os.acquireAll_same handles tid)
    · have hAcquire := s.os.acquireAny_same tid handles 0
      generalize s.os.acquireAny tid handles 0 = acquired at hAcquire ⊢
      obtain ⟨os, _ | i⟩ := acquired <;> exact .quiet hAcquire
  · split
    · exact .quiet (.refl _)
    · have hFrom : SameThreads s.os s₀.os := .refl _
      cases hBlock : s₀.blockAndSwitch ⟨handles, all⟩ with
      | none =>
        dsimp only
        split <;> exact .quiet hFrom
      | some s' => exact blockAndSwitch_serves hFrom rfl hBlock

theorem afdBlock_serves (polled : Result Nat) : Serves s suspended ended (s.afdBlock polled) := by
  unfold afdBlock
  extract_lets s₀
  have hFrom : SameThreads s.os s₀.os := .refl _
  cases hBlock : s₀.blockAndSwitch ⟨[], true⟩ with
  | none => exact .quiet hFrom
  | some s' => exact blockAndSwitch_serves hFrom rfl hBlock

theorem ntTerminateThread_serves (h : Nat) (code : U32) (hAsked : ended = s.os.ntThreadIndex h)
    (hLive : (Syscall.terminateThread h code).strands s = false) :
    Serves s suspended ended (s.ntTerminateThread h code) := by
  unfold ntTerminateThread
  cases hIndex : s.os.ntThreadIndex h with
  | none => exact .quiet (.refl _)
  | some i =>
    rw [hIndex] at hAsked
    have hSame := s.endThread_same i code
    dsimp only
    split
    · rename_i hCurrent
      subst hCurrent
      have hPick : ∃ next, (s.endThread s.os.current code).os.pickNext = some next := by
        simpa [Syscall.strands, hIndex, Option.isSome_iff_exists, ← Option.isSome_iff_ne_none] using hLive
      obtain ⟨next, hPick⟩ := hPick
      let s₀ : Sys := { s.endThread s.os.current code with
        os := { (s.endThread s.os.current code).os with syscallResumeAsIs := true } }
      have hPick' : s₀.os.pickNext = some next := hPick
      have hFrom : SameThreads (s.os.modThread s.os.current (Thread.ended code)) s₀.os :=
        hSame.trans ⟨rfl, rfl, rfl, rfl, rfl, le_rfl⟩
      have hDone : Serves s suspended ended (s₀.activate next, .ok STATUS_SUCCESS) := by
        refine ⟨.leaves s₀ code next hAsked hFrom hPick' (.refl _) rfl, .inr ⟨?_, ?_, _, rfl⟩⟩
        · exact (activate_fields s₀ next).1
        · obtain ⟨k, hEnded⟩ := s.endThread_os s.os.current code
          exact (activate_fields s₀ next).2.trans (congrArg (·.pendingSyscallExit) hEnded)
      split
      · rename_i next' hPick''
        obtain rfl := Option.some.inj (hPick'.symm.trans hPick'')
        exact hDone
      · rename_i hNone
        cases hPick'.symm.trans hNone
    · rename_i hOther
      exact ⟨.ends i code hAsked hOther hSame, .inl hSame.current⟩

theorem ntHandler_serves (call : Syscall) (hLive : call.strands s = false) :
    Serves s (call.suspends s.os) (call.ends s.os) (ntHandler granted call s) := by
  cases call with
  | createThreadEx reqStack entry param held =>
    unfold ntHandler
    dsimp only
    split
    · exact spawnedStatus_serves (spawnWow64Thread_spawns granted reqStack entry param held).calm
    · exact spawnedStatus_serves (spawnThread_spawns granted reqStack entry param held).calm
  | terminateThread h code => exact ntTerminateThread_serves h code rfl hLive
  | suspendThread h =>
    rcases s.os.ntSuspendThread_cases h with hSame | ⟨i, hIndex, hSuspended⟩
    · exact .quiet (by rw [show (ntHandler granted (.suspendThread h) s).1.os = s.os from hSame]; exact .refl _)
    · exact ⟨.suspends i hIndex (by rw [← hSuspended]; exact .refl _), .inl (congrArg (·.current) hSuspended)⟩
  | resumeThread h =>
    rcases s.os.ntResumeThread_cases h with hSame | ⟨i, hResumed⟩
    · exact .quiet hSame
    · exact ⟨.resumes i (by rw [← hResumed]; exact .refl _), .inl (congrArg (·.current) hResumed)⟩
  | createEvent name manual initial => exact .quiet (s.os.makeObject_same _)
  | openEvent name => exact .quiet (.refl _)
  | setEvent h => exact .quiet (s.os.ntSetEvent_same h)
  | createMutant name owned => exact .quiet (s.os.makeObject_same _)
  | createSemaphore name initial max => exact .quiet (s.os.ntCreateSemaphore_same name initial max)
  | releaseSemaphore h n => exact .quiet (s.os.ntReleaseSemaphore_same h n)
  | waitForSingleObject h timeout =>
    unfold ntHandler ntWaitForSingleObject
    dsimp only
    split
    · exact .quiet (.refl _)
    · exact ntWait_serves [h] false timeout
  | waitForMultipleObjects handles waitType timeout =>
    unfold ntHandler ntWaitForMultipleObjects
    dsimp only
    split
    · exact .quiet (.refl _)
    · split
      · exact .quiet (.refl _)
      · split
        · exact .quiet (.refl _)
        · exact ntWait_serves handles _ timeout
  | deviceIoControlFile polled => exact afdBlock_serves polled
  | close h =>
    unfold ntHandler
    dsimp only
    split
    · exact .quiet (.refl _)
    · exact .quiet (s.os.closeHandle_same h)
  | allocateVirtualMemory addr size committed maxAddr =>
    exact .quiet (s.vmAllocRegionBelow_frames granted addr size committed maxAddr).threads
  | freeVirtualMemory addr => exact .quiet (s.vmRelease_frames addr).threads
  | mapViewOfSection reqBase viewSize low => exact .quiet (s.mapView_frames granted reqBase viewSize low).threads
  | unmapViewOfSection base =>
    unfold ntHandler
    dsimp only
    split
    · exact .quiet (s.vmRelease_frames base).threads
    · exact .quiet (.refl _)
  | createUserProcess => exact .quiet s.os.createChild_same
  | terminateProcess h code =>
    unfold ntHandler
    dsimp only
    split
    · exact .quiet ⟨rfl, rfl, rfl, rfl, rfl, le_rfl⟩
    · exact .quiet (s.os.terminateChild_same h)

end Sys

end Exemu.Os
