import Exemu.Os.Children

/-! # The life of a child

A handle that is closed is noted as zero, and zero finds the first child with a closed handle; and
a call that makes a child keeps it if it cannot tell the guest.
-/
namespace Exemu.Os

namespace Children

variable {s s' : State} {os : WinOs} {c c' : Child} {h handle i : Nat} {spawner : Spawner}

/-! ## What holds of every child -/

/-- The objects behind the open handles, and what the entry says of the child. -/
structure Kept (os : WinOs) (c : Child) : Prop where
  process : c.processHandle ≠ 0 → os.kobjects c.processHandle = some (.Process (decide (c.state = .Exited)))
  thread : c.threadHandle ≠ 0 → os.kobjects c.threadHandle = some (.Thread (decide (c.state = .Exited)))
  code : c.exitCode = STILL_ACTIVE ↔ c.state = .NotStarted
  request : c.request ≠ none ↔ c.state = .NotStarted
  count : c.state = .NotStarted → c.suspendCount = 1

structure Apart (a b : Child) : Prop where
  pid : a.pid ≠ b.pid
  process : a.processHandle ≠ 0 → a.processHandle ≠ b.processHandle
  thread : a.threadHandle ≠ 0 → a.threadHandle ≠ b.threadHandle

variable {a b : Child} {k : Nat} {os' : WinOs} {code : U32}

theorem Apart.symm (h : Apart a b) : Apart b a where
  pid := h.pid.symm
  process hOpen hSame := h.process (hSame ▸ hOpen) hSame.symm
  thread hOpen hSame := h.thread (hSame ▸ hOpen) hSame.symm

instance : Std.Symm Apart := ⟨fun _ _ => Apart.symm⟩

structure Sound (s : State) : Prop where
  kept : ∀ c ∈ s.children, Kept s.os c
  apart : s.children.Pairwise Apart
  objects : ∀ h, s.os.kobjects h ≠ none → 0 < h ∧ h < s.os.nextHandle
  started : 0 < s.os.nextHandle
  ids : ∀ c ∈ s.children, c.pid < s.nextPid
  once : s.spawned.Nodup
  spawnedIds : ∀ pid ∈ s.spawned, pid < s.nextPid
  ran : ∀ c ∈ s.children, c.pid ∈ s.spawned → c.state = .Exited

/-! ## The objects -/

theorem setObject_self (os : WinOs) (h : Nat) (o : KObject) : (os.setObject h o).kobjects h = some o := Function.update_self ..

theorem setObject_ne (os : WinOs) (o : KObject) (hNe : k ≠ h) : (os.setObject h o).kobjects k = os.kobjects k :=
  Function.update_of_ne hNe _ _

/-- The object behind a handle, once it is marked as that of a process that has ended. -/
def markProcess (os : WinOs) (h : Nat) : WinOs :=
  match os.kobjects h with
  | some (.Process _) => os.setObject h (.Process true)
  | _ => os

theorem markChildExited_eq (os : WinOs) (c : ChildProcess) : os.markChildExited c = (markProcess os c.processHandle).markExited c.threadHandle := rfl

theorem markProcess_ne (os : WinOs) (hNe : k ≠ h) : (markProcess os h).kobjects k = os.kobjects k := by
  unfold markProcess
  split
  · exact setObject_ne os _ hNe
  · rfl

theorem markExited_ne (os : WinOs) (hNe : k ≠ h) : (os.markExited h).kobjects k = os.kobjects k := by
  unfold WinOs.markExited
  split
  · exact setObject_ne os _ hNe
  · rfl

theorem markProcess_thread (os : WinOs) {b : Bool} (hThread : os.kobjects k = some (.Thread b)) : (markProcess os h).kobjects k = some (.Thread b) := by
  unfold markProcess
  split
  · rename_i hProcess
    rw [setObject_ne os _ (fun hSame => by rw [hSame, hProcess] at hThread; cases hThread)]
    exact hThread
  · exact hThread

theorem markExited_process (os : WinOs) {b : Bool} (hProcess : os.kobjects k = some (.Process b)) : (os.markExited h).kobjects k = some (.Process b) := by
  unfold WinOs.markExited
  split
  · rename_i hThread
    rw [setObject_ne os _ (fun hSame => by rw [hSame, hThread] at hProcess; cases hProcess)]
    exact hProcess
  · exact hProcess

theorem markChildExited_own (os : WinOs) (c : ChildProcess) {b : Bool} :
    (os.kobjects c.processHandle = some (.Process b) → (os.markChildExited c).kobjects c.processHandle = some (.Process true)) ∧
      (os.kobjects c.threadHandle = some (.Thread b) → (os.markChildExited c).kobjects c.threadHandle = some (.Thread true)) := by
  rw [markChildExited_eq]
  constructor
  · intro hProcess
    refine markExited_process _ ?_
    unfold markProcess
    rw [hProcess]
    exact setObject_self ..
  · intro hThread
    have hStill := markProcess_thread (h := c.processHandle) os hThread
    unfold WinOs.markExited
    rw [hStill]
    exact setObject_self ..

theorem markChildExited_other (os : WinOs) (c : ChildProcess) (hProcess : k ≠ c.processHandle) (hThread : k ≠ c.threadHandle) :
    (os.markChildExited c).kobjects k = os.kobjects k := by
  rw [markChildExited_eq, markExited_ne _ hThread, markProcess_ne _ hProcess]

theorem markProcess_nextHandle (os : WinOs) (h : Nat) : (markProcess os h).nextHandle = os.nextHandle := by
  unfold markProcess
  split <;> rfl

theorem markExited_nextHandle (os : WinOs) (h : Nat) : (os.markExited h).nextHandle = os.nextHandle := by
  unfold WinOs.markExited
  split <;> rfl

theorem markChildExited_nextHandle (os : WinOs) (c : ChildProcess) : (os.markChildExited c).nextHandle = os.nextHandle := by
  rw [markChildExited_eq, markExited_nextHandle, markProcess_nextHandle]

theorem markChildExited_none (os : WinOs) (c : ChildProcess) (hNone : os.kobjects k = none) : (os.markChildExited c).kobjects k = none := by
  have hFirst : (markProcess os c.processHandle).kobjects k = none := by
    unfold markProcess
    split
    · rename_i hProcess
      rw [setObject_ne os _ (fun hSame => by rw [hSame, hProcess] at hNone; cases hNone)]
      exact hNone
    · exact hNone
  rw [markChildExited_eq]
  unfold WinOs.markExited
  split
  · rename_i hThread
    rw [setObject_ne _ _ (fun hSame => by rw [hSame, hThread] at hFirst; cases hFirst)]
    exact hFirst
  · exact hFirst

/-! ## One entry changed -/

theorem Kept.of_same (h : Kept os c) (hProcess : c.processHandle ≠ 0 → os'.kobjects c.processHandle = os.kobjects c.processHandle)
    (hThread : c.threadHandle ≠ 0 → os'.kobjects c.threadHandle = os.kobjects c.threadHandle) : Kept os' c where
  process hOpen := (hProcess hOpen).trans (h.process hOpen)
  thread hOpen := (hThread hOpen).trans (h.thread hOpen)
  code := h.code
  request := h.request
  count := h.count

theorem Kept.not_both (ha : Kept os a) (hb : Kept os b) (hOpen : a.processHandle ≠ 0) : a.processHandle ≠ b.threadHandle := by
  intro hSame
  have hThread := hb.thread (hSame ▸ hOpen)
  rw [← hSame, ha.process hOpen] at hThread
  cases hThread

theorem Kept.of_other (ha : Kept os a) (hb : Kept os b) (hApart : Apart a b)
    (hOther : ∀ k, k ≠ a.processHandle → k ≠ a.threadHandle → os'.kobjects k = os.kobjects k) : Kept os' b := by
  refine hb.of_same (fun hOpen => hOther _ (hApart.symm.process hOpen) (hb.not_both ha hOpen)) fun hOpen => hOther _ ?_ (hApart.symm.thread hOpen)
  intro hSame
  exact ha.not_both hb (hSame ▸ hOpen) hSame.symm

theorem apart_of_keys {xs ys : List Child} (hKeys : ys.map (fun c => (c.pid, c.processHandle, c.threadHandle)) = xs.map fun c => (c.pid, c.processHandle, c.threadHandle))
    (h : xs.Pairwise Apart) : ys.Pairwise Apart := by
  have hMapped {zs : List Child} : zs.Pairwise Apart ↔ (zs.map fun c => (c.pid, c.processHandle, c.threadHandle)).Pairwise fun a b =>
      a.1 ≠ b.1 ∧ (a.2.1 ≠ 0 → a.2.1 ≠ b.2.1) ∧ (a.2.2 ≠ 0 → a.2.2 ≠ b.2.2) := by
    rw [List.pairwise_map]
    exact ⟨fun hz => hz.imp fun hab => ⟨hab.pid, hab.process, hab.thread⟩, fun hz => hz.imp fun hab => ⟨hab.1, hab.2.1, hab.2.2⟩⟩
  rw [hMapped, hKeys]
  exact hMapped.mp h

structure Replaces (s : State) (i : Nat) (c c' : Child) (s' : State) : Prop where
  here : s.children[i]? = some c
  pid : c'.pid = c.pid
  process : c'.processHandle = c.processHandle
  thread : c'.threadHandle = c.threadHandle
  children : s'.children = s.children.set i c'
  nextHandle : s'.os.nextHandle = s.os.nextHandle
  nextPid : s'.nextPid = s.nextPid
  none : ∀ k, s.os.kobjects k = none → s'.os.kobjects k = none
  other : ∀ k, k ≠ c.processHandle → k ≠ c.threadHandle → s'.os.kobjects k = s.os.kobjects k

theorem Sound.replace (hSound : Sound s) (hReplaces : Replaces s i c c' s') (hKept : Kept s'.os c')
    (hSpawned : s'.spawned = s.spawned ∨ s'.spawned = s.spawned ++ [c.pid] ∧ c.pid ∉ s.spawned) (hRan : c'.pid ∈ s'.spawned → c'.state = .Exited) :
    Sound s' := by
  have hMem := First.mem_of_get hReplaces.here
  have hRest {x : Child} (hx : x ∈ s'.children) : x = c' ∨ x ∈ s.children ∧ Apart c x := by
    rw [hReplaces.children] at hx
    exact First.mem_set hSound.apart hReplaces.here hx
  have hIds {pid : Nat} (hp : pid ∈ s'.spawned) : pid ∈ s.spawned ∨ pid = c.pid := by
    rcases hSpawned with hSame | ⟨hMore, -⟩
    · exact .inl (hSame ▸ hp)
    · rw [hMore] at hp
      exact (List.mem_append.mp hp).imp id List.mem_singleton.mp
  constructor
  · intro x hx
    rcases hRest hx with rfl | ⟨hOld, hApart⟩
    · exact hKept
    · exact (hSound.kept c hMem).of_other (hSound.kept x hOld) hApart hReplaces.other
  · refine apart_of_keys ?_ hSound.apart
    rw [hReplaces.children]
    exact First.map_set_same hReplaces.here _ (by rw [hReplaces.pid, hReplaces.process, hReplaces.thread])
  · intro k hk
    rw [hReplaces.nextHandle]
    exact hSound.objects k fun hNone => hk (hReplaces.none k hNone)
  · rw [hReplaces.nextHandle]
    exact hSound.started
  · intro x hx
    rw [hReplaces.nextPid]
    rcases hRest hx with rfl | ⟨hOld, -⟩
    · rw [hReplaces.pid]
      exact hSound.ids c hMem
    · exact hSound.ids x hOld
  · rcases hSpawned with hSame | ⟨hMore, hNew⟩
    · rw [hSame]
      exact hSound.once
    · rw [hMore]
      exact List.nodup_append.mpr ⟨hSound.once, List.nodup_singleton _, fun a ha b hb hSame => hNew (List.mem_singleton.mp hb ▸ hSame ▸ ha)⟩
  · intro pid hp
    rw [hReplaces.nextPid]
    rcases hIds hp with hOld | rfl
    · exact hSound.spawnedIds pid hOld
    · exact hSound.ids c hMem
  · intro x hx hp
    rcases hRest hx with rfl | ⟨hOld, hApart⟩
    · exact hRan hp
    · rcases hIds hp with hBefore | hSame
      · exact hSound.ran x hOld hBefore
      · exact absurd hSame.symm hApart.pid

/-! ## The end of a child -/

def ended (c : Child) (count : Nat) (code : U32) : Child := { c with suspendCount := count, state := .Exited, exitCode := code, request := none }

theorem kept_ended (hKept : Kept os c) (count : Nat) (hCode : code ≠ STILL_ACTIVE) : Kept (os.markChildExited c.toChildProcess) (ended c count code) where
  process hOpen := (markChildExited_own os c.toChildProcess).1 (hKept.process hOpen)
  thread hOpen := (markChildExited_own os c.toChildProcess).2 (hKept.thread hOpen)
  code := iff_of_false hCode (fun h => by cases h)
  request := iff_of_false (fun h => h rfl) (fun h => by cases h)
  count h := by cases h

theorem replaces_ended (hGet : s.children[i]? = some c) (count : Nat) (code : U32) (hChildren : s'.children = s.children.set i (ended c count code))
    (hOs : s'.os = s.os.markChildExited c.toChildProcess) (hNext : s'.nextPid = s.nextPid) : Replaces s i c (ended c count code) s' where
  here := hGet
  pid := rfl
  process := rfl
  thread := rfl
  children := hChildren
  nextHandle := by rw [hOs, markChildExited_nextHandle]
  nextPid := hNext
  none k hk := by
    rw [hOs]
    exact markChildExited_none _ _ hk
  other k hProcess hThread := by
    rw [hOs]
    exact markChildExited_other _ _ hProcess hThread

theorem noteOutcome_same (s : State) (req : ChildProcessRequest) (outcome : Except SpawnError ChildProcessOutcome) :
    (s.noteOutcome req outcome).children = s.children ∧ (s.noteOutcome req outcome).os = s.os ∧
      (s.noteOutcome req outcome).nextPid = s.nextPid ∧ (s.noteOutcome req outcome).spawned = s.spawned := by
  cases outcome with
  | ok o => exact ⟨rfl, rfl, rfl, rfl⟩
  | error e => exact ⟨rfl, rfl, rfl, rfl⟩

theorem runChild_spec {req : ChildProcessRequest} (hGet : s.children[i]? = some c) (hReq : c.request = some req) :
    (s.runChild spawner i).children = s.children.set i (ended c c.suspendCount (State.exitCodeOf (spawner req))) ∧
      (s.runChild spawner i).os = s.os.markChildExited c.toChildProcess ∧ (s.runChild spawner i).nextPid = s.nextPid ∧
      (s.runChild spawner i).spawned = s.spawned ++ [c.pid] := by
  obtain ⟨hSame, hOs, hNext, hSpawned⟩ := noteOutcome_same s req (spawner req)
  unfold State.runChild
  rw [hGet]
  dsimp only
  rw [hReq]
  dsimp only
  rw [hSame, hOs, hNext, hSpawned]
  exact ⟨rfl, rfl, rfl, rfl⟩

structure Resumed (s : State) (spawner : Spawner) (i : Nat) (c : Child) (s' : State) : Prop where
  waits : c.state = .Exited → Replaces s i c { c with suspendCount := c.suspendCount - 1 } s' ∧ s'.os = s.os ∧ s'.spawned = s.spawned
  runs : c.state = .NotStarted → ∃ req, c.request = some req ∧ Replaces s i c (ended c 0 (State.exitCodeOf (spawner req))) s' ∧
    s'.os = s.os.markChildExited c.toChildProcess ∧ s'.spawned = s.spawned ++ [c.pid]

theorem resumeChild_resumed (hKept : Kept s.os c) (hGet : s.children[i]? = some c) : Resumed s spawner i c (s.resumeChild spawner i).1 := by
  obtain ⟨hi, -⟩ := List.getElem?_eq_some_iff.mp hGet
  unfold State.resumeChild
  rw [hGet]
  dsimp only
  constructor
  · intro hExited
    rw [if_neg (fun h => by rw [hExited] at h; cases h.2)]
    exact ⟨⟨hGet, rfl, rfl, rfl, rfl, rfl, rfl, fun _ h => h, fun _ _ _ => rfl⟩, rfl, rfl⟩
  · intro hFresh
    rw [hKept.count hFresh, if_pos ⟨rfl, hFresh⟩]
    obtain ⟨req, hReq⟩ := Option.ne_none_iff_exists'.mp (hKept.request.mpr hFresh)
    have hHere : (s.children.set i { c with suspendCount := 1 - 1 })[i]? = some { c with suspendCount := 1 - 1 } := List.getElem?_set_self hi
    obtain ⟨hChildren, hOs, hNext, hSpawned⟩ := @runChild_spec { s with children := s.children.set i { c with suspendCount := 1 - 1 } }
      { c with suspendCount := 1 - 1 } i spawner req hHere hReq
    refine ⟨req, hReq, replaces_ended hGet 0 _ ?_ hOs hNext, hOs, hSpawned⟩
    rw [hChildren, List.set_set]
    rfl

theorem Resumed.sound (hSound : Sound s) (hGet : s.children[i]? = some c) (h : Resumed s spawner i c s')
    (hCode : ∀ req, c.request = some req → State.exitCodeOf (spawner req) ≠ STILL_ACTIVE) : Sound s' := by
  have hMem := First.mem_of_get hGet
  have hKept := hSound.kept c hMem
  cases hState : c.state with
  | Exited =>
    obtain ⟨hReplaces, hOs, hSpawned⟩ := h.waits hState
    refine hSound.replace hReplaces ?_ (.inl hSpawned) fun _ => hState
    rw [hOs]
    exact ⟨hKept.process, hKept.thread, hKept.code, hKept.request, fun hNot => by cases hState.symm.trans hNot⟩
  | NotStarted =>
    obtain ⟨req, hReq, hReplaces, hOs, hSpawned⟩ := h.runs hState
    refine hSound.replace hReplaces ?_ (.inr ⟨hSpawned, fun hOld => ?_⟩) fun _ => rfl
    · rw [hOs]
      exact kept_ended hKept 0 (hCode req hReq)
    · cases hState.symm.trans (hSound.ran c hMem hOld)

theorem terminateChild_cases (s : State) (handle : Nat) (code : U32) : (s.terminateChild handle code).1 = s ∨
    ∃ i c, s.children[i]? = some c ∧ c.processHandle = handle ∧ c.state = .NotStarted ∧
      Replaces s i c (ended c c.suspendCount code) (s.terminateChild handle code).1 ∧
      (s.terminateChild handle code).1.os = s.os.markChildExited c.toChildProcess ∧ (s.terminateChild handle code).1.spawned = s.spawned := by
  unfold State.terminateChild
  cases hFound : s.childByProcessHandle handle with
  | none => exact .inl rfl
  | some i =>
    obtain ⟨c, hGet, -, hHandle⟩ := First.found hFound
    dsimp only
    rw [hGet]
    dsimp only
    split
    · rename_i hState
      exact .inr ⟨i, c, hGet, beq_iff_eq.mp hHandle, hState, replaces_ended hGet c.suspendCount code rfl rfl rfl, rfl, rfl⟩
    · exact .inl rfl

/-! ## A new child -/

theorem createChild_objects (s : State) (request : ChildProcessRequest) :
    (s.createChild request).1.os.kobjects s.os.nextHandle = some (.Process false) ∧
      (s.createChild request).1.os.kobjects (s.os.nextHandle + 4) = some (.Thread false) ∧
      ∀ k, k ≠ s.os.nextHandle → k ≠ s.os.nextHandle + 4 → (s.createChild request).1.os.kobjects k = s.os.kobjects k := by
  refine ⟨?_, setObject_self .., fun k hProcess hThread => ?_⟩
  · exact (setObject_ne _ _ (show s.os.nextHandle ≠ s.os.nextHandle + 4 by omega)).trans (setObject_self ..)
  · exact (setObject_ne _ _ hThread).trans (setObject_ne _ _ hProcess)

theorem Sound.handle_lt (hSound : Sound s) (hMem : c ∈ s.children) :
    (c.processHandle ≠ 0 → c.processHandle < s.os.nextHandle) ∧ (c.threadHandle ≠ 0 → c.threadHandle < s.os.nextHandle) := by
  constructor
  · intro hOpen
    exact (hSound.objects _ (by rw [(hSound.kept c hMem).process hOpen]; exact Option.some_ne_none _)).2
  · intro hOpen
    exact (hSound.objects _ (by rw [(hSound.kept c hMem).thread hOpen]; exact Option.some_ne_none _)).2

theorem createChild_sound (hSound : Sound s) (request : ChildProcessRequest) : Sound (s.createChild request).1 := by
  obtain ⟨hProcess, hThread, hOther⟩ := createChild_objects s request
  have hStarted := hSound.started
  have hMem {x : Child} (hx : x ∈ (s.createChild request).1.children) : x ∈ s.children ∨ x = (s.createChild request).2 :=
    (List.mem_append.mp hx).imp id List.mem_singleton.mp
  constructor
  · intro x hx
    rcases hMem hx with hOld | rfl
    · have hLess := hSound.handle_lt hOld
      refine (hSound.kept x hOld).of_same (fun hOpen => hOther _ ?_ ?_) fun hOpen => hOther _ ?_ ?_
      · exact (hLess.1 hOpen).ne
      · exact ((hLess.1 hOpen).trans (by omega)).ne
      · exact (hLess.2 hOpen).ne
      · exact ((hLess.2 hOpen).trans (by omega)).ne
    · exact ⟨fun _ => hProcess, fun _ => hThread, iff_of_true rfl rfl, iff_of_true (fun h => by cases h) rfl, fun _ => rfl⟩
  · refine List.pairwise_append.mpr ⟨hSound.apart, List.pairwise_singleton _ _, fun a ha b hb => ?_⟩
    rw [List.mem_singleton.mp hb]
    have hLess := hSound.handle_lt ha
    refine ⟨(hSound.ids a ha).ne, fun hOpen => (hLess.1 hOpen).ne, fun hOpen => ?_⟩
    exact ((hLess.2 hOpen).trans (Nat.lt_add_of_pos_right (by decide))).ne
  · intro k hk
    change 0 < k ∧ k < s.os.nextHandle + 4 + 4
    by_cases hNew : k = s.os.nextHandle ∨ k = s.os.nextHandle + 4
    · omega
    · rw [hOther k (fun h => hNew (.inl h)) fun h => hNew (.inr h)] at hk
      obtain ⟨hPos, hLess⟩ := hSound.objects k hk
      omega
  · change 0 < s.os.nextHandle + 4 + 4
    omega
  · intro x hx
    change x.pid < s.nextPid + 8
    rcases hMem hx with hOld | rfl
    · exact (hSound.ids x hOld).trans (by omega)
    · change s.nextPid < s.nextPid + 8
      omega
  · exact hSound.once
  · exact fun pid hp => (hSound.spawnedIds pid hp).trans (Nat.lt_add_of_pos_right (by decide))
  · intro x hx hp
    rcases hMem hx with hOld | rfl
    · exact hSound.ran x hOld hp
    · exact absurd (hSound.spawnedIds _ hp) (Nat.lt_irrefl _)

/-! ## A handle closed -/

def withoutProcess (handle : Nat) (c : Child) : Child := if c.processHandle == handle then { c with processHandle := 0 } else c

def withoutThread (handle : Nat) (c : Child) : Child := if c.threadHandle == handle then { c with threadHandle := 0 } else c

def without (handle : Nat) (c : Child) : Child := withoutThread handle (withoutProcess handle c)

theorem without_fields (handle : Nat) (c : Child) :
    (without handle c).processHandle = (if c.processHandle = handle then 0 else c.processHandle) ∧
      (without handle c).threadHandle = (if c.threadHandle = handle then 0 else c.threadHandle) ∧
      (without handle c).pid = c.pid ∧ (without handle c).state = c.state ∧ (without handle c).exitCode = c.exitCode ∧
      (without handle c).request = c.request ∧ (without handle c).suspendCount = c.suspendCount := by
  unfold without withoutThread withoutProcess
  by_cases hProcess : c.processHandle = handle
  · by_cases hThread : c.threadHandle = handle
    · simp [hProcess, hThread]
    · simp [hProcess, hThread]
  · by_cases hThread : c.threadHandle = handle
    · simp [hProcess, hThread]
    · simp [hProcess, hThread]

theorem Apart.without (h : Apart c c') (handle : Nat) : Apart (without handle c) (without handle c') := by
  obtain ⟨hProcess, hThread, hPid, -⟩ := without_fields handle c
  obtain ⟨hProcess', hThread', hPid', -⟩ := without_fields handle c'
  constructor
  · rw [hPid, hPid']
    exact h.pid
  · rw [hProcess, hProcess']
    intro hOpen
    split at hOpen
    · exact absurd rfl hOpen
    · rename_i hNe
      rw [if_neg hNe]
      split
      · exact hOpen
      · exact h.process hOpen
  · rw [hThread, hThread']
    intro hOpen
    split at hOpen
    · exact absurd rfl hOpen
    · rename_i hNe
      rw [if_neg hNe]
      split
      · exact hOpen
      · exact h.thread hOpen

theorem forgetChildHandle_children (hApart : s.children.Pairwise Apart) (hOpen : handle ≠ 0) :
    (s.forgetChildHandle handle).children =
      (s.children.map (without handle)).filter fun c => c.processHandle != 0 || c.threadHandle != 0 := by
  have hFirst : First.change (fun c : Child => c.processHandle == handle) (fun c => { c with processHandle := 0 }) s.children =
      s.children.map (withoutProcess handle) := by
    refine First.change_eq_map (hApart.imp ?_)
    rintro a b hab ⟨ha, hb⟩
    rw [beq_iff_eq] at ha hb
    exact hab.process (ha ▸ hOpen) (ha.trans hb.symm)
  have hSecond : First.change (fun c : Child => c.threadHandle == handle) (fun c => { c with threadHandle := 0 }) (s.children.map (withoutProcess handle)) =
      (s.children.map (withoutProcess handle)).map (withoutThread handle) := by
    refine First.change_eq_map (List.pairwise_map.mpr (hApart.imp ?_))
    rintro a b hab ⟨ha, hb⟩
    have hKeep (x : Child) : (withoutProcess handle x).threadHandle = x.threadHandle := by
      unfold withoutProcess
      split <;> rfl
    rw [beq_iff_eq, hKeep] at ha hb
    exact hab.thread (ha ▸ hOpen) (ha.trans hb.symm)
  change (First.change _ _ (First.change _ _ s.children)).filter _ = _
  rw [hFirst, hSecond, List.map_map]
  rfl

theorem forgetChildHandle_mem (hApart : s.children.Pairwise Apart) (hOpen : handle ≠ 0) {x : Child} (hx : x ∈ (s.forgetChildHandle handle).children) :
    ∃ c ∈ s.children, x = without handle c := by
  rw [forgetChildHandle_children hApart hOpen] at hx
  obtain ⟨c, hMem, rfl⟩ := List.mem_map.mp (List.mem_of_mem_filter hx)
  exact ⟨c, hMem, rfl⟩

theorem Kept.without (h : Kept os c) (hOther : ∀ k, k ≠ handle → os'.kobjects k = os.kobjects k) : Kept os' (without handle c) := by
  obtain ⟨hProcess, hThread, -, hState, hCode, hRequest, hCount⟩ := without_fields handle c
  constructor
  · rw [hProcess, hState]
    intro hOpen
    split at hOpen
    · exact absurd rfl hOpen
    · rename_i hNe
      rw [if_neg hNe, hOther _ hNe]
      exact h.process hOpen
  · rw [hThread, hState]
    intro hOpen
    split at hOpen
    · exact absurd rfl hOpen
    · rename_i hNe
      rw [if_neg hNe, hOther _ hNe]
      exact h.thread hOpen
  · rw [hCode, hState]
    exact h.code
  · rw [hRequest, hState]
    exact h.request
  · rw [hCount, hState]
    exact h.count

theorem closeHandle_cases (s : State) (handle : Nat) : (s.closeHandle handle).1 = s ∨ (s.os.kobjects handle ≠ none ∧
    ∃ os, (s.closeHandle handle).1 = { s with os := os }.forgetChildHandle handle ∧ os.nextHandle = s.os.nextHandle ∧
      os.kobjects = Function.update s.os.kobjects handle none) := by
  unfold State.closeHandle
  split
  · exact .inl rfl
  · rename_i o hSome
    exact .inr ⟨hSome ▸ Option.some_ne_none o, _, rfl, rfl, rfl⟩

theorem closeHandle_sound (hSound : Sound s) (handle : Nat) : Sound (s.closeHandle handle).1 := by
  rcases closeHandle_cases s handle with hSame | ⟨hThere, os, hEnd, hNext, hObjects⟩
  · rw [hSame]
    exact hSound
  · rw [hEnd]
    have hOpen : handle ≠ 0 := (hSound.objects handle hThere).1.ne'
    have hMem {x : Child} (hx : x ∈ ({ s with os := os }.forgetChildHandle handle).children) : ∃ c ∈ s.children, x = without handle c :=
      forgetChildHandle_mem (s := { s with os := os }) hSound.apart hOpen hx
    constructor
    · intro x hx
      obtain ⟨c, hc, rfl⟩ := hMem hx
      refine (hSound.kept c hc).without fun k hk => ?_
      change os.kobjects k = _
      rw [hObjects, Function.update_of_ne hk]
    · rw [forgetChildHandle_children (s := { s with os := os }) hSound.apart hOpen]
      exact (List.pairwise_map.mpr (hSound.apart.imp fun hab => hab.without handle)).filter _
    · intro k hk
      change 0 < k ∧ k < os.nextHandle
      rw [hNext]
      refine hSound.objects k fun hNone => hk ?_
      change os.kobjects k = none
      rw [hObjects]
      by_cases hHere : k = handle
      · rw [hHere, Function.update_self]
      · rw [Function.update_of_ne hHere]
        exact hNone
    · change 0 < os.nextHandle
      rw [hNext]
      exact hSound.started
    · intro x hx
      obtain ⟨c, hc, rfl⟩ := hMem hx
      rw [(without_fields handle c).2.2.1]
      exact hSound.ids c hc
    · exact hSound.once
    · exact hSound.spawnedIds
    · intro x hx hp
      obtain ⟨c, hc, rfl⟩ := hMem hx
      obtain ⟨-, -, hPid, hState, -⟩ := without_fields handle c
      rw [hPid] at hp
      rw [hState]
      exact hSound.ran c hc hp

/-! ## What a call does -/

/-- The child that a call runs: the one whose handle is resumed, or the one that it makes. -/
def Resumes (s : State) : Call → Child → Prop
  | .ntResume _ handle _, c => c ∈ s.children ∧ c.threadHandle = handle ∧ handle ≠ 0 ∧ s.os.kobjects handle = some (.Thread false) ∧ c.suspendCount = 1
  | .win32Create names _ args, c => args.suspended = false ∧ ∃ request, args.check names s.spawnDepth = .ok (.ok request) ∧ c = (s.createChild request).2
  | _, _ => False

def Call.Fails (r : Result U32) : Call → Prop
  | .ntCreate .. => r ≠ .ok STATUS_SUCCESS
  | .win32Create .. => r ≠ .ok 1
  | _ => False

structure Does (s : State) (call : Call) (s' : State) (r : Result U32) : Prop where
  runs : s'.spawned = s.spawned ∨ ∃ c, Resumes s call c ∧ s'.spawned = s.spawned ++ [c.pid] ∧
    ∃ c' ∈ s'.children, c'.pid = c.pid ∧ c'.suspendCount = 0 ∧ c'.state = .Exited
  constant : ∀ c ∈ s.children, c.state = .Exited → ∀ c' ∈ s'.children, c'.pid = c.pid → c'.state = .Exited ∧ c'.exitCode = c.exitCode
  failed : call.Fails r → s'.children = s.children ∧ s'.os.kobjects = s.os.kobjects

/-- The guest does not resume the handle zero while a child has a closed one, has the results of a
creation written, and no child ends with the code of one that runs. -/
def Orderly (s : State) : Call → Prop
  | .ntCreate names args => ∀ attrs request, args.check names s.spawnDepth = .ok (.ok (attrs, request)) →
    (writeFields s.mem (args.fields s.ptrSize attrs (s.createChild request).2)).2 = .ok ()
  | .win32Create names spawner args => ∀ request, args.check names s.spawnDepth = .ok (.ok request) →
    (args.suspended = false → State.exitCodeOf (spawner request) ≠ STILL_ACTIVE) ∧
      (writeFields s.mem (args.fields s.ptrSize (s.createChild request).2)).2 = .ok ()
  | .ntResume spawner handle _ => (handle = 0 → ∀ c ∈ s.children, c.threadHandle ≠ 0) ∧
    ∀ c ∈ s.children, c.threadHandle = handle → ∀ req, c.request = some req → State.exitCodeOf (spawner req) ≠ STILL_ACTIVE
  | .terminate handle code => ∀ c ∈ s.children, c.processHandle = handle → c.state = .NotStarted → code ≠ STILL_ACTIVE
  | _ => True

structure Same (s s' : State) : Prop where
  children : s'.children = s.children
  kobjects : s'.os.kobjects = s.os.kobjects
  nextHandle : s'.os.nextHandle = s.os.nextHandle
  nextPid : s'.nextPid = s.nextPid
  spawned : s'.spawned = s.spawned

theorem Same.refl (s : State) : Same s s := ⟨rfl, rfl, rfl, rfl, rfl⟩

theorem Same.sound (h : Same s s') (hSound : Sound s) : Sound s' where
  kept c hc := by
    rw [h.children] at hc
    exact (hSound.kept c hc).of_same (fun _ => by rw [h.kobjects]) fun _ => by rw [h.kobjects]
  apart := h.children ▸ hSound.apart
  objects k hk := by
    rw [h.kobjects] at hk
    rw [h.nextHandle]
    exact hSound.objects k hk
  started := h.nextHandle ▸ hSound.started
  ids c hc := by
    rw [h.children] at hc
    rw [h.nextPid]
    exact hSound.ids c hc
  once := h.spawned ▸ hSound.once
  spawnedIds pid hp := by
    rw [h.spawned] at hp
    rw [h.nextPid]
    exact hSound.spawnedIds pid hp
  ran c hc hp := by
    rw [h.children] at hc
    rw [h.spawned] at hp
    exact hSound.ran c hc hp

theorem Sound.eq_of_pid (hSound : Sound s) (ha : a ∈ s.children) (hb : b ∈ s.children) (hPid : a.pid = b.pid) : a = b := by
  by_contra hNe
  exact (hSound.apart.forall ha hb hNe).pid hPid

theorem Sound.eq_of_thread (hSound : Sound s) (ha : a ∈ s.children) (hb : b ∈ s.children) (hOpen : a.threadHandle ≠ 0)
    (hSame : a.threadHandle = b.threadHandle) : a = b := by
  by_contra hNe
  exact (hSound.apart.forall ha hb hNe).thread hOpen hSame

def Constant (s s' : State) : Prop :=
  ∀ c ∈ s.children, c.state = .Exited → ∀ c' ∈ s'.children, c'.pid = c.pid → c'.state = .Exited ∧ c'.exitCode = c.exitCode

theorem Same.constant (h : Same s s') (hSound : Sound s) : Constant s s' := by
  intro c hc hState c' hc' hPid
  rw [h.children] at hc'
  cases hSound.eq_of_pid hc' hc hPid
  exact ⟨hState, rfl⟩

theorem Replaces.constant (h : Replaces s i c c' s') (hSound : Sound s) (hKeep : c.state = .Exited → c'.state = .Exited ∧ c'.exitCode = c.exitCode) :
    Constant s s' := by
  intro x hx hState x' hx' hPid
  rw [h.children] at hx'
  rcases First.mem_set hSound.apart h.here hx' with rfl | ⟨hOld, -⟩
  · obtain rfl := hSound.eq_of_pid (First.mem_of_get h.here) hx (h.pid.symm.trans hPid)
    exact hKeep hState
  · cases hSound.eq_of_pid hOld hx hPid
    exact ⟨hState, rfl⟩

theorem closeHandle_constant (hSound : Sound s) (handle : Nat) : Constant s (s.closeHandle handle).1 := by
  rcases closeHandle_cases s handle with hSame | ⟨hThere, os, hEnd, -, -⟩
  · rw [hSame]
    exact (Same.refl s).constant hSound
  · rw [hEnd]
    intro c hc hState c' hc' hPid
    obtain ⟨x, hx, rfl⟩ := forgetChildHandle_mem (s := { s with os := os }) hSound.apart (hSound.objects handle hThere).1.ne' hc'
    obtain ⟨-, -, hPid', hState', hCode, -⟩ := without_fields handle x
    rw [hPid'] at hPid
    cases hSound.eq_of_pid hx hc hPid
    exact ⟨hState'.trans hState, hCode⟩

theorem createChild_constant (hSound : Sound s) (request : ChildProcessRequest) : Constant s (s.createChild request).1 := by
  intro c hc hState c' hc' hPid
  rcases List.mem_append.mp hc' with hOld | hNew
  · cases hSound.eq_of_pid hOld hc hPid
    exact ⟨hState, rfl⟩
  · rw [List.mem_singleton.mp hNew] at hPid
    exact absurd hPid (hSound.ids c hc).ne'

theorem Resumed.constant (h : Resumed s spawner i c s') (hSound : Sound s) : Constant s s' := by
  cases hState : c.state with
  | Exited => exact (h.waits hState).1.constant hSound fun hExited => ⟨hExited, rfl⟩
  | NotStarted =>
    obtain ⟨req, -, hReplaces, -⟩ := h.runs hState
    exact hReplaces.constant hSound fun hExited => by cases hState.symm.trans hExited

theorem answer_same (s : State) (status : U32) (fields : List Field) : Same s (s.answer status fields).1 := by
  unfold State.answer State.writeAll
  cases writeFields s.mem fields with
  | mk mem done =>
    cases done with
    | ok _ => exact ⟨rfl, rfl, rfl, rfl, rfl⟩
    | error e => exact ⟨rfl, rfl, rfl, rfl, rfl⟩

theorem answer_ok {status : U32} {fields : List Field} (h : (writeFields s.mem fields).2 = .ok ()) : (s.answer status fields).2 = .ok status := by
  unfold State.answer State.writeAll
  cases hWrite : writeFields s.mem fields with
  | mk mem done =>
    rw [hWrite] at h
    cases h
    rfl

/-! ## Each call -/

variable {call : Call} {r : Result U32}

structure Serves (s : State) (call : Call) (s' : State) (r : Result U32) : Prop where
  sound : Sound s'
  does : Does s call s' r

theorem Same.serves (h : Same s s') (hSound : Sound s) : Serves s call s' r where
  sound := h.sound hSound
  does := ⟨.inl h.spawned, h.constant hSound, fun _ => ⟨h.children, h.kobjects⟩⟩

theorem Serves.of_same {s'' : State} (h : Serves s call s' r) (hSame : Same s' s'') : Serves s call s'' r where
  sound := hSame.sound h.sound
  does := by
    refine ⟨?_, ?_, fun hFails => ?_⟩
    · rw [hSame.spawned, hSame.children]
      exact h.does.runs
    · intro c hc hState c' hc' hPid
      rw [hSame.children] at hc'
      exact h.does.constant c hc hState c' hc' hPid
    · rw [hSame.children, hSame.kobjects]
      exact h.does.failed hFails

theorem close_serves (hSound : Sound s) (handle : Nat) (hNot : ¬call.Fails r) : Serves s call (s.closeHandle handle).1 r where
  sound := closeHandle_sound hSound handle
  does := by
    refine ⟨.inl ?_, closeHandle_constant hSound handle, fun hFails => absurd hFails hNot⟩
    rcases closeHandle_cases s handle with hSame | ⟨-, os, hEnd, -⟩
    · rw [hSame]
    · rw [hEnd]
      rfl

theorem ntResume_serves (hSound : Sound s) (prevOut : U64) (hOrderly : Orderly s (.ntResume spawner handle prevOut)) :
    Serves s (.ntResume spawner handle prevOut) (s.ntResumeThread spawner handle prevOut).1 r := by
  unfold State.ntResumeThread
  dsimp only
  cases hChild : s.childByThreadHandle handle with
  | some i =>
    obtain ⟨c, hGet, hMem, hHandle⟩ := First.found hChild
    obtain rfl := beq_iff_eq.mp hHandle
    have hOpen : c.threadHandle ≠ 0 := fun hZero => hOrderly.1 hZero c hMem hZero
    have hKept := hSound.kept c hMem
    have hResumed : Resumed s spawner i c (s.resumeChild spawner i).1 := resumeChild_resumed hKept hGet
    have hDone : Serves s (.ntResume spawner c.threadHandle prevOut) (s.resumeChild spawner i).1 r := by
      refine ⟨hResumed.sound hSound hGet (hOrderly.2 c hMem rfl), ?_, hResumed.constant hSound, fun hFails => hFails.elim⟩
      cases hState : c.state with
      | Exited => exact .inl (hResumed.waits hState).2.2
      | NotStarted =>
        obtain ⟨req, -, hReplaces, -, hSpawned⟩ := hResumed.runs hState
        have hThread := hKept.thread hOpen
        rw [hState] at hThread
        refine .inr ⟨c, ⟨hMem, rfl, hOpen, hThread, hKept.count hState⟩, hSpawned, ended c 0 (State.exitCodeOf (spawner req)), ?_, rfl, rfl, rfl⟩
        rw [hReplaces.children]
        exact First.mem_set_self hGet _
    rw [State.resumeChildThread, hChild]
    exact hDone.of_same (answer_same _ _ _)
  | none =>
    rw [State.resumeChildThread, hChild]
    dsimp only [Option.map_none]
    cases s.os.ntThreadIndex handle with
    | none => exact (Same.refl s).serves hSound
    | some i =>
      have hSame : Same s { s with os := s.os.resumeAt i } := ⟨rfl, rfl, rfl, rfl, rfl⟩
      exact (hSame.serves hSound).of_same (answer_same _ _ _)

theorem resumeThread_same (s : State) (handle : Nat) : Same s (s.resumeThread handle).1 := by
  unfold State.resumeThread WinOs.resumeThread
  cases s.os.threadByHandle handle with
  | none => exact ⟨rfl, rfl, rfl, rfl, rfl⟩
  | some i => exact ⟨rfl, rfl, rfl, rfl, rfl⟩

theorem terminateChild_serves (hSound : Sound s) (hOrderly : Orderly s (.terminate handle code)) :
    Serves s (.terminate handle code) (s.terminateChild handle code).1 r := by
  rcases terminateChild_cases s handle code with hSame | ⟨i, c, hGet, hHandle, hState, hReplaces, hOs, hSpawned⟩
  · rw [hSame]
    exact (Same.refl s).serves hSound
  · have hMem := First.mem_of_get hGet
    refine ⟨hSound.replace hReplaces ?_ (.inl hSpawned) fun _ => rfl, .inl hSpawned, ?_, fun hFails => hFails.elim⟩
    · rw [hOs]
      exact kept_ended (hSound.kept c hMem) _ (hOrderly c hMem hHandle hState)
    · exact hReplaces.constant hSound fun hExited => by cases hState.symm.trans hExited

theorem ntTerminate_serves (hSound : Sound s) (hOrderly : Orderly s (.terminate handle code)) :
    Serves s (.terminate handle code) (s.ntTerminateProcess handle code).1 r := by
  unfold State.ntTerminateProcess
  split
  · exact Same.serves ⟨rfl, rfl, rfl, rfl, rfl⟩ hSound
  · have hServes : Serves s (.terminate handle code) (s.terminateChild handle code).1 r := terminateChild_serves hSound hOrderly
    cases hEnd : s.terminateChild handle code with
    | mk s' found =>
      rw [hEnd] at hServes
      cases found <;> exact hServes

theorem ntClose_serves (hSound : Sound s) (handle : Nat) : Serves s (.ntClose handle) (s.ntClose handle).1 r := by
  unfold State.ntClose
  split
  · exact (Same.refl s).serves hSound
  · have hServes : Serves s (.ntClose handle) (s.closeHandle handle).1 r := close_serves hSound handle id
    cases hEnd : s.closeHandle handle with
    | mk s' found =>
      rw [hEnd] at hServes
      cases found <;> exact hServes

theorem getExitCode_same (s : State) (handle : Nat) (out : U64) : Same s (s.win32GetExitCodeProcess handle out).1 := by
  unfold State.win32GetExitCodeProcess
  dsimp only
  split
  · exact ⟨rfl, rfl, rfl, rfl, rfl⟩
  · exact answer_same _ _ _

theorem queryInformation_same (s : State) (handle : Nat) (cls : U32) (buffer : U64) (length : Nat) (returnLength : U64) :
    Same s (s.ntQueryInformationProcess handle cls buffer length returnLength).1 := by
  unfold State.ntQueryInformationProcess
  dsimp only
  split
  · split
    · exact .refl s
    · exact answer_same _ _ _
  · generalize (if s.os.cfg.is64bit = true then 0x30 else 0x18) = need
    split
    · exact .refl s
    · split
      · exact .refl s
      · split
        · exact answer_same _ _ _
        · split
          · exact answer_same _ _ _
          · exact .refl s

theorem ntCreate_serves (hSound : Sound s) {names : Names} {args : NtCreate} (hOrderly : Orderly s (.ntCreate names args)) :
    Serves s (.ntCreate names args) (s.ntCreateUserProcess names args).1 (s.ntCreateUserProcess names args).2 := by
  unfold State.ntCreateUserProcess
  cases hCheck : args.check names s.spawnDepth with
  | error e => exact (Same.refl s).serves hSound
  | ok checked =>
    cases checked with
    | error status => exact (Same.refl s).serves hSound
    | ok found =>
      obtain ⟨attrs, request⟩ := found
      dsimp only
      have hWritten : ((s.createChild request).1.answer STATUS_SUCCESS (args.fields (s.createChild request).1.ptrSize attrs (s.createChild request).2)).2 =
          .ok STATUS_SUCCESS := answer_ok (hOrderly attrs request hCheck)
      rw [hWritten]
      have hMade : Serves s (.ntCreate names args) (s.createChild request).1 (.ok STATUS_SUCCESS) :=
        ⟨createChild_sound hSound request, .inl rfl, createChild_constant hSound request, fun hFails => absurd rfl hFails⟩
      exact hMade.of_same (answer_same _ _ _)

theorem markChildExited_cfg (os : WinOs) (c : ChildProcess) : (os.markChildExited c).cfg = os.cfg := by
  have hProcess : (markProcess os c.processHandle).cfg = os.cfg := by
    unfold markProcess
    split <;> rfl
  rw [markChildExited_eq]
  unfold WinOs.markExited
  split
  · exact hProcess
  · exact hProcess

theorem noteOutcome_mem (s : State) (req : ChildProcessRequest) (outcome : Except SpawnError ChildProcessOutcome) :
    (s.noteOutcome req outcome).mem = s.mem := by
  cases outcome with
  | ok o => rfl
  | error e => rfl

theorem resumeChild_guest (s : State) (spawner : Spawner) (i : Nat) :
    (s.resumeChild spawner i).1.mem = s.mem ∧ (s.resumeChild spawner i).1.os.cfg = s.os.cfg := by
  unfold State.resumeChild
  split
  · exact ⟨rfl, rfl⟩
  · dsimp only
    split
    · unfold State.runChild
      split
      · exact ⟨rfl, rfl⟩
      · split
        · exact ⟨rfl, rfl⟩
        · refine ⟨noteOutcome_mem _ _ _, (markChildExited_cfg _ _).trans ?_⟩
          rw [(noteOutcome_same _ _ _).2.1]
    · exact ⟨rfl, rfl⟩

theorem resumeMade (hSound : Sound s) (request : ChildProcessRequest) :
    ∃ i, (s.createChild request).1.childByThreadHandle (s.createChild request).2.threadHandle = some i ∧
      (s.createChild request).1.children[i]? = some (s.createChild request).2 := by
  have hMade := createChild_sound hSound request
  have hNew : (s.createChild request).2 ∈ (s.createChild request).1.children := List.mem_append_right _ (List.mem_singleton_self _)
  have hOpen : (s.createChild request).2.threadHandle ≠ 0 := by
    change s.os.nextHandle + 4 ≠ 0
    omega
  cases hFound : (s.createChild request).1.childByThreadHandle (s.createChild request).2.threadHandle with
  | none =>
    have hNot := First.not_found hFound _ hNew
    rw [beq_self_eq_true] at hNot
    cases hNot
  | some i =>
    obtain ⟨c, hGet, hMem, hHandle⟩ := First.found hFound
    obtain rfl := hMade.eq_of_thread hNew hMem hOpen (beq_iff_eq.mp hHandle).symm
    exact ⟨i, rfl, hGet⟩

theorem win32Create_serves (hSound : Sound s) {names : Names} {args : Win32Create} (hOrderly : Orderly s (.win32Create names spawner args)) :
    Serves s (.win32Create names spawner args) (s.win32CreateProcess names spawner args).1 (s.win32CreateProcess names spawner args).2 := by
  unfold State.win32CreateProcess
  cases hCheck : args.check names s.spawnDepth with
  | error e => exact (Same.refl s).serves hSound
  | ok checked =>
    cases checked with
    | error code => exact Same.serves ⟨rfl, rfl, rfl, rfl, rfl⟩ hSound
    | ok request =>
      obtain ⟨hCode, hWrites⟩ := hOrderly request hCheck
      have hMade := createChild_sound hSound request
      have hConstant := createChild_constant hSound request
      dsimp only
      by_cases hSuspended : args.suspended = true
      · rw [if_pos hSuspended]
        have hWritten : ((s.createChild request).1.answer 1 (args.fields (s.createChild request).1.ptrSize (s.createChild request).2)).2 = .ok 1 :=
          answer_ok hWrites
        rw [hWritten]
        have hServes : Serves s (.win32Create names spawner args) (s.createChild request).1 (.ok 1) :=
          ⟨hMade, .inl rfl, hConstant, fun hFails => absurd rfl hFails⟩
        exact hServes.of_same (answer_same _ _ _)
      · rw [if_neg hSuspended]
        obtain ⟨i, hFound, hGet⟩ := resumeMade hSound request
        rw [State.resumeChildThread, hFound]
        dsimp only [Option.map_some, Option.getD_some]
        have hResumed := @resumeChild_resumed _ _ _ spawner (hMade.kept _ (First.mem_of_get hGet)) hGet
        obtain ⟨hMem, hCfg⟩ := resumeChild_guest (s.createChild request).1 spawner i
        have hPtr : ((s.createChild request).1.resumeChild spawner i).1.ptrSize = s.ptrSize := by
          unfold State.ptrSize
          rw [hCfg]
          rfl
        have hWritten : (((s.createChild request).1.resumeChild spawner i).1.answer 1
            (args.fields ((s.createChild request).1.resumeChild spawner i).1.ptrSize (s.createChild request).2)).2 = .ok 1 := by
          refine answer_ok ?_
          rw [hMem, hPtr]
          exact hWrites
        rw [hWritten]
        obtain ⟨req, hReq, hReplaces, -, hSpawned⟩ := hResumed.runs rfl
        have hServes : Serves s (.win32Create names spawner args) ((s.createChild request).1.resumeChild spawner i).1 (.ok 1) := by
          refine ⟨hResumed.sound hMade hGet fun req hSome => ?_, .inr ⟨(s.createChild request).2, ⟨Bool.eq_false_iff.mpr hSuspended, request, hCheck, rfl⟩, hSpawned,
            ended (s.createChild request).2 0 (State.exitCodeOf (spawner req)), ?_, rfl, rfl, rfl⟩, ?_, fun hFails => absurd rfl hFails⟩
          · cases hSome
            exact hCode (Bool.eq_false_iff.mpr hSuspended)
          · rw [hReplaces.children]
            exact First.mem_set_self hGet _
          · intro c hc hState c' hc' hPid
            exact hResumed.constant hMade c (List.mem_append_left _ hc) hState c' hc' hPid
        exact hServes.of_same (answer_same _ _ _)

theorem step_serves (hSound : Sound s) (hOrderly : Orderly s call) : Serves s call (s.step call).1 (s.step call).2 := by
  cases call with
  | ntCreate names args => exact ntCreate_serves hSound hOrderly
  | win32Create names spawner args => exact win32Create_serves hSound hOrderly
  | close handle => exact close_serves hSound handle id
  | ntClose handle => exact ntClose_serves hSound handle
  | ntResume spawner handle prevOut => exact ntResume_serves hSound prevOut hOrderly
  | resume handle => exact (resumeThread_same s handle).serves hSound
  | terminate handle code => exact ntTerminate_serves hSound hOrderly
  | queryInformation handle cls buffer length returnLength =>
    exact (queryInformation_same s handle cls buffer length returnLength).serves hSound
  | getExitCode handle out => exact (getExitCode_same s handle out).serves hSound

/-! ## Every run -/

structure Starts (s : State) : Prop where
  children : s.children = []
  spawned : s.spawned = []
  objects : ∀ h, s.os.kobjects h ≠ none → 0 < h ∧ h < s.os.nextHandle
  started : 0 < s.os.nextHandle

/-- Calls in any order, with the guest's memory changed between them. -/
inductive Run : State → Prop
  | start {s : State} (h : Starts s) : Run s
  | guest {s : State} (h : Run s) (mem : VirtualMemory) : Run { s with mem := mem }
  | call {s : State} (h : Run s) (call : Call) (hOrderly : Orderly s call) : Run (s.step call).1

theorem Starts.sound (h : Starts s) : Sound s where
  kept c hc := by
    rw [h.children] at hc
    cases hc
  apart := h.children ▸ List.Pairwise.nil
  objects := h.objects
  started := h.started
  ids c hc := by
    rw [h.children] at hc
    cases hc
  once := h.spawned ▸ List.nodup_nil
  spawnedIds pid hp := by
    rw [h.spawned] at hp
    cases hp
  ran c hc := by
    rw [h.children] at hc
    cases hc

theorem Run.sound (h : Run s) : Sound s := by
  induction h with
  | start hStarts => exact hStarts.sound
  | @guest s _ mem ih =>
    have hSame : Same s { s with mem := mem } := ⟨rfl, rfl, rfl, rfl, rfl⟩
    exact hSame.sound ih
  | call _ call hOrderly ih => exact (step_serves ih hOrderly).sound

/-- A child runs at most once and through its own open handle, its objects and its code say whether it
has ended, and a creation that fails leaves nothing. -/
theorem Run.children_orderly (h : Run s) : s.spawned.Nodup ∧ (∀ c ∈ s.children, Kept s.os c) ∧
    ∀ call, Orderly s call → Does s call (s.step call).1 (s.step call).2 :=
  ⟨h.sound.once, h.sound.kept, fun _ hOrderly => (step_serves h.sound hOrderly).does⟩

/-! ## A handle closed and the handle zero -/

def childStart : State where
  os :=
    { cfg := ⟨true, 0, 0⟩, lastError := 0, vmAllocs := [], vallocNext := 0, nextHandle := 0x1000, kobjects := fun _ => none
      namedKobjects := fun _ => none, currentTid := MAIN_TID, threads := [.main MAIN_TID], current := 0, nextTid := MAIN_TID + 1
      threadExitThunk := 0, threadTlsThunk := 0, threadEntryThunk := 0, hasTls := false, schedTicks := 0, children := [], wow64Peb32 := 0
      guestMode32 := false, pendingModeSwitch := none, wow64Threading := none, unixStackTop := 0, syscallGuestRsp := 0
      syscallResumeAsIs := false, syscallResult64 := none, pendingSyscallExit := none, unixCallBlocked := false }
  mem := .new
  children := []
  nextPid := 0x2000
  spawnDepth := 0
  stdoutBuf := []
  stderrBuf := []
  childFailure := none
  spawned := []

def plainNames : Names := ⟨some, fun _ => true, id, id, id⟩

def endsWithSeven : Spawner := fun _ => .ok ⟨7, [], []⟩

def makeSuspended : Call := .win32Create plainNames endsWithSeven ⟨.ok "a.exe", .ok "", .ok "", false, true, 0, []⟩

def childMade : State := (childStart.step makeSuspended).1

theorem childMade_run : Run childMade := by
  refine .call (.start ⟨rfl, rfl, fun h hNot => absurd rfl hNot, by decide⟩) makeSuspended fun request _ => ⟨fun hNot => ?_, rfl⟩
  cases hNot

/-- A child resumed through its own handle. -/
theorem orderly_of_resume : (childMade.step (.ntResume endsWithSeven 0x1004 0)).1.spawned = [0x2000] ∧
    Does childMade (.ntResume endsWithSeven 0x1004 0) (childMade.step (.ntResume endsWithSeven 0x1004 0)).1
      (childMade.step (.ntResume endsWithSeven 0x1004 0)).2 := by
  have hOrderly : Orderly childMade (.ntResume endsWithSeven 0x1004 0) := by
    refine ⟨fun hNot => absurd hNot (by decide), fun c _ _ req _ => ?_⟩
    change (7 : U32) ≠ STILL_ACTIVE
    decide
  exact ⟨by decide, childMade_run.children_orderly.2.2 _ hOrderly⟩

def childClosed : State := (childMade.step (.close 0x1004)).1

/-- A child whose handle is closed, run by resuming the handle zero. -/
theorem orderly_misses : Run childClosed ∧ (childClosed.step (.ntResume endsWithSeven 0 0)).1.spawned = [0x2000] ∧
    ¬Does childClosed (.ntResume endsWithSeven 0 0) (childClosed.step (.ntResume endsWithSeven 0 0)).1
      (childClosed.step (.ntResume endsWithSeven 0 0)).2 := by
  have hSpawned : (childClosed.step (.ntResume endsWithSeven 0 0)).1.spawned = [0x2000] := by decide
  refine ⟨childMade_run.call (.close 0x1004) trivial, hSpawned, fun h => ?_⟩
  rcases h.runs with hSame | ⟨c, ⟨-, -, hOpen, -⟩, -⟩
  · rw [hSpawned] at hSame
    exact absurd hSame (by decide)
  · exact hOpen rfl

end Children

end Exemu.Os
