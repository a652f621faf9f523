import Exemu.Os.Turn

/-! # The object table as a transition system

Every call of a thread is a sequence of steps on the table of objects: one object is created,
acquired, signalled, closed or copied at a time.
-/
namespace Exemu.Os

structure Table where
  objects : Nat → Option KObject
  names : Name → Option Nat
  next : Nat

def WinOs.table (os : WinOs) : Table := ⟨os.kobjects, os.namedKobjects, os.nextHandle⟩

theorem SameObjects.table {os os' : WinOs} (h : SameObjects os os') : os'.table = os.table := by
  unfold WinOs.table
  rw [h.objects, h.names, h.next]

namespace Call

def releases : Call → Option Nat
  | .api (.signalSync .ReleaseMutex h _) _ _ => some h
  | _ => none

def closes : Call → Option Nat
  | .api (.closeHandle h) _ _ => some h
  | .api (.wineUnixCall (.closeHandle h)) _ _ => some h
  | .syscall (.close h) _ => if unclosable h then none else some h
  | _ => none

def copies : Call → Option Nat
  | .api (.wineUnixCall (.dupHandle src)) _ _ => some src
  | _ => none

def signals : Call → Option (SignalOp × Nat × Int)
  | .api (.signalSync op h n) _ _ => some (op, h, n)
  | _ => none

def sets : Call → Option Nat
  | .api (.signalEvent h) _ _ => some h
  | .syscall (.setEvent h) _ => some h
  | _ => none

/-- The semaphore `NtReleaseSemaphore` adds to, and what it adds. -/
def adds : Call → Option (Nat × Int)
  | .syscall (.releaseSemaphore h n) _ => some (h, n)
  | _ => none

/-- The count and the limit of the semaphore that is asked for; the system call refuses bad ones. -/
def semaphore : Call → Option (Int × Int)
  | .api (.createSync spec) _ _ => if spec.kind = .Semaphore then some (spec.count, spec.max) else none
  | .syscall (.createSemaphore _ initial max) _ =>
    if max < 1 ∨ initial < 0 ∨ initial > max then none else some (initial, max)
  | _ => none

def name : Call → Option Name
  | .api (.createSync spec) _ _ => spec.name
  | .syscall (.createEvent name _ _) _ => name
  | .syscall (.createMutant name _) _ => name
  | .syscall (.createSemaphore name _ _) _ => name
  | _ => none

end Call

namespace Table

def set (tb : Table) (h : Nat) (o : Option KObject) : Table :=
  { tb with objects := Function.update tb.objects h o }

def create (tb : Table) (o : KObject) (name : Option Name) : Table where
  objects := Function.update tb.objects tb.next (some o)
  names := name.elim tb.names fun n => Function.update tb.names n (some tb.next)
  next := tb.next + 4

def close (tb : Table) (h : Nat) : Table where
  objects := Function.update tb.objects h none
  names n := if tb.names n = some h then none else tb.names n
  next := tb.next

variable (tb : Table) (o : KObject) (name : Option Name) {h x : Nat}

@[simp] theorem set_self (o : Option KObject) : (tb.set h o).objects h = o := Function.update_self ..

theorem set_of_ne (o : Option KObject) (hx : x ≠ h) : (tb.set h o).objects x = tb.objects x :=
  Function.update_of_ne hx ..

@[simp] theorem create_self : (tb.create o name).objects tb.next = some o := Function.update_self ..

theorem create_of_ne (hx : x ≠ tb.next) : (tb.create o name).objects x = tb.objects x :=
  Function.update_of_ne hx ..

@[simp] theorem close_self : (tb.close h).objects h = none := Function.update_self ..

theorem close_of_ne (hx : x ≠ h) : (tb.close h).objects x = tb.objects x := Function.update_of_ne hx ..

/-- The objects that are neither acquired nor signalled through the signalling API. -/
inductive Adjusts (c : Call) (h : Nat) : KObject → KObject → Prop
  | event (manual signaled : Bool) (hAsked : c.sets = some h) : Adjusts c h (.Event manual signaled) (.Event manual true)
  | timer (manual signaled : Bool) (hAsked : c.sets = some h) : Adjusts c h (.Timer manual signaled) (.Timer manual true)
  | semaphore (count max n : Int) (hAsked : c.adds = some (h, n)) (hLow : 1 ≤ n) (hFits : count + n < 2 ^ 31)
      (hMax : max ≤ 0 ∨ count + n ≤ max) : Adjusts c h (.Semaphore count max) (.Semaphore (count + n) max)
  | thread (exited : Bool) : Adjusts c h (.Thread exited) (.Thread true)
  | process (exited : Bool) : Adjusts c h (.Process exited) (.Process true)

/-- One step of a call `c` made by the thread `tid`. -/
inductive Step (tid : Nat) (c : Call) (tb : Table) : Table → Prop
  | creates (o : KObject) (name : Option Name) (hOwner : o.owner? = none ∨ o.owner? = some tid)
      (hAsked : name = none ∨ name = c.name) (hNew : name.bind tb.names = none)
      (hSemaphore : ∀ count max, o = .Semaphore count max → c.semaphore = some (count, max)) :
      Step tid c tb (tb.create o name)
  | acquires (h : Nat) (o : KObject) (hGet : tb.objects h = some o) :
      Step tid c tb (tb.set h (some (o.acquire tid).1))
  | signals (op : SignalOp) (n : Int) (h : Nat) (o : KObject) (hGet : tb.objects h = some o)
      (hAsked : op = .ReleaseMutex → c.releases = some h) (hCalled : c.signals = some (op, h, n)) :
      Step tid c tb (tb.set h (some (WinOs.signaledBy op tid n o).1))
  | adjusts (h : Nat) (o o' : KObject) (hGet : tb.objects h = some o) (hKind : o.isMutex = false)
      (hKind' : o'.isMutex = false) (hHow : Adjusts c h o o') : Step tid c tb (tb.set h (some o'))
  | closes (h : Nat) (hAsked : c.closes = some h) : Step tid c tb (tb.close h)
  | copies (src : Nat) (o : KObject) (hGet : tb.objects src = some o) (hAsked : c.copies = some src) :
      Step tid c tb (tb.create o none)

def Steps (tid : Nat) (c : Call) : Table → Table → Prop := Relation.ReflTransGen (Step tid c)

end Table

open Table

def StepsFrom (c : Call) (os os' : WinOs) : Prop := Steps os.currentTid c os.table os'.table

namespace WinOs

variable {c : Call}

variable {os' : WinOs} (os : WinOs)

theorem sameObjects_steps {os : WinOs} (h : SameObjects os os') : StepsFrom c os os' := by
  unfold StepsFrom
  rw [h.table]
  exact .refl

theorem StepsFrom.trans {os os'' : WinOs} (h : StepsFrom c os os') (hTid : os'.currentTid = os.currentTid)
    (h' : StepsFrom c os' os'') : StepsFrom c os os'' := by
  unfold StepsFrom at *
  rw [hTid] at h'
  exact Relation.ReflTransGen.trans h h'

theorem makeObject_steps (spec : ObjectSpec) (hName : spec.name = none ∨ spec.name = c.name)
    (hSemaphore : spec.kind = .Semaphore → c.semaphore = some (spec.count, spec.max)) :
    StepsFrom c os (os.makeObject spec).1 := by
  have hOwner : (os.newObject spec).owner? = none ∨ (os.newObject spec).owner? = some os.currentTid := by
    unfold newObject
    cases spec.kind with
    | Mutex => cases spec.signaled <;> simp [KObject.owner?]
    | Event => exact .inl rfl
    | Semaphore => exact .inl rfl
    | Timer => exact .inl rfl
  have hMade : ∀ count max, os.newObject spec = .Semaphore count max → c.semaphore = some (count, max) := by
    intro count max hNew
    unfold newObject at hNew
    cases hKind : spec.kind with
    | Semaphore =>
      rw [hKind] at hNew
      cases hNew
      exact hSemaphore hKind
    | Event => rw [hKind] at hNew; cases hNew
    | Mutex => rw [hKind] at hNew; cases hNew
    | Timer => rw [hKind] at hNew; cases hNew
  unfold makeObject
  cases hFound : spec.name.bind os.namedKobjects with
  | some h => exact .refl
  | none =>
    have hStep : Step os.currentTid c os.table _ := .creates _ spec.name hOwner hName hFound hMade
    cases hSpec : spec.name <;> (rw [hSpec] at hStep; exact .single hStep)

theorem setObject_steps {os : WinOs} {h : Nat} {o : KObject}
    (hStep : Step os.currentTid c os.table (os.table.set h (some o))) : StepsFrom c os (os.setObject h o) :=
  .single hStep

theorem markExited_steps (h : Nat) : StepsFrom c os (os.markExited h) := by
  unfold markExited
  split
  · rename_i exited hGet
    exact setObject_steps (.adjusts h (.Thread exited) (.Thread true) hGet rfl rfl (.thread exited))
  · exact .refl

theorem signalSync_steps (op : SignalOp) (h : Nat) (n : Int) (hAsked : op = .ReleaseMutex → c.releases = some h)
    (hCalled : c.signals = some (op, h, n)) : StepsFrom c os (os.signalSync op h n).1 := by
  unfold signalSync
  split
  · exact .refl
  · rename_i o hGet
    exact setObject_steps (.signals op n h o hGet hAsked hCalled)

theorem signalEventHandle_steps (h : Nat) (hAsked : c.sets = some h) : StepsFrom c os (os.signalEventHandle h).1 := by
  unfold signalEventHandle
  split
  · rename_i manual signaled hGet
    exact setObject_steps (.adjusts h _ _ hGet rfl rfl (.event manual signaled hAsked))
  · rename_i manual signaled hGet
    exact setObject_steps (.adjusts h _ _ hGet rfl rfl (.timer manual signaled hAsked))
  · exact .refl

theorem ntSetEvent_steps (h : Nat) (hAsked : c.sets = some h) : StepsFrom c os (os.ntSetEvent h).1 := by
  unfold ntSetEvent
  split
  · exact .refl
  · rename_i manual signaled hGet
    exact setObject_steps (.adjusts h _ _ hGet rfl rfl (.event manual signaled hAsked))
  · rename_i manual signaled hGet
    exact setObject_steps (.adjusts h _ _ hGet rfl rfl (.timer manual signaled hAsked))
  · exact .refl

theorem ntCreateSemaphore_steps (name : Option Name) (initial max : Int) (hName : name = none ∨ name = c.name)
    (hSemaphore : ¬(max < 1 ∨ initial < 0 ∨ initial > max) → c.semaphore = some (initial, max)) :
    StepsFrom c os (os.ntCreateSemaphore name initial max).1 := by
  unfold ntCreateSemaphore
  split
  · exact .refl
  · rename_i hValid
    exact os.makeObject_steps _ hName fun _ => hSemaphore hValid

theorem ntReleaseSemaphore_steps (h : Nat) (n : Int) (hAsked : c.adds = some (h, n)) :
    StepsFrom c os (os.ntReleaseSemaphore h n).1 := by
  unfold ntReleaseSemaphore
  split
  · exact .refl
  · rename_i count max hGet
    split
    · exact .refl
    · rename_i hLow
      split
      · rename_i hFits
        exact setObject_steps
          (.adjusts h _ _ hGet rfl rfl (.semaphore count max n hAsked (by omega) hFits.1 hFits.2))
      · exact .refl
  · exact .refl

theorem kobjectAcquire_steps (h : Nat) : StepsFrom c os (os.kobjectAcquire h os.currentTid).1 := by
  unfold kobjectAcquire
  split
  · exact .refl
  · rename_i o hGet
    exact setObject_steps (.acquires h o hGet)

theorem acquireAll_steps (handles : List Nat) : StepsFrom c os (os.acquireAll handles os.currentTid) := by
  unfold acquireAll
  induction handles generalizing os with
  | nil => exact .refl
  | cons h hs ih =>
    have hTid := (os.kobjectAcquire_same h os.currentTid).currentTid
    have hRest := ih (os.kobjectAcquire h os.currentTid).1
    rw [hTid] at hRest
    exact StepsFrom.trans (os.kobjectAcquire_steps h) hTid hRest

theorem acquireAny_steps (handles : List Nat) (i : Nat) : StepsFrom c os (os.acquireAny os.currentTid handles i).1 := by
  induction handles generalizing os i with
  | nil => exact .refl
  | cons h hs ih =>
    have hFirst := os.kobjectAcquire_steps (c := c) h
    have hTid := (os.kobjectAcquire_same h os.currentTid).currentTid
    unfold acquireAny
    split
    · rename_i os' hAcquire
      rw [hAcquire] at hFirst
      exact hFirst
    · rename_i os' hAcquire
      rw [hAcquire] at hFirst hTid
      have hRest := ih os' (i + 1)
      rw [hTid] at hRest
      exact StepsFrom.trans hFirst hTid hRest

theorem closeHandle_steps (h : Nat) (hAsked : c.closes = some h) : StepsFrom c os (os.closeHandle h).1 := by
  unfold closeHandle
  split
  · exact .refl
  · exact .single (.closes h hAsked)

theorem dupKobjectHandle_steps (src : Nat) (hAsked : c.copies = some src) : StepsFrom c os (os.dupKobjectHandle src).1 := by
  unfold dupKobjectHandle
  split
  · exact .refl
  · rename_i o hGet
    exact .single (.copies src o hGet hAsked)

theorem createChild_steps : StepsFrom c os os.createChild.1 := by
  have hFirst : Step os.currentTid c os.table (os.table.create (.Process false) none) :=
    .creates _ none (.inl rfl) (.inl rfl) rfl nofun
  have hSecond : Step os.currentTid c (os.table.create (.Process false) none)
      ((os.table.create (.Process false) none).create (.Thread false) none) :=
    .creates _ none (.inl rfl) (.inl rfl) rfl nofun
  exact .tail (.single hFirst) hSecond

theorem markChildExited_steps (child : ChildProcess) : StepsFrom c os (os.markChildExited child) := by
  unfold markChildExited
  split
  · rename_i exited hGet
    exact StepsFrom.trans (setObject_steps (.adjusts child.processHandle _ (.Process true) hGet rfl rfl (.process _))) rfl
      (markExited_steps _ _)
  · exact markExited_steps _ _

theorem resumeChildThread_steps {os : WinOs} {h n : Nat} (hResume : os.resumeChildThread h = some (os', n)) :
    StepsFrom c os os' := by
  simp only [resumeChildThread, Option.bind_eq_some_iff, Option.map_eq_some_iff] at hResume
  obtain ⟨i, -, child, -, hResult⟩ := hResume
  split at hResult
  · cases hResult
    exact markChildExited_steps { os with children := os.children.set i _ } child
  · cases hResult
    exact .refl

theorem terminateChild_steps (h : Nat) : StepsFrom c os (os.terminateChild h).1 := by
  unfold terminateChild
  split
  · exact .refl
  · rename_i i _
    split
    · exact .refl
    · rename_i child _
      split
      · exact markChildExited_steps { os with children := os.children.set i _ } child
      · exact .refl

theorem ntResumeThread_steps (h : Nat) : StepsFrom c os (os.ntResumeThread h).1 := by
  unfold ntResumeThread
  cases hChild : os.resumeChildThread h with
  | some r => exact resumeChildThread_steps hChild
  | none => cases os.ntThreadIndex h <;> exact .refl

theorem createProcess_steps (held : Bool) :
    StepsFrom c os (if held then os.createChild.1
      else ((os.createChild.1.resumeChildThread os.createChild.2.2).map (·.1)).getD os.createChild.1) := by
  cases held with
  | true => exact os.createChild_steps
  | false =>
    cases hResume : os.createChild.1.resumeChildThread os.createChild.2.2 with
    | none => exact os.createChild_steps
    | some r =>
      exact StepsFrom.trans os.createChild_steps os.createChild_same.currentTid (resumeChildThread_steps hResume)

end WinOs

namespace Sys

variable {s : Sys} {c : Call}

theorem frames_steps {os os' os'' : WinOs} (h : StepsFrom c os os') (hFrames : SameObjects os' os'') :
    StepsFrom c os os'' := by
  unfold StepsFrom at *
  rw [hFrames.table]
  exact h

theorem enlist_steps (s : Sys) (held : Bool) (t : Nat → Thread) : StepsFrom c s.os (s.enlist held t).1.os :=
  .single (.creates (.Thread false) none (.inl rfl) (.inl rfl) rfl nofun)

theorem Spawns.steps {held : Bool} {s' : Sys} (h : Spawns s held s') : StepsFrom c s.os s'.os := by
  cases h with
  | fails hFrames => exact WinOs.sameObjects_steps hFrames.objects
  | enlists s₁ t hFrames hTid hResult =>
    subst hResult
    exact WinOs.StepsFrom.trans (WinOs.sameObjects_steps hFrames.objects) hFrames.threads.currentTid
      (s₁.enlist_steps held t)

theorem endThread_steps (s : Sys) (i : Nat) (code : U32) : StepsFrom c s.os (s.endThread i code).os := by
  unfold endThread
  rw [freeThreadStack_os]
  exact WinOs.markExited_steps (s.os.modThread i _) _

theorem leaveTo_steps {s₀ : Sys} (h : StepsFrom c s.os s₀.os) (code : U32) :
    StepsFrom c s.os (s₀.leaveTo code).1.os := by
  unfold leaveTo
  cases s₀.os.pickNext with
  | none => exact h
  | some next => exact frames_steps h (s₀.activate_objects next)

theorem terminateThread_steps (h : Nat) (code : U32) : StepsFrom c s.os (s.terminateThread h code).1.os := by
  unfold terminateThread
  cases s.os.threadByHandle h with
  | none => exact .refl
  | some i =>
    dsimp only
    split
    · exact leaveTo_steps (s.endThread_steps i code) code
    · exact s.endThread_steps i code

theorem ntTerminateThread_steps (h : Nat) (code : U32) : StepsFrom c s.os (s.ntTerminateThread h code).1.os := by
  unfold ntTerminateThread
  cases s.os.ntThreadIndex h with
  | none => exact .refl
  | some i =>
    have hEnd := s.endThread_steps (c := c) i code
    dsimp only
    split
    · split
      · rename_i next _
        have hSwitch := activate_objects { s.endThread i code with
          os := { (s.endThread i code).os with syscallResumeAsIs := true } } next
        exact frames_steps hEnd ⟨hSwitch.objects, hSwitch.names, hSwitch.next, hSwitch.children⟩
      · exact hEnd
    · exact hEnd

theorem blockAndSwitch_objects {s' : Sys} {desc : WaitDesc} (h : s.blockAndSwitch desc = some s') : SameObjects s.os s'.os := by
  obtain ⟨next, -, rfl⟩ := Option.map_eq_some_iff.mp h
  exact s.park_objects _ _ next

theorem waitSingle_steps (h timeout : Nat) : StepsFrom c s.os (s.waitSingle h timeout).1.os := by
  unfold waitSingle
  have hAcquire := s.os.kobjectAcquire_steps (c := c) h
  generalize s.os.kobjectAcquire h s.os.currentTid = acquired at hAcquire ⊢
  obtain ⟨os, _ | _⟩ := acquired
  · dsimp only
    split
    · exact hAcquire
    · cases hBlock : ({ s with os := os } : Sys).blockAndSwitch ⟨[h], true⟩ with
      | none => exact hAcquire
      | some s' => exact frames_steps hAcquire (blockAndSwitch_objects hBlock)
  · exact hAcquire

theorem waitMultipleBlocks_steps {s₀ : Sys} (h : StepsFrom c s.os s₀.os) (handles : List Nat) (waitAll : Bool)
    (timeout : Nat) : StepsFrom c s.os (s₀.waitMultipleBlocks handles waitAll timeout).1.os := by
  unfold waitMultipleBlocks
  split
  · exact h
  · cases hBlock : s₀.blockAndSwitch ⟨handles, waitAll⟩ with
    | none => exact h
    | some s' => exact frames_steps h (blockAndSwitch_objects hBlock)

theorem waitMultiple_steps (handles : List Nat) (waitAll : Bool) (timeout : Nat) :
    StepsFrom c s.os (s.waitMultiple handles waitAll timeout).1.os := by
  unfold waitMultiple
  extract_lets tid
  split
  · split
    · exact s.os.acquireAll_steps handles
    · have hAcquire := s.os.acquireAny_steps (c := c) handles 0
      generalize hAcquired : s.os.acquireAny tid handles 0 = acquired
      rw [show s.os.acquireAny s.os.currentTid handles 0 = acquired from hAcquired] at hAcquire
      obtain ⟨os, _ | i⟩ := acquired
      · exact waitMultipleBlocks_steps hAcquire handles waitAll timeout
      · exact hAcquire
  · exact waitMultipleBlocks_steps .refl handles waitAll timeout

theorem ntWait_steps (handles : List Nat) (all : Bool) (timeout : NtTimeout) :
    StepsFrom c s.os (s.ntWait handles all timeout).1.os := by
  unfold ntWait
  extract_lets tid s₀
  split
  · split
    · exact s.os.acquireAll_steps handles
    · have hAcquire := s.os.acquireAny_steps (c := c) handles 0
      generalize hAcquired : s.os.acquireAny tid handles 0 = acquired
      rw [show s.os.acquireAny s.os.currentTid handles 0 = acquired from hAcquired] at hAcquire
      obtain ⟨os, _ | i⟩ := acquired <;> exact hAcquire
  · split
    · exact .refl
    · cases hBlock : s₀.blockAndSwitch ⟨handles, all⟩ with
      | none =>
        dsimp only
        split <;> exact .refl
      | some s' =>
        exact frames_steps (.refl : StepsFrom c s₀.os s₀.os) ((blockAndSwitch_objects hBlock).trans ⟨rfl, rfl, rfl, rfl⟩)

theorem serverSelectWait_steps (handles : List Nat) (all : Bool) (timeout : Nat) :
    StepsFrom c s.os (s.serverSelectWait handles all timeout).1.os := by
  unfold serverSelectWait
  extract_lets tid os
  split
  · change StepsFrom c s.os os
    unfold os
    split
    · exact s.os.acquireAll_steps handles
    · exact s.os.acquireAny_steps handles 0
  · split
    · exact .refl
    · cases hBlock : s.blockAndSwitch ⟨handles, all⟩ with
      | none => exact .refl
      | some s' =>
        exact frames_steps (.refl : StepsFrom c s.os s.os) ((blockAndSwitch_objects hBlock).trans ⟨rfl, rfl, rfl, rfl⟩)

theorem wineUnixCall_os (s : Sys) (req : ServerReq) : (s.wineUnixCall req).1 = (s.wineServerCall req).1 := by
  unfold wineUnixCall
  split
  rename_i s' status hCall
  rw [hCall]
  split <;> rfl

theorem wineServerCall_steps (req : ServerReq) (granted : U64 → Bool) (after : CpuState) :
    StepsFrom (.api (.wineUnixCall req) granted after) s.os (s.wineServerCall req).1.os := by
  unfold wineServerCall
  cases req with
  | createEvent manual initial => exact WinOs.makeObject_steps _ ⟨.Event, none, manual, initial, 0, 0⟩ (.inl rfl) nofun
  | closeHandle handle =>
    exact WinOs.closeHandle_steps (c := .api (.wineUnixCall (.closeHandle handle)) granted after)
      { s.os with unixCallBlocked := false } handle rfl
  | dupHandle src =>
    exact WinOs.dupKobjectHandle_steps (c := .api (.wineUnixCall (.dupHandle src)) granted after)
      { s.os with unixCallBlocked := false } src rfl
  | select handles op timeout =>
    dsimp only [srvSelect]
    split
    · exact .refl
    · split
      · exact .refl
      · exact serverSelectWait_steps (s := { s with os := { s.os with unixCallBlocked := false } }) _ _ _

theorem completeAndYield_objects (s : Sys) (after : CpuState) :
    SameObjects s.os (s.completeAndYield after).1.os := by
  unfold completeAndYield
  extract_lets s₀
  cases hYield : s₀.yieldAndSwitch with
  | none => exact .refl _
  | some s' =>
    obtain ⟨next, -, rfl⟩ := Option.map_eq_some_iff.mp hYield
    exact s₀.park_objects _ _ next

theorem spawnedApi_fst (r : Sys × Result (Option (Nat × Nat))) : (spawnedApi r).1 = r.1 := by
  unfold spawnedApi
  split <;> rfl

theorem spawnedStatus_fst (r : Sys × Result (Option (Nat × Nat))) : (spawnedStatus r).1 = r.1 := by
  unfold spawnedStatus
  split <;> rfl

theorem callApi_steps (granted : U64 → Bool) (after : CpuState) (call : Api) :
    StepsFrom (.api call granted after) s.os (s.callApi granted after call).1.os := by
  cases call with
  | createThread reqStack entry param flags =>
    unfold callApi
    rw [spawnedApi_fst]
    exact (spawnThread_spawns granted reqStack entry param _).steps
  | exitThread code => exact leaveTo_steps (s.endThread_steps _ _) _
  | threadExit => exact leaveTo_steps (s.endThread_steps _ _) _
  | resumeThread h =>
    rcases s.os.resumeThread_cases h with hSame | ⟨i, hResumed⟩
    · exact WinOs.sameObjects_steps (hSame ▸ .refl _)
    · exact WinOs.sameObjects_steps (show SameObjects _ (s.os.resumeThread h).1 from hResumed ▸ ⟨rfl, rfl, rfl, rfl⟩)
  | suspendThread h =>
    rcases s.os.suspendThread_cases h with hSame | ⟨i, -, hSuspended⟩
    · exact WinOs.sameObjects_steps (hSame ▸ .refl _)
    · exact WinOs.sameObjects_steps
        (show SameObjects _ (s.os.suspendThread h).1 from hSuspended ▸ ⟨rfl, rfl, rfl, rfl⟩)
  | terminateThread h code => exact terminateThread_steps h code
  | sleep => exact WinOs.sameObjects_steps (s.completeAndYield_objects after)
  | switchToThread => exact WinOs.sameObjects_steps (s.completeAndYield_objects after)
  | createSync spec => exact WinOs.makeObject_steps { s.os with lastError := 0 } spec (.inr rfl) fun hKind => if_pos hKind
  | openSync name =>
    refine WinOs.sameObjects_steps ?_
    change SameObjects s.os (s.os.openSync name).1
    unfold WinOs.openSync
    split <;> exact ⟨rfl, rfl, rfl, rfl⟩
  | signalSync op h n =>
    refine s.os.signalSync_steps op h n ?_ rfl
    rintro rfl
    rfl
  | signalEvent h => exact s.os.signalEventHandle_steps h rfl
  | waitSingle h timeout => exact waitSingle_steps h timeout
  | waitMultiple handles waitAll timeout => exact waitMultiple_steps handles waitAll timeout
  | closeHandle h => exact s.os.closeHandle_steps h rfl
  | wineUnixCall req =>
    unfold callApi
    rw [wineUnixCall_os]
    exact wineServerCall_steps req granted after
  | virtualAlloc addr size committed =>
    exact WinOs.sameObjects_steps (s.vmAllocRegionBelow_frames granted addr size committed _).objects
  | virtualFree addr => exact WinOs.sameObjects_steps (s.vmRelease_frames addr).objects
  | createProcess held => exact s.os.createProcess_steps held

theorem ntHandler_steps (granted : U64 → Bool) (call : Syscall) :
    StepsFrom (.syscall call granted) s.os (ntHandler granted call s).1.os := by
  cases call with
  | createThreadEx reqStack entry param held =>
    unfold ntHandler
    dsimp only
    split
    · rw [spawnedStatus_fst]
      exact (spawnWow64Thread_spawns granted reqStack entry param held).steps
    · rw [spawnedStatus_fst]
      exact (spawnThread_spawns granted reqStack entry param held).steps
  | terminateThread h code => exact ntTerminateThread_steps h code
  | suspendThread h =>
    rcases s.os.ntSuspendThread_cases h with hSame | ⟨i, -, hSuspended⟩
    · exact WinOs.sameObjects_steps (hSame ▸ .refl _)
    · exact WinOs.sameObjects_steps
        (show SameObjects _ (s.os.ntSuspendThread h).1 from hSuspended ▸ ⟨rfl, rfl, rfl, rfl⟩)
  | resumeThread h => exact s.os.ntResumeThread_steps h
  | createEvent name manual initial => exact s.os.makeObject_steps _ (.inr rfl) nofun
  | openEvent name => exact .refl
  | setEvent h => exact s.os.ntSetEvent_steps h rfl
  | createMutant name owned => exact s.os.makeObject_steps _ (.inr rfl) nofun
  | createSemaphore name initial max => exact s.os.ntCreateSemaphore_steps name initial max (.inr rfl) fun hValid => if_neg hValid
  | releaseSemaphore h n => exact s.os.ntReleaseSemaphore_steps h n rfl
  | waitForSingleObject h timeout =>
    unfold ntHandler ntWaitForSingleObject
    dsimp only
    split
    · exact .refl
    · exact ntWait_steps [h] false timeout
  | waitForMultipleObjects handles waitType timeout =>
    unfold ntHandler ntWaitForMultipleObjects
    dsimp only
    split
    · exact .refl
    · split
      · exact .refl
      · split
        · exact .refl
        · exact ntWait_steps handles _ timeout
  | deviceIoControlFile polled =>
    refine WinOs.sameObjects_steps ?_
    change SameObjects s.os (s.afdBlock polled).1.os
    unfold afdBlock
    extract_lets s₀
    cases hBlock : s₀.blockAndSwitch ⟨[], true⟩ with
    | none => exact .refl _
    | some s' => exact (blockAndSwitch_objects hBlock).trans ⟨rfl, rfl, rfl, rfl⟩
  | close h =>
    unfold ntHandler
    dsimp only
    split
    · exact .refl
    · rename_i hClosable
      exact s.os.closeHandle_steps h (if_neg hClosable)
  | allocateVirtualMemory addr size committed maxAddr =>
    exact WinOs.sameObjects_steps (s.vmAllocRegionBelow_frames granted addr size committed maxAddr).objects
  | freeVirtualMemory addr => exact WinOs.sameObjects_steps (s.vmRelease_frames addr).objects
  | mapViewOfSection reqBase viewSize low =>
    exact WinOs.sameObjects_steps (s.mapView_frames granted reqBase viewSize low).objects
  | unmapViewOfSection base =>
    unfold ntHandler
    dsimp only
    split
    · exact WinOs.sameObjects_steps (s.vmRelease_frames base).objects
    · exact .refl
  | createUserProcess => exact s.os.createChild_steps
  | terminateProcess h code =>
    unfold ntHandler
    dsimp only
    split
    · exact .refl
    · exact s.os.terminateChild_steps h

end Sys

theorem call_steps (s : Sys) (c : Call) : Steps s.os.currentTid c s.os.table (c.makes s).os.table := by
  cases c with
  | api call granted after => exact Sys.callApi_steps granted after call
  | «syscall» call granted => exact Sys.ntHandler_steps granted call

namespace Process

variable {p : Process} {t : Turn}

theorem finishSyscall_table {r : Sys × Result Nat} {saved : SavedContext} (after : CpuState) (mode32 : Bool) :
    (p.finishSyscall after mode32 (match r with
      | (s, .error e) => (s, .error e)
      | (s, .ok status) => s.leaveSyscall saved status)).sys.os.table = r.1.os.table := by
  obtain ⟨s, e | status⟩ := r
  · rfl
  · have hFrames := (s.leaveSyscall_frames saved status).objects.table
    dsimp only
    generalize s.leaveSyscall saved status = left at hFrames ⊢
    obtain ⟨s', e | exit⟩ := left
    · exact hFrames
    · cases exit <;> exact hFrames

theorem turn_table {s : Sys} {c : Call} (hCalls : p.calls t = some (s, c)) :
    s.os.table = p.sys.os.table ∧ (p.turn t).sys.os.table = (c.makes s).os.table := by
  obtain ⟨-, hMade⟩ := calls_made hCalls
  cases hMade with
  | api call granted writes after mode32 s hTurn hFrames hCpu hMem hResult =>
    refine ⟨hFrames.objects.table, ?_⟩
    rw [hResult]
    change (p.finishApi writes after mode32 (s.callApi granted after call)).sys.os.table =
      (s.callApi granted after call).1.os.table
    generalize s.callApi granted after call = r
    obtain ⟨s', outcome⟩ := r
    cases outcome <;> rfl
  | «syscall» call granted writes after mode32 s₀ s saved hTurn hFrames hCpu hMem hEnter hResult =>
    have hEntered := hFrames.trans (s₀.enterSyscall_frames granted)
    rw [hEnter] at hEntered
    refine ⟨hEntered.objects.table, ?_⟩
    obtain ⟨mem, res, hWritten, -⟩ := Sys.writeBack_eq writes (Sys.ntHandler granted call s)
    rw [hResult, hWritten]
    exact finishSyscall_table (r := ({ (Sys.ntHandler granted call s).1 with mem := mem }, res)) after mode32

theorem turn_table_of_no_call (hCalls : p.calls t = none) : (p.turn t).sys.os.table = p.sys.os.table := by
  by_cases hLive : p.exited = none
  · obtain ⟨s', -, hObjects, hSettled⟩ := turn_of_no_call hLive hCalls
    exact (hObjects.trans hSettled.objects).table
  · unfold turn
    rw [if_pos (Option.isSome_iff_ne_none.mpr hLive)]

theorem turn_table_keeps {J : Table → Prop}
    (hCall : ∀ s c, p.calls t = some (s, c) → s.os.table = p.sys.os.table → J s.os.table → J (c.makes s).os.table)
    (h : J p.sys.os.table) : J (p.turn t).sys.os.table := by
  cases hCalls : p.calls t with
  | none =>
    rw [turn_table_of_no_call hCalls]
    exact h
  | some sc =>
    obtain ⟨s, c⟩ := sc
    obtain ⟨hBefore, hAfter⟩ := turn_table hCalls
    rw [hAfter]
    exact hCall s c hCalls hBefore (hBefore.symm ▸ h)

end Process

end Exemu.Os
