import Exemu.Os.Order
import Exemu.Os.Table

/-! # Mutexes and the threads that own them -/
namespace Exemu.Os

/-- The thread `w` owns some mutex. -/
def Table.OwnedBy (tb : Table) (w : Nat) : Prop := ∃ h o, tb.objects h = some o ∧ o.owner? = some w

namespace Table

variable {tid : Nat} {c : Call} {tb tb' : Table} {w : Nat}

variable {o : KObject}

theorem OwnedBy.of_update (tb : Table) {h : Nat} (hOwned : ∃ h' o', Function.update tb.objects h (some o) h' = some o' ∧
    o'.owner? = some w) : o.owner? = some w ∨ tb.OwnedBy w := by
  obtain ⟨h', o', hGet, hOwner⟩ := hOwned
  by_cases hh : h' = h
  · subst hh
    rw [Function.update_self] at hGet
    obtain rfl := Option.some.inj hGet
    exact .inl hOwner
  · rw [Function.update_of_ne hh] at hGet
    exact .inr ⟨h', o', hGet, hOwner⟩

theorem owner?_of_not_isMutex (h : o.isMutex = false) : o.owner? = none := by
  cases o <;> first | rfl | cases h

theorem owner?_signaledBy {op : SignalOp} {n : Int} (h : (WinOs.signaledBy op tid n o).1.owner? = some w) : o.owner? = some w := by
  cases op <;> cases o <;> first | exact h | skip
  all_goals
    unfold WinOs.signaledBy at h
    dsimp only at h
    split at h
    · first
      | exact h
      | (dsimp only [KObject.owner?] at h
         split at h
         · cases h
         · exact h)
    · exact h

theorem Step.owners (h : Step tid c tb tb') (hOwned : tb'.OwnedBy w) : tb.OwnedBy w ∨ w = tid := by
  cases h with
  | creates o name hOwner hAsked hNew =>
    rcases OwnedBy.of_update _ hOwned with hNow | hOld
    · rcases hOwner with hNone | hSome
      · rw [hNone] at hNow
        cases hNow
      · rw [hSome] at hNow
        exact .inr (Option.some.inj hNow).symm
    · exact .inl hOld
  | acquires h o hGet =>
    rcases OwnedBy.of_update _ hOwned with hNow | hOld
    · rw [KObject.owner?_acquire] at hNow
      split at hNow
      · exact .inr (Option.some.inj hNow).symm
      · exact .inl ⟨h, o, hGet, hNow⟩
    · exact .inl hOld
  | signals op n h o hGet hAsked =>
    rcases OwnedBy.of_update _ hOwned with hNow | hOld
    · exact .inl ⟨h, o, hGet, owner?_signaledBy hNow⟩
    · exact .inl hOld
  | adjusts h o o' hGet hKind hKind' =>
    rcases OwnedBy.of_update _ hOwned with hNow | hOld
    · rw [owner?_of_not_isMutex hKind'] at hNow
      cases hNow
    · exact .inl hOld
  | closes h hAsked =>
    obtain ⟨h', o', hGet, hOwner⟩ := hOwned
    by_cases hh : h' = h
    · subst hh
      change Function.update tb.objects h' none h' = some o' at hGet
      rw [Function.update_self] at hGet
      cases hGet
    · change Function.update tb.objects h none h' = some o' at hGet
      rw [Function.update_of_ne hh] at hGet
      exact .inl ⟨h', o', hGet, hOwner⟩
  | copies src o hGet hAsked =>
    rcases OwnedBy.of_update _ hOwned with hNow | hOld
    · exact .inl ⟨src, o, hGet, hNow⟩
    · exact .inl hOld

theorem Steps.owners (h : Steps tid c tb tb') (hOwned : tb'.OwnedBy w) : tb.OwnedBy w ∨ w = tid := by
  induction h with
  | refl => exact .inl hOwned
  | tail _ hStep ih =>
    rcases hStep.owners hOwned with hBefore | hSelf
    · exact ih hBefore
    · exact .inr hSelf

end Table

namespace Sys

variable {s : Sys} {w : Nat}

theorem endThread_owners {i : Nat} {code : U32} (hOwned : (s.endThread i code).os.table.OwnedBy w) :
    s.os.table.OwnedBy w := by
  unfold endThread at hOwned
  rw [freeThreadStack_os] at hOwned
  unfold WinOs.markExited at hOwned
  split at hOwned
  · rcases Table.OwnedBy.of_update s.os.table hOwned with hNow | hOld
    · cases hNow
    · exact hOld
  · exact hOwned

theorem leaveTo_owners {s₀ : Sys} {code : U32} (hOwned : (s₀.leaveTo code).1.os.table.OwnedBy w) :
    s₀.os.table.OwnedBy w := by
  unfold leaveTo at hOwned
  cases hPick : s₀.os.pickNext with
  | none =>
    rw [hPick] at hOwned
    exact hOwned
  | some next =>
    rw [hPick] at hOwned
    dsimp only at hOwned
    rwa [(s₀.activate_objects next).table] at hOwned

end Sys

variable {s : Sys} {p : Process}

theorem ends_owners {c : Call} {i w : Nat} (hEnds : c.ends s.os = some i) (hOwned : (c.makes s).os.table.OwnedBy w) :
    s.os.table.OwnedBy w := by
  cases c with
  | api call granted after =>
    cases call with
    | exitThread code => exact Sys.endThread_owners (Sys.leaveTo_owners hOwned)
    | threadExit => exact Sys.endThread_owners (Sys.leaveTo_owners hOwned)
    | terminateThread h code =>
      change (s.terminateThread h code).1.os.table.OwnedBy w at hOwned
      unfold Sys.terminateThread at hOwned
      rw [show s.os.threadByHandle h = some i from hEnds] at hOwned
      dsimp only at hOwned
      split at hOwned
      · exact Sys.endThread_owners (Sys.leaveTo_owners hOwned)
      · exact Sys.endThread_owners hOwned
    | _ => cases hEnds
  | «syscall» call granted =>
    cases call with
    | terminateThread h code =>
      change (s.ntTerminateThread h code).1.os.table.OwnedBy w at hOwned
      unfold Sys.ntTerminateThread at hOwned
      rw [show s.os.ntThreadIndex h = some i from hEnds] at hOwned
      dsimp only at hOwned
      split at hOwned
      · split at hOwned
        · rename_i next _
          have hSwitch := Sys.activate_objects { s.endThread i code with
            os := { (s.endThread i code).os with syscallResumeAsIs := true } } next
          dsimp only at hOwned
          rw [hSwitch.table] at hOwned
          exact Sys.endThread_owners hOwned
        · exact Sys.endThread_owners hOwned
      · exact Sys.endThread_owners hOwned
    | _ => cases hEnds

/-! ## Over a run -/

def NoneAbandoned (p : Process) : Prop :=
  p.exited = none →
    ∀ (h w recursion : Nat), p.sys.os.kobjects h = some (.Mutex (some w) recursion) →
      ∀ (i : Nat) (t : Thread), p.sys.os.threads[i]? = some t → t.tid = w → t.state ≠ .Terminated

def Api.isLast (s : Sys) : Api → Bool
  | .exitThread code => (s.endThread s.os.current code).os.pickNext.isNone
  | .threadExit => (s.endThread s.os.current ((s.cpu.gprRead 0 4).setWidth 32)).os.pickNext.isNone
  | .terminateThread h code =>
    s.os.threadByHandle h == some s.os.current && (s.endThread s.os.current code).os.pickNext.isNone
  | _ => false

def Call.isLast (s : Sys) : Call → Bool
  | .api call _ _ => call.isLast s
  | .syscall _ _ => false

/-- A turn that ends a thread, and not the process with it, finds no mutex that the thread owns. -/
def LeavesNoMutex (p : Process) (t : Turn) : Prop :=
  ∀ s c, p.calls t = some (s, c) → c.strands s = false ∧
    (c.isLast s = false → ∀ (i : Nat) (u : Thread), c.ends s.os = some i → s.os.threads[i]? = some u →
      ∀ (h recursion : Nat), s.os.kobjects h ≠ some (.Mutex (some u.tid) recursion))

theorem Table.ownedBy_iff {tb : Table} {w : Nat} :
    tb.OwnedBy w ↔ ∃ h recursion, tb.objects h = some (.Mutex (some w) recursion) := by
  constructor
  · rintro ⟨h, o, hGet, hOwner⟩
    cases o with
    | Mutex owner recursion =>
      obtain rfl : owner = some w := hOwner
      exact ⟨h, recursion, hGet⟩
    | _ => cases hOwner
  · rintro ⟨h, recursion, hGet⟩
    exact ⟨h, _, hGet, rfl⟩

def OwnersLive (os : WinOs) : Prop :=
  ∀ w, os.table.OwnedBy w → ∀ (i : Nat) (t : Thread), os.threads[i]? = some t → t.tid = w → t.state ≠ .Terminated

theorem noneAbandoned_iff (p : Process) : NoneAbandoned p ↔ (p.exited = none → OwnersLive p.sys.os) := by
  unfold NoneAbandoned OwnersLive
  refine imp_congr_right fun _ => ⟨fun h w hOwned => ?_, fun h m w recursion hGet => ?_⟩
  · obtain ⟨m, recursion, hGet⟩ := Table.ownedBy_iff.mp hOwned
    exact h m w recursion hGet
  · exact h w (Table.ownedBy_iff.mpr ⟨m, recursion, hGet⟩)

theorem Shifts.ownersLive {s' : Sys} {suspended ended : Option Nat} (h : Shifts s suspended ended s') (hPlaced : Placed s.os)
    (hLive : OwnersLive s.os) (hOwners : ∀ w, s'.os.table.OwnedBy w → s.os.table.OwnedBy w ∨ w = s.os.currentTid ∧ ended = none)
    (hEnds : ∀ (i : Nat) (u : Thread), ended = some i → s.os.threads[i]? = some u → ¬s.os.table.OwnedBy u.tid) :
    OwnersLive s'.os := by
  intro w hOwned i t hGet hTid hEnd
  rcases h.entry hGet with ⟨u, hu, huTid, -, hState⟩ | ⟨-, -, -, -, hState⟩
  · have hSame : u.tid = w := huTid.symm.trans hTid
    rcases hOwners w hOwned with hBefore | ⟨hCurrent, hNone⟩
    · rcases hState hEnd with hWas | hAsked
      · exact hLive w hBefore i u hu hSame hWas
      · exact hEnds i u hAsked hu (hSame ▸ hBefore)
    · obtain ⟨v, hv, hvTid, hvState⟩ := hPlaced.current
      have hi := hPlaced.distinct i s.os.current u v hu hv (hSame.trans (hCurrent.trans hvTid.symm))
      subst hi
      obtain rfl := Option.some.inj (hu.symm.trans hv)
      rcases hState hEnd with hWas | hAsked
      · exact hvState hWas
      · rw [hNone] at hAsked
        cases hAsked
  · exact hState hEnd

theorem isLast_exits {call : Api} (granted : U64 → Bool) (after : CpuState) (hLast : call.isLast s = true) :
    ∃ code, (s.callApi granted after call).2 = .Exit code := by
  have hLeave : ∀ (s₀ : Sys) (code : U32), s₀.os.pickNext.isNone = true → (s₀.leaveTo code).2 = .Exit code.toInt := by
    intro s₀ code hNone
    unfold Sys.leaveTo
    rw [Option.isNone_iff_eq_none.mp hNone]
  cases call with
  | exitThread code => exact ⟨_, hLeave _ code hLast⟩
  | threadExit => exact ⟨_, hLeave _ _ hLast⟩
  | terminateThread h code =>
    unfold Api.isLast at hLast
    rw [Bool.and_eq_true, beq_iff_eq] at hLast
    refine ⟨code.toInt, ?_⟩
    change (s.terminateThread h code).2 = _
    unfold Sys.terminateThread
    rw [hLast.1]
    dsimp only
    rw [if_pos rfl]
    exact hLeave _ code hLast.2
  | _ => cases hLast

theorem turn_exits {t : Turn} {c : Call} (hCalls : p.calls t = some (s, c)) (hLast : c.isLast s = true) :
    (p.turn t).exited.isSome := by
  obtain ⟨-, hMade⟩ := Process.calls_made hCalls
  cases hMade with
  | «syscall» => cases hLast
  | api call granted writes after mode32 s hTurn hFrames hCpu hMem hResult =>
    obtain ⟨code, hExit⟩ := isLast_exits granted after hLast
    rw [hResult]
    generalize s.callApi granted after call = r at hExit ⊢
    obtain ⟨s', outcome⟩ := r
    dsimp only at hExit
    subst hExit
    rfl

def Owned (p : Process) : Prop := p.exited = none → Placed p.sys.os ∧ OwnersLive p.sys.os

theorem turn_owned {t : Turn} (h : Owned p) (hLeaves : LeavesNoMutex p t) : Owned (p.turn t) := by
  intro hAfter
  obtain ⟨hPlaced, hLive⟩ := h (exited_of_turn hAfter)
  have hTop : Placed p.top.os := hPlaced.congr rfl rfl rfl le_rfl
  have hDone : ∀ {s' : Sys} {suspended ended : Option Nat}, Shifts p.top suspended ended s' → OwnersLive s'.os →
      Settled p s' (p.turn t) → Placed (p.turn t).sys.os ∧ OwnersLive (p.turn t).sys.os := by
    intro s' suspended ended hShifts hLive' hSettled
    refine ⟨hSettled.placed (hShifts.placed hTop), fun w hOwned i u hu => ?_⟩
    rw [hSettled.objects.table] at hOwned
    rw [hSettled.threads.threads] at hu
    exact hLive' w hOwned i u hu
  cases hCalls : p.calls t with
  | none =>
    obtain ⟨s', hMoves, hObjects, hSettled⟩ := Process.turn_of_no_call (exited_of_turn hAfter) hCalls
    have hShifts := hMoves.shifts hTop.length
    refine hDone hShifts (hShifts.ownersLive hTop hLive (fun w hOwned => .inl ?_) nofun) hSettled
    rwa [hObjects.table] at hOwned
  | some sc =>
    obtain ⟨s, c⟩ := sc
    obtain ⟨hStrands, hEnds⟩ := hLeaves s c hCalls
    obtain ⟨hFrames, hTurn⟩ := Process.turn_of_call hCalls hStrands
    have hNotLast : c.isLast s = false := by
      by_contra hLast
      have hExit := turn_exits hCalls (by simpa using hLast)
      rw [hAfter] at hExit
      cases hExit
    rcases hTurn with hExit | ⟨hMoves, hSettled⟩
    · rw [hAfter] at hExit
      cases hExit
    · have hShifts := (hMoves.from_same hFrames.threads).shifts hTop.length
      have hTable : s.os.table = p.top.os.table := hFrames.objects.table
      refine hDone hShifts (hShifts.ownersLive hTop hLive (fun w hOwned => ?_) (fun i u hAsked hu hOwned => ?_)) hSettled
      · rw [← hTable]
        cases hEnd : c.ends s.os with
        | some i => exact .inl (ends_owners hEnd hOwned)
        | none =>
          rcases (call_steps s c).owners hOwned with hBefore | hSelf
          · exact .inl hBefore
          · exact .inr ⟨hSelf.trans hFrames.threads.currentTid, rfl⟩
      · rw [← hTable] at hOwned
        obtain ⟨m, recursion, hGet⟩ := Table.ownedBy_iff.mp hOwned
        exact hEnds hNotLast i u hAsked (hFrames.threads.threads ▸ hu) m recursion hGet

theorem starts_owned (hStarts : p.Starts) : Owned p := by
  intro _
  refine ⟨starts_placed hStarts, ?_⟩
  obtain ⟨cfg, vallocBase, exitThunk, tlsThunk, entryThunk, wow64Peb32, wow64Threading, hOs⟩ := hStarts.os
  rw [hOs]
  rintro w ⟨h, o, hGet, -⟩
  cases hGet

theorem leaves_api {call : Api} (hCall : ∀ os, call.ends os = none) (granted : U64 → Bool) (writes : List Field) (after : CpuState)
    (mode32 : Bool) : LeavesNoMutex p (.api call granted writes after mode32) := by
  intro s c hCalls
  cases (Process.calls_made hCalls).2 with
  | «syscall» call granted writes after mode32 s₀ s saved hTurn => cases hTurn
  | api call granted writes after mode32 s hTurn =>
  cases hTurn
  refine ⟨rfl, fun _ i u hAsked => ?_⟩
  cases (hCall s.os).symm.trans hAsked

/-- The main thread takes a mutex and exits with it; `flags` says whether the other thread can go on. -/
def exitsWithMutex (flags : U64) : List Turn :=
  [.api (.createSync ⟨.Mutex, none, false, true, 0, 0⟩) (fun _ => true) [] {} false,
    .api (.createThread 0 0x140002000 7 flags) (fun _ => true) [] {} false,
    .api (.exitThread 0) (fun _ => true) [] {} false]

end Exemu.Os
