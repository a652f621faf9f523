import Exemu.Os.Schedule

/-! # A turn of the run loop, as the call it makes

A turn ends the time slice, runs guest code, or makes a call.
-/
namespace Exemu.Os

inductive Call where
  | api (call : Api) (granted : U64 → Bool) (after : CpuState)
  | syscall (call : Syscall) (granted : U64 → Bool)

namespace Call

def makes (s : Sys) : Call → Sys
  | .api call granted after => (s.callApi granted after call).1
  | .syscall call granted => (Sys.ntHandler granted call s).1

def suspends (os : WinOs) : Call → Option Nat
  | .api call _ _ => call.suspends os
  | .syscall call _ => call.suspends os

def ends (os : WinOs) : Call → Option Nat
  | .api call _ _ => call.ends os
  | .syscall call _ => call.ends os

def strands (s : Sys) : Call → Bool
  | .api _ _ _ => false
  | .syscall call _ => call.strands s

end Call

/-- The call a turn makes and the state it is made in: the turn's tick did not end the slice, and the
dispatcher could save the context of a system call. -/
def Process.calls (p : Process) (t : Turn) : Option (Sys × Call) :=
  if p.exited.isSome then none
  else
    match t with
    | .api call granted _ after _ =>
      match p.top.preemptBy 1 with
      | (_, true) => none
      | (s, false) => some (s, .api call granted after)
    | .syscall call granted _ _ _ =>
      match p.top.preemptBy 1 with
      | (_, true) => none
      | (s, false) =>
        match s.enterSyscall granted with
        | (_, .error _) => none
        | (s, .ok _) => some (s, .syscall call granted)
    | _ => none

variable {p : Process}

theorem Process.calls_api {call : Api} {granted : U64 → Bool} {writes : List Field} {after : CpuState} {mode32 : Bool}
    {s : Sys} {c : Call} (h : p.calls (.api call granted writes after mode32) = some (s, c)) :
    c = .api call granted after := by
  unfold Process.calls at h
  dsimp only at h
  split at h
  · cases h
  · split at h
    · cases h
    · cases h
      rfl

namespace Moves

variable {r s s' s'' : Sys} {suspended ended : Option Nat}

theorem from_same (hFrom : SameThreads r.os s.os) (h : Moves s suspended ended s') : Moves r suspended ended s' := by
  cases h with
  | stays hSame => exact .stays (hFrom.trans hSame)
  | spawns t hThreads hState hCount hTid hRest =>
    refine .spawns t (by rw [hThreads, hFrom.threads]) hState hCount ⟨hFrom.nextTid.trans hTid.1, hTid.2⟩ ?_
    exact ⟨rfl, hRest.current.trans hFrom.current, hRest.currentTid.trans hFrom.currentTid,
      hRest.mode.trans hFrom.mode, hRest.pending.trans hFrom.pending, hFrom.nextTid.trans hRest.nextTid⟩
  | suspends i hAsked hSame => exact .suspends i hAsked ((hFrom.suspendAt i).trans hSame)
  | resumes i hSame => exact .resumes i ((hFrom.modThread i _).trans hSame)
  | ends i code hAsked hOther hSame =>
    exact .ends i code hAsked (hFrom.current ▸ hOther) ((hFrom.modThread i _).trans hSame)
  | parks s₀ state wait next hFrom₀ hState hPick hSame hCpu =>
    exact .parks s₀ state wait next (hFrom.trans hFrom₀) hState hPick hSame hCpu
  | leaves s₀ code next hAsked hFrom₀ hPick hSame hCpu =>
    refine .leaves s₀ code next (hAsked.trans (congrArg some hFrom.current)) ?_ hPick hSame hCpu
    rw [hFrom.current] at hFrom₀
    exact (hFrom.modThread _ _).trans hFrom₀

end Moves

namespace Sys

theorem activate_objects (s : Sys) (next : Nat) : SameObjects s.os (s.activate next).os := by
  unfold activate
  extract_lets os
  split <;> exact ⟨rfl, rfl, rfl, rfl⟩

theorem park_objects (s : Sys) (state : ThreadState) (wait : Thread → Option WaitDesc) (next : Nat) :
    SameObjects s.os (s.park state wait next).os := by
  have hActivate := activate_objects { s with
    os := s.os.modThread s.os.current fun t => { t with saved := s.cpu, state := state, wait := wait t } } next
  exact ⟨hActivate.objects, hActivate.names, hActivate.next, hActivate.children⟩

theorem preemptBy_spec (s : Sys) (n : Nat) :
    (∃ ticks, s.preemptBy n = ({ s with os := { s.os with schedTicks := ticks } }, false)) ∨
      ∃ next, s.os.pickNext = some next ∧
        s.preemptBy n =
          (({ s with os := { s.os with schedTicks := 0 } } : Sys).park .Ready (·.wait) next, true) := by
  unfold preemptBy
  split
  · exact .inl ⟨s.os.schedTicks, rfl⟩
  · dsimp only
    split
    · exact .inl ⟨_, rfl⟩
    · cases hNext : s.os.pickNext with
      | none =>
        have hStay : ({ s with os := { s.os with schedTicks := 0 } } : Sys).yieldAndSwitch = none := by
          unfold yieldAndSwitch
          exact congrArg (Option.map _) hNext
        rw [hStay]
        exact .inl ⟨0, rfl⟩
      | some next =>
        have hSwitch : ({ s with os := { s.os with schedTicks := 0 } } : Sys).yieldAndSwitch =
            some (({ s with os := { s.os with schedTicks := 0 } } : Sys).park .Ready (·.wait) next) := by
          unfold yieldAndSwitch
          exact congrArg (Option.map _) hNext
        rw [hSwitch]
        exact .inr ⟨next, rfl, rfl⟩

theorem saveContext_os (s : Sys) : s.saveContext.1.os = s.os := by
  unfold saveContext
  split
  · rfl
  · split <;> (rename_i hSeed; exact congrArg (·.1.os) hSeed.symm)

theorem ensureUnixStack_os (s : Sys) (granted : U64 → Bool) :
    ∃ next top, (s.ensureUnixStack granted).1.os = { s.os with vallocNext := next, unixStackTop := top } := by
  unfold ensureUnixStack
  split
  · exact ⟨s.os.vallocNext, s.os.unixStackTop, rfl⟩
  · obtain ⟨next, hMapped⟩ := s.mapAnywhere_os granted UNIX_STACK_SIZE Perm.RW "unix-stack"
    split
    · rename_i s' hMap
      rw [hMap] at hMapped
      exact ⟨next, s.os.unixStackTop, hMapped⟩
    · rename_i s' base hMap
      rw [hMap] at hMapped
      dsimp only at hMapped ⊢
      rw [hMapped]
      exact ⟨next, _, rfl⟩

theorem enterSyscall_os (s : Sys) (granted : U64 → Bool) :
    ∃ next top, (s.enterSyscall granted).1.os =
      { s.os with
        vallocNext := next
        unixStackTop := top
        syscallGuestRsp := s.cpu.rsp
        syscallResumeAsIs := false
        pendingSyscallExit := none
        syscallResult64 := none } := by
  unfold enterSyscall
  dsimp only
  split
  · rename_i s₁ e hSave
    exact ⟨s.os.vallocNext, s.os.unixStackTop, (congrArg (·.1.os) hSave).symm.trans (saveContext_os _)⟩
  · rename_i s₁ saved hSave
    have hSaved := (congrArg (·.1.os) hSave).symm.trans (saveContext_os _)
    obtain ⟨next, top, hStack⟩ := s₁.ensureUnixStack_os granted
    refine ⟨next, top, ?_⟩
    have hEntered := hStack.trans (congrArg (fun o : WinOs => { o with vallocNext := next, unixStackTop := top }) hSaved)
    dsimp only
    split <;> exact hEntered

theorem enterSyscall_frames (s : Sys) (granted : U64 → Bool) : Frames s.os (s.enterSyscall granted).1.os := by
  obtain ⟨next, top, h⟩ := s.enterSyscall_os granted
  rw [h]
  exact ⟨⟨rfl, rfl, rfl, rfl, rfl, le_rfl⟩, ⟨rfl, rfl, rfl, rfl⟩⟩

theorem leaveSyscall_frames (s : Sys) (saved : SavedContext) (status : Nat) :
    Frames s.os (s.leaveSyscall saved status).1.os := by
  unfold leaveSyscall
  split
  · exact ⟨⟨rfl, rfl, rfl, rfl, rfl, le_rfl⟩, ⟨rfl, rfl, rfl, rfl⟩⟩
  · split
    · exact .refl _
    · split
      · exact .refl _
      · exact ⟨⟨rfl, rfl, rfl, rfl, rfl, le_rfl⟩, ⟨rfl, rfl, rfl, rfl⟩⟩

theorem writeBack_eq (writes : List Field) (r : Sys × Result Nat) :
    ∃ mem res, writeBack writes r = ({ r.1 with mem := mem }, res) ∧
      (r.1.os.syscallResumeAsIs = true → res = r.2) := by
  obtain ⟨s, e | status⟩ := r
  · exact ⟨s.mem, _, rfl, fun _ => rfl⟩
  · unfold writeBack
    dsimp only
    split
    · exact ⟨s.mem, _, rfl, fun _ => rfl⟩
    · rename_i hStays
      unfold seed
      cases writeFields s.mem writes with
      | mk mem done =>
        cases done with
        | error e => exact ⟨mem, _, rfl, fun h => absurd h hStays⟩
        | ok done => exact ⟨mem, _, rfl, fun h => absurd h hStays⟩

end Sys

/-- What a turn that got as far as `s'` leaves to the next one. -/
structure Settled (p : Process) (s' : Sys) (p' : Process) : Prop where
  live : p'.exited = none
  threads : SameThreads { s'.os with pendingModeSwitch := none } p'.sys.os
  objects : SameObjects s'.os p'.sys.os
  arrives : p'.sys.os.current = p.sys.os.current ∨
    p'.sys.cpu = s'.cpu ∧ p'.mode32 = s'.os.pendingModeSwitch.getD p.mode32

theorem Settled.from_frames {p' : Process} {s s' : Sys} (hFrames : Frames s.os s'.os)
    (hCpu : s'.cpu = s.cpu ∨ s.os.current = p.sys.os.current) (h : Settled p s' p') : Settled p s p' where
  live := h.live
  threads := by
    have hThreads := hFrames.threads
    refine SameThreads.trans ?_ h.threads
    exact ⟨hThreads.threads, hThreads.current, hThreads.currentTid, hThreads.mode, rfl, hThreads.nextTid⟩
  objects := hFrames.objects.trans h.objects
  arrives := by
    rcases hCpu with hSame | hCurrent
    · rw [← hSame, ← hFrames.threads.pending]
      exact h.arrives
    · left
      rw [h.threads.current]
      exact hFrames.threads.current.trans hCurrent

theorem Settled.of_mem {p' : Process} {s : Sys} {mem : VirtualMemory} (h : Settled p { s with mem := mem } p') :
    Settled p s p' :=
  ⟨h.live, h.threads, h.objects, h.arrives⟩

namespace Process

variable {p : Process} {t : Turn} {s : Sys} {c : Call}

theorem settle_settled (hLive : p.exited = none) (s' : Sys) : Settled p s' (p.settle s') where
  live := hLive
  threads := ⟨rfl, rfl, rfl, rfl, rfl, le_rfl⟩
  objects := ⟨rfl, rfl, rfl, rfl⟩
  arrives := .inr ⟨rfl, rfl⟩

theorem goOn_settled (hLive : p.exited = none) {s' : Sys} (hCurrent : s'.os.current = p.sys.os.current)
    (after : CpuState) (mode32 : Bool) : Settled p s' (p.goOn s' after mode32) where
  live := hLive
  threads := ⟨rfl, rfl, rfl, rfl, rfl, le_rfl⟩
  objects := ⟨rfl, rfl, rfl, rfl⟩
  arrives := .inl hCurrent

theorem top_objects (p : Process) : SameObjects p.sys.os p.top.os := ⟨rfl, rfl, rfl, rfl⟩

theorem slice_moves (hFrames : Frames p.top.os s.os) (n : Nat) :
    Moves p.top none none (s.preemptBy n).1 ∧ SameObjects p.sys.os (s.preemptBy n).1.os := by
  have hObjects := p.top_objects.trans hFrames.objects
  rcases s.preemptBy_spec n with ⟨ticks, hStay⟩ | ⟨next, hPick, hSwitch⟩
  · rw [hStay]
    exact ⟨.stays (hFrames.threads.trans ⟨rfl, rfl, rfl, rfl, rfl, le_rfl⟩),
      hObjects.trans ⟨rfl, rfl, rfl, rfl⟩⟩
  · rw [hSwitch]
    refine ⟨.parks { s with os := { s.os with schedTicks := 0 } } .Ready (·.wait) next ?_ (.inl rfl) hPick (.refl _) rfl,
      hObjects.trans ?_⟩
    · exact hFrames.threads.trans ⟨rfl, rfl, rfl, rfl, rfl, le_rfl⟩
    · have hPark :=
        Sys.park_objects { s with os := { s.os with schedTicks := 0 } } .Ready (·.wait) next
      exact ⟨hPark.objects, hPark.names, hPark.next, hPark.children⟩

theorem tick_frames (hTick : p.top.preemptBy 1 = (s, false)) :
    Frames p.top.os s.os ∧ s.cpu = p.sys.cpu ∧ s.mem = p.sys.mem := by
  rcases p.top.preemptBy_spec 1 with ⟨ticks, hStay⟩ | ⟨next, hPick, hSwitch⟩
  · rw [hStay] at hTick
    obtain ⟨rfl, -⟩ := Prod.mk.inj hTick
    exact ⟨⟨⟨rfl, rfl, rfl, rfl, rfl, le_rfl⟩, ⟨rfl, rfl, rfl, rfl⟩⟩, rfl, rfl⟩
  · rw [hSwitch] at hTick
    cases (Prod.mk.inj hTick).2

theorem ticked_cases (hLive : p.exited = none) (k : Sys → Process) :
    (∃ s, p.top.preemptBy 1 = (s, true) ∧ Moves p.top none none s ∧ SameObjects p.sys.os s.os ∧
        Settled p s (p.ticked k)) ∨
      ∃ s, p.top.preemptBy 1 = (s, false) ∧ p.ticked k = k s ∧ Frames p.top.os s.os ∧
        s.cpu = p.sys.cpu ∧ s.mem = p.sys.mem := by
  obtain ⟨hMoves, hObjects⟩ := slice_moves (.refl p.top.os) 1
  unfold ticked
  cases hTick : p.top.preemptBy 1 with
  | mk s ended =>
    rw [hTick] at hMoves hObjects
    cases ended with
    | true => exact .inl ⟨s, rfl, hMoves, hObjects, settle_settled hLive s⟩
    | false => exact .inr ⟨s, rfl, rfl, tick_frames hTick⟩

theorem turn_of_no_call (hLive : p.exited = none) (hCalls : p.calls t = none) :
    ∃ s', Moves p.top none none s' ∧ SameObjects p.sys.os s'.os ∧ Settled p s' (p.turn t) := by
  unfold turn
  unfold calls at hCalls
  rw [hLive] at hCalls ⊢
  dsimp only [Option.isSome_none] at hCalls ⊢
  rw [if_neg Bool.false_ne_true] at hCalls ⊢
  cases t with
  | native cpu stores n =>
    obtain ⟨hMoves, hObjects⟩ :=
      slice_moves (s := { p.top with cpu := cpu, mem := applyStores p.sys.mem stores }) (.refl p.top.os) n
    exact ⟨_, hMoves, hObjects, settle_settled hLive _⟩
  | instruction cpu stores mode32 =>
    dsimp only
    rcases ticked_cases hLive fun s => p.goOn { s with mem := applyStores s.mem stores } cpu mode32 with
      ⟨s, -, hMoves, hObjects, hSettled⟩ | ⟨s, -, hTurn, hFrames, -, -⟩
    · exact ⟨s, hMoves, hObjects, hSettled⟩
    · rw [hTurn]
      refine ⟨{ s with mem := applyStores s.mem stores }, .stays hFrames.threads,
        p.top_objects.trans hFrames.objects, goOn_settled hLive ?_ cpu mode32⟩
      exact hFrames.threads.current
  | api call granted writes after mode32 =>
    dsimp only at hCalls ⊢
    rcases ticked_cases hLive fun s => p.finishApi writes after mode32 (s.callApi granted after call) with
      ⟨s, -, hMoves, hObjects, hSettled⟩ | ⟨s, hTick, -⟩
    · exact ⟨s, hMoves, hObjects, hSettled⟩
    · rw [hTick] at hCalls
      cases hCalls
  | «syscall» call granted writes after mode32 =>
    dsimp only at hCalls ⊢
    rcases ticked_cases hLive fun s =>
        p.finishSyscall after mode32
          (s.dispatchSyscall granted fun s => Sys.writeBack writes (Sys.ntHandler granted call s)) with
      ⟨s, -, hMoves, hObjects, hSettled⟩ | ⟨s, hTick, hTurn, hFrames, -, -⟩
    · exact ⟨s, hMoves, hObjects, hSettled⟩
    · rw [hTurn]
      rw [hTick] at hCalls
      have hEntered := hFrames.trans (s.enterSyscall_frames granted)
      unfold Sys.dispatchSyscall
      dsimp only at hCalls
      cases hEnter : s.enterSyscall granted with
      | mk s' saved =>
        rw [hEnter] at hCalls hEntered
        cases saved with
        | ok saved => cases hCalls
        | error e =>
          exact ⟨s', .stays hEntered.threads, p.top_objects.trans hEntered.objects,
            goOn_settled hLive hEntered.threads.current after mode32⟩
  | modules hasTls =>
    refine ⟨{ p.top with os := { p.top.os with hasTls := hasTls } }, .stays ?_, ?_, settle_settled hLive _⟩
    · exact ⟨rfl, rfl, rfl, rfl, rfl, le_rfl⟩
    · exact ⟨rfl, rfl, rfl, rfl⟩

theorem finishApi_settled {r : Sys × Outcome} (hLive : p.exited = none)
    (hSwitched : r.1.os.current = p.sys.os.current ∨ r.2 = .Resume) (writes : List Field) (after : CpuState)
    (mode32 : Bool) :
    (p.finishApi writes after mode32 r).exited.isSome ∨ Settled p r.1 (p.finishApi writes after mode32 r) := by
  obtain ⟨s', outcome⟩ := r
  cases outcome with
  | Return value =>
    have hCurrent := hSwitched.resolve_right (by simp)
    have hSettled := goOn_settled hLive (show (s'.seed writes).1.os.current = _ from hCurrent) after mode32
    exact .inr (Settled.of_mem (s := s') hSettled)
  | Exit code => exact .inl rfl
  | Resume => exact .inr (settle_settled hLive s')

theorem finishSyscall_settled {r : Sys × Result Nat} (saved : SavedContext) (hLive : p.exited = none)
    (hSwitched : r.1.os.current = p.sys.os.current ∨
      r.1.os.syscallResumeAsIs = true ∧ ∃ status, r.2 = .ok status) (after : CpuState) (mode32 : Bool) :
    ∀ {p'}, p' = p.finishSyscall after mode32 (match r with
      | (s, .error e) => (s, .error e)
      | (s, .ok status) => s.leaveSyscall saved status) →
    p'.exited.isSome ∨ Settled p r.1 p' := by
  rintro p' rfl
  obtain ⟨s, e | status⟩ := r
  · refine .inr (goOn_settled hLive (hSwitched.resolve_right ?_) after mode32)
    rintro ⟨-, status, hStatus⟩
    cases hStatus
  · dsimp only at hSwitched ⊢
    unfold Sys.leaveSyscall
    cases hExit : s.os.pendingSyscallExit with
    | some code => exact .inl rfl
    | none =>
      dsimp only
      split
      · exact .inr (settle_settled hLive s)
      · rename_i hResume
        have hCurrent := hSwitched.resolve_right fun h => hResume h.1
        cases hRestore : restoreContext s.cpu s.mem saved with
        | mk cpu done =>
          cases done with
          | error e =>
            exact .inr (goOn_settled hLive hCurrent after mode32)
          | ok done =>
            right
            refine Settled.from_frames ?_ (.inr hCurrent) (settle_settled hLive _)
            exact ⟨⟨rfl, rfl, rfl, rfl, rfl, le_rfl⟩, ⟨rfl, rfl, rfl, rfl⟩⟩

/-- A turn that makes the call `c` in the state `s`, and what becomes of the call's result. -/
inductive Made (p : Process) (t : Turn) : Sys → Call → Prop
  | api (call : Api) (granted : U64 → Bool) (writes : List Field) (after : CpuState) (mode32 : Bool) (s : Sys)
      (hTurn : t = .api call granted writes after mode32) (hFrames : Frames p.top.os s.os)
      (hCpu : s.cpu = p.sys.cpu) (hMem : s.mem = p.sys.mem)
      (hResult : p.turn t = p.finishApi writes after mode32 (s.callApi granted after call)) :
      Made p t s (.api call granted after)
  | syscall (call : Syscall) (granted : U64 → Bool) (writes : List Field) (after : CpuState) (mode32 : Bool)
      (s₀ s : Sys) (saved : SavedContext) (hTurn : t = .syscall call granted writes after mode32)
      (hFrames : Frames p.top.os s₀.os) (hCpu : s₀.cpu = p.sys.cpu) (hMem : s₀.mem = p.sys.mem)
      (hEnter : s₀.enterSyscall granted = (s, .ok saved))
      (hResult : p.turn t = p.finishSyscall after mode32
        (match Sys.writeBack writes (Sys.ntHandler granted call s) with
        | (s, .error e) => (s, .error e)
        | (s, .ok status) => s.leaveSyscall saved status)) :
      Made p t s (.syscall call granted)

theorem turn_api (hLive : p.exited = none) (call : Api) (granted : U64 → Bool) (writes : List Field)
    (after : CpuState) (mode32 : Bool) :
    p.turn (.api call granted writes after mode32) =
      p.ticked fun s => p.finishApi writes after mode32 (s.callApi granted after call) := by
  unfold turn
  rw [hLive]
  rfl

theorem turn_syscall (hLive : p.exited = none) (call : Syscall) (granted : U64 → Bool) (writes : List Field)
    (after : CpuState) (mode32 : Bool) :
    p.turn (.syscall call granted writes after mode32) =
      p.ticked fun s => p.finishSyscall after mode32
        (s.dispatchSyscall granted fun s => Sys.writeBack writes (Sys.ntHandler granted call s)) := by
  unfold turn
  rw [hLive]
  rfl

theorem calls_made (hCalls : p.calls t = some (s, c)) : p.exited = none ∧ Made p t s c := by
  have hLive : p.exited = none := by
    by_contra hExited
    unfold calls at hCalls
    rw [if_pos (Option.isSome_iff_ne_none.mpr hExited)] at hCalls
    cases hCalls
  refine ⟨hLive, ?_⟩
  unfold calls at hCalls
  rw [hLive] at hCalls
  dsimp only [Option.isSome_none] at hCalls
  rw [if_neg Bool.false_ne_true] at hCalls
  cases t with
  | native cpu stores n => cases hCalls
  | instruction cpu stores mode32 => cases hCalls
  | modules hasTls => cases hCalls
  | api call granted writes after mode32 =>
    dsimp only at hCalls
    rcases ticked_cases hLive fun s => p.finishApi writes after mode32 (s.callApi granted after call) with
      ⟨s', hTick, -⟩ | ⟨s', hTick, hGoesOn, hFrames, hCpu, hMem⟩
    · rw [hTick] at hCalls
      cases hCalls
    · rw [hTick] at hCalls
      cases hCalls
      exact .api call granted writes after mode32 s rfl hFrames hCpu hMem
        ((turn_api hLive call granted writes after mode32).trans hGoesOn)
  | «syscall» call granted writes after mode32 =>
    dsimp only at hCalls
    rcases ticked_cases hLive fun s => p.finishSyscall after mode32
        (s.dispatchSyscall granted fun s => Sys.writeBack writes (Sys.ntHandler granted call s)) with
      ⟨s', hTick, -⟩ | ⟨s', hTick, hGoesOn, hFrames, hCpu, hMem⟩
    · rw [hTick] at hCalls
      cases hCalls
    · rw [hTick] at hCalls
      dsimp only at hCalls
      cases hEnter : s'.enterSyscall granted with
      | mk s₁ saved =>
        rw [hEnter] at hCalls
        cases saved with
        | error e => cases hCalls
        | ok saved =>
          cases hCalls
          refine .syscall call granted writes after mode32 s' s saved rfl hFrames hCpu hMem hEnter ?_
          rw [turn_syscall hLive, hGoesOn]
          cases hWritten : Sys.writeBack writes (Sys.ntHandler granted call s) with
          | mk s₂ res => cases res <;> simp only [Sys.dispatchSyscall, hEnter, hWritten]

theorem turn_of_call (hCalls : p.calls t = some (s, c)) (hStrands : c.strands s = false) :
    Frames p.top.os s.os ∧
      ((p.turn t).exited.isSome ∨
        Moves s (c.suspends s.os) (c.ends s.os) (c.makes s) ∧ Settled p (c.makes s) (p.turn t)) := by
  obtain ⟨hLive, hMade⟩ := calls_made hCalls
  cases hMade with
  | api call granted writes after mode32 s hTurn hFrames hCpu hMem hResult =>
    rw [hResult]
    refine ⟨hFrames, ?_⟩
    rcases Sys.callApi_answers granted after call with ⟨code, hExit⟩ | hAnswers
    · left
      generalize s.callApi granted after call = r at hExit ⊢
      obtain ⟨s', outcome⟩ := r
      dsimp only at hExit
      subst hExit
      rfl
    · have hCurrent : s.os.current = p.sys.os.current := hFrames.threads.current
      have hSwitched := hAnswers.switched
      rw [hCurrent] at hSwitched
      exact (finishApi_settled hLive hSwitched writes after mode32).imp_right fun h => ⟨hAnswers.moves, h⟩
  | «syscall» call granted writes after mode32 s₀ s saved hTurn hFrames hCpu hMem hEnter hResult =>
    rw [hResult]
    have hEntered := hFrames.trans (s₀.enterSyscall_frames granted)
    rw [hEnter] at hEntered
    refine ⟨hEntered, ?_⟩
    have hServes := Sys.ntHandler_serves granted call hStrands
    have hCurrent : s.os.current = p.sys.os.current := hEntered.threads.current
    have hSwitched := hServes.switched.imp_right fun h => And.intro h.1 h.2.2
    rw [hCurrent] at hSwitched
    obtain ⟨mem, res, hWritten, hRes⟩ := Sys.writeBack_eq writes (Sys.ntHandler granted call s)
    rw [hWritten]
    have hWrote : (Sys.ntHandler granted call s).1.os.current = p.sys.os.current ∨
        (Sys.ntHandler granted call s).1.os.syscallResumeAsIs = true ∧ ∃ status, res = .ok status :=
      hSwitched.imp_right fun ⟨hResume, hStatus⟩ => ⟨hResume, (hRes hResume).symm ▸ hStatus⟩
    have hSettled := finishSyscall_settled (r := ({ (Sys.ntHandler granted call s).1 with mem := mem }, res))
      saved hLive hWrote after mode32 rfl
    refine hSettled.imp_right fun h => ⟨hServes.moves, ?_⟩
    exact Settled.of_mem (s := (Sys.ntHandler granted call s).1) h

end Process

theorem turn_of_exited (hExited : p.exited.isSome) (t : Turn) : p.turn t = p := by
  unfold Process.turn
  rw [if_pos hExited]

theorem Process.run_succ (p : Process) {ts : List Turn} {n : Nat} {t : Turn} (hGet : ts[n]? = some t) :
    p.run (ts.take (n + 1)) = (p.run (ts.take n)).turn t := by
  unfold Process.run
  rw [List.take_add_one, hGet, List.foldl_append]
  rfl

theorem Process.run_of_none (p : Process) {ts : List Turn} {n : Nat} (hGet : ts[n]? = none) :
    p.run (ts.take (n + 1)) = p.run (ts.take n) := by
  have hLength := List.getElem?_eq_none_iff.mp hGet
  rw [List.take_of_length_le hLength, List.take_of_length_le (by omega)]

end Exemu.Os
