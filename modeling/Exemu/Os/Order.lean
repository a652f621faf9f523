import Exemu.Library.Stamp
import Exemu.Os.Turn

/-! # Who runs: one running thread, and nobody who is held back -/
namespace Exemu.Os

theorem WinOs.modThread_get (os : WinOs) (i : Nat) (f : Thread → Thread) (j : Nat) :
    (os.modThread i f).threads[j]? = os.threads[j]?.map fun t => if i = j then f t else t := by
  unfold WinOs.modThread
  rw [List.getElem?_modify]
  rfl

variable {t : Thread} {i : Nat} {s : Sys} {next : Nat} {s' : Sys} {p : Process} {ts : List Turn}

theorem get_append (ts : List Thread) {u : Thread} (h : (ts ++ [t])[i]? = some u) :
    ts[i]? = some u ∨ i = ts.length ∧ u = t := by
  rw [List.getElem?_append] at h
  split at h
  · exact .inl h
  · rename_i hLength
    rw [List.getElem?_singleton] at h
    split at h
    · exact .inr ⟨by omega, (Option.some.inj h).symm⟩
    · cases h

/-- The thread that is current is the one that is marked running, and no thread that may go on is
counted as suspended. -/
structure Ordered (os : WinOs) : Prop where
  current : os.current < os.threads.length
  running : ∀ (i : Nat) (t : Thread), os.threads[i]? = some t → (t.state = .Running ↔ i = os.current)
  held : ∀ (i : Nat) (t : Thread), os.threads[i]? = some t → 0 < t.suspendCount →
    t.state = .Suspended ∨ t.state = .Terminated

namespace Ordered

variable {os os' : WinOs}

theorem congr (h : Ordered os) (hThreads : os'.threads = os.threads) (hCurrent : os'.current = os.current) :
    Ordered os' where
  current := by rw [hThreads, hCurrent]; exact h.current
  running := by rw [hThreads, hCurrent]; exact h.running
  held := by rw [hThreads]; exact h.held

theorem modThread (h : Ordered os) (i : Nat) (f : Thread → Thread)
    (hRunning : ∀ t, os.threads[i]? = some t → ((f t).state = .Running ↔ i = os.current))
    (hHeld : ∀ t, os.threads[i]? = some t → 0 < (f t).suspendCount →
      (f t).state = .Suspended ∨ (f t).state = .Terminated) : Ordered (os.modThread i f) where
  current := by
    have hLength : (os.modThread i f).threads.length = os.threads.length := List.length_modify ..
    rw [hLength]
    exact h.current
  running := by
    intro j t hGet
    rw [os.modThread_get, Option.map_eq_some_iff] at hGet
    obtain ⟨u, hu, rfl⟩ := hGet
    split
    · rename_i hij
      subst hij
      exact hRunning u hu
    · exact h.running j u hu
  held := by
    intro j t hGet
    rw [os.modThread_get, Option.map_eq_some_iff] at hGet
    obtain ⟨u, hu, rfl⟩ := hGet
    split
    · rename_i hij
      subst hij
      exact hHeld u hu
    · exact h.held j u hu

theorem free (h : Ordered os) {t : Thread} (hGet : os.threads[os.current]? = some t) :
    t.suspendCount = 0 ∧ t.state = .Running := by
  have hState := (h.running _ t hGet).mpr rfl
  refine ⟨?_, hState⟩
  by_contra hCount
  rcases h.held _ t hGet (Nat.pos_of_ne_zero hCount) with hs | hs <;> rw [hs] at hState <;> cases hState

theorem suspendAt (h : Ordered os) {i : Nat} (hOther : i ≠ os.current) : Ordered (os.suspendAt i) := by
  refine h.modThread i _ ?_ ?_
  · intro t hGet
    have hState := h.running i t hGet
    dsimp only
    split
    · simp [hOther]
    · exact hState
  · intro t hGet hCount
    dsimp only at hCount ⊢
    split
    · exact .inl rfl
    · rename_i hSame
      right
      by_contra hState
      exact hSame ⟨hOther, hState⟩

theorem resumeAt (h : Ordered os) (i : Nat) : Ordered (os.resumeAt i) := by
  refine h.modThread i _ ?_ ?_
  · intro t hGet
    have hState := h.running i t hGet
    dsimp only
    split
    · split
      · rename_i hSuspended
        rw [hSuspended.2] at hState
        simpa using hState
      · exact hState
    · exact hState
  · intro t hGet hCount
    have hHeld := h.held i t hGet
    dsimp only at hCount ⊢
    split at hCount
    · rename_i hPos
      split at hCount
      · rename_i hZero
        exact absurd hZero.1 hCount.ne'
      · rename_i hKept
        rw [if_pos hPos, if_neg hKept]
        exact hHeld hPos
    · rename_i hZero
      exact absurd hCount hZero

theorem ended (h : Ordered os) {i : Nat} (hOther : i ≠ os.current) (code : U32) :
    Ordered (os.modThread i (Thread.ended code)) := by
  refine h.modThread i _ ?_ ?_
  · exact fun t _ => by simp [Thread.ended, hOther]
  · exact fun t _ _ => .inr rfl

theorem append (h : Ordered os) (t : Thread) (hState : t.state = .Ready ∨ t.state = .Suspended)
    (hCount : 0 < t.suspendCount → t.state = .Suspended) :
    Ordered { os with threads := os.threads ++ [t] } where
  current := by
    rw [List.length_append]
    exact Nat.lt_add_right _ h.current
  running := by
    intro j u hGet
    rcases get_append _ hGet with hOld | ⟨rfl, rfl⟩
    · exact h.running j u hOld
    · have hCurrent := h.current
      constructor
      · intro hRun
        rcases hState with hs | hs <;> rw [hs] at hRun <;> cases hRun
      · intro hEq
        exact absurd hEq hCurrent.ne'
  held := by
    intro j u hGet hPos
    rcases get_append _ hGet with hOld | ⟨rfl, rfl⟩
    · exact h.held j u hOld hPos
    · exact .inl (hCount hPos)

end Ordered

/-! ## A switch -/

structure Vacant (os : WinOs) : Prop where
  idle : ∀ (i : Nat) (t : Thread), os.threads[i]? = some t → t.state ≠ .Running
  held : ∀ (i : Nat) (t : Thread), os.threads[i]? = some t → 0 < t.suspendCount →
    t.state = .Suspended ∨ t.state = .Terminated

/-- The table after a switch to `next`. -/
def WinOs.handOver (os : WinOs) (next : Nat) : List Thread :=
  ((os.threads.modify os.current fun t => { t with mode32 := os.guestMode32 }).modify next
    fun t => { t with state := .Running, wait := none })

theorem Sys.activate_eq (hNext : next ≠ s.os.current) (hGet : s.os.threads[next]? = some t) :
    s.activate next =
      { s with
        os := { s.os with
          threads := s.os.handOver next
          pendingModeSwitch := some t.mode32
          current := next
          currentTid := t.tid
          schedTicks := 0 }
        cpu := t.saved } := by
  have hStill : (s.os.threads.modify s.os.current fun t => { t with mode32 := s.os.guestMode32 })[next]? =
      some t := by
    rw [List.getElem?_modify, hGet]
    simp [hNext.symm]
  unfold Sys.activate WinOs.modThread
  dsimp only
  rw [hStill]
  rfl

theorem WinOs.handOver_get (os : WinOs) (next j : Nat) :
    (os.handOver next)[j]? = os.threads[j]?.map fun t =>
      let t : Thread := if os.current = j then { t with mode32 := os.guestMode32 } else t
      if next = j then { t with state := .Running, wait := none } else t := by
  unfold handOver
  rw [List.getElem?_modify, List.getElem?_modify]
  cases os.threads[j]? <;> rfl

variable {os : WinOs}

theorem WinOs.runnable_spec (h : os.runnable i = true) :
    ∃ t, os.threads[i]? = some t ∧ (t.state = .Ready ∨ t.state = .Blocked) := by
  unfold runnable at h
  split at h
  · cases h
  · rename_i t hGet
    refine ⟨t, hGet, ?_⟩
    split at h
    · rename_i hState
      exact .inl hState
    · rename_i hState
      exact .inr hState
    · cases h

theorem Vacant.handOver {os' : WinOs} (h : Vacant os) (hNext : next ≠ os.current) (hGet : os.threads[next]? = some t)
    (hState : t.state = .Ready ∨ t.state = .Blocked) (hThreads : os'.threads = os.handOver next)
    (hCurrent : os'.current = next) : Ordered os' where
  current := by
    rw [hThreads, hCurrent]
    have hLength := (List.getElem?_eq_some_iff.mp hGet).1
    simpa [WinOs.handOver] using hLength
  running := by
    intro j u hu
    rw [hThreads, WinOs.handOver_get, Option.map_eq_some_iff] at hu
    rw [hCurrent]
    obtain ⟨v, hv, rfl⟩ := hu
    have hIdle := h.idle j v hv
    by_cases hj : next = j
    · simp [hj]
    · have hOther : j ≠ next := fun hEq => hj hEq.symm
      by_cases hc : os.current = j <;> simp [hj, hc, hOther, hIdle]
  held := by
    intro j u hu
    rw [hThreads, WinOs.handOver_get, Option.map_eq_some_iff] at hu
    obtain ⟨v, hv, rfl⟩ := hu
    have hHeld := h.held j v hv
    by_cases hj : next = j
    · -- the thread that comes was ready or blocked, so nobody holds it back
      subst hj
      obtain rfl : t = v := Option.some.inj (hGet.symm.trans hv)
      intro hPos
      have hCount : 0 < t.suspendCount := by simpa [hNext.symm] using hPos
      rcases hHeld hCount with hs | hs <;> rcases hState with hr | hr <;> rw [hr] at hs <;> cases hs
    · by_cases hc : os.current = j <;> simpa [hj, hc] using hHeld

theorem Ordered.vacate (h : Ordered os) (f : Thread → Thread)
    (hIdle : ∀ t, os.threads[os.current]? = some t → (f t).state ≠ .Running)
    (hHeld : ∀ t, os.threads[os.current]? = some t → 0 < (f t).suspendCount →
      (f t).state = .Suspended ∨ (f t).state = .Terminated) : Vacant (os.modThread os.current f) where
  idle := by
    intro j t hGet
    rw [os.modThread_get, Option.map_eq_some_iff] at hGet
    obtain ⟨u, hu, rfl⟩ := hGet
    split
    · rename_i hj
      subst hj
      exact hIdle u hu
    · rename_i hj
      intro hRun
      exact hj ((h.running j u hu).mp hRun).symm
  held := by
    intro j t hGet
    rw [os.modThread_get, Option.map_eq_some_iff] at hGet
    obtain ⟨u, hu, rfl⟩ := hGet
    split
    · rename_i hj
      subst hj
      exact hHeld u hu
    · exact h.held j u hu

theorem WinOs.pickNext_get (hCurrent : os.current < os.threads.length) (hPick : os.pickNext = some next) :
    next ≠ os.current ∧ ∃ t, os.threads[next]? = some t ∧ (t.state = .Ready ∨ t.state = .Blocked) := by
  obtain ⟨hNext, -, hRun⟩ := os.pickNext_spec hCurrent hPick
  exact ⟨hNext, WinOs.runnable_spec hRun⟩

/-- The current thread, changed by `leave`, makes way for the thread `t` at `next`. -/
structure HandsOver (s s' : Sys) (leave : Thread → Thread) (next : Nat) (t : Thread) : Prop where
  other : next ≠ s.os.current
  found : s.os.threads[next]? = some t
  ready : t.state = .Ready ∨ t.state = .Blocked
  threads : s'.os.threads = (s.os.modThread s.os.current leave).handOver next
  current : s'.os.current = next
  currentTid : s'.os.currentTid = t.tid
  pending : s'.os.pendingModeSwitch = some t.mode32
  cpu : s'.cpu = t.saved
  nextTid : s.os.nextTid ≤ s'.os.nextTid

theorem HandsOver.activate {s₁ : Sys} {leave : Thread → Thread}
    (hFrom : SameThreads (s.os.modThread s.os.current leave) s₁.os) (hNext : next ≠ s.os.current)
    (hGet : s.os.threads[next]? = some t) (hState : t.state = .Ready ∨ t.state = .Blocked)
    (hSame : SameThreads (s₁.activate next).os s'.os) (hCpu : s'.cpu = (s₁.activate next).cpu) :
    HandsOver s s' leave next t := by
  have hLeft : (s.os.modThread s.os.current leave).threads[next]? = some t := by
    rw [WinOs.modThread_get, hGet]
    simp [hNext.symm]
  have hGet₁ : s₁.os.threads[next]? = some t := by rw [hFrom.threads, hLeft]
  have hNext₁ : next ≠ s₁.os.current := by rw [hFrom.current]; exact hNext
  rw [Sys.activate_eq hNext₁ hGet₁] at hSame hCpu
  refine ⟨hNext, hGet, hState, ?_, hSame.current, hSame.currentTid, hSame.pending, hCpu, ?_⟩
  · rw [hSame.threads]
    change s₁.os.handOver next = _
    unfold WinOs.handOver
    rw [hFrom.threads, hFrom.current, hFrom.mode]
  · exact hFrom.nextTid.trans hSame.nextTid

theorem HandsOver.park (s₀ : Sys) {state : ThreadState} {wait : Thread → Option WaitDesc}
    (hCurrent : s.os.current < s.os.threads.length) (hFrom : SameThreads s.os s₀.os)
    (hPick : s₀.os.pickNext = some next) (hSame : SameThreads (s₀.park state wait next).os s'.os)
    (hCpu : s'.cpu = (s₀.park state wait next).cpu) :
    ∃ t, HandsOver s s' (fun t => { t with saved := s₀.cpu, state := state, wait := wait t }) next t := by
  have hCurrent₀ : s₀.os.current < s₀.os.threads.length := by rw [hFrom.threads, hFrom.current]; exact hCurrent
  obtain ⟨hNext, t, hGet, hReady⟩ := WinOs.pickNext_get hCurrent₀ hPick
  rw [hFrom.threads] at hGet
  rw [hFrom.current] at hNext
  unfold Sys.park at hSame hCpu
  dsimp only at hSame hCpu
  refine ⟨t, HandsOver.activate ?_ hNext hGet hReady hSame hCpu⟩
  rw [← hFrom.current]
  exact hFrom.modThread _ _

/-- What one call does to a table with a current thread, with a switch by what it does to both threads. -/
inductive Shifts (s : Sys) (suspended ended : Option Nat) (s' : Sys) : Prop where
  | stays (hSame : SameThreads s.os s'.os)
  | spawns (t : Thread) (hThreads : s'.os.threads = s.os.threads ++ [t])
      (hState : t.state = .Ready ∨ t.state = .Suspended) (hCount : 0 < t.suspendCount → t.state = .Suspended)
      (hTid : s.os.nextTid ≤ t.tid ∧ t.tid < s'.os.nextTid)
      (hRest : SameThreads { s.os with threads := s'.os.threads } s'.os)
  | suspends (i : Nat) (hAsked : suspended = some i) (hSame : SameThreads (s.os.suspendAt i) s'.os)
  | resumes (i : Nat) (hSame : SameThreads (s.os.resumeAt i) s'.os)
  | ends (i : Nat) (code : U32) (hAsked : ended = some i) (hOther : i ≠ s.os.current)
      (hSame : SameThreads (s.os.modThread i (Thread.ended code)) s'.os)
  | parks (cpu : CpuState) (state : ThreadState) (wait : Thread → Option WaitDesc) (next : Nat) (t : Thread)
      (hState : state = .Ready ∨ state = .Blocked)
      (hOver : HandsOver s s' (fun t => { t with saved := cpu, state := state, wait := wait t }) next t)
  | leaves (code : U32) (next : Nat) (t : Thread) (hAsked : ended = some s.os.current)
      (hOver : HandsOver s s' (Thread.ended code) next t)

theorem Moves.shifts {suspended ended : Option Nat} (hCurrent : s.os.current < s.os.threads.length)
    (h : Moves s suspended ended s') : Shifts s suspended ended s' := by
  cases h with
  | stays hSame => exact .stays hSame
  | spawns t hThreads hState hCount hTid hRest => exact .spawns t hThreads hState hCount hTid hRest
  | suspends i hAsked hSame => exact .suspends i hAsked hSame
  | resumes i hSame => exact .resumes i hSame
  | ends i code hAsked hOther hSame => exact .ends i code hAsked hOther hSame
  | parks s₀ state wait next hFrom hState hPick hSame hCpu =>
    obtain ⟨t, hOver⟩ := HandsOver.park s₀ hCurrent hFrom hPick hSame hCpu
    exact .parks s₀.cpu state wait next t hState hOver
  | leaves s₀ code next hAsked hFrom hPick hSame hCpu =>
    have hLength : s₀.os.current < s₀.os.threads.length := by
      rw [hFrom.threads, hFrom.current]
      simpa [WinOs.modThread] using hCurrent
    obtain ⟨hNext, t, hGet, hReady⟩ := WinOs.pickNext_get hLength hPick
    have hNext' : next ≠ s.os.current := by rw [hFrom.current] at hNext; exact hNext
    rw [hFrom.threads, WinOs.modThread_get, Option.map_eq_some_iff] at hGet
    obtain ⟨u, hu, rfl⟩ := hGet
    rw [if_neg hNext'.symm] at hReady
    refine .leaves code next u hAsked ?_
    exact HandsOver.activate hFrom hNext' hu hReady hSame hCpu

namespace Shifts

variable {s s' : Sys} {suspended ended : Option Nat}

theorem ordered (h : Shifts s suspended ended s') (hOrdered : Ordered s.os)
    (hAsked : suspended ≠ some s.os.current) : Ordered s'.os := by
  cases h with
  | stays hSame => exact hOrdered.congr hSame.threads hSame.current
  | spawns t hThreads hState hCount hTid hRest =>
    exact (hOrdered.append t hState hCount).congr hThreads hRest.current
  | suspends i hSuspended hSame =>
    have hOther : i ≠ s.os.current := fun hi => hAsked (hSuspended.trans (congrArg some hi))
    exact (hOrdered.suspendAt hOther).congr hSame.threads hSame.current
  | resumes i hSame => exact (hOrdered.resumeAt i).congr hSame.threads hSame.current
  | ends i code hEnded hOther hSame => exact (hOrdered.ended hOther code).congr hSame.threads hSame.current
  | parks cpu state wait next t hState hOver =>
    have hVacant := hOrdered.vacate (fun t => { t with saved := cpu, state := state, wait := wait t })
      (by intro u _; rcases hState with hs | hs <;> rw [hs] <;> exact fun h => by cases h)
      (fun u hu hPos => absurd (hOrdered.free hu).1 hPos.ne')
    refine hVacant.handOver hOver.other ?_ hOver.ready hOver.threads hOver.current
    rw [WinOs.modThread_get, hOver.found]
    simp [hOver.other.symm]
  | leaves code next t hEnded hOver =>
    have hVacant := hOrdered.vacate (Thread.ended code) (fun u _ => by simp [Thread.ended])
      (fun u _ _ => .inr rfl)
    refine hVacant.handOver hOver.other ?_ hOver.ready hOver.threads hOver.current
    rw [WinOs.modThread_get, hOver.found]
    simp [hOver.other.symm]

theorem arrives (h : Shifts s suspended ended s') (hSwitch : s'.os.current ≠ s.os.current) :
    ∃ t, s.os.threads[s'.os.current]? = some t ∧ s'.cpu = t.saved ∧ s'.os.pendingModeSwitch = some t.mode32 := by
  cases h with
  | stays hSame => exact absurd hSame.current hSwitch
  | spawns t hThreads hState hCount hTid hRest => exact absurd hRest.current hSwitch
  | suspends i hSuspended hSame => exact absurd hSame.current hSwitch
  | resumes i hSame => exact absurd hSame.current hSwitch
  | ends i code hEnded hOther hSame => exact absurd hSame.current hSwitch
  | parks cpu state wait next t hState hOver =>
    exact ⟨t, hOver.current ▸ hOver.found, hOver.cpu, hOver.pending⟩
  | leaves code next t hEnded hOver => exact ⟨t, hOver.current ▸ hOver.found, hOver.cpu, hOver.pending⟩

theorem keeps (h : Shifts s suspended ended s') {i : Nat} {t : Thread} (hGet : s.os.threads[i]? = some t)
    (hOther : i ≠ s.os.current) :
    ∃ t', s'.os.threads[i]? = some t' ∧ t'.saved = t.saved ∧ t'.mode32 = t.mode32 := by
  have hMod : ∀ (j : Nat) (f : Thread → Thread), (∀ t, (f t).saved = t.saved ∧ (f t).mode32 = t.mode32) →
      SameThreads (s.os.modThread j f) s'.os →
      ∃ t', s'.os.threads[i]? = some t' ∧ t'.saved = t.saved ∧ t'.mode32 = t.mode32 := by
    intro j f hf hSame
    refine ⟨if j = i then f t else t, ?_, ?_⟩
    · rw [hSame.threads, WinOs.modThread_get, hGet]
      rfl
    · split
      · exact hf t
      · exact ⟨rfl, rfl⟩
  have hOver : ∀ (leave : Thread → Thread) (next : Nat) (u : Thread), HandsOver s s' leave next u →
      ∃ t', s'.os.threads[i]? = some t' ∧ t'.saved = t.saved ∧ t'.mode32 = t.mode32 := by
    intro leave next u hOver
    refine ⟨if next = i then { t with state := .Running, wait := none } else t, ?_, ?_⟩
    · rw [hOver.threads, WinOs.handOver_get, WinOs.modThread_get, hGet]
      have hCurrent : (s.os.modThread s.os.current leave).current = s.os.current := rfl
      simp [hCurrent, hOther.symm]
    · split <;> exact ⟨rfl, rfl⟩
  cases h with
  | stays hSame => exact ⟨t, hSame.threads ▸ hGet, rfl, rfl⟩
  | spawns u hThreads hState hCount hTid hRest =>
    refine ⟨t, ?_, rfl, rfl⟩
    rw [hThreads, List.getElem?_append_left (List.getElem?_eq_some_iff.mp hGet).1]
    exact hGet
  | suspends j hSuspended hSame => exact hMod j _ (fun u => by dsimp only; split <;> exact ⟨rfl, rfl⟩) hSame
  | resumes j hSame =>
    refine hMod j _ (fun u => ?_) hSame
    dsimp only
    split
    · split <;> exact ⟨rfl, rfl⟩
    · exact ⟨rfl, rfl⟩
  | ends j code hEnded hj hSame => exact hMod j (Thread.ended code) (fun u => ⟨rfl, rfl⟩) hSame
  | parks cpu state wait next u hState h => exact hOver _ next u h
  | leaves code next u hEnded h => exact hOver _ next u h

theorem length (h : Shifts s suspended ended s') (hCurrent : s.os.current < s.os.threads.length) :
    s'.os.current < s'.os.threads.length := by
  have hMod : ∀ (i : Nat) (f : Thread → Thread), SameThreads (s.os.modThread i f) s'.os →
      s'.os.current < s'.os.threads.length := by
    intro i f hSame
    have hKept : s'.os.current = s.os.current := hSame.current
    rw [hSame.threads, hKept]
    simpa [WinOs.modThread] using hCurrent
  have hOver : ∀ (leave : Thread → Thread) (next : Nat) (u : Thread), HandsOver s s' leave next u →
      s'.os.current < s'.os.threads.length := by
    intro leave next u hOver
    rw [hOver.threads, hOver.current]
    simpa [WinOs.handOver, WinOs.modThread] using (List.getElem?_eq_some_iff.mp hOver.found).1
  cases h with
  | stays hSame => rwa [hSame.threads, hSame.current]
  | spawns u hThreads hState hCount hTid hRest =>
    have hKept : s'.os.current = s.os.current := hRest.current
    rw [hThreads, hKept, List.length_append]
    exact Nat.lt_add_right _ hCurrent
  | suspends j hSuspended hSame => exact hMod j _ hSame
  | resumes j hSame => exact hMod j _ hSame
  | ends j code hEnded hj hSame => exact hMod j _ hSame
  | parks cpu state wait next u hState h => exact hOver _ next u h
  | leaves code next u hEnded h => exact hOver _ next u h

theorem departs (h : Shifts s suspended ended s') (hSwitch : s'.os.current ≠ s.os.current) {t : Thread}
    (hGet : s.os.threads[s.os.current]? = some t) :
    ∃ t', s'.os.threads[s.os.current]? = some t' ∧ t'.mode32 = s.os.guestMode32 := by
  have hOver : ∀ (leave : Thread → Thread) (next : Nat) (u : Thread), HandsOver s s' leave next u →
      ∃ t', s'.os.threads[s.os.current]? = some t' ∧ t'.mode32 = s.os.guestMode32 := by
    intro leave next u hOver
    refine ⟨{ leave t with mode32 := s.os.guestMode32 }, ?_, rfl⟩
    rw [hOver.threads, WinOs.handOver_get, WinOs.modThread_get, hGet]
    have hCurrent : (s.os.modThread s.os.current leave).current = s.os.current := rfl
    simp [hCurrent, hOver.other]
    rfl
  cases h with
  | stays hSame => exact absurd hSame.current hSwitch
  | spawns u hThreads hState hCount hTid hRest => exact absurd hRest.current hSwitch
  | suspends i hSuspended hSame => exact absurd hSame.current hSwitch
  | resumes i hSame => exact absurd hSame.current hSwitch
  | ends i code hEnded hOther hSame => exact absurd hSame.current hSwitch
  | parks cpu state wait next u hState h => exact hOver _ next u h
  | leaves code next u hEnded h => exact hOver _ next u h

theorem entry (h : Shifts s suspended ended s') {j : Nat} {t' : Thread} (hGet : s'.os.threads[j]? = some t') :
    (∃ t, s.os.threads[j]? = some t ∧ t'.tid = t.tid ∧ Sys.ownedRanges t' = Sys.ownedRanges t ∧
        (t'.state = .Terminated → t.state = .Terminated ∨ ended = some j)) ∨
      (s'.os.threads = s.os.threads ++ [t'] ∧ j = s.os.threads.length ∧ s.os.nextTid ≤ t'.tid ∧
        t'.tid < s'.os.nextTid ∧ t'.state ≠ .Terminated) := by
  have hMod : ∀ (i : Nat) (f : Thread → Thread),
      (∀ t, s.os.threads[i]? = some t → (f t).tid = t.tid ∧ Sys.ownedRanges (f t) = Sys.ownedRanges t ∧
        ((f t).state = .Terminated → t.state = .Terminated ∨ ended = some i)) →
      SameThreads (s.os.modThread i f) s'.os →
      ∃ t, s.os.threads[j]? = some t ∧ t'.tid = t.tid ∧ Sys.ownedRanges t' = Sys.ownedRanges t ∧
        (t'.state = .Terminated → t.state = .Terminated ∨ ended = some j) := by
    intro i f hf hSame
    rw [hSame.threads, WinOs.modThread_get, Option.map_eq_some_iff] at hGet
    obtain ⟨t, ht, rfl⟩ := hGet
    refine ⟨t, ht, ?_⟩
    split
    · rename_i hij
      subst hij
      exact hf t ht
    · exact ⟨rfl, rfl, .inl⟩
  have hOver : ∀ (leave : Thread → Thread) (next : Nat) (u : Thread),
      (∀ t, (leave t).tid = t.tid ∧ Sys.ownedRanges (leave t) = Sys.ownedRanges t ∧
        ((leave t).state = .Terminated → t.state = .Terminated ∨ ended = some s.os.current)) →
      HandsOver s s' leave next u →
      ∃ t, s.os.threads[j]? = some t ∧ t'.tid = t.tid ∧ Sys.ownedRanges t' = Sys.ownedRanges t ∧
        (t'.state = .Terminated → t.state = .Terminated ∨ ended = some j) := by
    intro leave next u hLeave hOver
    rw [hOver.threads, WinOs.handOver_get, WinOs.modThread_get, Option.map_eq_some_iff] at hGet
    obtain ⟨v, hv, rfl⟩ := hGet
    obtain ⟨t, ht, rfl⟩ := Option.map_eq_some_iff.mp hv
    have hCurrent : (s.os.modThread s.os.current leave).current = s.os.current := rfl
    refine ⟨t, ht, ?_⟩
    rw [hCurrent]
    by_cases hj : s.os.current = j
    · subst hj
      obtain ⟨hTid, hOwned, hState⟩ := hLeave t
      simp only [if_true]
      rw [if_neg hOver.other]
      exact ⟨hTid, hOwned, hState⟩
    · simp only [if_neg hj]
      split
      · exact ⟨rfl, rfl, nofun⟩
      · exact ⟨rfl, rfl, .inl⟩
  cases h with
  | stays hSame => exact .inl ⟨t', hSame.threads ▸ hGet, rfl, rfl, .inl⟩
  | spawns u hThreads hState hCount hTid hRest =>
    rw [hThreads] at hGet
    rcases get_append _ hGet with hOld | ⟨rfl, rfl⟩
    · exact .inl ⟨t', hOld, rfl, rfl, .inl⟩
    · refine .inr ⟨hThreads, rfl, hTid.1, hTid.2, ?_⟩
      rcases hState with hs | hs <;> rw [hs] <;> nofun
  | suspends i hSuspended hSame =>
    refine .inl (hMod i _ (fun t ht => ?_) hSame)
    dsimp only
    split
    · exact ⟨rfl, rfl, nofun⟩
    · exact ⟨rfl, rfl, .inl⟩
  | resumes i hSame =>
    refine .inl (hMod i _ (fun t ht => ?_) hSame)
    dsimp only
    split
    · split
      · exact ⟨rfl, rfl, nofun⟩
      · exact ⟨rfl, rfl, .inl⟩
    · exact ⟨rfl, rfl, .inl⟩
  | ends i code hEnded hOther hSame =>
    exact .inl (hMod i (Thread.ended code) (fun t ht => ⟨rfl, rfl, fun _ => .inr hEnded⟩) hSame)
  | parks cpu state wait next u hState h =>
    refine .inl (hOver _ next u ?_ h)
    refine fun t => ⟨rfl, rfl, fun hEnd => ?_⟩
    rcases hState with hs | hs <;> cases hs.symm.trans hEnd
  | leaves code next u hEnded h =>
    exact .inl (hOver (Thread.ended code) next u (fun t => ⟨rfl, rfl, fun _ => .inr hEnded⟩) h)

end Shifts

/-- Ids are told apart, and the id on record is that of the current thread, which has not ended. -/
structure Placed (os : WinOs) : Prop where
  current : ∃ t, os.threads[os.current]? = some t ∧ t.tid = os.currentTid ∧ t.state ≠ .Terminated
  distinct : ∀ (i j : Nat) (t u : Thread), os.threads[i]? = some t → os.threads[j]? = some u → t.tid = u.tid → i = j
  fresh : ∀ (i : Nat) (t : Thread), os.threads[i]? = some t → t.tid < os.nextTid

namespace Placed

theorem congr {os os' : WinOs} (h : Placed os) (hThreads : os'.threads = os.threads)
    (hCurrent : os'.current = os.current) (hTid : os'.currentTid = os.currentTid)
    (hNext : os.nextTid ≤ os'.nextTid) : Placed os' where
  current := by rw [hThreads, hCurrent, hTid]; exact h.current
  distinct := by rw [hThreads]; exact h.distinct
  fresh := by
    rw [hThreads]
    exact fun i t hGet => (h.fresh i t hGet).trans_le hNext

theorem length {os : WinOs} (h : Placed os) : os.current < os.threads.length := by
  obtain ⟨t, hGet, -⟩ := h.current
  exact (List.getElem?_eq_some_iff.mp hGet).1

end Placed

namespace Shifts

variable {s s' : Sys} {suspended ended : Option Nat}

theorem nextTid (h : Shifts s suspended ended s') : s.os.nextTid ≤ s'.os.nextTid := by
  cases h with
  | stays hSame => exact hSame.nextTid
  | spawns u hThreads hState hCount hTid hRest => exact hRest.nextTid
  | suspends i hSuspended hSame => exact hSame.nextTid
  | resumes i hSame => exact hSame.nextTid
  | ends i code hEnded hOther hSame => exact hSame.nextTid
  | parks cpu state wait next u hState h => exact h.nextTid
  | leaves code next u hEnded h => exact h.nextTid

theorem alive (h : Shifts s suspended ended s') (hPlaced : Placed s.os) :
    ∃ t, s'.os.threads[s'.os.current]? = some t ∧ t.tid = s'.os.currentTid ∧ t.state ≠ .Terminated := by
  obtain ⟨t, hGet, hTid, hState⟩ := hPlaced.current
  have hMod : ∀ (i : Nat) (f : Thread → Thread),
      (i = s.os.current → (f t).tid = t.tid ∧ (f t).state ≠ .Terminated) → SameThreads (s.os.modThread i f) s'.os →
      ∃ t, s'.os.threads[s'.os.current]? = some t ∧ t.tid = s'.os.currentTid ∧ t.state ≠ .Terminated := by
    intro i f hf hSame
    refine ⟨if i = s.os.current then f t else t, ?_, ?_⟩
    · have hCurrent : s'.os.current = s.os.current := hSame.current
      rw [hSame.threads, hCurrent, WinOs.modThread_get, hGet]
      rfl
    · have hCurrentTid : s'.os.currentTid = s.os.currentTid := hSame.currentTid
      rw [hCurrentTid, ← hTid]
      split
      · rename_i hi
        exact hf hi
      · exact ⟨rfl, hState⟩
  have hOver : ∀ (leave : Thread → Thread) (next : Nat) (u : Thread), HandsOver s s' leave next u →
      ∃ t, s'.os.threads[s'.os.current]? = some t ∧ t.tid = s'.os.currentTid ∧ t.state ≠ .Terminated := by
    intro leave next u hOver
    refine ⟨{ u with state := .Running, wait := none }, ?_, hOver.currentTid.symm, nofun⟩
    have hCurrent : (s.os.modThread s.os.current leave).current = s.os.current := rfl
    rw [hOver.threads, hOver.current, WinOs.handOver_get, WinOs.modThread_get, hOver.found]
    simp [hCurrent, hOver.other.symm]
  cases h with
  | stays hSame =>
    refine ⟨t, ?_, hTid.trans hSame.currentTid.symm, hState⟩
    rw [hSame.threads, hSame.current]
    exact hGet
  | spawns u hThreads hReady hCount hFresh hRest =>
    have hCurrent : s'.os.current = s.os.current := hRest.current
    refine ⟨t, ?_, hTid.trans hRest.currentTid.symm, hState⟩
    rw [hThreads, hCurrent, List.getElem?_append_left hPlaced.length]
    exact hGet
  | suspends i hSuspended hSame =>
    refine hMod i _ (fun hi => ?_) hSame
    dsimp only
    rw [if_neg fun h => h.1 hi]
    exact ⟨rfl, hState⟩
  | resumes i hSame =>
    refine hMod i _ (fun hi => ?_) hSame
    dsimp only
    split
    · split
      · exact ⟨rfl, nofun⟩
      · exact ⟨rfl, hState⟩
    · exact ⟨rfl, hState⟩
  | ends i code hEnded hOther hSame => exact hMod i _ (fun hi => absurd hi hOther) hSame
  | parks cpu state wait next u hReady h => exact hOver _ next u h
  | leaves code next u hEnded h => exact hOver _ next u h

theorem placed (h : Shifts s suspended ended s') (hPlaced : Placed s.os) : Placed s'.os where
  current := h.alive hPlaced
  distinct := by
    intro i j t u hi hj hTid
    rcases h.entry hi with ⟨v, hv, hvTid, -, -⟩ | ⟨-, rfl, hFresh, -, -⟩ <;>
      rcases h.entry hj with ⟨w, hw, hwTid, -, -⟩ | ⟨-, rfl, hFresh', -, -⟩
    · exact hPlaced.distinct i j v w hv hw (hvTid.symm.trans (hTid.trans hwTid))
    · have hOld := hPlaced.fresh i v hv
      omega
    · have hOld := hPlaced.fresh j w hw
      omega
    · rfl
  fresh := by
    intro i t hi
    rcases h.entry hi with ⟨v, hv, hvTid, -, -⟩ | ⟨-, -, -, hFresh, -⟩
    · rw [hvTid]
      exact (hPlaced.fresh i v hv).trans_le h.nextTid
    · exact hFresh

end Shifts

/-! ## Over a run -/

/-- One thread runs, it is the current one, and nothing holds it back; the others execute nothing. -/
def Scheduled (p : Process) : Prop :=
  p.exited = none →
    ∃ t, p.sys.os.threads[p.sys.os.current]? = some t ∧ t.state = .Running ∧ t.suspendCount = 0 ∧
      ∀ (i : Nat) (u : Thread), p.sys.os.threads[i]? = some u → u.state = .Running → i = p.sys.os.current

/-- A thread that waits from turn `j` on and comes back in turn `k` does so with the state and the
mode it has in the table at `j`; the mode it leaves with is the processor's. -/
structure Resumes (p : Process) (ts : List Turn) : Prop where
  comes : ∀ (j k i : Nat) (t : Thread), j ≤ k → k < ts.length →
    (p.run (ts.take j)).sys.os.threads[i]? = some t →
    (∀ m, j ≤ m → m ≤ k → (p.run (ts.take m)).sys.os.current ≠ i) →
    (p.run (ts.take (k + 1))).exited = none → (p.run (ts.take (k + 1))).sys.os.current = i →
    (p.run (ts.take (k + 1))).sys.cpu = t.saved ∧ (p.run (ts.take (k + 1))).mode32 = t.mode32
  goes : ∀ j, j < ts.length → (p.run (ts.take (j + 1))).exited = none →
    (p.run (ts.take (j + 1))).sys.os.current ≠ (p.run (ts.take j)).sys.os.current →
    ∃ t, (p.run (ts.take (j + 1))).sys.os.threads[(p.run (ts.take j)).sys.os.current]? = some t ∧
      t.mode32 = (p.run (ts.take j)).mode32

/-- The turn does not suspend the thread that runs, nor end it by `NtTerminateThread` when nothing
else can run. -/
def Orderly (p : Process) (t : Turn) : Prop :=
  ∀ s c, p.calls t = some (s, c) → c.suspends s.os ≠ some s.os.current ∧ c.strands s = false

theorem turn_shifts {t : Turn} (hLive : (p.turn t).exited = none) (hOrdered : Ordered p.sys.os)
    (hOrderly : Orderly p t) :
    ∃ suspended ended s', suspended ≠ some p.top.os.current ∧ Shifts p.top suspended ended s' ∧
      Settled p s' (p.turn t) := by
  have hBefore : p.exited = none := by
    by_contra hExited
    have hSome := Option.isSome_iff_ne_none.mpr hExited
    rw [turn_of_exited hSome] at hLive
    exact hExited hLive
  cases hCalls : p.calls t with
  | none =>
    obtain ⟨s', hMoves, -, hSettled⟩ := Process.turn_of_no_call hBefore hCalls
    exact ⟨none, none, s', nofun, hMoves.shifts hOrdered.current, hSettled⟩
  | some sc =>
    obtain ⟨s, c⟩ := sc
    obtain ⟨hSuspends, hStrands⟩ := hOrderly s c hCalls
    obtain ⟨hFrames, hTurn⟩ := Process.turn_of_call hCalls hStrands
    rcases hTurn with hExit | ⟨hMoves, hSettled⟩
    · rw [hLive] at hExit
      cases hExit
    · rw [hFrames.threads.current] at hSuspends
      exact ⟨_, _, _, hSuspends, (hMoves.from_same hFrames.threads).shifts hOrdered.current, hSettled⟩

theorem turn_ordered {t : Turn} (hOrderly : Orderly p t) (h : p.exited = none → Ordered p.sys.os) :
    (p.turn t).exited = none → Ordered (p.turn t).sys.os := by
  intro hLive
  have hBefore : p.exited = none := by
    by_contra hExited
    have hSome := Option.isSome_iff_ne_none.mpr hExited
    rw [turn_of_exited hSome] at hLive
    exact hExited hLive
  obtain ⟨suspended, ended, s', hSuspended, hShifts, hSettled⟩ := turn_shifts hLive (h hBefore) hOrderly
  have hTop : Ordered p.top.os := (h hBefore).congr rfl rfl
  exact (hShifts.ordered hTop hSuspended).congr hSettled.threads.threads hSettled.threads.current

theorem exited_of_turn {t : Turn} (hLive : (p.turn t).exited = none) : p.exited = none := by
  by_contra hExited
  have hSome := Option.isSome_iff_ne_none.mpr hExited
  rw [turn_of_exited hSome] at hLive
  exact hExited hLive

theorem starts_ordered (hStarts : p.Starts) : Ordered p.sys.os := by
  obtain ⟨cfg, vallocBase, exitThunk, tlsThunk, entryThunk, wow64Peb32, wow64Threading, hOs⟩ := hStarts.os
  have hMain : ∀ (i : Nat) (t : Thread), p.sys.os.threads[i]? = some t →
      i = 0 ∧ t = { Thread.main MAIN_TID with tebBase := cfg.tebBase } := by
    intro i t hGet
    rw [hOs] at hGet
    obtain hNone | ⟨hi, ht⟩ := get_append [] hGet
    · cases hNone
    · exact ⟨hi, ht⟩
  have hCurrent : p.sys.os.current = 0 := by rw [hOs]; rfl
  refine ⟨?_, ?_, ?_⟩
  · rw [hOs]
    exact Nat.zero_lt_one
  · intro i t hGet
    obtain ⟨rfl, rfl⟩ := hMain i t hGet
    rw [hCurrent]
    exact ⟨fun _ => rfl, fun _ => rfl⟩
  · intro i t hGet hPos
    obtain ⟨rfl, rfl⟩ := hMain i t hGet
    exact absurd hPos (Nat.lt_irrefl 0)

theorem run_ordered (hStarts : p.Starts) (hRun : Stamp.Along Process.turn Orderly p ts) (n : Nat) :
    (p.run (ts.take n)).exited = none → Ordered (p.run (ts.take n)).sys.os :=
  (hRun.take n).keeps (fun _ _ _ h hOrderly => turn_ordered hOrderly h) (fun _ => starts_ordered hStarts)

theorem Ordered.scheduled (h : p.exited = none → Ordered p.sys.os) : Scheduled p := by
  intro hLive
  have hOrdered := h hLive
  have hGet := List.getElem?_eq_getElem hOrdered.current
  obtain ⟨hCount, hState⟩ := hOrdered.free hGet
  exact ⟨_, hGet, hState, hCount, fun i u hu hRun => (hOrdered.running i u hu).mp hRun⟩

structure Keeps (p p' : Process) : Prop where
  current : p'.sys.os.current < p'.sys.os.threads.length
  saved : ∀ (i : Nat) (t : Thread), p.sys.os.threads[i]? = some t → i ≠ p.sys.os.current →
    ∃ t', p'.sys.os.threads[i]? = some t' ∧ t'.saved = t.saved ∧ t'.mode32 = t.mode32
  loads : ∀ (i : Nat) (t : Thread), p.sys.os.threads[i]? = some t → i ≠ p.sys.os.current →
    p'.sys.os.current = i → p'.sys.cpu = t.saved ∧ p'.mode32 = t.mode32

theorem Shifts.keptBy {p' : Process} {suspended ended : Option Nat} (h : Shifts p.top suspended ended s')
    (hCurrent : p.sys.os.current < p.sys.os.threads.length) (hSettled : Settled p s' p') : Keeps p p' where
  current := by
    rw [hSettled.threads.threads, hSettled.threads.current]
    exact h.length hCurrent
  saved := by
    intro i t hGet hOther
    obtain ⟨t', hGet', hSame⟩ := h.keeps hGet hOther
    exact ⟨t', by rw [hSettled.threads.threads]; exact hGet', hSame⟩
  loads := by
    intro i t hGet hOther hComes
    have hNow : s'.os.current = i := hSettled.threads.current.symm.trans hComes
    obtain ⟨u, hu, hCpu, hPending⟩ := h.arrives (by rw [hNow]; exact hOther)
    rw [hNow] at hu
    obtain rfl : u = t := Option.some.inj (hu.symm.trans hGet)
    rcases hSettled.arrives with hSame | ⟨hLoaded, hLoadedMode⟩
    · exact absurd (hSame.symm.trans hComes) hOther.symm
    · rw [hPending] at hLoadedMode
      exact ⟨hLoaded.trans hCpu, hLoadedMode⟩

theorem Sys.ntTerminateThread_strands {h : Nat} {code : U32} (hIndex : s.os.ntThreadIndex h = some s.os.current)
    (hPick : (s.endThread s.os.current code).os.pickNext = none) :
    SameThreads (s.endThread s.os.current code).os (s.ntTerminateThread h code).1.os := by
  unfold Sys.ntTerminateThread
  simp only [hIndex, if_true]
  split
  · rename_i next hNext
    cases hPick.symm.trans hNext
  · exact ⟨rfl, rfl, rfl, rfl, rfl, le_rfl⟩

theorem turn_of_strands {t : Turn} {c : Call} (hCalls : p.calls t = some (s, c)) (hStrands : c.strands s = true) :
    (p.turn t).exited.isSome ∨
      ∃ s' code, SameThreads (p.top.os.modThread p.top.os.current (Thread.ended code)) s'.os ∧
        Settled p s' (p.turn t) := by
  obtain ⟨hLive, hMade⟩ := Process.calls_made hCalls
  cases hMade with
  | api call granted writes after mode32 s hTurn hFrames hCpu hMem hResult => cases hStrands
  | «syscall» call granted writes after mode32 s₀ s saved hTurn hFrames hCpu hMem hEnter hResult =>
  cases call with
  | terminateThread h code =>
    have hEntered := hFrames.trans (s₀.enterSyscall_frames granted)
    rw [hEnter] at hEntered
    obtain ⟨hIndex, hPick⟩ : s.os.ntThreadIndex h = some s.os.current ∧
        (s.endThread s.os.current code).os.pickNext = none := by
      simpa [Call.strands, Syscall.strands] using hStrands
    have hSame : SameThreads (s.os.modThread s.os.current (Thread.ended code))
        (Sys.ntHandler granted (.terminateThread h code) s).1.os := by
      refine SameThreads.trans ?_ (Sys.ntTerminateThread_strands hIndex hPick)
      exact s.endThread_same s.os.current code
    obtain ⟨mem, res, hWritten, -⟩ :=
      Sys.writeBack_eq writes (Sys.ntHandler granted (.terminateThread h code) s)
    rw [hResult, hWritten]
    have hCurrent : (Sys.ntHandler granted (.terminateThread h code) s).1.os.current = p.sys.os.current :=
      hSame.current.trans hEntered.threads.current
    have hSettled := Process.finishSyscall_settled
      (r := ({ (Sys.ntHandler granted (.terminateThread h code) s).1 with mem := mem }, res)) saved hLive
      (.inl hCurrent) after mode32 rfl
    refine hSettled.imp_right fun hSettled => ⟨_, code, ?_, Settled.of_mem hSettled⟩
    rw [hEntered.threads.current] at hSame
    exact (hEntered.threads.modThread _ _).trans hSame
  | _ => cases hStrands

theorem turn_keeps {t : Turn} (hLive : (p.turn t).exited = none)
    (hCurrent : p.sys.os.current < p.sys.os.threads.length) : Keeps p (p.turn t) := by
  have hBefore := exited_of_turn hLive
  have hTop : p.top.os.current < p.top.os.threads.length := hCurrent
  cases hCalls : p.calls t with
  | none =>
    obtain ⟨s', hMoves, -, hSettled⟩ := Process.turn_of_no_call hBefore hCalls
    exact (hMoves.shifts hTop).keptBy hCurrent hSettled
  | some sc =>
    obtain ⟨s, c⟩ := sc
    cases hStrands : c.strands s with
    | false =>
      obtain ⟨hFrames, hTurn⟩ := Process.turn_of_call hCalls hStrands
      rcases hTurn with hExit | ⟨hMoves, hSettled⟩
      · simp [hLive] at hExit
      · exact ((hMoves.from_same hFrames.threads).shifts hTop).keptBy hCurrent hSettled
    | true =>
      rcases turn_of_strands hCalls hStrands with hExit | ⟨s', code, hSame, hSettled⟩
      · simp [hLive] at hExit
      · have hKept : s'.os.current = p.sys.os.current := hSame.current
        have hStays : (p.turn t).sys.os.current = p.sys.os.current := hSettled.threads.current.trans hKept
        constructor
        · have hLength : (p.top.os.modThread p.top.os.current (Thread.ended code)).threads.length =
              p.sys.os.threads.length := List.length_modify ..
          rwa [hSettled.threads.threads, hStays, hSame.threads, hLength]
        · intro i u hGet hOther
          refine ⟨u, ?_, rfl, rfl⟩
          have hThere : p.top.os.threads[i]? = some u := hGet
          have hNot : p.top.os.current ≠ i := hOther.symm
          rw [hSettled.threads.threads, hSame.threads, WinOs.modThread_get, hThere]
          simp [hNot]
        · exact fun i u hGet hOther hComes => absurd (hComes.symm.trans hStays) hOther

theorem run_current (hStarts : p.Starts) (n : Nat) :
    (p.run (ts.take n)).exited = none →
      (p.run (ts.take n)).sys.os.current < (p.run (ts.take n)).sys.os.threads.length := by
  induction n with
  | zero => exact fun _ => (starts_ordered hStarts).current
  | succ n ih =>
    intro hLive
    cases hTurn : ts[n]? with
    | none =>
      rw [p.run_of_none hTurn] at hLive ⊢
      exact ih hLive
    | some t =>
      rw [p.run_succ hTurn] at hLive ⊢
      exact (turn_keeps hLive (ih (exited_of_turn hLive))).current

theorem run_keeps (hStarts : p.Starts) {j k : Nat} (hjk : j ≤ k) (hk : k ≤ ts.length)
    (hGet : (p.run (ts.take j)).sys.os.threads[i]? = some t)
    (hAway : ∀ m, j ≤ m → m < k → (p.run (ts.take m)).sys.os.current ≠ i) :
    (p.run (ts.take k)).exited = none →
      ∃ t', (p.run (ts.take k)).sys.os.threads[i]? = some t' ∧ t'.saved = t.saved ∧ t'.mode32 = t.mode32 := by
  induction k, hjk using Nat.le_induction with
  | base => exact fun _ => ⟨t, hGet, rfl, rfl⟩
  | succ k hjk ih =>
    intro hLive
    have hTurn := List.getElem?_eq_getElem (show k < ts.length by omega)
    rw [p.run_succ hTurn] at hLive ⊢
    have hBefore := exited_of_turn hLive
    obtain ⟨t', hGet', hSaved, hMode⟩ :=
      ih (by omega) (fun m hjm hmk => hAway m hjm (by omega)) hBefore
    obtain ⟨u, hu, huSaved, huMode⟩ :=
      (turn_keeps hLive (run_current hStarts k hBefore)).saved i t' hGet' (hAway k hjk (by omega)).symm
    exact ⟨u, hu, huSaved.trans hSaved, huMode.trans hMode⟩

theorem run_loads (hStarts : p.Starts) {j k : Nat} (hjk : j ≤ k) (hk : k < ts.length)
    (hGet : (p.run (ts.take j)).sys.os.threads[i]? = some t)
    (hAway : ∀ m, j ≤ m → m ≤ k → (p.run (ts.take m)).sys.os.current ≠ i)
    (hLive : (p.run (ts.take (k + 1))).exited = none) (hComes : (p.run (ts.take (k + 1))).sys.os.current = i) :
    (p.run (ts.take (k + 1))).sys.cpu = t.saved ∧ (p.run (ts.take (k + 1))).mode32 = t.mode32 := by
  have hTurn := List.getElem?_eq_getElem hk
  rw [p.run_succ hTurn] at hLive hComes ⊢
  have hBefore := exited_of_turn hLive
  obtain ⟨t', hGet', hSaved, hMode⟩ :=
    run_keeps hStarts hjk hk.le hGet (fun m hjm hmk => hAway m hjm hmk.le) hBefore
  obtain ⟨hCpu, hLoadedMode⟩ :=
    (turn_keeps hLive (run_current hStarts k hBefore)).loads i t' hGet' (hAway k hjk le_rfl).symm hComes
  exact ⟨hCpu.trans hSaved, hLoadedMode.trans hMode⟩

theorem run_resumes (hStarts : p.Starts) (hRun : Stamp.Along Process.turn Orderly p ts) : Resumes p ts where
  comes j k i t hjk hk hGet hAway hLive hCurrent := run_loads hStarts hjk hk hGet hAway hLive hCurrent
  goes := by
    intro j hj hLive hSwitch
    have hTurn := List.getElem?_eq_getElem hj
    rw [p.run_succ hTurn] at hLive hSwitch ⊢
    have hBefore := exited_of_turn hLive
    have hOrdered := run_ordered hStarts hRun j hBefore
    obtain ⟨suspended, ended, s', -, hShifts, hSettled⟩ := turn_shifts hLive hOrdered (hRun.at j _ hTurn)
    have hNow : s'.os.current ≠ (p.run (ts.take j)).top.os.current := by
      rw [← hSettled.threads.current]
      exact hSwitch
    obtain ⟨t', hGet, hMode⟩ := hShifts.departs hNow (List.getElem?_eq_getElem hOrdered.current)
    refine ⟨t', ?_, hMode⟩
    rw [hSettled.threads.threads]
    exact hGet

theorem Settled.placed {p' : Process} (h : Settled p s' p') (hPlaced : Placed s'.os) : Placed p'.sys.os :=
  hPlaced.congr h.threads.threads h.threads.current h.threads.currentTid h.threads.nextTid

theorem turn_placed {t : Turn} (hLive : (p.turn t).exited = none) (hPlaced : Placed p.sys.os)
    (hStrands : ∀ s c, p.calls t = some (s, c) → c.strands s = false) : Placed (p.turn t).sys.os := by
  have hTop : Placed p.top.os := hPlaced.congr rfl rfl rfl le_rfl
  cases hCalls : p.calls t with
  | none =>
    obtain ⟨s', hMoves, -, hSettled⟩ := Process.turn_of_no_call (exited_of_turn hLive) hCalls
    exact hSettled.placed ((hMoves.shifts hTop.length).placed hTop)
  | some sc =>
    obtain ⟨s, c⟩ := sc
    obtain ⟨hFrames, hTurn⟩ := Process.turn_of_call hCalls (hStrands s c hCalls)
    rcases hTurn with hExit | ⟨hMoves, hSettled⟩
    · simp [hLive] at hExit
    · exact hSettled.placed (((hMoves.from_same hFrames.threads).shifts hTop.length).placed hTop)

theorem starts_placed (hStarts : p.Starts) : Placed p.sys.os := by
  obtain ⟨cfg, vallocBase, exitThunk, tlsThunk, entryThunk, wow64Peb32, wow64Threading, hOs⟩ := hStarts.os
  rw [hOs]
  have hMain : ∀ (i : Nat) (t : Thread),
      (WinOs.new cfg vallocBase exitThunk tlsThunk entryThunk wow64Peb32 wow64Threading).threads[i]? = some t →
      i = 0 ∧ t.tid = MAIN_TID := by
    intro i t hGet
    obtain hNone | ⟨hi, ht⟩ := get_append [] hGet
    · cases hNone
    · exact ⟨hi, ht ▸ rfl⟩
  refine ⟨⟨_, rfl, rfl, nofun⟩, ?_, ?_⟩
  · intro i j t u hi hj _
    exact (hMain i t hi).1.trans (hMain j u hj).1.symm
  · intro i t hi
    rw [(hMain i t hi).2]
    exact Nat.lt_succ_self _

def suspendsItself : List Turn :=
  [.syscall (.suspendThread NT_CURRENT_THREAD) (fun _ => true) [] {} false]

theorem orderly_api {call : Api} (hCall : ∀ os, call.suspends os = none) (granted : U64 → Bool) (writes : List Field)
    (after : CpuState) (mode32 : Bool) : Orderly p (.api call granted writes after mode32) := by
  intro s c hCalls
  cases (Process.calls_made hCalls).2 with
  | «syscall» call granted writes after mode32 s₀ s saved hTurn => cases hTurn
  | api call granted writes after mode32 s hTurn =>
  cases hTurn
  refine ⟨?_, rfl⟩
  change call.suspends s.os ≠ _
  rw [hCall]
  exact nofun

def takesTurns : List Turn :=
  [.api (.createThread 0 0x140002000 7 0) (fun _ => true) [] {} false, .api .sleep (fun _ => true) [] {} false,
    .api .sleep (fun _ => true) [] {} false]

end Exemu.Os
