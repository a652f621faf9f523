import Exemu.Os.Holdings
import Exemu.Os.Retry

/-! # The ranges of the threads over a run -/
namespace Exemu.Os

open VirtualMemory

/-- Who has not ended has his ranges mapped, and they are apart from everybody else's. -/
structure RangesKept (p : Process) : Prop where
  mapped : ∀ (i : Nat) (t : Thread), p.sys.os.threads[i]? = some t → t.state ≠ .Terminated →
    ∀ r ∈ Sys.ownedRanges t, r ∈ p.sys.mem.layout
  apart : ∀ (i j : Nat) (t u : Thread), i ≠ j → p.sys.os.threads[i]? = some t → p.sys.os.threads[j]? = some u →
    t.state ≠ .Terminated → u.state ≠ .Terminated → ∀ r ∈ Sys.ownedRanges t, ∀ r' ∈ Sys.ownedRanges u,
      Range.Apart r r'

/-- A call that ends a thread leaves the others their ranges, and every allocation its own. -/
structure SparesOthers (p : Process) (t : Turn) : Prop where
  threads : ∀ s c i, p.calls t = some (s, c) → c.ends s.os = some i →
    ∀ (j : Nat) (u : Thread), j ≠ i → s.os.threads[j]? = some u → u.state ≠ .Terminated →
      ∀ r ∈ Sys.ownedRanges u, r ∈ (c.makes s).mem.layout
  allocs : ∀ s c i, p.calls t = some (s, c) → c.ends s.os = some i →
    ∀ a ∈ s.os.vmAllocs, (a.base, a.size) ∈ (c.makes s).mem.layout

theorem mem_holdings {os : WinOs} {i : Nat} {t : Thread} (hGet : os.threads[i]? = some t)
    (hLive : t.state ≠ .Terminated) {r : Range} (hr : r ∈ Sys.ownedRanges t) : r ∈ os.holdings := by
  refine List.mem_append_left _ (List.mem_flatMap.mpr ⟨t, List.mem_of_getElem? hGet, ?_⟩)
  rwa [held, if_neg hLive]

variable {p : Process}

theorem Holding.rangesKept (h : Holding p.sys) : RangesKept p where
  mapped i t hGet hLive r hr := h.mapped r (mem_holdings hGet hLive hr)
  apart := by
    have hPairs := (List.pairwise_flatMap.mp (h.apart.sublist (List.sublist_append_left _ _))).2
    have hLess : ∀ (i j : Nat) (t u : Thread), i < j → p.sys.os.threads[i]? = some t →
        p.sys.os.threads[j]? = some u → t.state ≠ .Terminated → u.state ≠ .Terminated →
        ∀ r ∈ Sys.ownedRanges t, ∀ r' ∈ Sys.ownedRanges u, Range.Apart r r' := by
      intro i j t u hij hi hj ht hu r hr r' hr'
      obtain ⟨hiLength, rfl⟩ := List.getElem?_eq_some_iff.mp hi
      obtain ⟨hjLength, rfl⟩ := List.getElem?_eq_some_iff.mp hj
      refine List.pairwise_iff_getElem.mp hPairs i j hiLength hjLength hij r ?_ r' ?_
      · rwa [held, if_neg ht]
      · rwa [held, if_neg hu]
    intro i j t u hNe hi hj ht hu r hr r' hr'
    rcases Nat.lt_or_gt_of_ne hNe with hij | hij
    · exact hLess i j t u hij hi hj ht hu r hr r' hr'
    · exact (hLess j i u t hij hj hi hu ht r' hr' r hr).symm

theorem activate_mem (s : Sys) (next : Nat) : (s.activate next).mem = s.mem := by
  unfold Sys.activate
  dsimp only
  split <;> rfl

theorem leaveTo_mem (s : Sys) (code : U32) : (s.leaveTo code).1.mem = s.mem := by
  unfold Sys.leaveTo
  split
  · exact activate_mem s _
  · rfl

theorem ends_mem {s : Sys} {c : Call} {i : Nat} (hEnds : c.ends s.os = some i) :
    ∃ code, (c.makes s).mem = (s.endThread i code).mem := by
  cases c with
  | api call granted after =>
    cases call with
    | exitThread code =>
      cases hEnds
      exact ⟨code, leaveTo_mem _ _⟩
    | threadExit =>
      cases hEnds
      exact ⟨_, leaveTo_mem _ _⟩
    | terminateThread h code =>
      have hIndex : s.os.threadByHandle h = some i := hEnds
      refine ⟨code, ?_⟩
      change (s.terminateThread h code).1.mem = _
      unfold Sys.terminateThread
      rw [hIndex]
      dsimp only
      split
      · exact leaveTo_mem _ _
      · rfl
    | _ => cases hEnds
  | «syscall» call granted =>
    cases call with
    | terminateThread h code =>
      have hIndex : s.os.ntThreadIndex h = some i := hEnds
      refine ⟨code, ?_⟩
      change (s.ntTerminateThread h code).1.mem = _
      unfold Sys.ntTerminateThread
      rw [hIndex]
      dsimp only
      split
      · split
        · exact activate_mem _ _
        · rfl
      · rfl
    | _ => cases hEnds

theorem endThread_allocs (s : Sys) (i : Nat) (code : U32) : (s.endThread i code).os.vmAllocs = s.os.vmAllocs := by
  obtain ⟨k, hOs⟩ := s.endThread_os i code
  rw [hOs]
  rfl

theorem tidy_spares {t : Turn} (hAlive : Alive p.sys.os) (h : Holding p.sys) (hTidy : Process.Tidy p t) :
    SparesOthers p t := by
  have hEnded : ∀ s c i code, p.calls t = some (s, c) → c.ends s.os = some i → Holding (s.endThread i code) := by
    intro s c i code hCalls hEnds
    refine endThread_holding code (Process.calls_holding hAlive h hCalls) fun u hu => ?_
    exact (hTidy s c hCalls).2.2 i u hEnds hu
  constructor
  · intro s c i hCalls hEnds j u hOther hu hLive r hr
    obtain ⟨code, hMem⟩ := ends_mem hEnds
    rw [hMem]
    refine (hEnded s c i code hCalls hEnds).mapped r (mem_holdings (i := j) ?_ hLive hr)
    rw [(s.endThread_same i code).threads, WinOs.modThread_get, hu]
    simp [hOther.symm]
  · intro s c i hCalls hEnds a ha
    obtain ⟨code, hMem⟩ := ends_mem hEnds
    rw [hMem]
    refine (hEnded s c i code hCalls hEnds).mapped _ (List.mem_append_right _ (List.mem_map.mpr ⟨a, ?_, rfl⟩))
    rw [endThread_allocs]
    exact ha

structure KeepsRanges (p : Process) (ts : List Turn) : Prop where
  kept : ∀ n, RangesKept (p.run (ts.take n))
  spares : ∀ n t, ts[n]? = some t → SparesOthers (p.run (ts.take n)) t

theorem run_holding {ts : List Turn} (hStarts : p.Starts) (hWf : WellFormed p.sys.mem)
    (hRun : Stamp.Along Process.turn Process.Tidy p ts) (n : Nat) :
    Holding (p.run (ts.take n)).sys ∧ ((p.run (ts.take n)).exited = none → Placed (p.run (ts.take n)).sys.os) := by
  refine (hRun.take n).keeps (J := fun p => Holding p.sys ∧ (p.exited = none → Placed p.sys.os)) ?_ ?_
  · rintro p t - ⟨hHolding, hPlaced⟩ hTidy
    by_cases hLive : p.exited = none
    · refine ⟨Process.turn_holding (hPlaced hLive).alive hHolding hTidy, fun hAfter => ?_⟩
      exact turn_placed hAfter (hPlaced hLive) fun s c hCalls => (hTidy s c hCalls).1
    · rw [turn_of_exited (Option.isSome_iff_ne_none.mpr hLive)]
      exact ⟨hHolding, hPlaced⟩
  · refine ⟨?_, fun _ => starts_placed hStarts⟩
    obtain ⟨cfg, vallocBase, exitThunk, tlsThunk, entryThunk, wow64Peb32, wow64Threading, hOs⟩ := hStarts.os
    have hNone : p.sys.os.holdings = [] := by
      rw [hOs]
      rfl
    unfold Holding
    rw [hNone]
    exact Holds.nil hWf

/-- In a run in which nobody is ended twice, every thread keeps its ranges until it ends. -/
theorem tidy_run_keeps_ranges {p : Process} {ts : List Turn} (hStarts : p.Starts) (hWf : WellFormed p.sys.mem)
    (hRun : Stamp.Along Process.turn Process.Tidy p ts) : KeepsRanges p ts where
  kept n := (run_holding hStarts hWf hRun n).1.rangesKept
  spares := by
    intro n t hTurn
    obtain ⟨hHolding, hPlaced⟩ := run_holding hStarts hWf hRun n
    have hTidy : Process.Tidy (p.run (ts.take n)) t := hRun.at n t hTurn
    by_cases hLive : (p.run (ts.take n)).exited = none
    · exact tidy_spares (hPlaced hLive).alive hHolding hTidy
    · have hNoCall : (p.run (ts.take n)).calls t = none := by
        unfold Process.calls
        rw [if_pos (Option.isSome_iff_ne_none.mpr hLive)]
      constructor <;> (intro s c i hCalls; rw [hNoCall] at hCalls; cases hCalls)

def Process.isTidy (p : Process) (t : Turn) : Bool :=
  (p.calls t).all fun r => !r.2.strands r.1 && !r.2.empty &&
    (r.2.ends r.1.os).all fun i => r.1.os.threads[i]?.all fun u => decide (u.state ≠ .Terminated)

theorem Process.tidy_of_isTidy {t : Turn} (h : p.isTidy t = true) : p.Tidy t := by
  intro s c hCalls
  unfold isTidy at h
  rw [hCalls, Option.all_some] at h
  simp only [Bool.and_eq_true, Bool.not_eq_true'] at h
  obtain ⟨⟨hStrands, hEmpty⟩, hEnds⟩ := h
  refine ⟨hStrands, hEmpty, fun i u hAsked hu => ?_⟩
  rw [hAsked, Option.all_some, hu, Option.all_some] at hEnds
  exact of_decide_eq_true hEnds

/-- A thread is ended, its stack is allocated anew, and the thread is ended once more. -/
def endsTwice : List Turn :=
  [.api (.createThread 0 0x140002000 7 0) (fun _ => true) [] {} false,
    .api (.terminateThread 0x1000 0) (fun _ => true) [] {} false,
    .api (.virtualAlloc 0x4000000000 0x100000 true) (fun _ => true) [] {} false,
    .api (.terminateThread 0x1000 0) (fun _ => true) [] {} false]

theorem tidy_run_keeps_ranges_once : KeepsRanges Process.boot (endsTwice.take 3) :=
  tidy_run_keeps_ranges Process.boot_starts Process.boot_wellFormed
    (.cons (Process.tidy_of_isTidy (by decide)) (.cons (Process.tidy_of_isTidy (by decide))
      (.cons (Process.tidy_of_isTidy (by decide)) (.nil _))))

theorem second_end_unmaps_allocation :
    Process.boot.Starts ∧ WellFormed Process.boot.sys.mem ∧ ¬KeepsRanges Process.boot endsTwice := by
  refine ⟨Process.boot_starts, Process.boot_wellFormed, fun h => ?_⟩
  have hRun : (match (Process.boot.run (endsTwice.take 3)).calls endsTwice[3] with
      | some (s, c) => (c.ends s.os).isSome && s.os.vmAllocs.any fun a => !(c.makes s).mem.layout.contains (a.base, a.size)
      | none => false) = true := by decide
  split at hRun
  · rename_i s c hCalls
    obtain ⟨hEnds, hGone⟩ := (Bool.and_eq_true _ _).mp hRun
    obtain ⟨i, hEnds⟩ := Option.isSome_iff_exists.mp hEnds
    obtain ⟨a, ha, hMissing⟩ := List.any_eq_true.mp hGone
    have hKept := (h.spares 3 _ rfl).allocs s c i hCalls hEnds a ha
    exact absurd hKept (by simpa using hMissing)
  · cases hRun

end Exemu.Os
