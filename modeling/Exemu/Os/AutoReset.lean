import Exemu.Os.Exclusion

/-! # How many waits an auto-reset event lets through -/
namespace Exemu.Os

namespace Table

variable {tid x : Nat} {c : Call} {tb tb' : Table}

inductive Turned (tid : Nat) (c : Call) (x : Nat) : Option KObject → Option KObject → Prop
  | keeps (o : Option KObject) : Turned tid c x o o
  | gone (o : Option KObject) (hAsked : c.closes = some x) : Turned tid c x o none
  | acquired (o : KObject) : Turned tid c x (some o) (some (o.acquire tid).1)
  | signaled (op : SignalOp) (n : Int) (o : KObject) (hCalled : c.signals = some (op, x, n)) :
      Turned tid c x (some o) (some (WinOs.signaledBy op tid n o).1)
  | adjusted (o o' : KObject) (hHow : Adjusts c x o o') : Turned tid c x (some o) (some o')

theorem Step.turned (h : Step tid c tb tb') (hOld : x < tb.next) :
    x < tb'.next ∧ Turned tid c x (tb.objects x) (tb'.objects x) := by
  -- only a new object comes under another handle
  have hSet : ∀ {y o'}, (y = x → Turned tid c x (tb.objects x) (some o')) →
      x < (tb.set y (some o')).next ∧ Turned tid c x (tb.objects x) ((tb.set y (some o')).objects x) := by
    intro y o' hHere
    refine ⟨hOld, ?_⟩
    by_cases hx : x = y
    · subst hx
      rw [Table.set_self]
      exact hHere rfl
    · rw [Table.set_of_ne _ _ hx]
      exact .keeps _
  have hCreate : ∀ o name, x < (tb.create o name).next ∧
      Turned tid c x (tb.objects x) ((tb.create o name).objects x) := by
    intro o name
    refine ⟨hOld.trans (Nat.lt_add_of_pos_right (by decide)), ?_⟩
    rw [Table.create_of_ne _ _ _ hOld.ne]
    exact .keeps _
  cases h with
  | creates o name => exact hCreate o name
  | acquires y o hGet =>
    refine hSet fun hy => ?_
    subst hy
    rw [hGet]
    exact .acquired o
  | signals op n y o hGet hAsked hCalled =>
    refine hSet fun hy => ?_
    subst hy
    rw [hGet]
    exact .signaled op n o hCalled
  | adjusts y o o' hGet hKind hKind' hHow =>
    refine hSet fun hy => ?_
    subst hy
    rw [hGet]
    exact .adjusted o o' hHow
  | closes y hAsked =>
    refine ⟨hOld, ?_⟩
    by_cases hx : x = y
    · subst hx
      rw [tb.close_self]
      exact .gone _ hAsked
    · rw [tb.close_of_ne hx]
      exact .keeps _
  | copies src o => exact hCreate o none

def AutoReset (tb : Table) (x : Nat) : Prop :=
  x < tb.next ∧ ∀ o, tb.objects x = some o → ∃ signaled, o = .Event false signaled

theorem Turned.event {o' : KObject} {signaled : Bool} (h : Turned tid c x (some (.Event false signaled)) (some o')) :
    ∃ signaled', o' = .Event false signaled' := by
  cases h with
  | keeps => exact ⟨signaled, rfl⟩
  | acquired => cases signaled <;> exact ⟨false, rfl⟩
  | signaled op n _ hCalled => cases op <;> exact ⟨_, rfl⟩
  | adjusted _ _ hHow =>
    cases hHow
    exact ⟨true, rfl⟩

theorem Turned.of_none {o' : Option KObject} (h : Turned tid c x none o') : o' = none := by
  cases h <;> rfl

theorem Step.autoReset (h : Step tid c tb tb') (hEvent : tb.AutoReset x) : tb'.AutoReset x := by
  obtain ⟨hThere, hTurned⟩ := h.turned hEvent.1
  refine ⟨hThere, fun o' hGet' => ?_⟩
  rw [hGet'] at hTurned
  cases hGet : tb.objects x with
  | none =>
    rw [hGet] at hTurned
    cases hTurned.of_none
  | some o =>
    rw [hGet] at hTurned
    obtain ⟨signaled, rfl⟩ := hEvent.2 o hGet
    exact hTurned.event

theorem Turned.there {o : KObject} {o' : Option KObject} (h : Turned tid c x (some o) o') (hCloses : c.closes ≠ some x) :
    o' ≠ none := by
  cases h with
  | gone _ hAsked => exact absurd hAsked hCloses
  | _ => exact Option.some_ne_none _

theorem Steps.there (h : Steps tid c tb tb') (hCloses : c.closes ≠ some x) (hOld : x < tb.next)
    (hThere : tb.objects x ≠ none) : x < tb'.next ∧ tb'.objects x ≠ none := by
  induction h with
  | refl => exact ⟨hOld, hThere⟩
  | tail _ hStep ih =>
    obtain ⟨hStill, hTurned⟩ := hStep.turned ih.1
    obtain ⟨o, hGet⟩ := Option.ne_none_iff_exists'.mp ih.2
    rw [hGet] at hTurned
    exact ⟨hStill, hTurned.there hCloses⟩

theorem Steps.autoReset (h : Steps tid c tb tb') (hEvent : tb.AutoReset x) : tb'.AutoReset x := by
  induction h with
  | refl => exact hEvent
  | tail _ hStep ih => exact hStep.autoReset ih

end Table

def WaitReport.handles : WaitReport → List Nat
  | .all handles | .any handles => handles

namespace Call

/-- `SetEvent` or `PulseEvent` on a handle; the driver of a sound device may also set an event it was given. -/
def grants (c : Call) (x : Nat) : Bool :=
  (c.signals.any fun r => (r.1 == .SetEvent || r.1 == .PulseEvent) && r.2.1 == x) || c.sets == some x

/-- A wait returned because of an object. The server does not say which one: the one that it has taken. -/
def returnsFor (s : Sys) (c : Call) (x : Nat) : Bool :=
  (s.os.kobjects x).isSome &&
    match c.reports s with
    | none => false
    | some (.all handles) => decide (x ∈ handles)
    | some (.any handles) => decide (x ∈ handles) && (c.makes s).os.kobjects x != s.os.kobjects x

def lists : Call → List Nat
  | .api (.waitSingle h _) _ _ => [h]
  | .api (.waitMultiple handles _ _) _ _ => handles
  | .api (.wineUnixCall (.select handles _ _)) _ _ => handles
  | .syscall (.waitForSingleObject h _) _ => [h]
  | .syscall (.waitForMultipleObjects handles _ _) _ => handles
  | _ => []

def pulses : Call → Option Nat
  | .api (.signalSync .PulseEvent h _) _ _ => some h
  | _ => none

end Call

/-! ## One call -/

namespace Table

def spare (tb : Table) (x : Nat) : Nat := if tb.objects x = some (.Event false true) then 1 else 0

variable {tid x : Nat} {c : Call} {tb tb' : Table}

theorem spare_of_event {signaled : Bool} (hGet : tb.objects x = some (.Event false signaled)) :
    tb.spare x = signaled.toNat := by
  cases signaled with
  | true => exact if_pos hGet
  | false => exact if_neg (by rw [hGet]; exact fun hSame => (by cases hSame))

theorem spare_le_one (tb : Table) (x : Nat) : tb.spare x ≤ 1 := by
  unfold spare
  split <;> decide

theorem Turned.unset {o o' : Option KObject} (h : Turned tid c x o o') (hGrants : c.grants x = false)
    (hEvent : ∀ u, o = some u → ∃ signaled, u = .Event false signaled) (hUnset : o ≠ some (.Event false true)) :
    o' ≠ some (.Event false true) := by
  cases h with
  | keeps => exact hUnset
  | gone => exact fun hSet => (by cases hSet)
  | acquired u =>
    obtain ⟨signaled, rfl⟩ := hEvent u rfl
    cases signaled <;> exact fun hSet => (by cases hSet)
  | signaled op n u hCalled =>
    obtain ⟨signaled, rfl⟩ := hEvent u rfl
    cases op with
    | SetEvent => simp [Call.grants, hCalled] at hGrants
    | ResetEvent => exact fun hSet => (by cases hSet)
    | PulseEvent => exact fun hSet => (by cases hSet)
    | ReleaseMutex => exact hUnset
    | ReleaseSemaphore => exact hUnset
  | adjusted u u' hHow =>
    obtain ⟨signaled, rfl⟩ := hEvent u rfl
    cases hHow with
    | event manual signaled hAsked => simp [Call.grants, hAsked] at hGrants

theorem Steps.unset (h : Steps tid c tb tb') (hGrants : c.grants x = false) (hEvent : tb.AutoReset x)
    (hUnset : tb.objects x ≠ some (.Event false true)) : tb'.objects x ≠ some (.Event false true) := by
  induction h with
  | refl => exact hUnset
  | tail hSteps hStep ih =>
    have hThere := Steps.autoReset hSteps hEvent
    exact (hStep.turned hThere.1).2.unset hGrants hThere.2 ih

theorem Steps.spare_le (h : Steps tid c tb tb') (hEvent : tb.AutoReset x) :
    tb'.spare x ≤ (c.grants x).toNat + tb.spare x := by
  cases hGrants : c.grants x with
  | true => exact (tb'.spare_le_one x).trans (Nat.le_add_right 1 _)
  | false =>
    by_cases hSet : tb.objects x = some (.Event false true)
    · have hFull : tb.spare x = 1 := if_pos hSet
      rw [hFull]
      exact (tb'.spare_le_one x).trans (Nat.le_add_left 1 _)
    · have hNone : tb'.spare x = 0 := if_neg (h.unset hGrants hEvent hSet)
      rw [hNone]
      exact Nat.zero_le _

end Table

variable {s : Sys} {c : Call} {x : Nat}

theorem report_lists {r : WaitReport} (hReport : c.reports s = some r) : ∀ h ∈ r.handles, h ∈ c.lists := by
  have hSingle : ∀ {handles : List Nat} {i : Nat}, (handles[i]?.map fun h => WaitReport.all [h]) = some r →
      ∀ h ∈ r.handles, h ∈ handles := by
    intro handles i hSome h hMem
    obtain ⟨y, hy, rfl⟩ := Option.map_eq_some_iff.mp hSome
    obtain rfl := List.mem_singleton.mp hMem
    exact List.mem_of_getElem? hy
  cases c with
  | api call granted after =>
    change call.reports s granted after = some r at hReport
    unfold Api.reports at hReport
    split at hReport
    on_goal 2 => cases hReport
    rename_i value hReturn
    cases call with
    | waitSingle h timeout =>
      obtain ⟨-, hSome⟩ := Option.ite_none_right_eq_some.mp hReport
      obtain rfl := Option.some.inj hSome
      exact fun _ hMem => hMem
    | waitMultiple handles waitAll timeout =>
      cases waitAll with
      | true =>
        obtain ⟨-, hSome⟩ := Option.ite_none_right_eq_some.mp hReport
        obtain rfl := Option.some.inj hSome
        exact fun _ hMem => hMem
      | false => exact hSingle hReport
    | wineUnixCall req =>
      cases req with
      | select handles op timeout =>
        obtain ⟨-, hSome⟩ := Option.ite_none_right_eq_some.mp hReport
        obtain rfl := Option.some.inj hSome
        intro h hMem
        split at hMem <;> exact hMem
      | _ => cases hReport
    | _ => cases hReport
  | «syscall» call granted =>
    change call.reports s granted = some r at hReport
    unfold Syscall.reports at hReport
    split at hReport
    on_goal 2 => cases hReport
    rename_i s' status hAnswer
    split at hReport
    · cases hReport
    · cases call with
      | waitForSingleObject h timeout =>
        obtain ⟨-, hSome⟩ := Option.ite_none_right_eq_some.mp hReport
        obtain rfl := Option.some.inj hSome
        exact fun _ hMem => hMem
      | waitForMultipleObjects handles waitType timeout =>
        dsimp only [Syscall.reportsBy] at hReport
        split at hReport
        · obtain ⟨-, hSome⟩ := Option.ite_none_right_eq_some.mp hReport
          obtain rfl := Option.some.inj hSome
          exact fun _ hMem => hMem
        · obtain ⟨-, hSome⟩ := Option.ite_none_right_eq_some.mp hReport
          exact hSingle hSome
      | _ => cases hReport

theorem waits_only {r : WaitReport} (hReport : c.reports s = some r) : c.closes = none ∧ c.grants x = false := by
  cases c with
  | api call granted after =>
    change call.reports s granted after = some r at hReport
    unfold Api.reports at hReport
    split at hReport
    on_goal 2 => cases hReport
    cases call with
    | waitSingle => exact ⟨rfl, rfl⟩
    | waitMultiple => exact ⟨rfl, rfl⟩
    | wineUnixCall req =>
      cases req with
      | select => exact ⟨rfl, rfl⟩
      | _ => cases hReport
    | _ => cases hReport
  | «syscall» call granted =>
    change call.reports s granted = some r at hReport
    unfold Syscall.reports at hReport
    split at hReport
    on_goal 2 => cases hReport
    split at hReport
    · cases hReport
    · cases call with
      | waitForSingleObject => exact ⟨rfl, rfl⟩
      | waitForMultipleObjects => exact ⟨rfl, rfl⟩
      | _ => cases hReport

theorem acquired_spare {os' : WinOs} (hEvent : s.os.table.AutoReset x)
    (hAcquired : WinOs.Acquired s.os os' s.os.currentTid x) : s.os.table.spare x = 1 ∧ os'.table.spare x = 0 := by
  obtain ⟨o, k, hGet, hSignaled, hAfter⟩ := hAcquired
  obtain ⟨signaled, rfl⟩ := hEvent.2 o hGet
  cases signaled with
  | false => cases hSignaled
  | true =>
    refine ⟨if_pos hGet, if_neg ?_⟩
    have hTaken : ∀ n, (fun o => (KObject.acquire o s.os.currentTid).1)^[n + 1] (.Event false true) =
        .Event false false := by
      intro n
      induction n with
      | zero => rfl
      | succ n ih =>
        rw [Function.iterate_succ_apply', ih]
        rfl
    rw [hTaken] at hAfter
    change os'.kobjects x ≠ _
    rw [hAfter]
    exact fun hSame => (by cases hSame)

theorem returnsFor_spare (hEvent : s.os.table.AutoReset x)
    (hHonest : x ∈ c.lists → s.os.kobjects x ≠ none → c.misreports s = false) (hReturns : c.returnsFor s x = true) :
    s.os.table.spare x = 1 ∧ (c.makes s).os.table.spare x = 0 := by
  unfold Call.returnsFor at hReturns
  rw [Bool.and_eq_true, Option.isSome_iff_ne_none] at hReturns
  obtain ⟨hThere, hReturns⟩ := hReturns
  have hSteps := call_steps s c
  cases hReport : c.reports s with
  | none =>
    rw [hReport] at hReturns
    cases hReturns
  | some r =>
    rw [hReport] at hReturns
    cases r with
    | all handles =>
      have hMem : x ∈ handles := of_decide_eq_true hReturns
      have hTrue := report_holds (hHonest (report_lists hReport x hMem) hThere) hReport
      exact acquired_spare hEvent (hTrue x hMem hThere)
    | any handles =>
      obtain ⟨-, hMoved⟩ := (Bool.and_eq_true _ _).mp hReturns
      obtain ⟨hCloses, hGrants⟩ := waits_only (x := x) hReport
      obtain ⟨o, hGet⟩ := Option.ne_none_iff_exists'.mp hThere
      obtain ⟨signaled, rfl⟩ := hEvent.2 o hGet
      have hStill := (hSteps.there (by rw [hCloses]; exact nofun) hEvent.1 hThere).2
      obtain ⟨o', hGet'⟩ := Option.ne_none_iff_exists'.mp hStill
      obtain ⟨signaled', rfl⟩ := (hSteps.autoReset hEvent).2 o' hGet'
      have hUnset := hSteps.unset hGrants hEvent
      change (c.makes s).os.kobjects x = _ at hGet'
      have hOther : signaled' ≠ signaled := by
        rintro rfl
        simp [hGet, hGet'] at hMoved
      cases signaled with
      | true =>
        cases signaled' with
        | true => exact absurd rfl hOther
        | false =>
          refine ⟨if_pos hGet, if_neg ?_⟩
          change (c.makes s).os.kobjects x ≠ _
          rw [hGet']
          exact fun hSame => (by cases hSame)
      | false =>
        cases signaled' with
        | false => exact absurd rfl hOther
        | true =>
          refine absurd hGet' (hUnset ?_)
          change s.os.kobjects x ≠ _
          rw [hGet]
          exact fun hSame => (by cases hSame)

theorem makes_spare (hEvent : s.os.table.AutoReset x)
    (hHonest : x ∈ c.lists → s.os.kobjects x ≠ none → c.misreports s = false) :
    (c.returnsFor s x).toNat + (c.makes s).os.table.spare x ≤ (c.grants x).toNat + s.os.table.spare x := by
  cases hReturns : c.returnsFor s x with
  | false =>
    rw [Bool.toNat_false, Nat.zero_add]
    exact (call_steps s c).spare_le hEvent
  | true =>
    obtain ⟨hBefore, hAfter⟩ := returnsFor_spare hEvent hHonest hReturns
    rw [hBefore, hAfter]
    exact Nat.le_add_left 1 _

/-! ## Pulses -/

namespace WinOs

def BlockedOn (os : WinOs) (h i : Nat) : Prop :=
  ∃ t w, os.threads[i]? = some t ∧ t.state = .Blocked ∧ t.wait = some w ∧ h ∈ w.handles

theorem waitSatisfiable_mono {os os' : WinOs} {w : WaitDesc} {tid : Nat}
    (hFewer : ∀ h, (os'.kobjects h).all (·.isSignaled tid) = true → (os.kobjects h).all (·.isSignaled tid) = true)
    (h : os'.waitSatisfiable w tid = true) : os.waitSatisfiable w tid = true := by
  unfold waitSatisfiable at h ⊢
  cases hAll : w.all with
  | true =>
    rw [hAll, if_pos rfl, List.all_eq_true] at h
    rw [if_pos rfl, List.all_eq_true]
    exact fun x hMem => hFewer x (h x hMem)
  | false =>
    rw [hAll, if_neg Bool.false_ne_true, List.any_eq_true] at h
    rw [if_neg Bool.false_ne_true, List.any_eq_true]
    obtain ⟨x, hMem, hx⟩ := h
    exact ⟨x, hMem, hFewer x hx⟩

theorem runnable_mono (os os' : WinOs) {i : Nat} (hThreads : os'.threads = os.threads)
    (hFewer : ∀ tid h, (os'.kobjects h).all (·.isSignaled tid) = true → (os.kobjects h).all (·.isSignaled tid) = true)
    (h : os'.runnable i = true) : os.runnable i = true := by
  unfold runnable at h ⊢
  rw [hThreads] at h
  cases hGet : os.threads[i]? with
  | none =>
    rw [hGet] at h
    cases h
  | some t =>
    rw [hGet] at h
    dsimp only at h ⊢
    cases hState : t.state with
    | Blocked =>
      rw [hState] at h
      dsimp only at h ⊢
      cases hWait : t.wait with
      | none => rfl
      | some w =>
        rw [hWait] at h
        exact waitSatisfiable_mono (hFewer t.tid) h
    | Ready => rfl
    | _ =>
      rw [hState] at h
      cases h

theorem pulse_runnable {os : WinOs} {h i : Nat} {n : Int} {signaled : Bool}
    (hGet : os.kobjects h = some (.Event false signaled))
    (hRunnable : (os.signalSync .PulseEvent h n).1.runnable i = true) : os.runnable i = true := by
  have hPulsed : (os.signalSync .PulseEvent h n).1 = os.setObject h (.Event false false) := by
    unfold signalSync
    rw [hGet]
    rfl
  rw [hPulsed] at hRunnable
  refine runnable_mono os (os.setObject h (.Event false false)) rfl (fun tid x hx => ?_) hRunnable
  by_cases hHere : x = h
  · subst hHere
    have hNow : (os.setObject x (.Event false false)).kobjects x = some (.Event false false) := Function.update_self ..
    rw [hNow] at hx
    cases hx
  · have hSame : (os.setObject h (.Event false false)).kobjects x = os.kobjects x := Function.update_of_ne hHere ..
    rwa [hSame] at hx

end WinOs

/-- A pulse of an auto-reset event some thread is blocked on lets exactly one of these threads go. -/
def PulseReleasesOne (s : Sys) (c : Call) : Prop :=
  ∀ h signaled, c.pulses = some h → s.os.kobjects h = some (.Event false signaled) →
    (∃ i, s.os.BlockedOn h i) →
    ∃! i, s.os.BlockedOn h i ∧ s.os.runnable i = false ∧ (c.makes s).os.runnable i = true

def PulsesNobody (s : Sys) (c : Call) : Prop :=
  ∀ h signaled, c.pulses = some h → s.os.kobjects h = some (.Event false signaled) → ∀ i, ¬s.os.BlockedOn h i

theorem pulseReleasesOne_iff : PulseReleasesOne s c ↔ PulsesNobody s c := by
  constructor
  · intro hOne h signaled hPulse hGet i hBlocked
    obtain ⟨j, ⟨-, hWaits, hRuns⟩, -⟩ := hOne h signaled hPulse hGet ⟨i, hBlocked⟩
    cases c with
    | api call granted after =>
      cases call with
      | signalSync op x n =>
        cases op with
        | PulseEvent =>
          obtain rfl : x = h := Option.some.inj hPulse
          cases hWaits.symm.trans (WinOs.pulse_runnable (n := n) hGet hRuns)
        | _ => cases hPulse
      | _ => cases hPulse
    | «syscall» call granted => cases hPulse
  · exact fun hNobody h signaled hPulse hGet hSome => absurd hSome.choose_spec (hNobody h signaled hPulse hGet _)

/-! ## Over a run -/

/-- A wait that lists an auto-reset event does not claim success for want of another thread, and a pulse of
one finds nobody blocked on it. -/
def Unpulsed (p : Process) (t : Turn) : Prop :=
  ∀ s c, p.calls t = some (s, c) →
    (∀ h signaled, h ∈ c.lists → s.os.kobjects h = some (.Event false signaled) → c.misreports s = false) ∧
      PulsesNobody s c

def Process.counts (kind : Sys → Call → Bool) : Process → List Turn → Nat :=
  Stamp.tally turn fun p t => ((p.calls t).any fun r => kind r.1 r.2).toNat

variable {p : Process}

theorem turn_autoReset {t : Turn} (hEvent : p.sys.os.table.AutoReset x) : (p.turn t).sys.os.table.AutoReset x :=
  Process.turn_table_keeps (J := fun tb => tb.AutoReset x) (fun s c _ _ hBefore => (call_steps s c).autoReset hBefore) hEvent

theorem turn_spare {t : Turn} (hEvent : p.sys.os.table.AutoReset x) (hTurn : Unpulsed p t) :
    ((p.calls t).any fun r => r.2.returnsFor r.1 x).toNat + (p.turn t).sys.os.table.spare x ≤
      ((p.calls t).any fun r => r.2.grants x).toNat + p.sys.os.table.spare x := by
  cases hCalls : p.calls t with
  | none =>
    rw [Process.turn_table_of_no_call hCalls]
    exact le_rfl
  | some sc =>
    obtain ⟨s, c⟩ := sc
    obtain ⟨hBefore, hAfter⟩ := Process.turn_table hCalls
    rw [← hBefore] at hEvent ⊢
    rw [hAfter]
    refine makes_spare hEvent fun hMem hThere => ?_
    obtain ⟨o, hGet⟩ := Option.ne_none_iff_exists'.mp hThere
    obtain ⟨signaled, rfl⟩ := hEvent.2 o hGet
    exact (hTurn s c hCalls).1 x signaled hMem hGet

/-- From any state that can be reached, an auto-reset event lets at most as many waits through as it is set
or pulsed, and one more if it is set; and a pulse lets one blocked thread go. -/
theorem unpulsed_run_counts {p₀ : Process} {before ts : List Turn} (hStarts : p₀.Starts)
    (hRun : Stamp.Along Process.turn Unpulsed (p₀.run before) ts) :
    (∀ n h signaled, (p₀.run before).sys.os.kobjects h = some (.Event false signaled) →
      Process.counts (fun s c => c.returnsFor s h) (p₀.run before) (ts.take n) ≤
        Process.counts (fun _ c => c.grants h) (p₀.run before) (ts.take n) + signaled.toNat) ∧
    ∀ n t s c, ts[n]? = some t → ((p₀.run before).run (ts.take n)).calls t = some (s, c) → PulseReleasesOne s c := by
  constructor
  · intro n h signaled hGet
    have hFresh : (p₀.run (before.take before.length)).sys.os.table.Fresh := run_fresh hStarts _
    rw [List.take_length] at hFresh
    have hEvent : (p₀.run before).sys.os.table.AutoReset h := by
      refine ⟨hFresh h (by change (p₀.run before).sys.os.kobjects h ≠ none; rw [hGet]; exact Option.some_ne_none _), ?_⟩
      intro o ho
      exact ⟨signaled, Option.some.inj (ho.symm.trans hGet)⟩
    have hBalance : Process.counts (fun s c => c.returnsFor s h) (p₀.run before) (ts.take n) +
        ((p₀.run before).run (ts.take n)).sys.os.table.spare h ≤
          Process.counts (fun _ c => c.grants h) (p₀.run before) (ts.take n) +
            (p₀.run before).sys.os.table.spare h :=
      (hRun.take n).tally_le (fun p => p.sys.os.table.AutoReset h) (fun p => p.sys.os.table.spare h)
        (fun _ _ => turn_autoReset) (fun _ _ => turn_spare) hEvent
    have hSpare : (p₀.run before).sys.os.table.spare h = signaled.toNat := Table.spare_of_event hGet
    rw [hSpare] at hBalance
    exact (Nat.le_add_right _ _).trans hBalance
  · intro n t s c hGet hCalls
    exact pulseReleasesOne_iff.mpr (hRun.at n t hGet s c hCalls).2

theorem unpulsed_of_check {t : Turn} (h : (p.calls t).all (fun r => !r.2.misreports r.1 && r.2.pulses.isNone) = true) :
    Unpulsed p t := by
  intro s c hCalls
  rw [hCalls, Option.all_some, Bool.and_eq_true, Bool.not_eq_true', Option.isNone_iff_eq_none] at h
  refine ⟨fun _ _ _ _ => h.1, fun x _ hPulse => ?_⟩
  rw [h.2] at hPulse
  cases hPulse

def createsEvent : List Turn := [.api (.createSync ⟨.Event, none, false, false, 0, 0⟩) (fun _ => true) [] {} false]

def blocksOnEvent : List Turn :=
  [.api (.createThread 0 0x140002000 7 0) (fun _ => true) [] {} false,
    .api .sleep (fun _ => true) [] {} false,
    .api (.waitSingle 0x1000 INFINITE) (fun _ => true) [] {} false]

theorem event_lets_one_through :
    (∀ n h signaled, (Process.boot.run createsEvent).sys.os.kobjects h = some (.Event false signaled) →
      Process.counts (fun s c => c.returnsFor s h) (Process.boot.run createsEvent) (blocksOnEvent.take n) ≤
        Process.counts (fun _ c => c.grants h) (Process.boot.run createsEvent) (blocksOnEvent.take n) +
          signaled.toNat) ∧
    ∀ n t s c, blocksOnEvent[n]? = some t →
      ((Process.boot.run createsEvent).run (blocksOnEvent.take n)).calls t = some (s, c) → PulseReleasesOne s c :=
  unpulsed_run_counts Process.boot_starts
    (.cons (unpulsed_of_check (by decide)) (.cons (unpulsed_of_check (by decide))
      (.cons (unpulsed_of_check (by decide)) (.nil _))))

theorem pulse_releases_nobody : Process.boot.Starts ∧
    ¬∀ t s c, ((Process.boot.run createsEvent).run blocksOnEvent).calls t = some (s, c) → PulseReleasesOne s c := by
  refine ⟨Process.boot_starts, fun hAll => ?_⟩
  have hRun : (((Process.boot.run createsEvent).run blocksOnEvent).calls
      (.api (.signalSync .PulseEvent 0x1000 0) (fun _ => true) [] {} false)).any (fun r =>
        r.1.os.kobjects 0x1000 == some (.Event false false) &&
          r.1.os.threads[1]?.any fun t => t.state == .Blocked && t.wait == some ⟨[0x1000], true⟩) = true := by
    decide
  obtain ⟨⟨s, c⟩, hCalls, hSaid⟩ := Option.any_eq_true .. |>.mp hRun
  rw [Bool.and_eq_true, beq_iff_eq, Option.any_eq_true] at hSaid
  obtain ⟨hGet, t, hThread, hWaits⟩ := hSaid
  rw [Bool.and_eq_true, beq_iff_eq, beq_iff_eq] at hWaits
  have hOne := hAll _ s c hCalls
  obtain rfl := Process.calls_api hCalls
  exact pulseReleasesOne_iff.mp hOne 0x1000 false rfl hGet 1 ⟨t, _, hThread, hWaits.1, hWaits.2, List.mem_cons_self⟩

end Exemu.Os
