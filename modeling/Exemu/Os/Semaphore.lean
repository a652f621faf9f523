import Exemu.Library.Stamp
import Exemu.Os.Table

/-! # The counts of semaphores -/
namespace Exemu.Os

namespace KObject

def Within : KObject → Prop
  | Semaphore count max => 0 ≤ count ∧ count ≤ max
  | _ => True

theorem Within.acquire {o : KObject} (h : o.Within) (tid : Nat) : (o.acquire tid).1.Within := by
  cases o with
  | Semaphore count max =>
    obtain ⟨hLow, hHigh⟩ := h
    by_cases hCount : 0 < count
    · simp only [KObject.acquire, hCount, if_true, Within]
      omega
    · simp [KObject.acquire, hCount, Within, hLow, hHigh]
  | Mutex owner recursion =>
    cases owner with
    | none => trivial
    | some owner => by_cases hOwner : owner = tid <;> simp [KObject.acquire, hOwner, Within]
  | Event manual signaled => cases signaled <;> trivial
  | Timer manual signaled => cases signaled <;> trivial
  | Thread exited => trivial
  | Process exited => trivial

theorem Within.signaledBy {op : SignalOp} {o : KObject} (h : o.Within) (tid : Nat) (n : Int)
    (hOp : op ≠ .ReleaseSemaphore) : (WinOs.signaledBy op tid n o).1.Within := by
  cases o with
  | Semaphore count max => cases op <;> first | exact h | exact absurd rfl hOp
  | Mutex owner recursion =>
    cases op <;> first | trivial | skip
    by_cases hOwner : owner = some tid <;> simp [WinOs.signaledBy, hOwner, Within]
  | _ => cases op <;> trivial

end KObject

def Table.Bounded (tb : Table) : Prop := ∀ h o, tb.objects h = some o → o.Within

namespace Table

variable {tid : Nat} {c : Call} {tb tb' : Table}

theorem Bounded.set {h : Nat} {o : KObject} (hBounded : tb.Bounded) (ho : o.Within) : (tb.set h (some o)).Bounded := by
  intro x u hu
  by_cases hx : x = h
  · subst hx
    obtain rfl := Option.some.inj ((tb.set_self _).symm.trans hu)
    exact ho
  · exact hBounded x u (by rwa [Table.set_of_ne _ _ hx] at hu)

theorem Bounded.create {o : KObject} {name : Option Name} (hBounded : tb.Bounded) (ho : o.Within) :
    (tb.create o name).Bounded := by
  intro x u hu
  by_cases hx : x = tb.next
  · subst hx
    obtain rfl := Option.some.inj ((tb.create_self _ _).symm.trans hu)
    exact ho
  · exact hBounded x u (by rwa [Table.create_of_ne _ _ _ hx] at hu)

theorem Step.bounded (h : Step tid c tb tb') (hBounded : tb.Bounded)
    (hMade : ∀ count max, c.semaphore = some (count, max) → 0 ≤ count ∧ count ≤ max)
    (hSignals : ∀ x n, c.signals ≠ some (.ReleaseSemaphore, x, n)) (hAdds : c.adds = none) : tb'.Bounded := by
  cases h with
  | creates o name hOwner hAsked hNew hSemaphore =>
    refine hBounded.create ?_
    cases o with
    | Semaphore count max => exact hMade count max (hSemaphore count max rfl)
    | _ => trivial
  | acquires x o hGet => exact hBounded.set ((hBounded x o hGet).acquire tid)
  | signals op n x o hGet hAsked hCalled =>
    refine hBounded.set ((hBounded x o hGet).signaledBy tid n ?_)
    rintro rfl
    exact hSignals x n hCalled
  | adjusts x o o' hGet hKind hKind' hHow =>
    refine hBounded.set ?_
    cases hHow with
    | semaphore count max n hAsked => cases hAdds.symm.trans hAsked
    | _ => trivial
  | closes x hAsked =>
    intro y u hu
    by_cases hy : y = x
    · subst hy
      cases (tb.close_self).symm.trans hu
    · exact hBounded y u (by rwa [Table.close_of_ne _ hy] at hu)
  | copies src o hGet hAsked => exact hBounded.create (hBounded src o hGet)

theorem Steps.bounded (h : Steps tid c tb tb') (hBounded : tb.Bounded)
    (hMade : ∀ count max, c.semaphore = some (count, max) → 0 ≤ count ∧ count ≤ max)
    (hSignals : ∀ x n, c.signals ≠ some (.ReleaseSemaphore, x, n)) (hAdds : c.adds = none) : tb'.Bounded := by
  induction h with
  | refl => exact hBounded
  | tail _ hStep ih => exact hStep.bounded ih hMade hSignals hAdds

end Table

/-! ## What a release does -/

namespace Call

def release : Call → Option (Nat × Int)
  | .api (.signalSync .ReleaseSemaphore h n) _ _ => some (h, n)
  | .syscall (.releaseSemaphore h n) _ => some (h, n)
  | _ => none

def refused (s : Sys) : Call → Bool
  | .api call granted after => (s.callApi granted after call).2 == .Return 0
  | .syscall call granted =>
    match (Sys.ntHandler granted call s).2 with
    | .ok status => status != STATUS_SUCCESS
    | .error _ => true

def fits (s : Sys) : Call → Prop
  | .api (.signalSync .ReleaseSemaphore h n) _ _ =>
    ∀ count max, s.os.kobjects h = some (.Semaphore count max) → -2 ^ 31 ≤ count + n ∧ count + n < 2 ^ 31
  | _ => True

/-- What the front ends do not check: the arguments of `CreateSemaphore`, the sign of the count
`ReleaseSemaphore` is given and the sum, and a limit that is not positive. -/
def measured (s : Sys) : Call → Prop
  | .api (.createSync spec) _ _ =>
    spec.kind = .Semaphore → spec.name.bind s.os.namedKobjects = none → 0 ≤ spec.count ∧ spec.count ≤ spec.max
  | .api (.signalSync .ReleaseSemaphore h n) _ _ =>
    ∀ count max, s.os.kobjects h = some (.Semaphore count max) →
      0 ≤ count + n ∧ count + n < 2 ^ 31 ∧ (0 < max ∨ count + n ≤ max)
  | .syscall (.releaseSemaphore h n) _ =>
    ∀ count max, s.os.kobjects h = some (.Semaphore count max) → n < 1 ∨ 2 ^ 31 ≤ count + n ∨ 0 < max
  | _ => True

end Call

namespace WinOs

variable {os : WinOs}

theorem bounded_setObject {h : Nat} {o : KObject} (hBounded : os.table.Bounded) :
    (os.setObject h o).table.Bounded ↔ o.Within := by
  constructor
  · intro hAfter
    exact hAfter h o (Function.update_self ..)
  · exact fun ho => hBounded.set ho

theorem signalSync_release (hBounded : os.table.Bounded) {h : Nat} {n : Int}
    (hFits : ∀ count max, os.kobjects h = some (.Semaphore count max) → -2 ^ 31 ≤ count + n ∧ count + n < 2 ^ 31) :
    (os.signalSync .ReleaseSemaphore h n).1.table.Bounded ↔
      ∀ count max, os.kobjects h = some (.Semaphore count max) →
        0 ≤ count + n ∧ count + n < 2 ^ 31 ∧ (0 < max ∨ count + n ≤ max) := by
  unfold signalSync
  cases hGet : os.kobjects h with
  | none =>
    dsimp only
    exact ⟨fun _ _ _ hSome => (by cases hSome), fun _ => hBounded⟩
  | some o =>
    dsimp only
    rw [bounded_setObject hBounded]
    cases o with
    | Semaphore count max =>
      obtain ⟨hLow, hHigh⟩ := hFits count max hGet
      obtain ⟨hZero, hMax⟩ : 0 ≤ count ∧ count ≤ max := hBounded h _ hGet
      have hBump : Int.bmod (count + n) (2 ^ 32) = count + n := by
        apply Int.bmod_eq_of_le <;> omega
      simp only [signaledBy, hBump, Option.some.injEq, KObject.Semaphore.injEq]
      split
      · rename_i hRefused
        exact ⟨fun _ c m hSame => by omega, fun _ => ⟨hZero, hMax⟩⟩
      · rename_i hTaken
        simp only [KObject.Within]
        exact ⟨fun hIn c m hSame => by omega, fun hAll => by have := hAll count max ⟨rfl, rfl⟩; omega⟩
    | _ =>
      exact ⟨fun _ _ _ hSome => (by cases hSome), fun _ => trivial⟩

theorem ntReleaseSemaphore_release (hBounded : os.table.Bounded) {h : Nat} {n : Int} :
    (os.ntReleaseSemaphore h n).1.table.Bounded ↔
      ∀ count max, os.kobjects h = some (.Semaphore count max) → n < 1 ∨ 2 ^ 31 ≤ count + n ∨ 0 < max := by
  unfold ntReleaseSemaphore
  cases hGet : os.kobjects h with
  | none => exact ⟨fun _ _ _ hSome => (by cases hSome), fun _ => hBounded⟩
  | some o =>
    cases o with
    | Semaphore count max =>
      obtain ⟨hZero, hMax⟩ : 0 ≤ count ∧ count ≤ max := hBounded h _ hGet
      simp only [Option.some.injEq, KObject.Semaphore.injEq]
      split
      · rename_i hLow
        exact ⟨fun _ c m hSame => .inl hLow, fun _ => hBounded⟩
      · rename_i hLow
        split
        · rename_i hFits
          rw [bounded_setObject hBounded]
          simp only [KObject.Within]
          exact ⟨fun hIn c m hSame => by omega, fun hAll => by have := hAll count max ⟨rfl, rfl⟩; omega⟩
        · rename_i hFull
          refine ⟨fun _ c m hSame => ?_, fun _ => hBounded⟩
          obtain ⟨rfl, rfl⟩ := hSame
          by_cases hBig : 2 ^ 31 ≤ count + n
          · exact .inr (.inl hBig)
          · exact .inr (.inr (by omega))
    | _ => exact ⟨fun _ _ _ hSome => (by cases hSome), fun _ => hBounded⟩

theorem makeObject_bounded (hBounded : os.table.Bounded) {spec : ObjectSpec} :
    (os.makeObject spec).1.table.Bounded ↔
      (spec.kind = .Semaphore → spec.name.bind os.namedKobjects = none → 0 ≤ spec.count ∧ spec.count ≤ spec.max) := by
  have hNew : (os.newObject spec).Within ↔ (spec.kind = .Semaphore → 0 ≤ spec.count ∧ spec.count ≤ spec.max) := by
    unfold newObject
    cases spec.kind <;> simp [KObject.Within]
  unfold makeObject
  cases hFound : spec.name.bind os.namedKobjects with
  | some h => exact ⟨fun _ _ hNone => (by cases hNone), fun _ => hBounded⟩
  | none =>
    have hCreated : (os.table.create (os.newObject spec) spec.name).Bounded ↔
        (spec.kind = .Semaphore → 0 ≤ spec.count ∧ spec.count ≤ spec.max) := by
      rw [← hNew]
      exact ⟨fun hAfter => hAfter os.nextHandle _ (os.table.create_self _ _), hBounded.create⟩
    simp only [forall_const]
    rw [← hCreated]
    cases spec.name <;> exact Iff.rfl

end WinOs

variable {s : Sys} {c : Call}

theorem makes_bounded (hBounded : s.os.table.Bounded)
    (hMade : ∀ count max, c.semaphore = some (count, max) → 0 ≤ count ∧ count ≤ max)
    (hSignals : ∀ x n, c.signals ≠ some (.ReleaseSemaphore, x, n)) (hAdds : c.adds = none) :
    (c.makes s).os.table.Bounded :=
  (call_steps s c).bounded hBounded hMade hSignals hAdds

theorem makes_bounded_iff (hBounded : s.os.table.Bounded) :
    (c.makes s).os.table.Bounded ∧ c.fits s ↔ c.measured s := by
  -- any other call has nothing to measure
  have hOther : c.measured s = True → c.fits s = True →
      (∀ count max, c.semaphore = some (count, max) → 0 ≤ count ∧ count ≤ max) →
      (∀ x n, c.signals ≠ some (.ReleaseSemaphore, x, n)) → c.adds = none →
      ((c.makes s).os.table.Bounded ∧ c.fits s ↔ c.measured s) := by
    intro hMeasured hFits hMade hSignals hAdds
    rw [hMeasured, hFits]
    exact ⟨fun _ => trivial, fun _ => ⟨makes_bounded hBounded hMade hSignals hAdds, trivial⟩⟩
  cases c with
  | api call granted after =>
    cases call with
    | createSync spec =>
      have hBefore : ({ s.os with lastError := 0 } : WinOs).table.Bounded := hBounded
      exact (and_iff_left trivial).trans (WinOs.makeObject_bounded hBefore)
    | signalSync op h n =>
      cases op with
      | ReleaseSemaphore =>
        constructor
        · rintro ⟨hAfter, hFits⟩
          exact (WinOs.signalSync_release hBounded hFits).mp hAfter
        · intro hMeasured
          have hFits : Call.fits s (.api (.signalSync .ReleaseSemaphore h n) granted after) := by
            intro count max hGet
            have := hMeasured count max hGet
            omega
          exact ⟨(WinOs.signalSync_release hBounded hFits).mpr hMeasured, hFits⟩
      | _ => exact hOther rfl rfl nofun nofun rfl
    | _ => exact hOther rfl rfl nofun nofun rfl
  | «syscall» call granted =>
    cases call with
    | releaseSemaphore h n => exact (and_iff_left trivial).trans (WinOs.ntReleaseSemaphore_release hBounded)
    | createSemaphore name initial max =>
      refine hOther rfl rfl (fun count limit hMade => ?_) nofun rfl
      unfold Call.semaphore at hMade
      dsimp only at hMade
      split at hMade
      · cases hMade
      · cases hMade
        omega
    | _ => exact hOther rfl rfl nofun nofun rfl

theorem refused_unchanged {h : Nat} {n : Int} (hRelease : c.release = some (h, n)) (hRefused : c.refused s = true) :
    (c.makes s).os.kobjects h = s.os.kobjects h := by
  cases c with
  | api call granted after =>
    cases call with
    | signalSync op h' n' =>
      cases op with
      | ReleaseSemaphore =>
        obtain ⟨rfl, rfl⟩ := Prod.mk.inj (Option.some.inj hRelease)
        have hZero : (s.os.signalSync .ReleaseSemaphore h' n').2 = 0 := by
          simpa [Call.refused, Sys.callApi, Sys.withOs] using hRefused
        change (s.os.signalSync .ReleaseSemaphore h' n').1.kobjects h' = s.os.kobjects h'
        unfold WinOs.signalSync at hZero ⊢
        cases hGet : s.os.kobjects h' with
        | none =>
          rw [hGet] at hZero
          cases hZero
        | some o =>
          rw [hGet] at hZero
          dsimp only at hZero ⊢
          have hSame : (WinOs.signaledBy .ReleaseSemaphore s.os.currentTid n' o).1 = o := by
            cases o with
            | Semaphore count max =>
              simp only [WinOs.signaledBy] at hZero ⊢
              split at hZero
              · rename_i hFull
                rw [if_pos hFull]
              · cases hZero
            | _ => rfl
          rw [hSame]
          exact Function.update_self ..
      | _ => cases hRelease
    | _ => cases hRelease
  | «syscall» call granted =>
    cases call with
    | releaseSemaphore h' n' =>
      obtain ⟨rfl, rfl⟩ := Prod.mk.inj (Option.some.inj hRelease)
      have hStatus : (s.os.ntReleaseSemaphore h' n').2 ≠ STATUS_SUCCESS := by
        simpa [Call.refused, Sys.ntHandler, Sys.withStatus] using hRefused
      change (s.os.ntReleaseSemaphore h' n').1.kobjects h' = s.os.kobjects h'
      unfold WinOs.ntReleaseSemaphore at hStatus ⊢
      split
      · rfl
      · rename_i count max hGet
        rw [hGet] at hStatus
        dsimp only at hStatus
        split
        · rfl
        · rename_i hLow
          rw [if_neg hLow] at hStatus
          split
          · rename_i hFits
            rw [if_pos hFits] at hStatus
            exact absurd rfl hStatus
          · rfl
      · rfl
    | _ => cases hRelease

/-! ## Over a run -/

/-- In this state every count is within its bounds, and in the turn that follows a refused release leaves
its semaphore alone and the addition of a release does not overflow. -/
structure CountsHold (p : Process) (t : Option Turn) : Prop where
  bounds : ∀ (h : Nat) (count max : Int), p.sys.os.kobjects h = some (.Semaphore count max) → 0 ≤ count ∧ count ≤ max
  refused : ∀ u s c, t = some u → p.calls u = some (s, c) → ∀ h n, c.release = some (h, n) → c.refused s = true →
    (c.makes s).os.kobjects h = s.os.kobjects h
  fits : ∀ u s c, t = some u → p.calls u = some (s, c) → c.fits s

def Measured (p : Process) (t : Turn) : Prop := ∀ s c, p.calls t = some (s, c) → c.measured s

theorem Table.bounded_iff {os : WinOs} : os.table.Bounded ↔
    ∀ (h : Nat) (count max : Int), os.kobjects h = some (.Semaphore count max) → 0 ≤ count ∧ count ≤ max := by
  constructor
  · exact fun hBounded h count max hGet => hBounded h _ hGet
  · intro hAll h o hGet
    cases o with
    | Semaphore count max => exact hAll h count max hGet
    | _ => trivial

variable {p : Process}

theorem turn_bounded {t : Turn} (hMeasured : Measured p t) (hBounded : p.sys.os.table.Bounded) :
    (p.turn t).sys.os.table.Bounded :=
  Process.turn_table_keeps (fun s c hCalls _ hBefore => ((makes_bounded_iff hBefore).mpr (hMeasured s c hCalls)).1) hBounded

theorem measured_of_turn {t : Turn} (hBounded : p.sys.os.table.Bounded) (hAfter : (p.turn t).sys.os.table.Bounded)
    (hFits : ∀ s c, p.calls t = some (s, c) → c.fits s) : Measured p t := by
  intro s c hCalls
  obtain ⟨hSame, hMade⟩ := Process.turn_table hCalls
  rw [← hSame] at hBounded
  rw [hMade] at hAfter
  exact (makes_bounded_iff hBounded).mp ⟨hAfter, hFits s c hCalls⟩

theorem starts_bounded (hStarts : p.Starts) : p.sys.os.table.Bounded := by
  obtain ⟨cfg, vallocBase, exitThunk, tlsThunk, entryThunk, wow64Peb32, wow64Threading, hOs⟩ := hStarts.os
  rw [hOs]
  rintro h o ⟨⟩

/-- The counts hold in every state of a run exactly when every call of the run is measured. -/
theorem counts_hold_iff_measured {p : Process} (ts : List Turn) (hStarts : p.Starts) :
    (∀ n, CountsHold (p.run (ts.take n)) ts[n]?) ↔ Stamp.Along Process.turn Measured p ts := by
  constructor
  · intro hHold
    refine .of_at fun n t hGet => ?_
    have hAfter := Table.bounded_iff.mpr (hHold (n + 1)).bounds
    rw [p.run_succ hGet] at hAfter
    exact measured_of_turn (Table.bounded_iff.mpr (hHold n).bounds) hAfter fun s c => (hHold n).fits t s c hGet
  · intro hRun n
    have hBounded : (p.run (ts.take n)).sys.os.table.Bounded :=
      (hRun.take n).keeps (fun _ _ _ h hMeasured => turn_bounded hMeasured h) (starts_bounded hStarts)
    refine ⟨Table.bounded_iff.mp hBounded, fun u s c _ _ h n hRelease => refused_unchanged hRelease, ?_⟩
    intro u s c hGet hCalls
    have hMeasured := hRun.at n u hGet s c hCalls
    rw [← (Process.turn_table hCalls).1] at hBounded
    exact ((makes_bounded_iff hBounded).mpr hMeasured).2

def fillsSemaphore : List Turn :=
  [.api (.createSync ⟨.Semaphore, none, false, false, 1, 2⟩) (fun _ => true) [] {} false,
    .api (.signalSync .ReleaseSemaphore 0x1000 1) (fun _ => true) [] {} false,
    .api (.waitSingle 0x1000 0) (fun _ => true) [] {} false]

theorem counts_hold_filled : CountsHold (Process.boot.run (fillsSemaphore.take 2)) fillsSemaphore[2]? := by
  refine (counts_hold_iff_measured fillsSemaphore Process.boot_starts).mpr (.cons ?_ (.cons ?_ (.cons ?_ (.nil _)))) 2
  · intro s c hCalls
    obtain rfl := Process.calls_api hCalls
    exact fun _ _ => ⟨by decide, by decide⟩
  · intro s c hCalls
    have hGet : (Process.boot.run (fillsSemaphore.take 1)).sys.os.kobjects 0x1000 = some (.Semaphore 1 2) := by
      decide
    obtain rfl := Process.calls_api hCalls
    intro count max hThere
    have hSame := congrArg Table.objects (Process.turn_table hCalls).1
    obtain ⟨rfl, rfl⟩ := KObject.Semaphore.inj (Option.some.inj
      (hThere.symm.trans ((congrFun hSame 0x1000).trans hGet)))
    decide
  · intro s c hCalls
    obtain rfl := Process.calls_api hCalls
    trivial

def releasesMinusOne : List Turn :=
  [.api (.createSync ⟨.Semaphore, none, false, false, 0, 5⟩) (fun _ => true) [] {} false,
    .api (.signalSync .ReleaseSemaphore 0x1000 (-1)) (fun _ => true) [] {} false]

theorem count_falls_below_zero : Process.boot.Starts ∧
    ¬∀ n, CountsHold (Process.boot.run (releasesMinusOne.take n)) releasesMinusOne[n]? := by
  refine ⟨Process.boot_starts, fun hAll => ?_⟩
  have hRun : (Process.boot.run (releasesMinusOne.take 2)).sys.os.kobjects 0x1000 = some (.Semaphore (-1) 5) := by
    decide
  have hLow := ((hAll 2).bounds 0x1000 _ _ hRun).1
  omega

end Exemu.Os
