import Exemu.Library.Stamp
import Exemu.Os.Wait

/-! # Who has been told that a mutex is his -/
namespace Exemu.Os

namespace Table

def Fresh (tb : Table) : Prop := ∀ h, tb.objects h ≠ none → h < tb.next

variable {tid : Nat} {c : Call} {tb tb' : Table}

variable {h : Nat} {o o' : KObject} {name : Option Name} {w : Nat}

theorem Fresh.set (hFresh : tb.Fresh) (hGet : tb.objects h = some o) : (tb.set h (some o')).Fresh := by
  intro x hx
  by_cases hxh : x = h
  · subst hxh
    exact hFresh x (by rw [hGet]; exact Option.some_ne_none o)
  · exact hFresh x (by rwa [Table.set_of_ne _ _ hxh] at hx)

theorem Fresh.create (hFresh : tb.Fresh) : (tb.create o name).Fresh := by
  intro x hx
  change x < tb.next + 4
  by_cases hNew : x = tb.next
  · omega
  · have hOld := hFresh x (by rwa [Table.create_of_ne _ _ _ hNew] at hx)
    omega

theorem Step.fresh (h : Step tid c tb tb') (hFresh : tb.Fresh) : tb'.Fresh := by
  cases h with
  | creates o name hOwner hAsked hNew => exact hFresh.create
  | acquires h o hGet => exact hFresh.set hGet
  | signals op n h o hGet hAsked => exact hFresh.set hGet
  | adjusts h o o' hGet hKind hKind' => exact hFresh.set hGet
  | closes h hAsked =>
    intro x hx
    by_cases hxh : x = h
    · subst hxh
      exact absurd (tb.close_self) hx
    · exact hFresh x (by rwa [Table.close_of_ne _ hxh] at hx)
  | copies src o hGet hAsked => exact hFresh.create

theorem Steps.fresh (h : Steps tid c tb tb') (hFresh : tb.Fresh) : tb'.Fresh := by
  induction h with
  | refl => exact hFresh
  | tail _ hStep ih => exact hStep.fresh ih

theorem isMutex_signaledBy (op : SignalOp) (n : Int) (o : KObject) :
    (WinOs.signaledBy op tid n o).1.isMutex = o.isMutex := by
  cases op <;> cases o <;> first | rfl | (unfold WinOs.signaledBy; dsimp only; split <;> rfl)

def NotMutex (tb : Table) (h : Nat) : Prop := h < tb.next ∧ ∀ o, tb.objects h = some o → o.isMutex = false

theorem NotMutex.set {x : Nat} (hNot : tb.NotMutex h) (hGet : tb.objects x = some o)
    (hKind : o'.isMutex = o.isMutex) : (tb.set x (some o')).NotMutex h := by
  refine ⟨hNot.1, fun u hu => ?_⟩
  by_cases hxh : h = x
  · subst hxh
    obtain rfl := Option.some.inj ((tb.set_self _).symm.trans hu)
    rw [hKind]
    exact hNot.2 o hGet
  · exact hNot.2 u (by rwa [Table.set_of_ne _ _ hxh] at hu)

theorem NotMutex.create (hNot : tb.NotMutex h) : (tb.create o name).NotMutex h := by
  refine ⟨Nat.lt_add_right 4 hNot.1, fun u hu => hNot.2 u ?_⟩
  rwa [Table.create_of_ne _ _ _ hNot.1.ne] at hu

theorem Step.notMutex (hStep : Step tid c tb tb') (hNot : tb.NotMutex h) : tb'.NotMutex h := by
  cases hStep with
  | creates o name hOwner hAsked hNew => exact hNot.create
  | acquires x o hGet => exact hNot.set hGet (o.isMutex_acquire tid)
  | signals op n x o hGet hAsked => exact hNot.set hGet (isMutex_signaledBy op n o)
  | adjusts x o o' hGet hKind hKind' => exact hNot.set hGet (hKind'.trans hKind.symm)
  | closes x hAsked =>
    refine ⟨hNot.1, fun u hu => ?_⟩
    by_cases hxh : h = x
    · subst hxh
      cases (tb.close_self).symm.trans hu
    · exact hNot.2 u (by rwa [Table.close_of_ne _ hxh] at hu)
  | copies src o hGet hAsked => exact hNot.create

theorem Steps.notMutex (hSteps : Steps tid c tb tb') (hNot : tb.NotMutex h) : tb'.NotMutex h := by
  induction hSteps with
  | refl => exact hNot
  | tail _ hStep ih => exact hStep.notMutex ih

/-- The mutex behind `h` belongs to the thread `w`. -/
def Holds (tb : Table) (w h : Nat) : Prop := ∃ recursion, tb.objects h = some (.Mutex (some w) recursion)

theorem Holds.create (hFresh : tb.Fresh) (hHolds : tb.Holds w h) : (tb.create o name).Holds w h := by
  obtain ⟨recursion, hGet⟩ := hHolds
  have hOld := hFresh h (by rw [hGet]; exact Option.some_ne_none _)
  exact ⟨recursion, by rwa [Table.create_of_ne _ _ _ hOld.ne]⟩

theorem Holds.set {x : Nat} (hHolds : tb.Holds w h) (hGet : tb.objects x = some o)
    (hSame : x = h → ∀ recursion, o = .Mutex (some w) recursion → ∃ recursion', o' = .Mutex (some w) recursion') :
    (tb.set x (some o')).Holds w h := by
  obtain ⟨recursion, hMutex⟩ := hHolds
  by_cases hxh : x = h
  · subst hxh
    obtain ⟨recursion', rfl⟩ := hSame rfl recursion (Option.some.inj (hGet.symm.trans hMutex))
    exact ⟨recursion', tb.set_self _⟩
  · exact ⟨recursion, by rwa [Table.set_of_ne _ _ (Ne.symm hxh)]⟩

theorem Step.holds (hStep : Step tid c tb tb') (hFresh : tb.Fresh) (hClose : c.closes ≠ some h)
    (hRelease : c.releases ≠ some h) (hHolds : tb.Holds w h) : tb'.Holds w h := by
  cases hStep with
  | creates o name hOwner hAsked hNew => exact hHolds.create hFresh
  | acquires x o hGet =>
    refine hHolds.set hGet fun _ recursion hMutex => ?_
    subst hMutex
    by_cases hTid : w = tid
    · exact ⟨(recursion + 1) % 2 ^ 32, by simp [KObject.acquire, hTid]⟩
    · exact ⟨recursion, by simp [KObject.acquire, hTid]⟩
  | signals op n x o hGet hAsked =>
    refine hHolds.set hGet fun hxh recursion hMutex => ?_
    subst hMutex hxh
    cases op with
    | ReleaseMutex => exact absurd (hAsked rfl) hRelease
    | _ => exact ⟨recursion, rfl⟩
  | adjusts x o o' hGet hKind hKind' =>
    refine hHolds.set hGet fun _ recursion hMutex => ?_
    subst hMutex
    cases hKind
  | closes x hAsked =>
    obtain ⟨recursion, hGet⟩ := hHolds
    have hxh : h ≠ x := fun hEq => hClose (hEq ▸ hAsked)
    exact ⟨recursion, by rwa [Table.close_of_ne _ hxh]⟩
  | copies src o hGet hAsked => exact hHolds.create hFresh

theorem Steps.holds (hSteps : Steps tid c tb tb') (hFresh : tb.Fresh) (hClose : c.closes ≠ some h)
    (hRelease : c.releases ≠ some h) (hHolds : tb.Holds w h) : tb'.Fresh ∧ tb'.Holds w h := by
  induction hSteps with
  | refl => exact ⟨hFresh, hHolds⟩
  | tail _ hStep ih => exact ⟨hStep.fresh ih.1, hStep.holds ih.1 hClose hRelease ih.2⟩

end Table

namespace Call

def takesNew (s : Sys) : Call → Option Nat
  | .api (.createSync spec) _ _ =>
    if spec.kind = .Mutex ∧ spec.signaled ∧ (spec.name.bind s.os.namedKobjects).isNone then some s.os.nextHandle
    else none
  | .syscall (.createMutant name owned) _ =>
    if owned ∧ (name.bind s.os.namedKobjects).isNone then some s.os.nextHandle else none
  | _ => none

end Call

/-- The turn tells the thread `tid` that the mutex behind `h` is its own: a wait reports success, or the
thread has created the mutex as its owner. -/
def Tells (p : Process) (t : Turn) (tid h : Nat) : Prop :=
  ∃ s c, p.calls t = some (s, c) ∧ s.os.currentTid = tid ∧
    ((∃ handles o, c.reports s = some (.all handles) ∧ h ∈ handles ∧ s.os.kobjects h = some o ∧ o.isMutex = true) ∨
      c.takesNew s = some h)

/-- The turn ends this: the thread releases the mutex for good, or the handle is closed. -/
def Releases (p : Process) (t : Turn) (tid h : Nat) : Prop :=
  ∃ s c, p.calls t = some (s, c) ∧
    (c.closes = some h ∨ c.releases = some h ∧ s.os.currentTid = tid ∧
      ∃ recursion, s.os.kobjects h = some (.Mutex (some tid) recursion) ∧ recursion - 1 = 0)

/-- After `n` turns the thread `tid` has been told that the mutex behind `h` is its own, and has not
released it since. -/
def Told (p : Process) (ts : List Turn) : Nat → Nat → Nat → Prop
  | 0, _, _ => False
  | n + 1, tid, h =>
    match ts[n]? with
    | none => Told p ts n tid h
    | some t =>
      Told p ts n tid h ∧ ¬Releases (p.run (ts.take n)) t tid h ∨ Tells (p.run (ts.take n)) t tid h

def Sound (p : Process) (t : Turn) : Prop :=
  ∀ s c r, p.calls t = some (s, c) → c.reports s = some r → r.holds s (c.makes s).os

def Honest (p : Process) (t : Turn) : Prop :=
  ∀ s c, p.calls t = some (s, c) → c.misreports s = false ∧
    ∀ src o, c.copies = some src → s.os.kobjects src = some o → o.isMutex = false

/-- The turn hands out `h'` as another handle of the object behind `h`. -/
def Duplicates (p : Process) (t : Turn) (h h' : Nat) : Prop :=
  ∃ s c, p.calls t = some (s, c) ∧ c.copies = some h ∧ s.os.kobjects h ≠ none ∧ h' = s.os.nextHandle

/-- The two handles were obtained for one object in the first `n` turns. -/
def SameObject (p : Process) (ts : List Turn) (n : Nat) : Nat → Nat → Prop :=
  Relation.EqvGen fun h h' => ∃ j t, j < n ∧ ts[j]? = some t ∧ Duplicates (p.run (ts.take j)) t h h'

variable {h : Nat} {p : Process} {t : Turn}

theorem releases_holds {s : Sys} {c : Call} {w : Nat} (hAsked : c.releases = some h)
    (hKept : ∀ recursion, s.os.currentTid = w → s.os.kobjects h = some (.Mutex (some w) recursion) →
      recursion - 1 ≠ 0) (hHolds : s.os.table.Holds w h) : (c.makes s).os.table.Holds w h := by
  obtain ⟨recursion, hGet⟩ := hHolds
  have hCall : ∃ n, (c.makes s).os = (s.os.signalSync .ReleaseMutex h n).1 := by
    cases c with
    | «syscall» => cases hAsked
    | api call granted after =>
      cases call with
      | signalSync op x n =>
        cases op with
        | ReleaseMutex =>
          obtain rfl : x = h := Option.some.inj hAsked
          exact ⟨n, rfl⟩
        | _ => cases hAsked
      | _ => cases hAsked
  obtain ⟨n, hCall⟩ := hCall
  replace hGet : s.os.kobjects h = some (.Mutex (some w) recursion) := hGet
  rw [hCall]
  unfold WinOs.signalSync
  rw [hGet]
  dsimp only [WinOs.signaledBy]
  by_cases hTid : s.os.currentTid = w
  · have hPos := hKept recursion hTid hGet
    rw [if_pos (by rw [hTid]), if_neg hPos]
    exact ⟨recursion - 1, Function.update_self ..⟩
  · rw [if_neg fun hEq => hTid (Option.some.inj hEq).symm]
    exact ⟨recursion, Function.update_self ..⟩

theorem tells_holds {s : Sys} {c : Call} (hHonest : c.misreports s = false)
    (hTells : (∃ handles o, c.reports s = some (.all handles) ∧ h ∈ handles ∧ s.os.kobjects h = some o ∧
      o.isMutex = true) ∨ c.takesNew s = some h) : (c.makes s).os.table.Holds s.os.currentTid h := by
  rcases hTells with ⟨handles, o, hReport, hMem, hGet, hMutex⟩ | hNew
  · obtain ⟨o', k, hGet', hSignaled, hAfter⟩ :=
      report_holds hHonest hReport h hMem (by rw [hGet]; exact Option.some_ne_none o)
    obtain rfl := Option.some.inj (hGet.symm.trans hGet')
    have hOwner := KObject.owner?_iterate hMutex hSignaled k
    generalize (fun o => (KObject.acquire o s.os.currentTid).1)^[k + 1] o = owned at hOwner hAfter
    cases owned with
    | Mutex owner recursion =>
      obtain rfl : owner = some s.os.currentTid := hOwner
      exact ⟨recursion, hAfter⟩
    | _ => cases hOwner
  · have hMake : ∀ (os : WinOs) (spec : ObjectSpec), os.kobjects = s.os.kobjects →
        os.namedKobjects = s.os.namedKobjects → os.nextHandle = s.os.nextHandle →
        os.currentTid = s.os.currentTid → spec.kind = .Mutex → spec.signaled = true →
        (spec.name.bind os.namedKobjects).isNone = true →
        (os.makeObject spec).1.table.Holds s.os.currentTid os.nextHandle := by
      intro os spec hObjects hNames hNext hTid hKind hOwned hFree
      unfold WinOs.makeObject WinOs.newObject
      rw [Option.isNone_iff_eq_none.mp hFree, hKind, hOwned, hTid]
      cases spec.name <;> exact ⟨1, Function.update_self ..⟩
    cases c with
    | api call granted after =>
      cases call with
      | createSync spec =>
        dsimp only [Call.takesNew] at hNew
        split at hNew
        · rename_i hTakes
          obtain rfl := Option.some.inj hNew
          exact hMake { s.os with lastError := 0 } spec rfl rfl rfl rfl hTakes.1 hTakes.2.1 hTakes.2.2
        · cases hNew
      | _ => cases hNew
    | «syscall» call granted =>
      cases call with
      | createMutant name owned =>
        dsimp only [Call.takesNew] at hNew
        split at hNew
        · rename_i hTakes
          obtain rfl := Option.some.inj hNew
          exact hMake s.os ⟨.Mutex, name, false, owned, 0, 0⟩ rfl rfl rfl rfl rfl hTakes.1 hTakes.2
        · cases hNew
      | _ => cases hNew

theorem turn_holds {tid : Nat} (hHonest : Honest p t) (hFresh : p.sys.os.table.Fresh)
    (hTold : p.sys.os.table.Holds tid h ∧ ¬Releases p t tid h ∨ Tells p t tid h) :
    (p.turn t).sys.os.table.Holds tid h := by
  rcases hTold with ⟨hHolds, hKept⟩ | ⟨s, c, hCalls, rfl, hTells⟩
  · cases hCalls : p.calls t with
    | none =>
      rw [Process.turn_table_of_no_call hCalls]
      exact hHolds
    | some sc =>
      obtain ⟨s, c⟩ := sc
      obtain ⟨hBefore, hAfter⟩ := Process.turn_table hCalls
      rw [← hBefore] at hFresh hHolds
      rw [hAfter]
      by_cases hRelease : c.releases = some h
      · refine releases_holds hRelease (fun recursion hTid hGet hZero => ?_) hHolds
        exact hKept ⟨s, c, hCalls, .inr ⟨hRelease, hTid, recursion, hGet, hZero⟩⟩
      · have hClose : c.closes ≠ some h := fun hEq => hKept ⟨s, c, hCalls, .inl hEq⟩
        exact ((call_steps s c).holds hFresh hClose hRelease hHolds).2
  · rw [(Process.turn_table hCalls).2]
    exact tells_holds (hHonest s c hCalls).1 hTells

theorem turn_fresh (hFresh : p.sys.os.table.Fresh) : (p.turn t).sys.os.table.Fresh := by
  cases hCalls : p.calls t with
  | none =>
    rw [Process.turn_table_of_no_call hCalls]
    exact hFresh
  | some sc =>
    obtain ⟨s, c⟩ := sc
    obtain ⟨hBefore, hAfter⟩ := Process.turn_table hCalls
    rw [← hBefore] at hFresh
    rw [hAfter]
    exact (call_steps s c).fresh hFresh

theorem turn_notMutex (hNot : p.sys.os.table.NotMutex h) : (p.turn t).sys.os.table.NotMutex h := by
  cases hCalls : p.calls t with
  | none =>
    rw [Process.turn_table_of_no_call hCalls]
    exact hNot
  | some sc =>
    obtain ⟨s, c⟩ := sc
    obtain ⟨hBefore, hAfter⟩ := Process.turn_table hCalls
    rw [← hBefore] at hNot
    rw [hAfter]
    exact (call_steps s c).notMutex hNot

theorem duplicates_notMutex {h' : Nat} (hHonest : Honest p t) (hFresh : p.sys.os.table.Fresh)
    (hCopy : Duplicates p t h h') : (p.turn t).sys.os.table.NotMutex h ∧ (p.turn t).sys.os.table.NotMutex h' := by
  obtain ⟨s, c, hCalls, hAsked, hSome, rfl⟩ := hCopy
  obtain ⟨hBefore, hAfter⟩ := Process.turn_table hCalls
  rw [← hBefore] at hFresh
  obtain ⟨o, hGet⟩ := Option.ne_none_iff_exists'.mp hSome
  have hKind := (hHonest s c hCalls).2 h o hAsked hGet
  have hMakes : (c.makes s).os = ((({ s.os with unixCallBlocked := false } : WinOs).dupKobjectHandle h).1) := by
    cases c with
    | «syscall» => cases hAsked
    | api call granted after =>
      cases call with
      | wineUnixCall req =>
        cases req with
        | dupHandle src =>
          obtain rfl : src = h := Option.some.inj hAsked
          change (s.wineUnixCall (.dupHandle src)).1.os = _
          rw [Sys.wineUnixCall_os]
          rfl
        | _ => cases hAsked
      | _ => cases hAsked
  have hTable : (c.makes s).os.table = s.os.table.create o none := by
    rw [hMakes]
    unfold WinOs.dupKobjectHandle
    rw [show ({ s.os with unixCallBlocked := false } : WinOs).kobjects h = some o from hGet]
    rfl
  rw [hAfter, hTable]
  refine ⟨?_, Nat.lt_add_of_pos_right (by decide), ?_⟩
  · exact Table.NotMutex.create
      ⟨hFresh h hSome, fun u hu => by rwa [← Option.some.inj (hGet.symm.trans hu)]⟩
  · intro u hu
    rwa [← Option.some.inj ((s.os.table.create_self o none).symm.trans hu)]

/-! ## Over a run -/

section
variable {p : Process} {ts : List Turn}

theorem run_fresh (hStarts : p.Starts) (n : Nat) : (p.run (ts.take n)).sys.os.table.Fresh := by
  induction n with
  | zero =>
    obtain ⟨cfg, vallocBase, exitThunk, tlsThunk, entryThunk, wow64Peb32, wow64Threading, hOs⟩ := hStarts.os
    intro h hSome
    rw [List.take_zero] at hSome
    change p.sys.os.kobjects h ≠ none at hSome
    rw [hOs] at hSome
    exact absurd rfl hSome
  | succ n ih =>
    cases hGet : ts[n]? with
    | none =>
      rw [p.run_of_none hGet]
      exact ih
    | some t =>
      rw [p.run_succ hGet]
      exact turn_fresh ih

theorem told_holds (hStarts : p.Starts) (hRun : Stamp.Along Process.turn Honest p ts) {tid h : Nat} (n : Nat)
    (hTold : Told p ts n tid h) : (p.run (ts.take n)).sys.os.table.Holds tid h := by
  induction n with
  | zero => cases hTold
  | succ n ih =>
    unfold Told at hTold
    cases hGet : ts[n]? with
    | none =>
      rw [hGet] at hTold
      rw [p.run_of_none hGet]
      exact ih hTold
    | some t =>
      rw [hGet] at hTold
      rw [p.run_succ hGet]
      exact turn_holds (hRun.at n t hGet) (run_fresh hStarts n) (hTold.imp_left fun h => ⟨ih h.1, h.2⟩)

theorem run_notMutex (hStarts : p.Starts) (hRun : Stamp.Along Process.turn Honest p ts) {h h' : Nat} (n : Nat)
    (hCopy : ∃ j t, j < n ∧ ts[j]? = some t ∧ Duplicates (p.run (ts.take j)) t h h') :
    (p.run (ts.take n)).sys.os.table.NotMutex h ∧ (p.run (ts.take n)).sys.os.table.NotMutex h' := by
  obtain ⟨j, t, hj, hGet, hCopy⟩ := hCopy
  induction n, hj using Nat.le_induction with
  | base =>
    rw [p.run_succ hGet]
    exact duplicates_notMutex (hRun.at j t hGet) (run_fresh hStarts j) hCopy
  | succ n hj ih =>
    cases hNext : ts[n]? with
    | none =>
      rw [p.run_of_none hNext]
      exact ih
    | some u =>
      rw [p.run_succ hNext]
      exact ⟨turn_notMutex ih.1, turn_notMutex ih.2⟩

theorem sameObject_mutex (hStarts : p.Starts) (hRun : Stamp.Along Process.turn Honest p ts) {n h h' : Nat}
    (hSame : SameObject p ts n h h') :
    h = h' ∨ (p.run (ts.take n)).sys.os.table.NotMutex h ∧ (p.run (ts.take n)).sys.os.table.NotMutex h' := by
  induction hSame with
  | rel h h' hCopy => exact .inr (run_notMutex hStarts hRun n hCopy)
  | refl h => exact .inl rfl
  | symm h h' _ ih => exact ih.imp Eq.symm And.symm
  | trans h h' h'' _ _ ih ih' =>
    rcases ih with rfl | ⟨hNot, hMiddle⟩
    · exact ih'
    · rcases ih' with rfl | ⟨-, hNot'⟩
      · exact .inr ⟨hNot, hMiddle⟩
      · exact .inr ⟨hNot, hNot'⟩

/-- Over a run of honest turns every success that is reported is true, and a mutex is one thread's. -/
theorem honest_run_sound (hStarts : p.Starts) (hRun : Stamp.Along Process.turn Honest p ts) :
    (∀ n t, ts[n]? = some t → Sound (p.run (ts.take n)) t) ∧
      ∀ n tid tid' h h', Told p ts n tid h → Told p ts n tid' h' → SameObject p ts n h h' → tid = tid' := by
  refine ⟨fun n t hGet s c r hCalls hReport => report_holds ((hRun.at n t hGet) s c hCalls).1 hReport, ?_⟩
  intro n tid tid' h h' hTold hTold' hSame
  obtain ⟨recursion, hGet⟩ := told_holds hStarts hRun n hTold
  obtain ⟨recursion', hGet'⟩ := told_holds hStarts hRun n hTold'
  rcases sameObject_mutex hStarts hRun hSame with rfl | ⟨hNot, -⟩
  · exact (Option.some.inj (KObject.Mutex.inj (Option.some.inj (hGet.symm.trans hGet'))).1)
  · cases hNot.2 _ hGet

end

theorem honest_of_check (h : (p.calls t).all (fun r => !r.2.misreports r.1 && r.2.copies.isNone) = true) :
    Honest p t := by
  intro s c hCalls
  rw [hCalls, Option.all_some, Bool.and_eq_true, Bool.not_eq_true', Option.isNone_iff_eq_none] at h
  refine ⟨h.1, fun src o hAsked => ?_⟩
  rw [h.2] at hAsked
  cases hAsked

def INFINITE : Nat := 0xFFFFFFFF

def takesAndBlocks : List Turn :=
  [.api (.createSync ⟨.Mutex, none, false, false, 0, 0⟩) (fun _ => true) [] {} false,
    .api (.waitSingle 0x1000 INFINITE) (fun _ => true) [] {} false,
    .api (.createThread 0 0x140002000 7 0) (fun _ => true) [] {} false,
    .api .sleep (fun _ => true) [] {} false,
    .api (.waitSingle 0x1000 INFINITE) (fun _ => true) [] {} false]

theorem honest_run_sound_blocks :
    (∀ n t, takesAndBlocks[n]? = some t → Sound (Process.boot.run (takesAndBlocks.take n)) t) ∧
      ∀ n tid tid' h h', Told Process.boot takesAndBlocks n tid h → Told Process.boot takesAndBlocks n tid' h' →
        SameObject Process.boot takesAndBlocks n h h' → tid = tid' :=
  honest_run_sound Process.boot_starts
    (.cons (honest_of_check (by decide)) (.cons (honest_of_check (by decide))
      (.cons (honest_of_check (by decide)) (.cons (honest_of_check (by decide))
        (.cons (honest_of_check (by decide)) (.nil _))))))

def waitsAlone : List Turn :=
  [.api (.createSync ⟨.Event, none, false, false, 0, 0⟩) (fun _ => true) [] {} false,
    .api (.waitSingle 0x1000 INFINITE) (fun _ => true) [] {} false]

theorem lone_wait_reports_success :
    Process.boot.Starts ∧ ¬∀ n t, waitsAlone[n]? = some t → Sound (Process.boot.run (waitsAlone.take n)) t := by
  refine ⟨Process.boot_starts, fun hAll => ?_⟩
  have hRun : ((Process.boot.run (waitsAlone.take 1)).calls
      (.api (.waitSingle 0x1000 INFINITE) (fun _ => true) [] {} false)).any
        (fun r => r.2.reports r.1 == some (.all [0x1000]) &&
          r.1.os.kobjects 0x1000 == some (.Event false false)) = true := by decide
  obtain ⟨⟨s, c⟩, hCalls, hSaid⟩ := Option.any_eq_true .. |>.mp hRun
  rw [Bool.and_eq_true, beq_iff_eq, beq_iff_eq] at hSaid
  obtain ⟨o, k, hGet, hSignaled, -⟩ := hAll 1 _ rfl s c _ hCalls hSaid.1 0x1000 List.mem_cons_self
    (by rw [hSaid.2]; exact Option.some_ne_none _)
  obtain rfl := Option.some.inj (hSaid.2.symm.trans hGet)
  cases hSignaled

end Exemu.Os
