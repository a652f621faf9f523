import Exemu.Memory.Ranges
import Exemu.Os.Frame
import Exemu.Os.Order

/-! # What the threads and the allocations hold -/
namespace Exemu.Os

open VirtualMemory

def held (t : Thread) : List Range := if t.state = .Terminated then [] else Sys.ownedRanges t

def WinOs.holdings (os : WinOs) : List Range :=
  os.threads.flatMap held ++ os.vmAllocs.map fun a => (a.base, a.size)

def Holding (s : Sys) : Prop := Holds s.mem s.os.holdings

namespace WinOs

variable {os os' : WinOs}

theorem holdings_congr (hThreads : os'.threads = os.threads) (hAllocs : os'.vmAllocs = os.vmAllocs) :
    os'.holdings = os.holdings := by
  unfold holdings
  rw [hThreads, hAllocs]

theorem flatMap_modify (ts : List Thread) (i : Nat) (f : Thread → Thread)
    (hf : ∀ t, ts[i]? = some t → held (f t) = held t) : (ts.modify i f).flatMap held = ts.flatMap held := by
  induction ts generalizing i with
  | nil => simp
  | cons t ts ih =>
    cases i with
    | zero => simp [hf t rfl]
    | succ i => simp [ih i hf]

theorem holdings_modThread (i : Nat) (f : Thread → Thread) (hf : ∀ t, os.threads[i]? = some t → held (f t) = held t) :
    (os.modThread i f).holdings = os.holdings := by
  unfold holdings modThread
  rw [flatMap_modify _ i f hf]

theorem held_append (ts : List Thread) (vs : List Range) (t : Thread) :
    (held t ++ (ts.flatMap held ++ vs)).Perm ((ts ++ [t]).flatMap held ++ vs) := by
  rw [List.flatMap_append, List.flatMap_singleton, ← List.append_assoc]
  exact List.perm_append_comm.append_right vs

theorem flatMap_ended {ts : List Thread} {i : Nat} {t : Thread} (hGet : ts[i]? = some t) (code : U32) :
    (held t ++ (ts.modify i (Thread.ended code)).flatMap held).Perm (ts.flatMap held) := by
  induction ts generalizing i with
  | nil => cases hGet
  | cons u ts ih =>
    cases i with
    | zero =>
      obtain rfl := Option.some.inj hGet
      simp [held, Thread.ended]
    | succ i =>
      rw [List.modify_succ_cons, List.flatMap_cons, List.flatMap_cons]
      exact (List.perm_append_comm_assoc _ _ _).trans ((ih hGet).append_left _)

end WinOs

/-! ## Steps that take nothing and give nothing back -/

structure Quiet (s s' : Sys) : Prop where
  mem : ∀ rs, Holds s.mem rs → Holds s'.mem rs
  holdings : s'.os.holdings = s.os.holdings

namespace Quiet

variable {s s' s'' : Sys}

theorem refl (s : Sys) : Quiet s s := ⟨fun _ h => h, rfl⟩

theorem trans (h : Quiet s s') (h' : Quiet s' s'') : Quiet s s'' :=
  ⟨fun rs hs => h'.mem rs (h.mem rs hs), h'.holdings.trans h.holdings⟩

theorem holding (h : Quiet s s') (hHolds : Holding s) : Holding s' := by
  unfold Holding
  rw [h.holdings]
  exact h.mem _ hHolds

theorem of_same (hSame : SameThreads s.os s'.os) (hAllocs : s'.os.vmAllocs = s.os.vmAllocs) (hMem : s'.mem = s.mem) :
    Quiet s s' :=
  ⟨fun _ h => hMem ▸ h, WinOs.holdings_congr hSame.threads hAllocs⟩

theorem mapped {region : Region} {bytes : Nat → U8} {mem : VirtualMemory}
    (hInsert : s.mem.insert region bytes = .ok mem) (hMem : s'.mem = mem) (hOs : s'.os.holdings = s.os.holdings) :
    Quiet s s' :=
  ⟨fun _ h => hMem ▸ h.insert hInsert, hOs⟩

end Quiet

variable {rs : List Range} {os : WinOs} {s : Sys} {suspended : Bool} {granted : U64 → Bool}

theorem writeFields_holds {mem : VirtualMemory} (fields : List Field) (h : Holds mem rs) :
    Holds (writeFields mem fields).1 rs := by
  induction fields generalizing mem with
  | nil => exact h
  | cons f fields ih =>
    unfold writeFields
    cases hWrite : mem.writeUint f.1 f.2.1 f.2.2 with
    | error e => exact h
    | ok m => exact ih (h.same (h.wellFormed.writeUint hWrite) (writeUint_layout hWrite))

theorem applyStores_holds {mem : VirtualMemory} (stores : List (U64 × List U8)) (h : Holds mem rs) :
    Holds (applyStores mem stores) rs := by
  unfold applyStores
  induction stores generalizing mem with
  | nil => exact h
  | cons w stores ih =>
    refine ih ?_
    change Holds ((mem.write w.1 w.2).toOption.getD mem) rs
    cases hWrite : mem.write w.1 w.2 with
    | error e => exact h
    | ok m =>
      have hWf : WellFormed m := by
        rcases write_ok hWrite with ⟨-, rfl⟩ | ⟨-, i, x, hGet, -, -, -, rfl⟩
        · exact h.wellFormed
        · exact h.wellFormed.store hGet _ _ _
      exact h.same hWf (write_layout hWrite)

theorem seed_quiet (s : Sys) (fields : List Field) : Quiet s (s.seed fields).1 :=
  ⟨fun _ h => writeFields_holds fields h, rfl⟩

/-! ## A switch -/

structure Alive (os : WinOs) : Prop where
  current : ∃ t, os.threads[os.current]? = some t ∧ t.state ≠ .Terminated

theorem Placed.alive (h : Placed os) : Alive os := by
  obtain ⟨t, hGet, -, hState⟩ := h.current
  exact ⟨t, hGet, hState⟩

theorem Alive.length (h : Alive os) : os.current < os.threads.length := by
  obtain ⟨t, hGet, -⟩ := h.current
  exact (List.getElem?_eq_some_iff.mp hGet).1

theorem Alive.congr {os' : WinOs} (h : Alive os) (hSame : SameThreads os os') : Alive os' := by
  constructor
  rw [hSame.threads, hSame.current]
  exact h.current

theorem activate_quiet {next : Nat} {t : Thread} (hGet : s.os.threads[next]? = some t) (hState : t.state ≠ .Terminated) :
    Quiet s (s.activate next) := by
  refine ⟨fun rs h => ?_, ?_⟩
  · unfold Sys.activate
    dsimp only
    split <;> exact h
  · have hMode : ∀ u : Thread, held { u with mode32 := s.os.guestMode32 } = held u := fun u => rfl
    unfold Sys.activate
    dsimp only
    split
    · rfl
    · rename_i u hu
      have hLeft : (s.os.modThread s.os.current fun t => { t with mode32 := s.os.guestMode32 }).holdings = s.os.holdings :=
        WinOs.holdings_modThread _ _ fun u _ => hMode u
      refine Eq.trans (WinOs.holdings_congr rfl rfl) (Eq.trans (WinOs.holdings_modThread next _ fun v hv => ?_) hLeft)
      rw [WinOs.modThread_get, hGet, Option.map_some] at hv
      have hv' := Option.some.inj hv
      have hHeld : held v = held t := by
        rw [← hv']
        split <;> rfl
      have hLive : v.state ≠ .Terminated := by
        rw [← hv']
        split <;> exact hState
      simp [held, hLive, Sys.ownedRanges]

theorem park_quiet {state : ThreadState} {wait : Thread → Option WaitDesc} {next : Nat} (hAlive : Alive s.os)
    (hState : state ≠ .Terminated) (hPick : s.os.pickNext = some next) : Quiet s (s.park state wait next) := by
  obtain ⟨hNext, t, hGet, hReady⟩ := WinOs.pickNext_get hAlive.length hPick
  obtain ⟨u, hu, hLive⟩ := hAlive.current
  have hSaved : Quiet s { s with
      os := s.os.modThread s.os.current fun t => { t with saved := s.cpu, state := state, wait := wait t } } := by
    refine ⟨fun _ h => h, WinOs.holdings_modThread _ _ fun v hv => ?_⟩
    obtain rfl := Option.some.inj (hu.symm.trans hv)
    simp [held, hState, hLive, Sys.ownedRanges]
  refine hSaved.trans (activate_quiet (t := t) ?_ ?_)
  · rw [WinOs.modThread_get, hGet]
    simp [hNext.symm]
  · rcases hReady with hs | hs <;> rw [hs] <;> nofun

/-! ## Taking a range -/

/-- Either nothing is taken, or a range of `size` bytes is. -/
inductive Takes (s : Sys) (size : U64) : Sys × Option U64 → Prop
  | refuses (s' : Sys) (hQuiet : Quiet s s') : Takes s size (s', none)
  | takes (s' : Sys) (base : U64) (hHolds : ∀ rs, Holds s.mem rs → Holds s'.mem ((base, size) :: rs))
      (hHoldings : s'.os.holdings = s.os.holdings) : Takes s size (s', some base)

theorem Maps.takes {size : U64} {r : Sys × Option U64} (h : Sys.Maps s size r) (hSize : size ≠ 0) : Takes s size r := by
  cases h with
  | fails next => exact .refuses _ ⟨fun _ h => h, rfl⟩
  | maps next base region bytes mem hBase hEq hLast hInsert =>
    refine .takes _ base (fun rs h => ?_) rfl
    obtain rfl := hBase
    obtain rfl := hEq
    exact h.cons hInsert hSize hLast

theorem newThreadTeb_takes (s : Sys) (granted : U64 → Bool) (tid : Nat) (stackBase stackTop : U64) :
    Takes s THREAD_TEB_SIZE (s.newThreadTeb granted tid stackBase stackTop) := by
  have hMap := Maps.takes (s.mapAnywhere_maps granted THREAD_TEB_SIZE Perm.RW "thread-teb") (by decide)
  unfold Sys.newThreadTeb
  generalize s.mapAnywhere granted THREAD_TEB_SIZE Perm.RW "thread-teb" = mapped at hMap ⊢
  cases hMap with
  | refuses s' hQuiet => exact .refuses s' hQuiet
  | takes s' base hHolds hHoldings =>
    dsimp only
    split
    · rename_i s'' hSeed
      have hQuiet := seed_quiet s' (seedTeb64 s'.os.cfg base tid s'.os.cfg.pebAddr stackTop stackBase)
      rw [hSeed] at hQuiet
      exact .takes s'' base (fun rs h => hQuiet.mem _ (hHolds rs h)) (hQuiet.holdings.trans hHoldings)
    · rename_i s'' e hSeed
      have hQuiet := seed_quiet s' (seedTeb64 s'.os.cfg base tid s'.os.cfg.pebAddr stackTop stackBase)
      rw [hSeed] at hQuiet
      refine .refuses s'' ⟨fun rs h => ?_, hQuiet.holdings.trans hHoldings⟩
      exact (hQuiet.mem _ (hHolds rs h)).sublist (List.sublist_cons_self _ _)

theorem unmap_quiet {s' : Sys} {base size : U64} (hHolds : ∀ rs, Holds s.mem rs → Holds s'.mem ((base, size) :: rs))
    (hHoldings : s'.os.holdings = s.os.holdings) : Quiet s (s'.unmap base size) :=
  ⟨fun rs h => (hHolds rs h).unmap (.inr rfl), hHoldings⟩

theorem enlist_holding {taken : List Range} {t : Nat → Thread} (h : Holds s.mem (taken ++ s.os.holdings))
    (hOwned : ∀ handle, (Sys.ownedRanges (t handle)).Sublist taken) : Holding (s.enlist suspended t).1 := by
  unfold Holding
  have hNew := h.sublist ((hOwned s.os.nextHandle).append_right s.os.holdings)
  refine hNew.perm ?_
  have hLast := WinOs.held_append s.os.threads (s.os.vmAllocs.map fun a => (a.base, a.size))
    { t s.os.nextHandle with
      handle := s.os.nextHandle
      state := if suspended then .Suspended else .Ready
      suspendCount := suspended.toNat }
  have hHeld : held { t s.os.nextHandle with
      handle := s.os.nextHandle
      state := if suspended then .Suspended else .Ready
      suspendCount := suspended.toNat } = Sys.ownedRanges (t s.os.nextHandle) := by
    cases suspended <;> rfl
  rw [hHeld] at hLast
  exact hLast

theorem ownedRanges_thread {t : Thread} (hBlock : t.wow64Block = 0) (hStack : t.wow64Stack32 = (0, 0)) :
    (Sys.ownedRanges t).Sublist [(t.stackBase, t.stackSize), (t.tebOwned, THREAD_TEB_SIZE)] := by
  have hRanges : Sys.ownedRanges t =
      [(t.stackBase, t.stackSize), (t.tebOwned, THREAD_TEB_SIZE)].filter fun r => r.1 != 0 := by
    unfold Sys.ownedRanges
    rw [hBlock, hStack]
    exact (List.filter_append [_, _] _).trans (List.append_nil _)
  rw [hRanges]
  exact List.filter_sublist

theorem ownedRanges_wow64 {t : Thread} (hTeb : t.tebOwned = 0) :
    (Sys.ownedRanges t).Sublist [(t.stackBase, t.stackSize), (t.wow64Block, WOW64_THREAD_BLOCK), t.wow64Stack32] := by
  have hRanges : Sys.ownedRanges t =
      [(t.stackBase, t.stackSize), (t.wow64Block, WOW64_THREAD_BLOCK), t.wow64Stack32].filter fun r => r.1 != 0 := by
    unfold Sys.ownedRanges
    rw [hTeb]
    simp [List.filter_cons]
  rw [hRanges]
  exact List.filter_sublist

theorem spawnThread_holding {reqStack entry param : U64} (h : Holding s)
    (hSize : alignUp (maxU64 reqStack THREAD_STACK_SIZE) PAGE ≠ 0) :
    Holding (s.spawnThread granted reqStack entry param suspended).1 := by
  unfold Sys.spawnThread
  dsimp only
  generalize alignUp (maxU64 reqStack THREAD_STACK_SIZE) PAGE = size at hSize
  have hStack := Maps.takes (s.mapAnywhere_maps granted size Perm.RWX "thread-stack") hSize
  generalize s.mapAnywhere granted size Perm.RWX "thread-stack" = mapped at hStack ⊢
  cases hStack with
  | refuses s₁ hQuiet => exact hQuiet.holding h
  | takes s₁ stackBase hHolds₁ hHoldings₁ =>
    dsimp only
    have hTeb := newThreadTeb_takes { s₁ with os := { s₁.os with nextTid := s₁.os.nextTid + 1 } } granted
      s₁.os.nextTid stackBase (stackBase + size)
    generalize Sys.newThreadTeb { s₁ with os := { s₁.os with nextTid := s₁.os.nextTid + 1 } } granted
      s₁.os.nextTid stackBase (stackBase + size) = teb at hTeb ⊢
    cases hTeb with
    | refuses s₂ hQuiet =>
      have hDone : Quiet s (s₂.unmap stackBase size) :=
        unmap_quiet (fun rs hr => hQuiet.mem _ (hHolds₁ rs hr)) (hQuiet.holdings.trans hHoldings₁)
      exact hDone.holding h
    | takes s₂ tebBase hHolds₂ hHoldings₂ =>
      dsimp only
      generalize Sys.initialState s₂.os tebBase (stackBase + size) entry param = start
      obtain ⟨st, slots, pendingEntry⟩ := start
      dsimp only
      have hSlots := seed_quiet s₂ slots
      generalize s₂.seed slots = seeded at hSlots ⊢
      have hHoldings : seeded.1.os.holdings = s.os.holdings :=
        hSlots.holdings.trans (hHoldings₂.trans hHoldings₁)
      have hHolds : Holds seeded.1.mem ([(tebBase, THREAD_TEB_SIZE), (stackBase, size)] ++ seeded.1.os.holdings) := by
        rw [hHoldings]
        exact hSlots.mem _ (hHolds₂ _ (hHolds₁ _ h))
      obtain ⟨s₃, e | done⟩ := seeded
      · exact hHolds.sublist (List.sublist_append_right _ _)
      · dsimp only at hHolds ⊢
        refine enlist_holding (hHolds.perm ((List.Perm.swap _ _ _).append_right _)) fun handle => ?_
        exact ownedRanges_thread rfl rfl

theorem seedWow64_quiet (s : Sys) (w : Wow64Threading) (tid : Nat) (stack32 stack32Top stack64 block entry param : U64) :
    Quiet s (s.seedWow64 w tid stack32 stack32Top stack64 block entry param).1 := by
  unfold Sys.seedWow64
  extract_lets teb32 area
  have hFirst := seed_quiet s (seedTeb64 s.os.cfg block tid s.os.cfg.pebAddr (stack64 + THREAD_STACK_SIZE) stack64 ++
    seedTeb32 teb32 s.os.wow64Peb32 stack32 stack32Top)
  generalize s.seed (seedTeb64 s.os.cfg block tid s.os.cfg.pebAddr (stack64 + THREAD_STACK_SIZE) stack64 ++
    seedTeb32 teb32 s.os.wow64Peb32 stack32 stack32Top) = seeded at hFirst ⊢
  obtain ⟨s₁, e | done⟩ := seeded
  · exact hFirst
  · dsimp only
    split
    · exact hFirst.trans (seed_quiet s₁ _)
    · exact hFirst

theorem spawnWow64Thread_holding {reqStack entry param : U64} (h : Holding s)
    (hSize : alignUp (maxU64 reqStack THREAD_STACK_SIZE) PAGE ≠ 0) :
    Holding (s.spawnWow64Thread granted reqStack entry param suspended).1 := by
  unfold Sys.spawnWow64Thread
  cases s.os.wow64Threading with
  | none => exact h
  | some w =>
  dsimp only
  generalize alignUp (maxU64 reqStack THREAD_STACK_SIZE) PAGE = size at hSize
  have hLow := Maps.takes (s.mapAnywhereLow_maps granted size Perm.RW "wow64-thread-stack32") hSize
  generalize s.mapAnywhereLow granted size Perm.RW "wow64-thread-stack32" = low at hLow ⊢
  cases hLow with
  | refuses s₁ hQuiet => exact hQuiet.holding h
  | takes s₁ stack32 hHolds₁ hHoldings₁ =>
  dsimp only
  have hHigh := Maps.takes (s₁.mapAnywhere_maps granted THREAD_STACK_SIZE Perm.RWX "wow64-thread-stack64") (by decide)
  generalize s₁.mapAnywhere granted THREAD_STACK_SIZE Perm.RWX "wow64-thread-stack64" = high at hHigh ⊢
  cases hHigh with
  | refuses s₂ hQuiet =>
    have hDone : Quiet s (s₂.unmap stack32 size) :=
      unmap_quiet (fun rs hr => hQuiet.mem _ (hHolds₁ rs hr)) (hQuiet.holdings.trans hHoldings₁)
    exact hDone.holding h
  | takes s₂ stack64 hHolds₂ hHoldings₂ =>
  dsimp only
  have hBlock := Maps.takes (s₂.mapAnywhereLow_maps granted WOW64_THREAD_BLOCK Perm.RW "wow64-thread-teb") (by decide)
  generalize s₂.mapAnywhereLow granted WOW64_THREAD_BLOCK Perm.RW "wow64-thread-teb" = blk at hBlock ⊢
  cases hBlock with
  | refuses s₃ hQuiet =>
    have hDone : Quiet s ((s₃.unmap stack32 size).unmap stack64 THREAD_STACK_SIZE) := by
      refine unmap_quiet (fun rs hr => ?_) ?_
      · have hBoth := hQuiet.mem _ (hHolds₂ _ (hHolds₁ rs hr))
        exact (hBoth.perm (List.Perm.swap _ _ _)).unmap (.inr rfl)
      · exact hQuiet.holdings.trans (hHoldings₂.trans hHoldings₁)
    exact hDone.holding h
  | takes s₃ block hHolds₃ hHoldings₃ =>
  dsimp only
  have hSeed := seedWow64_quiet { s₃ with os := { s₃.os with nextTid := s₃.os.nextTid + 1 } } w s₃.os.nextTid stack32
    (stack32 + size) stack64 block entry param
  generalize Sys.seedWow64 { s₃ with os := { s₃.os with nextTid := s₃.os.nextTid + 1 } } w s₃.os.nextTid stack32
    (stack32 + size) stack64 block entry param = seeded at hSeed ⊢
  have hHoldings : seeded.1.os.holdings = s.os.holdings :=
    hSeed.holdings.trans (hHoldings₃.trans (hHoldings₂.trans hHoldings₁))
  have hHolds : Holds seeded.1.mem
      ([(block, WOW64_THREAD_BLOCK), (stack64, THREAD_STACK_SIZE), (stack32, size)] ++ seeded.1.os.holdings) := by
    rw [hHoldings]
    exact hSeed.mem _ (hHolds₃ _ (hHolds₂ _ (hHolds₁ _ h)))
  obtain ⟨s₄, e | done⟩ := seeded
  · exact hHolds.sublist (List.sublist_append_right _ _)
  · dsimp only at hHolds ⊢
    refine enlist_holding (hHolds.perm ((List.Perm.swap _ _ _).append_right _)) fun handle => ?_
    exact ownedRanges_wow64 rfl

/-! ## Ending a thread -/

theorem foldl_unmap_holds {own : List Range} (h : Holds s.mem (own ++ rs)) :
    Holds (own.foldl (fun s r => s.unmap r.1 r.2) s).mem rs := by
  induction own generalizing s with
  | nil => exact h
  | cons r own ih => exact ih (s := s.unmap r.1 r.2) (Holds.unmap h (.inr rfl))

theorem freeThreadStack_holds {i : Nat} {t : Thread} (hGet : s.os.threads[i]? = some t)
    (h : Holds s.mem (Sys.ownedRanges t ++ rs)) : Holds (s.freeThreadStack i).mem rs := by
  unfold Sys.freeThreadStack
  rw [hGet]
  exact foldl_unmap_holds h

theorem endThread_eq (s : Sys) (i : Nat) (code : U32) :
    ∃ os : WinOs, os.threads = s.os.threads.modify i (Thread.ended code) ∧
      s.endThread i code = ({ s with os := os } : Sys).freeThreadStack i :=
  ⟨_, (WinOs.markExited_same _ _).threads, rfl⟩

theorem endThread_holding {i : Nat} (code : U32) (h : Holding s)
    (hLive : ∀ t, s.os.threads[i]? = some t → t.state ≠ .Terminated) : Holding (s.endThread i code) := by
  obtain ⟨k, hOs⟩ := s.endThread_os i code
  have hHoldings : (s.endThread i code).os.holdings = (s.os.modThread i (Thread.ended code)).holdings := by
    rw [hOs]
    rfl
  obtain ⟨os, hThreads, hEnd⟩ := endThread_eq s i code
  unfold Holding
  rw [hHoldings, hEnd]
  cases hGet : s.os.threads[i]? with
  | none =>
    rw [WinOs.holdings_modThread i _ fun t ht => by rw [hGet] at ht; cases ht]
    unfold Sys.freeThreadStack
    dsimp only
    rw [hThreads, List.getElem?_modify, hGet]
    exact h
  | some t =>
    have hHeld : held t = Sys.ownedRanges t := if_neg (hLive t hGet)
    refine freeThreadStack_holds (t := Thread.ended code t) ?_ ?_
    · dsimp only
      rw [hThreads, List.getElem?_modify, hGet]
      simp
    · have hAll := WinOs.flatMap_ended hGet code
      rw [hHeld] at hAll
      refine Holds.perm h ?_
      refine ((hAll.symm.append_right _).trans ?_)
      rw [List.append_assoc]
      exact List.Perm.refl _

theorem leaveTo_holding {code : U32} (h : Holding s) (hCurrent : s.os.current < s.os.threads.length) :
    Holding (s.leaveTo code).1 := by
  unfold Sys.leaveTo
  cases hPick : s.os.pickNext with
  | none => exact h
  | some next =>
    obtain ⟨-, t, hGet, hReady⟩ := WinOs.pickNext_get hCurrent hPick
    refine (activate_quiet hGet ?_).holding h
    rcases hReady with hs | hs <;> rw [hs] <;> nofun

theorem endThread_length (s : Sys) (i : Nat) (code : U32) (hCurrent : s.os.current < s.os.threads.length) :
    (s.endThread i code).os.current < (s.endThread i code).os.threads.length := by
  have hSame := s.endThread_same i code
  have hKept : (s.endThread i code).os.current = s.os.current := hSame.current
  rw [hSame.threads, hKept]
  simpa [WinOs.modThread] using hCurrent

/-! ## Allocations -/

theorem vmInsert_perm (s : Sys) (a : VmAlloc) : ((a.base, a.size) :: s.os.holdings).Perm (s.vmInsert a).os.holdings := by
  unfold WinOs.holdings Sys.vmInsert
  dsimp only
  generalize partitionPoint (fun x => decide (x.base < a.base)) s.os.vmAllocs = k
  refine List.perm_middle.symm.trans (List.Perm.append_left _ ?_)
  rw [List.map_append, List.map_cons]
  refine List.Perm.trans ?_ List.perm_middle.symm
  rw [← List.map_append, List.take_append_drop]

theorem vmInsert_holding {a : VmAlloc} (h : Holds s.mem ((a.base, a.size) :: s.os.holdings)) :
    Holding (s.vmInsert a) := Holds.perm h (vmInsert_perm s a)

theorem holdings_commit (os : WinOs) (i : Nat) (committed : Bool) :
    ({ os with vmAllocs := os.vmAllocs.modify i fun a => { a with committed := a.committed || committed } } :
      WinOs).holdings = os.holdings := by
  unfold WinOs.holdings
  dsimp only
  congr 1
  apply List.ext_getElem?
  intro j
  rw [List.getElem?_map, List.getElem?_map, List.getElem?_modify]
  cases os.vmAllocs[j]? with
  | none => rfl
  | some a =>
    simp only [Option.map_some]
    split <;> rfl

theorem vmAllocRegionBelow_holding {addrReq sizeReq : U64} {committed : Bool} {maxAddr : U64} (h : Holding s)
    (hSize : alignUp (maxU64 sizeReq 1) PAGE ≠ 0) :
    Holding (s.vmAllocRegionBelow granted addrReq sizeReq committed maxAddr).1 := by
  unfold Sys.vmAllocRegionBelow
  dsimp only
  generalize alignUp (maxU64 sizeReq 1) PAGE = size at hSize
  split
  · have hMap := Maps.takes (s.mapFoundBelow_maps granted size maxAddr Perm.RWX "valloc") hSize
    generalize Sys.mapFound (s.vmFindFreeBelow size maxAddr) granted size Perm.RWX "valloc" = mapped at hMap ⊢
    cases hMap with
    | refuses s' hQuiet => exact hQuiet.holding h
    | takes s' base hHolds hHoldings =>
      refine vmInsert_holding ?_
      rw [hHoldings]
      exact hHolds _ h
  · generalize hBase : addrReq &&& ~~~(PAGE - 1) = base
    split
    · unfold Holding
      dsimp only
      rw [holdings_commit]
      exact h
    · split
      · rcases s.tryMap_spec granted base size Perm.RWX "valloc" with ⟨hNo, hSame⟩ | ⟨bytes, mem, hInsert, hMap⟩
        · have hMap : s.tryMap granted base size Perm.RWX "valloc" = (s, false) := Prod.ext hSame hNo
          rw [hMap]
          exact h
        · rw [hMap]
          refine vmInsert_holding (Holds.cons h hInsert hSize (Sys.ne_last_of_even ?_))
          rw [← hBase]
          simp [PAGE]
      · exact h

theorem mapView_holding {reqBase viewSize : U64} {low : Bool} (h : Holding s) (hSize : viewSize ≠ 0) :
    Holding (s.mapView granted reqBase viewSize low).1 := by
  unfold Sys.mapView
  extract_lets base placed
  suffices hPlaced : Takes s viewSize placed by
    clear_value placed
    cases hPlaced with
    | refuses s' hQuiet => exact hQuiet.holding h
    | takes s' base hHolds hHoldings =>
      refine vmInsert_holding ?_
      rw [hHoldings]
      exact hHolds _ h
  change Takes s viewSize (ite _ _ _)
  split
  · have hLast : base ≠ BitVec.allOnes 64 := Sys.ne_last_of_even (by simp [base, GRAN])
    rcases s.tryMap_spec granted base viewSize Perm.RWX "section-view" with ⟨hNo, hSame⟩ | ⟨bytes, mem, hInsert, hMap⟩
    · have hMap : s.tryMap granted base viewSize Perm.RWX "section-view" = (s, false) := Prod.ext hSame hNo
      rw [hMap]
      exact .refuses s (.refl s)
    · rw [hMap]
      exact .takes _ base (fun rs hr => hr.cons hInsert hSize hLast) rfl
  · split
    · exact Maps.takes (s.mapAnywhereLow_maps granted viewSize Perm.RWX "section-view") hSize
    · exact Maps.takes (s.mapAnywhere_maps granted viewSize Perm.RWX "section-view") hSize

theorem vmRelease_holding {addr : U64} (h : Holding s) : Holding (s.vmRelease addr) := by
  unfold Sys.vmRelease
  dsimp only
  cases hFind : s.os.vmAllocs.findIdx? fun a => a.base == addr &&& ~~~(PAGE - 1) with
  | none => exact h
  | some pos =>
    obtain ⟨hPos, hBase, -⟩ := List.findIdx?_eq_some_iff_getElem.mp hFind
    have hAlloc : (s.os.vmAllocs[pos].base, s.os.vmAllocs[pos].size).1 = addr &&& ~~~(PAGE - 1) := by
      simpa using hBase
    have hPerm : s.os.holdings.Perm ((s.os.vmAllocs[pos].base, s.os.vmAllocs[pos].size) ::
        ({ s.os with vmAllocs := s.os.vmAllocs.eraseIdx pos } : WinOs).holdings) := by
      unfold WinOs.holdings
      refine List.Perm.trans (List.Perm.append_left _ ?_) List.perm_middle
      exact ((List.getElem_cons_eraseIdx_perm hPos).map _).symm
    have hGone := Holds.unmap (Holds.perm h hPerm) (n := 0) (.inl rfl)
    rw [hAlloc] at hGone
    exact hGone

/-! ## The calls on objects allocate nothing -/

namespace WinOs

@[simp] theorem setObject_vmAllocs (os : WinOs) (h : Nat) (o : KObject) : (os.setObject h o).vmAllocs = os.vmAllocs := rfl

@[simp] theorem markExited_vmAllocs (os : WinOs) (h : Nat) : (os.markExited h).vmAllocs = os.vmAllocs := by
  obtain ⟨k, hOs⟩ := os.markExited_os h
  rw [hOs]

@[simp] theorem makeObject_vmAllocs (os : WinOs) (spec : ObjectSpec) : (os.makeObject spec).1.vmAllocs = os.vmAllocs := by
  unfold makeObject
  split
  · rfl
  · cases spec.name <;> rfl

@[simp] theorem openSync_vmAllocs (os : WinOs) (name : Option Name) : (os.openSync name).1.vmAllocs = os.vmAllocs := by
  unfold openSync
  split <;> rfl

@[simp] theorem signalSync_vmAllocs (os : WinOs) (op : SignalOp) (h : Nat) (n : Int) :
    (os.signalSync op h n).1.vmAllocs = os.vmAllocs := by
  unfold signalSync
  split <;> rfl

@[simp] theorem signalEventHandle_vmAllocs (os : WinOs) (h : Nat) :
    (os.signalEventHandle h).1.vmAllocs = os.vmAllocs := by
  unfold signalEventHandle
  split <;> rfl

@[simp] theorem ntSetEvent_vmAllocs (os : WinOs) (h : Nat) : (os.ntSetEvent h).1.vmAllocs = os.vmAllocs := by
  unfold ntSetEvent
  split <;> rfl

@[simp] theorem ntCreateSemaphore_vmAllocs (os : WinOs) (name : Option Name) (initial max : Int) :
    (os.ntCreateSemaphore name initial max).1.vmAllocs = os.vmAllocs := by
  unfold ntCreateSemaphore
  split
  · rfl
  · exact os.makeObject_vmAllocs _

@[simp] theorem ntReleaseSemaphore_vmAllocs (os : WinOs) (h : Nat) (n : Int) :
    (os.ntReleaseSemaphore h n).1.vmAllocs = os.vmAllocs := by
  unfold ntReleaseSemaphore
  split
  · rfl
  · split
    · rfl
    · split <;> rfl
  · rfl

@[simp] theorem kobjectAcquire_vmAllocs (os : WinOs) (h tid : Nat) :
    (os.kobjectAcquire h tid).1.vmAllocs = os.vmAllocs := by
  unfold kobjectAcquire
  split <;> rfl

@[simp] theorem acquireAll_vmAllocs (os : WinOs) (handles : List Nat) (tid : Nat) :
    (os.acquireAll handles tid).vmAllocs = os.vmAllocs := by
  unfold acquireAll
  induction handles generalizing os with
  | nil => rfl
  | cons h hs ih => simp [ih]

@[simp] theorem acquireAny_vmAllocs (os : WinOs) (tid : Nat) (handles : List Nat) (i : Nat) :
    (os.acquireAny tid handles i).1.vmAllocs = os.vmAllocs := by
  induction handles generalizing os i with
  | nil => rfl
  | cons h hs ih =>
    have hFirst := os.kobjectAcquire_vmAllocs h tid
    unfold acquireAny
    split
    · rename_i os' hAcquire
      rwa [hAcquire] at hFirst
    · rename_i os' hAcquire
      rw [hAcquire] at hFirst
      rw [ih, hFirst]

@[simp] theorem closeHandle_vmAllocs (os : WinOs) (h : Nat) : (os.closeHandle h).1.vmAllocs = os.vmAllocs := by
  unfold closeHandle
  split <;> rfl

@[simp] theorem dupKobjectHandle_vmAllocs (os : WinOs) (h : Nat) : (os.dupKobjectHandle h).1.vmAllocs = os.vmAllocs := by
  unfold dupKobjectHandle
  split <;> rfl

@[simp] theorem markChildExited_vmAllocs (os : WinOs) (c : ChildProcess) :
    (os.markChildExited c).vmAllocs = os.vmAllocs := by
  unfold markChildExited
  dsimp only
  split <;> simp

theorem resumeChildThread_vmAllocs {os os' : WinOs} {h n : Nat} (hResume : os.resumeChildThread h = some (os', n)) :
    os'.vmAllocs = os.vmAllocs := by
  simp only [resumeChildThread, Option.bind_eq_some_iff, Option.map_eq_some_iff] at hResume
  obtain ⟨i, -, c, -, hResult⟩ := hResume
  split at hResult <;> cases hResult
  · exact markChildExited_vmAllocs _ c
  · rfl

@[simp] theorem terminateChild_vmAllocs (os : WinOs) (h : Nat) : (os.terminateChild h).1.vmAllocs = os.vmAllocs := by
  unfold terminateChild
  split
  · rfl
  · split
    · rfl
    · split
      · exact markChildExited_vmAllocs _ _
      · rfl

theorem createProcess_vmAllocs (os : WinOs) (suspended : Bool) :
    (if suspended then os.createChild.1
      else ((os.createChild.1.resumeChildThread os.createChild.2.2).map (·.1)).getD os.createChild.1).vmAllocs =
      os.vmAllocs := by
  cases suspended with
  | true => rfl
  | false =>
    cases hResume : os.createChild.1.resumeChildThread os.createChild.2.2 with
    | none => rfl
    | some r =>
      obtain ⟨os', n⟩ := r
      have hDone : os'.vmAllocs = os.createChild.1.vmAllocs := resumeChildThread_vmAllocs hResume
      exact hDone

end WinOs

theorem suspendAt_quiet (s : Sys) (i : Nat) : Quiet s { s with os := s.os.suspendAt i } := by
  refine ⟨fun _ h => h, WinOs.holdings_modThread _ _ fun t _ => ?_⟩
  dsimp only
  split
  · rename_i hOther
    simp [held, hOther.2, Sys.ownedRanges]
  · rfl

theorem resumeAt_quiet (s : Sys) (i : Nat) : Quiet s { s with os := s.os.resumeAt i } := by
  refine ⟨fun _ h => h, WinOs.holdings_modThread _ _ fun t _ => ?_⟩
  dsimp only
  split
  · split
    · rename_i hReady
      simp [held, hReady.2, Sys.ownedRanges]
    · rfl
  · rfl

/-! ## Waits -/

section
variable {s : Sys} (hAlive : Alive s.os)
include hAlive

theorem blockAndSwitch_quiet {s' : Sys} {desc : WaitDesc} (h : s.blockAndSwitch desc = some s') : Quiet s s' := by
  obtain ⟨next, hPick, rfl⟩ := Sys.blockAndSwitch_parks h
  exact park_quiet hAlive nofun hPick

theorem yieldAndSwitch_quiet {s' : Sys} (h : s.yieldAndSwitch = some s') : Quiet s s' := by
  obtain ⟨next, hPick, rfl⟩ := Option.map_eq_some_iff.mp h
  exact park_quiet hAlive nofun hPick

theorem waitMultipleBlocks_quiet (handles : List Nat) (waitAll : Bool) (timeout : Nat) :
    Quiet s (s.waitMultipleBlocks handles waitAll timeout).1 := by
  unfold Sys.waitMultipleBlocks
  split
  · exact .refl s
  · cases hBlock : s.blockAndSwitch ⟨handles, waitAll⟩ with
    | none => exact .refl s
    | some s' => exact blockAndSwitch_quiet hAlive hBlock

theorem srvSelect_quiet (handles : List Nat) (op timeout : Nat) : Quiet s (s.srvSelect handles op timeout).1 := by
  unfold Sys.srvSelect Sys.serverSelectWait
  dsimp only
  split
  · exact .refl s
  · split
    · exact .refl s
    · split
      · split
        · exact .of_same (s.os.acquireAll_same _ _) (by simp) rfl
        · exact .of_same (s.os.acquireAny_same _ _ _) (by simp) rfl
      · split
        · exact .refl s
        · cases hBlock : s.blockAndSwitch ⟨handles, op == 1⟩ with
          | none => exact .refl s
          | some s' =>
            have hDone := blockAndSwitch_quiet hAlive hBlock
            exact ⟨hDone.mem, hDone.holdings⟩

theorem waitSingle_quiet (h timeout : Nat) : Quiet s (s.waitSingle h timeout).1 := by
  have hSame := s.os.kobjectAcquire_same h s.os.currentTid
  have hAllocs := s.os.kobjectAcquire_vmAllocs h s.os.currentTid
  unfold Sys.waitSingle
  generalize s.os.kobjectAcquire h s.os.currentTid = acquired at hSame hAllocs ⊢
  obtain ⟨os, _ | _⟩ := acquired
  · dsimp only
    split
    · exact .of_same hSame hAllocs rfl
    · cases hBlock : ({ s with os := os } : Sys).blockAndSwitch ⟨[h], true⟩ with
      | none => exact .of_same hSame hAllocs rfl
      | some s' =>
        have hNow : Alive os := hAlive.congr hSame
        have hBefore : Quiet s { s with os := os } := .of_same hSame hAllocs rfl
        have hDone := hBefore.trans (blockAndSwitch_quiet hNow hBlock)
        exact hDone
  · exact .of_same hSame hAllocs rfl

theorem waitMultiple_quiet (handles : List Nat) (waitAll : Bool) (timeout : Nat) :
    Quiet s (s.waitMultiple handles waitAll timeout).1 := by
  unfold Sys.waitMultiple
  dsimp only
  split
  · split
    · exact .of_same (s.os.acquireAll_same _ _) (by simp) rfl
    · have hSame := s.os.acquireAny_same s.os.currentTid handles 0
      have hAllocs := s.os.acquireAny_vmAllocs s.os.currentTid handles 0
      generalize s.os.acquireAny s.os.currentTid handles 0 = acquired at hSame hAllocs ⊢
      obtain ⟨os, _ | i⟩ := acquired
      · have hAcquired : Quiet s { s with os := os } := .of_same hSame hAllocs rfl
        exact hAcquired.trans (waitMultipleBlocks_quiet (hAlive.congr hSame) handles waitAll timeout)
      · exact .of_same hSame hAllocs rfl
  · exact waitMultipleBlocks_quiet hAlive handles waitAll timeout

theorem ntWait_quiet (handles : List Nat) (all : Bool) (timeout : NtTimeout) :
    Quiet s (s.ntWait handles all timeout).1 := by
  unfold Sys.ntWait
  dsimp only
  split
  · split
    · exact .of_same (s.os.acquireAll_same _ _) (by simp) rfl
    · have hSame := s.os.acquireAny_same s.os.currentTid handles 0
      have hAllocs := s.os.acquireAny_vmAllocs s.os.currentTid handles 0
      generalize s.os.acquireAny s.os.currentTid handles 0 = acquired at hSame hAllocs ⊢
      obtain ⟨os, _ | i⟩ := acquired <;> exact .of_same hSame hAllocs rfl
  · split
    · exact .refl s
    · cases hBlock : ({ s with cpu := s.os.rewindSyscall s.cpu } : Sys).blockAndSwitch ⟨handles, all⟩ with
      | none =>
        dsimp only
        split <;> exact .of_same (.refl _) rfl rfl
      | some s' =>
        have hDone := blockAndSwitch_quiet (s := { s with cpu := s.os.rewindSyscall s.cpu }) hAlive hBlock
        exact ⟨hDone.mem, hDone.holdings⟩

theorem afdBlock_quiet (polled : Result Nat) : Quiet s (s.afdBlock polled).1 := by
  unfold Sys.afdBlock
  dsimp only
  cases hBlock : ({ s with cpu := s.os.rewindSyscall s.cpu } : Sys).blockAndSwitch ⟨[], true⟩ with
  | none => exact .of_same (.refl _) rfl rfl
  | some s' =>
    have hDone := blockAndSwitch_quiet (s := { s with cpu := s.os.rewindSyscall s.cpu }) hAlive hBlock
    exact ⟨hDone.mem, hDone.holdings⟩

theorem completeAndYield_quiet (after : CpuState) : Quiet s (s.completeAndYield after).1 := by
  unfold Sys.completeAndYield
  dsimp only
  cases hYield : ({ s with cpu := after } : Sys).yieldAndSwitch with
  | none => exact .of_same (.refl _) rfl rfl
  | some s' =>
    have hDone := yieldAndSwitch_quiet (s := { s with cpu := after }) hAlive hYield
    exact ⟨hDone.mem, hDone.holdings⟩

end

/-! ## A call -/

/-- The call asks for a range without bytes: its size is too close to the end of the address space. -/
def Api.empty : Api → Bool
  | .createThread reqStack _ _ _ => alignUp (maxU64 reqStack THREAD_STACK_SIZE) PAGE == 0
  | .virtualAlloc _ size _ => alignUp (maxU64 size 1) PAGE == 0
  | _ => false

def Syscall.empty : Syscall → Bool
  | .createThreadEx reqStack _ _ _ => alignUp (maxU64 reqStack THREAD_STACK_SIZE) PAGE == 0
  | .allocateVirtualMemory _ size _ _ => alignUp (maxU64 size 1) PAGE == 0
  | .mapViewOfSection _ viewSize _ => viewSize == 0
  | _ => false

def Call.empty : Call → Bool
  | .api call _ _ => call.empty
  | .syscall call _ => call.empty

theorem wineServerCall_quiet (hAlive : Alive s.os) (req : ServerReq) : Quiet s (s.wineServerCall req).1 := by
  have hBegin : Quiet s { s with os := { s.os with unixCallBlocked := false } } := ⟨fun _ h => h, rfl⟩
  have hNow : Alive ({ s with os := { s.os with unixCallBlocked := false } } : Sys).os := ⟨hAlive.current⟩
  unfold Sys.wineServerCall
  generalize ({ s with os := { s.os with unixCallBlocked := false } } : Sys) = s₁ at hBegin hNow ⊢
  cases req with
  | createEvent manual initial =>
    exact hBegin.trans (.of_same (WinOs.makeObject_same _ _) (WinOs.makeObject_vmAllocs _ _) rfl)
  | select handles op timeout => exact hBegin.trans (srvSelect_quiet hNow handles op timeout)
  | closeHandle x => exact hBegin.trans (.of_same (WinOs.closeHandle_same _ x) (WinOs.closeHandle_vmAllocs _ x) rfl)
  | dupHandle src =>
    exact hBegin.trans (.of_same (WinOs.dupKobjectHandle_same _ src) (WinOs.dupKobjectHandle_vmAllocs _ src) rfl)

theorem wineUnixCall_quiet (hAlive : Alive s.os) (req : ServerReq) : Quiet s (s.wineUnixCall req).1 := by
  have hCall := wineServerCall_quiet hAlive req
  unfold Sys.wineUnixCall
  dsimp only
  split <;> exact hCall

section
variable {s : Sys} (hAlive : Alive s.os) (h : Holding s)
include h

variable {os : WinOs}

theorem os_holding (hSame : SameThreads s.os os) (hAllocs : os.vmAllocs = s.os.vmAllocs) : Holding { s with os := os } := by
  have hQuiet : Quiet s { s with os := os } := .of_same hSame hAllocs rfl
  exact hQuiet.holding h

theorem suspended_holding (hCases : os = s.os ∨ ∃ i, os = s.os.suspendAt i) : Holding { s with os := os } := by
  obtain rfl | ⟨i, rfl⟩ := hCases
  · exact h
  · exact (suspendAt_quiet s i).holding h

theorem resumed_holding (hCases : SameThreads s.os os ∧ os.vmAllocs = s.os.vmAllocs ∨
    ∃ i, os = s.os.resumeAt i) : Holding { s with os := os } := by
  obtain ⟨hSame, hAllocs⟩ | ⟨i, rfl⟩ := hCases
  · exact os_holding h hSame hAllocs
  · exact (resumeAt_quiet s i).holding h

theorem ntResumeThread_holding (x : Nat) : Holding { s with os := (s.os.ntResumeThread x).1 } := by
  refine resumed_holding h ?_
  unfold WinOs.ntResumeThread
  cases hChild : s.os.resumeChildThread x with
  | some r => exact .inl ⟨WinOs.resumeChildThread_same (n := r.2) hChild, WinOs.resumeChildThread_vmAllocs (n := r.2) hChild⟩
  | none =>
    cases s.os.ntThreadIndex x with
    | none => exact .inl ⟨.refl _, rfl⟩
    | some i => exact .inr ⟨i, rfl⟩

include hAlive

theorem leaves_holding {i : Nat} {code code' : U32} (hLive : ∀ t, s.os.threads[i]? = some t → t.state ≠ .Terminated) :
    Holding ((s.endThread i code).leaveTo code').1 :=
  leaveTo_holding (endThread_holding code h hLive) (endThread_length s i code hAlive.length)

theorem terminateThread_holding (x : Nat) (code : U32)
    (hLive : ∀ i t, s.os.threadByHandle x = some i → s.os.threads[i]? = some t → t.state ≠ .Terminated) :
    Holding (s.terminateThread x code).1 := by
  unfold Sys.terminateThread
  cases hIndex : s.os.threadByHandle x with
  | none => exact h
  | some i =>
    have hThread := fun t ht => hLive i t hIndex ht
    dsimp only
    split
    · exact leaves_holding hAlive h hThread
    · exact endThread_holding code h hThread

theorem callApi_holding (granted : U64 → Bool) (after : CpuState) (call : Api) (hEmpty : call.empty = false)
    (hEnds : ∀ i t, call.ends s.os = some i → s.os.threads[i]? = some t → t.state ≠ .Terminated) :
    Holding (s.callApi granted after call).1 := by
  cases call with
  | createThread reqStack entry param flags =>
    have hDone : Holding (s.spawnThread granted reqStack entry param (flags &&& CREATE_SUSPENDED != 0)).1 :=
      spawnThread_holding h (by simpa [Api.empty] using hEmpty)
    change Holding (Sys.spawnedApi _).1
    unfold Sys.spawnedApi
    split <;> (rename_i hSpawn; rw [hSpawn] at hDone; exact hDone)
  | exitThread code => exact leaves_holding hAlive h fun t ht => hEnds _ t rfl ht
  | threadExit => exact leaves_holding hAlive h fun t ht => hEnds _ t rfl ht
  | terminateThread x code => exact terminateThread_holding hAlive h x code hEnds
  | resumeThread x =>
    refine resumed_holding h ?_
    rcases s.os.resumeThread_cases x with hSame | hResumed
    · left
      rw [hSame]
      exact ⟨.refl _, rfl⟩
    · exact .inr hResumed
  | suspendThread x =>
    exact suspended_holding h ((s.os.suspendThread_cases x).imp_right fun ⟨i, _, hSuspended⟩ => ⟨i, hSuspended⟩)
  | sleep => exact (completeAndYield_quiet hAlive after).holding h
  | switchToThread => exact (completeAndYield_quiet hAlive after).holding h
  | createSync spec =>
    have hStart : SameThreads s.os { s.os with lastError := 0 } := ⟨rfl, rfl, rfl, rfl, rfl, le_rfl⟩
    exact os_holding h (hStart.trans (WinOs.makeObject_same _ spec)) (WinOs.makeObject_vmAllocs _ spec)
  | openSync name => exact os_holding h (s.os.openSync_same name) (s.os.openSync_vmAllocs name)
  | signalSync op x n => exact os_holding h (s.os.signalSync_same op x n) (s.os.signalSync_vmAllocs op x n)
  | signalEvent x => exact os_holding h (s.os.signalEventHandle_same x) (s.os.signalEventHandle_vmAllocs x)
  | waitSingle x timeout => exact (waitSingle_quiet hAlive x timeout).holding h
  | waitMultiple handles waitAll timeout => exact (waitMultiple_quiet hAlive handles waitAll timeout).holding h
  | closeHandle x => exact os_holding h (s.os.closeHandle_same x) (s.os.closeHandle_vmAllocs x)
  | wineUnixCall req => exact (wineUnixCall_quiet hAlive req).holding h
  | virtualAlloc addr size committed =>
    exact vmAllocRegionBelow_holding h (by simpa [Api.empty] using hEmpty)
  | virtualFree addr => exact vmRelease_holding h
  | createProcess suspended =>
    exact os_holding h (s.os.createProcess_same suspended) (s.os.createProcess_vmAllocs suspended)

theorem ntTerminateThread_holding (x : Nat) (code : U32)
    (hLive : ∀ i t, s.os.ntThreadIndex x = some i → s.os.threads[i]? = some t → t.state ≠ .Terminated) :
    Holding (s.ntTerminateThread x code).1 := by
  unfold Sys.ntTerminateThread
  cases hIndex : s.os.ntThreadIndex x with
  | none => exact h
  | some i =>
    have hEnded := endThread_holding code h fun t ht => hLive i t hIndex ht
    dsimp only
    split
    · have hLength := endThread_length s i code hAlive.length
      split
      · rename_i next hPick
        obtain ⟨-, t, hGet, hReady⟩ := WinOs.pickNext_get hLength hPick
        have hResume : Holding { s.endThread i code with
            os := { (s.endThread i code).os with syscallResumeAsIs := true } } := hEnded
        refine (activate_quiet (s := { s.endThread i code with
          os := { (s.endThread i code).os with syscallResumeAsIs := true } }) hGet ?_).holding hResume
        rcases hReady with hs | hs <;> rw [hs] <;> nofun
      · exact hEnded
    · exact hEnded

theorem ntHandler_holding (granted : U64 → Bool) (call : Syscall) (hEmpty : call.empty = false)
    (hEnds : ∀ i t, call.ends s.os = some i → s.os.threads[i]? = some t → t.state ≠ .Terminated) :
    Holding (Sys.ntHandler granted call s).1 := by
  cases call with
  | createThreadEx reqStack entry param suspended =>
    have hSize : alignUp (maxU64 reqStack THREAD_STACK_SIZE) PAGE ≠ 0 := by simpa [Syscall.empty] using hEmpty
    have hDone : ∀ r : Sys × Result (Option (Nat × Nat)), Holding r.1 → Holding (Sys.spawnedStatus r).1 := by
      rintro ⟨s', e | _ | spawned⟩ hr <;> exact hr
    unfold Sys.ntHandler
    dsimp only
    split
    · exact hDone _ (spawnWow64Thread_holding h hSize)
    · exact hDone _ (spawnThread_holding h hSize)
  | terminateThread x code => exact ntTerminateThread_holding hAlive h x code hEnds
  | suspendThread x =>
    exact suspended_holding h ((s.os.ntSuspendThread_cases x).imp_right fun ⟨i, _, hSuspended⟩ => ⟨i, hSuspended⟩)
  | resumeThread x => exact ntResumeThread_holding h x
  | createEvent name manual initial => exact os_holding h (s.os.makeObject_same _) (s.os.makeObject_vmAllocs _)
  | openEvent name => exact h
  | setEvent x => exact os_holding h (s.os.ntSetEvent_same x) (s.os.ntSetEvent_vmAllocs x)
  | createMutant name owned => exact os_holding h (s.os.makeObject_same _) (s.os.makeObject_vmAllocs _)
  | createSemaphore name initial max =>
    exact os_holding h (s.os.ntCreateSemaphore_same name initial max) (s.os.ntCreateSemaphore_vmAllocs name initial max)
  | releaseSemaphore x n => exact os_holding h (s.os.ntReleaseSemaphore_same x n) (s.os.ntReleaseSemaphore_vmAllocs x n)
  | waitForSingleObject x timeout =>
    unfold Sys.ntHandler Sys.ntWaitForSingleObject
    dsimp only
    split
    · exact h
    · exact (ntWait_quiet hAlive [x] false timeout).holding h
  | waitForMultipleObjects handles waitType timeout =>
    unfold Sys.ntHandler Sys.ntWaitForMultipleObjects
    dsimp only
    split
    · exact h
    · split
      · exact h
      · split
        · exact h
        · exact (ntWait_quiet hAlive handles _ timeout).holding h
  | deviceIoControlFile polled => exact (afdBlock_quiet hAlive polled).holding h
  | close x =>
    unfold Sys.ntHandler
    dsimp only
    split
    · exact h
    · exact os_holding h (s.os.closeHandle_same x) (s.os.closeHandle_vmAllocs x)
  | allocateVirtualMemory addr size committed maxAddr =>
    exact vmAllocRegionBelow_holding h (by simpa [Syscall.empty] using hEmpty)
  | freeVirtualMemory addr => exact vmRelease_holding h
  | mapViewOfSection reqBase viewSize low => exact mapView_holding h (by simpa [Syscall.empty] using hEmpty)
  | unmapViewOfSection base =>
    unfold Sys.ntHandler
    dsimp only
    split
    · exact vmRelease_holding h
    · exact h
  | createUserProcess => exact os_holding h s.os.createChild_same rfl
  | terminateProcess x code =>
    unfold Sys.ntHandler
    dsimp only
    split
    · exact h
    · exact os_holding h (s.os.terminateChild_same x) (s.os.terminateChild_vmAllocs x)

end

/-! ## A turn -/

theorem saveContext_quiet (s : Sys) : Quiet s s.saveContext.1 := by
  unfold Sys.saveContext
  split
  · exact .refl s
  · rename_i base _
    have hSeed := seed_quiet s ((HostContext.capture s.cpu).fields base)
    split <;> (rename_i hDone; rw [hDone] at hSeed; exact hSeed)

theorem enterSyscall_quiet (s : Sys) (granted : U64 → Bool) : Quiet s (s.enterSyscall granted).1 := by
  constructor
  · intro rs h
    unfold Sys.enterSyscall
    dsimp only
    have hSave := saveContext_quiet { s with
      os := { s.os with
        syscallGuestRsp := s.cpu.rsp
        syscallResumeAsIs := false
        pendingSyscallExit := none
        syscallResult64 := none }
      cpu := { s.cpu with rflags := s.cpu.rflags &&& ~~~flags.DF } }
    split
    · rename_i s₁ e hDone
      rw [hDone] at hSave
      exact hSave.mem rs h
    · rename_i s₁ saved hDone
      rw [hDone] at hSave
      have hKept := hSave.mem rs h
      obtain ⟨-, -, hMem⟩ := ensureUnixStack_spec s₁ granted
      generalize s₁.ensureUnixStack granted = stack at hMem ⊢
      have hStack : Holds stack.1.mem rs := by
        rcases hMem with hSame | ⟨region, bytes, hInsert⟩
        · rw [hSame]
          exact hKept
        · exact hKept.insert hInsert
      split <;> exact hStack
  · obtain ⟨next, top, hOs⟩ := s.enterSyscall_os granted
    rw [hOs]
    rfl

theorem leaveSyscall_quiet (s : Sys) (saved : SavedContext) (status : Nat) :
    Quiet s (s.leaveSyscall saved status).1 := by
  unfold Sys.leaveSyscall
  split
  · exact ⟨fun _ h => h, rfl⟩
  · split
    · exact .refl s
    · split <;> exact ⟨fun _ h => h, rfl⟩

theorem writeBack_quiet (writes : List Field) (r : Sys × Result Nat) : Quiet r.1 (Sys.writeBack writes r).1 := by
  obtain ⟨s, e | status⟩ := r
  · exact .refl s
  · unfold Sys.writeBack
    dsimp only
    split
    · exact .refl s
    · have hSeed := seed_quiet s writes
      split <;> (rename_i hDone; rw [hDone] at hSeed; exact hSeed)

theorem preemptBy_quiet (hAlive : Alive s.os) (n : Nat) : Quiet s (s.preemptBy n).1 := by
  rcases s.preemptBy_spec n with ⟨ticks, hStay⟩ | ⟨next, hPick, hSwitch⟩
  · rw [hStay]
    exact ⟨fun _ h => h, rfl⟩
  · rw [hSwitch]
    have hNow : Alive ({ s with os := { s.os with schedTicks := 0 } } : Sys).os := ⟨hAlive.current⟩
    have hTicks : Quiet s { s with os := { s.os with schedTicks := 0 } } := ⟨fun _ h => h, rfl⟩
    exact hTicks.trans (park_quiet hNow nofun hPick)

namespace Process

variable {p : Process} {t : Turn}

theorem settle_holding (p : Process) {s : Sys} (h : Holding s) : Holding (p.settle s).sys := h

theorem goOn_holding (p : Process) {s : Sys} (h : Holding s) (after : CpuState) (mode32 : Bool) :
    Holding (p.goOn s after mode32).sys := h

theorem finishApi_holding {r : Sys × Outcome} (h : Holding r.1) (writes : List Field) (after : CpuState) (mode32 : Bool) :
    Holding (p.finishApi writes after mode32 r).sys := by
  obtain ⟨s, value | code | _⟩ := r
  · exact p.goOn_holding ((seed_quiet s writes).holding h) after mode32
  · exact p.settle_holding h
  · exact p.settle_holding h

theorem finishSyscall_holding {r : Sys × Result Exit} (h : Holding r.1) (after : CpuState) (mode32 : Bool) :
    Holding (p.finishSyscall after mode32 r).sys := by
  obtain ⟨s, e | exit⟩ := r
  · exact p.goOn_holding h after mode32
  · cases exit <;> exact p.settle_holding h

/-- What the conditions of the run say of a turn: its call takes a range with bytes in it, ends only a
thread that has not ended, and leaves a thread that can run. -/
def Tidy (p : Process) (t : Turn) : Prop :=
  ∀ s c, p.calls t = some (s, c) → c.strands s = false ∧ c.empty = false ∧
    ∀ (i : Nat) (u : Thread), c.ends s.os = some i → s.os.threads[i]? = some u → u.state ≠ .Terminated

section
variable (hAlive : Alive p.sys.os) (h : Holding p.sys)
include hAlive h

theorem tick_holding {s : Sys} {ended : Bool} (hTick : p.top.preemptBy 1 = (s, ended)) : Holding s := by
  have hTop : Holding p.top := h
  have hTicked := (preemptBy_quiet (s := p.top) ⟨hAlive.current⟩ 1).holding hTop
  rwa [hTick] at hTicked

theorem calls_holding {s : Sys} {c : Call} (hCalls : p.calls t = some (s, c)) : Holding s := by
  unfold calls at hCalls
  split at hCalls
  · cases hCalls
  · cases t with
    | native cpu stores n => cases hCalls
    | instruction cpu stores mode32 => cases hCalls
    | modules hasTls => cases hCalls
    | api call granted writes after mode32 =>
      dsimp only at hCalls
      split at hCalls
      · cases hCalls
      · rename_i s' hTick
        cases hCalls
        exact tick_holding hAlive h hTick
    | «syscall» call granted writes after mode32 =>
      dsimp only at hCalls
      split at hCalls
      · cases hCalls
      · rename_i s' hTick
        have hEntered := (enterSyscall_quiet s' granted).holding (tick_holding hAlive h hTick)
        split at hCalls
        · cases hCalls
        · rename_i s₁ saved hEnter
          cases hCalls
          rwa [hEnter] at hEntered

theorem makes_holding {s : Sys} {c : Call} (hCalls : p.calls t = some (s, c)) (hTidy : Tidy p t) :
    Holding (c.makes s) := by
  obtain ⟨-, hEmpty, hEnds⟩ := hTidy s c hCalls
  have hHere := calls_holding hAlive h hCalls
  have hTop : Alive p.top.os := ⟨hAlive.current⟩
  have hNow : Alive s.os := by
    cases (calls_made hCalls).2 with
    | api call granted writes after mode32 s hTurn hFrames hCpu hMem hResult =>
      exact hTop.congr hFrames.threads
    | «syscall» call granted writes after mode32 s₀ s saved hTurn hFrames hCpu hMem hEnter hResult =>
      have hEntered := hFrames.trans (s₀.enterSyscall_frames granted)
      rw [hEnter] at hEntered
      exact hTop.congr hEntered.threads
  cases c with
  | api call granted after => exact callApi_holding hNow hHere granted after call hEmpty hEnds
  | «syscall» call granted => exact ntHandler_holding hNow hHere granted call hEmpty hEnds

theorem turn_holding (hTidy : Tidy p t) : Holding (p.turn t).sys := by
  cases hCalls : p.calls t with
  | some sc =>
    obtain ⟨s, c⟩ := sc
    have hMade := makes_holding hAlive h hCalls hTidy
    cases (calls_made hCalls).2 with
    | api call granted writes after mode32 s hTurn hFrames hCpu hMem hResult =>
      rw [hResult]
      exact finishApi_holding hMade writes after mode32
    | «syscall» call granted writes after mode32 s₀ s saved hTurn hFrames hCpu hMem hEnter hResult =>
      rw [hResult]
      refine finishSyscall_holding ?_ after mode32
      have hWritten := (writeBack_quiet writes (Sys.ntHandler granted call s)).holding hMade
      generalize Sys.writeBack writes (Sys.ntHandler granted call s) = r at hWritten ⊢
      obtain ⟨s', e | status⟩ := r
      · exact hWritten
      · exact (leaveSyscall_quiet s' saved status).holding hWritten
  | none =>
    unfold turn
    split
    · exact h
    · rename_i hLive
      cases t with
      | native cpu stores n =>
        have hStored : Holding { p.top with cpu := cpu, mem := applyStores p.sys.mem stores } :=
          applyStores_holds stores h
        have hNow : Alive ({ p.top with cpu := cpu, mem := applyStores p.sys.mem stores } : Sys).os := ⟨hAlive.current⟩
        exact p.settle_holding ((preemptBy_quiet hNow n).holding hStored)
      | instruction cpu stores mode32 =>
        dsimp only [ticked]
        split
        · rename_i s hTick
          exact p.settle_holding (tick_holding hAlive h hTick)
        · rename_i s hTick
          have hStored : Holding { s with mem := applyStores s.mem stores } :=
            applyStores_holds stores (tick_holding hAlive h hTick)
          exact p.goOn_holding hStored cpu mode32
      | api call granted writes after mode32 =>
        dsimp only [ticked]
        split
        · rename_i s hTick
          exact p.settle_holding (tick_holding hAlive h hTick)
        · rename_i s hTick
          simp [calls, hLive, hTick] at hCalls
      | «syscall» call granted writes after mode32 =>
        dsimp only [ticked]
        split
        · rename_i s hTick
          exact p.settle_holding (tick_holding hAlive h hTick)
        · rename_i s hTick
          have hEntered := (enterSyscall_quiet s granted).holding (tick_holding hAlive h hTick)
          unfold Sys.dispatchSyscall
          split
          · rename_i s' e hEnter
            rw [hEnter] at hEntered
            exact p.goOn_holding hEntered after mode32
          · rename_i s' saved hEnter
            simp [calls, hLive, hTick, hEnter] at hCalls
      | modules hasTls => exact p.settle_holding h

end

end Process

end Exemu.Os
