import Exemu.Core.Memory
import Mathlib.Data.List.Basic

/-! # Thread local and fiber local storage

One bitmap of handed out indices for each kind of slot, and in each thread a map of the values it
stored.
-/
namespace Exemu.Os

structure TlsThread where
  tls : Nat → Option U64 := fun _ => none
  fls : Nat → Option U64 := fun _ => none

namespace TlsThread

def tlsValues (self : TlsThread) (fiber : Bool) : Nat → Option U64 := if fiber then self.fls else self.tls

def modTlsValues (self : TlsThread) (fiber : Bool) (f : (Nat → Option U64) → Nat → Option U64) : TlsThread :=
  if fiber then { self with fls := f self.fls } else { self with tls := f self.tls }

variable (t : TlsThread) (f : (Nat → Option U64) → Nat → Option U64)

@[simp] theorem tlsValues_mod (fiber : Bool) : (t.modTlsValues fiber f).tlsValues fiber = f (t.tlsValues fiber) := by
  cases fiber <;> rfl

@[simp] theorem tlsValues_mod_other {fiber fiber' : Bool} (h : fiber' ≠ fiber) :
    (t.modTlsValues fiber f).tlsValues fiber' = t.tlsValues fiber' := by
  cases fiber <;> cases fiber' <;> first | rfl | exact absurd rfl h

end TlsThread

structure TlsOs where
  tlsAlloc : List Bool
  flsAlloc : List Bool
  threads : List TlsThread
  current : Nat

inductive TlsCall where
  | TlsAlloc (fiber : Bool)
  | TlsSetValue (fiber : Bool) (index : Nat) (value : U64)
  | TlsGetValue (fiber : Bool) (index : Nat)
  | TlsFree (fiber : Bool) (index : Nat)
  /-- the scheduler goes on with another thread of the table -/
  | switch (next : Nat)
  /-- a thread is created -/
  | spawn
deriving DecidableEq

def TlsCall.fiber : TlsCall → Option Bool
  | .TlsAlloc fiber => some fiber
  | .TlsSetValue fiber _ _ => some fiber
  | .TlsGetValue fiber _ => some fiber
  | .TlsFree fiber _ => some fiber
  | .switch _ => none
  | .spawn => none

inductive TlsAnswer where
  | index (i : Nat)
  | value (v : U64)
  | done
deriving DecidableEq

namespace TlsOs

def new : TlsOs := { tlsAlloc := [], flsAlloc := [], threads := [{}], current := 0 }

def tlsAllocMap (self : TlsOs) (fiber : Bool) : List Bool := if fiber then self.flsAlloc else self.tlsAlloc

def setAllocMap (self : TlsOs) (fiber : Bool) (map : List Bool) : TlsOs :=
  if fiber then { self with flsAlloc := map } else { self with tlsAlloc := map }

/-- `for t in &mut self.threads { t.tls_values(fiber).remove(&index) }` -/
def sweep (self : TlsOs) (fiber : Bool) (index : Nat) : TlsOs :=
  { self with threads := self.threads.map fun t => t.modTlsValues fiber fun vs i => if i = index then none else vs i }

def allocate (self : TlsOs) (fiber : Bool) : TlsOs × Nat :=
  let map := self.tlsAllocMap fiber
  let idx := map.findIdx fun used => !used
  let map := if idx < map.length then map else map ++ [false]
  ((self.setAllocMap fiber (map.set idx true)).sweep fiber idx, idx)

def tlsSet (self : TlsOs) (fiber : Bool) (index : Nat) (value : U64) : TlsOs :=
  { self with threads := self.threads.modify self.current fun t =>
      t.modTlsValues fiber fun vs i => if i = index then some value else vs i }

def tlsGet (self : TlsOs) (fiber : Bool) (index : Nat) : U64 :=
  ((self.threads[self.current]?).bind fun t => t.tlsValues fiber index).getD 0

def tlsFree (self : TlsOs) (fiber : Bool) (index : Nat) : TlsOs :=
  (self.setAllocMap fiber ((self.tlsAllocMap fiber).set index false)).sweep fiber index

def step (self : TlsOs) : TlsCall → TlsOs × TlsAnswer
  | .TlsAlloc fiber => ((self.allocate fiber).1, .index (self.allocate fiber).2)
  | .TlsSetValue fiber index value => (self.tlsSet fiber index value, .done)
  | .TlsGetValue fiber index => (self, .value (self.tlsGet fiber index))
  | .TlsFree fiber index => (self.tlsFree fiber index, .done)
  | .switch next => ({ self with current := if next < self.threads.length then next else self.current }, .done)
  | .spawn => ({ self with threads := self.threads ++ [{}] }, .done)

end TlsOs

/-! ## What a history says of an index -/

structure TlsEvent where
  thread : Nat
  call : TlsCall
  answer : TlsAnswer

namespace TlsEvent

def allocates (e : TlsEvent) (fiber : Bool) (i : Nat) : Bool := e.call == .TlsAlloc fiber && e.answer == .index i

def frees (e : TlsEvent) (fiber : Bool) (i : Nat) : Bool := e.call == .TlsFree fiber i

def stores (e : TlsEvent) (t : Nat) (fiber : Bool) (i : Nat) : Option U64 :=
  match e.call with
  | .TlsSetValue f j v => if e.thread = t ∧ f = fiber ∧ j = i then some v else none
  | _ => none

end TlsEvent

abbrev TlsHistory := List TlsEvent

namespace TlsHistory

def allocated (fiber : Bool) (i : Nat) : TlsHistory → Bool
  | [] => false
  | e :: h => if e.allocates fiber i then true else if e.frees fiber i then false else allocated fiber i h

def lastStored (t : Nat) (fiber : Bool) (i : Nat) : TlsHistory → U64
  | [] => 0
  | e :: h => if e.allocates fiber i then 0 else (e.stores t fiber i).getD (lastStored t fiber i h)

def held (t : Nat) (fiber : Bool) (i : Nat) : TlsHistory → U64
  | [] => 0
  | e :: h => if e.allocates fiber i || e.frees fiber i then 0 else (e.stores t fiber i).getD (held t fiber i h)

theorem held_eq_lastStored (t : Nat) {fiber : Bool} {i : Nat} {h : TlsHistory} (hLive : allocated fiber i h = true) :
    held t fiber i h = lastStored t fiber i h := by
  induction h with
  | nil => rfl
  | cons e h ih =>
    unfold allocated at hLive
    unfold held lastStored
    cases hAlloc : e.allocates fiber i with
    | true => rfl
    | false =>
      rw [hAlloc] at hLive
      cases hFree : e.frees fiber i with
      | true =>
        rw [hFree] at hLive
        cases hLive
      | false =>
        rw [hFree] at hLive
        simp [ih hLive]

end TlsHistory

namespace TlsOs

def record (r : TlsOs × TlsHistory) (c : TlsCall) : TlsOs × TlsHistory :=
  ((r.1.step c).1, ⟨r.1.current, c, (r.1.step c).2⟩ :: r.2)

def run (calls : List TlsCall) : TlsOs × TlsHistory := calls.foldl record (new, [])

/-! ## One call -/

variable {s s' : TlsOs} {fiber fiber' : Bool} {i j t : Nat} {v : U64}

def used (s : TlsOs) (fiber : Bool) (i : Nat) : Bool := (s.tlsAllocMap fiber).getD i false

def value (s : TlsOs) (t : Nat) (fiber : Bool) (i : Nat) : U64 := ((s.threads[t]?).bind fun t => t.tlsValues fiber i).getD 0

@[simp] theorem tlsAllocMap_set (s : TlsOs) (fiber : Bool) (map : List Bool) :
    (s.setAllocMap fiber map).tlsAllocMap fiber = map := by
  cases fiber <;> rfl

@[simp] theorem tlsAllocMap_set_other (s : TlsOs) (h : fiber' ≠ fiber) (map : List Bool) :
    (s.setAllocMap fiber map).tlsAllocMap fiber' = s.tlsAllocMap fiber' := by
  cases fiber <;> cases fiber' <;> first | rfl | exact absurd rfl h

@[simp] theorem threads_setAllocMap (s : TlsOs) (fiber : Bool) (map : List Bool) :
    (s.setAllocMap fiber map).threads = s.threads := by
  cases fiber <;> rfl

@[simp] theorem current_setAllocMap (s : TlsOs) (fiber : Bool) (map : List Bool) :
    (s.setAllocMap fiber map).current = s.current := by
  cases fiber <;> rfl

@[simp] theorem tlsAllocMap_sweep (s : TlsOs) (fiber fiber' : Bool) (i : Nat) :
    (s.sweep fiber i).tlsAllocMap fiber' = s.tlsAllocMap fiber' := rfl

theorem value_sweep (s : TlsOs) (t : Nat) (fiber fiber' : Bool) (i j : Nat) :
    (s.sweep fiber i).value t fiber' j = if fiber' = fiber ∧ j = i then 0 else s.value t fiber' j := by
  unfold value sweep
  dsimp only
  rw [List.getElem?_map]
  cases s.threads[t]? with
  | none => simp
  | some x =>
    by_cases hKind : fiber' = fiber
    · subst hKind
      by_cases hIndex : j = i <;> simp [hIndex]
    · simp [hKind]

theorem value_setAllocMap (s : TlsOs) (map : List Bool) : (s.setAllocMap fiber map).value t fiber' j = s.value t fiber' j := by
  unfold value
  rw [threads_setAllocMap]

theorem value_tlsSet (hCurrent : s.current < s.threads.length) : (s.tlsSet fiber i v).value t fiber' j =
    if t = s.current ∧ fiber' = fiber ∧ j = i then v else s.value t fiber' j := by
  unfold value tlsSet
  dsimp only
  rw [List.getElem?_modify]
  by_cases hHere : s.current = t
  · subst hHere
    rw [List.getElem?_eq_getElem hCurrent]
    by_cases hKind : fiber' = fiber
    · subst hKind
      by_cases hIndex : j = i <;> simp [hIndex]
    · simp [hKind]
  · rw [if_neg fun h => hHere h.1.symm]
    cases s.threads[t]? <;> simp [hHere]

theorem used_of_map {map : List Bool} (hMap : s.tlsAllocMap fiber = map) : s.used fiber j = map.getD j false := by
  rw [← hMap]
  rfl

theorem getD_mark (map : List Bool) {idx : Nat} (hMost : idx ≤ map.length) (j : Nat) :
    ((if idx < map.length then map else map ++ [false]).set idx true).getD j false =
      (decide (j = idx) || map.getD j false) := by
  simp only [List.getD_eq_getElem?_getD, List.getElem?_set]
  by_cases hHere : idx = j
  · subst hHere
    have hIn : idx < (if idx < map.length then map else map ++ [false]).length := by
      split
      · assumption
      · simp only [List.length_append, List.length_singleton]
        omega
    simp [hIn]
  · rw [if_neg hHere, decide_eq_false (fun h => hHere h.symm), Bool.false_or]
    split
    · rfl
    · rw [List.getElem?_append]
      split
      · rfl
      · rw [List.getElem?_eq_none (by omega : map.length ≤ j), List.getElem?_eq_none (by simp; omega)]

theorem allocate_spec (s : TlsOs) (fiber : Bool) :
    s.used fiber (s.allocate fiber).2 = false ∧
    (∀ fiber' j, (s.allocate fiber).1.used fiber' j =
      (decide (fiber' = fiber ∧ j = (s.allocate fiber).2) || s.used fiber' j)) ∧
    (∀ t fiber' j, (s.allocate fiber).1.value t fiber' j =
      if fiber' = fiber ∧ j = (s.allocate fiber).2 then 0 else s.value t fiber' j) := by
  have hFree : s.used fiber (s.allocate fiber).2 = false := by
    change (s.tlsAllocMap fiber).getD ((s.tlsAllocMap fiber).findIdx fun used => !used) false = false
    generalize s.tlsAllocMap fiber = map
    rcases Nat.lt_or_ge (map.findIdx fun used => !used) map.length with hIn | hOut
    · have hFound := List.findIdx_getElem (w := hIn)
      rw [List.getD_eq_getElem?_getD, List.getElem?_eq_getElem hIn]
      simpa using hFound
    · rw [List.getD_eq_getElem?_getD, List.getElem?_eq_none hOut]
      rfl
  refine ⟨hFree, fun fiber' j => ?_, fun t fiber' j => ?_⟩
  · by_cases hKind : fiber' = fiber
    · subst hKind
      have hMap : (s.allocate fiber').1.tlsAllocMap fiber' = _ := tlsAllocMap_set s fiber' _
      rw [used_of_map hMap, getD_mark _ List.findIdx_le_length]
      simp only [true_and]
      rfl
    · have hMap : (s.allocate fiber).1.tlsAllocMap fiber' = s.tlsAllocMap fiber' := by
        unfold allocate
        dsimp only
        rw [tlsAllocMap_sweep, tlsAllocMap_set_other s hKind]
      rw [used_of_map hMap]
      simp [hKind, used]
  · unfold allocate
    dsimp only
    rw [value_sweep, value_setAllocMap]

theorem used_tlsFree (s : TlsOs) (fiber fiber' : Bool) (i j : Nat) :
    (s.tlsFree fiber i).used fiber' j = (s.used fiber' j && !decide (fiber' = fiber ∧ j = i)) := by
  by_cases hKind : fiber' = fiber
  · subst hKind
    unfold used tlsFree
    rw [tlsAllocMap_sweep, tlsAllocMap_set, List.getD_eq_getElem?_getD, List.getD_eq_getElem?_getD, List.getElem?_set]
    by_cases hIndex : i = j
    · subst hIndex
      by_cases hIn : i < (s.tlsAllocMap fiber').length <;> simp [hIn]
    · simp [hIndex, show ¬j = i from fun h => hIndex h.symm]
  · have hMap : (s.tlsFree fiber i).tlsAllocMap fiber' = s.tlsAllocMap fiber' := by
      unfold tlsFree
      rw [tlsAllocMap_sweep, tlsAllocMap_set_other s hKind]
    rw [used_of_map hMap]
    simp [hKind, used]

theorem value_tlsFree (s : TlsOs) (t : Nat) (fiber fiber' : Bool) (i j : Nat) :
    (s.tlsFree fiber i).value t fiber' j = if fiber' = fiber ∧ j = i then 0 else s.value t fiber' j := by
  unfold tlsFree
  rw [value_sweep, value_setAllocMap]

/-! ## Runs -/

open TlsHistory

structure Agrees (r : TlsOs × TlsHistory) : Prop where
  current : r.1.current < r.1.threads.length
  used : ∀ fiber i, r.1.used fiber i = allocated fiber i r.2
  value : ∀ t fiber i, r.1.value t fiber i = held t fiber i r.2

theorem agrees_new : Agrees (new, []) where
  current := Nat.zero_lt_one
  used fiber i := by cases fiber <;> rfl
  value t fiber i := by
    cases t with
    | zero => cases fiber <;> rfl
    | succ t => rfl

theorem step_current (h : s.current < s.threads.length) (c : TlsCall) : (s.step c).1.current < (s.step c).1.threads.length := by
  cases c with
  | TlsAlloc fiber =>
    unfold step allocate sweep
    simpa using h
  | TlsSetValue fiber index value =>
    unfold step tlsSet
    simpa using h
  | TlsGetValue fiber index => exact h
  | TlsFree fiber index =>
    unfold step tlsFree sweep
    simpa using h
  | switch next =>
    unfold step
    dsimp only
    split <;> assumption
  | spawn =>
    unfold step
    simp only [List.length_append, List.length_singleton]
    omega

theorem value_spawn (s : TlsOs) (t : Nat) (fiber : Bool) (i : Nat) :
    (s.step .spawn).1.value t fiber i = s.value t fiber i := by
  unfold value step
  dsimp only
  rw [List.getElem?_append]
  split
  · rfl
  · rename_i hOut
    rw [List.getElem?_eq_none (by omega : s.threads.length ≤ t)]
    cases t - s.threads.length with
    | zero => cases fiber <;> rfl
    | succ k => rfl

theorem step_used (s : TlsOs) (c : TlsCall) (fiber : Bool) (i : Nat) :
    (s.step c).1.used fiber i = if (⟨s.current, c, (s.step c).2⟩ : TlsEvent).allocates fiber i then true
      else if (⟨s.current, c, (s.step c).2⟩ : TlsEvent).frees fiber i then false else s.used fiber i := by
  unfold TlsEvent.allocates TlsEvent.frees
  cases c with
  | TlsAlloc fiber' =>
    change (s.allocate fiber').1.used fiber i = _
    rw [(allocate_spec s fiber').2.1]
    unfold step
    by_cases hKind : fiber = fiber'
    · subst hKind
      by_cases hIndex : i = (s.allocate fiber).2
      · simp [← hIndex]
      · simp [hIndex, Ne.symm hIndex]
    · simp [hKind, Ne.symm hKind]
  | TlsFree fiber' index =>
    change (s.tlsFree fiber' index).used fiber i = _
    rw [used_tlsFree]
    by_cases hKind : fiber = fiber'
    · subst hKind
      by_cases hIndex : i = index
      · simp [hIndex]
      · simp [hIndex, Ne.symm hIndex]
    · simp [hKind, Ne.symm hKind]
  | TlsSetValue fiber' index value => rfl
  | TlsGetValue fiber' index => rfl
  | switch next => rfl
  | spawn => rfl

theorem step_value (hCurrent : s.current < s.threads.length) (c : TlsCall) (t : Nat) (fiber : Bool) (i : Nat) :
    (s.step c).1.value t fiber i =
      if (⟨s.current, c, (s.step c).2⟩ : TlsEvent).allocates fiber i ||
        (⟨s.current, c, (s.step c).2⟩ : TlsEvent).frees fiber i then 0
      else ((⟨s.current, c, (s.step c).2⟩ : TlsEvent).stores t fiber i).getD (s.value t fiber i) := by
  unfold TlsEvent.allocates TlsEvent.frees TlsEvent.stores
  cases c with
  | TlsAlloc fiber' =>
    change (s.allocate fiber').1.value t fiber i = _
    rw [(allocate_spec s fiber').2.2]
    unfold step
    by_cases hKind : fiber = fiber'
    · subst hKind
      by_cases hIndex : i = (s.allocate fiber).2
      · simp [← hIndex]
      · simp [hIndex, Ne.symm hIndex]
    · simp [hKind, Ne.symm hKind]
  | TlsFree fiber' index =>
    change (s.tlsFree fiber' index).value t fiber i = _
    rw [value_tlsFree]
    by_cases hKind : fiber = fiber'
    · subst hKind
      by_cases hIndex : i = index
      · simp [hIndex]
      · simp [hIndex, Ne.symm hIndex]
    · simp [hKind, Ne.symm hKind]
  | TlsSetValue fiber' index v =>
    change (s.tlsSet fiber' index v).value t fiber i = _
    rw [value_tlsSet hCurrent]
    by_cases hHere : t = s.current ∧ fiber = fiber' ∧ i = index
    · obtain ⟨rfl, rfl, rfl⟩ := hHere
      simp
    · have hNot : ¬(s.current = t ∧ fiber' = fiber ∧ index = i) := fun h => hHere ⟨h.1.symm, h.2.1.symm, h.2.2.symm⟩
      rw [if_neg hHere]
      change s.value t fiber i =
        (if s.current = t ∧ fiber' = fiber ∧ index = i then some v else none).getD (s.value t fiber i)
      rw [if_neg hNot]
      rfl
  | TlsGetValue fiber' index => rfl
  | switch next => rfl
  | spawn => exact value_spawn s t fiber i

theorem record_agrees {r : TlsOs × TlsHistory} (h : Agrees r) (c : TlsCall) : Agrees (record r c) where
  current := step_current h.current c
  used fiber i := by
    change (r.1.step c).1.used fiber i = _
    rw [step_used, h.used]
    rfl
  value t fiber i := by
    change (r.1.step c).1.value t fiber i = _
    rw [step_value h.current, h.value]
    rfl

theorem run_agrees (calls : List TlsCall) : Agrees (run calls) := by
  have hAll : ∀ r, Agrees r → Agrees (calls.foldl record r) := by
    induction calls with
    | nil => exact fun _ h => h
    | cons c calls ih => exact fun r h => ih (record r c) (record_agrees h c)
  exact hAll _ agrees_new

/-! ## The other kind of slot -/

def slots (s : TlsOs) (fiber : Bool) (k : Nat) : Option (Nat → Option U64) :=
  (s.threads[k]?).map fun t => t.tlsValues fiber

structure Alike (fiber : Bool) (s s' : TlsOs) : Prop where
  map : s.tlsAllocMap fiber = s'.tlsAllocMap fiber
  slots : ∀ k, s.slots fiber k = s'.slots fiber k
  length : s.threads.length = s'.threads.length
  current : s.current = s'.current

def answersOf (fiber : Bool) : TlsOs → List TlsCall → List TlsAnswer
  | _, [] => []
  | s, c :: cs =>
    if c.fiber = some fiber then (s.step c).2 :: answersOf fiber (s.step c).1 cs else answersOf fiber (s.step c).1 cs

theorem slots_sweep (s : TlsOs) (fiber fiber' : Bool) (i k : Nat) :
    (s.sweep fiber i).slots fiber' k =
      (s.slots fiber' k).map fun vs => if fiber' = fiber then fun j => if j = i then none else vs j else vs := by
  unfold slots sweep
  dsimp only
  rw [List.getElem?_map]
  cases s.threads[k]? with
  | none => rfl
  | some t =>
    by_cases hKind : fiber' = fiber
    · subst hKind
      simp
    · simp [hKind]

theorem slots_tlsSet (s : TlsOs) (fiber fiber' : Bool) (i : Nat) (v : U64) (k : Nat) :
    (s.tlsSet fiber i v).slots fiber' k = (s.slots fiber' k).map fun vs =>
      if s.current = k ∧ fiber' = fiber then fun j => if j = i then some v else vs j else vs := by
  unfold slots tlsSet
  dsimp only
  rw [List.getElem?_modify]
  cases s.threads[k]? with
  | none => rfl
  | some t =>
    by_cases hHere : s.current = k
    · by_cases hKind : fiber' = fiber
      · subst hKind
        simp [hHere]
      · simp [hHere, hKind]
    · simp [hHere]

@[simp] theorem slots_setAllocMap (s : TlsOs) (map : List Bool) (k : Nat) :
    (s.setAllocMap fiber map).slots fiber' k = s.slots fiber' k := by
  unfold slots
  rw [threads_setAllocMap]

theorem Alike.tlsGet (h : Alike fiber s s') (i : Nat) : s.tlsGet fiber i = s'.tlsGet fiber i := by
  have hBind : ∀ s : TlsOs, s.tlsGet fiber i = ((s.slots fiber s.current).bind fun vs => vs i).getD 0 := by
    intro s
    unfold TlsOs.tlsGet TlsOs.slots
    cases s.threads[s.current]? <;> rfl
  rw [hBind s, hBind s', h.current, h.slots]

theorem Alike.other (h : Alike fiber s s') {c : TlsCall} (hOther : c.fiber = some (!fiber)) :
    Alike fiber (s.step c).1 s' := by
  have hNe : fiber ≠ !fiber := by cases fiber <;> decide
  have hSweep : ∀ (map : List Bool) (i : Nat), Alike fiber ((s.setAllocMap (!fiber) map).sweep (!fiber) i) s' := by
    intro map i
    refine ⟨?_, fun k => ?_, ?_, ?_⟩
    · rw [tlsAllocMap_sweep, tlsAllocMap_set_other s hNe, h.map]
    · rw [slots_sweep, slots_setAllocMap, h.slots]
      simp
    · unfold sweep
      rw [threads_setAllocMap]
      simpa using h.length
    · exact (current_setAllocMap ..).trans h.current
  cases c with
  | TlsAlloc fiber' =>
    obtain rfl := Option.some.inj hOther
    exact hSweep _ _
  | TlsSetValue fiber' index v =>
    obtain rfl := Option.some.inj hOther
    refine ⟨h.map, fun k => ?_, ?_, h.current⟩
    · change (s.tlsSet (!fiber) index v).slots fiber k = _
      rw [slots_tlsSet, h.slots]
      simp
    · change (s.tlsSet (!fiber) index v).threads.length = _
      unfold tlsSet
      simpa using h.length
  | TlsGetValue fiber' index => exact h
  | TlsFree fiber' index =>
    obtain rfl := Option.some.inj hOther
    exact hSweep _ _
  | switch next => cases hOther
  | spawn => cases hOther

theorem Alike.same (h : Alike fiber s s') {c : TlsCall} (hSame : c.fiber ≠ some (!fiber)) :
    (s.step c).2 = (s'.step c).2 ∧ Alike fiber (s.step c).1 (s'.step c).1 := by
  have hKind : ∀ fiber', c.fiber = some fiber' → fiber' = fiber := by
    intro fiber' hCall
    rw [hCall] at hSame
    cases fiber <;> cases fiber' <;> simp_all
  have hSweep : ∀ (map : List Bool) (i : Nat), Alike fiber ((s.setAllocMap fiber map).sweep fiber i)
      ((s'.setAllocMap fiber map).sweep fiber i) := by
    intro map i
    refine ⟨?_, fun k => ?_, ?_, ?_⟩
    · rw [tlsAllocMap_sweep, tlsAllocMap_sweep, tlsAllocMap_set, tlsAllocMap_set]
    · rw [slots_sweep, slots_sweep, slots_setAllocMap, slots_setAllocMap, h.slots]
    · unfold sweep
      rw [threads_setAllocMap, threads_setAllocMap]
      simpa using h.length
    · exact (current_setAllocMap ..).trans (h.current.trans (current_setAllocMap ..).symm)
  cases c with
  | TlsAlloc fiber' =>
    obtain rfl := hKind fiber' rfl
    unfold step allocate
    dsimp only
    rw [h.map]
    exact ⟨rfl, hSweep _ _⟩
  | TlsSetValue fiber' index v =>
    obtain rfl := hKind fiber' rfl
    refine ⟨rfl, h.map, fun k => ?_, ?_, h.current⟩
    · change (s.tlsSet fiber' index v).slots fiber' k = (s'.tlsSet fiber' index v).slots fiber' k
      rw [slots_tlsSet, slots_tlsSet, h.slots, h.current]
    · change (s.tlsSet fiber' index v).threads.length = (s'.tlsSet fiber' index v).threads.length
      unfold tlsSet
      simpa using h.length
  | TlsGetValue fiber' index =>
    obtain rfl := hKind fiber' rfl
    exact ⟨congrArg TlsAnswer.value (h.tlsGet index), h⟩
  | TlsFree fiber' index =>
    obtain rfl := hKind fiber' rfl
    refine ⟨rfl, ?_⟩
    change Alike fiber' (s.tlsFree fiber' index) (s'.tlsFree fiber' index)
    unfold tlsFree
    rw [h.map]
    exact hSweep _ _
  | switch next =>
    refine ⟨rfl, h.map, h.slots, h.length, ?_⟩
    unfold step
    dsimp only
    rw [h.length, h.current]
  | spawn =>
    refine ⟨rfl, h.map, fun k => ?_, ?_, h.current⟩
    · unfold TlsOs.slots step
      dsimp only
      rw [List.getElem?_append, List.getElem?_append, h.length]
      split
      · exact h.slots k
      · rfl
    · unfold step
      simp [h.length]

theorem answersOf_alike (calls : List TlsCall) (h : Alike fiber s s') :
    answersOf fiber s calls = answersOf fiber s' (calls.filter fun c => decide (c.fiber ≠ some (!fiber))) := by
  induction calls generalizing s s' with
  | nil => rfl
  | cons c calls ih =>
    by_cases hOther : c.fiber = some (!fiber)
    · have hNot : c.fiber ≠ some fiber := by
        rw [hOther]
        cases fiber <;> decide
      rw [List.filter_cons_of_neg (by simpa using hOther)]
      exact (if_neg hNot).trans (ih (h.other hOther))
    · rw [List.filter_cons_of_pos (by simpa using hOther)]
      obtain ⟨hAnswer, hNext⟩ := h.same hOther
      unfold answersOf
      rw [ih hNext, hAnswer]

/-- After any calls: a new index is not in use, a read gives what the history of the reading thread says,
and leaving out all calls about one kind of slot changes no answer about the other. -/
theorem tls_refines (calls : List TlsCall) :
    (∀ fiber i, ((run calls).1.step (.TlsAlloc fiber)).2 = .index i → allocated fiber i (run calls).2 = false) ∧
    (∀ fiber i, ((run calls).1.step (.TlsGetValue fiber i)).2 = .value (held (run calls).1.current fiber i (run calls).2) ∧
      (allocated fiber i (run calls).2 = true →
        ((run calls).1.step (.TlsGetValue fiber i)).2 = .value (lastStored (run calls).1.current fiber i (run calls).2))) ∧
    ∀ fiber, answersOf fiber new calls = answersOf fiber new (calls.filter fun c => decide (c.fiber ≠ some (!fiber))) := by
  have hAgrees := run_agrees calls
  have hRead : ∀ fiber i, ((run calls).1.step (.TlsGetValue fiber i)).2 =
      .value (held (run calls).1.current fiber i (run calls).2) :=
    fun fiber i => congrArg TlsAnswer.value (hAgrees.value (run calls).1.current fiber i)
  refine ⟨fun fiber i hIndex => ?_, fun fiber i => ⟨hRead fiber i, fun hLive => ?_⟩, fun fiber => ?_⟩
  · cases hIndex
    rw [← hAgrees.used]
    exact (allocate_spec (run calls).1 fiber).1
  · rw [hRead, held_eq_lastStored _ hLive]
  · exact answersOf_alike calls ⟨rfl, fun _ => rfl, rfl, rfl⟩

/-- An index that was stored to before it was handed out reads as zero, and so it does in a thread made meanwhile. -/
example : answersOf false new [.TlsSetValue false 0 7, .spawn, .TlsAlloc false, .TlsGetValue false 0, .TlsAlloc true,
    .TlsSetValue true 0 9, .switch 1, .TlsSetValue false 0 8, .switch 0, .TlsGetValue false 0] =
    [.done, .index 0, .value 0, .done, .value 0] := by decide

end TlsOs

end Exemu.Os
