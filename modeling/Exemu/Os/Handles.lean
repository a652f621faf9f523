import Exemu.Os.Exclusion

/-! # The handles of one object

A ledger of the handles a program has obtained and not closed, with the object each of them was
obtained for: a creator or an opener that names a live object obtains a handle of that object, and
so does a copy.
-/
namespace Exemu.Os

inductive Obtained where
  | named (name : Option Name) (h : Nat)
  | copied (src h : Nat)

namespace Call

def creates (os : WinOs) (spec : ObjectSpec) : Option Obtained := some (.named spec.name (os.makeObject spec).2)

def obtains (s : Sys) : Call → Option Obtained
  | .api (.createSync spec) _ _ => creates { s.os with lastError := 0 } spec
  | .api (.openSync name) _ _ => (name.bind s.os.namedKobjects).map (.named name)
  | .api (.wineUnixCall (.createEvent manual initial)) _ _ =>
    creates { s.os with unixCallBlocked := false } ⟨.Event, none, manual, initial, 0, 0⟩
  | .api (.wineUnixCall (.dupHandle src)) _ _ => (s.os.dupKobjectHandle src).2.map (.copied src)
  | .syscall (.createEvent name manual initial) _ => creates s.os ⟨.Event, name, manual, initial, 0, 0⟩
  | .syscall (.openEvent name) _ => (s.os.ntOpenEvent name).2.map (.named name)
  | .syscall (.createMutant name owned) _ => creates s.os ⟨.Mutex, name, false, owned, 0, 0⟩
  | .syscall (.createSemaphore name initial max) _ =>
    (s.os.ntCreateSemaphore name initial max).2.2.map (.named name)
  | _ => none

end Call

def Turn.delivers (s : Sys) : Turn → Bool
  | .syscall _ _ writes _ _ => (s.seed writes).2.toBool
  | _ => true

structure Held where
  grants : List (Nat × Nat) := []
  names : Name → Option Nat := fun _ => none
  next : Nat := 0

namespace Held

def live (g : Held) (o : Nat) : Bool := g.grants.any (·.2 == o)

def find (g : Held) (n : Name) : Option Nat := (g.names n).filter g.live

def object (g : Held) (h : Nat) : Option Nat := (g.grants.find? (·.1 == h)).map (·.2)

def grant (g : Held) (h o : Nat) : Held := { g with grants := (h, o) :: g.grants }

def enter (g : Held) (name : Option Name) (h : Nat) : Held where
  grants := (h, g.next) :: g.grants
  names := name.elim g.names fun n => Function.update g.names n (some g.next)
  next := g.next + 1

def obtain (g : Held) : Obtained → Held
  | .named name h =>
    match name.bind g.find with
    | some o => g.grant h o
    | none => g.enter name h
  | .copied src h =>
    match g.object src with
    | some o => g.grant h o
    | none => g

def close (g : Held) (h : Nat) : Held := { g with grants := g.grants.eraseP (·.1 == h) }

/-- The ledger after the call `c` made in `s` by the turn `t`. -/
def after (g : Held) (t : Turn) (s : Sys) (c : Call) : Held :=
  match c.closes with
  | some h => g.close h
  | none => if t.delivers (c.makes s) then (c.obtains s).elim g g.obtain else g

def turn (x : Process × Held) (t : Turn) : Process × Held :=
  (x.1.turn t, (x.1.calls t).elim x.2 fun r => x.2.after t r.1 r.2)

end Held

def Process.held (p : Process) (ts : List Turn) : Held := (ts.foldl Held.turn (p, {})).2

/-- All handles of an object lead to one object, and its name leads to one of them. -/
structure Shares (os : WinOs) (g : Held) : Prop where
  one : ∀ h h' o, (h, o) ∈ g.grants → (h', o) ∈ g.grants → os.kobjects h = os.kobjects h'
  usable : ∀ h o, (h, o) ∈ g.grants → os.kobjects h ≠ none
  named : ∀ n o, g.find n = some o → ∃ h, os.namedKobjects n = some h ∧ (h, o) ∈ g.grants

/-- The turn copies no handle of the ledger, and closes one only if its object has no other. -/
def Separate (x : Process × Held) (t : Turn) : Prop :=
  ∀ s c, x.1.calls t = some (s, c) →
    (∀ src, c.copies = some src → ∀ o, (src, o) ∉ x.2.grants) ∧
      ∀ h, c.closes = some h → ∀ o, (h, o) ∈ x.2.grants → x.2.grants.countP (·.2 == o) ≤ 1

/-! ## What the table keeps of the ledger -/

structure Agrees (tb : Table) (g : Held) : Prop where
  fresh : tb.Fresh
  bound : ∀ n h, tb.names n = some h → tb.objects h ≠ none
  apart : ∀ n m h, tb.names n = some h → tb.names m = some h → n = m
  there : ∀ h o, (h, o) ∈ g.grants → tb.objects h ≠ none
  once : ∀ h o o', (h, o) ∈ g.grants → (h, o') ∈ g.grants → o = o'
  one : ∀ h h' o, (h, o) ∈ g.grants → (h', o) ∈ g.grants → h = h'
  resolves : ∀ n o, g.find n = some o → ∃ h, tb.names n = some h ∧ (h, o) ∈ g.grants
  known : ∀ n h o, tb.names n = some h → (h, o) ∈ g.grants → g.names n = some o
  below : (∀ h o, (h, o) ∈ g.grants → o < g.next) ∧ ∀ n o, g.names n = some o → o < g.next

section
variable {tb tb' : Table} {g : Held} {tid : Nat} {c : Call}

theorem Held.live_iff {o : Nat} : g.live o = true ↔ ∃ h, (h, o) ∈ g.grants := by
  simp [Held.live]

theorem Held.find_eq_some_iff {n : Name} {o : Nat} :
    g.find n = some o ↔ g.names n = some o ∧ ∃ h, (h, o) ∈ g.grants := by
  rw [Held.find, Option.filter_eq_some_iff, Held.live_iff]

theorem Agrees.shares {os : WinOs} (h : Agrees os.table g) : Shares os g where
  one x y o hx hy := by rw [h.one x y o hx hy]
  usable := h.there
  named := h.resolves

theorem Agrees.mono (h : Agrees tb g) (hFresh : tb'.Fresh) (hNames : tb'.names = tb.names)
    (hObjects : ∀ x, tb.objects x ≠ none → tb'.objects x ≠ none) : Agrees tb' g where
  fresh := hFresh
  bound n x hn := hObjects x (h.bound n x (hNames ▸ hn))
  apart n m x hn hm := h.apart n m x (hNames ▸ hn) (hNames ▸ hm)
  there x o hx := hObjects x (h.there x o hx)
  once := h.once
  one := h.one
  resolves n o hn := hNames ▸ h.resolves n o hn
  known n x o hn hx := h.known n x o (hNames ▸ hn) hx
  below := h.below

variable {x : Nat} {name : Option Name}

theorem Agrees.set {o o' : KObject} (h : Agrees tb g) (hGet : tb.objects x = some o) :
    Agrees (tb.set x (some o')) g := by
  refine h.mono (h.fresh.set hGet) rfl fun y hy => ?_
  by_cases hxy : y = x
  · simp [hxy]
  · rwa [tb.set_of_ne _ hxy]

theorem Agrees.create {o : KObject} (h : Agrees tb g) (hNew : name.bind tb.names = none) :
    Agrees (tb.create o name) g := by
  have hNext : ∀ x, tb.objects x ≠ none → x ≠ tb.next := fun x hx => (h.fresh x hx).ne
  have hOld : ∀ x, tb.objects x ≠ none → (tb.create o name).objects x ≠ none := fun x hx => by
    rwa [tb.create_of_ne o name (hNext x hx)]
  have hNames : ∀ n x, (tb.create o name).names n = some x → tb.names n = some x ∨ name = some n ∧ x = tb.next := by
    intro n x hn
    cases name with
    | none => exact .inl hn
    | some m =>
      by_cases hnm : n = m
      · subst hnm
        exact .inr ⟨rfl, by simpa [Table.create, eq_comm] using hn⟩
      · exact .inl (by simpa [Table.create, hnm] using hn)
  constructor
  · exact h.fresh.create
  · rintro n x hn
    rcases hNames n x hn with hn | ⟨-, rfl⟩
    · exact hOld x (h.bound n x hn)
    · simp
  · rintro n m x hn hm
    rcases hNames n x hn with hn | ⟨rfl, rfl⟩ <;> rcases hNames m _ hm with hm | ⟨hEq, hx⟩
    · exact h.apart n m x hn hm
    · exact absurd hx (hNext x (h.bound n x hn))
    · exact absurd rfl (hNext _ (h.bound m _ hm))
    · exact Option.some.inj hEq
  · exact fun x o hx => hOld x (h.there x o hx)
  · exact h.once
  · exact h.one
  · rintro n o hn
    obtain ⟨x, hx, hMem⟩ := h.resolves n o hn
    refine ⟨x, ?_, hMem⟩
    cases name with
    | none => exact hx
    | some m =>
      have hnm : n ≠ m := by
        rintro rfl
        simp [hx] at hNew
      simpa [Table.create, hnm] using hx
  · rintro n x o hn hx
    rcases hNames n x hn with hn | ⟨-, rfl⟩
    · exact h.known n x o hn hx
    · exact absurd rfl (hNext _ (h.there _ o hx))
  · exact h.below

theorem Agrees.steps (hSteps : Table.Steps tid c tb tb') (hOpen : c.closes = none) (h : Agrees tb g) :
    Agrees tb' g := by
  induction hSteps with
  | refl => exact h
  | tail _ hStep ih =>
    cases hStep with
    | creates o name hOwner hAsked hNew => exact ih.create hNew
    | acquires x o hGet => exact ih.set hGet
    | signals op n x o hGet hAsked => exact ih.set hGet
    | adjusts x o o' hGet hKind hKind' => exact ih.set hGet
    | closes x hAsked => simp [hOpen] at hAsked
    | copies src o hGet hAsked => exact ih.create rfl

theorem Agrees.closed_handle (h : Agrees tb g) (hLast : ∀ o, (x, o) ∈ g.grants → g.grants.countP (·.2 == o) ≤ 1)
    (o : Nat) : (x, o) ∉ (g.close x).grants := by
  rintro hMem
  have hOld : (x, o) ∈ g.grants := List.mem_of_mem_eraseP hMem
  obtain ⟨⟨y, o'⟩, before, rest, -, hFirst, hGrants, hErased⟩ :=
    List.exists_of_eraseP (p := fun r => r.1 == x) hOld (by simp)
  obtain rfl : y = x := by simpa using hFirst
  obtain rfl := h.once y o o' hOld (by simp [hGrants])
  have hTwo := hLast o hOld
  have hKept : (y, o) ∈ before ++ rest := by
    rw [← hErased]
    exact hMem
  have hOne : 0 < (before ++ rest).countP (·.2 == o) := List.countP_pos_iff.mpr ⟨(y, o), hKept, by simp⟩
  rw [hGrants] at hTwo
  simp only [List.countP_append, List.countP_cons, beq_self_eq_true, if_true] at hTwo hOne
  omega

theorem Table.Fresh.close (hFresh : tb.Fresh) : (tb.close x).Fresh := by
  rintro y hy
  by_cases hxy : y = x
  · simp [hxy] at hy
  · exact hFresh y (by rwa [tb.close_of_ne hxy] at hy)

theorem Agrees.close (h : Agrees tb g) (hLast : ∀ o, (x, o) ∈ g.grants → g.grants.countP (·.2 == o) ≤ 1) :
    Agrees (tb.close x) (g.close x) := by
  have hSub : ∀ r, r ∈ (g.close x).grants → r ∈ g.grants := fun r hr => List.mem_of_mem_eraseP hr
  have hGone := h.closed_handle hLast
  have hNames : ∀ n y, (tb.close x).names n = some y ↔ tb.names n = some y ∧ y ≠ x := by
    intro n y
    by_cases hn : tb.names n = some x <;> simp [Table.close, hn]
    · rintro rfl
      rfl
    · rintro hy rfl
      exact hn hy
  constructor
  · exact h.fresh.close
  · rintro n y hn
    obtain ⟨hn, hy⟩ := (hNames n y).mp hn
    rw [tb.close_of_ne hy]
    exact h.bound n y hn
  · rintro n m y hn hm
    exact h.apart n m y ((hNames n y).mp hn).1 ((hNames m y).mp hm).1
  · rintro y o hy
    have hyx : y ≠ x := by
      rintro rfl
      exact hGone o hy
    rw [tb.close_of_ne hyx]
    exact h.there y o (hSub _ hy)
  · exact fun y o o' hy hy' => h.once y o o' (hSub _ hy) (hSub _ hy')
  · exact fun y y' o hy hy' => h.one y y' o (hSub _ hy) (hSub _ hy')
  · rintro n o hn
    obtain ⟨hName, y, hy⟩ := Held.find_eq_some_iff.mp hn
    obtain ⟨z, hz, hMem⟩ := h.resolves n o (Held.find_eq_some_iff.mpr ⟨hName, y, hSub _ hy⟩)
    obtain rfl := h.one z y o hMem (hSub _ hy)
    refine ⟨z, (hNames n z).mpr ⟨hz, ?_⟩, hy⟩
    rintro rfl
    exact hGone o hy
  · exact fun n y o hn hy => h.known n y o ((hNames n y).mp hn).1 (hSub _ hy)
  · exact ⟨fun y o hy => h.below.1 y o (hSub _ hy), h.below.2⟩

theorem Held.close_of_not_granted (hNone : ∀ o, (x, o) ∉ g.grants) : g.close x = g := by
  have hErase : g.grants.eraseP (·.1 == x) = g.grants := by
    refine List.eraseP_of_forall_not ?_
    rintro ⟨y, o⟩ hMem hy
    obtain rfl : y = x := by simpa using hy
    exact hNone o hMem
  unfold Held.close
  rw [hErase]

/-- The handle `h` stands for the object that is asked for by `name`. -/
structure Given (tb : Table) (g : Held) (name : Option Name) (h : Nat) : Prop where
  object : tb.objects h ≠ none
  named : ∀ n, name = some n → tb.names n = some h
  unnamed : name = none → (∀ o, (h, o) ∉ g.grants) ∧ ∀ n, tb.names n ≠ some h

theorem Agrees.grant {o : Nat} (h : Agrees tb g) (hMem : (x, o) ∈ g.grants) : Agrees tb (g.grant x o) := by
  have hSame : ∀ r, r ∈ (g.grant x o).grants ↔ r ∈ g.grants := by
    rintro r
    constructor
    · rintro hr
      rcases List.mem_cons.mp hr with rfl | hr
      · exact hMem
      · exact hr
    · exact List.mem_cons_of_mem _
  have hFind : ∀ n o', (g.grant x o).find n = some o' → g.find n = some o' := by
    rintro n o' hn
    obtain ⟨hName, y, hy⟩ := Held.find_eq_some_iff.mp hn
    exact Held.find_eq_some_iff.mpr ⟨hName, y, (hSame _).mp hy⟩
  constructor
  · exact h.fresh
  · exact h.bound
  · exact h.apart
  · exact fun y o' hy => h.there y o' ((hSame _).mp hy)
  · exact fun y o' o'' hy hy' => h.once y o' o'' ((hSame _).mp hy) ((hSame _).mp hy')
  · exact fun y y' o' hy hy' => h.one y y' o' ((hSame _).mp hy) ((hSame _).mp hy')
  · rintro n o' hn
    obtain ⟨y, hy, hIn⟩ := h.resolves n o' (hFind n o' hn)
    exact ⟨y, hy, (hSame _).mpr hIn⟩
  · exact fun n y o' hn hy => h.known n y o' hn ((hSame _).mp hy)
  · exact ⟨fun y o' hy => h.below.1 y o' ((hSame _).mp hy), h.below.2⟩

theorem Agrees.enter (h : Agrees tb g) (hGiven : Given tb g name x) (hNew : ∀ o, (x, o) ∉ g.grants) :
    Agrees tb (g.enter name x) := by
  have hNames : ∀ m, (g.enter name x).names m = if name = some m then some g.next else g.names m := by
    rintro m
    cases name with
    | none => simp [Held.enter]
    | some n =>
      by_cases hnm : m = n
      · simp [Held.enter, hnm]
      · simp [Held.enter, hnm, Ne.symm hnm]
  have hMem : ∀ y o, (y, o) ∈ (g.enter name x).grants ↔ y = x ∧ o = g.next ∨ (y, o) ∈ g.grants := by
    simp [Held.enter]
  constructor
  · exact h.fresh
  · exact h.bound
  · exact h.apart
  · rintro y o hy
    rcases (hMem y o).mp hy with ⟨rfl, -⟩ | hy
    · exact hGiven.object
    · exact h.there y o hy
  · rintro y o o' hy hy'
    rcases (hMem y o).mp hy with ⟨rfl, rfl⟩ | hy <;> rcases (hMem _ o').mp hy' with ⟨hEq, hNext⟩ | hy'
    · exact hNext.symm
    · exact absurd hy' (hNew o')
    · exact absurd (hEq ▸ hy) (hNew o)
    · exact h.once y o o' hy hy'
  · rintro y y' o hy hy'
    rcases (hMem y o).mp hy with ⟨rfl, rfl⟩ | hy <;> rcases (hMem y' _).mp hy' with ⟨hEq, hNext⟩ | hy'
    · exact hEq.symm
    · exact absurd (h.below.1 y' _ hy') (lt_irrefl _)
    · exact absurd (h.below.1 y o hy) (by omega)
    · exact h.one y y' o hy hy'
  · rintro m o hm
    obtain ⟨hName, y, hy⟩ := Held.find_eq_some_iff.mp hm
    rw [hNames] at hName
    split_ifs at hName with hEq
    · obtain rfl := Option.some.inj hName
      exact ⟨x, hGiven.named m hEq, (hMem x _).mpr (.inl ⟨rfl, rfl⟩)⟩
    · have hOld : (y, o) ∈ g.grants := by
        rcases (hMem y o).mp hy with ⟨-, rfl⟩ | hy
        · exact absurd (h.below.2 m _ hName) (lt_irrefl _)
        · exact hy
      obtain ⟨z, hz, hIn⟩ := h.resolves m o (Held.find_eq_some_iff.mpr ⟨hName, y, hOld⟩)
      exact ⟨z, hz, (hMem z o).mpr (.inr hIn)⟩
  · rintro m y o hm hy
    rw [hNames]
    rcases (hMem y o).mp hy with ⟨rfl, rfl⟩ | hy
    · rw [if_pos]
      cases name with
      | none => exact absurd hm ((hGiven.unnamed rfl).2 m)
      | some n => rw [h.apart n m y (hGiven.named n rfl) hm]
    · rw [if_neg]
      · exact h.known m y o hm hy
      · rintro hEq
        have hxy : x = y := Option.some.inj ((hGiven.named m hEq).symm.trans hm)
        exact hNew o (hxy ▸ hy)
  · constructor
    · rintro y o hy
      rcases (hMem y o).mp hy with ⟨-, rfl⟩ | hy
      · exact Nat.lt_succ_self _
      · exact (h.below.1 y o hy).trans (Nat.lt_succ_self _)
    · rintro m o hm
      rw [hNames] at hm
      split_ifs at hm
      · obtain rfl := Option.some.inj hm
        exact Nat.lt_succ_self _
      · exact (h.below.2 m o hm).trans (Nat.lt_succ_self _)

theorem Agrees.obtain_named (h : Agrees tb g) (hGiven : Given tb g name x) : Agrees tb (g.obtain (.named name x)) := by
  cases hFind : name.bind g.find with
  | some o =>
    obtain ⟨n, rfl, hFind⟩ := Option.bind_eq_some_iff.mp hFind
    obtain ⟨y, hy, hMem⟩ := h.resolves n o hFind
    have hyx : y = x := Option.some.inj (hy.symm.trans (hGiven.named n rfl))
    simp only [Held.obtain, hFind]
    exact h.grant (hyx ▸ hMem)
  | none =>
    simp only [Held.obtain, hFind]
    refine h.enter hGiven ?_
    rintro o hMem
    cases name with
    | none => exact (hGiven.unnamed rfl).1 o hMem
    | some n =>
      have hName := h.known n x o (hGiven.named n rfl) hMem
      simp [Held.find_eq_some_iff.mpr ⟨hName, x, hMem⟩] at hFind

end

/-! ## What the calls do -/

section
variable {s : Sys} {c : Call} {g : Held}

variable {x : Nat}

theorem Agrees.given {tb : Table} {name : Option Name} (h : Agrees tb g) (hName : name.bind tb.names = some x) :
    Given tb g name x := by
  obtain ⟨n, rfl, hName⟩ := Option.bind_eq_some_iff.mp hName
  refine ⟨h.bound n x hName, ?_, nofun⟩
  rintro m ⟨⟩
  exact hName

theorem makeObject_gives (os : WinOs) (h : Agrees os.table g) (spec : ObjectSpec) :
    Given (os.makeObject spec).1.table g spec.name (os.makeObject spec).2 := by
  have hNext : ∀ x, os.kobjects x ≠ none → x ≠ os.nextHandle := fun x hx => (h.fresh x hx).ne
  unfold WinOs.makeObject
  cases hFound : spec.name.bind os.namedKobjects with
  | some x => exact h.given hFound
  | none =>
    cases hSpec : spec.name with
    | none =>
      refine ⟨by simp [WinOs.table, WinOs.setObject, WinOs.allocKhandle], fun n hn => (by cases hn), fun _ => ⟨?_, ?_⟩⟩
      · exact fun o hMem => hNext _ (h.there _ o hMem) rfl
      · exact fun n hn => hNext _ (h.bound n _ hn) rfl
    | some n =>
      refine ⟨by simp [WinOs.table, WinOs.setObject, WinOs.allocKhandle], fun m hm => ?_, fun hNone => (by cases hNone)⟩
      cases hm
      simp [WinOs.table]

theorem obtains_given {name : Option Name} (h : Agrees s.os.table g) (hObtains : c.obtains s = some (.named name x)) :
    Given (c.makes s).os.table g name x := by
  cases c with
  | api call granted after =>
    cases call with
    | createSync spec =>
      obtain ⟨rfl, rfl⟩ := Obtained.named.inj (Option.some.inj hObtains)
      exact makeObject_gives { s.os with lastError := 0 } h spec
    | openSync wanted =>
      obtain ⟨y, hName, ⟨⟩⟩ := Option.map_eq_some_iff.mp hObtains
      have hTable : (s.os.openSync name).1.table = s.os.table := by
        unfold WinOs.openSync
        rw [hName]
      exact hTable.symm ▸ h.given hName
    | wineUnixCall req =>
      cases req with
      | createEvent manual initial =>
        obtain ⟨rfl, rfl⟩ := Obtained.named.inj (Option.some.inj hObtains)
        have hGiven := makeObject_gives { s.os with unixCallBlocked := false } h
          ⟨.Event, none, manual, initial, 0, 0⟩
        change Given (s.wineUnixCall (.createEvent manual initial)).1.os.table g _ _
        rw [Sys.wineUnixCall_os]
        exact hGiven
      | dupHandle src =>
        obtain ⟨y, -, ⟨⟩⟩ := Option.map_eq_some_iff.mp hObtains
      | _ => cases hObtains
    | _ => cases hObtains
  | «syscall» call granted =>
    cases call with
    | createEvent wanted manual initial =>
      obtain ⟨rfl, rfl⟩ := Obtained.named.inj (Option.some.inj hObtains)
      exact makeObject_gives _ h _
    | createMutant wanted owned =>
      obtain ⟨rfl, rfl⟩ := Obtained.named.inj (Option.some.inj hObtains)
      exact makeObject_gives _ h _
    | createSemaphore wanted initial max =>
      obtain ⟨y, hMade, ⟨⟩⟩ := Option.map_eq_some_iff.mp hObtains
      change Given (s.os.ntCreateSemaphore name initial max).1.table g name x
      unfold WinOs.ntCreateSemaphore at hMade ⊢
      split_ifs at hMade ⊢
      obtain rfl := Option.some.inj hMade
      exact makeObject_gives _ h _
    | openEvent wanted =>
      obtain ⟨y, hMade, ⟨⟩⟩ := Option.map_eq_some_iff.mp hObtains
      refine h.given ?_
      cases name with
      | none => cases hMade
      | some n =>
        unfold WinOs.ntOpenEvent at hMade
        cases hName : s.os.namedKobjects n <;> simp [hName] at hMade
        exact hMade ▸ hName
    | _ => cases hObtains

theorem obtains_copied {src : Nat} (hObtains : c.obtains s = some (.copied src x)) : c.copies = some src := by
  have hNamed : ∀ {name : Option Name} {r : Option Nat}, r.map (.named name) ≠ some (Obtained.copied src x) := by
    rintro name (_ | y) ⟨⟩
  cases c with
  | api call granted after =>
    cases call with
    | openSync wanted => exact absurd hObtains hNamed
    | wineUnixCall req =>
      cases req with
      | dupHandle wanted =>
        obtain ⟨y, -, ⟨⟩⟩ := Option.map_eq_some_iff.mp hObtains
        rfl
      | _ => cases hObtains
    | _ => cases hObtains
  | «syscall» call granted =>
    cases call with
    | createSemaphore wanted initial max => exact absurd hObtains hNamed
    | openEvent wanted => exact absurd hObtains hNamed
    | _ => cases hObtains

theorem closeHandle_table (os : WinOs) (x : Nat) :
    os.kobjects x = none ∧ (os.closeHandle x).1.table = os.table ∨ (os.closeHandle x).1.table = os.table.close x := by
  unfold WinOs.closeHandle
  cases hGet : os.kobjects x with
  | none => exact .inl ⟨rfl, rfl⟩
  | some o => exact .inr rfl

theorem closes_table (hAsked : c.closes = some x) :
    s.os.kobjects x = none ∧ (c.makes s).os.table = s.os.table ∨ (c.makes s).os.table = s.os.table.close x := by
  cases c with
  | api call granted after =>
    cases call with
    | closeHandle y =>
      obtain rfl := Option.some.inj hAsked
      exact closeHandle_table s.os y
    | wineUnixCall req =>
      cases req with
      | closeHandle y =>
        obtain rfl := Option.some.inj hAsked
        change _ ∧ (s.wineUnixCall (.closeHandle y)).1.os.table = _ ∨ (s.wineUnixCall (.closeHandle y)).1.os.table = _
        rw [Sys.wineUnixCall_os]
        exact closeHandle_table { s.os with unixCallBlocked := false } y
      | _ => cases hAsked
    | _ => cases hAsked
  | «syscall» call granted =>
    cases call with
    | close y =>
      dsimp only [Call.closes] at hAsked
      split_ifs at hAsked with hClosable
      obtain rfl := Option.some.inj hAsked
      have hMakes : ((Call.syscall (.close y) granted).makes s).os = (s.os.closeHandle y).1 := by
        change (Sys.ntHandler granted (.close y) s).1.os = _
        simp [Sys.ntHandler, hClosable, Sys.withStatus]
      rw [hMakes]
      exact closeHandle_table s.os y
    | _ => cases hAsked

theorem Agrees.after {t : Turn} (h : Agrees s.os.table g)
    (hCopies : ∀ src, c.copies = some src → ∀ o, (src, o) ∉ g.grants)
    (hCloses : ∀ x, c.closes = some x → ∀ o, (x, o) ∈ g.grants → g.grants.countP (·.2 == o) ≤ 1) :
    Agrees (c.makes s).os.table (g.after t s c) := by
  unfold Held.after
  cases hClose : c.closes with
  | some x =>
    rcases closes_table (s := s) hClose with ⟨hNone, hTable⟩ | hTable
    · dsimp only
      rw [hTable, Held.close_of_not_granted fun o hMem => h.there x o hMem hNone]
      exact h
    · rw [hTable]
      exact h.close (hCloses x hClose)
  | none =>
    have hKept := Agrees.steps (call_steps s c) hClose h
    dsimp only
    split_ifs
    · cases hObtains : c.obtains s with
      | none => exact hKept
      | some obtained =>
        cases obtained with
        | named name x => 
          have hGiven := obtains_given h hObtains
          exact hKept.obtain_named hGiven
        | copied src x =>
          have hFree := hCopies src (obtains_copied hObtains)
          have hObject : g.object src = none := by
            simp only [Held.object, Option.map_eq_none_iff, List.find?_eq_none]
            rintro ⟨y, o⟩ hMem hy
            obtain rfl : y = src := by simpa using hy
            exact hFree o hMem
          simp only [Option.elim_some, Held.obtain, hObject]
          exact hKept
    · exact hKept

end

/-! ## Over a run -/

theorem Agrees.turn {x : Process × Held} {t : Turn} (h : Agrees x.1.sys.os.table x.2) (hSeparate : Separate x t) :
    Agrees (Held.turn x t).1.sys.os.table (Held.turn x t).2 := by
  unfold Held.turn
  cases hCalls : x.1.calls t with
  | none =>
    rw [Process.turn_table_of_no_call hCalls]
    exact h
  | some r =>
    obtain ⟨s, c⟩ := r
    obtain ⟨hBefore, hAfter⟩ := Process.turn_table hCalls
    obtain ⟨hCopies, hCloses⟩ := hSeparate s c hCalls
    rw [hAfter]
    exact Agrees.after (hBefore ▸ h) hCopies hCloses

theorem starts_agrees {p : Process} (hStarts : p.Starts) : Agrees p.sys.os.table {} := by
  obtain ⟨cfg, vallocBase, exitThunk, tlsThunk, entryThunk, wow64Peb32, wow64Threading, hOs⟩ := hStarts.os
  rw [hOs]
  constructor
  · exact fun x hx => absurd rfl hx
  · exact fun n x hn => by cases hn
  · exact fun n m x hn => by cases hn
  · exact fun x o hx => by cases hx
  · exact fun x o o' hx => by cases hx
  · exact fun x x' o hx => by cases hx
  · exact fun n o hn => by cases hn
  · exact fun n x o hn => by cases hn
  · constructor
    · exact fun x o hx => by cases hx
    · exact fun n o hn => by cases hn

theorem held_run_fst (p : Process) (g : Held) (ts : List Turn) : (ts.foldl Held.turn (p, g)).1 = p.run ts := by
  induction ts generalizing p g with
  | nil => rfl
  | cons t ts ih => exact ih (p.turn t) _

/-- In every state of such a run all handles of an object lead to it, and so does its name. -/
theorem separate_run_shares {p : Process} {ts : List Turn} (hStarts : p.Starts)
    (hRun : Stamp.Along Held.turn Separate (p, {}) ts) (n : Nat) :
    Shares (p.run (ts.take n)).sys.os (p.held (ts.take n)) := by
  have hAgrees := (hRun.take n).keeps (J := fun x => Agrees x.1.sys.os.table x.2)
    (fun x t _ hx hSeparate => hx.turn hSeparate) (starts_agrees hStarts)
  rw [held_run_fst] at hAgrees
  exact hAgrees.shares

theorem separate_of_check {x : Process × Held} {t : Turn}
    (h : (x.1.calls t).all (fun r => r.2.copies.isNone && r.2.closes.all fun c =>
      x.2.grants.all fun a => a.1 != c || decide (x.2.grants.countP (·.2 == a.2) ≤ 1)) = true) : Separate x t := by
  rintro s c hCalls
  simp only [hCalls, Option.all_some, Bool.and_eq_true, Option.isNone_iff_eq_none] at h
  constructor
  · simp [h.1]
  · rintro y hClose o hMem
    have hAll := h.2
    simp only [hClose, Option.all_some, List.all_eq_true] at hAll
    simpa using hAll _ hMem

/-- An event under a name, the same one opened by it and signalled, and another event closed. -/
def opensByName : List Turn :=
  [.api (.createSync ⟨.Event, some ['x'], false, false, 0, 0⟩) (fun _ => true) [] {} false,
    .api (.openSync (some ['x'])) (fun _ => true) [] {} false,
    .api (.signalSync .SetEvent 0x1000 0) (fun _ => true) [] {} false,
    .api (.createSync ⟨.Event, none, false, false, 0, 0⟩) (fun _ => true) [] {} false,
    .api (.closeHandle 0x1004) (fun _ => true) [] {} false]

theorem separate_run_shares_opened :
    Shares (Process.boot.run (opensByName.take 5)).sys.os (Process.boot.held (opensByName.take 5)) :=
  separate_run_shares Process.boot_starts
    (.cons (separate_of_check (by decide)) (.cons (separate_of_check (by decide))
      (.cons (separate_of_check (by decide)) (.cons (separate_of_check (by decide))
        (.cons (separate_of_check (by decide)) (.nil _)))))) 5

def closesOneOfTwo : List Turn :=
  [.api (.createSync ⟨.Event, some ['x'], false, false, 0, 0⟩) (fun _ => true) [] {} false,
    .api (.openSync (some ['x'])) (fun _ => true) [] {} false,
    .api (.closeHandle 0x1000) (fun _ => true) [] {} false]

theorem other_handle_dies : Process.boot.Starts ∧
    ¬∀ n, Shares (Process.boot.run (closesOneOfTwo.take n)).sys.os (Process.boot.held (closesOneOfTwo.take n)) := by
  refine ⟨Process.boot_starts, fun hAll => ?_⟩
  have hRun : (0x1000, 0) ∈ (Process.boot.held (closesOneOfTwo.take 3)).grants ∧
      (Process.boot.run (closesOneOfTwo.take 3)).sys.os.kobjects 0x1000 = none := by decide
  exact (hAll 3).usable 0x1000 0 hRun.1 hRun.2

end Exemu.Os
