import Exemu.Library.Sweep
import Exemu.Os.Search

/-! # Changing the protection of image pages

`NtProtectVirtualMemory` asks for pages, but permissions belong to whole regions.
-/
namespace Exemu

open VirtualMemory (WellFormed)

def Perm.union (self other : Perm) : Perm := ⟨self.bits ||| other.bits⟩

namespace Os

def PAGE_PROTECTION_MASK : U32 := 0xff

def permFromProtect (protect : U32) : Option Perm :=
  let p := protect &&& PAGE_PROTECTION_MASK
  if p = 0x01 then some Perm.NONE
  else if p = 0x02 then some Perm.READ
  else if p = 0x04 || p = 0x08 then some Perm.RW
  else if p = 0x10 then some Perm.EXEC
  else if p = 0x20 then some Perm.RX
  else if p = 0x40 || p = 0x80 then some Perm.RWX
  else none

def protectFromPerm (p : Perm) : U32 :=
  match p.contains Perm.EXEC, p.contains Perm.WRITE, p.contains Perm.READ with
  | true, true, _ => 0x40
  | true, false, true => 0x20
  | true, false, false => 0x10
  | false, true, _ => 0x04
  | false, false, true => 0x02
  | false, false, false => 0x01

structure TrackedAlloc where
  base : U64
  size : U64
  protect : U32
  deriving DecidableEq, Repr

namespace Protect

def STATUS_INVALID_PARAMETER : U32 := 0xC000000D
def STATUS_INVALID_PAGE_PROTECTION : U32 := 0xC0000045

def TrackedAlloc.covers (a : TrackedAlloc) (addr : U64) : Bool := decide (a.base ≤ addr) && decide (addr < a.base + a.size)

def vmRegionBounds (allocs : List TrackedAlloc) (addr : U64) : Option (U64 × U64) :=
  (allocs.find? fun a => TrackedAlloc.covers a addr).map fun a => (a.base, a.size)

def firstPage (addr : U64) : U64 := addr &&& ~~~(PAGE - 1)

def vmProtectRegion (allocs : List TrackedAlloc) (addr : U64) (newProtect : U32) : List TrackedAlloc × U32 :=
  match allocs.findIdx? fun a => TrackedAlloc.covers a (firstPage addr) with
  | none => (allocs, 0x40)
  | some i => (allocs.modify i fun a => { a with protect := newProtect }, (allocs[i]?.map fun a => a.protect).getD 0x40)

def checkedAdd (a b : U64) : Option U64 := if a.toNat + b.toNat < 2 ^ 64 then some (a + b) else none

def requestEnd (addr size : U64) : Option U64 := do
  let e ← checkedAdd addr (maxU64 size 1)
  let e ← checkedAdd e (PAGE - 1)
  return e &&& ~~~(PAGE - 1)

/-- The loop. An error of `protect` is ignored. -/
def protectLoop (start lim : U64) (newPerm : Perm) : Nat → U64 → VirtualMemory → Option VirtualMemory
  | 0, cur, mem => if cur < lim then none else some mem
  | fuel + 1, cur, mem =>
    if cur < lim then
      match mem.nextRegion cur with
      | none => some mem
      | some (rb, rsize, perm) =>
        if lim ≤ rb then some mem
        else
          let covered := decide (start ≤ rb) && decide (rb + rsize ≤ lim)
          let permNow := if covered then newPerm else perm.union newPerm
          let mem' := if permNow ≠ perm then ((mem.protect rb rsize permNow).toOption.map Prod.snd).getD mem else mem
          protectLoop start lim newPerm fuel (maxU64 (rb + rsize) (cur + PAGE)) mem'
    else some mem

def rounds (start lim : U64) : Nat := (lim - start).toNat / 0x1000

/-- `Err` is a status, and without an old protection the request is none for image pages. -/
def protectMappedImagePages (allocs : List TrackedAlloc) (mem : VirtualMemory) (addr size : U64) (newProtect : U32) :
    Option (Except U32 (Option U32) × VirtualMemory) :=
  if (vmRegionBounds allocs addr).isSome then some (.ok none, mem)
  else
    let start := firstPage addr
    match mem.nextRegion start with
    | none => some (.ok none, mem)
    | some (rb, _, oldPerm) =>
      if start < rb then some (.ok none, mem)
      else
        match permFromProtect newProtect with
        | none => some (.error STATUS_INVALID_PAGE_PROTECTION, mem)
        | some newPerm =>
          match requestEnd addr size with
          | none => some (.error STATUS_INVALID_PARAMETER, mem)
          | some lim => do
            let mem ← protectLoop start lim newPerm (rounds start lim) start mem
            return (.ok (some (protectFromPerm oldPerm)), mem)

/-- What the call leaves, and the old protection or the status it ends with. -/
structure Outcome where
  allocs : List TrackedAlloc
  mem : VirtualMemory
  answer : Except U32 U32

/-- `nt_protect_virtual_memory`, where address and size have been read and the old protection is still to be written. -/
def ntProtectVirtualMemory (allocs : List TrackedAlloc) (mem : VirtualMemory) (addr size : U64) (newProtect : U32) : Option Outcome := do
  match ← protectMappedImagePages allocs mem addr size newProtect with
  | (.ok (some old), mem) => return ⟨allocs, mem, .ok old⟩
  | (.ok none, mem) =>
    let (allocs, old) := vmProtectRegion allocs addr newProtect
    return ⟨allocs, mem, .ok old⟩
  | (.error status, mem) => return ⟨allocs, mem, .error status⟩

/-! ## What is asked for -/

def RegionInside (start lim : Nat) (r : Region) : Prop := start ≤ r.base.toNat ∧ r.base.toNat + r.size.toNat ≤ lim

def RegionMeets (start lim : Nat) (r : Region) : Prop := r.base.toNat < lim ∧ start < r.base.toNat + r.size.toNat

instance (start lim : Nat) (r : Region) : Decidable (RegionInside start lim r) :=
  inferInstanceAs (Decidable (start ≤ r.base.toNat ∧ r.base.toNat + r.size.toNat ≤ lim))

instance (start lim : Nat) (r : Region) : Decidable (RegionMeets start lim r) :=
  inferInstanceAs (Decidable (r.base.toNat < lim ∧ start < r.base.toNat + r.size.toNat))

def asked (start lim : Nat) (newPerm : Perm) (r : Region) : Perm :=
  if RegionInside start lim r then newPerm
  else if RegionMeets start lim r then r.perm.union newPerm
  else r.perm

def recolor (x : Mapped) (p : Perm) : Mapped := { x with region := { x.region with perm := p } }

def FirstOfPage (mem : VirtualMemory) (addr : U64) (x : Mapped) : Prop :=
  mem.regions.find? (fun x => decide ((firstPage addr).toNat < x.region.endAddr)) = some x ∧ x.region.base.toNat < (firstPage addr).toNat + 0x1000

/-- The call does what is asked, with `old` as the permissions of the first page. -/
structure Performs (mem : VirtualMemory) (addr size : U64) (newPerm old : Perm) (out : Outcome) : Prop where
  refused : requestEnd addr size = none → (∃ status, out.answer = .error status) ∧ out.mem = mem
  done : ∀ lim, requestEnd addr size = some lim → out.answer = .ok (protectFromPerm old) ∧
    out.mem.regions = mem.regions.map fun x => recolor x (asked (firstPage addr).toNat lim.toNat newPerm x.region)

/-! ## The way of the loop -/

def spanOf (r : Region) : Sweep.Span := ⟨r.base.toNat, r.endAddr, (r.base + r.size).toNat⟩

def spans (m : VirtualMemory) : List Sweep.Span := m.regions.map fun x => spanOf x.region

section Way

variable {m m' : VirtualMemory} {x : Mapped} {start lim cur : U64} {newPerm : Perm}

theorem sorted_spans (hWf : WellFormed m) : Sweep.Sorted (spans m) where
  apart := List.pairwise_map.mpr hWf.separated
  ordered := by
    intro s hs
    obtain ⟨x, -, rfl⟩ := List.mem_map.mp hs
    have hBase := x.region.base.isLt
    have hSize := x.region.size.isLt
    simp only [spanOf, Region.endAddr, BitVec.toNat_add]
    omega

theorem next_spans (a : Nat) : Sweep.next (spans m) a = (m.regions.find? fun x => decide (a < x.region.endAddr)).map fun x => spanOf x.region := by
  rw [Sweep.next, spans, List.find?_map]
  rfl

theorem nextRegion_eq (a : U64) :
    m.nextRegion a = (m.regions.find? fun x => decide (a.toNat < x.region.endAddr)).map fun x => (x.region.base, x.region.size, x.region.perm) := rfl

theorem lo_lt_hi (hWf : WellFormed m) (hx : x ∈ m.regions) (hLow : x.region.base.toNat < 2 ^ 64 - 1) : (spanOf x.region).lo < (spanOf x.region).hi := by
  have hSize : x.region.size.toNat ≠ 0 := fun h => hWf.nonempty x hx (BitVec.eq_of_toNat_eq h)
  simp only [spanOf, Region.endAddr]
  omega

variable {i : Nat} {met : Sweep.Span → Prop}

theorem protect_base (hWf : WellFormed m) (hGet : m.regions[i]? = some x) (hLow : x.region.base.toNat < 2 ^ 64 - 1) (size : U64) (p : Perm) :
    m.protect x.region.base size p = .ok (x.region.perm, { m with regions := m.regions.set i (recolor x p), layoutGen := m.layoutGen + 1 }) := by
  have hIdx : m.findIdx x.region.base = some i := by
    refine (VirtualMemory.findIdx_eq_some_iff hWf.separated).mpr ⟨x, hGet, ?_⟩
    rw [Region.contains_iff]
    exact ⟨le_rfl, lo_lt_hi hWf (List.mem_of_getElem? hGet) hLow⟩
  rw [VirtualMemory.protect, hIdx, Option.bind_some, hGet]
  rfl

def given (start lim : U64) (newPerm : Perm) (r : Region) : Perm :=
  if (decide (start ≤ r.base) && decide (r.base + r.size ≤ lim)) = true then newPerm else r.perm.union newPerm

theorem union_union (p q : Perm) : (p.union q).union q = p.union q := by
  unfold Perm.union
  rw [BitVec.or_assoc, BitVec.or_self]

theorem given_given (x : Mapped) : given start lim newPerm (recolor x (given start lim newPerm x.region)).region = given start lim newPerm x.region := by
  unfold given recolor
  dsimp only
  split
  · rfl
  · exact union_union _ _

/-- The loop has given their permissions to the regions it came to, and only to them. -/
structure Painted (start lim : U64) (newPerm : Perm) (met : Sweep.Span → Prop) (m m' : VirtualMemory) : Prop where
  length : m'.regions.length = m.regions.length
  each : ∀ (k : Nat) (a : Mapped), m.regions[k]? = some a → ∃ p, m'.regions[k]? = some (recolor a p) ∧
    (met (spanOf a.region) → p = given start lim newPerm a.region) ∧ (¬met (spanOf a.region) → p = a.region.perm)

theorem painted_refl (h : ∀ s, ¬met s) : Painted start lim newPerm met m m :=
  ⟨rfl, fun _ a hGet => ⟨a.region.perm, hGet, fun hMet => absurd hMet (h _), fun _ => rfl⟩⟩

theorem spans_set (hGet : m.regions[i]? = some x) {p : Perm} (hRegions : m'.regions = m.regions.set i (recolor x p)) : spans m' = spans m := by
  unfold spans
  rw [hRegions, List.map_set]
  refine List.ext_getElem? fun j => ?_
  rw [List.getElem?_set]
  split
  · rename_i hij
    subst hij
    obtain ⟨hi, rfl⟩ := List.getElem?_eq_some_iff.mp hGet
    rw [if_pos (by rwa [List.length_map]), List.getElem?_map, hGet]
    rfl
  · rfl

theorem index_unique (hWf : WellFormed m) {k : Nat} {a : Mapped} (hGet : m.regions[i]? = some x) (hGet' : m.regions[k]? = some a)
    (hLow : x.region.base.toNat < 2 ^ 64 - 1) (hSame : spanOf a.region = spanOf x.region) : k = i := by
  have hHi : x.region.base.toNat < x.region.endAddr := lo_lt_hi hWf (List.mem_of_getElem? hGet) hLow
  have hLoSame : a.region.base.toNat = x.region.base.toNat := congrArg Sweep.Span.lo hSame
  have hHiSame : a.region.endAddr = x.region.endAddr := congrArg Sweep.Span.hi hSame
  have hIn : x.region.contains x.region.base = true := (Region.contains_iff _ _).mpr ⟨le_rfl, hHi⟩
  have hIn' : a.region.contains x.region.base = true := (Region.contains_iff _ _).mpr (by omega)
  exact hWf.separated.unique hGet' hGet hIn' hIn

theorem Painted.after (hWf : WellFormed m) (hGet : m.regions[i]? = some x) (hLow : x.region.base.toNat < 2 ^ 64 - 1) {m₁ : VirtualMemory}
    (hRegions : m₁.regions = m.regions.set i (recolor x (given start lim newPerm x.region))) {met₁ : Sweep.Span → Prop}
    (hMet : ∀ s, met s ↔ s = spanOf x.region ∨ met₁ s) (h : Painted start lim newPerm met₁ m₁ m') : Painted start lim newPerm met m m' := by
  have hi := (List.getElem?_eq_some_iff.mp hGet).1
  refine ⟨by rw [h.length, hRegions, List.length_set], fun k a hk => ?_⟩
  by_cases hki : k = i
  · subst hki
    cases hGet.symm.trans hk
    have hSet : m₁.regions[k]? = some (recolor x (given start lim newPerm x.region)) := by rw [hRegions, List.getElem?_set_self hi]
    obtain ⟨p, hHere, hYes, hNo⟩ := h.each k _ hSet
    have hp : p = given start lim newPerm x.region := by
      by_cases hAgain : met₁ (spanOf x.region)
      · exact (hYes hAgain).trans (given_given x)
      · exact hNo hAgain
    exact ⟨p, hHere, fun _ => hp, fun hNot => absurd ((hMet _).mpr (.inl rfl)) hNot⟩
  · have hSet : m₁.regions[k]? = some a := by rw [hRegions, List.getElem?_set_ne (Ne.symm hki), hk]
    obtain ⟨p, hHere, hYes, hNo⟩ := h.each k a hSet
    have hOther : met (spanOf a.region) ↔ met₁ (spanOf a.region) := by
      rw [hMet]
      exact or_iff_right fun hSame => hki (index_unique hWf hGet hk hLow hSame)
    exact ⟨p, hHere, fun hThis => hYes (hOther.mp hThis), fun hThis => hNo fun h₁ => hThis (hOther.mpr h₁)⟩

theorem round_regions (hWf : WellFormed m) (hGet : m.regions[i]? = some x) (hLow : x.region.base.toNat < 2 ^ 64 - 1) (p : Perm) :
    (if p ≠ x.region.perm then ((m.protect x.region.base x.region.size p).toOption.map Prod.snd).getD m else m).regions =
      m.regions.set i (recolor x p) := by
  by_cases hSame : p = x.region.perm
  · subst hSame
    rw [if_neg (not_not.mpr rfl)]
    obtain ⟨hi, rfl⟩ := List.getElem?_eq_some_iff.mp hGet
    exact (List.set_getElem_self hi).symm
  · rw [if_pos hSame, protect_base hWf hGet hLow]
    rfl

theorem protectLoop_painted (hWf : WellFormed m) (hLim : lim.toNat + 0x1000 ≤ 2 ^ 64) {n : Nat}
    (h : protectLoop start lim newPerm n cur m = some m') :
    Painted start lim newPerm (Sweep.Met (spans m) 0x1000 lim.toNat cur.toNat) m m' := by
  induction n generalizing cur m with
  | zero =>
    rw [protectLoop] at h
    split at h
    · cases h
    · rename_i hEnd
      cases h
      exact painted_refl fun s => Sweep.not_met fun hGo => hEnd hGo.1
  | succ n ih =>
    rw [protectLoop] at h
    split at h
    · rename_i hIn
      rw [nextRegion_eq] at h
      have hNext := next_spans (m := m) cur.toNat
      cases hFind : m.regions.find? fun x => decide (cur.toNat < x.region.endAddr) with
      | none =>
        rw [hFind] at h hNext
        cases h
        refine painted_refl fun s => Sweep.not_met fun hGo => ?_
        obtain ⟨-, t, hSome, -⟩ := hGo
        exact nomatch hNext.symm.trans hSome
      | some x =>
        rw [hFind] at h hNext
        simp only [Option.map_some] at h hNext
        split at h
        · rename_i hOut
          cases h
          refine painted_refl fun s => Sweep.not_met fun hGo => ?_
          obtain ⟨-, t, hSome, hLow⟩ := hGo
          cases hNext.symm.trans hSome
          exact absurd hLow (Nat.not_lt.mpr hOut)
        · rename_i hOut
          obtain ⟨i, hGet⟩ := List.mem_iff_getElem?.mp (List.mem_of_find?_eq_some hFind)
          have hLow : x.region.base.toNat < lim.toNat := Nat.not_le.mp hOut
          have hRegions := round_regions hWf hGet (by omega) (given start lim newPerm x.region)
          have hCur : (maxU64 (x.region.base + x.region.size) (cur + PAGE)).toNat = max (spanOf x.region).goal (cur.toNat + 0x1000) := by
            have hIn' : cur.toNat < lim.toNat := hIn
            have hPage : PAGE.toNat = 0x1000 := rfl
            rw [toNat_maxU64, BitVec.toNat_add cur, hPage, Nat.mod_eq_of_lt (by omega)]
            rfl
          have hRest := ih (hWf.set (recolor x (given start lim newPerm x.region)) hGet rfl rfl hRegions) h
          rw [spans_set hGet hRegions, hCur] at hRest
          exact hRest.after hWf hGet (by omega) hRegions fun s => Sweep.met_iff hIn hNext hLow
    · rename_i hEnd
      cases h
      exact painted_refl fun s => Sweep.not_met fun hGo => hEnd hGo.1

theorem protectLoop_some (hLim : lim.toNat + 0x1000 ≤ 2 ^ 64) {n : Nat} (hEnough : lim.toNat ≤ cur.toNat + n * 0x1000) :
    ∃ m', protectLoop start lim newPerm n cur m = some m' := by
  induction n generalizing cur m with
  | zero =>
    rw [protectLoop, if_neg]
    · exact ⟨m, rfl⟩
    · rw [BitVec.lt_def]
      omega
  | succ n ih =>
    rw [protectLoop]
    split
    · rename_i hIn
      have hIn' : cur.toNat < lim.toNat := hIn
      split
      · exact ⟨m, rfl⟩
      · split
        · exact ⟨m, rfl⟩
        · refine ih ?_
          have hPage : PAGE.toNat = 0x1000 := rfl
          rw [toNat_maxU64, BitVec.toNat_add cur, hPage, Nat.mod_eq_of_lt (by omega)]
          omega
    · exact ⟨m, rfl⟩

/-! ## When it is right -/

theorem firstPage_toNat (addr : U64) : (firstPage addr).toNat = addr.toNat / 0x1000 * 0x1000 := toNat_and_not_mask _ page_toNat

theorem checkedAdd_some {a b c : U64} (h : checkedAdd a b = some c) : c.toNat = a.toNat + b.toNat := by
  unfold checkedAdd at h
  split at h
  · cases h
    rw [BitVec.toNat_add, Nat.mod_eq_of_lt (by assumption)]
  · cases h

theorem requestEnd_some {addr size : U64} (h : requestEnd addr size = some lim) :
    lim.toNat = (addr.toNat + max size.toNat 1 + 0xFFF) / 0x1000 * 0x1000 ∧ lim.toNat + 0x1000 ≤ 2 ^ 64 ∧ (firstPage addr).toNat < lim.toNat := by
  obtain ⟨e, hFirst, h⟩ := Option.bind_eq_some_iff.mp h
  obtain ⟨e', hSecond, h⟩ := Option.bind_eq_some_iff.mp h
  cases h
  have hLess := e'.isLt
  have hFirst := checkedAdd_some hFirst
  have hSecond := checkedAdd_some hSecond
  have hMask : (e' &&& ~~~(PAGE - 1)).toNat = e'.toNat / 0x1000 * 0x1000 := toNat_and_not_mask _ page_toNat
  have hOne : (1 : U64).toNat = 1 := rfl
  have hPage : (PAGE - 1).toNat = 0xFFF := rfl
  rw [toNat_maxU64, hOne] at hFirst
  rw [hPage] at hSecond
  rw [hMask, firstPage_toNat, hSecond, hFirst]
  omega

/-- What stands in the way of a region in the range: the loop passes it over, or its end is beyond all addresses and
the sum that should give it comes out small. -/
def Kept (m : VirtualMemory) (addr lim : U64) (newPerm : Perm) : Prop :=
  ∀ x ∈ m.regions, RegionMeets (firstPage addr).toNat lim.toNat x.region →
    (Sweep.Skipped (spans m) 0x1000 lim.toNat (firstPage addr).toNat (spanOf x.region) →
      asked (firstPage addr).toNat lim.toNat newPerm x.region = x.region.perm) ∧
    (¬Sweep.Skipped (spans m) 0x1000 lim.toNat (firstPage addr).toNat (spanOf x.region) →
      2 ^ 64 ≤ x.region.base.toNat + x.region.size.toNat → firstPage addr ≤ x.region.base → x.region.perm.union newPerm = newPerm)

theorem Painted.regions_eq_iff (h : Painted start lim newPerm met m m') (want : Region → Perm) :
    (m'.regions = m.regions.map fun x => recolor x (want x.region)) ↔ ∀ x ∈ m.regions,
      (met (spanOf x.region) → given start lim newPerm x.region = want x.region) ∧ (¬met (spanOf x.region) → want x.region = x.region.perm) := by
  constructor
  · intro hSame x hx
    obtain ⟨k, hk⟩ := List.mem_iff_getElem?.mp hx
    obtain ⟨p, hHere, hYes, hNo⟩ := h.each k x hk
    rw [hSame, List.getElem?_map, hk] at hHere
    have hp : want x.region = p := congrArg (fun y : Mapped => y.region.perm) (Option.some.inj hHere)
    exact ⟨fun hMet => ((hYes hMet).symm.trans hp.symm), fun hNot => hp.trans (hNo hNot)⟩
  · intro hAll
    refine List.ext_getElem? fun k => ?_
    rw [List.getElem?_map]
    cases hk : m.regions[k]? with
    | none =>
      rw [List.getElem?_eq_none_iff] at hk
      rw [List.getElem?_eq_none (by rwa [h.length])]
      rfl
    | some x =>
      obtain ⟨p, hHere, hYes, hNo⟩ := h.each k x hk
      obtain ⟨hGiven, hStay⟩ := hAll x (List.mem_of_getElem? hk)
      have hp : p = want x.region := by
        by_cases hMet : met (spanOf x.region)
        · exact (hYes hMet).trans (hGiven hMet)
        · exact (hNo hMet).trans (hStay hMet).symm
      rw [hHere, hp]
      rfl

theorem asked_of_not_meets {lo hi : Nat} {r : Region} (hSize : r.size ≠ 0) (h : ¬RegionMeets lo hi r) : asked lo hi newPerm r = r.perm := by
  have hPos : r.size.toNat ≠ 0 := fun hZero => hSize (BitVec.eq_of_toNat_eq hZero)
  have hNot : ¬RegionInside lo hi r := fun hIn => h ⟨by have := hIn.2; omega, by have := hIn.1; omega⟩
  rw [asked, if_neg hNot, if_neg h]

theorem given_eq_asked_iff {r : Region} (hMeets : RegionMeets start.toNat lim.toNat r) :
    given start lim newPerm r = asked start.toNat lim.toNat newPerm r ↔
      (2 ^ 64 ≤ r.base.toNat + r.size.toNat → start ≤ r.base → r.perm.union newPerm = newPerm) := by
  have hSum : (r.base + r.size).toNat = (r.base.toNat + r.size.toNat) % 2 ^ 64 := BitVec.toNat_add _ _
  have hLimLt := lim.isLt
  have hSizeLt := r.size.isLt
  have hLow := hMeets.1
  unfold given
  rcases Nat.lt_or_ge (r.base.toNat + r.size.toNat) (2 ^ 64) with hFits | hWraps
  · refine iff_of_true ?_ fun hOver => absurd hFits (Nat.not_lt.mpr hOver)
    rw [Nat.mod_eq_of_lt hFits] at hSum
    rw [asked, if_pos hMeets]
    by_cases hInside : RegionInside start.toNat lim.toNat r
    · rw [if_pos hInside, if_pos]
      rw [Bool.and_eq_true, decide_eq_true_eq, decide_eq_true_eq, BitVec.le_def, BitVec.le_def, hSum]
      exact hInside
    · rw [if_neg hInside, if_neg]
      rw [Bool.and_eq_true, decide_eq_true_eq, decide_eq_true_eq, BitVec.le_def, BitVec.le_def, hSum]
      exact hInside
  · have hOut : ¬RegionInside start.toNat lim.toNat r := fun hIn => by
      have := hIn.2
      omega
    rw [asked, if_neg hOut, if_pos hMeets]
    by_cases hStart : start ≤ r.base
    · rw [if_pos]
      · exact ⟨fun h _ _ => h.symm, fun h => (h hWraps hStart).symm⟩
      · rw [Bool.and_eq_true, decide_eq_true_eq, decide_eq_true_eq, BitVec.le_def (y := lim), hSum]
        exact ⟨hStart, by omega⟩
    · rw [if_neg]
      · exact iff_of_true rfl fun _ h => absurd h hStart
      · rw [Bool.and_eq_true, decide_eq_true_eq]
        exact fun h => hStart h.1

theorem kept_iff (hWf : WellFormed m) {addr size : U64} (hEnd : requestEnd addr size = some lim) :
    (∀ x ∈ m.regions, (Sweep.Met (spans m) 0x1000 lim.toNat (firstPage addr).toNat (spanOf x.region) →
        given (firstPage addr) lim newPerm x.region = asked (firstPage addr).toNat lim.toNat newPerm x.region) ∧
      (¬Sweep.Met (spans m) 0x1000 lim.toNat (firstPage addr).toNat (spanOf x.region) →
        asked (firstPage addr).toNat lim.toNat newPerm x.region = x.region.perm)) ↔ Kept m addr lim newPerm := by
  obtain ⟨-, hTop, hOrder⟩ := requestEnd_some hEnd
  refine forall₂_congr fun x hx => ?_
  by_cases hMeets : RegionMeets (firstPage addr).toNat lim.toNat x.region
  · have hProper := lo_lt_hi hWf hx (by have := hMeets.1; omega)
    have hBehind : (firstPage addr).toNat < (spanOf x.region).hi := by
      have := hMeets.2
      simp only [spanOf, Region.endAddr]
      omega
    have hEither := (sorted_spans hWf).met_or_skipped (by decide : 0 < 0x1000) (List.mem_map.mpr ⟨x, hx, rfl⟩) hProper hMeets.1 hOrder hBehind
    have hMet : Sweep.Met (spans m) 0x1000 lim.toNat (firstPage addr).toNat (spanOf x.region) ↔
        ¬Sweep.Skipped (spans m) 0x1000 lim.toNat (firstPage addr).toNat (spanOf x.region) :=
      ⟨fun h hSkip => (sorted_spans hWf).not_met_of_skipped hProper hSkip h, fun h => hEither.resolve_right h⟩
    rw [hMet, not_not, given_eq_asked_iff hMeets]
    exact ⟨fun h _ => ⟨h.2, h.1⟩, fun h => ⟨(h hMeets).2, (h hMeets).1⟩⟩
  · refine iff_of_true ⟨fun hMet => ?_, fun _ => asked_of_not_meets (hWf.nonempty x hx) hMeets⟩ fun h => absurd h hMeets
    obtain ⟨-, hBehind, hLow⟩ := hMet.bounds
    refine absurd ⟨hLow, ?_⟩ hMeets
    simp only [spanOf, Region.endAddr] at hBehind
    omega

end Way

section Call

variable {mem : VirtualMemory} {allocs : List TrackedAlloc} {addr size : U64} {newProtect : U32} {newPerm : Perm} {x : Mapped}

/-- On memory that no allocation is kept of, of which the first page is mapped: the call ends, and does what is asked
exactly if the first byte of the page is mapped and the loop meets all regions it has to change, or if there is nothing to do. -/
theorem performs_iff (hWf : WellFormed mem) (hUntracked : vmRegionBounds allocs addr = none)
    (hPerm : permFromProtect newProtect = some newPerm) (hFirst : FirstOfPage mem addr x) :
    (∃ out, ntProtectVirtualMemory allocs mem addr size newProtect = some out ∧ Performs mem addr size newPerm x.region.perm out) ↔
      (x.region.base ≤ firstPage addr ∧ ∀ lim, requestEnd addr size = some lim → Kept mem addr lim newPerm) ∨
        (firstPage addr < x.region.base ∧ ∃ lim, requestEnd addr size = some lim ∧
          (∀ y ∈ mem.regions, asked (firstPage addr).toNat lim.toNat newPerm y.region = y.region.perm) ∧
          (vmProtectRegion allocs addr newProtect).2 = protectFromPerm x.region.perm) := by
  have hNext : mem.nextRegion (firstPage addr) = some (x.region.base, x.region.size, x.region.perm) := by rw [nextRegion_eq, hFirst.1, Option.map_some]
  rcases Nat.lt_or_ge (firstPage addr).toNat x.region.base.toNat with hGap | hHere
  · have hRun : ntProtectVirtualMemory allocs mem addr size newProtect =
        some ⟨(vmProtectRegion allocs addr newProtect).1, mem, .ok (vmProtectRegion allocs addr newProtect).2⟩ := by
      simp only [ntProtectVirtualMemory, protectMappedImagePages, hUntracked, hNext, if_pos (show firstPage addr < x.region.base from hGap)]
      rfl
    constructor
    · rintro ⟨out, hOut, hPerforms⟩
      cases hRun.symm.trans hOut
      refine .inr ⟨hGap, ?_⟩
      cases hEnd : requestEnd addr size with
      | none =>
        obtain ⟨⟨status, hStatus⟩, -⟩ := hPerforms.refused hEnd
        cases hStatus
      | some lim =>
        obtain ⟨hOld, hRegions⟩ := hPerforms.done lim hEnd
        refine ⟨lim, rfl, fun y hy => ?_, Except.ok.inj hOld⟩
        obtain ⟨k, hk⟩ := List.mem_iff_getElem?.mp hy
        have hSame := congrArg (fun rs : List Mapped => rs[k]?) hRegions
        simp only [List.getElem?_map, hk, Option.map_some] at hSame
        exact (congrArg (fun z : Mapped => z.region.perm) (Option.some.inj hSame)).symm
    · rintro (⟨hBase, -⟩ | ⟨-, lim, hEnd, hNothing, hOld⟩)
      · exact absurd hGap (Nat.not_lt.mpr hBase)
      · refine ⟨_, hRun, ⟨fun hNone => (nomatch hNone.symm.trans hEnd), fun lim' hEnd' => ?_⟩⟩
        cases hEnd.symm.trans hEnd'
        refine ⟨congrArg Except.ok hOld, ?_⟩
        have hSame : ∀ y ∈ mem.regions, recolor y (asked (firstPage addr).toNat lim.toNat newPerm y.region) = id y := by
          intro y hy
          rw [hNothing y hy]
          rfl
        exact (List.map_id _).symm.trans (List.map_congr_left fun y hy => (hSame y hy).symm)
  · have hNotGap : ¬firstPage addr < x.region.base := Nat.not_lt.mpr hHere
    cases hEnd : requestEnd addr size with
    | none =>
      have hRun : ntProtectVirtualMemory allocs mem addr size newProtect = some ⟨allocs, mem, .error STATUS_INVALID_PARAMETER⟩ := by
        simp only [ntProtectVirtualMemory, protectMappedImagePages, hUntracked, hNext, if_neg hNotGap, hPerm, hEnd]
        rfl
      refine iff_of_true ⟨_, hRun, ⟨fun _ => ⟨⟨_, rfl⟩, rfl⟩, fun lim hSome => (nomatch hEnd.symm.trans hSome)⟩⟩ (.inl ⟨hHere, fun lim hSome => ?_⟩)
      cases hSome
    | some lim =>
      obtain ⟨hLim, hTop, hOrder⟩ := requestEnd_some hEnd
      have hRounds : lim.toNat ≤ (firstPage addr).toNat + rounds (firstPage addr) lim * 0x1000 := by
        rw [rounds, BitVec.toNat_sub_of_le (Nat.le_of_lt hOrder)]
        rw [firstPage_toNat] at hOrder ⊢
        omega
      obtain ⟨mem', hLoop⟩ : ∃ mem', protectLoop (firstPage addr) lim newPerm (rounds (firstPage addr) lim) (firstPage addr) mem = some mem' :=
        protectLoop_some hTop hRounds
      have hPainted := protectLoop_painted hWf hTop hLoop
      have hRun : ntProtectVirtualMemory allocs mem addr size newProtect = some ⟨allocs, mem', .ok (protectFromPerm x.region.perm)⟩ := by
        simp only [ntProtectVirtualMemory, protectMappedImagePages, hUntracked, hNext, if_neg hNotGap, hPerm, hEnd, hLoop]
        rfl
      have hRight : Performs mem addr size newPerm x.region.perm ⟨allocs, mem', .ok (protectFromPerm x.region.perm)⟩ ↔ Kept mem addr lim newPerm := by
        rw [← kept_iff hWf hEnd, ← hPainted.regions_eq_iff (asked (firstPage addr).toNat lim.toNat newPerm)]
        constructor
        · exact fun h => (h.done lim hEnd).2
        · refine fun h => ⟨fun hNone => (nomatch hNone.symm.trans hEnd), fun lim' hEnd' => ?_⟩
          cases hEnd.symm.trans hEnd'
          exact ⟨rfl, h⟩
      constructor
      · rintro ⟨out, hOut, hPerforms⟩
        cases hRun.symm.trans hOut
        refine .inl ⟨hHere, fun lim' hEnd' => ?_⟩
        cases hEnd'
        exact hRight.mp hPerforms
      · rintro (⟨-, hKept⟩ | ⟨hGap, -⟩)
        · exact ⟨_, hRun, hRight.mpr (hKept lim rfl)⟩
        · exact absurd hGap hNotGap

theorem kept_of_pages {lim : U64} (hWf : WellFormed mem) (hEnd : requestEnd addr size = some lim)
    (hPages : ∀ x ∈ mem.regions, 0x1000 ∣ x.region.base.toNat + x.region.size.toNat ∧ x.region.base.toNat + x.region.size.toNat < 2 ^ 64) :
    Kept mem addr lim newPerm := by
  intro x hx hMeets
  obtain ⟨-, hTop, -⟩ := requestEnd_some hEnd
  refine ⟨fun hSkipped => absurd hSkipped (Sweep.not_skipped_of_dvd ?_ (lo_lt_hi hWf hx ?_) hMeets.1 ?_), fun _ hOver => ?_⟩
  · rintro s hs
    obtain ⟨y, hy, rfl⟩ := List.mem_map.mp hs
    obtain ⟨hDvd, hFits⟩ := hPages y hy
    simp only [spanOf, Region.endAddr, BitVec.toNat_add]
    rw [Nat.min_eq_left (by omega), Nat.mod_eq_of_lt hFits]
    exact ⟨hDvd, hDvd⟩
  · have hLow := hMeets.1
    omega
  · rw [firstPage_toNat]
    exact Nat.dvd_mul_left ..
  · exact absurd (hPages x hx).2 (Nat.not_lt.mpr hOver)

end Call

def memoryOf (rs : List Region) : VirtualMemory := VirtualMemory.new.history (rs.map fun r => .map true r)

theorem wellFormed_memoryOf (rs : List Region) : WellFormed (memoryOf rs) := VirtualMemory.wellFormed_history VirtualMemory.wellFormed_new _

theorem firstOfPage_memoryOf {rs : List Region} {addr : U64}
    (h : (((memoryOf rs).regions.find? fun x => decide ((firstPage addr).toNat < x.region.endAddr)).map fun x =>
      decide (x.region.base.toNat < (firstPage addr).toNat + 0x1000)) = some true) : ∃ x, FirstOfPage (memoryOf rs) addr x := by
  obtain ⟨x, hFind, hLow⟩ := Option.map_eq_some_iff.mp h
  exact ⟨x, hFind, of_decide_eq_true hLow⟩

def smallRegions : List Region := [⟨"a", 0x1000, 0x100, .READ⟩, ⟨"b", 0x1200, 0x100, .READ⟩]

/-- The loop goes from the first region to the end of the page, and the second is passed over. -/
theorem second_region_kept : ∃ x, WellFormed (memoryOf smallRegions) ∧ vmRegionBounds [] 0x1000 = none ∧ permFromProtect 0x04 = some .RW ∧
    FirstOfPage (memoryOf smallRegions) 0x1000 x ∧ ¬∃ out, ntProtectVirtualMemory [] (memoryOf smallRegions) 0x1000 0x1000 0x04 = some out ∧
      Performs (memoryOf smallRegions) 0x1000 0x1000 .RW x.region.perm out := by
  obtain ⟨x, hFirst⟩ := @firstOfPage_memoryOf smallRegions 0x1000 (by decide)
  refine ⟨x, wellFormed_memoryOf _, rfl, rfl, hFirst, ?_⟩
  rintro ⟨out, hRun, hPerforms⟩
  have hPerms : (ntProtectVirtualMemory [] (memoryOf smallRegions) 0x1000 0x1000 0x04).map (fun o => o.mem.regions.map fun y => y.region.perm) =
      some [.RW, .READ] := by decide
  have hAsked : ((memoryOf smallRegions).regions.map fun y => asked (firstPage 0x1000).toNat (0x2000 : U64).toNat .RW y.region) = [.RW, .RW] := by
    decide
  obtain ⟨-, hRegions⟩ := hPerforms.done 0x2000 (by decide)
  have hGot := congrArg (fun rs : List Mapped => rs.map fun y => y.region.perm) hRegions
  simp only [List.map_map] at hGot
  rw [hRun, Option.map_some, hGot] at hPerms
  exact absurd (hAsked.symm.trans (Option.some.inj hPerms)) (by decide)

def sectionRegions : List Region := [⟨".text", 0x1000, 0x2000, .RX⟩, ⟨".data", 0x3000, 0x1000, .RW⟩]

theorem performs_of_sections : ∃ x, FirstOfPage (memoryOf sectionRegions) 0x2345 x ∧
    ∃ out, ntProtectVirtualMemory [] (memoryOf sectionRegions) 0x2345 0x1800 0x02 = some out ∧
      Performs (memoryOf sectionRegions) 0x2345 0x1800 .READ x.region.perm out := by
  obtain ⟨x, hFirst⟩ := @firstOfPage_memoryOf sectionRegions 0x2345 (by decide)
  have hBase : ((memoryOf sectionRegions).regions.find? fun x => decide ((firstPage 0x2345).toNat < x.region.endAddr)).map (fun x => x.region.base) =
      some 0x1000 := by decide
  rw [hFirst.1] at hBase
  have hPages : ∀ y ∈ (memoryOf sectionRegions).regions,
      0x1000 ∣ y.region.base.toNat + y.region.size.toNat ∧ y.region.base.toNat + y.region.size.toNat < 2 ^ 64 := by decide
  refine ⟨x, hFirst, (performs_iff (wellFormed_memoryOf _) rfl rfl hFirst).mpr (.inl ⟨?_, fun lim hEnd => ?_⟩)⟩
  · rw [show x.region.base = 0x1000 from Option.some.inj hBase]
    decide
  · exact kept_of_pages (wellFormed_memoryOf _) hEnd hPages

end Protect
end Os
end Exemu
