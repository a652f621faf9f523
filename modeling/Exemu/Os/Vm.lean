import Exemu.Os.Thread

/-! # Handing out guest address space -/
namespace Exemu.Os

def PAGE : U64 := 0x1000
def GRAN : U64 := 0x10000
def LOW_ARENA_BASE : U64 := 0x10000

/-- Rounded up to a multiple of `a`, a power of two; near the end of the address space it wraps. -/
def alignUp (v a : U64) : U64 := (v + a - 1) &&& ~~~(a - 1)

def maxU64 (a b : U64) : U64 := if a < b then b else a

/-- A base with `size` free bytes above it, searched upwards from `base`. A search that meets more
regions than there are has gone round the address space and does not end. -/
def findFreeFrom (mem : VirtualMemory) (size : U64) : Nat → U64 → Option U64
  | 0, _ => none
  | fuel + 1, base =>
    match mem.nextRegion base with
    | none => some base
    | some (rb, rsize, _) =>
      if (satAdd base size).toNat ≤ rb.toNat then some base
      else findFreeFrom mem size fuel (alignUp (rb + rsize) GRAN)

def findFreeBelow (mem : VirtualMemory) (size maxAddr : U64) : Nat → U64 → Option U64
  | 0, _ => none
  | fuel + 1, base =>
    if 2 ^ 64 ≤ base.toNat + size.toNat then none
    else if base + size - 1 > maxAddr then none
    else
      match mem.nextRegion base with
      | none => some base
      | some (rb, rsize, _) =>
        if base + size ≤ rb then some base
        else findFreeBelow mem size maxAddr fuel (alignUp (rb + rsize) GRAN)

namespace Sys

def searchFuel (s : Sys) : Nat := 2 * s.mem.regions.length + 2

def vmFindFree (s : Sys) (size : U64) : Sys × Option U64 :=
  match findFreeFrom s.mem size s.searchFuel (alignUp s.os.vallocNext GRAN) with
  | some base => ({ s with os := { s.os with vallocNext := base + alignUp size GRAN } }, some base)
  | none => (s, none)

def vmFindFreeBelow (s : Sys) (size maxAddr : U64) : Sys × Option U64 :=
  if maxAddr = BitVec.allOnes 64 then s.vmFindFree size
  else (s, findFreeBelow s.mem size maxAddr s.searchFuel LOW_ARENA_BASE)

/-- `map_fixed(..).ok()`; `granted` is the host allocator's answer for the region at a base. -/
def tryMap (s : Sys) (granted : U64 → Bool) (base size : U64) (perm : Perm) (name : String) : Sys × Bool :=
  match s.mem.mapFixed (granted base) base size perm name with
  | .ok mem => ({ s with mem := mem }, true)
  | .error _ => (s, false)

def mapFound (found : Sys × Option U64) (granted : U64 → Bool) (size : U64) (perm : Perm) (name : String) :
    Sys × Option U64 :=
  match found with
  | (s, none) => (s, none)
  | (s, some base) =>
    match s.tryMap granted base size perm name with
    | (s, true) => (s, some base)
    | (s, false) => (s, none)

def mapAnywhere (s : Sys) (granted : U64 → Bool) (size : U64) (perm : Perm) (name : String) :
    Sys × Option U64 :=
  mapFound (s.vmFindFree size) granted size perm name

def mapAnywhereLow (s : Sys) (granted : U64 → Bool) (size : U64) (perm : Perm) (name : String) :
    Sys × Option U64 :=
  mapFound (s.vmFindFreeBelow size 0xFFFFFFFF) granted size perm name

def setLastError (s : Sys) (code : U32) : Sys := { s with os := { s.os with lastError := code } }

def unmap (s : Sys) (base size : U64) : Sys := { s with mem := s.mem.unmap base size }

def vmInsert (s : Sys) (a : VmAlloc) : Sys :=
  let pos := partitionPoint (fun x => decide (x.base < a.base)) s.os.vmAllocs
  { s with os := { s.os with vmAllocs := s.os.vmAllocs.take pos ++ a :: s.os.vmAllocs.drop pos } }

def allocAt (os : WinOs) (base : U64) : Option Nat :=
  os.vmAllocs.findIdx? fun a => decide (a.base ≤ base) && decide (base < a.base + a.size)

def vmAllocRegionBelow (s : Sys) (granted : U64 → Bool) (addrReq sizeReq : U64) (committed : Bool)
    (maxAddr : U64) : Sys × U64 :=
  let size := alignUp (maxU64 sizeReq 1) PAGE
  if addrReq = 0 then
    match mapFound (s.vmFindFreeBelow size maxAddr) granted size Perm.RWX "valloc" with
    | (s, none) => (s.setLastError 8, 0)
    | (s, some base) => (s.vmInsert ⟨base, size, committed⟩, base)
  else
    let base := addrReq &&& ~~~(PAGE - 1)
    match allocAt s.os base with
    | some i =>
      let allocs := s.os.vmAllocs.modify i fun a => { a with committed := a.committed || committed }
      ({ s with os := { s.os with vmAllocs := allocs } }, base)
    | none =>
      let freeHere := (s.mem.nextRegion base).all fun r => decide (base + size ≤ r.1)
      if freeHere then
        match s.tryMap granted base size Perm.RWX "valloc" with
        | (s, true) => (s.vmInsert ⟨base, size, committed⟩, base)
        | (s, false) => (s, base)
      else (s, base)

/-- `MEM_RELEASE`: the allocation based there is forgotten and the region based there unmapped. -/
def vmRelease (s : Sys) (addr : U64) : Sys :=
  let base := addr &&& ~~~(PAGE - 1)
  match s.os.vmAllocs.findIdx? fun a => a.base == base with
  | none => s
  | some pos =>
    let s : Sys := { s with os := { s.os with vmAllocs := s.os.vmAllocs.eraseIdx pos } }
    s.unmap base 0

def mapView (s : Sys) (granted : U64 → Bool) (reqBase viewSize : U64) (low : Bool) : Sys × Option U64 :=
  let placed :=
    if reqBase ≠ 0 then
      let base := reqBase &&& ~~~(GRAN - 1)
      match s.tryMap granted base viewSize Perm.RWX "section-view" with
      | (s, true) => (s, some base)
      | (s, false) => (s, none)
    else if low then s.mapAnywhereLow granted viewSize Perm.RWX "section-view"
    else s.mapAnywhere granted viewSize Perm.RWX "section-view"
  match placed with
  | (s, some base) => (s.vmInsert ⟨base, viewSize, true⟩, some base)
  | (s, none) => (s, none)

/-! ## What a mapping does -/

variable (s : Sys) {size b : U64}

theorem tryMap_spec (granted : U64 → Bool) (base size : U64) (perm : Perm) (name : String) :
    (s.tryMap granted base size perm name).2 = false ∧ (s.tryMap granted base size perm name).1 = s ∨
      ∃ bytes mem, s.mem.insert ⟨name, base, size, perm⟩ bytes = .ok mem ∧
        s.tryMap granted base size perm name = ({ s with mem := mem }, true) := by
  unfold tryMap
  cases hMap : s.mem.mapFixed (granted base) base size perm name with
  | error e => exact .inl ⟨rfl, rfl⟩
  | ok mem =>
    unfold VirtualMemory.mapFixed VirtualMemory.map at hMap
    cases hZero : zeroed (granted base) size with
    | error e => simp [hZero, bind, Except.bind] at hMap
    | ok bytes => exact .inr ⟨bytes, mem, by simpa [hZero, bind, Except.bind] using hMap, rfl⟩

theorem mapFound_spec (found : Sys × Option U64) (granted : U64 → Bool) (size : U64) (perm : Perm) (name : String) :
    mapFound found granted size perm name = (found.1, none) ∨
      ∃ base bytes mem, found.2 = some base ∧ found.1.mem.insert ⟨name, base, size, perm⟩ bytes = .ok mem ∧
        mapFound found granted size perm name = ({ found.1 with mem := mem }, some base) := by
  obtain ⟨s, _ | base⟩ := found
  · exact .inl rfl
  · rcases s.tryMap_spec granted base size perm name with ⟨hNo, hSame⟩ | ⟨bytes, mem, hInsert, hMap⟩
    · have hMap : s.tryMap granted base size perm name = (s, false) := Prod.ext hSame hNo
      exact .inl (by simp only [mapFound, hMap])
    · exact .inr ⟨base, bytes, mem, rfl, hInsert, by simp only [mapFound, hMap]⟩

theorem vmFindFree_fst (size : U64) :
    ∃ next, (s.vmFindFree size).1 = { s with os := { s.os with vallocNext := next } } := by
  unfold vmFindFree
  cases findFreeFrom s.mem size s.searchFuel (alignUp s.os.vallocNext GRAN) with
  | none => exact ⟨s.os.vallocNext, rfl⟩
  | some base => exact ⟨base + alignUp size GRAN, rfl⟩

theorem vmFindFreeBelow_fst (size maxAddr : U64) :
    ∃ next, (s.vmFindFreeBelow size maxAddr).1 = { s with os := { s.os with vallocNext := next } } := by
  unfold vmFindFreeBelow
  split
  · exact s.vmFindFree_fst size
  · exact ⟨s.os.vallocNext, rfl⟩

/-- A mapping at a place that was searched for: nothing but the search pointer and the memory changes. -/
inductive Maps (s : Sys) (size : U64) : Sys × Option U64 → Prop
  | fails (next : U64) : Maps s size ({ s with os := { s.os with vallocNext := next } }, none)
  | maps (next base : U64) (region : Region) (bytes : Nat → U8) (mem : VirtualMemory)
      (hBase : region.base = base) (hSize : region.size = size) (hLast : base ≠ BitVec.allOnes 64)
      (hInsert : s.mem.insert region bytes = .ok mem) :
      Maps s size ({ s with os := { s.os with vallocNext := next }, mem := mem }, some base)

theorem alignUp_even (v : U64) : (alignUp v GRAN).getLsbD 0 = false := by
  simp [alignUp, GRAN]

theorem ne_last_of_even {v : U64} (h : v.getLsbD 0 = false) : v ≠ BitVec.allOnes 64 := by
  rintro rfl
  simp at h

theorem findFreeFrom_even {mem : VirtualMemory} {fuel : Nat} {base : U64} (hBase : base.getLsbD 0 = false)
    (h : findFreeFrom mem size fuel base = some b) : b.getLsbD 0 = false := by
  induction fuel generalizing base with
  | zero => cases h
  | succ fuel ih =>
    unfold findFreeFrom at h
    split at h
    · cases h
      exact hBase
    · split at h
      · cases h
        exact hBase
      · exact ih (alignUp_even _) h

theorem findFreeBelow_even {mem : VirtualMemory} {maxAddr : U64} {fuel : Nat} {base : U64}
    (hBase : base.getLsbD 0 = false) (h : findFreeBelow mem size maxAddr fuel base = some b) :
    b.getLsbD 0 = false := by
  induction fuel generalizing base with
  | zero => cases h
  | succ fuel ih =>
    unfold findFreeBelow at h
    split at h
    · cases h
    · split at h
      · cases h
      · split at h
        · cases h
          exact hBase
        · split at h
          · cases h
            exact hBase
          · exact ih (alignUp_even _) h

theorem vmFindFree_even {s : Sys} (h : (s.vmFindFree size).2 = some b) : b.getLsbD 0 = false := by
  unfold vmFindFree at h
  split at h
  · rename_i base hFind
    cases h
    exact findFreeFrom_even (alignUp_even _) hFind
  · cases h

theorem vmFindFreeBelow_even {s : Sys} {maxAddr : U64} (h : (s.vmFindFreeBelow size maxAddr).2 = some b) :
    b.getLsbD 0 = false := by
  unfold vmFindFreeBelow at h
  split at h
  · exact vmFindFree_even h
  · exact findFreeBelow_even (by decide) h

theorem mapFound_maps {found : Sys × Option U64} {s : Sys} {next : U64}
    (hFound : found.1 = { s with os := { s.os with vallocNext := next } })
    (hEven : ∀ b, found.2 = some b → b.getLsbD 0 = false) (granted : U64 → Bool) (size : U64) (perm : Perm)
    (name : String) : Maps s size (mapFound found granted size perm name) := by
  rcases mapFound_spec found granted size perm name with hMap | ⟨base, bytes, mem, hBase, hInsert, hMap⟩
  · rw [hMap, hFound]
    exact .fails next
  · rw [hMap, hFound]
    rw [hFound] at hInsert
    exact .maps next base _ bytes mem rfl rfl (ne_last_of_even (hEven base hBase)) hInsert

theorem mapFoundBelow_maps (granted : U64 → Bool) (size maxAddr : U64) (perm : Perm) (name : String) :
    Maps s size (mapFound (s.vmFindFreeBelow size maxAddr) granted size perm name) := by
  obtain ⟨next, hFound⟩ := s.vmFindFreeBelow_fst size maxAddr
  exact mapFound_maps hFound (fun _ => vmFindFreeBelow_even) granted size perm name

theorem mapAnywhere_maps (granted : U64 → Bool) (size : U64) (perm : Perm) (name : String) :
    Maps s size (s.mapAnywhere granted size perm name) := by
  obtain ⟨next, hFound⟩ := s.vmFindFree_fst size
  exact mapFound_maps hFound (fun _ => vmFindFree_even) granted size perm name

theorem mapAnywhereLow_maps (granted : U64 → Bool) (size : U64) (perm : Perm) (name : String) :
    Maps s size (s.mapAnywhereLow granted size perm name) :=
  s.mapFoundBelow_maps granted size 0xFFFFFFFF perm name

end Sys

end Exemu.Os
