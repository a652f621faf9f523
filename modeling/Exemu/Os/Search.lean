import Exemu.Library.Align
import Exemu.Memory.Ranges
import Exemu.Os.Vm

/-! # Searching for room

The two searches step over the regions in their way.
-/
namespace Exemu.Os

open VirtualMemory

def InRange (r : Range) (x : Nat) : Prop := r.1.toNat ≤ x ∧ x < r.1.toNat + r.2.toNat

/-- Every address of `[a, a + n)` is mapped. -/
def Covered (m : VirtualMemory) (a n : Nat) : Prop := ∀ x, a ≤ x → x < a + n → ∃ r ∈ m.layout, InRange r x

/-- No region comes into `[a, a + n)`. -/
def Unmapped (m : VirtualMemory) (a n : Nat) : Prop := ∀ r ∈ m.layout, r.endAddr ≤ a ∨ a + n ≤ r.1.toNat

abbrev Addition := U64 × U64

def Addition.Fits (p : Addition) : Prop := p.1.toNat + p.2.toNat < 2 ^ 64

theorem gran_toNat : GRAN.toNat = 2 ^ 16 := rfl

theorem page_toNat : PAGE.toNat = 2 ^ 12 := rfl

theorem alignUp_gran {v : U64} (h : v.toNat + 0x10000 < 2 ^ 64) :
    (alignUp v GRAN).toNat = (v.toNat + 0xFFFF) / 0x10000 * 0x10000 :=
  toNat_alignUp (k := 16) v gran_toNat (by omega)

theorem alignUp_gran_mod (v : U64) : (alignUp v GRAN).toNat % 0x10000 = 0 := by
  unfold alignUp
  rw [toNat_and_not_mask (k := 16) _ gran_toNat]
  exact Nat.mul_mod_left _ _

theorem LOW_ARENA_BASE_mod : LOW_ARENA_BASE.toNat % 0x10000 = 0 := rfl

theorem alignUp_page {v : U64} (h : v.toNat + 0x1000 < 2 ^ 64) :
    (alignUp v PAGE).toNat = (v.toNat + 0xFFF) / 0x1000 * 0x1000 :=
  toNat_alignUp (k := 12) v page_toNat (by omega)

theorem alignUp_page_mod (v : U64) : (alignUp v PAGE).toNat % 0x1000 = 0 := by
  unfold alignUp
  rw [toNat_and_not_mask (k := 12) _ page_toNat]
  exact Nat.mul_mod_left _ _

theorem toNat_maxU64 (a b : U64) : (maxU64 a b).toNat = max a.toNat b.toNat := by
  unfold maxU64
  split
  · rename_i hLess
    have : a.toNat < b.toNat := hLess
    omega
  · rename_i hNot
    have : ¬a.toNat < b.toNat := hNot
    omega

/-! ## The next region -/

section Next

variable {m : VirtualMemory} {a rb rsize : U64} {perm : Perm}

theorem nextRegion_some (h : m.nextRegion a = some (rb, rsize, perm)) :
    (rb, rsize) ∈ m.layout ∧ a.toNat < Range.endAddr (rb, rsize) := by
  unfold VirtualMemory.nextRegion at h
  obtain ⟨x, hFind, hEq⟩ := Option.map_eq_some_iff.mp h
  cases hEq
  refine ⟨List.mem_map.mpr ⟨x, List.mem_of_find?_eq_some hFind, rfl⟩, ?_⟩
  have hAbove := List.find?_some hFind
  exact of_decide_eq_true hAbove

end Next

/-! ## Granules -/

section Granules

variable {mem : VirtualMemory} {size maxAddr base b : U64} {fuel : Nat}

theorem findFreeFrom_mod (hBase : base.toNat % 0x10000 = 0) (h : findFreeFrom mem size fuel base = some b) : b.toNat % 0x10000 = 0 := by
  induction fuel generalizing base with
  | zero => cases h
  | succ fuel ih =>
    unfold findFreeFrom at h
    split at h
    · cases h
      exact hBase
    · split at h
      · cases h
        exact hBase
      · exact ih (alignUp_gran_mod _) h

theorem findFreeBelow_mod (hBase : base.toNat % 0x10000 = 0) (h : findFreeBelow mem size maxAddr fuel base = some b) :
    b.toNat % 0x10000 = 0 := by
  induction fuel generalizing base with
  | zero => cases h
  | succ fuel ih =>
    unfold findFreeBelow at h
    split at h
    · cases h
    · split at h
      · cases h
      · split at h
        · cases h
          exact hBase
        · split at h
          · cases h
            exact hBase
          · exact ih (alignUp_gran_mod _) h

theorem vmFindFreeBelow_mod {s : Sys} (h : (s.vmFindFreeBelow size maxAddr).2 = some b) : b.toNat % 0x10000 = 0 := by
  unfold Sys.vmFindFreeBelow at h
  split at h
  · unfold Sys.vmFindFree at h
    split at h
    · rename_i hFind
      cases h
      exact findFreeFrom_mod (alignUp_gran_mod _) hFind
    · cases h
  · exact findFreeBelow_mod LOW_ARENA_BASE_mod h

end Granules

/-! ## What the searches add up -/

def findFreeSums (mem : VirtualMemory) (size : U64) : Nat → U64 → List Addition
  | 0, _ => []
  | fuel + 1, base =>
    match mem.nextRegion base with
    | none => []
    | some (rb, rsize, _) =>
      if (satAdd base size).toNat ≤ rb.toNat then []
      else (rb, rsize) :: (rb + rsize, GRAN) :: findFreeSums mem size fuel (alignUp (rb + rsize) GRAN)

/-- The sum `base + size` is a checked one; what is added to it is not. -/
def findFreeBelowSums (mem : VirtualMemory) (size maxAddr : U64) : Nat → U64 → List Addition
  | 0, _ => []
  | fuel + 1, base =>
    if 2 ^ 64 ≤ base.toNat + size.toNat then []
    else if base + size - 1 > maxAddr then []
    else
      match mem.nextRegion base with
      | none => []
      | some (rb, rsize, _) =>
        if base + size ≤ rb then []
        else (rb, rsize) :: (rb + rsize, GRAN) :: findFreeBelowSums mem size maxAddr fuel (alignUp (rb + rsize) GRAN)

def Sys.vmFindFreeSums (s : Sys) (size maxAddr : U64) : List Addition :=
  if maxAddr = BitVec.allOnes 64 then
    (s.os.vallocNext, GRAN) :: findFreeSums s.mem size s.searchFuel (alignUp s.os.vallocNext GRAN) ++
      match findFreeFrom s.mem size s.searchFuel (alignUp s.os.vallocNext GRAN) with
      | some base => [(size, GRAN), (base, alignUp size GRAN)]
      | none => []
  else findFreeBelowSums s.mem size maxAddr s.searchFuel LOW_ARENA_BASE

/-- Above `a` there is room for `size` bytes and the granule they end in. -/
structure RoomAbove (m : VirtualMemory) (a size : U64) : Prop where
  small : size.toNat + 0x10000 < 2 ^ 64
  room : ∃ b : Nat, a.toNat ≤ b ∧ b % 0x10000 = 0 ∧ b + (size.toNat + 0xFFFF) / 0x10000 * 0x10000 < 2 ^ 64 ∧
    Unmapped m b size.toNat

/-- No region that starts below the ceiling ends in the last granule of the address space. -/
def EndsEarly (m : VirtualMemory) (maxAddr : U64) : Prop :=
  ∀ r ∈ m.layout, r.1.toNat ≤ maxAddr.toNat → r.1.toNat + r.2.toNat + 0x10000 < 2 ^ 64

def Sys.Searchable (s : Sys) (size maxAddr : U64) : Prop :=
  if maxAddr = BitVec.allOnes 64 then RoomAbove s.mem s.os.vallocNext size else EndsEarly s.mem maxAddr

section Searches

variable {m : VirtualMemory} {size maxAddr base : U64}

theorem satAdd_toNat (a n : U64) : (satAdd a n).toNat = min (a.toNat + n.toNat) (2 ^ 64 - 1) := by
  unfold satAdd
  rw [BitVec.toNat_ofNat]
  omega

theorem findFree_within (fuel : Nat) {place : Nat} (hSize : size ≠ 0) (hAligned : place % 0x10000 = 0)
    (hEnd : place + (size.toNat + 0xFFFF) / 0x10000 * 0x10000 < 2 ^ 64) (hUnmapped : Unmapped m place size.toNat)
    (hBelow : base.toNat ≤ place) (hBase : base.toNat % 0x10000 = 0) :
    (∀ p ∈ findFreeSums m size fuel base, p.Fits) ∧
      ∀ b, findFreeFrom m size fuel base = some b → b.toNat % 0x10000 = 0 ∧ b.toNat ≤ place := by
  have hPos : size.toNat ≠ 0 := fun h => hSize (BitVec.eq_of_toNat_eq h)
  induction fuel generalizing base with
  | zero => exact ⟨fun p hp => by simp [findFreeSums] at hp, fun b hb => by simp [findFreeFrom] at hb⟩
  | succ fuel ih =>
    unfold findFreeSums findFreeFrom
    cases hNext : m.nextRegion base with
    | none =>
      refine ⟨fun p hp => by simp at hp, fun b hb => ?_⟩
      cases hb
      exact ⟨hBase, hBelow⟩
    | some r =>
      obtain ⟨rb, rsize, perm⟩ := r
      obtain ⟨hMem, hAbove⟩ := nextRegion_some hNext
      dsimp only
      split
      · refine ⟨fun p hp => by simp at hp, fun b hb => ?_⟩
        cases hb
        exact ⟨hBase, hBelow⟩
      · rename_i hBusy
        have hUnder : rb.toNat + rsize.toNat ≤ place := by
          rw [satAdd_toNat] at hBusy
          unfold Range.endAddr at hAbove
          rcases hUnmapped _ hMem with hLow | hHigh
          · unfold Range.endAddr at hLow
            dsimp only at hLow
            omega
          · dsimp only at hHigh
            omega
        have hSum : (rb + rsize).toNat = rb.toNat + rsize.toNat := by
          rw [BitVec.toNat_add, Nat.mod_eq_of_lt (by omega)]
        have hGran : (rb + rsize).toNat + 0x10000 < 2 ^ 64 := by
          rw [hSum]
          omega
        have hStep : (alignUp (rb + rsize) GRAN).toNat ≤ place := by
          rw [alignUp_gran hGran, hSum]
          omega
        obtain ⟨hSums, hFound⟩ := ih hStep (alignUp_gran_mod _)
        refine ⟨fun p hp => ?_, hFound⟩
        rcases List.mem_cons.mp hp with rfl | hp
        · change rb.toNat + rsize.toNat < 2 ^ 64
          omega
        · rcases List.mem_cons.mp hp with rfl | hp
          · exact hGran
          · exact hSums p hp

theorem findFreeBelow_within (fuel : Nat) (hEarly : EndsEarly m maxAddr) (hSize : size ≠ 0)
    (hBase : base.toNat % 0x10000 = 0) :
    (∀ p ∈ findFreeBelowSums m size maxAddr fuel base, p.Fits) ∧
      ∀ b, findFreeBelow m size maxAddr fuel base = some b →
        b.toNat % 0x10000 = 0 ∧ b.toNat + size.toNat < 2 ^ 64 ∧ b.toNat + size.toNat ≤ maxAddr.toNat + 1 := by
  have hPos : size.toNat ≠ 0 := fun h => hSize (BitVec.eq_of_toNat_eq h)
  induction fuel generalizing base with
  | zero => exact ⟨fun p hp => by simp [findFreeBelowSums] at hp, fun b hb => by simp [findFreeBelow] at hb⟩
  | succ fuel ih =>
    unfold findFreeBelowSums findFreeBelow
    split
    · exact ⟨fun p hp => by simp at hp, fun b hb => by simp at hb⟩
    · rename_i hFits
      split
      · exact ⟨fun p hp => by simp at hp, fun b hb => by simp at hb⟩
      · rename_i hUnder
        have hEnd : (base + size).toNat = base.toNat + size.toNat := by
          rw [BitVec.toNat_add, Nat.mod_eq_of_lt (by omega)]
        have hLast : base.toNat + size.toNat ≤ maxAddr.toNat + 1 := by
          have hLe : (base + size - 1).toNat ≤ maxAddr.toNat := Nat.not_lt.mp hUnder
          have hOne : (base + size - 1).toNat = base.toNat + size.toNat - 1 := by
            have hSome : 1 ≤ (base + size).toNat := by omega
            rw [BitVec.toNat_sub_of_le (BitVec.le_def.mpr (by simpa using hSome)), hEnd]
            rfl
          omega
        have hDone : ∀ b : U64, some base = some b →
            b.toNat % 0x10000 = 0 ∧ b.toNat + size.toNat < 2 ^ 64 ∧ b.toNat + size.toNat ≤ maxAddr.toNat + 1 := by
          intro b hb
          cases hb
          exact ⟨hBase, by omega, hLast⟩
        cases hNext : m.nextRegion base with
        | none => exact ⟨fun p hp => by simp at hp, hDone⟩
        | some r =>
          obtain ⟨rb, rsize, perm⟩ := r
          dsimp only
          split
          · exact ⟨fun p hp => by simp at hp, hDone⟩
          · rename_i hBusy
            have hStart : rb.toNat < base.toNat + size.toNat := by
              rw [BitVec.le_def, hEnd] at hBusy
              omega
            have hRoom := hEarly _ (nextRegion_some hNext).1 (by dsimp only; omega)
            dsimp only at hRoom
            have hSum : (rb + rsize).toNat = rb.toNat + rsize.toNat := by
              rw [BitVec.toNat_add, Nat.mod_eq_of_lt (by omega)]
            obtain ⟨hSums, hFound⟩ := ih (alignUp_gran_mod (rb + rsize))
            refine ⟨fun p hp => ?_, hFound⟩
            rcases List.mem_cons.mp hp with rfl | hp
            · change rb.toNat + rsize.toNat < 2 ^ 64
              omega
            · rcases List.mem_cons.mp hp with rfl | hp
              · change (rb + rsize).toNat + 0x10000 < 2 ^ 64
                omega
              · exact hSums p hp

/-- What a search gives, if its condition holds: a place on a granule that ends below `2 ^ 64` and
below the ceiling, and sums that do not wrap. -/
structure Placement (size maxAddr : U64) (sums : List Addition) (found : Option U64) : Prop where
  fits : ∀ p ∈ sums, p.Fits
  aligned : ∀ b, found = some b → b.toNat % 0x10000 = 0
  inside : ∀ b, found = some b → b.toNat + size.toNat < 2 ^ 64
  under : ∀ b, found = some b → b.toNat + size.toNat ≤ maxAddr.toNat + 1

theorem vmFindFreeBelow_found {s : Sys} (hSize : size ≠ 0) (h : s.Searchable size maxAddr) :
    Placement size maxAddr (s.vmFindFreeSums size maxAddr) (s.vmFindFreeBelow size maxAddr).2 := by
  unfold Sys.Searchable at h
  unfold Sys.vmFindFreeSums Sys.vmFindFreeBelow
  split at h
  · rename_i hTop
    rw [if_pos hTop, if_pos hTop]
    obtain ⟨hSome, place, hAbove, hAligned, hEnd, hUnmapped⟩ := h
    have hPos : size.toNat ≠ 0 := fun h => hSize (BitVec.eq_of_toNat_eq h)
    have hStart : s.os.vallocNext.toNat + 0x10000 < 2 ^ 64 := by omega
    have hBelow : (alignUp s.os.vallocNext GRAN).toNat ≤ place := by
      rw [alignUp_gran hStart]
      omega
    obtain ⟨hSums, hPlace⟩ := findFree_within s.searchFuel hSize hAligned hEnd hUnmapped hBelow
      (alignUp_gran_mod _)
    unfold Sys.vmFindFree
    cases hFind : findFreeFrom s.mem size s.searchFuel (alignUp s.os.vallocNext GRAN) with
    | none =>
      have hNone : ∀ b : U64, (none : Option U64) = some b → False := fun b hb => by cases hb
      refine ⟨fun p hp => ?_, fun b hb => (hNone b hb).elim, fun b hb => (hNone b hb).elim,
        fun b hb => (hNone b hb).elim⟩
      rw [List.append_nil] at hp
      rcases List.mem_cons.mp hp with rfl | hp
      · exact hStart
      · exact hSums p hp
    | some base =>
      obtain ⟨hMod, hLe⟩ := hPlace base hFind
      have hUp := alignUp_gran hSome
      refine ⟨fun p hp => ?_, fun b hb => ?_, fun b hb => ?_, fun b hb => ?_⟩
      · rcases List.mem_append.mp hp with hp | hp
        · rcases List.mem_cons.mp hp with rfl | hp
          · exact hStart
          · exact hSums p hp
        · rcases List.mem_cons.mp hp with rfl | hp
          · exact hSome
          · obtain rfl := List.mem_singleton.mp hp
            change base.toNat + (alignUp size GRAN).toNat < 2 ^ 64
            omega
      · cases hb
        exact hMod
      · cases hb
        omega
      · cases hb
        rw [hTop, BitVec.toNat_allOnes]
        omega
  · rename_i hCeiling
    rw [if_neg hCeiling, if_neg hCeiling]
    obtain ⟨hSums, hPlace⟩ := findFreeBelow_within s.searchFuel h hSize LOW_ARENA_BASE_mod
    exact ⟨hSums, fun b hb => (hPlace b hb).1, fun b hb => (hPlace b hb).2.1, fun b hb => (hPlace b hb).2.2⟩

end Searches

end Exemu.Os
