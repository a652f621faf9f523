import Exemu.Memory.Hints
import Exemu.Library.Journal

/-! # The memory as a partial byte map

What the region vector is for: every address holds at most one byte, the one written there last
since the address was mapped.
-/
namespace Exemu

open Stamp

namespace Region

/-- The address is one of the region's, counted modulo `2 ^ 64` as pointer arithmetic does. -/
def holds (r : Region) (a : U64) : Bool := decide ((a - r.base).toNat < r.size.toNat)

theorem holds_iff (r : Region) (a : U64) : r.holds a = true ↔ (a - r.base).toNat < r.size.toNat := by
  simp [holds]

def fill (r : Region) (bytes : Nat → U8) : U64 → Option U8 := fun a =>
  if r.holds a then some (bytes (a - r.base).toNat) else none

theorem offset_add {r : Region} {a : U64} (hContains : r.contains a = true) {k : Nat}
    (hFits : a.toNat - r.base.toNat + k < r.size.toNat) :
    (a + BitVec.ofNat 64 k - r.base).toNat = a.toNat - r.base.toNat + k := by
  obtain ⟨hLow, -⟩ := (r.contains_iff a).mp hContains
  have hSize := r.size.isLt
  rw [BitVec.toNat_sub, BitVec.toNat_add, BitVec.toNat_ofNat]
  have hBase := r.base.isLt
  omega

/-- Between two regions the overlap check misses nothing: they do not both reach the last address,
and neither runs past the end as far as the base of the other. -/
structure ClearOf (new old : Region) : Prop where
  last : ¬(2 ^ 64 ≤ new.base.toNat + new.size.toNat ∧ 2 ^ 64 ≤ old.base.toNat + old.size.toNat)
  after : new.base.toNat + new.size.toNat ≤ 2 ^ 64 + old.base.toNat
  before : old.base.toNat + old.size.toNat ≤ 2 ^ 64 + new.base.toNat

theorem sub_toNat (a b : U64) : (a - b).toNat = if b.toNat ≤ a.toNat then a.toNat - b.toNat else 2 ^ 64 - b.toNat + a.toNat := by
  have hA := a.isLt
  have hB := b.isLt
  rw [BitVec.toNat_sub]
  split <;> omega

theorem clearOf_iff {new old : Region} (hNew : new.size ≠ 0) (hOld : old.size ≠ 0)
    (hFree : ¬(new.base.toNat < old.endAddr ∧ old.base.toNat < new.endAddr)) :
    ClearOf new old ↔ ∀ a, ¬(new.holds a = true ∧ old.holds a = true) := by
  have hNewSize : new.size.toNat ≠ 0 := fun h => hNew (BitVec.eq_of_toNat_eq h)
  have hOldSize : old.size.toNat ≠ 0 := fun h => hOld (BitVec.eq_of_toNat_eq h)
  have hNewBase := new.base.isLt
  have hOldBase := old.base.isLt
  have hNewLt := new.size.isLt
  have hOldLt := old.size.isLt
  constructor
  · rintro ⟨hLast, hAfter, hBefore⟩ a ⟨hIn, hIn'⟩
    have hA := a.isLt
    rw [holds_iff, sub_toNat] at hIn hIn'
    unfold endAddr at hFree
    split at hIn <;> split at hIn' <;> omega
  · intro hApart
    refine ⟨?_, ?_, ?_⟩
    · rintro ⟨hReach, hReach'⟩
      refine hApart (BitVec.allOnes 64) ⟨?_, ?_⟩
      · rw [holds_iff, sub_toNat, BitVec.toNat_allOnes]
        split <;> omega
      · rw [holds_iff, sub_toNat, BitVec.toNat_allOnes]
        split <;> omega
    · by_contra hPast
      refine hApart old.base ⟨?_, ?_⟩
      · rw [holds_iff, sub_toNat]
        split <;> omega
      · rw [holds_iff, sub_toNat]
        split <;> omega
    · by_contra hPast
      refine hApart new.base ⟨?_, ?_⟩
      · rw [holds_iff, sub_toNat]
        split <;> omega
      · rw [holds_iff, sub_toNat]
        split <;> omega

end Region

def wrote (addr : U64) (data : List U8) : U64 → Option U8 := fun a => data[(a - addr).toNat]?

namespace VirtualMemory

def ByteAt (m : VirtualMemory) (a : U64) (b : U8) : Prop :=
  ∃ r ∈ m.regions, r.region.holds a = true ∧ r.bytes (a - r.region.base).toNat = b

def Disjoint (m : VirtualMemory) : Prop :=
  m.regions.Pairwise fun x y => ∀ a, ¬(x.region.holds a = true ∧ y.region.holds a = true)

variable {m m' : VirtualMemory}

variable {i : Nat} {r : Mapped}

theorem Disjoint.unique (h : m.Disjoint) {j : Nat} {x y : Mapped} {a : U64} (hx : m.regions[i]? = some x)
    (hy : m.regions[j]? = some y) (hxa : x.region.holds a = true) (hya : y.region.holds a = true) : i = j := by
  obtain ⟨hi, rfl⟩ := List.getElem?_eq_some_iff.mp hx
  obtain ⟨hj, rfl⟩ := List.getElem?_eq_some_iff.mp hy
  rcases Nat.lt_trichotomy i j with hij | hij | hij
  · exact absurd ⟨hxa, hya⟩ (List.pairwise_iff_getElem.mp h i j hi hj hij a)
  · exact hij
  · exact absurd ⟨hya, hxa⟩ (List.pairwise_iff_getElem.mp h j i hj hi hij a)

theorem Disjoint.set (h : m.Disjoint) {x y : Mapped} (hGet : m.regions[i]? = some x) (hRegions : m'.regions = m.regions.set i y)
    (hBase : y.region.base = x.region.base) (hSize : y.region.size = x.region.size) : m'.Disjoint := by
  have hHolds : ∀ a, y.region.holds a = x.region.holds a := by
    intro a
    unfold Region.holds
    rw [hBase, hSize]
  obtain ⟨hi, hx⟩ := List.getElem?_eq_some_iff.mp hGet
  have hSame : ∀ (k : Nat) (hk : k < (m.regions.set i y).length) (a : U64),
      (m.regions.set i y)[k].region.holds a = (m.regions.get ⟨k, by simpa using hk⟩).region.holds a := by
    intro k hk a
    rw [List.getElem_set]
    split
    · rename_i hik
      subst hik
      rw [hHolds, List.get_eq_getElem, hx]
    · rfl
  unfold Disjoint
  rw [hRegions]
  refine List.pairwise_iff_getElem.mpr fun k l hk hl hkl a => ?_
  rw [hSame k hk, hSame l hl]
  exact List.pairwise_iff_getElem.mp h k l _ _ hkl a

theorem disjoint_insert_iff (h : m.Disjoint) {region : Region} {bytes : Nat → U8} (hSize : region.size ≠ 0)
    (hInsert : m.insert region bytes = .ok m') :
    m'.Disjoint ↔ ∀ r ∈ m.regions, ∀ a, ¬(region.holds a = true ∧ r.region.holds a = true) := by
  rcases insert_ok hInsert with ⟨hZero, -⟩ | ⟨-, -, rfl⟩
  · exact absurd hZero hSize
  · unfold Disjoint at h ⊢
    dsimp only
    rw [List.pairwise_middle fun hxy a hBoth => hxy a hBoth.symm, List.take_append_drop, List.pairwise_cons]
    exact ⟨fun hAll => hAll.1, fun hAll => ⟨hAll, h⟩⟩

theorem WellFormed.sorted (h : WellFormed m) (hDisjoint : m.Disjoint) :
    m.regions.Pairwise fun x y => x.region.base.toNat < y.region.base.toNat := by
  refine List.pairwise_iff_getElem.mpr fun i j hi hj hij => ?_
  have hOrder := List.pairwise_iff_getElem.mp h.separated i j hi hj hij
  have hLow := m.regions[i].region.base_le_endAddr
  refine lt_of_le_of_ne (by omega) fun hSame => ?_
  have hBase : m.regions[i].region.base = m.regions[j].region.base := BitVec.eq_of_toNat_eq hSame
  have hHolds : ∀ r ∈ m.regions, r.region.holds r.region.base = true := by
    intro r hr
    rw [Region.holds_iff, BitVec.sub_self]
    exact Nat.pos_of_ne_zero fun hZero => h.nonempty r hr (BitVec.eq_of_toNat_eq hZero)
  refine List.pairwise_iff_getElem.mp hDisjoint i j hi hj hij m.regions[i].region.base
    ⟨hHolds _ (List.getElem_mem hi), ?_⟩
  rw [hBase]
  exact hHolds _ (List.getElem_mem hj)

/-! ## What each operation does to the byte map -/

variable {a : U64} {b : U8}

theorem byteAt_insert {region : Region} {bytes : Nat → U8} (hInsert : m.insert region bytes = .ok m')
    (hDisjoint : m'.Disjoint) (hByte : m'.ByteAt a b) :
    region.fill bytes a = some b ∨ region.fill bytes a = none ∧ m.ByteAt a b := by
  rcases insert_ok hInsert with ⟨hSize, rfl⟩ | ⟨hSize, -, rfl⟩
  · right
    refine ⟨if_neg ?_, hByte⟩
    rw [Region.holds_iff, hSize]
    exact Nat.not_lt_zero _
  · obtain ⟨r, hr, hHolds, hAt⟩ := hByte
    unfold Disjoint at hDisjoint
    dsimp only at hr hDisjoint
    rw [List.pairwise_middle fun hxy a hBoth => hxy a hBoth.symm, List.pairwise_cons] at hDisjoint
    rw [List.mem_append, List.mem_cons, or_left_comm, ← List.mem_append] at hr
    rcases hr with rfl | hr
    · left
      rw [← hAt]
      exact if_pos hHolds
    · right
      refine ⟨if_neg fun hNew => hDisjoint.1 r hr a ⟨hNew, hHolds⟩, r, ?_, hHolds, hAt⟩
      rwa [List.take_append_drop] at hr

theorem byteAt_splice (hDisjoint : m.Disjoint) (hGet : m.regions[i]? = some r) {addr : U64} {data : List U8}
    (hContains : r.region.contains addr = true) (hFits : addr.toNat - r.region.base.toNat + data.length ≤ r.region.size.toNat)
    (hRegions : m'.regions = m.regions.set i { r with bytes := splice r.bytes (addr.toNat - r.region.base.toNat) data })
    (hByte : m'.ByteAt a b) : wrote addr data a = some b ∨ wrote addr data a = none ∧ m.ByteAt a b := by
  obtain ⟨s, hs, hHolds, hAt⟩ := hByte
  obtain ⟨j, hj⟩ := List.mem_iff_getElem?.mp hs
  rw [hRegions] at hj
  obtain ⟨hLow, hHigh⟩ := (Region.contains_iff _ _).mp hContains
  have hi := (List.getElem?_eq_some_iff.mp hGet).1
  have hSize := r.region.size.isLt
  have hBase := r.region.base.isLt
  have hAddr := addr.isLt
  have hA := a.isLt
  have hOffset := Region.sub_toNat a addr
  by_cases hij : i = j
  · subst hij
    rw [List.getElem?_set_self hi] at hj
    obtain rfl := Option.some.inj hj
    dsimp only at hHolds hAt
    rw [Region.holds_iff] at hHolds
    have hInside := Region.sub_toNat a r.region.base
    unfold splice at hAt
    unfold wrote
    split at hAt
    · rename_i hHere
      left
      have hIndex : (a - addr).toNat = (a - r.region.base).toNat - (addr.toNat - r.region.base.toNat) := by
        split at hOffset <;> split at hInside <;> omega
      have hLt : (a - addr).toNat < data.length := by omega
      rw [List.getElem?_eq_getElem hLt]
      simp only [hIndex] at hLt ⊢
      rw [← hAt, List.getD_eq_getElem?_getD, List.getElem?_eq_getElem hLt]
      rfl
    · rename_i hElsewhere
      right
      refine ⟨List.getElem?_eq_none ?_, r, List.mem_of_getElem? hGet, (Region.holds_iff _ _).mpr hHolds, hAt⟩
      split at hOffset <;> split at hInside <;> omega
  · rw [List.getElem?_set_ne hij] at hj
    right
    refine ⟨List.getElem?_eq_none ?_, s, List.mem_of_getElem? hj, hHolds, hAt⟩
    by_contra hHere
    refine hij (hDisjoint.unique hGet hj (a := a) ?_ hHolds)
    rw [Region.holds_iff]
    have hInside := Region.sub_toNat a r.region.base
    split at hOffset <;> split at hInside <;> omega

theorem byteAt_protect (hGet : m.regions[i]? = some r) {perm : Perm}
    (hRegions : m'.regions = m.regions.set i { r with region := { r.region with perm := perm } }) (hByte : m'.ByteAt a b) :
    m.ByteAt a b := by
  obtain ⟨s, hs, hHolds, hAt⟩ := hByte
  rcases List.mem_or_eq_of_mem_set (hRegions ▸ hs) with hs | rfl
  · exact ⟨s, hs, hHolds, hAt⟩
  · exact ⟨r, List.mem_of_getElem? hGet, hHolds, hAt⟩

theorem byteAt_unmap {base size : U64} (hByte : (m.unmap base size).ByteAt a b) : m.ByteAt a b := by
  obtain ⟨r, hr, hHolds, hAt⟩ := hByte
  exact ⟨r, (m.unmap_sublist base size).subset hr, hHolds, hAt⟩

theorem byteAt_slice (hGet : m.regions[i]? = some r) {addr : U64} {len : Nat} (hContains : r.region.contains addr = true)
    (hFits : addr.toNat - r.region.base.toNat + len ≤ r.region.size.toNat) {k : Nat} (hk : k < len) :
    m.ByteAt (addr + BitVec.ofNat 64 k) (r.bytes (addr.toNat - r.region.base.toNat + k)) := by
  have hOffset := Region.offset_add hContains (k := k) (by omega)
  refine ⟨r, List.mem_of_getElem? hGet, ?_, by rw [hOffset]⟩
  rw [Region.holds_iff, hOffset]
  omega

end VirtualMemory
end Exemu
