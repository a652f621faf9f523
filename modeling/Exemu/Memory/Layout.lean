import Exemu.Memory.Virtual
import Mathlib.Data.List.Pairwise

/-! # The region vector stays sorted and disjoint

`Separated` is the invariant of the vector. Under it the partition-point lookup finds exactly the
region that contains an address, whatever the hint slot held, and a lookup can be read as a search
for a containing region.
-/
namespace Exemu

theorem partitionPoint_eq {α : Type} {p : α → Bool} {xs : List α} {k : Nat} (hk : k ≤ xs.length)
    (hBelow : ∀ j (h : j < xs.length), j < k → p xs[j] = true)
    (hAt : ∀ h : k < xs.length, p xs[k] = false) : partitionPoint p xs = k := by
  unfold partitionPoint
  induction xs generalizing k with
  | nil =>
    have hZero : k = 0 := by simpa using hk
    simp [hZero]
  | cons x xs ih =>
    cases k with
    | zero =>
      have hHead : p x = false := hAt (by simp)
      simp [hHead]
    | succ k =>
      have hHead : p x = true := hBelow 0 (by simp) (by omega)
      rw [List.takeWhile_cons_of_pos hHead, List.length_cons]
      congr 1
      apply ih (by simpa using hk)
      · intro j hj hjk
        exact hBelow (j + 1) (by simpa using hj) (by omega)
      · intro h
        exact hAt (by simpa using h)

theorem partitionPoint_le {α : Type} (p : α → Bool) (xs : List α) :
    partitionPoint p xs ≤ xs.length :=
  (List.takeWhile_sublist p).length_le

def Separated (rs : List Mapped) : Prop :=
  rs.Pairwise fun x y => x.region.endAddr ≤ y.region.base.toNat

namespace Separated

variable {rs : List Mapped}

theorem lt_of_getElem (h : Separated rs) {i j : Nat} (hij : i < j) (hj : j < rs.length) :
    rs[i].region.endAddr ≤ rs[j].region.base.toNat :=
  List.pairwise_iff_getElem.mp h i j (by omega) hj hij

theorem unique (h : Separated rs) {i j : Nat} {x y : Mapped} {addr : U64} (hx : rs[i]? = some x)
    (hy : rs[j]? = some y) (hxa : x.region.contains addr = true) (hya : y.region.contains addr = true) :
    i = j := by
  obtain ⟨hi, rfl⟩ := List.getElem?_eq_some_iff.mp hx
  obtain ⟨hj, rfl⟩ := List.getElem?_eq_some_iff.mp hy
  obtain ⟨hxl, hxh⟩ := (Region.contains_iff _ _).mp hxa
  obtain ⟨hyl, hyh⟩ := (Region.contains_iff _ _).mp hya
  rcases Nat.lt_trichotomy i j with hij | hij | hij
  · have := h.lt_of_getElem hij hj
    omega
  · exact hij
  · have := h.lt_of_getElem hij hi
    omega

theorem map_region {rs' : List Mapped} (h : Separated rs)
    (hMap : rs'.map (fun m => (m.region.base, m.region.size)) =
      rs.map fun m => (m.region.base, m.region.size)) : Separated rs' := by
  have hSame : ∀ xs : List Mapped, Separated xs ↔
      (xs.map fun m => (m.region.base, m.region.size)).Pairwise fun x y =>
        min (x.1.toNat + x.2.toNat) (2 ^ 64 - 1) ≤ y.1.toNat := by
    intro xs
    rw [List.pairwise_map]
    rfl
  rw [hSame, hMap, ← hSame]
  exact h

theorem set (h : Separated rs) {i : Nat} {old new : Mapped} (hOld : rs[i]? = some old)
    (hBase : new.region.base = old.region.base) (hSize : new.region.size = old.region.size) :
    Separated (rs.set i new) := by
  apply h.map_region
  apply List.ext_getElem?
  intro j
  rw [List.getElem?_map, List.getElem?_map, List.getElem?_set]
  obtain ⟨hi, hGet⟩ := List.getElem?_eq_some_iff.mp hOld
  split
  · rename_i hij
    subst hij
    rw [hOld]
    simp [hBase, hSize]
  · rfl

theorem insert (h : Separated rs) (new : Mapped) (hSizes : ∀ m ∈ rs, m.region.size ≠ 0)
    (hFree : ∀ m ∈ rs, ¬(new.region.base.toNat < m.region.endAddr ∧
      m.region.base.toNat < new.region.endAddr)) :
    Separated (rs.take (partitionPoint (fun m => decide (m.region.base < new.region.base)) rs) ++
      new :: rs.drop (partitionPoint (fun m => decide (m.region.base < new.region.base)) rs)) := by
  induction rs with
  | nil => simp [Separated, partitionPoint]
  | cons x xs ih =>
    obtain ⟨hHead, hTail⟩ := List.pairwise_cons.mp h
    have hx := hFree x List.mem_cons_self
    have hxEnd := x.region.base_le_endAddr
    have hNewEnd := new.region.base_le_endAddr
    by_cases hLess : x.region.base < new.region.base
    · have hLess' : x.region.base.toNat < new.region.base.toNat := hLess
      have hPoint : partitionPoint (fun m => decide (m.region.base < new.region.base)) (x :: xs) =
          partitionPoint (fun m => decide (m.region.base < new.region.base)) xs + 1 := by
        simp [partitionPoint, hLess]
      rw [hPoint, List.take_succ_cons, List.drop_succ_cons, List.cons_append]
      apply List.pairwise_cons.mpr
      refine ⟨?_, ih hTail (fun m hm => hSizes m (List.mem_cons_of_mem _ hm))
        fun m hm => hFree m (List.mem_cons_of_mem _ hm)⟩
      intro y hy
      rcases List.mem_append.mp hy with hy | hy
      · exact hHead y (List.mem_of_mem_take hy)
      · rcases List.mem_cons.mp hy with rfl | hy
        · omega
        · exact hHead y (List.mem_of_mem_drop hy)
    · have hLess' : ¬x.region.base.toNat < new.region.base.toNat := hLess
      have hPoint : partitionPoint (fun m => decide (m.region.base < new.region.base)) (x :: xs) = 0 := by
        simp [partitionPoint, hLess]
      rw [hPoint, List.take_zero, List.drop_zero, List.nil_append]
      have hNew : new.region.endAddr ≤ x.region.base.toNat := by
        -- the only nonempty region with an empty range sits at the last address
        have hSize : x.region.size.toNat ≠ 0 := fun hZero =>
          hSizes x List.mem_cons_self (BitVec.eq_of_toNat_eq hZero)
        have hLast := x.region.base.isLt
        unfold Region.endAddr at hx hNewEnd ⊢
        omega
      apply List.pairwise_cons.mpr
      refine ⟨?_, h⟩
      intro y hy
      rcases List.mem_cons.mp hy with rfl | hy
      · exact hNew
      · have := hHead y hy
        omega

end Separated

namespace VirtualMemory

variable {m : VirtualMemory} {addr : U64} {i : Nat} {r : Mapped}

theorem findIdx_sound (h : m.findIdx addr = some i) :
    ∃ r, m.regions[i]? = some r ∧ r.region.contains addr = true := by
  unfold findIdx at h
  dsimp only at h
  split at h
  · cases h
  · split at h
    · rename_i r hGet
      split at h
      · rename_i hContains
        cases h
        exact ⟨r, hGet, hContains⟩
      · cases h
    · cases h

theorem findIdx_eq_some_iff (hSep : Separated m.regions) :
    m.findIdx addr = some i ↔ ∃ r, m.regions[i]? = some r ∧ r.region.contains addr = true := by
  constructor
  · exact findIdx_sound
  · rintro ⟨r, hGet, hContains⟩
    obtain ⟨hi, hr⟩ := List.getElem?_eq_some_iff.mp hGet
    obtain ⟨hLow, hHigh⟩ := (Region.contains_iff _ _).mp hContains
    have hPoint : partitionPoint (fun m => decide (m.region.base ≤ addr)) m.regions = i + 1 := by
      apply partitionPoint_eq (by omega)
      · intro j hj hji
        have hBase : m.regions[j].region.base.toNat ≤ r.region.base.toNat := by
          rcases Nat.lt_or_eq_of_le (Nat.le_of_lt_succ hji) with hlt | heq
          · have := hSep.lt_of_getElem hlt hi
            have := m.regions[j].region.base_le_endAddr
            rw [← hr]
            omega
          · subst heq
            exact Nat.le_of_eq (by rw [hr])
        simp only [decide_eq_true_eq, BitVec.le_def]
        omega
      · intro hNext
        have hAfter : m.regions[i].region.endAddr ≤ m.regions[i + 1].region.base.toNat :=
          hSep.lt_of_getElem (Nat.lt_succ_self i) hNext
        rw [hr] at hAfter
        simp only [decide_eq_false_iff_not, BitVec.le_def]
        omega
    unfold findIdx
    simp only [hPoint, Nat.add_sub_cancel, hGet, hContains]
    simp

theorem findIdxHinted_eq (hSep : Separated m.regions) (hint : Nat) (addr : U64) :
    m.findIdxHinted hint addr = m.findIdx addr := by
  unfold findIdxHinted
  split
  · rename_i r hGet
    split
    · rename_i hContains
      exact ((findIdx_eq_some_iff hSep).mpr ⟨r, hGet, hContains⟩).symm
    · rfl
  · rfl

def regionAt (m : VirtualMemory) (addr : U64) : Option Mapped :=
  m.regions.find? fun r => r.region.contains addr

theorem regionAt_mem (h : m.regionAt addr = some r) : r ∈ m.regions ∧ r.region.contains addr = true :=
  ⟨List.mem_of_find?_eq_some h, List.find?_some (p := fun s : Mapped => s.region.contains addr) h⟩

theorem regionAt_eq_some_iff (hSep : Separated m.regions) :
    m.regionAt addr = some r ↔ r ∈ m.regions ∧ r.region.contains addr = true := by
  constructor
  · exact regionAt_mem
  · rintro ⟨hMem, hContains⟩
    cases hFind : m.regionAt addr with
    | none => exact absurd hContains (by simpa using List.find?_eq_none.mp hFind r hMem)
    | some s =>
      obtain ⟨i, hi, hri⟩ := List.mem_iff_getElem.mp hMem
      obtain ⟨hMem', hContains'⟩ := regionAt_mem hFind
      obtain ⟨j, hj, hsj⟩ := List.mem_iff_getElem.mp hMem'
      have hij : i = j := hSep.unique (List.getElem?_eq_some_iff.mpr ⟨hi, hri⟩)
        (List.getElem?_eq_some_iff.mpr ⟨hj, hsj⟩) hContains hContains'
      subst hij
      rw [← hri, ← hsj]

theorem found_sound
    (h : ((m.findIdx addr).bind fun i => m.regions[i]?.map fun m => (i, m)) = some (i, r)) :
    m.regions[i]? = some r ∧ r.region.contains addr = true := by
  obtain ⟨k, hFind, hGet⟩ := Option.bind_eq_some_iff.mp h
  obtain ⟨s, hGet, hEq⟩ := Option.map_eq_some_iff.mp hGet
  cases hEq
  obtain ⟨t, hGet', hContains⟩ := findIdx_sound hFind
  rw [hGet] at hGet'
  cases hGet'
  exact ⟨hGet, hContains⟩

theorem found_iff (hSep : Separated m.regions) :
    ((m.findIdx addr).bind fun i => m.regions[i]?.map fun m => (i, m)) = some (i, r) ↔
      m.regions[i]? = some r ∧ r.region.contains addr = true := by
  constructor
  · exact found_sound
  · rintro ⟨hGet, hContains⟩
    rw [(findIdx_eq_some_iff hSep).mpr ⟨r, hGet, hContains⟩]
    simp [hGet]

theorem locate_ok {len : Nat} {needed : Perm} {what : String} {start : Nat}
    (h : m.locate addr len needed what = .ok (i, r, start)) :
    m.regions[i]? = some r ∧ r.region.contains addr = true ∧
      start = addr.toNat - r.region.base.toNat ∧ start + len ≤ r.region.size.toNat ∧
      r.region.perm.contains needed = true := by
  unfold locate at h
  split at h
  · cases h
  · rename_i j s hFound
    dsimp only at h
    split at h
    · rename_i hFits
      split at h
      · rename_i hPerm
        cases h
        obtain ⟨hGet, hContains⟩ := found_sound hFound
        exact ⟨hGet, hContains, rfl, hFits, hPerm⟩
      · cases h
    · cases h

theorem locate_eq_ok {m : VirtualMemory} (hSep : Separated m.regions) {addr : U64} {len : Nat}
    {needed : Perm} {what : String} {i : Nat} {r : Mapped} (hGet : m.regions[i]? = some r)
    (hContains : r.region.contains addr = true)
    (hFits : addr.toNat - r.region.base.toNat + len ≤ r.region.size.toNat)
    (hPerm : r.region.perm.contains needed = true) :
    m.locate addr len needed what = .ok (i, r, addr.toNat - r.region.base.toNat) := by
  unfold locate
  rw [(found_iff hSep).mpr ⟨hGet, hContains⟩]
  simp [hFits, hPerm]

end VirtualMemory
end Exemu
