import Exemu.Memory.Access

/-! # Holding ranges of the address space

Whoever keeps a list of the ranges he has mapped, and unmaps only what is on the list, keeps all
the others.
-/
namespace Exemu

abbrev Range := U64 × U64

namespace Range

def endAddr (r : Range) : Nat := min (r.1.toNat + r.2.toNat) (2 ^ 64 - 1)

def Apart (r r' : Range) : Prop := r.endAddr ≤ r'.1.toNat ∨ r'.endAddr ≤ r.1.toNat

theorem Apart.symm {r r' : Range} (h : r.Apart r') : r'.Apart r := Or.symm h

end Range

namespace VirtualMemory

variable {m m' : VirtualMemory} {r r' : Range} {rs rs' : List Range}

def layout (m : VirtualMemory) : List Range := m.regions.map fun x => (x.region.base, x.region.size)

theorem layout_set {i : Nat} {x y : Mapped} (hGet : m.regions[i]? = some x) (hRegions : m'.regions = m.regions.set i y)
    (hBase : y.region.base = x.region.base) (hSize : y.region.size = x.region.size) : m'.layout = m.layout := by
  unfold layout
  rw [hRegions]
  apply List.ext_getElem?
  intro j
  rw [List.getElem?_map, List.getElem?_map, List.getElem?_set]
  obtain ⟨hi, rfl⟩ := List.getElem?_eq_some_iff.mp hGet
  split
  · rename_i hij
    subst hij
    simp [hi, hBase, hSize]
  · rfl

theorem writeUint_layout {addr v : U64} {n : Nat} (h : m.writeUint addr n v = .ok m') : m'.layout = m.layout := by
  obtain ⟨i, x, hGet, -, -, hRegions⟩ := writeUint_regions h
  exact layout_set hGet hRegions rfl rfl

theorem write_layout {addr : U64} {data : List U8} (h : m.write addr data = .ok m') : m'.layout = m.layout := by
  rcases write_ok h with ⟨-, rfl⟩ | ⟨-, i, x, hGet, -, -, -, rfl⟩
  · rfl
  · exact layout_set hGet (store_regions ..) rfl rfl

theorem mem_layout_insert {region : Region} {bytes : Nat → U8} (h : m.insert region bytes = .ok m') :
    r ∈ m'.layout ↔ r ∈ m.layout ∨ region.size ≠ 0 ∧ r = (region.base, region.size) := by
  rcases insert_ok h with ⟨hSize, rfl⟩ | ⟨hSize, -, rfl⟩
  · simp [hSize]
  · generalize partitionPoint (fun x => decide (x.region.base < region.base)) m.regions = k
    have hSplit : r ∈ m.layout ↔ r ∈ layout { m with regions := m.regions.take k ++ m.regions.drop k } := by
      rw [List.take_append_drop]
    rw [hSplit]
    simp only [layout, List.map_append, List.map_cons, List.mem_append, List.mem_cons, hSize, ne_eq, not_false_eq_true,
      true_and]
    tauto

theorem layout_apart (hWf : WellFormed m) (hr : r ∈ m.layout) (hr' : r' ∈ m.layout) (hNe : r.1 ≠ r'.1) :
    r.Apart r' := by
  obtain ⟨x, hx, rfl⟩ := List.mem_map.mp hr
  obtain ⟨y, hy, rfl⟩ := List.mem_map.mp hr'
  obtain ⟨i, hi, rfl⟩ := List.mem_iff_getElem.mp hx
  obtain ⟨j, hj, rfl⟩ := List.mem_iff_getElem.mp hy
  rcases Nat.lt_trichotomy i j with hij | rfl | hij
  · exact .inl (hWf.separated.lt_of_getElem hij hj)
  · exact absurd rfl hNe
  · exact .inr (hWf.separated.lt_of_getElem hij hi)

theorem layout_size (hWf : WellFormed m) (hr : r ∈ m.layout) : r.2 ≠ 0 := by
  obtain ⟨x, hx, rfl⟩ := List.mem_map.mp hr
  exact hWf.nonempty x hx

theorem layout_unmap (hWf : WellFormed m) (hr : r ∈ m.layout) (hr' : r' ∈ m.layout) (hNe : r'.1 ≠ r.1)
    (hLast : r'.1 ≠ BitVec.allOnes 64) {n : U64} (hSize : n = 0 ∨ n = r.2) : r' ∈ (m.unmap r.1 n).layout := by
  have hApart := layout_apart hWf hr hr' hNe.symm
  have hSome := layout_size hWf hr'
  obtain ⟨x, hx, rfl⟩ := List.mem_map.mp hr'
  dsimp only at hNe hLast hSome
  refine List.mem_map.mpr ⟨x, ?_, rfl⟩
  unfold unmap
  dsimp only
  split
  · exact (List.mem_eraseP_of_neg (by simpa using hNe)).mpr hx
  · rename_i hNonzero
    obtain rfl := hSize.resolve_left hNonzero
    refine List.mem_filter.mpr ⟨hx, ?_⟩
    have hEnd : (satAdd r.1 r.2).toNat = r.endAddr := by
      unfold satAdd Range.endAddr
      rw [BitVec.toNat_ofNat]
      omega
    have hPos : x.region.size.toNat ≠ 0 := fun h => hSome (BitVec.eq_of_toNat_eq h)
    have hBelow : x.region.base.toNat < 2 ^ 64 - 1 := by
      have hLt := x.region.base.isLt
      have hNot : x.region.base.toNat ≠ 2 ^ 64 - 1 := fun h => hLast (BitVec.eq_of_toNat_eq (by rw [h]; rfl))
      omega
    rw [hEnd]
    simp only [Bool.not_eq_true', Bool.and_eq_false_iff, decide_eq_false_iff_not]
    unfold Range.Apart Range.endAddr at hApart
    unfold Range.endAddr Region.endAddr
    rw [ge_iff_le, BitVec.le_def]
    dsimp only at hApart
    omega

/-- The ranges of `rs` are mapped, each by a region of its own. -/
structure Holds (m : VirtualMemory) (rs : List Range) : Prop where
  wellFormed : WellFormed m
  mapped : ∀ r ∈ rs, r ∈ m.layout
  inside : ∀ r ∈ rs, r.1 ≠ BitVec.allOnes 64
  distinct : (rs.map Prod.fst).Nodup

namespace Holds

theorem nil (hWf : WellFormed m) : Holds m [] := ⟨hWf, nofun, nofun, List.nodup_nil⟩

theorem sublist (h : Holds m rs) (hSub : rs'.Sublist rs) : Holds m rs' where
  wellFormed := h.wellFormed
  mapped r hr := h.mapped r (hSub.subset hr)
  inside r hr := h.inside r (hSub.subset hr)
  distinct := h.distinct.sublist (hSub.map _)

theorem perm (h : Holds m rs) (hPerm : rs.Perm rs') : Holds m rs' where
  wellFormed := h.wellFormed
  mapped r hr := h.mapped r (hPerm.mem_iff.mpr hr)
  inside r hr := h.inside r (hPerm.mem_iff.mpr hr)
  distinct := (hPerm.map _).nodup_iff.mp h.distinct

theorem same (h : Holds m rs) (hWf : WellFormed m') (hLayout : m'.layout = m.layout) : Holds m' rs where
  wellFormed := hWf
  mapped r hr := hLayout ▸ h.mapped r hr
  inside := h.inside
  distinct := h.distinct

theorem insert (h : Holds m rs) {region : Region} {bytes : Nat → U8} (hInsert : m.insert region bytes = .ok m') :
    Holds m' rs where
  wellFormed := h.wellFormed.insert hInsert
  mapped r hr := (mem_layout_insert hInsert).mpr (.inl (h.mapped r hr))
  inside := h.inside
  distinct := h.distinct

theorem cons (h : Holds m rs) {region : Region} {bytes : Nat → U8} (hInsert : m.insert region bytes = .ok m')
    (hSize : region.size ≠ 0) (hInside : region.base ≠ BitVec.allOnes 64) :
    Holds m' ((region.base, region.size) :: rs) where
  wellFormed := h.wellFormed.insert hInsert
  mapped r hr := by
    rw [mem_layout_insert hInsert]
    rcases List.mem_cons.mp hr with rfl | hr
    · exact .inr ⟨hSize, rfl⟩
    · exact .inl (h.mapped r hr)
  inside r hr := by
    rcases List.mem_cons.mp hr with rfl | hr
    · exact hInside
    · exact h.inside r hr
  distinct := by
    refine List.nodup_cons.mpr ⟨?_, h.distinct⟩
    intro hMem
    obtain ⟨r, hr, hBase⟩ := List.mem_map.mp hMem
    obtain ⟨x, hx, rfl⟩ := List.mem_map.mp (h.mapped r hr)
    dsimp only at hBase
    have hSome := h.wellFormed.nonempty x hx
    rcases insert_ok hInsert with ⟨hZero, -⟩ | ⟨-, hFree, -⟩
    · exact hSize hZero
    · refine hFree x hx ?_
      have hNot : region.base.toNat ≠ 2 ^ 64 - 1 := fun h => hInside (BitVec.eq_of_toNat_eq (by rw [h]; rfl))
      have hPos : region.size.toNat ≠ 0 := fun h => hSize (BitVec.eq_of_toNat_eq h)
      have hPos' : x.region.size.toNat ≠ 0 := fun h => hSome (BitVec.eq_of_toNat_eq h)
      have hLt := region.base.isLt
      unfold Region.endAddr
      rw [hBase]
      omega

theorem unmap (h : Holds m (r :: rs)) {n : U64} (hSize : n = 0 ∨ n = r.2) : Holds (m.unmap r.1 n) rs where
  wellFormed := h.wellFormed.unmap r.1 n
  mapped r' hr' := by
    have hHead := (List.nodup_cons.mp h.distinct).1
    refine layout_unmap h.wellFormed (h.mapped r List.mem_cons_self) (h.mapped r' (List.mem_cons_of_mem _ hr')) ?_
      (h.inside r' (List.mem_cons_of_mem _ hr')) hSize
    rintro hSame
    exact hHead (hSame ▸ List.mem_map_of_mem hr')
  inside r' hr' := h.inside r' (List.mem_cons_of_mem _ hr')
  distinct := (List.nodup_cons.mp h.distinct).2

theorem apart (h : Holds m rs) : rs.Pairwise Range.Apart := by
  refine (List.pairwise_map.mp h.distinct).imp_of_mem ?_
  intro r r' hr hr' hNe
  exact layout_apart h.wellFormed (h.mapped r hr) (h.mapped r' hr') hNe

end Holds

end VirtualMemory
end Exemu
