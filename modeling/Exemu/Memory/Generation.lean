import Exemu.Memory.Layout
import Exemu.Library.Stamp

/-! # What the code generations certify

A compiled block is revalidated by comparing the generations of its pages.
-/
namespace Exemu
open Stamp

inductive MemoryOp where
  | map (granted : Bool) (region : Region)
  | mapFixed (granted : Bool) (base size : U64) (perm : Perm) (name : String)
  | mapWithData (granted : Bool) (name : String) (base size : U64) (data : List U8) (perm : Perm)
  | poke (addr : U64) (data : List U8)
  | write (addr : U64) (data : List U8)
  | writeUint (addr : U64) (size : Nat) (v : U64)
  | protect (base size : U64) (perm : Perm)
  | unmap (base size : U64)

namespace VirtualMemory

def orKeep (m : VirtualMemory) : Result VirtualMemory → VirtualMemory
  | .ok m' => m'
  | .error _ => m

def apply (m : VirtualMemory) : MemoryOp → VirtualMemory
  | .map granted region => m.orKeep (m.map granted region)
  | .mapFixed granted base size perm name => m.orKeep (m.mapFixed granted base size perm name)
  | .mapWithData granted name base size data perm =>
    m.orKeep (m.mapWithData granted name base size data perm)
  | .poke addr data => m.orKeep (m.poke addr data)
  | .write addr data => m.orKeep (m.write addr data)
  | .writeUint addr size v => m.orKeep (m.writeUint addr size v)
  | .protect base size perm => m.orKeep ((m.protect base size perm).map Prod.snd)
  | .unmap base size => m.unmap base size

def history (m : VirtualMemory) (ops : List MemoryOp) : VirtualMemory := ops.foldl apply m

structure WellFormed (m : VirtualMemory) : Prop where
  separated : Separated m.regions
  nonempty : ∀ r ∈ m.regions, r.region.size ≠ 0

theorem wellFormed_new : WellFormed new where
  separated := List.Pairwise.nil
  nonempty _ h := absurd h List.not_mem_nil

variable {m m' : VirtualMemory} {i : Nat} {region : Region} {bytes : Nat → U8} {granted : Bool}
  {size base : U64} {data : List U8} {addr : U64} {r : Mapped}

theorem WellFormed.set (h : WellFormed m) {old : Mapped} (new : Mapped) (hOld : m.regions[i]? = some old)
    (hBase : new.region.base = old.region.base) (hSize : new.region.size = old.region.size)
    (hRegions : m'.regions = m.regions.set i new) : WellFormed m' where
  separated := hRegions ▸ h.separated.set hOld hBase hSize
  nonempty r hr := by
    rcases List.mem_or_eq_of_mem_set (hRegions ▸ hr) with hr | rfl
    · exact h.nonempty r hr
    · rw [hSize]
      exact h.nonempty old (List.mem_of_getElem? hOld)

theorem store_regions (m : VirtualMemory) (i : Nat) (r : Mapped) (addr : U64) (start : Nat)
    (data : List U8) :
    (m.store i r addr start data).regions =
      m.regions.set i { r with bytes := splice r.bytes start data } := by
  unfold store
  dsimp only
  split <;> rfl

theorem insert_ok (h : m.insert region bytes = .ok m') :
    (region.size = 0 ∧ m' = m) ∨
    (region.size ≠ 0 ∧ (∀ r ∈ m.regions, ¬(region.base.toNat < r.region.endAddr ∧
        r.region.base.toNat < region.endAddr)) ∧
      m' = { m with
        regions := m.regions.take (partitionPoint (fun r => decide (r.region.base < region.base)) m.regions) ++
          ⟨region, bytes, m.nextHost⟩ ::
            m.regions.drop (partitionPoint (fun r => decide (r.region.base < region.base)) m.regions)
        layoutGen := m.layoutGen + 1
        nextHost := m.nextHost + 1 }) := by
  unfold insert at h
  split at h
  · rename_i hSize
    cases h
    exact .inl ⟨hSize, rfl⟩
  · rename_i hSize
    split at h
    · cases h
    · rename_i hFree
      cases h
      refine .inr ⟨hSize, ?_, rfl⟩
      intro r hr hOverlap
      apply hFree
      exact List.any_eq_true.mpr ⟨r, hr, by simpa using hOverlap⟩

theorem WellFormed.insert (h : WellFormed m) (hInsert : m.insert region bytes = .ok m') : WellFormed m' := by
  rcases insert_ok hInsert with ⟨_, rfl⟩ | ⟨hSize, hFree, rfl⟩
  · exact h
  · refine ⟨h.separated.insert ⟨region, bytes, m.nextHost⟩ h.nonempty hFree, ?_⟩
    intro r hr
    rcases List.mem_append.mp hr with hr | hr
    · exact h.nonempty r (List.mem_of_mem_take hr)
    · rcases List.mem_cons.mp hr with rfl | hr
      · exact hSize
      · exact h.nonempty r (List.mem_of_mem_drop hr)

theorem zeroed_ok (h : zeroed granted size = .ok bytes) : size.toNat < 2 ^ 63 ∧ granted = true := by
  unfold zeroed at h
  split at h
  · rename_i hRoom
    simpa using hRoom
  · cases h

theorem map_ok (h : m.map granted region = .ok m') :
    (region.size.toNat < 2 ^ 63 ∧ granted = true) ∧ ∃ bytes, m.insert region bytes = .ok m' := by
  unfold map at h
  cases hZero : zeroed granted region.size with
  | error e => rw [hZero] at h; cases h
  | ok bytes => rw [hZero] at h; exact ⟨zeroed_ok hZero, bytes, h⟩

theorem mapWithData_ok {name : String} {perm : Perm}
    (h : m.mapWithData granted name base size data perm = .ok m') :
    ((BitVec.ofNat 64 (max size.toNat data.length)).toNat < 2 ^ 63 ∧ granted = true) ∧
    ∃ bytes, m.insert ⟨name, base, BitVec.ofNat 64 (max size.toNat data.length), perm⟩ bytes =
      .ok m' := by
  unfold mapWithData at h
  dsimp only at h
  cases hZero : zeroed granted (BitVec.ofNat 64 (max size.toNat data.length)) with
  | error e => rw [hZero] at h; cases h
  | ok bytes => rw [hZero] at h; exact ⟨zeroed_ok hZero, _, h⟩

theorem poke_ok (h : m.poke addr data = .ok m') :
    (data = [] ∧ m' = m) ∨ (data ≠ [] ∧ ∃ i r, m.regions[i]? = some r ∧ r.region.contains addr = true ∧
      addr.toNat - r.region.base.toNat + data.length ≤ r.region.size.toNat ∧
      m' = m.store i r addr (addr.toNat - r.region.base.toNat) data) := by
  unfold poke at h
  split at h
  · rename_i hEmpty
    cases h
    exact .inl ⟨List.isEmpty_iff.mp hEmpty, rfl⟩
  · rename_i hEmpty
    split at h
    · cases h
    · rename_i j s hFound
      dsimp only at h
      split at h
      · rename_i hFits
        cases h
        obtain ⟨hGet, hContains⟩ := found_sound hFound
        exact .inr ⟨by simpa using hEmpty, j, s, hGet, hContains, hFits, rfl⟩
      · cases h

theorem write_ok (h : m.write addr data = .ok m') :
    (data = [] ∧ m' = m) ∨ (data ≠ [] ∧ ∃ i r, m.regions[i]? = some r ∧ r.region.contains addr = true ∧
      addr.toNat - r.region.base.toNat + data.length ≤ r.region.size.toNat ∧
      r.region.perm.contains Perm.WRITE = true ∧
      m' = m.store i r addr (addr.toNat - r.region.base.toNat) data) := by
  unfold write at h
  split at h
  · rename_i hEmpty
    cases h
    exact .inl ⟨List.isEmpty_iff.mp hEmpty, rfl⟩
  · rename_i hEmpty
    cases hLocate : m.locate addr data.length Perm.WRITE "write" with
    | error e => rw [hLocate] at h; cases h
    | ok p =>
      obtain ⟨i, r, start⟩ := p
      rw [hLocate] at h
      cases h
      obtain ⟨hGet, hContains, rfl, hFits, hPerm⟩ := locate_ok hLocate
      exact .inr ⟨by simpa using hEmpty, i, r, hGet, hContains, hFits, hPerm, rfl⟩

theorem uintSize_pos {size : Nat} (h : isUintSize size = true) : 0 < size ∧ size ≤ 8 := by
  simp only [isUintSize, Bool.or_eq_true, beq_iff_eq] at h
  omega

theorem writeUint_ok {size : Nat} {v : U64} (h : m.writeUint addr size v = .ok m') :
    isUintSize size = true ∧ ∃ i r, m.regions[i]? = some r ∧ r.region.contains addr = true ∧
      addr.toNat - r.region.base.toNat + size ≤ r.region.size.toNat ∧
      r.region.perm.contains Perm.WRITE = true ∧
      m' = m.store i r addr (addr.toNat - r.region.base.toNat) (toLe size v) := by
  unfold writeUint at h
  split at h
  · rename_i hSize
    cases hLocate : m.locate addr size Perm.WRITE "write" with
    | error e => rw [hLocate] at h; cases h
    | ok p =>
      obtain ⟨i, r, start⟩ := p
      rw [hLocate] at h
      cases h
      obtain ⟨hGet, hContains, rfl, hFits, hPerm⟩ := locate_ok hLocate
      exact ⟨hSize, i, r, hGet, hContains, hFits, hPerm, rfl⟩
  · cases h

theorem protect_ok {perm old : Perm} (h : m.protect base size perm = .ok (old, m')) :
    ∃ i r, m.regions[i]? = some r ∧ r.region.contains base = true ∧ old = r.region.perm ∧
      m' = { m with
        regions := m.regions.set i { r with region := { r.region with perm := perm } }
        layoutGen := m.layoutGen + 1 } := by
  unfold protect at h
  split at h
  · cases h
  · rename_i j s hFound
    cases h
    obtain ⟨hGet, hContains⟩ := found_sound hFound
    exact ⟨j, s, hGet, hContains, rfl, rfl⟩

theorem unmap_sublist (m : VirtualMemory) (base size : U64) :
    ((m.unmap base size).regions).Sublist m.regions := by
  unfold unmap
  dsimp only
  split
  · exact List.eraseP_sublist
  · exact List.filter_sublist

theorem WellFormed.unmap (h : WellFormed m) (base size : U64) : WellFormed (m.unmap base size) where
  separated := h.separated.sublist (m.unmap_sublist base size)
  nonempty r hr := h.nonempty r ((m.unmap_sublist base size).subset hr)

theorem WellFormed.orKeep (h : WellFormed m) {r : Result VirtualMemory}
    (hOk : ∀ m', r = .ok m' → WellFormed m') : WellFormed (m.orKeep r) := by
  cases r with
  | ok m' => exact hOk m' rfl
  | error e => exact h

theorem WellFormed.store (h : WellFormed m) (hGet : m.regions[i]? = some r) (addr : U64) (start : Nat)
    (data : List U8) : WellFormed (m.store i r addr start data) :=
  h.set { r with bytes := splice r.bytes start data } hGet rfl rfl
    (m.store_regions i r addr start data)

theorem WellFormed.apply (h : WellFormed m) (op : MemoryOp) : WellFormed (m.apply op) := by
  cases op with
  | map granted region =>
    apply h.orKeep
    intro m' hMap
    obtain ⟨_, bytes, hInsert⟩ := map_ok hMap
    exact h.insert hInsert
  | mapFixed granted base size perm name =>
    apply h.orKeep
    intro m' hMap
    obtain ⟨_, bytes, hInsert⟩ := map_ok hMap
    exact h.insert hInsert
  | mapWithData granted name base size data perm =>
    apply h.orKeep
    intro m' hMap
    obtain ⟨_, bytes, hInsert⟩ := mapWithData_ok hMap
    exact h.insert hInsert
  | poke addr data =>
    apply h.orKeep
    intro m' hPoke
    rcases poke_ok hPoke with ⟨_, rfl⟩ | ⟨_, i, r, hGet, _, _, rfl⟩
    · exact h
    · exact h.store hGet _ _ _
  | write addr data =>
    apply h.orKeep
    intro m' hWrite
    rcases write_ok hWrite with ⟨_, rfl⟩ | ⟨_, i, r, hGet, _, _, _, rfl⟩
    · exact h
    · exact h.store hGet _ _ _
  | writeUint addr size v =>
    apply h.orKeep
    intro m' hWrite
    obtain ⟨_, i, r, hGet, _, _, _, rfl⟩ := writeUint_ok hWrite
    exact h.store hGet _ _ _
  | protect base size perm =>
    apply h.orKeep
    intro m' hProtect
    cases hCall : m.protect base size perm with
    | error e => rw [hCall] at hProtect; cases hProtect
    | ok p =>
      rw [hCall] at hProtect
      cases hProtect
      obtain ⟨i, r, hGet, _, _, hEq⟩ := protect_ok hCall
      exact h.set { r with region := { r.region with perm := perm } } hGet rfl rfl
        (congrArg regions hEq)
  | unmap base size => exact h.unmap base size

theorem wellFormed_history (h : WellFormed m) (ops : List MemoryOp) : WellFormed (m.history ops) := by
  induction ops generalizing m with
  | nil => exact h
  | cons op ops ih => exact ih (h.apply op)

def fetchByte (m : VirtualMemory) (addr : U64) : Option (List U8) := (m.fetch addr 1).toOption

def codeStamp (m : VirtualMemory) (addr : U64) : Nat := (m.codePageGeneration addr).toNat

theorem fetchByte_eq_some_iff (hSep : Separated m.regions) {bs : List U8} :
    m.fetchByte addr = some bs ↔ ∃ r ∈ m.regions, r.region.contains addr = true ∧
      r.region.perm.contains Perm.EXEC = true ∧ bs = [r.bytes (addr.toNat - r.region.base.toNat)] := by
  unfold fetchByte fetch
  rw [if_neg (by decide)]
  constructor
  · intro h
    cases hLocate : m.locate addr 1 Perm.EXEC "execute" with
    | error e => rw [hLocate] at h; cases h
    | ok p =>
      obtain ⟨i, r, start⟩ := p
      rw [hLocate] at h
      cases h
      obtain ⟨hGet, hContains, rfl, -, hPerm⟩ := locate_ok hLocate
      exact ⟨r, List.mem_of_getElem? hGet, hContains, hPerm, by simp [slice]⟩
  · rintro ⟨r, hMem, hContains, hPerm, rfl⟩
    obtain ⟨i, hi, hri⟩ := List.mem_iff_getElem.mp hMem
    have hFits : addr.toNat - r.region.base.toNat + 1 ≤ r.region.size.toNat :=
      Region.offset_lt_size hContains
    rw [locate_eq_ok hSep (List.getElem?_eq_some_iff.mpr ⟨hi, hri⟩) hContains hFits hPerm]
    simp [slice, bind, Except.bind, pure, Except.pure, Except.toOption]

theorem fetchByte_congr (hSep : Separated m.regions) (hSep' : Separated m'.regions)
    (hExec : ∀ r : Mapped, r.region.perm.contains Perm.EXEC = true → (r ∈ m.regions ↔ r ∈ m'.regions))
    (addr : U64) : m.fetchByte addr = m'.fetchByte addr := by
  apply Option.ext
  intro bs
  rw [fetchByte_eq_some_iff hSep, fetchByte_eq_some_iff hSep']
  constructor
  · rintro ⟨r, hMem, hContains, hPerm, hBytes⟩
    exact ⟨r, (hExec r hPerm).mp hMem, hContains, hPerm, hBytes⟩
  · rintro ⟨r, hMem, hContains, hPerm, hBytes⟩
    exact ⟨r, (hExec r hPerm).mpr hMem, hContains, hPerm, hBytes⟩

theorem fetchByte_set (hSep : Separated m.regions) {old : Mapped} (new : Mapped)
    (hOld : m.regions[i]? = some old) (hBase : new.region.base = old.region.base)
    (hSize : new.region.size = old.region.size) (hRegions : m'.regions = m.regions.set i new)
    (hSame : old.region.contains addr = true →
      new.region.perm.contains Perm.EXEC = old.region.perm.contains Perm.EXEC ∧
      (old.region.perm.contains Perm.EXEC = true →
        new.bytes (addr.toNat - old.region.base.toNat) = old.bytes (addr.toNat - old.region.base.toNat))) :
    m.fetchByte addr = m'.fetchByte addr := by
  have hSep' : Separated m'.regions := hRegions ▸ hSep.set hOld hBase hSize
  have hi : i < m.regions.length := (List.getElem?_eq_some_iff.mp hOld).1
  have hNew : m'.regions[i]? = some new := by rw [hRegions]; simp [hi]
  have hContains : new.region.contains addr = old.region.contains addr := by
    unfold Region.contains Region.endAddr
    rw [hBase, hSize]
  apply Option.ext
  intro bs
  rw [fetchByte_eq_some_iff hSep, fetchByte_eq_some_iff hSep']
  constructor
  · rintro ⟨r, hMem, hr, hPerm, rfl⟩
    obtain ⟨j, hj, hrj⟩ := List.mem_iff_getElem.mp hMem
    by_cases hij : i = j
    · subst hij
      have hrOld : old = r := by
        rw [← hrj]
        exact (List.getElem?_eq_some_iff.mp hOld).2.symm
      subst hrOld
      obtain ⟨hExec, hBytes⟩ := hSame hr
      exact ⟨new, List.mem_of_getElem? hNew, hContains ▸ hr, hExec ▸ hPerm, by
        rw [hBase, hBytes hPerm]⟩
    · refine ⟨r, ?_, hr, hPerm, rfl⟩
      apply List.mem_of_getElem? (i := j)
      rw [hRegions, List.getElem?_set_ne hij]
      exact List.getElem?_eq_some_iff.mpr ⟨hj, hrj⟩
  · rintro ⟨r, hMem, hr, hPerm, rfl⟩
    rw [hRegions] at hMem
    obtain ⟨j, hj, hrj⟩ := List.mem_iff_getElem.mp hMem
    have hGet := List.getElem?_eq_some_iff.mpr ⟨hj, hrj⟩
    by_cases hij : i = j
    · subst hij
      rw [← hRegions, hNew] at hGet
      cases hGet
      rw [hContains] at hr
      obtain ⟨hExec, hBytes⟩ := hSame hr
      refine ⟨old, List.mem_of_getElem? hOld, hr, hExec ▸ hPerm, ?_⟩
      rw [hBase, hBytes (hExec ▸ hPerm)]
    · rw [List.getElem?_set_ne hij] at hGet
      exact ⟨r, List.mem_of_getElem? hGet, hr, hPerm, rfl⟩

/-- A write of `len` bytes at `addr` ends inside the address space, and no page
generation it moves wraps round to an earlier value. -/
def NoWrap (m : VirtualMemory) (addr : U64) (len : Nat) : Prop :=
  addr.toNat + len ≤ 2 ^ 64 ∧ ∀ a : U64, addr.toNat / CODE_PAGE_SIZE ≤ a.toNat / CODE_PAGE_SIZE →
    a.toNat / CODE_PAGE_SIZE ≤ (addr.toNat + len - 1) / CODE_PAGE_SIZE →
    m.codePageGeneration a ≠ BitVec.allOnes 64

theorem codePage_toNat (addr : U64) :
    (codePage addr).toNat = addr.toNat / CODE_PAGE_SIZE * CODE_PAGE_SIZE := by
  have hLt := addr.isLt
  unfold codePage CODE_PAGE_SIZE
  rw [BitVec.toNat_ofNat]
  omega

theorem codePageGeneration_noteCodeWrite (m : VirtualMemory) (addr : U64) (len : Nat) (a : U64) :
    (m.noteCodeWrite addr len).codePageGeneration a =
      if addr.toNat / CODE_PAGE_SIZE ≤ a.toNat / CODE_PAGE_SIZE ∧
          a.toNat / CODE_PAGE_SIZE ≤ (addr + (BitVec.ofNat 64 len - 1)).toNat / CODE_PAGE_SIZE
      then m.codePageGeneration a + 1 else m.codePageGeneration a := by
  have hPage := codePage_toNat a
  unfold noteCodeWrite codePageGeneration
  dsimp only
  rw [hPage]
  unfold CODE_PAGE_SIZE
  rw [Nat.mul_mod_left, Nat.mul_div_cancel _ (by decide)]
  simp only [true_and]

theorem add_one_toNat_of_ne_allOnes {g : U64} (h : g ≠ BitVec.allOnes 64) :
    (g + 1).toNat = g.toNat + 1 := by
  have hLt := g.isLt
  have hNe : g.toNat ≠ 2 ^ 64 - 1 := by
    intro hEq
    apply h
    apply BitVec.eq_of_toNat_eq
    rw [hEq, BitVec.toNat_allOnes]
  have hOne : (1 : U64).toNat = 1 := rfl
  rw [BitVec.toNat_add, hOne]
  omega

theorem covers_store (hWf : WellFormed m) (hGet : m.regions[i]? = some r)
    (hContains : r.region.contains addr = true) (hData : data ≠ [])
    (hWrap : r.region.perm.contains Perm.EXEC = true → m.NoWrap addr data.length) :
    Covers fetchByte codeStamp m (m.store i r addr (addr.toNat - r.region.base.toNat) data) := by
  have hRegions := m.store_regions i r addr (addr.toNat - r.region.base.toNat) data
  by_cases hExec : r.region.perm.contains Perm.EXEC = true
  · obtain ⟨hEnd, hGen⟩ := hWrap hExec
    have hPositive : 0 < data.length := List.length_pos_iff.mpr hData
    have hStamp : ∀ a, (m.store i r addr (addr.toNat - r.region.base.toNat) data).codePageGeneration a =
        if addr.toNat / CODE_PAGE_SIZE ≤ a.toNat / CODE_PAGE_SIZE ∧
          a.toNat / CODE_PAGE_SIZE ≤ (addr.toNat + data.length - 1) / CODE_PAGE_SIZE
        then m.codePageGeneration a + 1 else m.codePageGeneration a := by
      intro a
      have hLast : (addr + (BitVec.ofNat 64 data.length - 1)).toNat = addr.toNat + data.length - 1 := by
        have hAddr := addr.isLt
        have hOne : (1 : U64).toNat = 1 := rfl
        rw [BitVec.toNat_add, BitVec.toNat_sub, BitVec.toNat_ofNat, hOne]
        omega
      unfold store
      dsimp only
      rw [if_pos hExec, codePageGeneration_noteCodeWrite, hLast]
      rfl
    constructor
    · intro a
      unfold codeStamp
      rw [hStamp]
      split
      · rename_i hIn
        rw [add_one_toNat_of_ne_allOnes (hGen a hIn.1 hIn.2)]
        omega
      · exact Nat.le_refl _
    · intro a hDiffers
      have hIn : addr.toNat / CODE_PAGE_SIZE ≤ a.toNat / CODE_PAGE_SIZE ∧
          a.toNat / CODE_PAGE_SIZE ≤ (addr.toNat + data.length - 1) / CODE_PAGE_SIZE := by
        by_contra hOutside
        apply hDiffers
        apply fetchByte_set hWf.separated
          { r with bytes := splice r.bytes (addr.toNat - r.region.base.toNat) data } hGet rfl rfl hRegions
        intro hHolds
        refine ⟨rfl, fun _ => ?_⟩
        obtain ⟨hLow, -⟩ := (Region.contains_iff _ _).mp hHolds
        obtain ⟨hLow', -⟩ := (Region.contains_iff _ _).mp hContains
        change splice r.bytes _ data _ = _
        unfold splice
        rw [if_neg]
        rintro ⟨hFrom, hTo⟩
        apply hOutside
        exact ⟨Nat.div_le_div_right (by omega), Nat.div_le_div_right (by omega)⟩
      unfold codeStamp
      rw [hStamp, if_pos hIn, add_one_toNat_of_ne_allOnes (hGen a hIn.1 hIn.2)]
      exact Nat.lt_succ_self _
  · have hStamp : ∀ a, codeStamp (m.store i r addr (addr.toNat - r.region.base.toNat) data) a =
        codeStamp m a := by
      intro a
      unfold codeStamp store
      dsimp only
      rw [if_neg hExec]
      rfl
    constructor
    · intro a
      rw [hStamp]
    · intro a hDiffers
      exfalso
      apply hDiffers
      apply fetchByte_set hWf.separated
        { r with bytes := splice r.bytes (addr.toNat - r.region.base.toNat) data } hGet rfl rfl hRegions
      intro _
      exact ⟨rfl, fun h => absurd h hExec⟩

theorem covers_of_same_code (hSep : Separated m.regions) (hSep' : Separated m'.regions)
    (hExec : ∀ r : Mapped, r.region.perm.contains Perm.EXEC = true → (r ∈ m.regions ↔ r ∈ m'.regions))
    (hGen : m'.pageGen = m.pageGen) : Covers fetchByte codeStamp m m' where
  mono a := by
    unfold codeStamp codePageGeneration
    rw [hGen]
  moves a h := absurd (fetchByte_congr hSep hSep' hExec a) h

/-- The regions an `unmap` takes away. -/
def unmaps (m : VirtualMemory) (base size : U64) (r : Mapped) : Prop :=
  if size = 0 then m.regions.find? (fun m => m.region.base == base) = some r
  else r ∈ m.regions ∧ r.region.base ≥ base ∧ r.region.endAddr ≤ (satAdd base size).toNat

/-- The region goes into the vector: it is not empty, its bytes can be had, its range is free. -/
def Admits (m : VirtualMemory) (granted : Bool) (region : Region) : Prop :=
  region.size ≠ 0 ∧ (region.size.toNat < 2 ^ 63 ∧ granted = true) ∧
  ∀ r ∈ m.regions, ¬(region.base.toNat < r.region.endAddr ∧ r.region.base.toNat < region.endAddr)

/-- A write of `len` bytes at `addr`, needing `needed`, lands in executable memory. -/
def LandsInCode (m : VirtualMemory) (addr : U64) (len : Nat) (needed : Perm) : Prop :=
  ∃ r, m.regionAt addr = some r ∧ addr.toNat - r.region.base.toNat + len ≤ r.region.size.toNat ∧
    r.region.perm.contains needed = true ∧ r.region.perm.contains Perm.EXEC = true

/-- Everything the operation changes for `fetch` is noted in a page generation: it maps, unmaps
and re-protects no executable memory, and its writes to executable memory do not wrap. -/
def ReportsCode (m : VirtualMemory) : MemoryOp → Prop
  | .map granted region => m.Admits granted region → region.perm.contains Perm.EXEC = false
  | .mapFixed granted base size perm name =>
    m.Admits granted ⟨name, base, size, perm⟩ → perm.contains Perm.EXEC = false
  | .mapWithData granted name base size data perm =>
    m.Admits granted ⟨name, base, BitVec.ofNat 64 (max size.toNat data.length), perm⟩ →
      perm.contains Perm.EXEC = false
  | .poke addr data => m.LandsInCode addr data.length Perm.NONE → m.NoWrap addr data.length
  | .write addr data => m.LandsInCode addr data.length Perm.WRITE → m.NoWrap addr data.length
  | .writeUint addr size _ => m.LandsInCode addr size Perm.WRITE → m.NoWrap addr size
  | .protect base _ perm => ∀ r, m.regionAt base = some r →
      perm.contains Perm.EXEC = r.region.perm.contains Perm.EXEC
  | .unmap base size => ∀ r, m.unmaps base size r → r.region.perm.contains Perm.EXEC = false

theorem covers_orKeep {r : Result VirtualMemory} (hOk : ∀ m', r = .ok m' → Covers fetchByte codeStamp m m') :
    Covers fetchByte codeStamp m (m.orKeep r) := by
  cases r with
  | ok m' => exact hOk m' rfl
  | error e => exact Covers.refl m

theorem covers_insert (hWf : WellFormed m) (h : m.insert region bytes = .ok m')
    (hRoom : region.size.toNat < 2 ^ 63 ∧ granted = true)
    (hReports : m.Admits granted region → region.perm.contains Perm.EXEC = false) :
    Covers fetchByte codeStamp m m' := by
  have hWf' := hWf.insert h
  rcases insert_ok h with ⟨_, rfl⟩ | ⟨hSize, hFree, rfl⟩
  · exact Covers.refl _
  · have hPerm := hReports ⟨hSize, hRoom, hFree⟩
    apply covers_of_same_code hWf.separated hWf'.separated _ rfl
    intro r hExec
    rw [List.mem_append, List.mem_cons]
    constructor
    · intro hMem
      rw [← List.take_append_drop
        (partitionPoint (fun r => decide (r.region.base < region.base)) m.regions) m.regions] at hMem
      rcases List.mem_append.mp hMem with hMem | hMem
      · exact .inl hMem
      · exact .inr (.inr hMem)
    · rintro (hMem | rfl | hMem)
      · exact List.mem_of_mem_take hMem
      · rw [hPerm] at hExec
        cases hExec
      · exact List.mem_of_mem_drop hMem

theorem mem_eraseP_of_find?_ne {α : Type} {p : α → Bool} {xs : List α} {x : α} (hMem : x ∈ xs)
    (h : xs.find? p ≠ some x) : x ∈ xs.eraseP p := by
  induction xs with
  | nil => cases hMem
  | cons y ys ih =>
    by_cases hy : p y = true
    · rw [List.find?_cons_of_pos hy] at h
      rw [List.eraseP_cons_of_pos hy]
      rcases List.mem_cons.mp hMem with rfl | hMem
      · exact absurd rfl h
      · exact hMem
    · rw [List.find?_cons_of_neg hy] at h
      rw [List.eraseP_cons_of_neg hy]
      rcases List.mem_cons.mp hMem with rfl | hMem
      · exact List.mem_cons_self
      · exact List.mem_cons_of_mem _ (ih hMem h)

theorem mem_unmap (hMem : r ∈ m.regions) (hKept : ¬m.unmaps base size r) :
    r ∈ (m.unmap base size).regions := by
  unfold unmap
  unfold unmaps at hKept
  dsimp only
  split
  · rename_i hSize
    rw [if_pos hSize] at hKept
    exact mem_eraseP_of_find?_ne hMem hKept
  · rename_i hSize
    rw [if_neg hSize] at hKept
    apply List.mem_filter.mpr
    refine ⟨hMem, ?_⟩
    by_contra hGone
    apply hKept
    simpa [hMem] using hGone

theorem covers_apply (hWf : WellFormed m) {op : MemoryOp} (h : m.ReportsCode op) :
    Covers fetchByte codeStamp m (m.apply op) := by
  have hStore : ∀ {i r addr}, m.regions[i]? = some r → r.region.contains addr = true →
      m.regionAt addr = some r := fun hGet hContains =>
    (regionAt_eq_some_iff hWf.separated).mpr ⟨List.mem_of_getElem? hGet, hContains⟩
  cases op with
  | map granted region =>
    apply covers_orKeep
    intro m' hMap
    obtain ⟨hRoom, bytes, hInsert⟩ := map_ok hMap
    exact covers_insert hWf hInsert hRoom h
  | mapFixed granted base size perm name =>
    apply covers_orKeep
    intro m' hMap
    obtain ⟨hRoom, bytes, hInsert⟩ := map_ok hMap
    exact covers_insert hWf hInsert hRoom h
  | mapWithData granted name base size data perm =>
    apply covers_orKeep
    intro m' hMap
    obtain ⟨hRoom, bytes, hInsert⟩ := mapWithData_ok hMap
    exact covers_insert hWf hInsert hRoom h
  | poke addr data =>
    apply covers_orKeep
    intro m' hPoke
    rcases poke_ok hPoke with ⟨_, rfl⟩ | ⟨hData, i, r, hGet, hContains, hFits, rfl⟩
    · exact Covers.refl _
    · have hNone : r.region.perm.contains Perm.NONE = true := by simp [Perm.contains, Perm.NONE]
      exact covers_store hWf hGet hContains hData fun hExec =>
        h ⟨r, hStore hGet hContains, hFits, hNone, hExec⟩
  | write addr data =>
    apply covers_orKeep
    intro m' hWrite
    rcases write_ok hWrite with ⟨_, rfl⟩ | ⟨hData, i, r, hGet, hContains, hFits, hPerm, rfl⟩
    · exact Covers.refl _
    · exact covers_store hWf hGet hContains hData fun hExec =>
        h ⟨r, hStore hGet hContains, hFits, hPerm, hExec⟩
  | writeUint addr size v =>
    apply covers_orKeep
    intro m' hWrite
    obtain ⟨hSize, i, r, hGet, hContains, hFits, hPerm, rfl⟩ := writeUint_ok hWrite
    apply covers_store hWf hGet hContains
    · intro hEmpty
      have hLength := congrArg List.length hEmpty
      rw [length_toLe] at hLength
      subst hLength
      cases hSize
    · rw [length_toLe]
      exact fun hExec => h ⟨r, hStore hGet hContains, hFits, hPerm, hExec⟩
  | protect base size perm =>
    apply covers_orKeep
    intro m' hProtect
    cases hCall : m.protect base size perm with
    | error e => rw [hCall] at hProtect; cases hProtect
    | ok p =>
      rw [hCall] at hProtect
      cases hProtect
      obtain ⟨i, r, hGet, hContains, _, hEq⟩ := protect_ok hCall
      have hRegions : p.2.regions =
          m.regions.set i { r with region := { r.region with perm := perm } } := congrArg regions hEq
      have hGen : p.2.pageGen = m.pageGen := by rw [hEq]
      have hView : ∀ a, m.fetchByte a = p.2.fetchByte a := fun a =>
        fetchByte_set hWf.separated { r with region := { r.region with perm := perm } } hGet rfl rfl
          hRegions fun _ => ⟨h r (hStore hGet hContains), fun _ => rfl⟩
      constructor
      · intro a
        unfold codeStamp codePageGeneration
        rw [hGen]
      · exact fun a hDiffers => absurd (hView a) hDiffers
  | unmap base size =>
    apply covers_of_same_code hWf.separated (hWf.unmap base size).separated _ rfl
    intro r hExec
    constructor
    · intro hMem
      apply mem_unmap hMem
      intro hGone
      rw [h r hGone] at hExec
      cases hExec
    · exact fun hMem => (m.unmap_sublist base size).subset hMem

/-- Along a stretch of a history that reports its code changes, an address whose fetch differs
between the two ends lies in a page whose generation differs too. -/
theorem reported_history_moves_generation (before after : List MemoryOp)
    (hReports : Along apply ReportsCode (new.history before) after) (addr : U64)
    (hDiffers : (new.history before).fetchByte addr ≠
      ((new.history before).history after).fetchByte addr) :
    (new.history before).codePageGeneration addr ≠
      ((new.history before).history after).codePageGeneration addr := by
  have hCovers := hReports.covers (fun _ op hWf => hWf.apply op)
    (fun _ _ hWf hOp => covers_apply hWf hOp) (wellFormed_history wellFormed_new before)
  intro hSame
  have hStamp : codeStamp (new.history before) addr =
      codeStamp ((new.history before).history after) addr := congrArg BitVec.toNat hSame
  exact hDiffers (hCovers.view_eq hStamp)

def codePageOps : List MemoryOp := [.map true ⟨"code", 0x1000, 0x1000, Perm.RWX⟩]

/-- One store into a writable code page. -/
theorem reported_history_moves_generation_store :
    (new.history codePageOps).codePageGeneration 0x1000 ≠
      ((new.history codePageOps).history [.write 0x1000 [0x90]]).codePageGeneration 0x1000 := by
  apply reported_history_moves_generation codePageOps [.write 0x1000 [0x90]]
  · apply Along.cons
    · intro _
      refine ⟨by decide, fun a _ _ => ?_⟩
      change (0 : U64) ≠ BitVec.allOnes 64
      decide
    · exact Along.nil _
  · decide

/-- Re-protecting a code page, patching it and protecting it back moves no generation. -/
theorem patched_page_keeps_generation :
    ¬∀ (before after : List MemoryOp) (addr : U64),
      (new.history before).fetchByte addr ≠ ((new.history before).history after).fetchByte addr →
      (new.history before).codePageGeneration addr ≠
        ((new.history before).history after).codePageGeneration addr := by
  intro h
  refine h [.map true ⟨"code", 0x1000, 0x1000, Perm.RX⟩]
    [.protect 0x1000 0x1000 Perm.RW, .write 0x1000 [0x90], .protect 0x1000 0x1000 Perm.RX] 0x1000 ?_ ?_
  · decide
  · decide

end VirtualMemory
end Exemu
