import Exemu.Core.Unwind
import Exemu.Memory.Access

/-! # Memory that keeps what is written to it

The laws a caller of the memory trait relies on, and that the guest's virtual memory obeys them.
-/
namespace Exemu

/-- `to_le_bytes` of a 128-bit value. -/
def toLe128 (v : U128) : List U8 := (List.range 16).map fun i => (v >>> (8 * i)).setWidth 8

@[simp] theorem length_toLe128 (v : U128) : (toLe128 v).length = 16 := by simp [toLe128]

theorem fromLe128_toLe128 (v : U128) : fromLe128 (toLe128 v) = v := by
  apply BitVec.eq_of_getLsbD_eq
  intro i hi
  have hBit : (fromLe128 (toLe128 v)).getLsbD i = (decide (i < 8 * 16) && v.getLsbD i) := getLsbD_littleEndian 16 v i
  rw [hBit]
  simp [show i < 8 * 16 by omega]

def Apart (a : U64) (m : Nat) (b : U64) (n : Nat) : Prop := a.toNat + m ≤ b.toNat ∨ b.toNat + n ≤ a.toNat

class LawfulMemory (M : Type) [Memory M] where
  /-- what the operations keep -/
  Sound : M → Prop
  sound_write {mem mem' : M} {a : U64} {bs : List U8} :
    Sound mem → Memory.write mem a bs = .ok mem' → Sound mem'
  read_written {mem mem' : M} {a : U64} {bs cs : List U8} :
    Sound mem → Memory.write mem a bs = .ok mem' → Memory.read mem' a bs.length = .ok cs → cs = bs
  read_apart {mem mem' : M} {a b : U64} {bs cs : List U8} {n : Nat} :
    Sound mem → Memory.write mem a bs = .ok mem' → Apart a bs.length b n →
      Memory.read mem b n = .ok cs → Memory.read mem' b n = .ok cs

namespace VirtualMemory

variable {m m' : VirtualMemory} {a b : U64} {bs cs : List U8} {n : Nat}

theorem read_ok (h : m.read a n = .ok cs) (hLen : n ≠ 0) :
    ∃ (i : Nat) (r : Mapped), m.regions[i]? = some r ∧ r.region.contains a = true ∧
      a.toNat - r.region.base.toNat + n ≤ r.region.size.toNat ∧ r.region.perm.contains Perm.READ = true ∧
      cs = slice r.bytes (a.toNat - r.region.base.toNat) n := by
  unfold read at h
  rw [if_neg hLen] at h
  cases hLocate : m.locate a n Perm.READ "read" with
  | error e => rw [hLocate] at h; cases h
  | ok p =>
    obtain ⟨i, r, start⟩ := p
    rw [hLocate] at h
    cases h
    obtain ⟨hGet, hContains, rfl, hFits, hPerm⟩ := locate_ok hLocate
    exact ⟨i, r, hGet, hContains, hFits, hPerm, rfl⟩

theorem read_length (h : m.read a n = .ok cs) : cs.length = n := by
  by_cases hLen : n = 0
  · subst hLen
    cases h
    rfl
  · obtain ⟨i, r, -, -, -, -, rfl⟩ := read_ok h hLen
    exact length_slice ..

theorem read_eq_ok (hWf : WellFormed m) (hLen : n ≠ 0) {i : Nat} {r : Mapped} (hGet : m.regions[i]? = some r)
    (hContains : r.region.contains a = true) (hFits : a.toNat - r.region.base.toNat + n ≤ r.region.size.toNat)
    (hPerm : r.region.perm.contains Perm.READ = true) :
    m.read a n = .ok (slice r.bytes (a.toNat - r.region.base.toNat) n) := by
  unfold read
  rw [if_neg hLen, locate_eq_ok hWf.separated hGet hContains hFits hPerm]
  rfl

theorem read_written (hWf : WellFormed m) (hWrite : m.write a bs = .ok m') (hRead : m'.read a bs.length = .ok cs) :
    cs = bs := by
  rcases write_ok hWrite with ⟨rfl, rfl⟩ | ⟨hBytes, i, r, hGet, hContains, hFits, -, rfl⟩
  · cases hRead
    rfl
  · obtain ⟨j, s, hGet', hContains', -, -, rfl⟩ := read_ok hRead (by simpa using hBytes)
    have hSep := (hWf.store hGet a (a.toNat - r.region.base.toNat) bs).separated
    rw [store_regions] at hGet' hSep
    have hHere := List.getElem?_set_self (a := { r with bytes := splice r.bytes (a.toNat - r.region.base.toNat) bs })
      (List.getElem?_eq_some_iff.mp hGet).1
    obtain rfl : i = j := hSep.unique hHere hGet' hContains hContains'
    obtain rfl := Option.some.inj (hHere.symm.trans hGet')
    exact slice_splice ..

theorem read_apart (hWf : WellFormed m) (hWrite : m.write a bs = .ok m') (hApart : Apart a bs.length b n)
    (hRead : m.read b n = .ok cs) : m'.read b n = .ok cs := by
  by_cases hLen : n = 0
  · subst hLen
    cases hRead
    rfl
  rcases write_ok hWrite with ⟨-, rfl⟩ | ⟨-, i, r, hGet, hContains, hFits, -, rfl⟩
  · exact hRead
  · obtain ⟨j, s, hGet', hContains', hFits', hPerm', rfl⟩ := read_ok hRead hLen
    have hWf' := hWf.store hGet a (a.toNat - r.region.base.toNat) bs
    have hRegions := m.store_regions i r a (a.toNat - r.region.base.toNat) bs
    by_cases hij : i = j
    · subst hij
      obtain rfl := Option.some.inj (hGet.symm.trans hGet')
      have hHere := List.getElem?_set_self (a := { r with bytes := splice r.bytes (a.toNat - r.region.base.toNat) bs })
        (List.getElem?_eq_some_iff.mp hGet).1
      have hLow := ((Region.contains_iff _ _).mp hContains).1
      have hLow' := ((Region.contains_iff _ _).mp hContains').1
      rw [← hRegions] at hHere
      rw [read_eq_ok hWf' hLen hHere hContains' hFits' hPerm']
      unfold Apart at hApart
      dsimp only
      rw [slice_splice_apart _ (by omega)]
    · exact read_eq_ok hWf' hLen (by rw [hRegions, List.getElem?_set_ne hij]; exact hGet') hContains' hFits' hPerm'

/-! ## The byte at an address -/

def peek (m : VirtualMemory) (a : U64) : Option U8 :=
  (m.regionAt a).map fun r => r.bytes (a.toNat - r.region.base.toNat)

theorem peek_of_region (hWf : WellFormed m) {i : Nat} {r : Mapped} (hGet : m.regions[i]? = some r)
    (hContains : r.region.contains a = true) : m.peek a = some (r.bytes (a.toNat - r.region.base.toNat)) := by
  unfold peek
  rw [(regionAt_eq_some_iff hWf.separated).mpr ⟨List.mem_of_getElem? hGet, hContains⟩]
  rfl

theorem peek_of_none (hNone : ∀ r ∈ m.regions, r.region.contains a = false) : m.peek a = none := by
  unfold peek regionAt
  rw [List.find?_eq_none.mpr fun r hr => by simp [hNone r hr]]
  rfl

theorem readU8_peek (hWf : WellFormed m) {b : U8} (h : Memory.readU8 m a = .ok b) : m.peek a = some b := by
  unfold Memory.readU8 at h
  cases hRead : Memory.read m a 1 with
  | error e =>
    rw [hRead] at h
    cases h
  | ok bs =>
    rw [hRead] at h
    obtain ⟨i, r, hGet, hContains, -, -, rfl⟩ := read_ok hRead (by decide)
    rw [peek_of_region hWf hGet hContains]
    cases h
    congr 1
    simp [slice, fromLe]

theorem read_peek (hWf : WellFormed m) (h : m.read a n = .ok cs) {k : Nat} (hk : k < n)
    (hLast : a.toNat + k < 2 ^ 64 - 1) : m.peek (a + BitVec.ofNat 64 k) = cs[k]? := by
  obtain ⟨i, r, hGet, hContains, hFits, -, rfl⟩ := read_ok h (by omega)
  obtain ⟨hLow, hHigh⟩ := (Region.contains_iff _ _).mp hContains
  have hSum : (a + BitVec.ofNat 64 k).toNat = a.toNat + k := by
    rw [BitVec.toNat_add, BitVec.toNat_ofNat]
    omega
  have hThere : r.region.contains (a + BitVec.ofNat 64 k) = true := by
    rw [Region.contains_iff, hSum]
    unfold Region.endAddr at hHigh ⊢
    omega
  rw [peek_of_region hWf hGet hThere, hSum]
  unfold slice
  rw [List.getElem?_map, List.getElem?_range hk]
  simp only [Option.map_some]
  congr 2
  omega

theorem peek_written (hWf : WellFormed m) (h : m.write a bs = .ok m') {k : Nat} {byte : U8} (hByte : bs[k]? = some byte)
    (hLast : a.toNat + k < 2 ^ 64 - 1) : m'.peek (a + BitVec.ofNat 64 k) = some byte := by
  obtain ⟨hk, hAt⟩ := List.getElem?_eq_some_iff.mp hByte
  rcases write_ok h with ⟨rfl, -⟩ | ⟨-, i, r, hGet, hContains, hFits, -, rfl⟩
  · cases hByte
  · obtain ⟨hLow, hHigh⟩ := (Region.contains_iff _ _).mp hContains
    have hSum : (a + BitVec.ofNat 64 k).toNat = a.toNat + k := by
      rw [BitVec.toNat_add, BitVec.toNat_ofNat]
      omega
    have hThere : r.region.contains (a + BitVec.ofNat 64 k) = true := by
      rw [Region.contains_iff, hSum]
      unfold Region.endAddr at hHigh ⊢
      omega
    have hWf' := hWf.store hGet a (a.toNat - r.region.base.toNat) bs
    have hHere := List.getElem?_set_self (a := { r with bytes := splice r.bytes (a.toNat - r.region.base.toNat) bs })
      (List.getElem?_eq_some_iff.mp hGet).1
    rw [← m.store_regions i r a] at hHere
    rw [peek_of_region hWf' hHere hThere, hSum]
    unfold splice
    dsimp only
    rw [if_pos (by omega), List.getD_eq_getElem?_getD]
    have hIndex : a.toNat + k - r.region.base.toNat - (a.toNat - r.region.base.toNat) = k := by omega
    rw [hIndex, hByte]
    rfl

theorem peek_apart (hWf : WellFormed m) (h : m.write a bs = .ok m')
    (hApart : b.toNat < a.toNat ∨ a.toNat + bs.length ≤ b.toNat) : m'.peek b = m.peek b := by
  rcases write_ok h with ⟨-, rfl⟩ | ⟨-, i, r, hGet, hContains, hFits, -, rfl⟩
  · rfl
  · have hWf' := hWf.store hGet a (a.toNat - r.region.base.toNat) bs
    have hRegions := m.store_regions i r a (a.toNat - r.region.base.toNat) bs
    have hi := (List.getElem?_eq_some_iff.mp hGet).1
    cases hFind : m.regionAt b with
    | none =>
      have hNone : ∀ s ∈ m.regions, s.region.contains b = false := fun s hs =>
        Bool.eq_false_iff.mpr fun hIn => by
          rw [(regionAt_eq_some_iff hWf.separated).mpr ⟨hs, hIn⟩] at hFind
          cases hFind
      rw [peek_of_none hNone]
      refine peek_of_none fun s hs => ?_
      rw [hRegions] at hs
      rcases List.mem_or_eq_of_mem_set hs with hs | rfl
      · exact hNone s hs
      · exact hNone r (List.mem_of_getElem? hGet)
    | some s =>
      obtain ⟨hs, hIn⟩ := regionAt_mem hFind
      obtain ⟨j, hj⟩ := List.mem_iff_getElem?.mp hs
      rw [peek_of_region hWf hj hIn]
      by_cases hij : i = j
      · subst hij
        obtain rfl := Option.some.inj (hGet.symm.trans hj)
        have hHere := List.getElem?_set_self
          (a := { r with bytes := splice r.bytes (a.toNat - r.region.base.toNat) bs }) hi
        rw [← hRegions] at hHere
        have hIn' := hIn
        rw [peek_of_region hWf' hHere hIn']
        have hLow := ((Region.contains_iff _ _).mp hContains).1
        have hLow' := ((Region.contains_iff _ _).mp hIn).1
        unfold splice
        dsimp only
        rw [if_neg (by omega)]
      · rw [← List.getElem?_set_ne (a := { r with bytes := splice r.bytes (a.toNat - r.region.base.toNat) bs }) hij,
          ← hRegions] at hj
        exact peek_of_region hWf' hj hIn

end VirtualMemory

instance : LawfulMemory VirtualMemory where
  Sound := VirtualMemory.WellFormed
  sound_write hWf hWrite := by
    rcases VirtualMemory.write_ok hWrite with ⟨-, rfl⟩ | ⟨-, i, r, hGet, -, -, -, rfl⟩
    · exact hWf
    · exact hWf.store hGet _ _ _
  read_written := VirtualMemory.read_written
  read_apart := VirtualMemory.read_apart

end Exemu
