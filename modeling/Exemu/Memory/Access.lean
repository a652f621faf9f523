import Exemu.Memory.Generation

/-! # What a read sees of earlier writes -/
namespace Exemu

theorem getLsbD_littleEndian {w : Nat} (n : Nat) (v : BitVec w) (i : Nat) :
    (((List.range n).map fun k => (v >>> (8 * k)).setWidth 8).foldr
      (fun (b : U8) (acc : BitVec w) => (acc <<< 8) ||| b.setWidth w) 0).getLsbD i = (decide (i < 8 * n) && v.getLsbD i) := by
  induction n generalizing v i with
  | zero => simp
  | succ n ih =>
    have hTail : ((List.range (n + 1)).map fun k => (v >>> (8 * k)).setWidth 8 : List U8) =
        v.setWidth 8 :: (List.range n).map fun k => ((v >>> 8) >>> (8 * k)).setWidth 8 := by
      simp [List.range_succ_eq_map, ← BitVec.shiftRight_add, Nat.mul_add, Nat.add_comm]
    rw [hTail]
    simp only [List.foldr_cons, BitVec.getLsbD_or, BitVec.getLsbD_shiftLeft, BitVec.getLsbD_setWidth, ih,
      BitVec.getLsbD_ushiftRight]
    by_cases hWide : i < w
    · by_cases hi : i < 8
      · simp [hi, hWide, show i < 8 * (n + 1) by omega]
      · simp [hi, hWide, show 8 + (i - 8) = i by omega, show i - 8 < 8 * n ↔ i < 8 * (n + 1) by omega]
    · simp [hWide, BitVec.getLsbD_of_ge v i (by omega)]

theorem fromLe_toLe {w n : Nat} (hBytes : w ≤ 8 * n) (v : BitVec w) : fromLe (toLe n (v.setWidth 64)) = v.setWidth 64 := by
  apply BitVec.eq_of_getLsbD_eq
  intro i hi
  have hBit : (fromLe (toLe n (v.setWidth 64))).getLsbD i = (decide (i < 8 * n) && (v.setWidth 64).getLsbD i) := getLsbD_littleEndian n _ i
  rw [hBit, BitVec.getLsbD_setWidth]
  by_cases hLow : i < w
  · simp [show i < 8 * n by omega]
  · simp [BitVec.getLsbD_of_ge v i (by omega)]

theorem fromLe_toLe_setWidth {w n : Nat} (hBytes : w ≤ 8 * n) (hWord : w ≤ 64) (v : BitVec w) :
    (fromLe (toLe n (v.setWidth 64))).setWidth w = v := by
  rw [fromLe_toLe hBytes, BitVec.setWidth_setWidth_of_le v hWord, BitVec.setWidth_eq]

theorem fromLe_toLe_eight (v : U64) : fromLe (toLe 8 v) = v := by
  have hWord := fromLe_toLe (n := 8) (Nat.le_refl 64) v
  rwa [BitVec.setWidth_eq] at hWord

theorem mapM_ok {α β : Type} {f : α → Result β} {g : α → β} {xs : List α} (h : ∀ x ∈ xs, f x = .ok (g x)) :
    xs.mapM f = .ok (xs.map g) := by
  induction xs with
  | nil => rfl
  | cons x xs ih =>
    rw [List.mapM_cons, h x List.mem_cons_self, ih fun y hy => h y (List.mem_cons_of_mem _ hy)]
    rfl

theorem slice_splice (bytes : Nat → U8) (start : Nat) (data : List U8) :
    slice (splice bytes start data) start data.length = data := by
  apply List.ext_getElem
  · simp
  · intro i _ hi
    simp [slice, splice, hi, List.getD]

theorem slice_splice_apart (bytes : Nat → U8) {start at' len : Nat} {data : List U8}
    (hApart : at' + len ≤ start ∨ start + data.length ≤ at') :
    slice (splice bytes start data) at' len = slice bytes at' len := by
  simp only [slice, splice]
  apply List.map_congr_left
  intro i hi
  have hLt := List.mem_range.mp hi
  rw [if_neg (by omega)]

namespace VirtualMemory

variable {m m' : VirtualMemory} {a b v w : U64} {n k : Nat}

theorem readUint_ok (h : m.readUint a n = .ok w) :
    isUintSize n = true ∧ ∃ (i : Nat) (r : Mapped), m.regions[i]? = some r ∧ r.region.contains a = true ∧
      a.toNat - r.region.base.toNat + n ≤ r.region.size.toNat ∧ r.region.perm.contains Perm.READ = true ∧
      w = fromLe (slice r.bytes (a.toNat - r.region.base.toNat) n) := by
  unfold readUint at h
  split at h
  · rename_i hSize
    cases hLocate : m.locate a n Perm.READ "read" with
    | error e => rw [hLocate] at h; cases h
    | ok p =>
      obtain ⟨i, r, start⟩ := p
      rw [hLocate] at h
      cases h
      obtain ⟨hGet, hContains, rfl, hFits, hPerm⟩ := locate_ok hLocate
      exact ⟨hSize, i, r, hGet, hContains, hFits, hPerm, rfl⟩
  · cases h

theorem readUint_eq_ok (hWf : WellFormed m) (hSize : isUintSize n = true) {i : Nat} {r : Mapped}
    (hGet : m.regions[i]? = some r) (hContains : r.region.contains a = true)
    (hFits : a.toNat - r.region.base.toNat + n ≤ r.region.size.toNat)
    (hPerm : r.region.perm.contains Perm.READ = true) :
    m.readUint a n = .ok (fromLe (slice r.bytes (a.toNat - r.region.base.toNat) n)) := by
  unfold readUint
  rw [if_pos hSize, locate_eq_ok hWf.separated hGet hContains hFits hPerm]
  rfl

theorem writeUint_regions (hWrite : m.writeUint b n v = .ok m') :
    ∃ (i : Nat) (r : Mapped), m.regions[i]? = some r ∧ r.region.contains b = true ∧
      b.toNat - r.region.base.toNat + n ≤ r.region.size.toNat ∧
      m'.regions = m.regions.set i { r with bytes := splice r.bytes (b.toNat - r.region.base.toNat) (toLe n v) } := by
  obtain ⟨-, i, r, hGet, hContains, hFits, -, rfl⟩ := writeUint_ok hWrite
  exact ⟨i, r, hGet, hContains, hFits, store_regions ..⟩

theorem WellFormed.writeUint (hWf : WellFormed m) (hWrite : m.writeUint b n v = .ok m') : WellFormed m' := by
  obtain ⟨-, i, r, hGet, -, -, -, rfl⟩ := writeUint_ok hWrite
  exact hWf.store hGet _ _ _

theorem readUint_written (hWf : WellFormed m) (hWrite : m.writeUint b n v = .ok m')
    (hRead : m'.readUint b n = .ok w) : w = fromLe (toLe n v) := by
  obtain ⟨i, r, hGet, hContains, hFits, hRegions⟩ := writeUint_regions hWrite
  obtain ⟨-, j, s, hGet', hContains', -, -, rfl⟩ := readUint_ok hRead
  have hSep := (hWf.writeUint hWrite).separated
  have hHere : m'.regions[i]? =
      some { r with bytes := splice r.bytes (b.toNat - r.region.base.toNat) (toLe n v) } := by
    rw [hRegions, List.getElem?_set_self (List.getElem?_eq_some_iff.mp hGet).1]
  obtain rfl : i = j := hSep.unique hHere hGet' hContains hContains'
  obtain rfl := Option.some.inj (hHere.symm.trans hGet')
  have hSlice := slice_splice r.bytes (b.toNat - r.region.base.toNat) (toLe n v)
  rw [length_toLe] at hSlice
  dsimp only
  rw [hSlice]

theorem readUint_before (hWf : WellFormed m) (hWrite : m.writeUint b n v = .ok m')
    (hApart : a.toNat + k ≤ b.toNat ∨ b.toNat + n ≤ a.toNat) (hRead : m'.readUint a k = .ok w) :
    m.readUint a k = .ok w := by
  obtain ⟨i, r, hGet, hContains, hFits, hRegions⟩ := writeUint_regions hWrite
  obtain ⟨hSize, j, s, hGet', hContains', hFits', hPerm', rfl⟩ := readUint_ok hRead
  rw [hRegions] at hGet'
  by_cases hij : i = j
  · subst hij
    rw [List.getElem?_set_self (List.getElem?_eq_some_iff.mp hGet).1] at hGet'
    obtain rfl := Option.some.inj hGet'
    have hLow := ((Region.contains_iff _ _).mp hContains).1
    have hLow' : r.region.base.toNat ≤ a.toNat := ((Region.contains_iff _ _).mp hContains').1
    rw [readUint_eq_ok hWf hSize hGet hContains' hFits' hPerm']
    dsimp only
    rw [slice_splice_apart _ (by rw [length_toLe]; omega)]
  · rw [List.getElem?_set_ne hij] at hGet'
    exact readUint_eq_ok hWf hSize hGet' hContains' hFits' hPerm'

theorem readUint_before_insert (hWf : WellFormed m) {region : Region} {bytes : Nat → U8}
    (hInsert : m.insert region bytes = .ok m') (hMapped : ∃ r ∈ m.regions, r.region.contains a = true)
    (hRead : m'.readUint a k = .ok w) : m.readUint a k = .ok w := by
  obtain ⟨hSize, j, s, hGet, hContains, hFits, hPerm, rfl⟩ := readUint_ok hRead
  have hSep := (hWf.insert hInsert).separated
  rcases insert_ok hInsert with ⟨-, rfl⟩ | ⟨-, hFree, rfl⟩
  · exact hRead
  · generalize partitionPoint (fun r => decide (r.region.base < region.base)) m.regions = p at hGet hSep
    obtain ⟨r, hMem, hHere⟩ := hMapped
    have hThere : r ∈ m.regions.take p ++ ⟨region, bytes, m.nextHost⟩ :: m.regions.drop p := by
      rw [← List.take_append_drop p m.regions, List.mem_append] at hMem
      simp only [List.mem_append, List.mem_cons]
      tauto
    obtain ⟨i, hi⟩ := List.mem_iff_getElem?.mp hThere
    obtain rfl : i = j := hSep.unique hi hGet hHere hContains
    obtain rfl := Option.some.inj (hi.symm.trans hGet)
    obtain ⟨l, hl⟩ := List.mem_iff_getElem?.mp hMem
    exact readUint_eq_ok hWf hSize hl hContains hFits hPerm

end VirtualMemory
end Exemu
