import Exemu.Memory.Packed
import Exemu.Os.Heap

/-! # Memory that is promised to be zero

`calloc` and `HeapAlloc` with `HEAP_ZERO_MEMORY` write nothing: they rely on the arena being zero
above the pointer.
-/
namespace Exemu

namespace VirtualMemory

variable {m m' m'' : VirtualMemory} {lo hi : Nat}

/-- Every byte of `[lo, hi)` is zero. -/
def Blank (m : VirtualMemory) (lo hi : Nat) : Prop := ∀ a : U64, lo ≤ a.toNat → a.toNat < hi → m.peek a = some 0

/-- The same regions, and the same bytes in `[lo, hi)`. -/
structure Spares (m m' : VirtualMemory) (lo hi : Nat) : Prop where
  wellFormed : WellFormed m → WellFormed m'
  regions : (m'.regions.map fun r => r.region) = m.regions.map fun r => r.region
  bytes : WellFormed m → ∀ a : U64, lo ≤ a.toNat → a.toNat < hi → m'.peek a = m.peek a

namespace Spares

theorem refl (m : VirtualMemory) (lo hi : Nat) : Spares m m lo hi := ⟨fun h => h, rfl, fun _ _ _ _ => rfl⟩

theorem trans (hFirst : Spares m m' lo hi) (hSecond : Spares m' m'' lo hi) : Spares m m'' lo hi where
  wellFormed hWf := hSecond.wellFormed (hFirst.wellFormed hWf)
  regions := hSecond.regions.trans hFirst.regions
  bytes hWf a hLow hHigh := by
    rw [hSecond.bytes (hFirst.wellFormed hWf) a hLow hHigh, hFirst.bytes hWf a hLow hHigh]

theorem blank (h : Spares m m' lo hi) (hWf : WellFormed m) (hBlank : m.Blank lo hi) : m'.Blank lo hi := by
  intro a hLow hHigh
  rw [h.bytes hWf a hLow hHigh, hBlank a hLow hHigh]

theorem write {a : U64} {bs : List U8} (h : m.write a bs = .ok m') (hApart : hi ≤ a.toNat ∨ a.toNat + bs.length ≤ lo) :
    Spares m m' lo hi where
  wellFormed hWf := LawfulMemory.sound_write (M := VirtualMemory) hWf h
  regions := write_regions h
  bytes hWf b hLow hHigh := peek_apart hWf h (by omega)

end Spares

theorem write_of_writeUint {a v : U64} {n : Nat} (h : m.writeUint a n v = .ok m') : m.write a (toLe n v) = .ok m' := by
  have hPos := uintSize_pos (writeUint_ok h).1
  unfold writeUint at h
  split at h
  · unfold VirtualMemory.write
    have hFull : (toLe n v).isEmpty = false := by
      rw [← Bool.not_eq_true, List.isEmpty_iff_length_eq_zero, length_toLe]
      omega
    rw [hFull, length_toLe]
    exact h
  · cases h

theorem Blank.mono {lo' hi' : Nat} (h : m.Blank lo hi) (hLow : lo ≤ lo') (hHigh : hi' ≤ hi) : m.Blank lo' hi' :=
  fun a hl hh => h a (hLow.trans hl) (hh.trans_le hHigh)

theorem Blank.join {mid : Nat} (hLow : m.Blank lo mid) (hHigh : m.Blank mid hi) : m.Blank lo hi := by
  intro a hl hh
  rcases Nat.lt_or_ge a.toNat mid with hUnder | hOver
  · exact hLow a hl hUnder
  · exact hHigh a hOver hh

theorem Blank.read (hWf : WellFormed m) {g : Region} (hg : g ∈ m.regions.map fun r => r.region)
    (hPerm : g.perm.contains Perm.READ = true) {a : U64} {n : Nat} (hBase : g.base.toNat ≤ a.toNat)
    (hEnd : a.toNat + n ≤ g.base.toNat + g.size.toNat) (hTop : g.base.toNat + g.size.toNat < 2 ^ 64 - 1)
    (hBlank : m.Blank a.toNat (a.toNat + n)) : m.read a n = .ok (List.replicate n 0) := by
  rcases Nat.eq_zero_or_pos n with rfl | hPos
  · rfl
  obtain ⟨r, hr, rfl⟩ := List.mem_map.mp hg
  obtain ⟨i, hGet⟩ := List.mem_iff_getElem?.mp hr
  have hContains : ∀ k, k < n → r.region.contains (a + BitVec.ofNat 64 k) = true ∧
      (a + BitVec.ofNat 64 k).toNat = a.toNat + k := by
    intro k hk
    have hSum : (a + BitVec.ofNat 64 k).toNat = a.toNat + k := by
      rw [BitVec.toNat_add, BitVec.toNat_ofNat]
      omega
    refine ⟨(Region.contains_iff _ _).mpr ?_, hSum⟩
    unfold Region.endAddr
    omega
  have hHere := (hContains 0 hPos).1
  rw [BitVec.add_zero] at hHere
  rw [read_eq_ok hWf (by omega) hGet hHere (by omega) hPerm]
  congr 1
  refine List.ext_getElem (by simp) fun k hk _ => ?_
  rw [length_slice] at hk
  obtain ⟨hThere, hSum⟩ := hContains k hk
  have hByte := hBlank (a + BitVec.ofNat 64 k) (by omega) (by omega)
  rw [peek_of_region hWf hGet hThere, hSum] at hByte
  have hOffset : a.toNat + k - r.region.base.toNat = a.toNat - r.region.base.toNat + k := by omega
  rw [hOffset] at hByte
  simpa [slice] using hByte

end VirtualMemory

namespace Os

open VirtualMemory Stamp

theorem copyBytes_spares {old new : U64} {lo hi : Nat} (mem : VirtualMemory) (i n : Nat)
    (hRoom : new.toNat + (i + n) < 2 ^ 64) (hApart : new.toNat + (i + n) ≤ lo) :
    Spares mem (copyBytes old new mem i n).1 lo hi := by
  induction n generalizing mem i with
  | zero => exact .refl ..
  | succ n ih =>
    unfold copyBytes
    cases Memory.readU8 mem (old + BitVec.ofNat 64 i) with
    | error e => exact .refl ..
    | ok b =>
      dsimp only
      cases hWrite : mem.write (new + BitVec.ofNat 64 i) [b] with
      | error e => exact .refl ..
      | ok mem' =>
        have hHere : (new + BitVec.ofNat 64 i).toNat = new.toNat + i := toNat_add_ofNat (by omega)
        have hStep : Spares mem mem' lo hi := .write hWrite (.inr (by rw [hHere]; simp only [List.length_singleton]; omega))
        exact hStep.trans (ih mem' (i + 1) (by omega) (by omega))

namespace Heap

def InBlock (h : Heap) (a : U64) (n : Nat) : Prop :=
  ∃ p s, h.heapSizes p = some s ∧ p.toNat ≤ a.toNat ∧ a.toNat + n ≤ p.toNat + s.toNat

def Owns (h : Heap) (a : U64) (n : Nat) : Prop :=
  h.InBlock a n ∨ a.toNat + n ≤ h.cfg.heapBase.toNat ∨ h.cfg.heapBase.toNat + h.cfg.heapSize.toNat ≤ a.toNat

def OwnsOp (h : Heap) : MemoryOp → Prop
  | .write a data => h.Owns a data.length
  | .writeUint a size _ => h.Owns a size
  | _ => False

theorem Owns.apart {h : Heap} (hBumped : Bumped h) {a : U64} {n : Nat} (hOwns : h.Owns a n) :
    h.cfg.heapBase.toNat + h.cfg.heapSize.toNat ≤ a.toNat ∨ a.toNat + n ≤ h.heapNext.toNat := by
  rcases hOwns with ⟨p, s, hLive, -, hEnd⟩ | hUnder | hOver
  · exact .inr (hEnd.trans (hBumped.below p s hLive))
  · exact .inr (hUnder.trans hBumped.low)
  · exact .inl hOver

end Heap

def HeapCall.zeroes : HeapCall → Option Nat
  | .HeapAlloc size => some size.toNat
  | .Calloc num size => some (num.toNat * size.toNat)
  | _ => none

namespace HeapSys

open Heap

structure Starts (s : HeapSys) : Prop where
  fresh : s.heap = .new s.heap.cfg
  mapped : ∃ (mem : VirtualMemory) (granted : Bool), WellFormed mem ∧
    mem.map granted ⟨"heap", s.heap.cfg.heapBase, s.heap.cfg.heapSize, Perm.RW⟩ = .ok s.mem

def OwnWrites (s : HeapSys) : HeapCall → Prop
  | .memory ops => ∀ op ∈ ops, s.heap.OwnsOp op
  | _ => True

def ClearFree (s : HeapSys) : HeapCall → Prop
  | .HeapFree ptr => ∀ sz, s.heap.heapSizes ptr = some sz → s.heap.heapNext = ptr + sz →
      s.mem.Blank ptr.toNat (ptr.toNat + sz.toNat)
  | _ => True

def ReturnsZeros (s : HeapSys) (c : HeapCall) : Prop :=
  ∀ (n : Nat) (p : U64), c.zeroes = some n → (s.call c).2 = .ok p → p ≠ 0 →
    (s.next c).mem.read p n = .ok (List.replicate n 0)

structure Cleared (s : HeapSys) : Prop where
  kept : Kept s
  arena : s.heap.cfg.heapSize ≠ 0 →
    ⟨"heap", s.heap.cfg.heapBase, s.heap.cfg.heapSize, Perm.RW⟩ ∈ s.mem.regions.map fun r => r.region
  blank : s.mem.Blank s.heap.heapNext.toNat (s.heap.cfg.heapBase.toNat + s.heap.cfg.heapSize.toNat)

variable {s : HeapSys}

theorem Starts.cleared (h : Starts s) : Cleared s := by
  obtain ⟨mem, granted, hWf, hMap⟩ := h.mapped
  unfold VirtualMemory.map at hMap
  cases hZero : zeroed granted s.heap.cfg.heapSize with
  | error e =>
    rw [hZero] at hMap
    cases hMap
  | ok bytes =>
    rw [hZero] at hMap
    have hBytes := zeroed_bytes hZero
    have hWf' := hWf.insert hMap
    have hBumped : Bumped s.heap := h.fresh ▸ bumped_new s.heap.cfg
    have hFits := s.heap.cfg.fits
    have hNext : s.heap.heapNext = s.heap.cfg.heapBase := by rw [h.fresh]; rfl
    refine ⟨⟨hBumped, hWf'⟩, fun hSize => ?_, fun a hLow hHigh => ?_⟩
    · rcases insert_ok hMap with ⟨hNone, -⟩ | ⟨-, -, hMem⟩
      · exact absurd hNone hSize
      · rw [hMem]
        simp
    · rw [hNext] at hLow
      rcases insert_ok hMap with ⟨hNone, -⟩ | ⟨-, -, hMem⟩
      · simp only [show s.heap.cfg.heapSize = 0 from hNone] at hHigh
        simp at hHigh
        omega
      · obtain ⟨i, hGet⟩ := List.mem_iff_getElem?.mp (show
          (⟨⟨"heap", s.heap.cfg.heapBase, s.heap.cfg.heapSize, Perm.RW⟩, bytes, mem.nextHost⟩ : Mapped) ∈ s.mem.regions by
            rw [hMem]; simp)
        have hContains : Region.contains ⟨"heap", s.heap.cfg.heapBase, s.heap.cfg.heapSize, Perm.RW⟩ a = true := by
          rw [Region.contains_iff]
          unfold Region.endAddr
          dsimp only
          omega
        rw [peek_of_region hWf' hGet hContains, hBytes]

theorem Cleared.spared {s' : HeapSys} (h : Cleared s) (hHeap : Bumped s'.heap) (hCfg : s'.heap.cfg = s.heap.cfg)
    (hNext : s.heap.heapNext.toNat ≤ s'.heap.heapNext.toNat)
    (hMem : Spares s.mem s'.mem s'.heap.heapNext.toNat (s.heap.cfg.heapBase.toNat + s.heap.cfg.heapSize.toNat)) :
    Cleared s' where
  kept := ⟨hHeap, hMem.wellFormed h.kept.wellFormed⟩
  arena hSize := by
    rw [hMem.regions, hCfg]
    rw [hCfg] at hSize
    exact h.arena hSize
  blank := by
    rw [hCfg]
    exact hMem.blank h.kept.wellFormed (h.blank.mono hNext le_rfl)

theorem heapAlloc_next {h : Heap} (hBumped : Bumped h) (size : U64) :
    (h.heapAlloc size).1.cfg = h.cfg ∧ h.heapNext.toNat ≤ (h.heapAlloc size).1.heapNext.toNat ∧
      ((h.heapAlloc size).2 ≠ 0 → h.heapNext.toNat ≤ (h.heapAlloc size).2.toNat ∧
        (h.heapAlloc size).2.toNat + size.toNat ≤ (h.heapAlloc size).1.heapNext.toNat) := by
  have hAlloc := heapAlloc_allocates hBumped size
  generalize h.heapAlloc size = r at hAlloc
  cases hAlloc with
  | refused => exact ⟨rfl, le_rfl, fun hNe => absurd rfl hNe⟩
  | block ptr stored hStored hPtr hEnd hRoom =>
    have hSize := (stored_pos hStored).2
    dsimp only
    rw [hEnd]
    exact ⟨rfl, by omega, fun _ => ⟨by omega, by omega⟩⟩

theorem allocates_cleared (h : Cleared s) (size : U64) : Cleared (s.allocates size).1 :=
  have hNext := heapAlloc_next h.kept.bumped size
  h.spared (allocates_kept h.kept size).bumped hNext.1 hNext.2.1 (.refl ..)

theorem bumped_room {h : Heap} (hBumped : Bumped h) : h.heapNext.toNat < 2 ^ 64 - 1 := by
  have hHigh := hBumped.high
  have hFits := h.cfg.fits
  omega

theorem copies_cleared (h : Cleared s) (old newSize : U64) {n : Heap → Nat} (hFew : ∀ heap, n heap ≤ newSize.toNat) :
    Cleared (s.copies old newSize n).1 := by
  have hKept := copies_kept h.kept old newSize n
  have hBumped := (heapAlloc_allocates h.kept.bumped newSize).bumped h.kept.bumped
  obtain ⟨hCfg, hNext, hBlock⟩ := heapAlloc_next h.kept.bumped newSize
  unfold copies at hKept ⊢
  generalize s.heap.heapAlloc newSize = r at hKept hBumped hCfg hNext hBlock
  obtain ⟨heap, new⟩ := r
  dsimp only at hKept hBumped hCfg hNext hBlock ⊢
  split
  · rename_i hBoth
    have hEnd := (hBlock hBoth.1).2
    have hRoom := bumped_room hBumped
    have hMost := hFew heap
    have hMem : Spares s.mem (copyBytes old new s.mem 0 (n heap)).1 heap.heapNext.toNat
        (s.heap.cfg.heapBase.toNat + s.heap.cfg.heapSize.toNat) :=
      copyBytes_spares s.mem 0 (n heap) (by omega) (by omega)
    generalize copyBytes old new s.mem 0 (n heap) = copied at hMem
    obtain ⟨mem, e | done⟩ := copied
    · exact h.spared hBumped hCfg hNext hMem
    · exact h.spared hBumped hCfg hNext hMem
  · exact h.spared hBumped hCfg hNext (.refl ..)

theorem globalReAlloc_cleared (h : Cleared s) (old size : U64) : Cleared (s.globalReAlloc old size).1 := by
  have hBumped := (heapAlloc_allocates h.kept.bumped size).bumped h.kept.bumped
  obtain ⟨hCfg, hNext, hBlock⟩ := heapAlloc_next h.kept.bumped size
  unfold globalReAlloc
  generalize s.heap.heapAlloc size = r at hBumped hCfg hNext hBlock
  obtain ⟨heap, new⟩ := r
  dsimp only at hBumped hCfg hNext hBlock ⊢
  split
  · rename_i hBoth
    cases hRead : s.mem.read old size.toNat with
    | error e => exact h.spared hBumped hCfg hNext (.refl ..)
    | ok tmp =>
      dsimp only
      cases hWrite : s.mem.write new tmp with
      | error e => exact h.spared hBumped hCfg hNext (.refl ..)
      | ok mem =>
        refine h.spared hBumped hCfg hNext (.write hWrite (.inr ?_))
        rw [read_length hRead]
        exact (hBlock hBoth.1).2
  · exact h.spared hBumped hCfg hNext (.refl ..)

theorem heapFree_cleared (h : Cleared s) {ptr : U64} (hClear : ClearFree s (.HeapFree ptr)) :
    Cleared { s with heap := s.heap.heapFree ptr } := by
  have hBumped := heapFree_bumped h.kept.bumped ptr
  have hSame : ∀ heap : Heap, Bumped heap → heap.cfg = s.heap.cfg → heap.heapNext = s.heap.heapNext →
      Cleared { s with heap := heap } := fun heap hHeap hCfg hNext => h.spared hHeap hCfg (by rw [hNext]) (.refl ..)
  unfold heapFree at hBumped ⊢
  split
  · rename_i hNonzero
    rw [if_pos hNonzero] at hBumped
    cases hLive : s.heap.heapSizes ptr with
    | none =>
      rw [hLive] at hBumped
      exact hSame _ hBumped rfl rfl
    | some sz =>
      rw [hLive] at hBumped
      dsimp only at hBumped ⊢
      by_cases hLast : s.heap.heapNext = ptr + sz
      · -- the pointer comes down, and what it uncovers is zero
        rw [if_pos hLast] at hBumped ⊢
        have hRoom := h.kept.bumped.laid.inside ptr sz hLive
        have hFits := s.heap.cfg.fits
        have hEnd : s.heap.heapNext.toNat = ptr.toNat + sz.toNat := by
          rw [hLast, BitVec.toNat_add, Nat.mod_eq_of_lt (by omega)]
        have hUncovered := hClear sz hLive hLast
        rw [← hEnd] at hUncovered
        exact ⟨⟨hBumped, h.kept.wellFormed⟩, h.arena, hUncovered.join h.blank⟩
      · rw [if_neg hLast] at hBumped ⊢
        exact hSame _ hBumped rfl rfl
  · rename_i hZero
    rw [if_neg hZero] at hBumped
    exact hSame _ hBumped rfl rfl

theorem apply_spares {h : Heap} (hBumped : Bumped h) {op : MemoryOp} (hOwn : h.OwnsOp op) (mem : VirtualMemory) :
    Spares mem (mem.apply op) h.heapNext.toNat (h.cfg.heapBase.toNat + h.cfg.heapSize.toNat) := by
  cases op with
  | write a data =>
    change Spares mem (mem.orKeep (mem.write a data)) _ _
    cases hWrite : mem.write a data with
    | error e => exact .refl ..
    | ok mem' => exact .write hWrite (Owns.apart hBumped hOwn)
  | writeUint a size v =>
    change Spares mem (mem.orKeep (mem.writeUint a size v)) _ _
    cases hWrite : mem.writeUint a size v with
    | error e => exact .refl ..
    | ok mem' =>
      have hApart := Owns.apart hBumped (show h.Owns a size from hOwn)
      rw [← length_toLe size v] at hApart
      exact .write (write_of_writeUint hWrite) hApart
  | map granted region => cases hOwn
  | mapFixed granted base size perm name => cases hOwn
  | mapWithData granted name base size data perm => cases hOwn
  | poke a data => cases hOwn
  | protect base size perm => cases hOwn
  | unmap base size => cases hOwn

theorem memory_cleared (h : Cleared s) {ops : List MemoryOp} (hOwn : ∀ op ∈ ops, s.heap.OwnsOp op) :
    Cleared { s with mem := s.mem.history ops } := by
  have hSpares : ∀ mem : VirtualMemory, Spares mem (mem.history ops) s.heap.heapNext.toNat
      (s.heap.cfg.heapBase.toNat + s.heap.cfg.heapSize.toNat) := by
    induction ops with
    | nil => exact fun mem => .refl ..
    | cons op ops ih =>
      intro mem
      have hStep := apply_spares h.kept.bumped (hOwn op List.mem_cons_self) mem
      exact hStep.trans (ih (fun op hop => hOwn op (List.mem_cons_of_mem _ hop)) (mem.apply op))
  exact h.spared h.kept.bumped rfl le_rfl (hSpares s.mem)

theorem next_cleared (h : Cleared s) {c : HeapCall} (hOwn : OwnWrites s c) (hClear : ClearFree s c) :
    Cleared (s.next c) := by
  cases c with
  | HeapAlloc size => exact allocates_cleared h size
  | Malloc size => exact allocates_cleared h size
  | Calloc num size => exact allocates_cleared h _
  | GlobalAlloc size => exact allocates_cleared h size
  | HeapReAlloc old newSize => exact copies_cleared h old newSize fun heap => Nat.min_le_right ..
  | Realloc old size => exact copies_cleared h old size fun heap => le_rfl
  | GlobalReAlloc old size => exact globalReAlloc_cleared h old size
  | HeapFree ptr => exact heapFree_cleared h hClear
  | Free ptr => exact h
  | GlobalFree ptr => exact h
  | internal size => exact allocates_cleared h size
  | memory ops => exact memory_cleared h hOwn

theorem allocates_zeros (h : Cleared s) {size p : U64} (hDone : (s.allocates size).2 = .ok p) (hNonzero : p ≠ 0) :
    (s.allocates size).1.mem.read p size.toNat = .ok (List.replicate size.toNat 0) := by
  cases hDone
  obtain ⟨-, -, hBlock⟩ := heapAlloc_next h.kept.bumped size
  obtain ⟨hLow, hHigh⟩ := hBlock hNonzero
  have hTop := ((heapAlloc_allocates h.kept.bumped size).bumped h.kept.bumped).high
  rw [(heapAlloc_next h.kept.bumped size).1] at hTop
  have hFits := s.heap.cfg.fits
  change s.mem.read _ _ = _
  rcases Nat.eq_zero_or_pos size.toNat with hNone | hSome
  · rw [hNone]
    rfl
  · have hSize : s.heap.cfg.heapSize ≠ 0 := by
      intro hEmpty
      have hStart := h.kept.bumped.low
      rw [hEmpty] at hTop
      simp only [BitVec.ofNat_eq_ofNat, BitVec.toNat_ofNat, Nat.zero_mod] at hTop
      omega
    have hStart := h.kept.bumped.low
    exact Blank.read h.kept.wellFormed (h.arena hSize) (show Perm.RW.contains Perm.READ = true by decide)
      (hStart.trans hLow) (by dsimp only; omega)
      (by dsimp only; omega) (h.blank.mono hLow (by omega))

theorem call_zeros (h : Cleared s) (c : HeapCall) : ReturnsZeros s c := by
  intro n p hZeroes hDone hNonzero
  cases c with
  | HeapAlloc size =>
    cases hZeroes
    exact allocates_zeros h hDone hNonzero
  | Calloc num size =>
    cases hZeroes
    -- a product that does not fit is not served
    have hFits : num.toNat * size.toNat < 2 ^ 64 - 1 := by
      by_contra hOver
      have hTop : (satMul num size).toNat = 2 ^ 64 - 1 := by
        unfold satMul
        rw [BitVec.toNat_ofNat]
        omega
      obtain ⟨-, -, hBlock⟩ := heapAlloc_next h.kept.bumped (satMul num size)
      cases hDone
      have hEnd := (hBlock hNonzero).2
      have hRoom := bumped_room ((heapAlloc_allocates h.kept.bumped (satMul num size)).bumped h.kept.bumped)
      omega
    have hExact : (satMul num size).toNat = num.toNat * size.toNat := by
      unfold satMul
      rw [BitVec.toNat_ofNat]
      omega
    have hRead := allocates_zeros h hDone hNonzero
    rw [hExact] at hRead
    exact hRead
  | Malloc size => cases hZeroes
  | GlobalAlloc size => cases hZeroes
  | HeapReAlloc old newSize => cases hZeroes
  | Realloc old size => cases hZeroes
  | GlobalReAlloc old size => cases hZeroes
  | HeapFree ptr => cases hZeroes
  | Free ptr => cases hZeroes
  | GlobalFree ptr => cases hZeroes
  | internal size => cases hZeroes
  | memory ops => cases hZeroes

/-- As long as the topmost block is only freed when it is zero, every block that is promised to be zero is. -/
theorem clear_run_zeros {calls : List HeapCall} (hStarts : Starts s) (hOwn : Along next OwnWrites s calls)
    (hClear : Along next ClearFree s calls) : Along next ReturnsZeros s calls := by
  have hBoth : Along next (fun s c => OwnWrites s c ∧ ClearFree s c) s calls :=
    .of_at fun n c hGet => ⟨hOwn.at n c hGet, hClear.at n c hGet⟩
  refine .of_at fun n c _ => call_zeros ?_ c
  exact (hBoth.take n).keeps (fun s c _ h hStep => next_cleared h hStep.1 hStep.2) hStarts.cleared

def started : HeapSys :=
  { heap := .new .bits64, mem := VirtualMemory.new.orKeep (VirtualMemory.new.map true ⟨"heap", 0x200000000, 0x4000000, Perm.RW⟩) }

theorem starts_started : Starts started := ⟨rfl, .new, true, wellFormed_new, rfl⟩

def usedCalls : List HeapCall :=
  [.HeapAlloc 16, .HeapAlloc 16, .memory [.write 0x200000000 [0xAA, 0xBB], .writeUint 0x200000010 4 0], .HeapFree 0x200000000,
    .Malloc 1, .HeapFree 0x200000020, .Calloc 4 4]

theorem clear_run_zeros_used :
    ReturnsZeros ((usedCalls.take 6).foldl next started) (.Calloc 4 4) := by
  refine (@clear_run_zeros started usedCalls starts_started ?_ ?_).at 6 _ rfl
  · refine .cons trivial (.cons trivial (.cons (fun op hop => ?_) (.cons trivial (.cons trivial (.cons trivial
      (.cons trivial (.nil _)))))))
    simp only [List.mem_cons, List.not_mem_nil, or_false] at hop
    rcases hop with rfl | rfl
    · exact .inl ⟨0x200000000, 16, by decide, by decide, by decide⟩
    · exact .inl ⟨0x200000010, 16, by decide, by decide, by decide⟩
  · refine .cons trivial (.cons trivial (.cons trivial (.cons (fun sz hLive hLast => ?_) (.cons trivial (.cons
      (fun sz hLive hLast => ?_) (.cons trivial (.nil _)))))))
    · -- the first block lies below the second one
      have hSize : sz = 16 := Option.some.inj (hLive.symm.trans (by decide))
      subst hSize
      exact absurd hLast (by decide)
    · -- nothing was written to the last one
      have hSize : sz = 1 := Option.some.inj (hLive.symm.trans (by decide))
      subst hSize
      intro a hLow hHigh
      have hHere : a = 0x200000020 := BitVec.eq_of_toNat_eq (Nat.le_antisymm (Nat.le_of_lt_succ hHigh) hLow)
      subst hHere
      decide

def dirtyCalls : List HeapCall :=
  [.HeapAlloc 16, .memory [.write 0x200000000 [0xAA]], .HeapFree 0x200000000]

/-- A block is written and freed, and `calloc` returns it with the byte still in it. -/
theorem calloc_returns_dirty_block :
    Starts started ∧ Along next OwnWrites started (dirtyCalls ++ [.Calloc 1 16]) ∧
      ¬Along next ReturnsZeros started (dirtyCalls ++ [.Calloc 1 16]) ∧
        ((dirtyCalls.foldl next started).call (.Calloc 1 16)).2 = .ok 0x200000000 := by
  refine ⟨starts_started, ?_, fun hZeros => ?_, by decide⟩
  · refine .cons trivial (.cons (fun op hop => ?_) (.cons trivial (.cons trivial (.nil _))))
    obtain rfl := List.mem_singleton.mp hop
    exact .inl ⟨0x200000000, 16, by decide, by decide, by decide⟩
  · have hRead := hZeros.at 3 (.Calloc 1 16) rfl 16 0x200000000 rfl (by decide) (by decide)
    exact absurd hRead (by decide)

end HeapSys

end Os
end Exemu
