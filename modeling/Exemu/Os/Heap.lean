import Exemu.Library.Align
import Exemu.Memory.Lawful

/-! # The process heap

`heap_alloc` moves a pointer up through the heap's region and notes the size of every block;
freeing the block that ends at the pointer moves it down again.
-/
namespace Exemu.Os

open VirtualMemory

/-- Where the loader lays out the heap: not at zero, and with room above it. -/
structure HeapLayout where
  heapBase : U64
  heapSize : U64
  based : heapBase ≠ 0
  fits : heapBase.toNat + heapSize.toNat ≤ 2 ^ 64 - 16

namespace HeapLayout

def bits64 : HeapLayout := ⟨0x200000000, 0x4000000, by decide, by decide⟩

end HeapLayout

structure Heap where
  cfg : HeapLayout
  heapNext : U64
  heapSizes : U64 → Option U64
  lastError : U32

namespace Heap

def new (cfg : HeapLayout) : Heap := { cfg := cfg, heapNext := cfg.heapBase, heapSizes := fun _ => none, lastError := 0 }

def insertSize (self : Heap) (ptr size : U64) : U64 → Option U64 := fun p => if p = ptr then some size else self.heapSizes p

def heapAlloc (self : Heap) (size : U64) : Heap × U64 :=
  let align : U64 := 16
  let ptr := (self.heapNext + align - 1) &&& ~~~(align - 1)
  let stored := if size = 0 then 1 else size
  if ptr.toNat + stored.toNat < 2 ^ 64 ∧ ptr + stored ≤ self.cfg.heapBase + self.cfg.heapSize then
    ({ self with heapNext := ptr + stored, heapSizes := self.insertSize ptr stored }, ptr)
  else ({ self with lastError := 8 }, 0)

def heapFree (self : Heap) (ptr : U64) : Heap :=
  if ptr ≠ 0 then
    match self.heapSizes ptr with
    | some sz =>
      { self with
        heapSizes := fun p => if p = ptr then none else self.heapSizes p
        heapNext := if self.heapNext = ptr + sz then ptr else self.heapNext }
    | none => self
  else self

def satMul (a b : U64) : U64 := BitVec.ofNat 64 (min (a.toNat * b.toNat) (2 ^ 64 - 1))

end Heap

/-- `for i in i..i + n`: a byte is read at `old + i` and written at `new + i`. -/
def copyBytes (old new : U64) : VirtualMemory → (i : Nat) → (n : Nat) → VirtualMemory × Result Unit
  | mem, _, 0 => (mem, .ok ())
  | mem, i, n + 1 =>
    match Memory.readU8 mem (old + BitVec.ofNat 64 i) with
    | .error e => (mem, .error e)
    | .ok b =>
      match mem.write (new + BitVec.ofNat 64 i) [b] with
      | .error e => (mem, .error e)
      | .ok mem => copyBytes old new mem (i + 1) n

structure HeapSys where
  heap : Heap
  mem : VirtualMemory

inductive HeapCall where
  | HeapAlloc (size : U64)
  | Malloc (size : U64)
  | Calloc (num size : U64)
  | GlobalAlloc (size : U64)
  | HeapReAlloc (old newSize : U64)
  | Realloc (old size : U64)
  | GlobalReAlloc (old size : U64)
  | HeapFree (ptr : U64)
  | Free (ptr : U64)
  | GlobalFree (ptr : U64)
  /-- the emulator allocates for itself -/
  | internal (size : U64)
  /-- whatever else happens to the memory meanwhile -/
  | memory (ops : List MemoryOp)

namespace HeapSys

def new (cfg : HeapLayout) : HeapSys := { heap := .new cfg, mem := .new }

def allocates (self : HeapSys) (size : U64) : HeapSys × Result U64 :=
  ({ self with heap := (self.heap.heapAlloc size).1 }, .ok (self.heap.heapAlloc size).2)

/-- A new block of `newSize` bytes that the first `n` bytes of the old one are copied into. -/
def copies (self : HeapSys) (old newSize : U64) (n : Heap → Nat) : HeapSys × Result U64 :=
  let (heap, new) := self.heap.heapAlloc newSize
  if new ≠ 0 ∧ old ≠ 0 then
    match copyBytes old new self.mem 0 (n heap) with
    | (mem, .error e) => ({ heap := heap, mem := mem }, .error e)
    | (mem, .ok _) => ({ heap := heap, mem := mem }, .ok new)
  else ({ self with heap := heap }, .ok new)

def heapReAlloc (self : HeapSys) (old newSize : U64) : HeapSys × Result U64 :=
  self.copies old newSize fun heap => min ((heap.heapSizes old).getD newSize).toNat newSize.toNat

def realloc (self : HeapSys) (old size : U64) : HeapSys × Result U64 := self.copies old size fun _ => size.toNat

def globalReAlloc (self : HeapSys) (old size : U64) : HeapSys × Result U64 :=
  let (heap, new) := self.heap.heapAlloc size
  if new ≠ 0 ∧ old ≠ 0 then
    match self.mem.read old size.toNat with
    | .error e => ({ self with heap := heap }, .error e)
    | .ok tmp =>
      match self.mem.write new tmp with
      | .error e => ({ self with heap := heap }, .error e)
      | .ok mem => ({ heap := heap, mem := mem }, .ok new)
  else ({ self with heap := heap }, .ok new)

def call (self : HeapSys) : HeapCall → HeapSys × Result U64
  | .HeapAlloc size => self.allocates size
  | .Malloc size => self.allocates size
  | .Calloc num size => self.allocates (Heap.satMul num size)
  | .GlobalAlloc size => self.allocates size
  | .HeapReAlloc old newSize => self.heapReAlloc old newSize
  | .Realloc old size => self.realloc old size
  | .GlobalReAlloc old size => self.globalReAlloc old size
  | .HeapFree ptr => ({ self with heap := self.heap.heapFree ptr }, .ok 1)
  | .Free _ => (self, .ok 0)
  | .GlobalFree _ => (self, .ok 0)
  | .internal size => self.allocates size
  | .memory ops => ({ self with mem := self.mem.history ops }, .ok 0)

def next (self : HeapSys) (c : HeapCall) : HeapSys := (self.call c).1

end HeapSys

def HeapCall.reallocates : HeapCall → Option (U64 × U64)
  | .HeapReAlloc old newSize => some (old, newSize)
  | .Realloc old size => some (old, size)
  | .GlobalReAlloc old size => some (old, size)
  | _ => none

/-! ## The blocks -/

namespace Heap

/-- The live blocks lie on multiples of 16 in the heap's region, and apart from each other. -/
structure Laid (h : Heap) : Prop where
  aligned : ∀ p s, h.heapSizes p = some s → p.toNat % 16 = 0
  inside : ∀ p s, h.heapSizes p = some s →
    h.cfg.heapBase.toNat ≤ p.toNat ∧ p.toNat + s.toNat ≤ h.cfg.heapBase.toNat + h.cfg.heapSize.toNat
  apart : ∀ p q s t, h.heapSizes p = some s → h.heapSizes q = some t → p ≠ q →
    p.toNat + s.toNat ≤ q.toNat ∨ q.toNat + t.toNat ≤ p.toNat

structure Bumped (h : Heap) : Prop where
  laid : Laid h
  low : h.cfg.heapBase.toNat ≤ h.heapNext.toNat
  high : h.heapNext.toNat ≤ h.cfg.heapBase.toNat + h.cfg.heapSize.toNat
  below : ∀ p s, h.heapSizes p = some s → p.toNat + s.toNat ≤ h.heapNext.toNat
  some_byte : ∀ p s, h.heapSizes p = some s → 0 < s.toNat

theorem bumped_new (cfg : HeapLayout) : Bumped (new cfg) where
  laid := {
    aligned := fun _ _ h => by cases h
    inside := fun _ _ h => by cases h
    apart := fun _ _ _ _ h => by cases h }
  low := le_rfl
  high := Nat.le_add_right ..
  below _ _ h := by cases h
  some_byte _ _ h := by cases h

variable {h : Heap} {size ptr : U64}

/-- What an allocation gives: nothing, or a block at the next multiple of 16. -/
inductive Allocates (h : Heap) (size : U64) : Heap × U64 → Prop
  | refused : Allocates h size ({ h with lastError := 8 }, 0)
  | block (ptr stored : U64) (hStored : stored = if size = 0 then 1 else size)
      (hPtr : ptr.toNat = (h.heapNext.toNat + 15) / 16 * 16) (hEnd : (ptr + stored).toNat = ptr.toNat + stored.toNat)
      (hRoom : ptr.toNat + stored.toNat ≤ h.cfg.heapBase.toNat + h.cfg.heapSize.toNat) :
      Allocates h size ({ h with heapNext := ptr + stored, heapSizes := h.insertSize ptr stored }, ptr)

theorem heapAlloc_allocates (hBumped : Bumped h) (size : U64) : Allocates h size (h.heapAlloc size) := by
  have hHigh := hBumped.high
  have hFits := h.cfg.fits
  have hNext : ((h.heapNext + 16 - 1) &&& ~~~(16 - 1) : U64).toNat = (h.heapNext.toNat + 15) / 16 * 16 :=
    toNat_alignUp (k := 4) h.heapNext rfl (by omega)
  have hArena : (h.cfg.heapBase + h.cfg.heapSize).toNat = h.cfg.heapBase.toNat + h.cfg.heapSize.toNat := by
    rw [BitVec.toNat_add, Nat.mod_eq_of_lt (by omega)]
  unfold heapAlloc
  dsimp only
  generalize hStored : (if size = 0 then (1 : U64) else size) = stored
  split
  · rename_i hRoom
    obtain ⟨hWraps, hLe⟩ := hRoom
    rw [BitVec.le_def, hArena, BitVec.toNat_add, Nat.mod_eq_of_lt hWraps] at hLe
    refine .block _ _ hStored.symm hNext ?_ hLe
    rw [BitVec.toNat_add, Nat.mod_eq_of_lt hWraps]
  · exact .refused

theorem stored_pos {stored : U64} (h : stored = if size = 0 then 1 else size) : 0 < stored.toNat ∧ size.toNat ≤ stored.toNat := by
  subst h
  split
  · rename_i hZero
    subst hZero
    decide
  · rename_i hSome
    exact ⟨Nat.pos_of_ne_zero fun hZero => hSome (BitVec.eq_of_toNat_eq hZero), le_rfl⟩

theorem insertSize_cases {stored p s : U64} (hGet : h.insertSize ptr stored p = some s) :
    p = ptr ∧ s = stored ∨ p ≠ ptr ∧ h.heapSizes p = some s := by
  unfold insertSize at hGet
  split at hGet
  · rename_i hSame
    exact .inl ⟨hSame, (Option.some.inj hGet).symm⟩
  · rename_i hOther
    exact .inr ⟨hOther, hGet⟩

theorem Allocates.bumped {r : Heap × U64} (hAlloc : Allocates h size r) (hBumped : Bumped h) : Bumped r.1 := by
  cases hAlloc with
  | refused =>
    exact ⟨⟨hBumped.laid.aligned, hBumped.laid.inside, hBumped.laid.apart⟩, hBumped.low, hBumped.high, hBumped.below,
      hBumped.some_byte⟩
  | block ptr stored hStored hPtr hEnd hRoom =>
    have hLow := hBumped.low
    have hUp : h.heapNext.toNat ≤ ptr.toNat := by omega
    have hPos := (stored_pos hStored).1
    refine ⟨⟨fun p s hGet => ?_, fun p s hGet => ?_, fun p q s t hp hq hNe => ?_⟩, ?_, ?_, fun p s hGet => ?_,
      fun p s hGet => ?_⟩
    · rcases insertSize_cases hGet with ⟨rfl, -⟩ | ⟨-, hOld⟩
      · omega
      · exact hBumped.laid.aligned p s hOld
    · rcases insertSize_cases hGet with ⟨rfl, rfl⟩ | ⟨-, hOld⟩
      · exact ⟨hLow.trans hUp, hRoom⟩
      · exact hBumped.laid.inside p s hOld
    · rcases insertSize_cases hp with ⟨rfl, rfl⟩ | ⟨-, hOld⟩
      · rcases insertSize_cases hq with ⟨rfl, -⟩ | ⟨-, hOld'⟩
        · exact absurd rfl hNe
        · have := hBumped.below q t hOld'
          omega
      · rcases insertSize_cases hq with ⟨rfl, -⟩ | ⟨-, hOld'⟩
        · have := hBumped.below p s hOld
          omega
        · exact hBumped.laid.apart p q s t hOld hOld' hNe
    · change h.cfg.heapBase.toNat ≤ (ptr + stored).toNat
      omega
    · change (ptr + stored).toNat ≤ h.cfg.heapBase.toNat + h.cfg.heapSize.toNat
      omega
    · change p.toNat + s.toNat ≤ (ptr + stored).toNat
      rcases insertSize_cases hGet with ⟨rfl, rfl⟩ | ⟨-, hOld⟩
      · omega
      · have := hBumped.below p s hOld
        omega
    · rcases insertSize_cases hGet with ⟨-, rfl⟩ | ⟨-, hOld⟩
      · exact hPos
      · exact hBumped.some_byte p s hOld

theorem heapFree_bumped (hBumped : Bumped h) (ptr : U64) : Bumped (h.heapFree ptr) := by
  unfold heapFree
  split
  · cases hGet : h.heapSizes ptr with
    | none => exact hBumped
    | some sz =>
      have hKept : ∀ {p s : U64}, (if p = ptr then none else h.heapSizes p) = some s → p ≠ ptr ∧ h.heapSizes p = some s := by
        intro p s hp
        split at hp
        · cases hp
        · rename_i hNe
          exact ⟨hNe, hp⟩
      have hInside := hBumped.laid.inside ptr sz hGet
      have hFits := h.cfg.fits
      have hHigh := hBumped.high
      have hEnd : (ptr + sz).toNat = ptr.toNat + sz.toNat := by
        rw [BitVec.toNat_add, Nat.mod_eq_of_lt (by omega)]
      refine ⟨⟨fun p s hp => hBumped.laid.aligned p s (hKept hp).2, fun p s hp => hBumped.laid.inside p s (hKept hp).2,
        fun p q s t hp hq => hBumped.laid.apart p q s t (hKept hp).2 (hKept hq).2⟩, ?_, ?_, fun p s hp => ?_,
        fun p s hp => hBumped.some_byte p s (hKept hp).2⟩
      · dsimp only
        split
        · exact hInside.1
        · exact hBumped.low
      · dsimp only
        split <;> omega
      · obtain ⟨hNe, hOld⟩ := hKept hp
        have hBelow := hBumped.below p s hOld
        have hSome := hBumped.some_byte p s hOld
        dsimp only
        split
        · -- the block that ended at the pointer is gone, and no other one reaches above its base
          rename_i hLast
          rw [hLast, hEnd] at hBelow
          rcases hBumped.laid.apart p ptr s sz hOld hGet hNe with hUnder | hOver <;> omega
        · exact hBelow
  · exact hBumped

theorem Allocates.keeps {r : Heap × U64} (hAlloc : Allocates h size r) (hBumped : Bumped h) {p s : U64}
    (hGet : h.heapSizes p = some s) : r.1.heapSizes p = some s := by
  cases hAlloc with
  | refused => exact hGet
  | block ptr stored hStored hPtr hEnd hRoom =>
    have hBelow := hBumped.below p s hGet
    have hSome := hBumped.some_byte p s hGet
    have hNe : p ≠ ptr := by
      rintro rfl
      omega
    change (if p = ptr then some stored else h.heapSizes p) = some s
    rw [if_neg hNe, hGet]

end Heap

/-! ## Copying a block -/

section Copying

variable {mem : VirtualMemory} {old new : U64} {i n : Nat}

theorem toNat_add_ofNat {a : U64} {k : Nat} (h : a.toNat + k < 2 ^ 64) : (a + BitVec.ofNat 64 k).toNat = a.toNat + k := by
  rw [BitVec.toNat_add, BitVec.toNat_ofNat]
  omega

theorem write_wellFormed {mem' : VirtualMemory} {a : U64} {bs : List U8} (hWf : WellFormed mem) (h : mem.write a bs = .ok mem') :
    WellFormed mem' := LawfulMemory.sound_write (M := VirtualMemory) hWf h

theorem copyBytes_wellFormed (old new : U64) (hWf : WellFormed mem) (i n : Nat) :
    WellFormed (copyBytes old new mem i n).1 := by
  induction n generalizing mem i with
  | zero => exact hWf
  | succ n ih =>
    unfold copyBytes
    cases Memory.readU8 mem (old + BitVec.ofNat 64 i) with
    | error e => exact hWf
    | ok b =>
      dsimp only
      cases hWrite : mem.write (new + BitVec.ofNat 64 i) [b] with
      | error e => exact hWf
      | ok mem' => exact ih (write_wellFormed hWf hWrite) (i + 1)

theorem copyBytes_below (hWf : WellFormed mem) (hRoom : new.toNat + (i + n) < 2 ^ 64) {a : U64}
    (hBelow : a.toNat < new.toNat + i) : (copyBytes old new mem i n).1.peek a = mem.peek a := by
  induction n generalizing mem i with
  | zero => rfl
  | succ n ih =>
    unfold copyBytes
    cases Memory.readU8 mem (old + BitVec.ofNat 64 i) with
    | error e => rfl
    | ok b =>
      dsimp only
      cases hWrite : mem.write (new + BitVec.ofNat 64 i) [b] with
      | error e => rfl
      | ok mem' =>
        have hHere : (new + BitVec.ofNat 64 i).toNat = new.toNat + i := toNat_add_ofNat (by omega)
        have hStep := peek_apart hWf hWrite (b := a) (.inl (by omega))
        exact (ih (write_wellFormed hWf hWrite) (by omega) (by omega)).trans hStep

theorem copyBytes_copied (hWf : WellFormed mem) (hRoom : new.toNat + (i + n) < 2 ^ 64)
    (hDone : (copyBytes old new mem i n).2 = .ok ()) {j : Nat} (hLow : i ≤ j) (hHigh : j < i + n)
    (hBelow : old.toNat + j < new.toNat) :
    (copyBytes old new mem i n).1.peek (new + BitVec.ofNat 64 j) = mem.peek (old + BitVec.ofNat 64 j) ∧
      (mem.peek (old + BitVec.ofNat 64 j)).isSome = true := by
  induction n generalizing mem i with
  | zero => omega
  | succ n ih =>
    unfold copyBytes at hDone ⊢
    cases hRead : Memory.readU8 mem (old + BitVec.ofNat 64 i) with
    | error e =>
      rw [hRead] at hDone
      cases hDone
    | ok b =>
      rw [hRead] at hDone
      dsimp only at hDone ⊢
      cases hWrite : mem.write (new + BitVec.ofNat 64 i) [b] with
      | error e =>
        rw [hWrite] at hDone
        cases hDone
      | ok mem' =>
        rw [hWrite] at hDone
        dsimp only at hDone ⊢
        have hWf' := write_wellFormed hWf hWrite
        have hHere : (new + BitVec.ofNat 64 i).toNat = new.toNat + i := toNat_add_ofNat (by omega)
        rcases Nat.eq_or_lt_of_le hLow with rfl | hLater
        · have hSource := readU8_peek hWf hRead
          have hNew := peek_written hWf hWrite (k := 0) rfl (by omega)
          rw [BitVec.add_zero] at hNew
          have hLater : (copyBytes old new mem' (i + 1) n).1.peek (new + BitVec.ofNat 64 i) =
              mem'.peek (new + BitVec.ofNat 64 i) := copyBytes_below hWf' (by omega) (by omega)
          rw [hLater, hNew, hSource]
          exact ⟨rfl, rfl⟩
        · have hThere : (old + BitVec.ofNat 64 j).toNat = old.toNat + j := toNat_add_ofNat (by omega)
          have hSame := peek_apart hWf hWrite (b := old + BitVec.ofNat 64 j) (.inl (by omega))
          have hRest := ih hWf' (by omega) hDone hLater (by omega)
          rwa [hSame] at hRest

end Copying

/-! ## One call -/

namespace HeapSys

open Heap

structure Kept (s : HeapSys) : Prop where
  bumped : Bumped s.heap
  wellFormed : WellFormed s.mem

variable (cfg : HeapLayout) {old size newSize : U64}

theorem kept_new : Kept (new cfg) := ⟨bumped_new cfg, wellFormed_new⟩

variable {s : HeapSys}

theorem allocates_kept (h : Kept s) (size : U64) : Kept (s.allocates size).1 :=
  ⟨(heapAlloc_allocates h.bumped size).bumped h.bumped, h.wellFormed⟩

theorem copies_kept (h : Kept s) (old newSize : U64) (n : Heap → Nat) : Kept (s.copies old newSize n).1 := by
  have hBumped := (heapAlloc_allocates h.bumped newSize).bumped h.bumped
  unfold copies
  generalize s.heap.heapAlloc newSize = r at hBumped
  obtain ⟨heap, new⟩ := r
  dsimp only at hBumped ⊢
  split
  · have hWf := copyBytes_wellFormed old new h.wellFormed 0 (n heap)
    split
    · rename_i mem e hCopy
      rw [hCopy] at hWf
      exact ⟨hBumped, hWf⟩
    · rename_i mem done hCopy
      rw [hCopy] at hWf
      exact ⟨hBumped, hWf⟩
  · exact ⟨hBumped, h.wellFormed⟩

theorem globalReAlloc_kept (h : Kept s) (old size : U64) : Kept (s.globalReAlloc old size).1 := by
  have hBumped := (heapAlloc_allocates h.bumped size).bumped h.bumped
  unfold globalReAlloc
  generalize s.heap.heapAlloc size = r at hBumped
  obtain ⟨heap, new⟩ := r
  dsimp only at hBumped ⊢
  split
  · split
    · exact ⟨hBumped, h.wellFormed⟩
    · split
      · exact ⟨hBumped, h.wellFormed⟩
      · rename_i mem hWrite
        exact ⟨hBumped, write_wellFormed h.wellFormed hWrite⟩
  · exact ⟨hBumped, h.wellFormed⟩

theorem next_kept (h : Kept s) (c : HeapCall) : Kept (s.next c) := by
  cases c with
  | HeapAlloc size => exact allocates_kept h size
  | Malloc size => exact allocates_kept h size
  | Calloc num size => exact allocates_kept h _
  | GlobalAlloc size => exact allocates_kept h size
  | HeapReAlloc old newSize => exact copies_kept h old newSize _
  | Realloc old size => exact copies_kept h old size _
  | GlobalReAlloc old size => exact globalReAlloc_kept h old size
  | HeapFree ptr => exact ⟨heapFree_bumped h.bumped ptr, h.wellFormed⟩
  | Free ptr => exact h
  | GlobalFree ptr => exact h
  | internal size => exact allocates_kept h size
  | memory ops => exact ⟨h.bumped, wellFormed_history h.wellFormed ops⟩

def run (cfg : HeapLayout) (calls : List HeapCall) : HeapSys := calls.foldl next (new cfg)

theorem run_kept (calls : List HeapCall) : Kept (run cfg calls) := by
  have hAll : ∀ s, Kept s → Kept (calls.foldl next s) := by
    induction calls with
    | nil => exact fun _ h => h
    | cons c calls ih => exact fun s h => ih (s.next c) (next_kept h c)
  exact hAll _ (kept_new cfg)

theorem next_cfg (s : HeapSys) (c : HeapCall) : (s.next c).heap.cfg = s.heap.cfg := by
  have hAlloc : ∀ (h : Heap) (size : U64), (h.heapAlloc size).1.cfg = h.cfg := by
    intro h size
    unfold heapAlloc
    dsimp only
    generalize (if size = 0 then (1 : U64) else size) = stored
    split <;> rfl
  have hCopies : ∀ (old newSize : U64) (n : Heap → Nat), (s.copies old newSize n).1.heap.cfg = s.heap.cfg := by
    intro old newSize n
    refine Eq.trans ?_ (hAlloc s.heap newSize)
    unfold copies
    dsimp only
    split
    · split <;> rfl
    · rfl
  cases c with
  | HeapAlloc size => exact hAlloc s.heap size
  | Malloc size => exact hAlloc s.heap size
  | Calloc num size => exact hAlloc s.heap _
  | GlobalAlloc size => exact hAlloc s.heap size
  | HeapReAlloc old newSize => exact hCopies old newSize _
  | Realloc old size => exact hCopies old size _
  | GlobalReAlloc old size =>
    refine Eq.trans ?_ (hAlloc s.heap size)
    unfold next call globalReAlloc
    dsimp only
    split
    · split
      · rfl
      · split <;> rfl
    · rfl
  | HeapFree ptr =>
    unfold next call heapFree
    dsimp only
    split
    · split <;> rfl
    · rfl
  | Free ptr => rfl
  | GlobalFree ptr => rfl
  | internal size => exact hAlloc s.heap size
  | memory ops => rfl

theorem run_cfg (calls : List HeapCall) : (run cfg calls).heap.cfg = cfg := by
  have hAll : ∀ s : HeapSys, (calls.foldl next s).heap.cfg = s.heap.cfg := by
    induction calls with
    | nil => exact fun _ => rfl
    | cons c calls ih => exact fun s => (ih (s.next c)).trans (next_cfg s c)
  exact hAll _

/-! ## Reallocations -/

/-- The new block is live beside the old one, and its first bytes are those of the old one. -/
structure Reallocated (s s' : HeapSys) (old size new newSize : U64) : Prop where
  block : s'.heap.heapSizes new = some (if newSize = 0 then 1 else newSize)
  other : new ≠ old
  kept : s'.heap.heapSizes old = some size
  bytes : ∀ j, j < min size.toNat newSize.toNat →
    s'.mem.peek (new + BitVec.ofNat 64 j) = s.mem.peek (old + BitVec.ofNat 64 j) ∧
      (s.mem.peek (old + BitVec.ofNat 64 j)).isSome = true

structure Placed (h h' : Heap) (old size new newSize : U64) : Prop where
  bumped : Bumped h'
  block : h'.heapSizes new = some (if newSize = 0 then 1 else newSize)
  kept : h'.heapSizes old = some size
  above : old.toNat + size.toNat ≤ new.toNat
  some_byte : 0 < size.toNat
  room : new.toNat + newSize.toNat < 2 ^ 64 - 1

theorem heapAlloc_placed {h : Heap} (hBumped : Bumped h) (hLive : h.heapSizes old = some size) (hNew : (h.heapAlloc newSize).2 ≠ 0) :
    Placed h (h.heapAlloc newSize).1 old size (h.heapAlloc newSize).2 newSize := by
  have hAlloc := heapAlloc_allocates hBumped newSize
  have hBumped' := hAlloc.bumped hBumped
  have hKept := hAlloc.keeps hBumped hLive
  have hBelow := hBumped.below old size hLive
  generalize h.heapAlloc newSize = r at hAlloc hBumped' hKept hNew
  cases hAlloc with
  | refused => exact absurd rfl hNew
  | block ptr stored hStored hPtr hEnd hRoom =>
    have hFits := h.cfg.fits
    have hSize := (stored_pos hStored).2
    refine ⟨hBumped', ?_, hKept, ?_, hBumped.some_byte old size hLive, ?_⟩
    · change (if ptr = ptr then some stored else h.heapSizes ptr) = _
      rw [if_pos rfl, hStored]
    · dsimp only
      omega
    · dsimp only
      omega

theorem Placed.other {h h' : Heap} {new : U64} (hPlaced : Placed h h' old size new newSize) : new ≠ old := by
  have hAbove := hPlaced.above
  have hSome := hPlaced.some_byte
  rintro rfl
  omega

theorem live_ne_zero {h : Heap} (hBumped : Bumped h) {p : U64} (hLive : h.heapSizes p = some size) : p ≠ 0 := by
  rintro rfl
  have hInside := (hBumped.laid.inside 0 size hLive).1
  refine h.cfg.based (BitVec.eq_of_toNat_eq ?_)
  simpa using hInside

theorem copies_reallocated (h : Kept s) {new : U64} {n : Heap → Nat} (hLive : s.heap.heapSizes old = some size)
    (hDone : (s.copies old newSize n).2 = .ok new) (hNew : new ≠ 0) (hFew : ∀ heap : Heap, heap.heapSizes old = some size →
      min size.toNat newSize.toNat ≤ n heap ∧ n heap ≤ newSize.toNat) :
    Reallocated s (s.copies old newSize n).1 old size new newSize := by
  have hOld := live_ne_zero h.bumped hLive
  have hPlaced : (s.heap.heapAlloc newSize).2 ≠ 0 → _ := heapAlloc_placed h.bumped hLive
  unfold copies at hDone ⊢
  generalize s.heap.heapAlloc newSize = r at hPlaced hDone
  obtain ⟨heap, ptr⟩ := r
  dsimp only at hPlaced hDone ⊢
  split at hDone
  · rename_i hBoth
    rw [if_pos hBoth]
    specialize hPlaced hBoth.1
    obtain ⟨hEnough, hMost⟩ := hFew heap hPlaced.kept
    have hAbove := hPlaced.above
    have hRoom := hPlaced.room
    have hCopied := @copyBytes_copied s.mem old ptr 0 (n heap) h.wellFormed (by omega)
    generalize copyBytes old ptr s.mem 0 (n heap) = copied at hCopied hDone
    obtain ⟨mem, e | done⟩ := copied
    · cases hDone
    · cases hDone
      refine ⟨hPlaced.block, hPlaced.other, hPlaced.kept, fun j hj => ?_⟩
      exact hCopied rfl (Nat.zero_le j) (by omega) (by omega)
  · rename_i hNot
    cases hDone
    exact absurd ⟨hNew, hOld⟩ hNot

theorem globalReAlloc_reallocated (h : Kept s) {new : U64} (hLive : s.heap.heapSizes old = some size)
    (hDone : (s.globalReAlloc old newSize).2 = .ok new) (hNew : new ≠ 0) :
    Reallocated s (s.globalReAlloc old newSize).1 old size new newSize := by
  have hOld := live_ne_zero h.bumped hLive
  have hPlaced : (s.heap.heapAlloc newSize).2 ≠ 0 → _ := heapAlloc_placed h.bumped hLive
  unfold globalReAlloc at hDone ⊢
  generalize s.heap.heapAlloc newSize = r at hPlaced hDone
  obtain ⟨heap, ptr⟩ := r
  dsimp only at hPlaced hDone ⊢
  split at hDone
  · rename_i hBoth
    rw [if_pos hBoth]
    specialize hPlaced hBoth.1
    have hAbove := hPlaced.above
    have hRoom := hPlaced.room
    cases hRead : s.mem.read old newSize.toNat with
    | error e =>
      rw [hRead] at hDone
      cases hDone
    | ok tmp =>
      rw [hRead] at hDone
      dsimp only at hDone ⊢
      cases hWrite : s.mem.write ptr tmp with
      | error e =>
        rw [hWrite] at hDone
        cases hDone
      | ok mem =>
        rw [hWrite] at hDone
        cases hDone
        refine ⟨hPlaced.block, hPlaced.other, hPlaced.kept, fun j hj => ?_⟩
        have hLength := read_length hRead
        have hSource := read_peek h.wellFormed hRead (k := j) (by omega) (by omega)
        have hByte : tmp[j]? = some (tmp.get ⟨j, by omega⟩) := List.getElem?_eq_getElem (by omega)
        dsimp only
        rw [hSource, peek_written h.wellFormed hWrite hByte (by omega), hByte]
        exact ⟨rfl, rfl⟩
  · rename_i hNot
    cases hDone
    exact absurd ⟨hNew, hOld⟩ hNot

theorem call_reallocated (h : Kept s) {c : HeapCall} {new : U64} (hCall : c.reallocates = some (old, newSize))
    (hLive : s.heap.heapSizes old = some size) (hDone : (s.call c).2 = .ok new) (hNew : new ≠ 0) :
    Reallocated s (s.next c) old size new newSize := by
  cases c with
  | HeapReAlloc o n =>
    cases hCall
    refine copies_reallocated h hLive hDone hNew fun heap hHeap => ?_
    rw [hHeap]
    exact ⟨le_rfl, Nat.min_le_right ..⟩
  | Realloc o n =>
    cases hCall
    exact copies_reallocated h hLive hDone hNew fun heap _ => ⟨Nat.min_le_right .., le_rfl⟩
  | GlobalReAlloc o n =>
    cases hCall
    exact globalReAlloc_reallocated h hLive hDone hNew
  | HeapAlloc size => cases hCall
  | Malloc size => cases hCall
  | Calloc num size => cases hCall
  | GlobalAlloc size => cases hCall
  | HeapFree ptr => cases hCall
  | Free ptr => cases hCall
  | GlobalFree ptr => cases hCall
  | internal size => cases hCall
  | memory ops => cases hCall

/-- After any calls the blocks are laid out well, and the next call, if it reallocates a live block,
gives one that starts like it. -/
theorem heap_laid (cfg : HeapLayout) (calls : List HeapCall) :
    (run cfg calls).heap.Laid ∧ (run cfg calls).heap.cfg = cfg ∧
      ∀ (c : HeapCall) (old size newSize new : U64), c.reallocates = some (old, newSize) →
        (run cfg calls).heap.heapSizes old = some size → ((run cfg calls).call c).2 = .ok new → new ≠ 0 →
          Reallocated (run cfg calls) ((run cfg calls).next c) old size new newSize := by
  have hKept := run_kept cfg calls
  exact ⟨hKept.bumped.laid, run_cfg cfg calls, fun c old size newSize new => call_reallocated hKept⟩

def grownCalls : List HeapCall :=
  [.memory [.map true ⟨"heap", 0x200000000, 0x4000000, Perm.RW⟩], .HeapAlloc 3, .memory [.write 0x200000000 [1, 2, 3]],
    .HeapFree 0x123456, .Malloc 0]

theorem heap_laid_grown :
    Reallocated (run .bits64 grownCalls) ((run .bits64 grownCalls).next (.HeapReAlloc 0x200000000 8)) 0x200000000 3
      0x200000020 8 :=
  (heap_laid .bits64 grownCalls).2.2 (.HeapReAlloc 0x200000000 8) 0x200000000 3 8 0x200000020 rfl (by decide)
    (by decide) (by decide)

end HeapSys

end Exemu.Os
