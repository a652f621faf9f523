import Exemu.Cpu.Interpreter
import Exemu.Memory.Generation

/-! # Fetching through a buffer

An instruction is decoded from a buffer of sixteen bytes, filled by one fetch.
-/
namespace Exemu.Interp

def IBUF_LEN : Nat := 16

/-- The part of `Ctx` that fetches go through. -/
structure FetchCtx where
  cur : U64
  ibuf : List U8
  ibufBase : U64
  ibufN : Nat

def prefetch (mem : VirtualMemory) (addr : U64) : List U8 × Nat :=
  match mem.fetch addr IBUF_LEN with
  | .ok buf => (buf, IBUF_LEN)
  | .error _ => (List.replicate IBUF_LEN 0, 0)

namespace FetchCtx

def start (mem : VirtualMemory) (rip : U64) : FetchCtx := ⟨rip, (prefetch mem rip).1, rip, (prefetch mem rip).2⟩

def take (self : FetchCtx) (n : Nat) : Option (List U8 × FetchCtx) :=
  let off := (self.cur - self.ibufBase).toNat
  if off < self.ibufN - (n - 1) then some ((self.ibuf.drop off).take n, { self with cur := self.cur + BitVec.ofNat 64 n }) else none

def u8Slow (self : FetchCtx) (mem : VirtualMemory) : Result U8 × FetchCtx :=
  match mem.fetch self.cur 1 with
  | .ok b => (.ok (b.getD 0 0), { self with cur := self.cur + 1 })
  | .error e => (.error e, self)

def u8 (self : FetchCtx) (mem : VirtualMemory) : Result U8 × FetchCtx :=
  match self.take 1 with
  | some (b, self) => (.ok (b.getD 0 0), self)
  | none => self.u8Slow mem

/-- `*x = self.u8(mem)?` for so many bytes. -/
def u8s (mem : VirtualMemory) : Nat → FetchCtx → Result (List U8) × FetchCtx
  | 0, self => (.ok [], self)
  | n + 1, self =>
    match self.u8 mem with
    | (.error e, self) => (.error e, self)
    | (.ok b, self) => ((u8s mem n self).1.map (b :: ·), (u8s mem n self).2)

def bytes (self : FetchCtx) (mem : VirtualMemory) (n : Nat) : Result (List U8) × FetchCtx :=
  match self.take n with
  | some (v, self) => (.ok v, self)
  | none => u8s mem n self

def u16 (self : FetchCtx) (mem : VirtualMemory) : Result U16 × FetchCtx :=
  ((self.bytes mem 2).1.map fun v => (fromLe v).setWidth 16, (self.bytes mem 2).2)

def u32 (self : FetchCtx) (mem : VirtualMemory) : Result U32 × FetchCtx :=
  ((self.bytes mem 4).1.map fun v => (fromLe v).setWidth 32, (self.bytes mem 4).2)

def u64 (self : FetchCtx) (mem : VirtualMemory) : Result U64 × FetchCtx := ((self.bytes mem 8).1.map fromLe, (self.bytes mem 8).2)

end FetchCtx

/-- What a decoder does with the cursor: it fetches, and after the last prefix it takes a byte back. -/
inductive Fetch
  | u8
  | u16
  | u32
  | u64
  | back
  deriving DecidableEq, Repr

namespace Fetch

def perform (mem : VirtualMemory) (self : FetchCtx) : Fetch → Result U64 × FetchCtx
  | .u8 => ((self.u8 mem).1.map (·.setWidth 64), (self.u8 mem).2)
  | .u16 => ((self.u16 mem).1.map (·.setWidth 64), (self.u16 mem).2)
  | .u32 => ((self.u32 mem).1.map (·.setWidth 64), (self.u32 mem).2)
  | .u64 => self.u64 mem
  | .back => (.ok 0, { self with cur := self.cur - 1 })

def performAll (mem : VirtualMemory) : List Fetch → FetchCtx → List U64 × Option EmuError × U64
  | [], self => ([], none, self.cur)
  | f :: fs, self =>
    match f.perform mem self with
    | (.error e, self) => ([], some e, self.cur)
    | (.ok v, self) => (v :: (performAll mem fs self).1, (performAll mem fs self).2)

/-! ## One byte at a time -/

def oneByte (mem : VirtualMemory) (cur : U64) : Result U8 × U64 :=
  match mem.fetch cur 1 with
  | .error e => (.error e, cur)
  | .ok b => (.ok (b.getD 0 0), cur + 1)

def eachByte (mem : VirtualMemory) : Nat → U64 → Result (List U8) × U64
  | 0, cur => (.ok [], cur)
  | n + 1, cur =>
    match oneByte mem cur with
    | (.error e, cur) => (.error e, cur)
    | (.ok b, cur) => ((eachByte mem n cur).1.map (b :: ·), (eachByte mem n cur).2)

def size : Fetch → Nat
  | .u8 => 1
  | .u16 => 2
  | .u32 => 4
  | .u64 => 8
  | .back => 0

def each (mem : VirtualMemory) (cur : U64) : Fetch → Result U64 × U64
  | .back => (.ok 0, cur - 1)
  | f => ((eachByte mem f.size cur).1.map fromLe, (eachByte mem f.size cur).2)

def eachAll (mem : VirtualMemory) : List Fetch → U64 → List U64 × Option EmuError × U64
  | [], cur => ([], none, cur)
  | f :: fs, cur =>
    match f.each mem cur with
    | (.error e, cur) => ([], some e, cur)
    | (.ok v, cur) => (v :: (eachAll mem fs cur).1, (eachAll mem fs cur).2)

end Fetch

/-! ## The buffer -/

namespace FetchCtx

structure Filled (mem : VirtualMemory) (ctx : FetchCtx) : Prop where
  length : ctx.ibufN ≤ ctx.ibuf.length
  byte : ∀ k (h : k < ctx.ibuf.length), k < ctx.ibufN → mem.fetch (ctx.ibufBase + BitVec.ofNat 64 k) 1 = .ok [ctx.ibuf[k]]

variable {mem : VirtualMemory} {self : FetchCtx} {v : List U8} {n : Nat}

theorem Filled.move (h : Filled mem self) (cur : U64) : Filled mem { self with cur := cur } := ⟨h.length, h.byte⟩

theorem Filled.eachByte (h : Filled mem self) : ∀ (n k : Nat), k + n ≤ self.ibufN →
    Fetch.eachByte mem n (self.ibufBase + BitVec.ofNat 64 k) =
      (.ok ((self.ibuf.drop k).take n), self.ibufBase + BitVec.ofNat 64 k + BitVec.ofNat 64 n)
  | 0, k, _ => by
      rw [Fetch.eachByte, List.take_zero]
      exact congrArg (Prod.mk _) (BitVec.add_zero _).symm
  | n + 1, k, hFits => by
      have hLength : k < self.ibuf.length := Nat.lt_of_lt_of_le (by omega) h.length
      have hNext : self.ibufBase + BitVec.ofNat 64 k + 1 = self.ibufBase + BitVec.ofNat 64 (k + 1) := by
        rw [BitVec.add_assoc, BitVec.ofNat_add]
        rfl
      have hEnd : self.ibufBase + BitVec.ofNat 64 (k + 1) + BitVec.ofNat 64 n = self.ibufBase + BitVec.ofNat 64 k + BitVec.ofNat 64 (n + 1) := by
        rw [BitVec.add_assoc, BitVec.add_assoc, ← BitVec.ofNat_add, ← BitVec.ofNat_add]
        exact congrArg (fun j => self.ibufBase + BitVec.ofNat 64 j) (by omega)
      rw [Fetch.eachByte, Fetch.oneByte, h.byte k hLength (by omega)]
      dsimp only
      rw [hNext, h.eachByte n (k + 1) (by omega), hEnd, List.drop_eq_getElem_cons hLength, List.take_succ_cons]
      rfl

theorem Filled.take (h : Filled mem self) {after : FetchCtx} (hPos : 0 < n) (hTake : self.take n = some (v, after)) :
    Fetch.eachByte mem n self.cur = (.ok v, after.cur) ∧ after = { self with cur := after.cur } := by
  unfold FetchCtx.take at hTake
  dsimp only at hTake
  split at hTake
  next hIn =>
    cases hTake
    have hHere : self.ibufBase + BitVec.ofNat 64 (self.cur - self.ibufBase).toNat = self.cur := by
      rw [BitVec.ofNat_toNat, BitVec.setWidth_eq, BitVec.add_comm, BitVec.sub_add_cancel]
    have hEach := h.eachByte n (self.cur - self.ibufBase).toNat (by omega)
    rw [hHere] at hEach
    exact ⟨hEach, rfl⟩
  next => cases hTake

theorem Filled.u8 (h : Filled mem self) :
    self.u8 mem = ((Fetch.oneByte mem self.cur).1, { self with cur := (Fetch.oneByte mem self.cur).2 }) := by
  unfold FetchCtx.u8
  cases hTake : self.take 1 with
  | some p =>
    obtain ⟨b, after⟩ := p
    obtain ⟨hEach, hAfter⟩ := h.take (by decide) hTake
    unfold Fetch.eachByte at hEach
    dsimp only
    split at hEach
    next => cases hEach
    next x cur hOne =>
      rw [hOne]
      cases hEach
      exact congrArg (Prod.mk _) hAfter
  | none =>
    dsimp only
    unfold u8Slow Fetch.oneByte
    cases mem.fetch self.cur 1 with
    | error e => rfl
    | ok b => rfl

theorem Filled.u8s (h : Filled mem self) : ∀ (n : Nat) (cur : U64), FetchCtx.u8s mem n { self with cur := cur } =
      ((Fetch.eachByte mem n cur).1, { self with cur := (Fetch.eachByte mem n cur).2 })
  | 0, _ => rfl
  | n + 1, cur => by
      rw [FetchCtx.u8s, Fetch.eachByte, (h.move cur).u8]
      cases hOne : Fetch.oneByte mem cur with
      | mk r next =>
        cases r with
        | error e => rfl
        | ok b =>
          dsimp only
          rw [h.u8s n next]

theorem Filled.bytes (h : Filled mem self) (hPos : 0 < n) :
    self.bytes mem n = ((Fetch.eachByte mem n self.cur).1, { self with cur := (Fetch.eachByte mem n self.cur).2 }) := by
  unfold FetchCtx.bytes
  cases hTake : self.take n with
  | some p =>
    obtain ⟨hEach, hAfter⟩ := h.take hPos hTake
    rw [hEach, ← hAfter]
  | none => exact h.u8s n self.cur

end FetchCtx

namespace Fetch

variable {mem : VirtualMemory} {self : FetchCtx}

theorem fromLe_narrow {v : List U8} {w : Nat} (h : 8 * v.length ≤ w) : ((fromLe v).setWidth w).setWidth 64 = fromLe v := by
  have hLow : (fromLe v).toNat < 2 ^ w := Nat.lt_of_lt_of_le (fromLe_lt v) (Nat.pow_le_pow_right (by decide) h)
  apply BitVec.eq_of_toNat_eq
  rw [BitVec.toNat_setWidth, BitVec.toNat_setWidth, Nat.mod_eq_of_lt hLow, Nat.mod_eq_of_lt (fromLe v).isLt]

theorem length_eachByte : ∀ {n : Nat} {cur : U64} {v : List U8}, (eachByte mem n cur).1 = .ok v → v.length = n
  | 0, _, _, h => by
      cases h
      rfl
  | n + 1, cur, v, h => by
      unfold eachByte at h
      cases hOne : oneByte mem cur with
      | mk r next =>
        rw [hOne] at h
        cases r with
        | error e => cases h
        | ok b =>
          dsimp only at h
          cases hRest : (eachByte mem n next).1 with
          | error e =>
            rw [hRest] at h
            cases h
          | ok bs =>
            rw [hRest] at h
            cases h
            exact congrArg (· + 1) (length_eachByte hRest)

theorem map_narrow {n : Nat} {w : Nat} (h : 8 * n ≤ w) (cur : U64) :
    ((eachByte mem n cur).1.map fun v => (fromLe v).setWidth w).map (·.setWidth 64) = (eachByte mem n cur).1.map fromLe := by
  cases hEach : (eachByte mem n cur).1 with
  | error e => rfl
  | ok v => exact congrArg Except.ok (fromLe_narrow (by rw [length_eachByte hEach]; exact h))

theorem eachByte_one (cur : U64) :
    (oneByte mem cur).1.map (·.setWidth 64) = (eachByte mem 1 cur).1.map fromLe ∧ (oneByte mem cur).2 = (eachByte mem 1 cur).2 := by
  unfold eachByte
  cases hOne : oneByte mem cur with
  | mk r next =>
    cases r with
    | error e => exact ⟨rfl, rfl⟩
    | ok b =>
      refine ⟨congrArg Except.ok ?_, rfl⟩
      exact (BitVec.zero_or (x := b.setWidth 64)).symm

theorem perform_eq (h : FetchCtx.Filled mem self) (f : Fetch) :
    f.perform mem self = ((f.each mem self.cur).1, { self with cur := (f.each mem self.cur).2 }) := by
  cases f with
  | u8 =>
    obtain ⟨hValue, hCur⟩ := @eachByte_one mem self.cur
    rw [perform, h.u8]
    exact Prod.ext hValue (congrArg (fun cur => { self with cur := cur }) hCur)
  | u16 =>
    rw [perform, FetchCtx.u16, h.bytes (by decide)]
    exact congrArg (fun r => (r, _)) (map_narrow (by decide) self.cur)
  | u32 =>
    rw [perform, FetchCtx.u32, h.bytes (by decide)]
    exact congrArg (fun r => (r, _)) (map_narrow (by decide) self.cur)
  | u64 =>
    rw [perform, FetchCtx.u64, h.bytes (by decide)]
    rfl
  | back => rfl

theorem performAll_eq (h : FetchCtx.Filled mem self) : ∀ (fs : List Fetch) (cur : U64), performAll mem fs { self with cur := cur } = eachAll mem fs cur
  | [], _ => rfl
  | f :: fs, cur => by
      rw [performAll, eachAll, perform_eq (h.move cur)]
      cases hEach : f.each mem cur with
      | mk r next =>
        cases r with
        | error e => rfl
        | ok v =>
          dsimp only
          rw [performAll_eq h fs next]

theorem fetched_of_eachByte : ∀ {n : Nat} {cur : U64} {v : List U8}, (eachByte mem n cur).1 = .ok v →
    (∀ k < n, ∃ b, mem.fetch (cur + BitVec.ofNat 64 k) 1 = .ok b) ∧ (eachByte mem n cur).2 = cur + BitVec.ofNat 64 n
  | 0, cur, _, _ => ⟨fun _ hk => absurd hk (Nat.not_lt_zero _), (BitVec.add_zero cur).symm⟩
  | n + 1, cur, v, h => by
      have hShift : ∀ k, cur + 1 + BitVec.ofNat 64 k = cur + BitVec.ofNat 64 (k + 1) := fun k => by
        rw [BitVec.add_assoc, Nat.add_comm k 1, BitVec.ofNat_add]
        rfl
      unfold eachByte oneByte at h ⊢
      cases hFetch : mem.fetch cur 1 with
      | error e =>
        rw [hFetch] at h
        cases h
      | ok b =>
        rw [hFetch] at h
        dsimp only at h ⊢
        cases hRest : (eachByte mem n (cur + 1)).1 with
        | error e =>
          rw [hRest] at h
          cases h
        | ok bs =>
          obtain ⟨hLater, hCur⟩ := fetched_of_eachByte hRest
          refine ⟨fun k hk => ?_, hCur.trans (hShift n)⟩
          cases k with
          | zero => exact ⟨b, by rw [BitVec.add_zero, hFetch]⟩
          | succ k =>
            rw [← hShift]
            exact hLater k (Nat.lt_of_succ_lt_succ hk)

end Fetch

/-! ## The memory -/

section Memory

variable {mem : VirtualMemory} {rip : U64} {buf : List U8}

theorem fetch_ok (h : mem.fetch rip IBUF_LEN = .ok buf) : ∃ (i : Nat) (r : Mapped), mem.regions[i]? = some r ∧ r.region.contains rip = true ∧
    rip.toNat - r.region.base.toNat + IBUF_LEN ≤ r.region.size.toNat ∧ r.region.perm.contains Perm.EXEC = true ∧
    buf = slice r.bytes (rip.toNat - r.region.base.toNat) IBUF_LEN := by
  unfold VirtualMemory.fetch at h
  rw [if_neg (by decide)] at h
  cases hLocate : mem.locate rip IBUF_LEN Perm.EXEC "execute" with
  | error e =>
    rw [hLocate] at h
    cases h
  | ok p =>
    obtain ⟨i, r, start⟩ := p
    rw [hLocate] at h
    cases h
    obtain ⟨hGet, hContains, rfl, hFits, hPerm⟩ := VirtualMemory.locate_ok hLocate
    exact ⟨i, r, hGet, hContains, hFits, hPerm, rfl⟩

theorem filled_start (hWf : VirtualMemory.WellFormed mem) (h : ∀ buf, mem.fetch rip IBUF_LEN = .ok buf → rip.toNat + IBUF_LEN < 2 ^ 64) :
    FetchCtx.Filled mem (FetchCtx.start mem rip) := by
  cases hFetch : mem.fetch rip IBUF_LEN with
  | error e =>
    have hEmpty : FetchCtx.start mem rip = ⟨rip, List.replicate IBUF_LEN 0, rip, 0⟩ := by rw [FetchCtx.start, prefetch, hFetch]
    rw [hEmpty]
    exact ⟨Nat.zero_le _, fun k _ hk => absurd hk (Nat.not_lt_zero k)⟩
  | ok buf =>
    have hFull : FetchCtx.start mem rip = ⟨rip, buf, rip, IBUF_LEN⟩ := by rw [FetchCtx.start, prefetch, hFetch]
    have hTop := h buf hFetch
    obtain ⟨i, r, hGet, hContains, hFits, hPerm, rfl⟩ := fetch_ok hFetch
    rw [hFull]
    refine ⟨Nat.le_of_eq (length_slice _ _ _).symm, fun k hLength hk => ?_⟩
    unfold IBUF_LEN at *
    dsimp only at hk hLength ⊢
    obtain ⟨hLow, -⟩ := (Region.contains_iff _ _).mp hContains
    have hAt : (rip + BitVec.ofNat 64 k).toNat = rip.toNat + k := by
      rw [BitVec.toNat_add, BitVec.toNat_ofNat, Nat.mod_eq_of_lt (by omega : k < 2 ^ 64), Nat.mod_eq_of_lt (by omega)]
    have hHere : r.region.contains (rip + BitVec.ofNat 64 k) = true := by
      rw [Region.contains_iff, hAt]
      refine ⟨by omega, ?_⟩
      unfold Region.endAddr
      omega
    have hLocate := @VirtualMemory.locate_eq_ok _ hWf.separated _ 1 _ "execute" _ _ hGet hHere (by rw [hAt]; omega) hPerm
    unfold VirtualMemory.fetch
    rw [if_neg (by decide), hLocate]
    refine congrArg Except.ok ?_
    simp only [slice, List.getElem_map, List.getElem_range, List.range_one, List.map_cons, List.map_nil, hAt, Nat.add_zero]
    exact congrArg (fun j => [r.bytes j]) (by omega)

theorem fetch_last (b : List U8) : mem.fetch (BitVec.allOnes 64) 1 ≠ .ok b := by
  intro h
  unfold VirtualMemory.fetch at h
  rw [if_neg (by decide)] at h
  cases hLocate : mem.locate (BitVec.allOnes 64) 1 Perm.EXEC "execute" with
  | error e =>
    rw [hLocate] at h
    cases h
  | ok p =>
    obtain ⟨i, r, start⟩ := p
    obtain ⟨-, hContains, -⟩ := VirtualMemory.locate_ok hLocate
    obtain ⟨-, hHigh⟩ := (Region.contains_iff _ _).mp hContains
    unfold Region.endAddr at hHigh
    rw [BitVec.toNat_allOnes] at hHigh
    omega

theorem words_taken (h : mem.fetch rip IBUF_LEN = .ok buf) : (Fetch.performAll mem [.u64, .u64] (FetchCtx.start mem rip)).2.1 = none := by
  have hFull : FetchCtx.start mem rip = ⟨rip, buf, rip, IBUF_LEN⟩ := by rw [FetchCtx.start, prefetch, h]
  have hFirst : FetchCtx.take ⟨rip, buf, rip, IBUF_LEN⟩ 8 = some ((buf.drop 0).take 8, ⟨rip + 8, buf, rip, IBUF_LEN⟩) := by
    unfold FetchCtx.take
    rw [BitVec.sub_self]
    rfl
  have hSecond : FetchCtx.take ⟨rip + 8, buf, rip, IBUF_LEN⟩ 8 = some ((buf.drop 8).take 8, ⟨rip + 8 + 8, buf, rip, IBUF_LEN⟩) := by
    have hOff : (rip + 8 - rip).toNat = 8 := by
      rw [BitVec.add_comm, BitVec.add_sub_cancel]
      rfl
    unfold FetchCtx.take
    dsimp only
    rw [hOff]
    rfl
  rw [hFull, Fetch.performAll, Fetch.perform, FetchCtx.u64, FetchCtx.bytes, hFirst]
  dsimp only [Except.map]
  rw [Fetch.performAll, Fetch.perform, FetchCtx.u64, FetchCtx.bytes, hSecond]
  rfl

theorem word_fetched {fs : List Fetch} (h : (Fetch.eachAll mem (.u64 :: fs) rip).2.1 = none) :
    (∀ k < 8, ∃ b, mem.fetch (rip + BitVec.ofNat 64 k) 1 = .ok b) ∧ (Fetch.eachAll mem fs (rip + 8)).2.1 = none := by
  unfold Fetch.eachAll Fetch.each Fetch.size at h
  dsimp only at h
  cases hWord : (Fetch.eachByte mem 8 rip).1 with
  | error e =>
    rw [hWord] at h
    cases h
  | ok v =>
    obtain ⟨hBytes, hCur⟩ := Fetch.fetched_of_eachByte hWord
    rw [hWord, hCur] at h
    exact ⟨hBytes, h⟩

theorem words_stop (hTop : 2 ^ 64 ≤ rip.toNat + IBUF_LEN) : (Fetch.eachAll mem [.u64, .u64] rip).2.1 ≠ none := by
  intro hNone
  obtain ⟨hFirst, hRest⟩ := word_fetched hNone
  obtain ⟨hSecond, -⟩ := word_fetched hRest
  have hLow := rip.isLt
  have hBytes : ∀ k < 16, ∃ b, mem.fetch (rip + BitVec.ofNat 64 k) 1 = .ok b := fun k hk => by
    rcases Nat.lt_or_ge k 8 with hk' | hk'
    · exact hFirst k hk'
    · obtain ⟨b, hb⟩ := hSecond (k - 8) (by omega)
      refine ⟨b, ?_⟩
      rw [← hb, show rip + 8 = rip + BitVec.ofNat 64 8 from rfl, BitVec.add_assoc, ← BitVec.ofNat_add, Nat.add_sub_cancel' hk']
  have hk : 2 ^ 64 - 1 - rip.toNat < 16 := by
    unfold IBUF_LEN at hTop
    omega
  obtain ⟨b, hb⟩ := hBytes _ hk
  have hLast : rip + BitVec.ofNat 64 (2 ^ 64 - 1 - rip.toNat) = BitVec.allOnes 64 := by
    apply BitVec.eq_of_toNat_eq
    rw [BitVec.toNat_add, BitVec.toNat_ofNat, BitVec.toNat_allOnes, Nat.mod_eq_of_lt (by omega : 2 ^ 64 - 1 - rip.toNat < 2 ^ 64),
      Nat.mod_eq_of_lt (by omega)]
    omega
  rw [hLast] at hb
  exact fetch_last b hb

end Memory

/-- A decoder sees through its buffer what it would see byte by byte, whatever it fetches, exactly if its buffer
is empty or ends below the last byte of the address space. -/
theorem fetches_meet_iff (ops : List MemoryOp) (rip : U64) :
    (∀ fs, Fetch.performAll (VirtualMemory.new.history ops) fs (FetchCtx.start (VirtualMemory.new.history ops) rip) =
      Fetch.eachAll (VirtualMemory.new.history ops) fs rip) ↔
    ∀ buf, (VirtualMemory.new.history ops).fetch rip IBUF_LEN = .ok buf → rip.toNat + IBUF_LEN < 2 ^ 64 := by
  constructor
  · intro hAll buf hFetch
    by_contra hTop
    have hTaken := words_taken hFetch
    rw [hAll] at hTaken
    exact words_stop (Nat.le_of_not_lt hTop) hTaken
  · intro h fs
    exact Fetch.performAll_eq (filled_start (VirtualMemory.wellFormed_history VirtualMemory.wellFormed_new ops) h) fs rip

def topCode : VirtualMemory := VirtualMemory.new.history [.mapFixed true 0xfffffffffffff000 0x1000 Perm.RX "code"]

/-- The buffer holds the last byte of the address space, a fetch of that byte fails. -/
theorem last_byte_fetched : Fetch.performAll topCode [.u64, .u64] (FetchCtx.start topCode 0xfffffffffffffff0) ≠
    Fetch.eachAll topCode [.u64, .u64] 0xfffffffffffffff0 := by decide

end Exemu.Interp
