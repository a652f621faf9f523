import Exemu.Os.Alloc
import Exemu.Os.Protect

/-! # Asking about an address

A guest asks what the memory at an address is and goes on behind the answer.
-/
namespace Exemu.Os

open VirtualMemory Protect

def MEM_STATE_COMMIT : U32 := 0x1000
def MEM_STATE_RESERVE : U32 := 0x2000
def MEM_STATE_FREE : U32 := 0x10000
def MEM_PRIVATE : U32 := 0x20000

/-- `MEMORY_BASIC_INFORMATION` -/
structure MemInfo where
  base : U64
  allocBase : U64
  allocProtect : U32
  regionSize : U64
  state : U32
  protect : U32
  mtype : U32
  deriving DecidableEq, Repr

structure Attributes where
  protect : VmAlloc → U32
  mtype : VmAlloc → U32

def MemInfo.stores (is64 : Bool) (i : MemInfo) (buf : U64) : List (U64 × List U8) :=
  if is64 then
    [(buf, toLe 8 i.base), (buf + 0x08, toLe 8 i.allocBase), (buf + 0x10, toLe 4 (i.allocProtect.setWidth 64)), (buf + 0x14, toLe 4 0),
      (buf + 0x18, toLe 8 i.regionSize), (buf + 0x20, toLe 4 (i.state.setWidth 64)), (buf + 0x24, toLe 4 (i.protect.setWidth 64)),
      (buf + 0x28, toLe 4 (i.mtype.setWidth 64)), (buf + 0x2C, toLe 4 0)]
  else
    [(buf, toLe 4 i.base), (buf + 0x04, toLe 4 i.allocBase), (buf + 0x08, toLe 4 (i.allocProtect.setWidth 64)), (buf + 0x0C, toLe 4 i.regionSize),
      (buf + 0x10, toLe 4 (i.state.setWidth 64)), (buf + 0x14, toLe 4 (i.protect.setWidth 64)), (buf + 0x18, toLe 4 (i.mtype.setWidth 64))]

def writeMbi (is64 : Bool) (buf : U64) (i : MemInfo) : List (U64 × List U8) × Nat :=
  if buf = 0 then ([], 0) else (i.stores is64 buf, if is64 then 0x30 else 0x1C)

namespace Sys

variable (s : Sys) (attrs : Attributes) (addr : U64)

def queriedAlloc : Option VmAlloc := s.os.vmAllocs.find? fun a => decide (a.base ≤ addr) && decide (addr < a.base + a.size)

def regionInfo : MemInfo :=
  match s.mem.nextRegion addr with
  | some (rb, rsize, rperm) =>
    if rb ≤ addr then
      ⟨firstPage addr, rb, protectFromPerm rperm, rb + rsize - firstPage addr, MEM_STATE_COMMIT, protectFromPerm rperm, MEM_PRIVATE⟩
    else ⟨firstPage addr, 0, 0, rb - firstPage addr, MEM_STATE_FREE, 0, 0⟩
  | none => ⟨firstPage addr, 0, 0, 0x10000000, MEM_STATE_FREE, 0, 0⟩

def memInfo : MemInfo :=
  match s.queriedAlloc addr with
  | some a =>
    ⟨firstPage addr, a.base, attrs.protect a, a.base + a.size - firstPage addr, if a.committed then MEM_STATE_COMMIT else MEM_STATE_RESERVE,
      if a.committed then attrs.protect a else 0, attrs.mtype a⟩
  | none => s.regionInfo addr

def vmQueryRegion (buf : U64) : List (U64 × List U8) × Nat := writeMbi s.os.cfg.is64bit buf (s.memInfo attrs addr)

def told (v : U64) : U64 := if s.os.cfg.is64bit then v else (v.setWidth 32).setWidth 64

def behind : U64 := s.told ((s.memInfo attrs addr).base + (s.memInfo attrs addr).regionSize)

def walk (start : U64) : Nat → U64
  | 0 => start
  | n + 1 => s.behind attrs (walk start n)

end Sys

/-- What a caller relies on who goes through the address space answer by answer. -/
structure QueryMeets (s : Sys) (attrs : Attributes) : Prop where
  progress : ∀ addr : U64, (s.os.cfg.is64bit = false → addr.toNat < 2 ^ 32) → (firstPage addr).toNat < (s.behind attrs addr).toNat
  apart : ∀ addr a : U64, (firstPage addr).toNat ≤ a.toNat → a.toNat < (firstPage addr).toNat + (s.told (s.memInfo attrs addr).regionSize).toNat →
    (s.memInfo attrs a).state = (s.memInfo attrs addr).state
  ends : ∀ buf : U64, buf ≠ 0 → ∃ n, (s.vmQueryRegion attrs (s.walk attrs 0 n) buf).2 = 0 ∧
    ∀ r ∈ s.mem.layout, ∃! k, k < n ∧ r.1.toNat ≤ (s.walk attrs 0 k).toNat ∧ (s.walk attrs 0 k).toNat < r.endAddr

section Answers

variable {s : Sys} {attrs : Attributes} {addr a : U64}

theorem memInfo_last (s : Sys) (attrs : Attributes) :
    s.memInfo attrs (BitVec.allOnes 64) = ⟨firstPage (BitVec.allOnes 64), 0, 0, 0x10000000, MEM_STATE_FREE, 0, 0⟩ := by
  have hNoAlloc : s.queriedAlloc (BitVec.allOnes 64) = none := by
    refine List.find?_eq_none.mpr fun a _ => ?_
    rw [Bool.and_eq_true, decide_eq_true_eq, decide_eq_true_eq, BitVec.lt_def, BitVec.toNat_allOnes]
    omega
  have hNoRegion : s.mem.nextRegion (BitVec.allOnes 64) = none := by
    refine Option.map_eq_none_iff.mpr (List.find?_eq_none.mpr fun x _ => ?_)
    rw [decide_eq_true_eq, BitVec.toNat_allOnes]
    unfold Region.endAddr
    omega
  rw [Sys.memInfo, hNoAlloc]
  dsimp only
  rw [Sys.regionInfo, hNoRegion]

theorem last_wraps (h64 : s.os.cfg.is64bit = true) : s.behind attrs (BitVec.allOnes 64) = 0xFFFF000 := by
  unfold Sys.behind Sys.told
  rw [memInfo_last, if_pos h64]
  rfl

theorem query_answers {buf : U64} (hBuf : buf ≠ 0) : (s.vmQueryRegion attrs addr buf).2 ≠ 0 := by
  unfold Sys.vmQueryRegion writeMbi
  rw [if_neg hBuf]
  dsimp only
  split <;> exact Nat.noConfusion

end Answers

/-! ## Below the end of the last region -/

/-- In no layout does the way through the address space come to an end. -/
theorem walk_never_ends (s : Sys) (attrs : Attributes) : ¬QueryMeets s attrs := by
  intro h
  obtain ⟨n, hEnd, -⟩ := h.ends 1 (by decide)
  exact query_answers (by decide) hEnd

/-- On the last page of a fresh process base and size add up to an address in front of it. -/
theorem last_page_wraps : Process.boot.Starts ∧ ¬QueryMeets Process.boot.sys ⟨fun _ => 0x40, fun _ => MEM_PRIVATE⟩ := by
  refine ⟨Process.boot_starts, fun h => ?_⟩
  have hProgress := h.progress (BitVec.allOnes 64) (fun hNarrow => absurd hNarrow Bool.noConfusion)
  rw [last_wraps rfl] at hProgress
  exact absurd hProgress (by decide)

end Exemu.Os
