import Mathlib.Algebra.Order.Ring.Nat

/-! # Errors, permissions and regions

The vocabulary every other module speaks: the emulator's error type, the permission bits of a
mapping and the half-open address range a region covers.
-/
namespace Exemu

abbrev U8 := BitVec 8
abbrev U16 := BitVec 16
abbrev U32 := BitVec 32
abbrev U64 := BitVec 64
abbrev U128 := BitVec 128

instance lawfulBEqU8 : LawfulBEq U8 := inferInstance

inductive EmuError where
  | unmapped (addr : U64) (len : Nat)
  | permission (addr : U64) (needed : String)
  | overlap (addr : U64) (len : U64)
  | decode (rip : U64) (opcode : String)
  | unsupported (what : String)
  | os (why : String)
  deriving DecidableEq, Repr

abbrev Result (α : Type) := Except EmuError α

structure Perm where
  bits : U8
  deriving DecidableEq, Repr

namespace Perm

def NONE : Perm := ⟨0⟩
def READ : Perm := ⟨1⟩
def WRITE : Perm := ⟨2⟩
def EXEC : Perm := ⟨4⟩
def RW : Perm := ⟨3⟩
def RX : Perm := ⟨5⟩
def RWX : Perm := ⟨7⟩

def contains (self other : Perm) : Bool := self.bits &&& other.bits == other.bits

end Perm

structure Region where
  name : String
  base : U64
  size : U64
  perm : Perm
  deriving DecidableEq, Repr

namespace Region

/-- `base.saturating_add(size)`, as a natural number. -/
def endAddr (r : Region) : Nat := min (r.base.toNat + r.size.toNat) (2 ^ 64 - 1)

def contains (r : Region) (addr : U64) : Bool :=
  decide (r.base.toNat ≤ addr.toNat) && decide (addr.toNat < r.endAddr)

theorem contains_iff (r : Region) (addr : U64) :
    r.contains addr = true ↔ r.base.toNat ≤ addr.toNat ∧ addr.toNat < r.endAddr := by
  simp [contains]

theorem base_le_endAddr (r : Region) : r.base.toNat ≤ r.endAddr := by
  have hBase := r.base.isLt
  unfold endAddr
  omega

theorem offset_lt_size {r : Region} {addr : U64} (h : r.contains addr = true) :
    addr.toNat - r.base.toNat < r.size.toNat := by
  obtain ⟨hLow, hHigh⟩ := (r.contains_iff addr).mp h
  unfold endAddr at hHigh
  omega

end Region

def CODE_PAGE_SIZE : Nat := 0x1000

/-- `addr & !(CODE_PAGE_SIZE - 1)`, the base of the code page an address lies in. -/
def codePage (addr : U64) : U64 := BitVec.ofNat 64 (addr.toNat / CODE_PAGE_SIZE * CODE_PAGE_SIZE)

/-- `from_le_bytes`, read into a 64-bit word. -/
def fromLe (bs : List U8) : U64 := bs.foldr (fun b acc => (acc <<< 8) ||| b.setWidth 64) 0

/-- `to_le_bytes`, the low `n` bytes of a word. -/
def toLe (n : Nat) (v : U64) : List U8 :=
  (List.range n).map fun i => (v >>> (8 * i)).setWidth 8

@[simp] theorem length_toLe (n : Nat) (v : U64) : (toLe n v).length = n := by simp [toLe]

end Exemu
