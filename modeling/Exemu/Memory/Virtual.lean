import Exemu.Core.Debug
import Mathlib.Data.List.Basic

/-! # The guest's virtual memory

A sorted vector of mapped regions, each with its permissions and its bytes, and three kinds of
counters: the global code generation, one generation per code page, and the layout generation.
-/
namespace Exemu

structure Mapped where
  region : Region
  bytes : Nat → U8
  host : Nat

structure VirtualMemory where
  regions : List Mapped
  codeGen : U64
  pageGen : U64 → U64
  layoutGen : U64
  debug : Option DebugControl
  /-- the next host allocation -/
  nextHost : Nat

/-- Backing store for a region. A length past `isize::MAX` cannot be reserved;
`granted` is the host allocator's answer to any other. -/
def zeroed (granted : Bool) (size : U64) : Result (Nat → U8) :=
  if size.toNat < 2 ^ 63 && granted then .ok fun _ => 0
  else .error (.unsupported "cannot back a region of that many bytes")

theorem zeroed_bytes {granted : Bool} {size : U64} {bytes : Nat → U8} (h : zeroed granted size = .ok bytes) :
    bytes = fun _ => 0 := by
  unfold zeroed at h
  split at h <;> cases h
  rfl

/-- Overwrite `data.len()` bytes from `start`. -/
def splice (bytes : Nat → U8) (start : Nat) (data : List U8) : Nat → U8 := fun i =>
  if start ≤ i ∧ i < start + data.length then data.getD (i - start) 0 else bytes i

def slice (bytes : Nat → U8) (start len : Nat) : List U8 :=
  (List.range len).map fun i => bytes (start + i)

@[simp] theorem length_slice (bytes : Nat → U8) (start len : Nat) :
    (slice bytes start len).length = len := by simp [slice]

def partitionPoint {α : Type} (p : α → Bool) (xs : List α) : Nat := (xs.takeWhile p).length

namespace VirtualMemory

def new : VirtualMemory :=
  { regions := [], codeGen := 0, pageGen := fun _ => 0, layoutGen := 0, debug := none, nextHost := 0 }

def insert (self : VirtualMemory) (region : Region) (bytes : Nat → U8) : Result VirtualMemory :=
  if region.size = 0 then .ok self
  else if self.regions.any fun m =>
      decide (region.base.toNat < m.region.endAddr) && decide (m.region.base.toNat < region.endAddr) then
    .error (.overlap region.base region.size)
  else
    let pos := partitionPoint (fun m => decide (m.region.base < region.base)) self.regions
    .ok { self with
      regions := self.regions.take pos ++ ⟨region, bytes, self.nextHost⟩ :: self.regions.drop pos
      layoutGen := self.layoutGen + 1
      nextHost := self.nextHost + 1 }

def map (self : VirtualMemory) (granted : Bool) (region : Region) : Result VirtualMemory := do
  let bytes ← zeroed granted region.size
  self.insert region bytes

def mapFixed (self : VirtualMemory) (granted : Bool) (base size : U64) (perm : Perm) (name : String) :
    Result VirtualMemory :=
  self.map granted ⟨name, base, size, perm⟩

def mapWithData (self : VirtualMemory) (granted : Bool) (name : String) (base size : U64)
    (data : List U8) (perm : Perm) : Result VirtualMemory := do
  let size := BitVec.ofNat 64 (max size.toNat data.length)
  let bytes ← zeroed granted size
  self.insert ⟨name, base, size, perm⟩ (splice bytes 0 data)

/-- `find_idx_slow`: the last region based at or below the address, if it reaches it. -/
def findIdx (self : VirtualMemory) (addr : U64) : Option Nat :=
  let idx := partitionPoint (fun m => decide (m.region.base ≤ addr)) self.regions
  if idx = 0 then none
  else
    match self.regions[idx - 1]? with
    | some m => if m.region.contains addr then some (idx - 1) else none
    | none => none

/-- `find_idx`, with the content of the address's hint slot as an argument. -/
def findIdxHinted (self : VirtualMemory) (hint : Nat) (addr : U64) : Option Nat :=
  match self.regions[hint]? with
  | some m => if m.region.contains addr then some hint else self.findIdx addr
  | none => self.findIdx addr

/-- Both counters wrap; the page loop is `first..=last` over page numbers. -/
def noteCodeWrite (self : VirtualMemory) (addr : U64) (len : Nat) : VirtualMemory :=
  let first := addr.toNat / CODE_PAGE_SIZE
  let last := (addr + (BitVec.ofNat 64 len - 1)).toNat / CODE_PAGE_SIZE
  { self with
    codeGen := self.codeGen + 1
    pageGen := fun p =>
      if p.toNat % CODE_PAGE_SIZE = 0 ∧ first ≤ p.toNat / CODE_PAGE_SIZE ∧ p.toNat / CODE_PAGE_SIZE ≤ last
      then self.pageGen p + 1 else self.pageGen p }

/-- Replace the bytes of one region and report the write if the region is executable. -/
def store (self : VirtualMemory) (idx : Nat) (m : Mapped) (addr : U64) (start : Nat)
    (data : List U8) : VirtualMemory :=
  let written : VirtualMemory :=
    { self with regions := self.regions.set idx { m with bytes := splice m.bytes start data } }
  if m.region.perm.contains Perm.EXEC then written.noteCodeWrite addr data.length else written

def poke (self : VirtualMemory) (addr : U64) (data : List U8) : Result VirtualMemory :=
  if data.isEmpty then .ok self
  else
    match (self.findIdx addr).bind fun i => self.regions[i]?.map fun m => (i, m) with
    | none => .error (.unmapped addr data.length)
    | some (i, m) =>
      let start := addr.toNat - m.region.base.toNat
      if start + data.length ≤ m.region.size.toNat then .ok (self.store i m addr start data)
      else .error (.unmapped addr data.length)

/-- `locate`, with the region it found alongside its index. -/
def locate (self : VirtualMemory) (addr : U64) (len : Nat) (needed : Perm) (what : String) :
    Result (Nat × Mapped × Nat) :=
  match (self.findIdx addr).bind fun i => self.regions[i]?.map fun m => (i, m) with
  | none => .error (.unmapped addr len)
  | some (i, m) =>
    let start := addr.toNat - m.region.base.toNat
    if start + len ≤ m.region.size.toNat then
      if m.region.perm.contains needed then .ok (i, m, start)
      else .error (.permission addr what)
    else .error (.unmapped addr len)

def read (self : VirtualMemory) (addr : U64) (len : Nat) : Result (List U8) :=
  if len = 0 then .ok []
  else do
    let (_, m, start) ← self.locate addr len Perm.READ "read"
    return slice m.bytes start len

def fetch (self : VirtualMemory) (addr : U64) (len : Nat) : Result (List U8) :=
  if len = 0 then .ok []
  else do
    let (_, m, start) ← self.locate addr len Perm.EXEC "execute"
    return slice m.bytes start len

def write (self : VirtualMemory) (addr : U64) (data : List U8) : Result VirtualMemory :=
  if data.isEmpty then .ok self
  else do
    let (i, m, start) ← self.locate addr data.length Perm.WRITE "write"
    return self.store i m addr start data

def isUintSize (size : Nat) : Bool := size == 1 || size == 2 || size == 4 || size == 8

def readUint (self : VirtualMemory) (addr : U64) (size : Nat) : Result U64 :=
  if isUintSize size then do
    let (_, m, start) ← self.locate addr size Perm.READ "read"
    return fromLe (slice m.bytes start size)
  else .error (.unsupported "memory read of an odd number of bytes")

def writeUint (self : VirtualMemory) (addr : U64) (size : Nat) (v : U64) : Result VirtualMemory :=
  if isUintSize size then do
    let (i, m, start) ← self.locate addr size Perm.WRITE "write"
    return self.store i m addr start (toLe size v)
  else .error (.unsupported "memory write of an odd number of bytes")

/-- Only the region holding `base` is touched, and all of it, whatever `size` says. -/
def protect (self : VirtualMemory) (base size : U64) (perm : Perm) : Result (Perm × VirtualMemory) :=
  match (self.findIdx base).bind fun i => self.regions[i]?.map fun m => (i, m) with
  | none => .error (.unmapped base size.toNat)
  | some (i, m) =>
    .ok (m.region.perm,
      { self with
        regions := self.regions.set i { m with region := { m.region with perm := perm } }
        layoutGen := self.layoutGen + 1 })

def unmap (self : VirtualMemory) (base size : U64) : VirtualMemory :=
  let regions :=
    if size = 0 then self.regions.eraseP fun m => m.region.base == base
    else
      self.regions.filter fun m =>
        !(decide (m.region.base ≥ base) && decide (m.region.endAddr ≤ (satAdd base size).toNat))
  { self with regions := regions, layoutGen := self.layoutGen + 1 }

def nextRegion (self : VirtualMemory) (addr : U64) : Option (U64 × U64 × Perm) :=
  (self.regions.find? fun m => decide (m.region.endAddr > addr.toNat)).map fun m =>
    (m.region.base, m.region.size, m.region.perm)

def setDebug (self : VirtualMemory) (debug : DebugControl) : VirtualMemory :=
  { self with debug := if debug.attached then some debug else none }

def watchpointsArmed (self : VirtualMemory) : Bool :=
  self.debug.any DebugControl.anyWatchpoints

/-- The host pointer of `host_span`: an allocation and an offset into it. -/
def hostSpan (self : VirtualMemory) (addr : U64) (len : Nat) (needed : Perm) : Option (Nat × Nat) :=
  if len = 0 || self.watchpointsArmed then none
  else
    match self.locate addr len needed "read" with
    | .ok (_, m, start) => some (m.host, start)
    | .error _ => none

def hostSpanMut (self : VirtualMemory) (addr : U64) (len : Nat) (needed : Perm) : Option (Nat × Nat) :=
  if len = 0 || self.watchpointsArmed then none
  else
    match self.locate addr len needed "write" with
    | .ok (_, m, start) => if m.region.perm.contains Perm.EXEC then none else some (m.host, start)
    | .error _ => none

def layoutGeneration (self : VirtualMemory) : U64 := self.layoutGen
def codeGeneration (self : VirtualMemory) : U64 := self.codeGen
def codePageGeneration (self : VirtualMemory) (addr : U64) : U64 := self.pageGen (codePage addr)

end VirtualMemory
end Exemu
