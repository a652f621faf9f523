import Exemu.Memory.Virtual

/-! # What compiled code reaches at run time

The block context handed to native code, the helpers behind its memory accesses, and the inline
TLB in front of them.
-/
namespace Exemu.Jit

def CODE_PAGE_BITS : Nat := 17

def NO_SMC : U64 := BitVec.allOnes 64
def LINK_EPOCH_DEAD : U64 := BitVec.allOnes 64

def codePageBit (addr : U64) : Nat :=
  ((BitVec.ofNat 64 (addr.toNat / CODE_PAGE_SIZE) * 0x9E3779B97F4A7C15) >>> (64 - CODE_PAGE_BITS)).toNat

inductive Status where
  | OK
  | FAULT
  | WROTE_CODE
  deriving DecidableEq, Repr

structure ReadResult where
  value : U64
  status : Status
  deriving DecidableEq, Repr

/-- `code` is the chain entry of a block, named by the block's index. -/
structure LinkSlot where
  epoch : U64 := 0
  key : U64 := 0
  code : Nat := 0
  deriving DecidableEq, Repr

def TLB_SLOTS : Nat := 512
def TLB_PAGE_BITS : Nat := 12
def TLB_SPAN : Nat := 2 ^ TLB_PAGE_BITS
def TLB_EMPTY : U64 := BitVec.allOnes 64

structure HostPtr where
  alloc : Nat
  off : U64
  deriving DecidableEq, Repr

def HostPtr.add (p : HostPtr) (n : U64) : HostPtr := { p with off := p.off + n }

structure TlbEntry where
  readTag : U64
  readBase : HostPtr
  writeTag : U64
  writeBase : HostPtr
  deriving DecidableEq, Repr

def TlbEntry.EMPTY : TlbEntry := ⟨TLB_EMPTY, ⟨0, 0⟩, TLB_EMPTY, ⟨0, 0⟩⟩

inductive Half where
  | READ
  | WRITE
  deriving DecidableEq, Repr

def TlbEntry.tag (e : TlbEntry) : Half → U64
  | .READ => e.readTag
  | .WRITE => e.writeTag

def TlbEntry.base (e : TlbEntry) : Half → HostPtr
  | .READ => e.readBase
  | .WRITE => e.writeBase

def TlbEntry.fill (e : TlbEntry) (half : Half) (tag : U64) (base : HostPtr) : TlbEntry :=
  match half with
  | .READ => { e with readTag := tag, readBase := base }
  | .WRITE => { e with writeTag := tag, writeBase := base }

def tlbTag (addr : U64) : U64 := addr >>> TLB_PAGE_BITS
def tlbSlot (addr : U64) : Nat := (tlbTag addr).toNat % TLB_SLOTS
def tlbPageBase (addr : U64) : U64 := codePage addr

inductive Mode where
  | Protected
  | Long
  deriving DecidableEq, Repr

/-- Where a block comes from: the bytes it was compiled from and the memory that held them. -/
structure Origin where
  start : U64
  bytes : Nat
  mode : Mode
  source : VirtualMemory

/-- What became of a store: made inline, or made by the helper, which reports hits on pages with code. -/
inductive Note where
  | Inline
  | Silent
  | Reported
  deriving DecidableEq, Repr

inductive Event where
  /-- the dispatcher found the block valid, or built it -/
  | dispatched (origin : Origin) (mem : VirtualMemory)
  /-- a block was entered: through a link, or by the dispatcher -/
  | entered (linked : Bool) (origin : Origin) (mem : VirtualMemory)
  /-- the guest instruction at `rip` was begun -/
  | begun (rip : U64)
  /-- an access went through the cached host pointer `ptr` -/
  | inlined (half : Half) (addr : U64) (size : Nat) (ptr : HostPtr) (debug : Option DebugControl)
      (mem : VirtualMemory)
  /-- a store was made; `live` holds the pages with code -/
  | stored (addr : U64) (size : Nat) (mem : VirtualMemory) (live : U64 → Bool) (note : Note)

structure BlockCtx where
  codeLo : U64
  codeHi : U64
  /-- the helpers are `jit_read_watched` and `jit_write_watched` -/
  watched : Bool
  retired : Nat
  linkLimit : Nat
  links : Nat → LinkSlot
  linkEpoch : U64
  pending : Option Nat
  smc : U64
  smcHits : Nat
  codePages : Nat → Bool
  /-- the pages `codePages` was filled from -/
  live : U64 → Bool
  tlb : Nat → TlbEntry
  tlbOn : Bool
  debug : Option DebugControl
  mem : VirtualMemory
  log : List Event

namespace BlockCtx

def record (ctx : BlockCtx) (e : Event) : BlockCtx := { ctx with log := ctx.log ++ [e] }

def tlbHas (ctx : BlockCtx) (addr : U64) (half : Half) : Bool :=
  (ctx.tlb (tlbSlot addr)).tag half == tlbTag addr

/-- The span a half of an entry caches: readable memory, or memory a store reports nothing about. -/
def tlbSpan (ctx : BlockCtx) (half : Half) (page : U64) : Option (Nat × Nat) :=
  match half with
  | .READ => ctx.mem.hostSpan page TLB_SPAN Perm.READ
  | .WRITE => ctx.mem.hostSpanMut page TLB_SPAN Perm.WRITE

/-- `tlb_fill_read` and `tlb_fill_write`. -/
def tlbFill (ctx : BlockCtx) (half : Half) (addr : U64) : BlockCtx :=
  if ctx.tlbHas addr half then ctx
  else
    let page := tlbPageBase addr
    match ctx.tlbSpan half page with
    | none => ctx
    | some (alloc, start) =>
      let base : HostPtr := ⟨alloc, BitVec.ofNat 64 start - page⟩
      let entry := (ctx.tlb (tlbSlot addr)).fill half (tlbTag addr) base
      { ctx with tlb := fun i => if i = tlbSlot addr then entry else ctx.tlb i }

def codePageHit (ctx : BlockCtx) (addr : U64) : Bool := ctx.codePages (codePageBit addr)

end BlockCtx

def jitRead (ctx : BlockCtx) (addr : U64) (size : Nat) : ReadResult × BlockCtx :=
  match ctx.mem.readUint addr size with
  | .ok value => (⟨value, .OK⟩, if ctx.tlbOn then ctx.tlbFill .READ addr else ctx)
  | .error _ => (⟨0, .FAULT⟩, ctx)

/-- A store that leaves its page: the last byte may lie in a page with code of its own. -/
def spansTwoPages (addr : U64) (size : Nat) : Bool :=
  decide (addr.toNat % CODE_PAGE_SIZE + size > CODE_PAGE_SIZE)

namespace BlockCtx

def ownHit (ctx : BlockCtx) (addr : U64) (size : Nat) : Bool :=
  decide (addr < ctx.codeHi) && decide (satAdd addr (BitVec.ofNat 64 size) > ctx.codeLo)

def pageHit (ctx : BlockCtx) (addr : U64) (size : Nat) : Bool :=
  ctx.codePageHit addr ||
    (spansTwoPages addr size && ctx.codePageHit (addr + (BitVec.ofNat 64 size - 1)))

def reportSmc (ctx : BlockCtx) (addr : U64) : BlockCtx :=
  { ctx with
    smc := if ctx.smcHits = 0 then addr else ctx.smc
    smcHits := ctx.smcHits + 1
    linkEpoch := LINK_EPOCH_DEAD }

def landed (ctx : BlockCtx) (mem : VirtualMemory) (addr : U64) (size : Nat) : BlockCtx :=
  let note := if ctx.pageHit addr size then Note.Reported else Note.Silent
  let done := { ctx with mem := mem }.record (.stored addr size ctx.mem ctx.live note)
  let done := if ctx.pageHit addr size then done.reportSmc addr else done
  if ctx.tlbOn then done.tlbFill .WRITE addr else done

end BlockCtx

def jitWrite (ctx : BlockCtx) (addr : U64) (size : Nat) (value : U64) : Status × BlockCtx :=
  match ctx.mem.writeUint addr size value with
  | .error _ => (.FAULT, ctx)
  | .ok mem => (if ctx.ownHit addr size then .WROTE_CODE else .OK, ctx.landed mem addr size)

def watchedBy (ctx : BlockCtx) (addr : U64) (size : Nat) (kind : WatchKind) : Bool :=
  ctx.debug.any fun d => d.isWatched addr (BitVec.ofNat 64 size) kind

def jitReadWatched (ctx : BlockCtx) (addr : U64) (size : Nat) : ReadResult × BlockCtx :=
  if watchedBy ctx addr size .Read then (⟨0, .FAULT⟩, ctx) else jitRead ctx addr size

def jitWriteWatched (ctx : BlockCtx) (addr : U64) (size : Nat) (value : U64) : Status × BlockCtx :=
  if watchedBy ctx addr size .Write then (.FAULT, ctx) else jitWrite ctx addr size value

namespace BlockCtx

/-- The helpers behind `ctx.read` and `ctx.write`. -/
def read (ctx : BlockCtx) (addr : U64) (size : Nat) : ReadResult × BlockCtx :=
  if ctx.watched then jitReadWatched ctx addr size else jitRead ctx addr size

def write (ctx : BlockCtx) (addr : U64) (size : Nat) (value : U64) : Status × BlockCtx :=
  if ctx.watched then jitWriteWatched ctx addr size value else jitWrite ctx addr size value

/-- The emitted probe: the tag found in the slot of the first byte against the page of the last. -/
def tlbProbe (ctx : BlockCtx) (half : Half) (addr : U64) (size : Nat) : Option HostPtr :=
  let last := if size = 1 then addr else addr + BitVec.ofNat 64 (size - 1)
  let entry := ctx.tlb (tlbSlot addr)
  if entry.tag half = last >>> TLB_PAGE_BITS then some ((entry.base half).add addr) else none

end BlockCtx
end Exemu.Jit

namespace Exemu.VirtualMemory

/-- The region behind a host pointer, if `len` bytes from there are inside its allocation. -/
def hostRegion (self : VirtualMemory) (p : Jit.HostPtr) (len : Nat) : Option (Nat × Mapped) :=
  match self.regions.findIdx? fun m => m.host == p.alloc with
  | none => none
  | some i =>
    match self.regions[i]? with
    | some m => if p.off.toNat + len ≤ m.region.size.toNat then some (i, m) else none
    | none => none

/-- A load through a host pointer; `none` is a pointer into nothing. -/
def hostRead (self : VirtualMemory) (p : Jit.HostPtr) (len : Nat) : Option U64 :=
  (self.hostRegion p len).map fun (_, m) => fromLe (slice m.bytes p.off.toNat len)

def hostWrite (self : VirtualMemory) (p : Jit.HostPtr) (len : Nat) (v : U64) : Option VirtualMemory :=
  (self.hostRegion p len).map fun (i, m) =>
    { self with regions := self.regions.set i { m with bytes := splice m.bytes p.off.toNat (toLe len v) } }

end Exemu.VirtualMemory

namespace Exemu.Jit

/-- What an access of compiled code ends in; `Undefined` is a dangling host pointer. -/
inductive Access (α : Type) where
  | Done (result : α) (ctx : BlockCtx)
  | Undefined (ctx : BlockCtx)

namespace BlockCtx

/-- `emit_load`: inline through the TLB, else through the helper. -/
def load (ctx : BlockCtx) (addr : U64) (size : Nat) : Access ReadResult :=
  match ctx.tlbProbe .READ addr size with
  | some p =>
    let ctx := ctx.record (.inlined .READ addr size p ctx.debug ctx.mem)
    match ctx.mem.hostRead p size with
    | some v => .Done ⟨v, .OK⟩ ctx
    | none => .Undefined ctx
  | none => let (r, ctx) := ctx.read addr size; .Done r ctx

/-- `emit_store` and `emit_store_push`. -/
def store (ctx : BlockCtx) (addr : U64) (size : Nat) (value : U64) : Access Status :=
  match ctx.tlbProbe .WRITE addr size with
  | some p =>
    let ctx := ctx.record (.inlined .WRITE addr size p ctx.debug ctx.mem)
    match ctx.mem.hostWrite p size value with
    | some mem => .Done .OK ({ ctx with mem := mem }.record (.stored addr size ctx.mem ctx.live .Inline))
    | none => .Undefined ctx
  | none => let (s, ctx) := ctx.write addr size value; .Done s ctx

end BlockCtx
end Exemu.Jit
