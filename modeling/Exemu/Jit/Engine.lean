import Exemu.Jit.Native

/-! # The engine: block cache, links and dispatcher

The block map, the code page set, the link table and the TLB are functions from their keys.
-/
namespace Exemu.Jit

inductive Run where
  | Executed (insns : Nat)
  | SideExit (insns : Nat)
  | Faulted (insns : Nat)
  | NotCompiled
  deriving DecidableEq, Repr

def Run.insns : Run → Nat
  | .NotCompiled => 0
  | .Executed n => n
  | .SideExit n => n
  | .Faulted n => n

structure CacheLine where
  rip : U64 := 0
  idx : Nat := 0
  gen : U32 := 0
  long : Bool := false
  deriving DecidableEq, Repr

def LINES : Nat := 8192

def linkBlocksFor (capacity : Nat) : Nat := max 64 (min (capacity / 256) (2 ^ 16))

end Exemu.Jit

namespace Exemu
open Jit

structure Jit where
  /-- the code buffer, in words -/
  capacity : Nat
  used : Nat
  blocks : List Block
  map : U64 → Bool → Option Nat
  lines : Nat → CacheLine
  cacheGen : U32
  maxInsns : Nat
  longest : Nat
  links : Nat → LinkSlot
  linkBlocks : Nat
  linkEpoch : U64
  pending : Option Nat
  pendingRip : U64
  pendingLong : Bool
  codePageSet : U64 → Bool
  codePages : Nat → Bool
  tlb : Nat → TlbEntry
  tlbLive : Bool
  tlbGen : U64
  tlbWatch : Bool
  /-- the address of the memory object the TLB was filled from -/
  tlbMem : Nat
  tlbOn : Bool
  debug : Option DebugControl
  debugGen : U64

end Exemu

namespace Exemu.Jit

/-- `capacity` bytes, rounded up to whole host pages. -/
def new (capacity : Nat) : Jit where
  capacity := (max capacity 16384 + 16383) / 16384 * 16384 / 4
  used := 0
  blocks := []
  map := fun _ _ => none
  lines := fun _ => {}
  cacheGen := 1
  maxInsns := MAX_INSNS
  longest := 0
  links := fun _ => {}
  linkBlocks := linkBlocksFor capacity
  linkEpoch := 1
  pending := none
  pendingRip := 0
  pendingLong := false
  codePageSet := fun _ => false
  codePages := fun _ => false
  tlb := fun _ => .EMPTY
  tlbLive := false
  tlbGen := 0
  tlbWatch := false
  tlbMem := 0
  tlbOn := true
  debug := none
  debugGen := 0

def tlbReset (self : Jit) : Jit := { self with tlb := fun _ => .EMPTY, tlbLive := false }

def setTlb (self : Jit) (on : Bool) : Jit := { self with tlbOn := on }.tlbReset

def setMaxInsns (self : Jit) (n : Nat) : Jit := { self with maxInsns := max n 1 }

def unlinkAll (self : Jit) : Jit :=
  let epoch := self.linkEpoch + 1
  if epoch = LINK_EPOCH_DEAD then
    { self with links := fun _ => {}, linkEpoch := 1, pending := none }
  else { self with linkEpoch := epoch, pending := none }

/-- Drop every block. When the line generation comes round to 0, old lines are wiped. -/
def flush (self : Jit) : Jit :=
  let self := { self with used := 0, blocks := [], map := fun _ _ => none, longest := 0 }.unlinkAll
  let self := { self with codePageSet := fun _ => false, codePages := fun _ => false }
  let gen := self.cacheGen + 1
  if gen = 0 then
    { self with lines := fun i => { self.lines i with gen := 0 }, cacheGen := 1 }
  else { self with cacheGen := gen }

def setDebug (self : Jit) (debug : DebugControl) : Jit :=
  let kept := if debug.attached then some debug else none
  { self with debug := kept, debugGen := kept.elim 0 DebugControl.generation }.flush.tlbReset

def invalidate (self : Jit) : Jit := self.flush.tlbReset

def stopBefore (self : Jit) (rip : U64) : U64 :=
  match self.debug with
  | some d => (d.nextBreakAtOrAfter rip).getD (BitVec.allOnes 64)
  | none => BitVec.allOnes 64

def debugGenerationCheck (self : Jit) : Jit :=
  match self.debug with
  | none => self
  | some d =>
    if d.generation = self.debugGen then self else { self with debugGen := d.generation }.flush

def lineOf (rip : U64) (long : Bool) : Nat :=
  (((rip + if long then 1 else 0) * 0x9E3779B97F4A7C15) >>> 51).toNat % LINES

def noteCodePage (self : Jit) (page : U64) : Jit :=
  if self.codePageSet page then self
  else
    { self with
      codePageSet := fun p => p == page || self.codePageSet p
      codePages := fun bit => bit == codePageBit page || self.codePages bit }

def slotsFor (self : Jit) : Option Nat :=
  if self.blocks.length < self.linkBlocks then some (self.blocks.length * MAX_LINKS) else none

/-- `buffer.push`; `none` is a full buffer. -/
def push (self : Jit) (words : Nat) : Option Jit :=
  if words > self.capacity - self.used then none else some { self with used := self.used + words }

/-- The last byte of a block, or its first if it has none: `hi.saturating_sub(1).max(lo)`. -/
def lastByte (start : U64) (bytes : Nat) : U64 :=
  let hi := satAdd start (BitVec.ofNat 64 bytes)
  if hi = 0 then start else if hi - 1 < start then start else hi - 1

/-- `mk`: the block of a plan, with the stamps of its two pages. -/
def mkBlock (mem : VirtualMemory) (mode : Mode) (plan : BlockPlan) (code : Option (List Inst))
    (insns : Nat) : Block :=
  let page0 := codePage plan.start
  let page1 := codePage (lastByte plan.start plan.bytes)
  { code := code
    insns := insns
    page0 := page0
    page1 := page1
    gen0 := mem.codePageGeneration page0
    gen1 := mem.codePageGeneration page1
    globalGen := mem.codeGeneration
    origin := ⟨plan.start, plan.bytes, mode, mem⟩ }

def setLine (self : Jit) (rip : U64) (long : Bool) (idx : Nat) : Jit :=
  let line : CacheLine := ⟨rip, idx, self.cacheGen, long⟩
  { self with lines := fun i => if i = lineOf rip long then line else self.lines i }

def addBlock (self : Jit) (rip : U64) (long : Bool) (block : Block) : Nat × Jit :=
  let idx := self.blocks.length
  let self :=
    if block.code.isSome then
      ({ self with longest := max self.longest block.insns }.noteCodePage block.page0).noteCodePage
        block.page1
    else self
  let self := { self with
    blocks := self.blocks ++ [block]
    map := fun r l => if r = rip ∧ l = long then some idx else self.map r l }
  (idx, self.setLine rip long idx)

/-- Compile the block at `rip` and find room for it, flushing once if there is none.
`none`: the compiler's assertion failed. -/
def build (self : Jit) (rip : U64) (mode : Mode) (mem : VirtualMemory) : Option (Block × Jit) := do
  let stop := self.stopBefore rip
  let plan ← compile mem mode rip self.maxInsns self.slotsFor stop
  if plan.insns = 0 then return (mkBlock mem mode plan none 0, self)
  match self.push plan.words with
  | some self => return (mkBlock mem mode plan (some plan.code) plan.insns, self)
  | none =>
    let self := self.flush
    let again ← compile mem mode rip self.maxInsns self.slotsFor stop
    match self.push again.words with
    | some self => return (mkBlock mem mode plan (some again.code) again.insns, self)
    | none => return (mkBlock mem mode plan none 0, self)

def blockAt (self : Jit) (rip : U64) (mode : Mode) (mem : VirtualMemory) : Option (Nat × Jit) :=
  let long := mode.is64
  let l := self.lines (lineOf rip long)
  if l.gen = self.cacheGen ∧ l.rip = rip ∧ l.long = long then some (l.idx, self)
  else
    match self.map rip long with
    | some idx => some (idx, self.setLine rip long idx)
    | none =>
      match self.build rip mode mem with
      | none => none
      | some (block, self) => some (self.addBlock rip long block)

def validate (self : Jit) (idx : Nat) (mem : VirtualMemory) : Bool × Jit :=
  match self.blocks[idx]? with
  | none => (false, self)
  | some b =>
    let cur := mem.codeGeneration
    if b.globalGen = cur then (true, self)
    else if mem.codePageGeneration b.page0 = b.gen0 ∧ mem.codePageGeneration b.page1 = b.gen1 then
      (true, { self with blocks := self.blocks.set idx { b with globalGen := cur } })
    else (false, self)

/-- What the guest sees of a run, and the engine that carries it. -/
structure Machine where
  jit : Jit
  native : Native
  mem : VirtualMemory
  /-- the address of the memory object -/
  memId : Nat
  /-- the other memory objects, by their addresses -/
  others : Nat → VirtualMemory
  log : List Event

inductive Outcome where
  | ran (r : Run)
  /-- the compiler's assertion failed -/
  | panicked
  /-- compiled code used a dangling host pointer -/
  | undefined
  | outOfFuel
  deriving DecidableEq, Repr

/-- What `run` fixes before its loop. Without `linking` every exit goes through the dispatcher. -/
structure Params where
  mode : Mode
  budget : Nat
  tlbOn : Bool
  debug : Option DebugControl
  watched : Bool
  linking : Bool

namespace Params

def linkLimit (p : Params) (longest : Nat) : Nat := if p.linking then p.budget + 1 - longest else 0

end Params

inductive Turn where
  | done (out : Outcome) (m : Machine)
  | again (retired : Nat) (m : Machine)

def tlbCheck (self : Jit) (mem : VirtualMemory) (memId : Nat) (watching : Bool) : Jit :=
  let layoutGen := mem.layoutGeneration
  if !self.tlbLive || layoutGen != self.tlbGen || watching != self.tlbWatch || memId != self.tlbMem then
    { self.tlbReset with tlbGen := layoutGen, tlbWatch := watching, tlbMem := memId, tlbLive := true }
  else self

def watching (self : Jit) (mem : VirtualMemory) : Bool :=
  mem.watchpointsArmed || self.debug.any DebugControl.anyWatchpoints

/-- The block to run at `rip`: looked up, checked, and rebuilt if the check fails. -/
def dispatch (self : Jit) (rip : U64) (mode : Mode) (mem : VirtualMemory) : Option (Nat × Jit) := do
  let (idx, self) ← self.blockAt rip mode mem
  match self.validate idx mem with
  | (true, self) => return (idx, self)
  | (false, self) => self.flush.blockAt rip mode mem

def fillPending (self : Jit) (rip : U64) (long : Bool) (idx : Nat) : Jit :=
  match self.pending with
  | some slot =>
    if self.pendingLong = long ∧ self.pendingRip = rip then
      let fill : LinkSlot := ⟨self.linkEpoch, rip, idx⟩
      { self with links := fun i => if i = slot then fill else self.links i, pending := none }
    else { self with pending := none }
  | none => self

def blockCtx (self : Jit) (p : Params) (retired : Nat) (mem : VirtualMemory) (log : List Event) :
    BlockCtx where
  codeLo := 0
  codeHi := 0
  watched := p.watched
  retired := retired
  linkLimit := p.linkLimit self.longest
  links := self.links
  linkEpoch := self.linkEpoch
  pending := none
  smc := NO_SMC
  smcHits := 0
  codePages := self.codePages
  live := self.codePageSet
  tlb := self.tlb
  tlbOn := p.tlbOn
  debug := p.debug
  mem := mem
  log := log

/-- A single report whose page holds no code is taken for a collision of the bit table. -/
def settleSmc (self : Jit) (smc : U64) (smcHits : Nat) : Jit :=
  if smcHits = 0 then self
  else if smcHits > 1 ∨ self.codePageSet (codePage smc) then self.unlinkAll
  else self

namespace Machine

def setJit (m : Machine) (jit : Jit) : Machine := { m with jit := jit }

def record (m : Machine) (e : Event) : Machine := { m with log := m.log ++ [e] }

def harvest (m : Machine) (p : Params) (h : Native) (ctx : BlockCtx) : Machine :=
  let jit := { m.jit with
    tlb := ctx.tlb
    pending := ctx.pending
    pendingRip := h.cpu.rip
    pendingLong := p.mode.is64 }
  { m with jit := jit.settleSmc ctx.smc ctx.smcHits, native := h, mem := ctx.mem, log := ctx.log }

def back (m : Machine) (p : Params) : Ret → Turn
  | .undefined ctx => .done .undefined (m.harvest p m.native ctx)
  | .outOfFuel => .done .outOfFuel m
  | .returned fault h ctx =>
    let m := m.harvest p h ctx
    if fault then .done (.ran (.Faulted ctx.retired)) m
    else if ctx.retired ≥ p.budget then .done (.ran (.Executed ctx.retired)) m
    else .again ctx.retired m

/-- The loop body of `run`. -/
def turn (m : Machine) (p : Params) (retired : Nat) : Turn :=
  let jit := m.jit.debugGenerationCheck
  let rip := m.native.cpu.rip
  match jit.dispatch rip p.mode m.mem with
  | none => .done .panicked m
  | some (idx, jit) =>
    match jit.blocks[idx]? with
    | some ⟨some _, insns, _, _, _, _, _, origin⟩ =>
      let jit := jit.fillPending rip p.mode.is64 idx
      let m := (m.setJit jit).record (.dispatched origin m.mem)
      if retired + insns > p.budget then .done (.ran (.SideExit retired)) m
      else m.back p (callBlock jit.blocks idx m.native (jit.blockCtx p retired m.mem m.log))
    | _ =>
      let m := m.setJit { jit with pending := none }
      if retired = 0 then .done (.ran .NotCompiled) m
      else if p.debug.any fun d => d.isBreak rip then .done (.ran (.Executed retired)) m
      else .done (.ran (.SideExit retired)) m

def loop (p : Params) : Nat → Machine → Nat → Outcome × Machine
  | 0, m, _ => (.outOfFuel, m)
  | fuel + 1, m, retired =>
    match m.turn p retired with
    | .done out m => (out, m)
    | .again retired m => loop p fuel m retired

def params (m : Machine) (mode : Mode) (budget : Nat) (linking : Bool) : Params where
  mode := mode
  budget := min budget (2 ^ 32 - 1 - MAX_INSNS)
  tlbOn := m.jit.tlbOn && !m.jit.watching m.mem
  debug := m.jit.debug
  watched := m.jit.debug.any DebugControl.anyWatchpoints
  linking := linking

def runWith (m : Machine) (mode : Mode) (budget : Nat) (linking : Bool) : Outcome × Machine :=
  let p := m.params mode budget linking
  let m := m.setJit (m.jit.tlbCheck m.mem m.memId (m.jit.watching m.mem))
  loop p (p.budget + 1) m 0

/-- `Jit::run`. -/
def run (m : Machine) (mode : Mode) (budget : Nat) : Outcome × Machine := m.runWith mode budget true

end Machine
end Exemu.Jit
