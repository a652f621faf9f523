import Exemu.Os.Sync
import Exemu.Os.Vm

/-! # Creating a thread and freeing what it owns -/
namespace Exemu.Os

abbrev Field := U64 × Nat × U64

def writeFields (mem : VirtualMemory) : List Field → VirtualMemory × Result Unit
  | [] => (mem, .ok ())
  | (addr, size, v) :: fields =>
    match mem.writeUint addr size v with
    | .ok mem => writeFields mem fields
    | .error e => (mem, .error e)

def PROCESS_ID : U64 := 0x1000
def STATIC_UNICODE_MAX_BYTES : U64 := 261 * 2

def seedTeb64 (cfg : WinConfig) (tebBase : U64) (tid : Nat) (peb stackTop stackBase : U64) : List Field :=
  let id := BitVec.ofNat 64 tid
  let lenMaxlen := STATIC_UNICODE_MAX_BYTES <<< 16
  if cfg.is64bit then
    let actx := tebBase + 0x1900
    [(tebBase, 8, BitVec.allOnes 64), (tebBase + 0x008, 8, stackTop), (tebBase + 0x010, 8, stackBase),
      (tebBase + 0x030, 8, tebBase), (tebBase + 0x040, 8, PROCESS_ID), (tebBase + 0x048, 8, id),
      (tebBase + 0x058, 8, 0), (tebBase + 0x060, 8, peb), (tebBase + 0x1258, 8, lenMaxlen),
      (tebBase + 0x1258 + 8, 8, tebBase + 0x1268), (tebBase + 0x6C8, 8, 0),
      (tebBase + 0x1478, 8, stackBase), (tebBase + 0x1780, 8, 0), (tebBase + 0x2c8, 8, actx),
      (tebBase + 0x1900 + 0x08, 8, actx + 0x08), (tebBase + 0x1900 + 0x10, 8, actx + 0x08)]
  else
    [(tebBase, 4, 0xFFFFFFFF), (tebBase + 0x004, 4, stackTop), (tebBase + 0x008, 4, stackBase),
      (tebBase + 0x018, 4, tebBase), (tebBase + 0x020, 4, PROCESS_ID), (tebBase + 0x024, 4, id),
      (tebBase + 0x02C, 4, 0), (tebBase + 0x030, 4, peb), (tebBase + 0x0AC, 4, lenMaxlen),
      (tebBase + 0x0AC + 4, 4, tebBase + 0x0B4), (tebBase + 0x38C, 4, 0),
      (tebBase + 0x0E0C, 4, stackBase), (tebBase + 0x0F94, 4, 0)]

def seedTeb32 (teb32 peb32 stackBase stackTop : U64) : List Field :=
  let actx := teb32 + 0x1800
  [(teb32, 4, 0xFFFFFFFF), (teb32 + 0x04, 4, stackTop), (teb32 + 0x08, 4, stackBase),
    (teb32 + 0x18, 4, teb32), (teb32 + 0x30, 4, peb32), (teb32 + 0x1a8, 4, actx),
    (actx + 0x04, 4, actx + 0x04), (actx + 0x08, 4, actx + 0x04)]

def teb32Linkable (teb64 teb32 : U64) : Bool :=
  let delta := (teb32 - teb64).toInt
  decide (teb32 ≤ 0xFFFFFFFF) && decide (-(2 ^ 31) ≤ delta) && decide (delta < 2 ^ 31)

def linkTeb32 (teb64 teb32 : U64) : List Field :=
  [(teb64 + 0x180c, 4, teb32 - teb64), (teb32 + 0x18, 4, teb32)]

def initCpuArea (tebBase area eip esp eax ebx : U64) : List Field :=
  let ctx := area + 4
  [(tebBase + 0x1488, 8, area), (area, 4, 0), (ctx + 0xb8, 4, eip), (ctx + 0xc4, 4, esp),
    (ctx + 0xb0, 4, eax), (ctx + 0xa4, 4, ebx), (ctx + 0xc0, 4, 0x202), (ctx + 0xbc, 4, 0x23),
    (ctx + 0xc8, 4, 0x2b)]

namespace Sys

/-- `mem.write_*(..)?` over the fields. -/
def seed (s : Sys) (fields : List Field) : Sys × Result Unit :=
  let (mem, done) := writeFields s.mem fields
  ({ s with mem := mem }, done)

def newThreadTeb (s : Sys) (granted : U64 → Bool) (tid : Nat) (stackBase stackTop : U64) :
    Sys × Option U64 :=
  match s.mapAnywhere granted THREAD_TEB_SIZE Perm.RW "thread-teb" with
  | (s, none) => (s, none)
  | (s, some tebBase) =>
    match s.seed (seedTeb64 s.os.cfg tebBase tid s.os.cfg.pebAddr stackTop stackBase) with
    | (s, .ok ()) => (s, some tebBase)
    | (s, .error _) => (s, none)

/-- The first state of a thread, the slots its stack needs for it, and its pending entry. -/
def initialState (os : WinOs) (tebBase stackTop entry param : U64) :
    CpuState × List Field × Option (U64 × U64) :=
  let st : CpuState := { gsBase := tebBase, fsBase := tebBase }
  let top := (stackTop - 0x100) &&& ~~~(0xf : U64)
  if os.cfg.is64bit then
    let sp := top - 8
    if os.hasTls then
      ({ st with rip := os.threadTlsThunk }.setRsp sp, [(sp, 8, os.threadEntryThunk)], some (entry, param))
    else
      (({ st with rip := entry }.setReg Reg.Rcx param).setRsp sp, [(sp, 8, os.threadExitThunk)], none)
  else if os.hasTls then
    let sp := top - 4
    ({ st with rip := os.threadTlsThunk }.setRsp sp, [(sp, 4, os.threadEntryThunk)], some (entry, param))
  else
    let sp := top - 8
    ({ st with rip := entry }.setRsp sp, [(top - 4, 4, param), (sp, 4, os.threadExitThunk)], none)

def enlist (s : Sys) (suspended : Bool) (t : Nat → Thread) : Sys × Nat :=
  let (handle, os) := s.os.allocKhandle
  let os := os.setObject handle (.Thread false)
  let t : Thread :=
    { t handle with
      handle := handle
      state := if suspended then .Suspended else .Ready
      suspendCount := suspended.toNat }
  ({ s with os := { os with threads := os.threads ++ [t] } }, handle)

def spawnThread (s : Sys) (granted : U64 → Bool) (reqStack entry param : U64) (suspended : Bool) :
    Sys × Result (Option (Nat × Nat)) :=
  let stackSize := alignUp (maxU64 reqStack THREAD_STACK_SIZE) PAGE
  match s.mapAnywhere granted stackSize Perm.RWX "thread-stack" with
  | (s, none) => (s.setLastError 8, .ok none)
  | (s, some stackBase) =>
    let stackTop := stackBase + stackSize
    let tid := s.os.nextTid
    let s : Sys := { s with os := { s.os with nextTid := tid + 1 } }
    match s.newThreadTeb granted tid stackBase stackTop with
    | (s, none) => ((s.unmap stackBase stackSize).setLastError 8, .ok none)
    | (s, some tebBase) =>
      let (st, slots, pendingEntry) := initialState s.os tebBase stackTop entry param
      match s.seed slots with
      | (s, .error e) => (s, .error e)
      | (s, .ok ()) =>
        let (s, handle) := s.enlist suspended fun handle =>
          { tid, handle, state := .Ready, saved := st, stackBase, stackSize, tebBase
            tebOwned := tebBase, pendingEntry, mode32 := !s.os.cfg.is64bit }
        (s, .ok (some (handle, tid)))

def seedWow64 (s : Sys) (w : Wow64Threading) (tid : Nat) (stack32 stack32Top stack64 block : U64)
    (entry param : U64) : Sys × Result Unit :=
  let teb32 := block + THREAD_TEB_SIZE
  let area := block + WOW64_THREAD_CPU_AREA
  match s.seed (seedTeb64 s.os.cfg block tid s.os.cfg.pebAddr (stack64 + THREAD_STACK_SIZE) stack64 ++
      seedTeb32 teb32 s.os.wow64Peb32 stack32 stack32Top) with
  | (s, .error e) => (s, .error e)
  | (s, .ok ()) =>
    if teb32Linkable block teb32 then
      s.seed (linkTeb32 block teb32 ++
        initCpuArea block area w.rtlUserThreadStart32 ((stack32Top - 0x100) &&& ~~~(0xf : U64)) entry param)
    else (s, .error (.os "WoW64 TEB32 out of reach"))

def spawnWow64Thread (s : Sys) (granted : U64 → Bool) (reqStack entry param : U64) (suspended : Bool) :
    Sys × Result (Option (Nat × Nat)) :=
  match s.os.wow64Threading with
  | none => (s, .ok none)
  | some w =>
    let stack32Size := alignUp (maxU64 reqStack THREAD_STACK_SIZE) PAGE
    match s.mapAnywhereLow granted stack32Size Perm.RW "wow64-thread-stack32" with
    | (s, none) => (s.setLastError 8, .ok none)
    | (s, some stack32) =>
      match s.mapAnywhere granted THREAD_STACK_SIZE Perm.RWX "wow64-thread-stack64" with
      | (s, none) => ((s.unmap stack32 stack32Size).setLastError 8, .ok none)
      | (s, some stack64) =>
        match s.mapAnywhereLow granted WOW64_THREAD_BLOCK Perm.RW "wow64-thread-teb" with
        | (s, none) =>
          (((s.unmap stack32 stack32Size).unmap stack64 THREAD_STACK_SIZE).setLastError 8, .ok none)
        | (s, some block) =>
          let tid := s.os.nextTid
          let s : Sys := { s with os := { s.os with nextTid := tid + 1 } }
          match s.seedWow64 w tid stack32 (stack32 + stack32Size) stack64 block entry param with
          | (s, .error e) => (s, .error e)
          | (s, .ok ()) =>
            let sp := ((stack64 + THREAD_STACK_SIZE - 0x100) &&& ~~~(0xf : U64)) - 8
            let st : CpuState :=
              { gsBase := block, fsBase := block + THREAD_TEB_SIZE, rip := w.ldrpInitialize }
            let (s, handle) := s.enlist suspended fun handle =>
              { tid, handle, state := .Ready, saved := (st.setRsp sp).setReg Reg.Rcx 0
                stackBase := stack64, stackSize := THREAD_STACK_SIZE, tebBase := block
                wow64Block := block, wow64Stack32 := (stack32, stack32Size) }
            (s, .ok (some (handle, tid)))

def ownedRanges (t : Thread) : List (U64 × U64) :=
  [(t.stackBase, t.stackSize), (t.tebOwned, THREAD_TEB_SIZE), (t.wow64Block, WOW64_THREAD_BLOCK),
    t.wow64Stack32].filter fun r => r.1 != 0

def freeThreadStack (s : Sys) (i : Nat) : Sys :=
  match s.os.threads[i]? with
  | none => s
  | some t => (ownedRanges t).foldl (fun s r => s.unmap r.1 r.2) s

def endThread (s : Sys) (i : Nat) (code : U32) : Sys :=
  let os := s.os.modThread i fun t => { t with state := .Terminated, exitCode := code }
  let handle := (os.threads[i]?.map (·.handle)).getD 0
  { s with os := os.markExited handle }.freeThreadStack i

def leaveTo (s : Sys) (code : U32) : Sys × Outcome :=
  match s.os.pickNext with
  | some next => (s.activate next, .Resume)
  | none => (s, .Exit code.toInt)

def exitThread (s : Sys) (code : U32) : Sys × Outcome :=
  (s.endThread s.os.current code).leaveTo code

def threadStartReturned (s : Sys) : Sys × Outcome := s.exitThread (s.cpu.gprRead 0 4 |>.setWidth 32)

def terminateThread (s : Sys) (h : Nat) (code : U32) : Sys × Outcome :=
  match s.os.threadByHandle h with
  | none => (s, .Return 0)
  | some i =>
    let cur := s.os.current
    let s := s.endThread i code
    if i = cur then s.leaveTo code else (s, .Return 1)

def ntTerminateThread (s : Sys) (h : Nat) (code : U32) : Sys × Result Nat :=
  match s.os.ntThreadIndex h with
  | none => (s, .ok STATUS_INVALID_HANDLE)
  | some i =>
    let cur := s.os.current
    let s := s.endThread i code
    if i = cur then
      let s : Sys := { s with os := { s.os with syscallResumeAsIs := true } }
      match s.os.pickNext with
      | some next => (s.activate next, .ok STATUS_SUCCESS)
      | none => (s, .ok code.toNat)
    else (s, .ok STATUS_SUCCESS)

end Sys

namespace WinOs

def suspendAt (os : WinOs) (i : Nat) : WinOs :=
  os.modThread i fun t =>
    let t : Thread := { t with suspendCount := (t.suspendCount + 1) % 2 ^ 32 }
    if i ≠ os.current ∧ t.state ≠ .Terminated then { t with state := .Suspended } else t

def resumeAt (os : WinOs) (i : Nat) : WinOs :=
  os.modThread i fun t =>
    if 0 < t.suspendCount then
      let t : Thread := { t with suspendCount := t.suspendCount - 1 }
      if t.suspendCount = 0 ∧ t.state = .Suspended then { t with state := .Ready } else t
    else t

def suspendCountAt (os : WinOs) (i : Nat) : Nat := (os.threads[i]?.map (·.suspendCount)).getD 0

def resumeThread (os : WinOs) (h : Nat) : WinOs × Nat :=
  match os.threadByHandle h with
  | none => (os, 0xFFFFFFFF)
  | some i => (os.resumeAt i, os.suspendCountAt i)

def suspendThread (os : WinOs) (h : Nat) : WinOs × Nat :=
  match os.threadByHandle h with
  | none => (os, 0xFFFFFFFF)
  | some i => (os.suspendAt i, os.suspendCountAt i)

def ntSuspendThread (os : WinOs) (h : Nat) : WinOs × Nat :=
  match os.ntThreadIndex h with
  | none => (os, STATUS_INVALID_HANDLE)
  | some i => (os.suspendAt i, STATUS_SUCCESS)

def ntResumeThread (os : WinOs) (h : Nat) : WinOs × Nat :=
  match os.resumeChildThread h with
  | some (os, _) => (os, STATUS_SUCCESS)
  | none =>
    match os.ntThreadIndex h with
    | none => (os, STATUS_INVALID_HANDLE)
    | some i => (os.resumeAt i, STATUS_SUCCESS)

end WinOs

end Exemu.Os
