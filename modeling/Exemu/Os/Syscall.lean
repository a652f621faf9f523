import Exemu.Os.Spawn
import Mathlib.Data.Fin.VecNotation

/-! # The system call dispatcher -/
namespace Exemu.Os

def UNIX_STACK_SIZE : U64 := 0x4000
def TEB_REGION_SIZE : U64 := 0x2000

/-- `fn(&mut WinOs, &mut CpuState, &mut dyn Memory) -> Result<u32>`. -/
abbrev Handler := Sys → Sys × Result Nat

namespace frame

def SIZE : U64 := 0x140
def RIP : U64 := 0x48
def FLAGS : U64 := 0x50
def XMM_BASE : U64 := 0x60

def gprs : Fin 9 → Fin 16 :=
  ![Reg.Rbx, Reg.Rbp, Reg.Rsi, Reg.Rdi, Reg.Rsp, Reg.R12, Reg.R13, Reg.R14, Reg.R15]

def xmms (n : Fin 10) : Fin 16 := ⟨6 + n.val, by omega⟩

def gprSlot (base : U64) (i : Fin 9) : U64 := base + BitVec.ofNat 64 (8 * i.val)
def xmmSlot (base : U64) (n : Fin 10) : U64 := base + XMM_BASE + BitVec.ofNat 64 (16 * n.val)

end frame

structure HostContext where
  gpr : Fin 9 → U64
  rip : U64
  flags : U64
  xmm : Fin 10 → U128

namespace HostContext

/-- `SYSCALL` left the return address in RCX and the flags in R11. -/
def capture (cpu : CpuState) : HostContext where
  gpr i := cpu.gpr (frame.gprs i)
  rip := cpu.gpr Reg.Rcx
  flags := cpu.gpr Reg.R11
  xmm n := cpu.xmm (frame.xmms n)

def fields (ctx : HostContext) (base : U64) : List Field :=
  (List.finRange 9).map (fun i => (frame.gprSlot base i, 8, ctx.gpr i)) ++
    [(base + frame.RIP, 8, ctx.rip), (base + frame.FLAGS, 8, ctx.flags)] ++
    (List.finRange 10).flatMap fun n =>
      [(frame.xmmSlot base n, 8, (ctx.xmm n).setWidth 64),
        (frame.xmmSlot base n + 8, 8, (ctx.xmm n >>> 64).setWidth 64)]

end HostContext

def setGprs (cpu : CpuState) (gpr : Fin 9 → U64) : CpuState :=
  (List.finRange 9).foldl (fun cpu i => cpu.setReg (frame.gprs i) (gpr i)) cpu

def setXmmKeepUpper (cpu : CpuState) (n : Fin 16) (v : U128) : CpuState :=
  { cpu with xmm := Function.update cpu.xmm n v }

inductive SavedContext where
  | Teb (base : U64)
  | Host (ctx : HostContext)

namespace Sys

def frameBase (s : Sys) : Option U64 :=
  let teb := s.os.currentThreadTeb
  if teb ≠ 0 then some (teb + TEB_REGION_SIZE - frame.SIZE) else none

def saveContext (s : Sys) : Sys × Result SavedContext :=
  match s.frameBase with
  | none => (s, .ok (.Host (.capture s.cpu)))
  | some base =>
    match s.seed ((HostContext.capture s.cpu).fields base) with
    | (s, .ok ()) => (s, .ok (.Teb base))
    | (s, .error e) => (s, .error e)

end Sys

def readGprs (mem : VirtualMemory) (base : U64) : Result (Fin 9 → U64) := do
  let vs ← (List.finRange 9).mapM fun i => mem.readUint (frame.gprSlot base i) 8
  return fun i => vs.getD i.val 0

def readXmm (mem : VirtualMemory) (base : U64) (n : Fin 10) : Result U128 := do
  let lo ← mem.readUint (frame.xmmSlot base n) 8
  let hi ← mem.readUint (frame.xmmSlot base n + 8) 8
  return lo.setWidth 128 ||| (hi.setWidth 128 <<< 64)

def restoreXmms (mem : VirtualMemory) (base : U64) : List (Fin 10) → CpuState → CpuState × Result Unit
  | [], cpu => (cpu, .ok ())
  | n :: ns, cpu =>
    match readXmm mem base n with
    | .error e => (cpu, .error e)
    | .ok v => restoreXmms mem base ns (setXmmKeepUpper cpu (frame.xmms n) v)

def restoreContext (cpu : CpuState) (mem : VirtualMemory) : SavedContext → CpuState × Result Unit
  | .Host h =>
    let cpu := { setGprs cpu h.gpr with rip := h.rip, rflags := h.flags }
    ((List.finRange 10).foldl (fun cpu n => setXmmKeepUpper cpu (frame.xmms n) (h.xmm n)) cpu, .ok ())
  | .Teb base =>
    match readGprs mem base with
    | .error e => (cpu, .error e)
    | .ok gpr =>
      let cpu := setGprs cpu gpr
      match mem.readUint (base + frame.RIP) 8 with
      | .error e => (cpu, .error e)
      | .ok rip =>
        let cpu := { cpu with rip := rip }
        match mem.readUint (base + frame.FLAGS) 8 with
        | .error e => (cpu, .error e)
        | .ok rflags => restoreXmms mem base (List.finRange 10) { cpu with rflags := rflags }

namespace Sys

def ensureUnixStack (s : Sys) (granted : U64 → Bool) : Sys × U64 :=
  if s.os.unixStackTop ≠ 0 then (s, s.os.unixStackTop)
  else
    match s.mapAnywhere granted UNIX_STACK_SIZE Perm.RW "unix-stack" with
    | (s, none) => (s, s.os.unixStackTop)
    | (s, some base) =>
      let top := (base + UNIX_STACK_SIZE - 0x10) &&& ~~~(0xf : U64)
      ({ s with os := { s.os with unixStackTop := top } }, top)

def enterSyscall (s : Sys) (granted : U64 → Bool) : Sys × Result SavedContext :=
  let os : WinOs :=
    { s.os with
      syscallGuestRsp := s.cpu.rsp
      syscallResumeAsIs := false
      pendingSyscallExit := none
      syscallResult64 := none }
  let cpu := { s.cpu with rflags := s.cpu.rflags &&& ~~~flags.DF }
  match ({ s with os := os, cpu := cpu } : Sys).saveContext with
  | (s, .error e) => (s, .error e)
  | (s, .ok saved) =>
    let (s, unixTop) := s.ensureUnixStack granted
    (if unixTop ≠ 0 then { s with cpu := s.cpu.setRsp unixTop } else s, .ok saved)

/-- What becomes of the caller once the handler has returned `status`. -/
def leaveSyscall (s : Sys) (saved : SavedContext) (status : Nat) : Sys × Result Exit :=
  match s.os.pendingSyscallExit with
  | some code => ({ s with os := { s.os with pendingSyscallExit := none } }, .ok (.ProcessExit code))
  | none =>
    if s.os.syscallResumeAsIs then (s, .ok .Continue)
    else
      match restoreContext s.cpu s.mem saved with
      | (cpu, .error e) => ({ s with cpu := cpu }, .error e)
      | (cpu, .ok ()) =>
        let result := s.os.syscallResult64.getD (BitVec.ofNat 64 (status % 2 ^ 32))
        ({ s with
            os := { s.os with syscallResult64 := none }
            cpu := cpu.setReg Reg.Rax result }, .ok .Continue)

def dispatchSyscall (s : Sys) (granted : U64 → Bool) (handler : Handler) : Sys × Result Exit :=
  match s.enterSyscall granted with
  | (s, .error e) => (s, .error e)
  | (s, .ok saved) =>
    match handler s with
    | (s, .error e) => (s, .error e)
    | (s, .ok status) => s.leaveSyscall saved status

end Sys

end Exemu.Os
