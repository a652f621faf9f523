import Exemu.Jit.Turn
import Exemu.Memory.Generation

/-! # The life of an engine

Between two runs the host may do what it likes with the memory, the debugger and the engine's
switches.
-/
namespace Exemu.Jit

inductive HostOp where
  /-- an operation on the memory made outside the engine -/
  | memory (op : MemoryOp)
  /-- the engine turns to the memory object at another address -/
  | select (id : Nat)
  /-- a new memory object takes the place of the one at hand -/
  | replace (ops : List MemoryOp)
  | watch (debug : DebugControl)
  /-- the debugger's tables change under the engine, or under the memory -/
  | rearm (debug : DebugControl)
  | rearmMemory (debug : DebugControl)
  | setDebug (debug : DebugControl)
  | setTlb (on : Bool)
  | setMaxInsns (n : Nat)
  | invalidate
  | run (native : Native) (mode : Mode) (budget : Nat)

def Native.ofCpu (cpu : CpuState) : Native :=
  { x := fun _ => 0, nzcv := {}, frame := fun _ => 0, cpu := cpu, scratch := fun _ => 0, scratchNzcv := {} }

namespace Machine

def setMem (m : Machine) (mem : VirtualMemory) : Machine := { m with mem := mem }

def setNative (m : Machine) (native : Native) : Machine := { m with native := native }

def select (m : Machine) (id : Nat) : Machine :=
  let others := fun i => if i = m.memId then m.mem else m.others i
  { m with mem := others id, memId := id, others := others }

def apply (m : Machine) : HostOp → Machine
  | .memory op => m.setMem (m.mem.apply op)
  | .select id => m.select id
  | .replace ops => m.setMem (.history .new ops)
  | .watch debug => m.setMem (m.mem.setDebug debug)
  | .rearm debug => m.setJit { m.jit with debug := m.jit.debug.map fun _ => debug }
  | .rearmMemory debug => m.setMem { m.mem with debug := m.mem.debug.map fun _ => debug }
  | .setDebug debug => m.setJit (m.jit.setDebug debug)
  | .setTlb on => m.setJit (m.jit.setTlb on)
  | .setMaxInsns n => m.setJit (m.jit.setMaxInsns n)
  | .invalidate => m.setJit m.jit.invalidate
  | .run native mode budget => ((m.setNative native).run mode budget).2

theorem apply_run (m : Machine) (native : Native) (mode : Mode) (budget : Nat) :
    m.apply (.run native mode budget) = ((m.setNative native).run mode budget).2 := rfl

def history (m : Machine) (ops : List HostOp) : Machine := ops.foldl apply m

def start (capacity : Nat) (native : Native) (mem : VirtualMemory) : Machine :=
  { jit := Jit.new capacity, native := native, mem := mem, memId := 0, others := fun _ => .new, log := [] }

end Machine

section Sane

variable {target : Nat → Option U64} {m : Machine}

variable {jit : Jit} {Q : Origin → Prop}

theorem Sane.tlbCheck (h : Sane target jit) (mem : VirtualMemory) (memId : Nat) (watching : Bool) :
    Sane target (jit.tlbCheck mem memId watching) := by
  unfold Jit.tlbCheck
  dsimp only
  split
  · exact h.tune _ _ _ _ _ _ _ _ _
  · exact h

theorem Sane.tlbReset (h : Sane target jit) : Sane target jit.tlbReset :=
  h.tune _ _ _ _ _ _ _ _ _

theorem Sane.setDebug (h : Sane target jit) (debug : DebugControl) : Sane target (jit.setDebug debug) := by
  unfold Jit.setDebug
  dsimp only
  have hTuned := h.tune jit.maxInsns jit.tlb jit.tlbLive jit.tlbGen jit.tlbWatch jit.tlbMem jit.tlbOn
    (if debug.attached then some debug else none)
    ((if debug.attached then some debug else none).elim 0 DebugControl.generation)
  exact (hTuned.flush target).tlbReset

theorem LinksTo.tlbReset (hQ : LinksTo Q jit) : LinksTo Q jit.tlbReset := hQ

theorem linksTo_setDebug (h : Sane target jit) (debug : DebugControl) : LinksTo Q (jit.setDebug debug) := by
  have hTuned := h.tune jit.maxInsns jit.tlb jit.tlbLive jit.tlbGen jit.tlbWatch jit.tlbMem jit.tlbOn
    (if debug.attached then some debug else none)
    ((if debug.attached then some debug else none).elim 0 DebugControl.generation)
  unfold Jit.setDebug
  exact (linksTo_flush hTuned).tlbReset

theorem linksTo_invalidate (h : Sane target jit) : LinksTo Q jit.invalidate := (linksTo_flush h).tlbReset

theorem LinksTo.tlbCheck (hQ : LinksTo Q jit) (mem : VirtualMemory) (memId : Nat) (watching : Bool) :
    LinksTo Q (jit.tlbCheck mem memId watching) := by
  unfold Jit.tlbCheck
  dsimp only
  split <;> exact hQ

theorem flush_blocks (jit : Jit) : jit.flush.blocks = [] := by rw [Sane.flush_eq]

theorem tlbReset_blocks (jit : Jit) : jit.tlbReset.blocks = jit.blocks := rfl

theorem invalidate_blocks (jit : Jit) : jit.invalidate.blocks = [] := by
  rw [Jit.invalidate, tlbReset_blocks, flush_blocks]

theorem setDebug_blocks (jit : Jit) (debug : DebugControl) : (jit.setDebug debug).blocks = [] := by
  rw [Jit.setDebug, tlbReset_blocks, flush_blocks]

theorem tlbCheck_blocks (jit : Jit) (mem : VirtualMemory) (memId : Nat) (watching : Bool) :
    (jit.tlbCheck mem memId watching).blocks = jit.blocks := by
  unfold Jit.tlbCheck
  dsimp only
  split <;> rfl

theorem run_rule {J : Machine → Prop} (hCheck : ∀ m : Machine, J m →
      J (m.setJit (m.jit.tlbCheck m.mem m.memId (m.jit.watching m.mem))))
    (hTurn : ∀ (p : Params) (m : Machine) (retired : Nat), J m → J (m.turn p retired).machine)
    (h : J m) (mode : Mode) (budget : Nat) : J (m.run mode budget).2 :=
  loop_rule (hTurn _) _ (hCheck m h) 0

theorem Sane.apply (h : ∃ target, Sane target m.jit) (op : HostOp) :
    ∃ target, Sane target (m.apply op).jit := by
  obtain ⟨target, hSane⟩ := h
  cases op with
  | memory op => exact ⟨target, hSane⟩
  | select id => exact ⟨target, hSane⟩
  | replace ops => exact ⟨target, hSane⟩
  | watch debug => exact ⟨target, hSane⟩
  | rearm debug => exact ⟨target, hSane.tune _ _ _ _ _ _ _ _ _⟩
  | rearmMemory debug => exact ⟨target, hSane⟩
  | setDebug debug => exact ⟨target, hSane.setDebug debug⟩
  | setTlb on => exact ⟨target, hSane.tune _ _ _ _ _ _ _ _ _⟩
  | setMaxInsns n => exact ⟨target, hSane.tune _ _ _ _ _ _ _ _ _⟩
  | invalidate => exact ⟨target, (hSane.flush target).tlbReset⟩
  | run native mode budget =>
    refine run_rule (m := m.setNative native) (J := fun m => ∃ target, Sane target m.jit)
      (fun m hm => ?_) (fun p m retired hm => ?_) ⟨target, hSane⟩ mode budget
    · obtain ⟨target, hm⟩ := hm
      exact ⟨target, hm.tlbCheck _ _ _⟩
    · obtain ⟨target, hm⟩ := hm
      exact hm.turn p retired

theorem sane_start (capacity : Nat) (native : Native) (mem : VirtualMemory) :
    ∃ target, Sane target (Machine.start capacity native mem).jit := ⟨fun _ => none, Sane.new _ _⟩

theorem history_rule {J : Machine → Prop} (hStep : ∀ m op, J m → J (m.apply op)) (ops : List HostOp)
    (h : J m) : J (m.history ops) := by
  induction ops generalizing m with
  | nil => exact h
  | cons op ops ih => exact ih (hStep m op h)

end Sane
end Exemu.Jit
