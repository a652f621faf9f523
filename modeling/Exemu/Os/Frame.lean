import Exemu.Memory.Access
import Exemu.Os.Turn
import Mathlib.Tactic.FinCases

/-! # The frame in which a system call keeps its caller -/
namespace Exemu.Os

open VirtualMemory

namespace frame

def offsets : List Nat :=
  (List.finRange 9).map (fun i => 8 * i.val) ++ [RIP.toNat, FLAGS.toNat] ++
    (List.finRange 10).flatMap fun n => [XMM_BASE.toNat + 16 * n.val, XMM_BASE.toNat + 16 * n.val + 8]

def slots (base : U64) : List U64 := offsets.map fun k => base + BitVec.ofNat 64 k

theorem fields_slots (ctx : HostContext) (base : U64) : (ctx.fields base).map (·.1) = slots base := by
  have hLow : ∀ n : Nat, base + XMM_BASE + BitVec.ofNat 64 (16 * n) =
      base + BitVec.ofNat 64 (XMM_BASE.toNat + 16 * n) := by
    simp [BitVec.ofNat_add, BitVec.add_assoc]
  have hHigh : ∀ k : Nat, base + BitVec.ofNat 64 k + 8#64 = base + BitVec.ofNat 64 (k + 8) := by
    simp [BitVec.ofNat_add, BitVec.add_assoc]
  simp [HostContext.fields, slots, offsets, gprSlot, xmmSlot, List.map_flatMap, hLow, hHigh, Function.comp_def]

theorem offsets_apart : offsets.Pairwise fun j k => j + 8 ≤ k ∧ k < SIZE.toNat := by decide

theorem slots_apart (base : U64) :
    (slots base).Pairwise fun a b => a.toNat + 8 ≤ b.toNat ∨ b.toNat + 8 ≤ a.toNat := by
  refine List.Pairwise.map _ ?_ offsets_apart
  rintro j k ⟨hjk, hk⟩
  have hSize : SIZE.toNat = 0x140 := rfl
  have hBase := base.isLt
  simp only [BitVec.toNat_add, BitVec.toNat_ofNat]
  omega

end frame

/-! ## Writing the fields and reading them back -/

section
variable {mem mem' : VirtualMemory} {fields : List Field}

theorem writeFields_cons {addr v : U64} {size : Nat} (h : writeFields mem ((addr, size, v) :: fields) = (mem', .ok ())) :
    ∃ m, mem.writeUint addr size v = .ok m ∧ writeFields m fields = (mem', .ok ()) := by
  unfold writeFields at h
  cases hWrite : mem.writeUint addr size v with
  | error e => simp [hWrite] at h
  | ok m => exact ⟨m, rfl, by simpa [hWrite] using h⟩

theorem writeFields_wellFormed (hWf : WellFormed mem) (h : writeFields mem fields = (mem', .ok ())) :
    WellFormed mem' := by
  induction fields generalizing mem with
  | nil =>
    cases h
    exact hWf
  | cons f fields ih =>
    obtain ⟨m, hWrite, hRest⟩ := writeFields_cons h
    exact ih (hWf.writeUint hWrite) hRest

theorem writeUint_mapped {addr v a : U64} {size : Nat} (h : mem.writeUint addr size v = .ok mem')
    (hMapped : ∃ r ∈ mem.regions, r.region.contains a = true) : ∃ r ∈ mem'.regions, r.region.contains a = true := by
  obtain ⟨i, r, hGet, -, -, hRegions⟩ := writeUint_regions h
  obtain ⟨s, hMem, hContains⟩ := hMapped
  obtain ⟨j, hj⟩ := List.mem_iff_getElem?.mp hMem
  rw [hRegions]
  by_cases hij : i = j
  · subst hij
    obtain rfl := Option.some.inj (hGet.symm.trans hj)
    exact ⟨_, List.mem_of_getElem? (List.getElem?_set_self (List.getElem?_eq_some_iff.mp hGet).1), hContains⟩
  · exact ⟨s, List.mem_of_getElem? (by rw [List.getElem?_set_ne hij]; exact hj), hContains⟩

theorem writeFields_mapped (h : writeFields mem fields = (mem', .ok ())) {a : U64}
    (hMapped : (∃ r ∈ mem.regions, r.region.contains a = true) ∨ a ∈ fields.map (·.1)) :
    ∃ r ∈ mem'.regions, r.region.contains a = true := by
  induction fields generalizing mem with
  | nil =>
    cases h
    simpa using hMapped
  | cons f fields ih =>
    obtain ⟨m, hWrite, hRest⟩ := writeFields_cons h
    refine ih hRest ?_
    rcases hMapped with hMapped | hMem
    · exact .inl (writeUint_mapped hWrite hMapped)
    · rcases List.mem_cons.mp hMem with rfl | hMem
      · obtain ⟨i, r, hGet, hContains, -, -⟩ := writeUint_regions hWrite
        exact .inl (writeUint_mapped hWrite ⟨r, List.mem_of_getElem? hGet, hContains⟩)
      · exact .inr hMem

theorem writeFields_before (hWf : WellFormed mem) (h : writeFields mem fields = (mem', .ok ())) {a w : U64} {k : Nat}
    (hApart : ∀ f ∈ fields, a.toNat + k ≤ f.1.toNat ∨ f.1.toNat + f.2.1 ≤ a.toNat)
    (hRead : mem'.readUint a k = .ok w) : mem.readUint a k = .ok w := by
  induction fields generalizing mem with
  | nil =>
    cases h
    exact hRead
  | cons f fields ih =>
    obtain ⟨m, hWrite, hRest⟩ := writeFields_cons h
    have hNext := ih (hWf.writeUint hWrite) hRest fun g hg => hApart g (List.mem_cons_of_mem _ hg)
    exact readUint_before hWf hWrite (hApart f List.mem_cons_self) hNext

theorem writeFields_reads (hWf : WellFormed mem) (h : writeFields mem fields = (mem', .ok ()))
    (hEight : ∀ f ∈ fields, f.2.1 = 8)
    (hApart : (fields.map (·.1)).Pairwise fun a b => a.toNat + 8 ≤ b.toNat ∨ b.toNat + 8 ≤ a.toNat)
    {f : Field} (hMem : f ∈ fields) {w : U64} (hRead : mem'.readUint f.1 8 = .ok w) : w = f.2.2 := by
  induction fields generalizing mem with
  | nil => cases hMem
  | cons g fields ih =>
    obtain ⟨m, hWrite, hRest⟩ := writeFields_cons h
    obtain ⟨hHead, hTail⟩ := List.pairwise_cons.mp hApart
    rcases List.mem_cons.mp hMem with rfl | hMem
    · have hSize := hEight f List.mem_cons_self
      rw [hSize] at hWrite
      have hHere := writeFields_before (hWf.writeUint hWrite) hRest (k := 8) (fun u hu => by
        rw [hEight u (List.mem_cons_of_mem _ hu)]
        exact hHead u.1 (List.mem_map_of_mem hu)) hRead
      rw [readUint_written hWf hWrite hHere, fromLe_toLe_eight]
    · exact ih (hWf.writeUint hWrite) hRest (fun u hu => hEight u (List.mem_cons_of_mem _ hu)) hTail hMem

end

/-! ## On the way in -/

section
variable {s s₁ : Sys} {granted : U64 → Bool} {saved : SavedContext}

def clearDf (cpu : CpuState) : CpuState := { cpu with rflags := cpu.rflags &&& ~~~flags.DF }

theorem ensureUnixStack_spec (s : Sys) (granted : U64 → Bool) :
    (s.ensureUnixStack granted).2 = (s.ensureUnixStack granted).1.os.unixStackTop ∧
      (s.ensureUnixStack granted).1.cpu = s.cpu ∧
        ((s.ensureUnixStack granted).1.mem = s.mem ∨
          ∃ region bytes, s.mem.insert region bytes = .ok (s.ensureUnixStack granted).1.mem) := by
  unfold Sys.ensureUnixStack
  split
  · exact ⟨rfl, rfl, .inl rfl⟩
  · have hMaps := s.mapAnywhere_maps granted UNIX_STACK_SIZE Perm.RW "unix-stack"
    generalize s.mapAnywhere granted UNIX_STACK_SIZE Perm.RW "unix-stack" = r at hMaps
    cases hMaps with
    | fails next => exact ⟨rfl, rfl, .inl rfl⟩
    | maps next base region bytes mem hBase hSize hLast hInsert => exact ⟨rfl, rfl, .inr ⟨region, bytes, hInsert⟩⟩

/-- Where the context is kept, and that it is in the frame of the memory the handler starts with. -/
structure Kept (s s₁ : Sys) (base : U64) : Prop where
  stored : ∃ mem, writeFields s.mem ((HostContext.capture s.cpu).fields base) = (mem, .ok ()) ∧
    (s₁.mem = mem ∨ ∃ region bytes, mem.insert region bytes = .ok s₁.mem)

structure Entered (s s₁ : Sys) (saved : SavedContext) : Prop where
  cpu : s₁.cpu = if s₁.os.unixStackTop ≠ 0 then (clearDf s.cpu).setRsp s₁.os.unixStackTop else clearDf s.cpu
  kept : saved = .Host (HostContext.capture s.cpu) ∨ ∃ base, saved = .Teb base ∧ Kept s s₁ base

theorem saveContext_spec {s₀ : Sys} (h : s.saveContext = (s₀, .ok saved)) :
    s₀.cpu = s.cpu ∧ (saved = .Host (HostContext.capture s.cpu) ∧ s₀.mem = s.mem ∨
      ∃ base, saved = .Teb base ∧
        writeFields s.mem ((HostContext.capture s.cpu).fields base) = (s₀.mem, .ok ())) := by
  unfold Sys.saveContext Sys.seed at h
  split at h
  · cases h
    exact ⟨rfl, .inl ⟨rfl, rfl⟩⟩
  · rename_i base _
    cases hWrite : writeFields s.mem ((HostContext.capture s.cpu).fields base) with
    | mk mem done =>
      rw [hWrite] at h
      cases done with
      | error e => simp at h
      | ok u =>
        obtain ⟨rfl, ⟨⟩⟩ := Prod.mk.inj h
        exact ⟨rfl, .inr ⟨base, rfl, hWrite⟩⟩

theorem enterSyscall_entered (h : s.enterSyscall granted = (s₁, .ok saved)) : Entered s s₁ saved := by
  unfold Sys.enterSyscall at h
  dsimp only at h
  split at h
  · simp at h
  · rename_i s₀ saved' hSave
    obtain ⟨hSavedCpu, hKept⟩ := saveContext_spec hSave
    obtain ⟨hTop, hCpu, hMem⟩ := ensureUnixStack_spec s₀ granted
    generalize s₀.ensureUnixStack granted = stack at h hTop hCpu hMem
    obtain ⟨s₂, top⟩ := stack
    obtain ⟨rfl, ⟨⟩⟩ := Prod.mk.inj h
    dsimp only at hTop hCpu hMem
    constructor
    · have hClear : s₂.cpu = clearDf s.cpu := hCpu.trans hSavedCpu
      rw [hTop]
      by_cases hZero : s₂.os.unixStackTop = 0
      · simp [hZero, hClear]
      · simp only [ne_eq, hZero, not_false_eq_true, if_true, hClear]
    · rcases hKept with ⟨hHost, -⟩ | ⟨base, hTeb, hWrite⟩
      · exact .inl hHost
      · refine .inr ⟨base, hTeb, ⟨s₀.mem, hWrite, ?_⟩⟩
        split <;> exact hMem

end

/-! ## On the way out -/

section
variable {cpu cpu' : CpuState} {mem : VirtualMemory} {base : U64} {ctx : HostContext}

structure Restored (ctx : HostContext) (cpu : CpuState) : Prop where
  rip : cpu.rip = ctx.rip
  rflags : cpu.rflags = ctx.flags
  gpr : ∀ i, cpu.gpr (frame.gprs i) = ctx.gpr i
  xmm : ∀ n, cpu.xmm (frame.xmms n) = ctx.xmm n

theorem setGprs_gpr (cpu : CpuState) (gpr : Fin 9 → U64) (i : Fin 9) :
    (setGprs cpu gpr).gpr (frame.gprs i) = gpr i := by
  fin_cases i <;> rfl

theorem restoreHost (cpu : CpuState) (mem : VirtualMemory) (ctx : HostContext) :
    ∃ cpu', restoreContext cpu mem (.Host ctx) = (cpu', .ok ()) ∧ Restored ctx cpu' := by
  refine ⟨_, rfl, rfl, rfl, fun i => ?_, fun n => ?_⟩
  · exact setGprs_gpr cpu ctx.gpr i
  · fin_cases n <;> rfl

theorem readGprs_ok {gpr : Fin 9 → U64} (h : ∀ i, mem.readUint (frame.gprSlot base i) 8 = .ok (gpr i)) :
    readGprs mem base = .ok gpr := by
  unfold readGprs
  rw [mapM_ok fun i _ => h i]
  change Except.ok _ = _
  congr
  funext i
  simp [List.getD]

theorem halves_or (v : U128) :
    (v.setWidth 64).setWidth 128 ||| (((v >>> 64).setWidth 64).setWidth 128 <<< 64) = v := by
  apply BitVec.eq_of_getLsbD_eq
  intro i hi
  simp only [BitVec.getLsbD_or, BitVec.getLsbD_setWidth, BitVec.getLsbD_shiftLeft, BitVec.getLsbD_ushiftRight]
  by_cases hLow : i < 64
  · simp [hi, hLow]
  · simp [hi, hLow, show i - 64 < 64 by omega, show 64 + (i - 64) = i by omega, show i - 64 < 128 by omega]

theorem readXmm_ok {n : Fin 10} {v : U128} (hLow : mem.readUint (frame.xmmSlot base n) 8 = .ok (v.setWidth 64))
    (hHigh : mem.readUint (frame.xmmSlot base n + 8) 8 = .ok ((v >>> 64).setWidth 64)) :
    readXmm mem base n = .ok v := by
  unfold readXmm
  rw [hLow, hHigh]
  exact congrArg Except.ok (halves_or v)

theorem restoreXmms_ok {v : Fin 10 → U128} {ns : List (Fin 10)} (h : ∀ n ∈ ns, readXmm mem base n = .ok (v n)) :
    restoreXmms mem base ns cpu =
      (ns.foldl (fun cpu n => setXmmKeepUpper cpu (frame.xmms n) (v n)) cpu, .ok ()) := by
  induction ns generalizing cpu with
  | nil => rfl
  | cons n ns ih =>
    unfold restoreXmms
    rw [h n List.mem_cons_self]
    exact ih fun m hm => h m (List.mem_cons_of_mem _ hm)

theorem restoreContext_teb (h : ∀ f ∈ ctx.fields base, mem.readUint f.1 8 = .ok f.2.2) :
    restoreContext cpu mem (.Teb base) = restoreContext cpu mem (.Host ctx) := by
  have hGpr : ∀ i, mem.readUint (frame.gprSlot base i) 8 = .ok (ctx.gpr i) := by
    intro i
    refine h (frame.gprSlot base i, 8, ctx.gpr i) ?_
    simp only [HostContext.fields, List.mem_append, List.mem_map]
    exact .inl (.inl ⟨i, List.mem_finRange i, rfl⟩)
  have hXmm : ∀ n ∈ List.finRange 10, readXmm mem base n = .ok (ctx.xmm n) := by
    intro n _
    refine readXmm_ok (h (frame.xmmSlot base n, 8, (ctx.xmm n).setWidth 64) ?_)
      (h (frame.xmmSlot base n + 8, 8, (ctx.xmm n >>> 64).setWidth 64) ?_)
    all_goals
      simp only [HostContext.fields, List.mem_append, List.mem_flatMap]
      exact .inr ⟨n, List.mem_finRange n, by simp⟩
  have hRip := h (base + frame.RIP, 8, ctx.rip) (by simp [HostContext.fields])
  have hFlags := h (base + frame.FLAGS, 8, ctx.flags) (by simp [HostContext.fields])
  unfold restoreContext
  simp only [readGprs_ok hGpr, hRip, hFlags, restoreXmms_ok hXmm]

end

/-! ## A call that returns -/

section
variable {s s₁ s' : Sys} {granted : U64 → Bool} {handler : Handler} {saved : SavedContext} {status : Nat} {base : U64}

theorem Kept.reads (hWf : WellFormed s.mem) (hKept : Kept s s₁ base) {f : Field}
    (hMem : f ∈ (HostContext.capture s.cpu).fields base) {w : U64} (hRead : s₁.mem.readUint f.1 8 = .ok w) :
    w = f.2.2 := by
  obtain ⟨mem, hWrite, hNow⟩ := hKept.stored
  have hEight : ∀ f ∈ (HostContext.capture s.cpu).fields base, f.2.1 = 8 := by
    simp only [HostContext.fields, List.mem_append, List.mem_map, List.mem_flatMap, List.mem_cons, List.not_mem_nil,
      or_false]
    rintro f ((⟨i, -, rfl⟩ | rfl | rfl) | ⟨n, -, rfl | rfl⟩) <;> rfl
  have hThen : mem.readUint f.1 8 = .ok w := by
    rcases hNow with hSame | ⟨region, bytes, hInsert⟩
    · rwa [hSame] at hRead
    · exact readUint_before_insert (writeFields_wellFormed hWf hWrite) hInsert
        (writeFields_mapped hWrite (.inr (List.mem_map_of_mem hMem))) hRead
  refine writeFields_reads hWf hWrite hEight ?_ hMem hThen
  rw [frame.fields_slots]
  exact frame.slots_apart base

structure Returns (before after : CpuState) : Prop where
  rip : after.rip = before.gpr Reg.Rcx
  rflags : after.rflags = before.gpr Reg.R11
  gpr : ∀ i, after.gpr (frame.gprs i) = before.gpr (frame.gprs i)
  xmm : ∀ n, after.xmm (frame.xmms n) = before.xmm (frame.xmms n)

/-- The handler leaves the frame of its caller, if there is one, readable and as it found it. -/
def SparesFrame (s₁ s' : Sys) : SavedContext → Prop
  | .Host _ => True
  | .Teb base => ∀ a ∈ frame.slots base, ∃ w, s₁.mem.readUint a 8 = .ok w ∧ s'.mem.readUint a 8 = .ok w

theorem dispatch_returns (hWf : WellFormed s.mem) (hEnter : s.enterSyscall granted = (s₁, .ok saved))
    (hHandler : handler s₁ = (s', .ok status)) (hReturns : s'.os.syscallResumeAsIs = false)
    (hStays : s'.os.pendingSyscallExit = none) (hFrame : SparesFrame s₁ s' saved) :
    ∃ r, s.dispatchSyscall granted handler = (r, .ok .Continue) ∧ Returns s.cpu r.cpu ∧
      r.cpu.gpr Reg.Rax = s'.os.syscallResult64.getD (BitVec.ofNat 64 (status % 2 ^ 32)) := by
  have hRestore : ∃ cpu', restoreContext s'.cpu s'.mem saved = (cpu', .ok ()) ∧
      Restored (HostContext.capture s.cpu) cpu' := by
    rcases (enterSyscall_entered hEnter).kept with rfl | ⟨base, rfl, hKept⟩
    · exact restoreHost s'.cpu s'.mem _
    · rw [restoreContext_teb fun f hMem => ?_]
      · exact restoreHost s'.cpu s'.mem _
      · obtain ⟨w, hRead, hRead'⟩ := hFrame f.1 (frame.fields_slots _ base ▸ List.mem_map_of_mem hMem)
        rw [hRead', hKept.reads hWf hMem hRead]
  obtain ⟨cpu', hRestored, hContext⟩ := hRestore
  refine ⟨{ s' with
      os := { s'.os with syscallResult64 := none }
      cpu := cpu'.setReg Reg.Rax (s'.os.syscallResult64.getD (BitVec.ofNat 64 (status % 2 ^ 32))) }, ?_, ?_, ?_⟩
  · unfold Sys.dispatchSyscall
    rw [hEnter]
    dsimp only
    rw [hHandler]
    simp [Sys.leaveSyscall, hStays, hReturns, hRestored]
  · refine ⟨hContext.rip, hContext.rflags, fun i => ?_, hContext.xmm⟩
    have hOther : frame.gprs i ≠ Reg.Rax := by fin_cases i <;> decide
    exact (Function.update_of_ne hOther _ _).trans (hContext.gpr i)
  · simp [CpuState.setReg]

end

/-! ## A call that fails -/

section
variable {s s₁ s' : Sys} {granted : U64 → Bool} {handler : Handler} {saved : SavedContext}

def EXC_FRAME_BYTES : U64 := 0x5C0

/-- Where `deliver_hw_exception` builds its frame, if there is room. -/
def excFrame (cpu : CpuState) : Option U64 :=
  if cpu.rsp < EXC_FRAME_BYTES then none else some ((cpu.rsp - EXC_FRAME_BYTES) &&& ~~~(0xF : U64))

/-- RIP, the vector registers and the general ones that a call keeps, but RSP. -/
structure SameRest (cpu cpu' : CpuState) : Prop where
  rip : cpu'.rip = cpu.rip
  gpr : ∀ i, frame.gprs i ≠ Reg.Rsp → cpu'.gpr (frame.gprs i) = cpu.gpr (frame.gprs i)
  xmm : ∀ n, cpu'.xmm (frame.xmms n) = cpu.xmm (frame.xmms n)

/-- A failing handler leaves the caller where it was, for the exception to be built on its stack. -/
def FailsInPlace (s : Sys) (granted : U64 → Bool) (handler : Handler) : Prop :=
  ∀ s₁ saved s' e, s.enterSyscall granted = (s₁, .ok saved) → handler s₁ = (s', .error e) →
    ∃ r, s.dispatchSyscall granted handler = (r, .error e) ∧ r.cpu.rsp = s.cpu.rsp ∧ SameRest s.cpu r.cpu ∧
      excFrame r.cpu = excFrame s.cpu

/-- A failing handler gives the registers back, and there is no other stack it runs on unless it has
put the guest's back. -/
def GivesBack (s : Sys) (granted : U64 → Bool) (handler : Handler) : Prop :=
  ∀ s₁ saved s' e, s.enterSyscall granted = (s₁, .ok saved) → handler s₁ = (s', .error e) →
    SameRest s₁.cpu s'.cpu ∧
      (s'.cpu.rsp = s₁.cpu.rsp ∧ (s₁.os.unixStackTop = 0 ∨ s₁.os.unixStackTop = s.cpu.rsp) ∨
        s'.cpu.rsp ≠ s₁.cpu.rsp ∧ s'.cpu.rsp = s.cpu.rsp)

theorem Entered.rsp (h : Entered s s₁ saved) :
    s₁.cpu.rsp = s.cpu.rsp ↔ s₁.os.unixStackTop = 0 ∨ s₁.os.unixStackTop = s.cpu.rsp := by
  have hSet : ((clearDf s.cpu).setRsp s₁.os.unixStackTop).rsp = s₁.os.unixStackTop := by
    simp [CpuState.rsp, CpuState.setRsp, CpuState.setReg]
  rw [h.cpu]
  by_cases hZero : s₁.os.unixStackTop = 0
  · simp only [ne_eq, hZero, not_true_eq_false, if_false, true_or, iff_true]
    rfl
  · simp only [ne_eq, hZero, not_false_eq_true, if_true, hSet, false_or]

theorem Entered.rest (h : Entered s s₁ saved) : SameRest s.cpu s₁.cpu := by
  rw [h.cpu]
  split
  · exact ⟨rfl, fun i hi => Function.update_of_ne hi _ _, fun n => rfl⟩
  · exact ⟨rfl, fun i hi => rfl, fun n => rfl⟩

theorem SameRest.trans {a b c : CpuState} (h : SameRest a b) (h' : SameRest b c) : SameRest a c :=
  ⟨h'.rip.trans h.rip, fun i hi => (h'.gpr i hi).trans (h.gpr i hi), fun n => (h'.xmm n).trans (h.xmm n)⟩

theorem SameRest.symm {a b : CpuState} (h : SameRest a b) : SameRest b a :=
  ⟨h.rip.symm, fun i hi => (h.gpr i hi).symm, fun n => (h.xmm n).symm⟩

theorem dispatch_fails {e : EmuError} (hEnter : s.enterSyscall granted = (s₁, .ok saved))
    (hHandler : handler s₁ = (s', .error e)) : s.dispatchSyscall granted handler = (s', .error e) := by
  unfold Sys.dispatchSyscall
  rw [hEnter]
  dsimp only
  rw [hHandler]

/-- `NtCreateEvent` with nothing mapped where the handle is to be stored. -/
def createsNowhere : Handler := fun s =>
  Sys.writeBack [(0, 8, 0x1000)] (Sys.ntHandler (fun _ => true) (.createEvent none false false) s)

def failsWith (s : Sys) (granted : U64 → Bool) (handler : Handler) (check : Sys → Bool) : Bool :=
  match s.enterSyscall granted with
  | (s₁, .ok _) =>
    match handler s₁ with
    | (s', .error _) => check s'
    | _ => false
  | _ => false

theorem failsWith_spec {check : Sys → Bool} (h : failsWith s granted handler check = true) :
    ∃ s₁ saved s' e, s.enterSyscall granted = (s₁, .ok saved) ∧ handler s₁ = (s', .error e) ∧ check s' = true := by
  unfold failsWith at h
  split at h
  · rename_i s₁ saved hEnter
    split at h
    · rename_i s' e hHandler
      exact ⟨s₁, saved, s', e, hEnter, hHandler, h⟩
    · cases h
  · cases h

end

end Exemu.Os
