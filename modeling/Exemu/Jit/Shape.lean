import Exemu.Jit.Native

/-! # The shape of compiled code

What every block has in common, whatever was compiled: it reads no host register before it is
defined, every exit retires as many instructions as were begun before it, stores and loads have
one of the four widths, and the link slots are the block's own.
-/
namespace Exemu.Jit

/-- Which host registers, and which words of the spill area, hold a value of the block's own making. -/
structure Known where
  reg : XReg → Bool
  nzcv : Bool
  frame : Nat → Bool

namespace Known

def get (k : Known) (r : XReg) : Bool := r == ZR || k.reg r

def set (k : Known) (r : XReg) (ok : Bool) : Known :=
  { k with reg := fun s => if s = r then ok else k.reg s }

def clobber (k : Known) : Known :=
  { k with reg := fun r => if r ≤ 18 then false else k.reg r, nzcv := false }

def loaded (k : Known) (dst : XReg) : Known := k.clobber.set dst true

def stored (k : Known) (push : Bool) : Known :=
  if push then k.clobber.set R_VAL (k.get R_ADDR) else k.clobber

def ofRegs (regs : List XReg) : Known := ⟨fun r => regs.contains r, false, fun _ => false⟩

def entry : Known := ofRegs [R_FLAGS, R_MASK]

structure Le (k l : Known) : Prop where
  reg : ∀ r, k.reg r = true → l.reg r = true
  nzcv : k.nzcv = true → l.nzcv = true
  frame : ∀ i, k.frame i = true → l.frame i = true

structure Keeps (k l : Known) : Prop where
  reg : ∀ r, ¬ r ≤ 18 → k.reg r = true → l.reg r = true
  frame : ∀ i, k.frame i = true → l.frame i = true

end Known

def Op.srcs : Op → List XReg
  | .movImm .. | .ldrGpr .. | .ldrSeg .. | .ldpFrame .. | .cset .. => []
  | .movReg _ rn | .mvn _ rn | .addImm _ rn _ | .subImm _ rn _ | .cmpZero rn | .andImm _ rn _
  | .eorImm _ rn _ | .lslImm _ rn _ | .lsrImm _ rn _ | .asrImm _ rn _ | .ubfx _ rn _ _
  | .sbfx _ rn _ _ | .strGpr _ rn _ _ | .ldrbParity _ rn => [rn]
  | .addReg _ _ rn rm _ | .subReg _ _ rn rm | .addsReg _ _ rn rm | .subsReg _ _ rn rm
  | .cmpRegAsr rn rm _ | .andReg _ rn rm | .orrReg _ rn rm _ | .eorReg _ rn rm | .bicReg _ rn rm
  | .mul _ rn rm | .smulh _ rn rm | .csel _ rn rm _ | .stpFrame rn rm _ => [rn, rm]

def Op.dst : Op → XReg
  | .movImm rd _ | .movReg rd _ | .mvn rd _ | .addImm rd _ _ | .subImm rd _ _ | .addReg _ rd _ _ _
  | .subReg _ rd _ _ | .addsReg _ rd _ _ | .subsReg _ rd _ _ | .andReg rd _ _ | .orrReg rd _ _ _
  | .eorReg rd _ _ | .bicReg rd _ _ | .andImm rd _ _ | .eorImm rd _ _ | .lslImm rd _ _
  | .lsrImm rd _ _ | .asrImm rd _ _ | .ubfx rd _ _ _ | .sbfx rd _ _ _ | .mul rd _ _ | .smulh rd _ _
  | .csel rd _ _ _ | .cset rd _ | .ldrGpr _ rd _ _ | .ldrSeg rd _ | .ldrbParity rd _ => rd
  | .cmpZero _ | .cmpRegAsr .. | .strGpr .. | .stpFrame .. | .ldpFrame .. => ZR

def Op.readsNzcv : Op → Bool
  | .csel .. | .cset .. => true
  | _ => false

def Op.setsNzcv : Op → Bool
  | .cmpZero _ | .addsReg .. | .subsReg .. | .cmpRegAsr .. => true
  | _ => false

def Op.framed : Op → Bool
  | .stpFrame .. | .ldpFrame .. => true
  | _ => false

def Op.stores : Op → Option XReg
  | .strGpr _ rt _ _ => some rt
  | _ => none

def Op.ok (k : Known) (o : Op) : Bool := o.srcs.all k.get && (!o.readsNzcv || k.nzcv)

def Op.flow (k : Known) : Op → Known
  | .stpFrame rt1 rt2 off =>
    { k with frame := fun i => if i = off + 8 then k.get rt2 else if i = off then k.get rt1 else k.frame i }
  | .ldpFrame rt1 rt2 off => (k.set rt1 (k.frame off)).set rt2 (k.frame (off + 8))
  | o =>
    { reg := fun s => if s = o.dst then o.ok k else k.reg s
      nzcv := if o.setsNzcv then o.ok k else k.nzcv
      frame := k.frame }

/-- A register of the guest is only given a known value, and the mask is never written. -/
def Op.sees (k : Known) : Op → Bool
  | .strGpr _ rt _ _ => k.reg rt
  | .ldpFrame rt1 rt2 _ => rt1 != R_MASK && rt2 != R_MASK
  | o => o.dst != R_MASK

def flowOps (k : Known) (os : List Op) : Known := os.foldl Op.flow k

def seesOps : Known → List Op → Bool
  | _, [] => true
  | k, o :: os => o.sees k && seesOps (o.flow k) os

def fineOps : Known → List Op → Bool
  | _, [] => true
  | k, o :: os =>
    o.ok k && !o.framed && o.stores != some ZR && o.dst != R_MASK && fineOps (o.flow k) os

def Test.sees (k : Known) : Test → Bool
  | .bit rt _ _ => k.reg rt
  | .cbnz rt => k.reg rt

structure ExitCode.Shape (slots : Option Nat) (target : Nat → Option U64) (begun : Nat) (k : Known)
    (e : ExitCode) : Prop where
  pos : 0 < begun
  sees : seesOps k e.ops = true
  rip : (flowOps k e.ops).reg T2 = true
  flags : (flowOps k e.ops).reg R_FLAGS = true
  retired : e.tail.retired + (if e.tail.fault then 1 else 0) = begun
  slot : ∀ s, e.tail.slot = some s → e.tail.fault = false ∧
    ∃ base, slots = some base ∧ base ≤ s ∧ s < base + MAX_LINKS
  direct : ∀ s, e.tail.slot = some s → e.tail.indirect = false →
    ∃ os t, e.ops = os ++ [.movImm T2 t] ∧ target s = some t
  indirect : ∀ s, e.tail.slot = some s → e.tail.indirect = true → target s = none

def begins : List Inst → Nat
  | [] => 0
  | .begin _ :: is => begins is + 1
  | _ :: is => begins is

def Inst.flow (k : Known) : Inst → Known
  | .op o => o.flow k
  | .load dst _ _ => k.loaded dst
  | .store _ _ push _ _ => k.stored push
  | _ => k

def after (k : Known) (is : List Inst) : Known := is.foldl Inst.flow k

/-- Code up to, and without, a block's last exit. `target` is where a direct slot leads. -/
def Body (slots : Option Nat) (target : Nat → Option U64) : Nat → Known → List Inst → Prop
  | _, _, [] => True
  | n, k, .begin _ :: is => Body slots target (n + 1) k is
  | n, k, .op o :: is => o.sees k = true ∧ Body slots target n (o.flow k) is
  | n, k, .load dst size fault :: is =>
    k.reg R_ADDR = true ∧ dst ≠ R_MASK ∧ VirtualMemory.isUintSize size = true ∧
      fault.Shape slots target n k.clobber ∧ fault.tail.fault = true ∧
      Body slots target n (k.loaded dst) is
  | n, k, .store src size push wrote fault :: is =>
    k.reg R_ADDR = true ∧ k.reg src = true ∧ VirtualMemory.isUintSize size = true ∧
      wrote.Shape slots target n (k.stored push) ∧ wrote.tail.fault = false ∧
      fault.Shape slots target n (k.stored push) ∧ fault.tail.fault = true ∧
      Body slots target n (k.stored push) is
  | n, k, .branch t fall :: is =>
    t.sees k = true ∧ fall.Shape slots target n k ∧ fall.tail.fault = false ∧
      Body slots target n k is
  | _, _, .exit _ :: _ => False

def Shaped (slots : Option Nat) (target : Nat → Option U64) (insns : Nat) (code : List Inst) : Prop :=
  ∃ body e, code = body ++ [.exit e] ∧ begins body = insns ∧
    Body slots target 0 Known.entry body ∧
    e.Shape slots target insns (after Known.entry body) ∧ e.tail.fault = false

namespace Known

variable {k l : Known}

theorem get_mono (h : k.Le l) {r : XReg} (hGet : k.get r = true) : l.get r = true := by
  simp only [get, Bool.or_eq_true] at hGet ⊢
  exact hGet.imp_right (h.reg r)

theorem Le.refl (k : Known) : k.Le k := ⟨fun _ h => h, fun h => h, fun _ h => h⟩

theorem Le.trans {m : Known} (hkl : k.Le l) (hlm : l.Le m) : k.Le m where
  reg r h := hlm.reg r (hkl.reg r h)
  nzcv h := hlm.nzcv (hkl.nzcv h)
  frame i h := hlm.frame i (hkl.frame i h)

theorem ofRegs_le (regs : List XReg) (h : ∀ r ∈ regs, k.reg r = true) : (ofRegs regs).Le k where
  reg r hr := h r (List.contains_iff_mem.mp hr)
  nzcv h := by cases h
  frame _ h := by cases h

theorem Keeps.refl (k : Known) : k.Keeps k := ⟨fun _ _ h => h, fun _ h => h⟩

theorem Keeps.trans {m : Known} (hkl : k.Keeps l) (hlm : l.Keeps m) : k.Keeps m where
  reg r hr h := hlm.reg r hr (hkl.reg r hr h)
  frame i h := hlm.frame i (hkl.frame i h)

theorem Le.keeps (h : k.Le l) : k.Keeps l := ⟨fun r _ => h.reg r, h.frame⟩

theorem keeps_clobber (k : Known) : k.Keeps k.clobber where
  reg r hr h := by simpa [clobber, hr] using h
  frame _ h := h

theorem keeps_set (r : XReg) : k.Keeps (k.set r true) where
  reg s _ h := by simp [set, h]
  frame _ h := h

theorem keeps_loaded (k : Known) (dst : XReg) : k.Keeps (k.loaded dst) :=
  (keeps_clobber k).trans (keeps_set dst)

theorem keeps_stored (push : Bool) (hAddr : k.reg R_ADDR = true) : k.Keeps (k.stored push) := by
  cases push with
  | false => exact keeps_clobber k
  | true =>
    simp only [stored, get, hAddr, Bool.or_true, if_true]
    exact (keeps_clobber k).trans (keeps_set R_VAL)

theorem set_mono (h : k.Le l) (r : XReg) {a b : Bool} (hab : a = true → b = true) :
    (k.set r a).Le (l.set r b) where
  reg s hs := by
    simp only [set] at hs ⊢
    split <;> rename_i hEq
    · exact hab (by simpa [hEq] using hs)
    · exact h.reg s (by simpa [hEq] using hs)
  nzcv := h.nzcv
  frame := h.frame

end Known

variable {k l : Known}

theorem Op.ok_mono (h : k.Le l) {o : Op} (hOk : o.ok k = true) : o.ok l = true := by
  simp only [Op.ok, Bool.and_eq_true, List.all_eq_true, Bool.or_eq_true, Bool.not_eq_true'] at hOk ⊢
  exact ⟨fun r hr => Known.get_mono h (hOk.1 r hr), hOk.2.imp_right h.nzcv⟩

theorem Op.flow_mono (h : k.Le l) (o : Op) : (o.flow k).Le (o.flow l) := by
  cases o with
  | stpFrame rt1 rt2 off =>
    refine ⟨h.reg, h.nzcv, fun i hi => ?_⟩
    simp only [Op.flow] at hi ⊢
    split <;> rename_i hFirst
    · exact Known.get_mono h (by simpa [hFirst] using hi)
    · split <;> rename_i hSecond
      · exact Known.get_mono h (by simpa [hFirst, hSecond] using hi)
      · exact h.frame i (by simpa [hFirst, hSecond] using hi)
  | ldpFrame rt1 rt2 off =>
    exact Known.set_mono (Known.set_mono h rt1 (h.frame off)) rt2 (h.frame (off + 8))
  | _ =>
    refine ⟨fun s hs => ?_, fun hn => ?_, h.frame⟩
    · simp only [Op.flow] at hs ⊢
      split <;> rename_i hEq
      · exact Op.ok_mono h (by simpa [hEq] using hs)
      · exact h.reg s (by simpa [hEq] using hs)
    · simp only [Op.flow] at hn ⊢
      split <;> rename_i hSets
      · exact Op.ok_mono h (by simpa [hSets] using hn)
      · exact h.nzcv (by simpa [hSets] using hn)

theorem flowOps_mono (h : k.Le l) (os : List Op) : (flowOps k os).Le (flowOps l os) := by
  induction os generalizing k l with
  | nil => exact h
  | cons o os ih => exact ih (Op.flow_mono h o)

theorem Op.le_flow {o : Op} (hOk : o.ok k = true) (hFrame : o.framed = false) : k.Le (o.flow k) := by
  cases o with
  | stpFrame rt1 rt2 off => cases hFrame
  | ldpFrame rt1 rt2 off => cases hFrame
  | _ =>
    refine ⟨fun s hs => ?_, fun hn => ?_, fun _ h => h⟩
    · simp only [Op.flow]
      split
      · exact hOk
      · exact hs
    · simp only [Op.flow]
      split
      · exact hOk
      · exact hn

theorem Op.sees_of_ok {o : Op} (hOk : o.ok k = true) (hFrame : o.framed = false)
    (hStores : o.stores ≠ some ZR) (hDst : o.dst ≠ R_MASK) : o.sees k = true := by
  cases o with
  | strGpr size rt i byte =>
    have hGet : k.get rt = true := by simpa [Op.ok, Op.srcs, Op.readsNzcv] using hOk
    have hNot : rt ≠ ZR := fun h => hStores (by simp [Op.stores, h])
    simpa [Known.get, hNot, Op.sees] using hGet
  | ldpFrame rt1 rt2 off => cases hFrame
  | _ => simpa [Op.sees] using hDst

section Fine

variable {k l : Known} {os : List Op}

theorem fineOps_mono (h : k.Le l) (hFine : fineOps k os = true) : fineOps l os = true := by
  induction os generalizing k l with
  | nil => rfl
  | cons o os ih =>
    simp only [fineOps, Bool.and_eq_true] at hFine ⊢
    obtain ⟨⟨⟨⟨hOk, hFrame⟩, hStores⟩, hDst⟩, hRest⟩ := hFine
    exact ⟨⟨⟨⟨Op.ok_mono h hOk, hFrame⟩, hStores⟩, hDst⟩, ih (Op.flow_mono h o) hRest⟩

theorem le_flowOps (hFine : fineOps k os = true) : k.Le (flowOps k os) := by
  induction os generalizing k with
  | nil => exact .refl k
  | cons o os ih =>
    simp only [fineOps, Bool.and_eq_true, Bool.not_eq_true'] at hFine
    obtain ⟨⟨⟨⟨hOk, hFrame⟩, -⟩, -⟩, hRest⟩ := hFine
    exact (Op.le_flow hOk hFrame).trans (ih hRest)

theorem seesOps_of_fine (hFine : fineOps k os = true) : seesOps k os = true := by
  induction os generalizing k with
  | nil => rfl
  | cons o os ih =>
    simp only [fineOps, Bool.and_eq_true, Bool.not_eq_true', bne_iff_ne] at hFine
    simp only [seesOps, Bool.and_eq_true]
    obtain ⟨⟨⟨⟨hOk, hFrame⟩, hStores⟩, hDst⟩, hRest⟩ := hFine
    exact ⟨Op.sees_of_ok hOk hFrame hStores hDst, ih hRest⟩

variable {os' : List Op}

theorem seesOps_append : seesOps k (os ++ os') = (seesOps k os && seesOps (flowOps k os) os') := by
  induction os generalizing k with
  | nil => simp [seesOps, flowOps]
  | cons o os ih => simp [seesOps, ih, flowOps, Bool.and_assoc]

theorem flowOps_append : flowOps k (os ++ os') = flowOps (flowOps k os) os' :=
  List.foldl_append

theorem fineOps_append : fineOps k (os ++ os') = (fineOps k os && fineOps (flowOps k os) os') := by
  induction os generalizing k with
  | nil => simp [fineOps, flowOps]
  | cons o os ih => simp [fineOps, ih, flowOps, Bool.and_assoc]

end Fine

section Append

variable {slots : Option Nat} {target : Nat → Option U64}

theorem begins_append (is js : List Inst) : begins (is ++ js) = begins is + begins js := by
  induction is with
  | nil => simp [begins]
  | cons i is ih => cases i <;> simp [begins, ih]; omega

theorem after_append (k : Known) (is js : List Inst) : after k (is ++ js) = after (after k is) js :=
  List.foldl_append

@[simp] theorem begins_ops (os : List Op) : begins (os.map .op) = 0 := by
  induction os with
  | nil => rfl
  | cons o os ih => exact ih

@[simp] theorem after_ops (k : Known) (os : List Op) : after k (os.map .op) = flowOps k os := by
  simp only [after, flowOps, List.foldl_map]
  rfl

theorem body_append {n : Nat} {k : Known} {is js : List Inst} (hFirst : Body slots target n k is)
    (hSecond : Body slots target (n + begins is) (after k is) js) : Body slots target n k (is ++ js) := by
  induction is generalizing n k with
  | nil => exact hSecond
  | cons i is ih =>
    cases i with
    | begin rip => exact ih hFirst (by rwa [Nat.add_right_comm, Nat.add_assoc])
    | op o => exact ⟨hFirst.1, ih hFirst.2 hSecond⟩
    | load dst size fault =>
      obtain ⟨hAddr, hDst, hSize, hFault, hIs, hRest⟩ := hFirst
      exact ⟨hAddr, hDst, hSize, hFault, hIs, ih hRest hSecond⟩
    | store src size push wrote fault =>
      obtain ⟨hAddr, hSrc, hSize, hWrote, hNot, hFault, hIs, hRest⟩ := hFirst
      exact ⟨hAddr, hSrc, hSize, hWrote, hNot, hFault, hIs, ih hRest hSecond⟩
    | branch t fall =>
      obtain ⟨hTest, hFall, hNot, hRest⟩ := hFirst
      exact ⟨hTest, hFall, hNot, ih hRest hSecond⟩
    | exit e => exact hFirst.elim

theorem body_ops {n : Nat} {k : Known} {os : List Op} (hSees : seesOps k os = true) :
    Body slots target n k (os.map .op) := by
  induction os generalizing k with
  | nil => trivial
  | cons o os ih =>
    simp only [seesOps, Bool.and_eq_true] at hSees
    exact ⟨hSees.1, ih hSees.2⟩

end Append

def Pending (f : Flags) (k : Known) : Prop :=
  f ≠ .Live → k.reg R_FA = true ∧ k.reg R_FB = true ∧ k.reg R_FR = true

def Spilt (f : Flags) (k : Known) : Prop :=
  k.frame FSPILL = true ∧ (f ≠ .Live →
    k.frame (FSPILL + 8) = true ∧ k.frame (FSPILL + 16) = true ∧ k.frame (FSPILL + 24) = true)

theorem Pending.keeps {f : Flags} (h : k.Keeps l) (hPend : Pending f k) : Pending f l := by
  intro hLive
  obtain ⟨hA, hB, hR⟩ := hPend hLive
  exact ⟨h.reg _ (by decide) hA, h.reg _ (by decide) hB, h.reg _ (by decide) hR⟩

theorem Spilt.keeps {f : Flags} (h : k.Keeps l) (hSpilt : Spilt f k) : Spilt f l :=
  ⟨h.frame _ hSpilt.1, fun hLive =>
    have hRest := hSpilt.2 hLive
    ⟨h.frame _ hRest.1, h.frame _ hRest.2.1, h.frame _ hRest.2.2⟩⟩

section Flags

variable {k : Known} (hFlags : k.reg R_FLAGS = true) (hMask : k.reg R_MASK = true)

theorem ofRegs_le_of_pending (hFlags : k.reg R_FLAGS = true) (hMask : k.reg R_MASK = true)
    (hA : k.reg R_FA = true) (hB : k.reg R_FB = true) (hR : k.reg R_FR = true) :
    (Known.ofRegs [R_FLAGS, R_MASK, R_FA, R_FB, R_FR]).Le k :=
  Known.ofRegs_le _ (by simp [hFlags, hMask, hA, hB, hR])

theorem fine_emitFlags (hFlags : k.reg R_FLAGS = true) (hMask : k.reg R_MASK = true) {f : Flags}
    (hPend : Pending f k) : fineOps k (emitFlags f) = true := by
  cases f with
  | Live => rfl
  | Logic size =>
    obtain ⟨hA, hB, hR⟩ := hPend nofun
    exact fineOps_mono (ofRegs_le_of_pending hFlags hMask hA hB hR) rfl
  | Arith size sub keepCf =>
    obtain ⟨hA, hB, hR⟩ := hPend nofun
    refine fineOps_mono (ofRegs_le_of_pending hFlags hMask hA hB hR) ?_
    simp only [emitFlags, compareOperands]
    split
    · cases sub <;> cases keepCf <;> rfl
    · split <;> cases sub <;> cases keepCf <;> rfl

end Flags

end Exemu.Jit
