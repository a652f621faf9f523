import Exemu.Cpu.Horizontal
import Exemu.Cpu.Sse
import Exemu.Cpu.Xsave

/-! # The source in another place

A packed instruction of two operands does the same wherever its source is: in the destination
register, in another register or in memory.
-/
namespace Exemu.Interp

open Lanes Words Fallible

inductive Escape where
  | Plain
  | X38
  | X3A
  deriving DecidableEq

def execOf (fp : Floats) (mxcsr : U32) (esc : Escape) (ctx : Ctx) (imm op : U8) : SseExec Unit :=
  match esc with
  | .Plain => execSse fp ctx imm op
  | .X38 => execSse0f38 ctx op
  | .X3A => execSse0f3a fp mxcsr ctx imm op

def packedOps : Escape → Sse → List U8
  | .Plain, .Ps => [0x10, 0x14, 0x15, 0x28, 0x51, 0x52, 0x53, 0x54, 0x55, 0x56, 0x57, 0x58, 0x59, 0x5A, 0x5B, 0x5C, 0x5D, 0x5E, 0x5F, 0xC2, 0xC6]
  | .Plain, .Pd => [0x10, 0x14, 0x15, 0x28, 0x51, 0x54, 0x55, 0x56, 0x57, 0x58, 0x59, 0x5A, 0x5B, 0x5C, 0x5D, 0x5E, 0x5F, 0x60, 0x61, 0x62, 0x63, 0x64,
      0x65, 0x66, 0x67, 0x68, 0x69, 0x6A, 0x6B, 0x6C, 0x6D, 0x6F, 0x70, 0x74, 0x75, 0x76, 0xC2, 0xC6, 0xD0, 0xD1, 0xD2, 0xD3, 0xD4, 0xD5, 0xD8, 0xD9, 0xDA,
      0xDB, 0xDC, 0xDD, 0xDE, 0xDF, 0xE0, 0xE1, 0xE2, 0xE3, 0xE4, 0xE5, 0xE6, 0xE8, 0xE9, 0xEA, 0xEB, 0xEC, 0xED, 0xEE, 0xEF, 0xF1, 0xF2, 0xF3, 0xF4, 0xF5,
      0xF6, 0xF8, 0xF9, 0xFA, 0xFB, 0xFC, 0xFD, 0xFE]
  | .Plain, .Ss => [0x12, 0x16, 0x5B, 0x6F, 0x70, 0xE6]
  | .Plain, .Sd => [0x12, 0x70, 0xD0, 0xE6, 0xF0]
  | .X38, _ => [0x00, 0x01, 0x02, 0x03, 0x04, 0x05, 0x06, 0x07, 0x08, 0x09, 0x0A, 0x0B, 0x10, 0x14, 0x15, 0x17, 0x1C, 0x1D, 0x1E, 0x20, 0x21, 0x22, 0x23,
      0x24, 0x25, 0x28, 0x29, 0x2B, 0x30, 0x31, 0x32, 0x33, 0x34, 0x35, 0x37, 0x38, 0x39, 0x3A, 0x3B, 0x3C, 0x3D, 0x3E, 0x3F, 0x40, 0x41]
  | .X3A, _ => [0x08, 0x09, 0x0C, 0x0D, 0x0E, 0x0F, 0x40, 0x41, 0x42, 0x60, 0x61, 0x62, 0x63]

def PMOVX : List U8 := [0x20, 0x21, 0x22, 0x23, 0x24, 0x25, 0x30, 0x31, 0x32, 0x33, 0x34, 0x35]

def HORIZONTAL : List U8 := [0x01, 0x02, 0x03, 0x05, 0x06, 0x07]

def operandWidth (esc : Escape) (kind : Sse) (op : U8) : Nat :=
  match esc with
  | .Plain => if (op = 0x12 ∧ kind = .Sd) ∨ (op = 0x5A ∧ kind = .Ps) ∨ (op = 0xE6 ∧ kind = .Ss) then 8 else 16
  | .X38 => if op ∈ PMOVX then 16 / (pmovxSizes op).2 * (pmovxSizes op).1 else 16
  | .X3A => 16

def operandCtx (esc : Escape) (ctx : Ctx) : Ctx :=
  match esc with
  | .X3A => ctx.pastImm
  | _ => ctx

def Held (ctx : Ctx) (n : Nat) (w : Watched) (v : U128) : Prop :=
  match ctx.rm with
  | .Reg i => xmm w.machine.state i = v
  | .Mem .. => w.machine.mem.read ctx.rmAddr n = .ok ((toLe128 v).take n)

def Same (r r' : Option (Except Stop Unit × Watched)) : Prop := r.map (fun p => (p.1, p.2.machine)) = r'.map fun p => (p.1, p.2.machine)

def phaddSize (op : U8) : Nat := if op = 0x02 ∨ op = 0x06 then 4 else 2

def phaddSub (op : U8) : Bool := decide (op ∈ [0x05, 0x06, 0x07])

def phaddSat (op : U8) : Bool := decide (op = 0x03 ∨ op = 0x07)

def Alike (esc : Escape) (rm : Rm) (op : U8) (v : U128) : Prop :=
  (esc = .X38 → op ∈ HORIZONTAL → Settled (phaddSize op) (phaddSub op) (phaddSat op) v) ∧
    (esc = .Plain → op = 0x12 → isReg rm = false → v >>> 64 = v &&& LOW64)

/-! ## An arm on two operands -/

section Arms

variable {arm : Arm} {ctx : Ctx} {rm : Rm} {w : Watched} {v : U128} {n : Nat} {s : CpuState} {fp : Floats} {imm op : U8}

def Watched.withState (w : Watched) (s : CpuState) : Watched := { w with machine := { w.machine with state := s } }

def Arm.finish (arm : Arm) (w : Watched) (v : U128) : Option (Except Stop Unit × Watched) :=
  match arm.run w.machine.state v with
  | .ok s => some (.ok (), w.withState s)
  | .error e => some (.error (.err e), w)

theorem Arm.rest_eq (arm : Arm) (w : Watched) (v : U128) : (do
    let s ← getState
    match arm.run s v with
    | .ok s' => putState fun _ => s'
    | .error e => refuse e : SseExec Unit) w = arm.finish w v := by
  refine (bind_of_ok (a := w.machine.state) rfl).trans ?_
  unfold Arm.finish
  cases arm.run w.machine.state v <;> rfl

theorem Arm.exec_reg (arm : Arm) (ctx : Ctx) (i : U8) (w : Watched) : arm.exec { ctx with rm := .Reg i } w = arm.finish w (xmm w.machine.state i) := by
  refine (bind_of_ok (a := xmm w.machine.state i) rfl).trans ?_
  exact arm.rest_eq w _

def fetched (rm : Rm) (n : Nat) (v : U128) : U128 := if isReg rm then v else fromLe128 ((toLe128 v).take n)

def Watched.noted (w : Watched) (ctx : Ctx) (n : Nat) : Watched := if isReg ctx.rm then w else { w with reads := w.reads ++ [(ctx.rmAddr, n)] }

theorem loadBytes_ok {addr : U64} {bs : List U8} (hRead : w.machine.mem.read addr n = .ok bs) :
    loadBytes addr n w = some (.ok bs, { w with reads := w.reads ++ [(addr, n)] }) := by
  refine (bind_of_ok (a := ()) rfl).trans ?_
  change (fetchBytes addr n w.machine).map _ = _
  unfold fetchBytes
  rw [step_of_ok (by rw [hRead]; rfl)]
  rfl

theorem loadBytes_fails {addr : U64} {e : EmuError} (hRead : w.machine.mem.read addr n = .error e) :
    loadBytes addr n w = some (.error (.err e), { w with reads := w.reads ++ [(addr, n)] }) := by
  refine (bind_of_ok (a := ()) rfl).trans ?_
  change (fetchBytes addr n w.machine).map _ = _
  unfold fetchBytes
  rw [step_of_error (by rw [hRead]; rfl)]
  rfl

theorem sseRm_held (hHeld : Held ctx n w v) : sseRm ctx n w = some (.ok (fetched ctx.rm n v), w.noted ctx n) := by
  unfold Held at hHeld
  unfold sseRm fetched Watched.noted
  cases hRm : ctx.rm with
  | Reg i =>
    rw [hRm] at hHeld
    change some (Except.ok (xmm w.machine.state i), w) = _
    rw [hHeld]
    rfl
  | Mem base disp ripRel =>
    rw [hRm] at hHeld
    have hRead : w.machine.mem.read ctx.rmAddr n = .ok ((toLe128 v).take n) := hHeld
    exact bind_of_ok (loadBytes_ok hRead)

theorem Arm.exec_held (hHeld : Held ctx arm.bytes w v) : arm.exec ctx w = arm.finish (w.noted ctx arm.bytes) (fetched ctx.rm arm.bytes v) := by
  refine (bind_of_ok (sseRm_held hHeld)).trans ?_
  exact arm.rest_eq _ _

theorem noted_machine (w : Watched) (ctx : Ctx) (n : Nat) : (w.noted ctx n).machine = w.machine := by
  unfold Watched.noted
  split <;> rfl

theorem Arm.same_iff {arm' : Arm} {w' : Watched} {v' : U128} (hMachine : w'.machine = w.machine) :
    Same (arm.finish w v) (arm'.finish w' v') ↔ arm.run w.machine.state v = arm'.run w.machine.state v' := by
  unfold Arm.finish Same Watched.withState
  rw [hMachine]
  cases arm.run w.machine.state v with
  | error e =>
    cases arm'.run w.machine.state v' with
    | error e' => simp [hMachine]
    | ok s' => simp
  | ok s =>
    cases arm'.run w.machine.state v' with
    | error e' => simp
    | ok s' => simp

theorem getLsbD_fetched {k : Nat} (hk : k < 128) (v : U128) : (fromLe128 ((toLe128 v).take n)).getLsbD k = (decide (k < 8 * n) && v.getLsbD k) := by
  have hWhole := getLsbD_fromLe128 (toLe128 v) hk
  rw [fromLe128_toLe128] at hWhole
  rw [getLsbD_fromLe128 _ hk, List.getElem?_take, hWhole]
  rcases Nat.lt_or_ge k (8 * n) with hIn | hOut
  · rw [if_pos (by omega), decide_eq_true hIn, Bool.true_and]
  · rw [if_neg (by omega), decide_eq_false (by omega), Bool.false_and]
    exact BitVec.getLsbD_zero

theorem fetched_whole (rm : Rm) (v : U128) : fetched rm 16 v = v := by
  unfold fetched
  split
  · rfl
  · refine BitVec.eq_of_getLsbD_eq fun k hk => ?_
    rw [getLsbD_fetched hk, decide_eq_true (by omega), Bool.true_and]

theorem lane_fetched {b j : Nat} (hRoom : j * b + b ≤ 8 * n) (hn : n ≤ 16) (rm : Rm) (v : U128) : lane b j (fetched rm n v) = lane b j v := by
  unfold fetched
  split
  · rfl
  · refine lane_eq_iff.mpr fun k hk => ?_
    rw [getLsbD_fetched (by omega), getLsbD_lane, decide_eq_true hk, decide_eq_true (by omega)]

theorem Arm.same {other : Arm} (hReg : ctx.rm = .Reg ctx.reg) (hOther : other.bytes = n) (hHeld : Held { ctx with rm := rm } n w (xmm w.machine.state ctx.reg)) :
    Same (arm.exec ctx w) (other.exec { ctx with rm := rm } w) ↔
      arm.run w.machine.state (xmm w.machine.state ctx.reg) = other.run w.machine.state (fetched rm n (xmm w.machine.state ctx.reg)) := by
  have hSelf : { ctx with rm := .Reg ctx.reg } = ctx := by rw [← hReg]
  have hHere := arm.exec_reg ctx ctx.reg w
  rw [hSelf] at hHere
  subst hOther
  rw [hHere, Arm.exec_held hHeld]
  exact Arm.same_iff (noted_machine ..)

end Arms

/-! ## The tables -/

section Tables

variable {fp : Floats} {mxcsr : U32} {ctx : Ctx} {imm op : U8} {arm : Arm} {v : U128}

theorem sseArm_rm (rm : Rm) : sseArm fp { ctx with rm := rm } imm op = sseArm fp ctx imm op := rfl

theorem sse3aArm_rm (rm : Rm) : sse3aArm fp mxcsr { ctx with rm := rm } imm op = sse3aArm fp mxcsr ctx imm op := rfl

theorem sse38Arm_rm (hNot : op ∉ HORIZONTAL) (rm : Rm) : sse38Arm { ctx with rm := rm } op = sse38Arm ctx op := by
  have hNot : op ∉ ([0x01, 0x02, 0x03, 0x05, 0x06, 0x07] : List U8) := hNot
  unfold sse38Arm
  dsimp only
  rcases Decidable.em (op = 0x00) with hFirst | hFirst
  · rw [if_pos hFirst, if_pos hFirst]
  · rw [if_neg hFirst, if_neg hNot, if_neg hFirst, if_neg hNot]

theorem sse38Arm_horizontal (h : op ∈ HORIZONTAL) : sse38Arm ctx op =
    some (into ctx.reg 16 fun a b => phaddsub a b (phaddSize op) (phaddSub op) (phaddSat op) (aliased ctx)) := by
  have hNot : op ≠ 0x00 := by
    rintro rfl
    exact absurd h (by decide)
  have h : op ∈ ([0x01, 0x02, 0x03, 0x05, 0x06, 0x07] : List U8) := h
  unfold sse38Arm
  rw [if_neg hNot, if_pos h]
  rfl

theorem phadd_horizontal (h : op ∈ HORIZONTAL) : IsHorizontal (phaddSize op) (phaddSat op) := by
  have hAll : ∀ op ∈ HORIZONTAL, phaddSize op = 2 ∨ (phaddSize op = 4 ∧ phaddSat op = false) := by decide
  exact hAll op h

theorem ite_some {α : Type} {c : Prop} [Decidable c] {x y : Option α} {a : α} (h : (if c then x else y) = some a) :
    (c ∧ x = some a) ∨ (¬c ∧ y = some a) := by
  split at h
  · rename_i hYes
    exact .inl ⟨hYes, h⟩
  · rename_i hNo
    exact .inr ⟨hNo, h⟩

/-- One step down a table of arms: an arm that may be chosen has 16 bytes. -/
theorem sized_ite {c : Prop} [Decidable c] {a : Arm} {rest : Option Arm} (hHere : c → a.bytes = 16) (hRest : ∀ arm ∈ rest, arm.bytes = 16) :
    ∀ arm ∈ (if c then some a else rest), arm.bytes = 16 := by
  split
  · rename_i hYes
    rintro arm ⟨⟩
    exact hHere hYes
  · exact hRest

theorem sseArm_bytes (h : sseArm fp ctx imm op = some arm) (hPacked : op ∈ packedOps .Plain (kindOf ctx)) : arm.bytes = 16 := by
  have hOut : ∀ kind, ∀ x ∈ ([0x2C, 0x2D, 0x2E, 0x2F, 0x7E] : List U8), x ∉ packedOps .Plain kind := by
    intro kind
    cases kind <;> decide
  have hScalar : ∀ kind, kind = .Ss ∨ kind = .Sd → ∀ x ∈ ([0x5A, 0xC2] : List U8), x ∉ packedOps .Plain kind := by
    rintro kind (rfl | rfl) <;> decide
  have hNot : ∀ xs : List U8, (∀ x ∈ xs, x ∈ ([0x2C, 0x2D, 0x2E, 0x2F, 0x7E] : List U8)) → op ∉ xs := fun xs hSub hOp => hOut _ op (hSub op hOp) hPacked
  suffices hAll : ∀ arm ∈ sseArm fp ctx imm op, arm.bytes = 16 from hAll arm h
  unfold sseArm
  dsimp only
  iterate 2 apply sized_ite fun _ => rfl
  -- the scalar conversions and comparisons are not packed
  apply sized_ite fun hOp => (hNot _ (by decide) hOp).elim
  apply sized_ite fun hOp => (hNot _ (by decide) hOp).elim
  iterate 3 apply sized_ite fun _ => rfl
  apply sized_ite fun hOp => (hScalar _ (.inr hOp.2) 0x5A (by decide) (hOp.1 ▸ hPacked)).elim
  apply sized_ite fun hOp => (hScalar _ (.inl hOp.2) 0x5A (by decide) (hOp.1 ▸ hPacked)).elim
  iterate 3 apply sized_ite fun _ => rfl
  apply sized_ite fun hOp => (hNot [0x7E] (by decide) (List.mem_singleton.mpr hOp.1)).elim
  iterate 3 apply sized_ite fun _ => rfl
  apply sized_ite
  · intro hOp
    unfold cmp
    split
    · rfl
    · rfl
    · rename_i hKind
      exact (hScalar _ (.inl hKind) 0xC2 (by decide) (hOp ▸ hPacked)).elim
    · rename_i hKind
      exact (hScalar _ (.inr hKind) 0xC2 (by decide) (hOp ▸ hPacked)).elim
  apply sized_ite fun _ => rfl
  intro arm hArm
  obtain ⟨f, -, rfl⟩ := Option.map_eq_some_iff.mp hArm
  rfl

theorem sse3aArm_bytes (h : sse3aArm fp mxcsr ctx imm op = some arm) : arm.bytes = 16 := by
  suffices hAll : ∀ arm ∈ sse3aArm fp mxcsr ctx imm op, arm.bytes = 16 from hAll arm h
  unfold sse3aArm
  dsimp only
  iterate 7 apply sized_ite fun _ => rfl
  simp

theorem sse38Arm_bytes (h : sse38Arm ctx op = some arm) (hNot : op ∉ PMOVX) : arm.bytes = 16 := by
  suffices hAll : ∀ arm ∈ sse38Arm ctx op, arm.bytes = 16 from hAll arm h
  unfold sse38Arm
  dsimp only
  iterate 8 apply sized_ite fun _ => rfl
  apply sized_ite fun hOp => absurd hOp hNot
  iterate 7 apply sized_ite fun _ => rfl
  simp

theorem sse38Arm_pmovx (h : op ∈ PMOVX) : sse38Arm ctx op =
    some (into ctx.reg (16 / (pmovxSizes op).2 * (pmovxSizes op).1) fun _ v => pmovx v (pmovxSizes op).1 (pmovxSizes op).2 (op < 0x30)) := by
  have hOut : ∀ x ∈ ([0x00, 0x01, 0x02, 0x03, 0x05, 0x06, 0x07, 0x04, 0x08, 0x09, 0x0A, 0x0B, 0x1C, 0x1D, 0x1E, 0x10, 0x14, 0x15, 0x17] : List U8),
      x ∉ PMOVX := by decide
  have hNot : ∀ x ∈ ([0x00, 0x01, 0x02, 0x03, 0x05, 0x06, 0x07, 0x04, 0x08, 0x09, 0x0A, 0x0B, 0x1C, 0x1D, 0x1E, 0x10, 0x14, 0x15, 0x17] : List U8),
      op ≠ x := fun x hx hOp => hOut x hx (hOp ▸ h)
  have hElse : ∀ xs : List U8, (∀ x ∈ xs, x ∈ ([0x00, 0x01, 0x02, 0x03, 0x05, 0x06, 0x07, 0x04, 0x08, 0x09, 0x0A, 0x0B, 0x1C, 0x1D, 0x1E, 0x10, 0x14,
      0x15, 0x17] : List U8)) → op ∉ xs := fun xs hSub hOp => hNot op (hSub op hOp) rfl
  have h : op ∈ ([0x20, 0x21, 0x22, 0x23, 0x24, 0x25, 0x30, 0x31, 0x32, 0x33, 0x34, 0x35] : List U8) := h
  unfold sse38Arm
  dsimp only
  rw [if_neg (hNot _ (by decide)), if_neg (hElse _ (by decide)), if_neg (hNot _ (by decide)), if_neg (hElse _ (by decide)), if_neg (hNot _ (by decide)),
    if_neg (hElse _ (by decide)), if_neg (hElse _ (by decide)), if_neg (hNot _ (by decide)), if_pos h]

theorem pmovx_fetched (h : op ∈ PMOVX) (rm : Rm) (v : U128) (sign : Bool) :
    pmovx (fetched rm (16 / (pmovxSizes op).2 * (pmovxSizes op).1) v) (pmovxSizes op).1 (pmovxSizes op).2 sign =
      pmovx v (pmovxSizes op).1 (pmovxSizes op).2 sign := by
  have hSizes : ∀ op ∈ PMOVX, IsElem (pmovxSizes op).1 ∧ IsElem (pmovxSizes op).2 ∧ 16 / (pmovxSizes op).2 * (pmovxSizes op).1 ≤ 16 := by decide
  obtain ⟨hSrc, hDst, hWhole⟩ := hSizes op h
  refine eq_of_lanes hDst.pos fun j hRoom => ?_
  have hLess : j < 16 / (pmovxSizes op).2 := by
    rw [← hDst.whole] at hRoom
    exact Nat.lt_of_mul_lt_mul_right hRoom
  have hIn : j * ((pmovxSizes op).1 * 8) + (pmovxSizes op).1 * 8 ≤ 8 * (16 / (pmovxSizes op).2 * (pmovxSizes op).1) := by
    have := Nat.mul_le_mul_right ((pmovxSizes op).1 * 8) (Nat.succ_le_of_lt hLess)
    rw [Nat.succ_mul] at this
    calc j * ((pmovxSizes op).1 * 8) + (pmovxSizes op).1 * 8 ≤ 16 / (pmovxSizes op).2 * ((pmovxSizes op).1 * 8) := this
      _ = 8 * (16 / (pmovxSizes op).2 * (pmovxSizes op).1) := by rw [Nat.mul_comm 8, Nat.mul_assoc]
  rw [lane_pmovx hSrc hDst hLess, lane_pmovx hSrc hDst hLess, lane_fetched hIn hWhole]

end Tables

/-! ## The handlers -/

section Handlers

variable {fp : Floats} {mxcsr : U32} {ctx : Ctx} {imm op : U8} {rm : Rm} {w : Watched} {v : U128} {n k : Nat} {s : CpuState}

theorem Held.shorter (hHeld : Held ctx n w v) (hLess : k ≤ n) : Held ctx k w v := by
  unfold Held at hHeld ⊢
  cases hRm : ctx.rm with
  | Reg i =>
    rw [hRm] at hHeld
    exact hHeld
  | Mem base disp ripRel =>
    rw [hRm] at hHeld
    have hRead := VirtualMemory.read_shorter hHeld hLess
    rwa [List.take_take, Nat.min_eq_left hLess] at hRead

theorem same_refl (r : Option (Except Stop Unit × Watched)) : Same r r := rfl

theorem same_state {w' : Watched} (hMachine : w'.machine = w.machine) {s' : CpuState} :
    Same (some (.ok (), w.withState s)) (some (.ok (), w'.withState s')) ↔ s = s' := by
  unfold Same Watched.withState
  rw [hMachine]
  simp

theorem setXmm_inj {i : U8} {x y : U128} : setXmm s i x = setXmm s i y ↔ x = y := by
  constructor
  · intro hSame
    have hHere := congrArg (fun s : CpuState => s.xmm (regIdx i)) hSame
    change Function.update s.xmm (regIdx i) x (regIdx i) = Function.update s.xmm (regIdx i) y (regIdx i) at hHere
    rwa [Function.update_self, Function.update_self] at hHere
  · rintro rfl
    rfl

def halfOf (high : Bool) (rm : Rm) (d v : U128) : U128 :=
  if high then (d &&& LOW64) ||| (v <<< 64) else (d &&& ~~~LOW64) ||| (if isReg rm then v >>> 64 else v &&& LOW64)

theorem movHalf_held (high : Bool) (hHeld : Held ctx 8 w v) : movHalf ctx high w = some (.ok (),
    (w.noted ctx 8).withState (setXmm w.machine.state ctx.reg (halfOf high ctx.rm (xmm w.machine.state ctx.reg) (fetched ctx.rm 8 v)))) := by
  have hRead := sseRm_held hHeld
  have hMachine := noted_machine w ctx 8
  unfold movHalf halfOf
  cases hRm : ctx.rm with
  | Reg i =>
    unfold Held at hHeld
    rw [hRm] at hHeld
    have hReg : xmm w.machine.state i = v := hHeld
    have hNoted : w.noted ctx 8 = w := by
      unfold Watched.noted
      rw [hRm]
      rfl
    rw [hNoted]
    subst hReg
    rfl
  | Mem base disp ripRel =>
    rw [hRm] at hRead
    refine (bind_of_ok hRead).trans ?_
    unfold putState onMachine Watched.withState
    rw [hMachine]
    rfl

theorem lowBits (v : U128) : (fetched rm 8 v) <<< 64 = v <<< 64 ∧ fetched rm 8 v &&& LOW64 = v &&& LOW64 := by
  have hLow : LOW64 = BitVec.ofNat 128 (2 ^ 64 - 1) := by decide
  have hLane : lane 64 0 (fetched rm 8 v) = lane 64 0 v := lane_fetched (by decide) (by decide) rm v
  have hBit : ∀ k < 64, (fetched rm 8 v).getLsbD k = v.getLsbD k := by
    intro k hk
    have hHere := congrArg (fun x : BitVec 64 => x.getLsbD k) hLane
    simpa only [getLsbD_lane, decide_eq_true hk, Bool.true_and, Nat.zero_mul, Nat.zero_add] using hHere
  constructor
  · refine BitVec.eq_of_getLsbD_eq fun k hk => ?_
    rw [BitVec.getLsbD_shiftLeft, BitVec.getLsbD_shiftLeft]
    rcases Nat.lt_or_ge k 64 with hOut | hIn
    · rw [decide_eq_true hOut, Bool.not_true, Bool.and_false, Bool.false_and, Bool.false_and]
    · rw [hBit (k - 64) (by omega)]
  · rw [hLow, and_low, and_low]
    refine congrArg (fun x : BitVec 64 => x.setWidth 128) (BitVec.eq_of_getLsbD_eq fun k hk => ?_)
    rw [BitVec.getLsbD_setWidth, BitVec.getLsbD_setWidth, hBit k hk]

theorem or_low_inj {d x y : U128} (hx : x &&& LOW64 = x) (hy : y &&& LOW64 = y) : (d &&& ~~~LOW64) ||| x = (d &&& ~~~LOW64) ||| y ↔ x = y := by
  constructor
  · intro hSame
    have hCut : ∀ z : U128, z &&& LOW64 = z → ((d &&& ~~~LOW64) ||| z) &&& LOW64 = z := by
      intro z hz
      refine BitVec.eq_of_getLsbD_eq fun k hk => ?_
      have hBit := congrArg (fun x : U128 => x.getLsbD k) hz
      simp only [BitVec.getLsbD_and] at hBit
      simp only [BitVec.getLsbD_and, BitVec.getLsbD_or, BitVec.getLsbD_not, decide_eq_true hk, Bool.true_and]
      rw [← hBit]
      cases d.getLsbD k <;> cases LOW64.getLsbD k <;> cases z.getLsbD k <;> rfl
    rw [← hCut x hx, hSame, hCut y hy]
  · rintro rfl
    rfl

variable {arm : Arm} {kind : Sse}

theorem execSse_of_arm (h : sseArm fp ctx imm op = some arm) (w : Watched) : execSse fp ctx imm op w = arm.exec ctx w := by
  unfold execSse
  rw [h]

theorem execSse_of_none (h : sseArm fp ctx imm op = none) (w : Watched) : execSse fp ctx imm op w = sseOther fp ctx imm op w.machine.state w := by
  unfold execSse
  rw [h]
  exact bind_of_ok (a := w.machine.state) rfl

theorem sseArm_half (fp : Floats) (ctx : Ctx) (imm : U8) : sseArm fp ctx imm 0x12 = none ∧ sseArm fp ctx imm 0x16 = none := ⟨rfl, rfl⟩

theorem sseOther_packed (hPacked : op ∈ packedOps .Plain (kindOf ctx)) (hNone : sseArm fp ctx imm op = none) (h12 : op ≠ 0x12) (h16 : op ≠ 0x16)
    (s : CpuState) : ∃ e, ∀ rm, sseOther fp { ctx with rm := rm } imm op s = refuse e := by
  have hKept : ∀ kind, ∀ x ∈ ([0x11, 0x13, 0x17, 0x29, 0x7F, 0x2B, 0xE7, 0x2A, 0x6E, 0x7E, 0xD6, 0xC4, 0x71, 0x72, 0x73] : List U8),
      x ∉ packedOps .Plain kind := by
    intro kind
    cases kind <;> decide
  have hFloat : ∀ kind, 0x10 ∈ packedOps .Plain kind → kind = .Ps ∨ kind = .Pd := by
    intro kind
    cases kind <;> decide
  have hOut : ∀ x ∈ ([0x11, 0x13, 0x17, 0x29, 0x7F, 0x2B, 0xE7, 0x2A, 0x6E, 0x7E, 0xD6, 0xC4, 0x71, 0x72, 0x73] : List U8), op ≠ x :=
    fun x hx hOp => hKept _ x hx (hOp ▸ hPacked)
  have h10 : op ≠ 0x10 := by
    rintro rfl
    unfold sseArm at hNone
    dsimp only at hNone
    rw [if_pos ⟨rfl, hFloat _ hPacked⟩] at hNone
    cases hNone
  have hList : ∀ xs : List U8, (∀ x ∈ xs, x ∈ ([0x11, 0x13, 0x17, 0x29, 0x7F, 0x2B, 0xE7, 0x2A, 0x6E, 0x7E, 0xD6, 0xC4, 0x71, 0x72, 0x73] : List U8)) →
      op ∉ xs := fun xs hSub hOp => hOut op (hSub op hOp) rfl
  unfold sseOther
  dsimp only
  rcases Decidable.em (op = 0x5A) with h5A | h5A
  · refine ⟨unsupported op ctx "cvtps2pd/cvtpd2ps", fun rm => ?_⟩
    rw [if_neg h10, if_neg (hOut _ (by decide)), if_neg h12, if_neg (hOut _ (by decide)), if_neg h16, if_neg (hOut _ (by decide)),
      if_neg (hList _ (by decide)), if_neg (hOut _ (by decide)), if_pos h5A]
    rfl
  · rcases Decidable.em (op = 0xF0) with hF0 | hF0
    · refine ⟨unsupported op ctx "0f f0", fun rm => ?_⟩
      rw [if_neg h10, if_neg (hOut _ (by decide)), if_neg h12, if_neg (hOut _ (by decide)), if_neg h16, if_neg (hOut _ (by decide)),
        if_neg (hList _ (by decide)), if_neg (hOut _ (by decide)), if_neg h5A, if_pos hF0]
      rfl
    · refine ⟨unsupported op ctx "sse", fun rm => ?_⟩
      rw [if_neg h10, if_neg (hOut _ (by decide)), if_neg h12, if_neg (hOut _ (by decide)), if_neg h16, if_neg (hOut _ (by decide)),
        if_neg (hList _ (by decide)), if_neg (hOut _ (by decide)), if_neg h5A, if_neg hF0, if_neg (hOut _ (by decide)), if_neg (hOut _ (by decide)),
        if_neg (hOut _ (by decide)), if_neg (hOut _ (by decide)), if_neg (hList _ (by decide))]
      rfl

theorem width_of_arm (h : sseArm fp ctx imm op = some arm) : operandWidth .Plain (kindOf ctx) op = 16 := by
  unfold operandWidth
  dsimp only
  rw [if_neg]
  rintro (⟨rfl, -⟩ | ⟨rfl, hKind⟩ | ⟨rfl, -⟩)
  · cases h
  · unfold sseArm at h
    dsimp only at h
    rw [hKind] at h
    cases h
  · cases h

theorem half_same (hSelf : ctx.rm = .Reg ctx.reg) (hHeld : Held { ctx with rm := rm } 8 w (xmm w.machine.state ctx.reg)) (high : Bool) :
    Same (movHalf ctx high w) (movHalf { ctx with rm := rm } high w) ↔
      (high = false → isReg rm = false → xmm w.machine.state ctx.reg >>> 64 = xmm w.machine.state ctx.reg &&& LOW64) := by
  have hHere : Held ctx 8 w (xmm w.machine.state ctx.reg) := by
    unfold Held
    rw [hSelf]
  have hReg : isReg ctx.rm = true := by rw [hSelf]; rfl
  have hWhole : ∀ v, fetched ctx.rm 8 v = v := fun v => if_pos hReg
  rw [movHalf_held high hHere, movHalf_held high hHeld]
  have hMachine : (w.noted { ctx with rm := rm } 8).machine = (w.noted ctx 8).machine := by rw [noted_machine, noted_machine]
  refine (same_state hMachine).trans ?_
  rw [setXmm_inj, hWhole]
  obtain ⟨hShift, hMask⟩ := @lowBits rm (xmm w.machine.state ctx.reg)
  cases high with
  | true =>
    refine iff_of_true ?_ fun hFalse => Bool.noConfusion hFalse
    change _ ||| _ = _ ||| _
    rw [hShift]
  | false =>
    change (_ ||| (if isReg ctx.rm then _ else _)) = (_ ||| (if isReg rm then _ else _)) ↔ _
    rw [if_pos hReg]
    cases hRm : isReg rm with
    | true =>
      refine iff_of_true ?_ fun _ hFalse => Bool.noConfusion hFalse
      have hFetched : fetched rm 8 (xmm w.machine.state ctx.reg) = xmm w.machine.state ctx.reg := if_pos hRm
      rw [hFetched]
      rfl
    | false =>
      rw [if_neg (by decide), hMask]
      have hTop : (xmm w.machine.state ctx.reg >>> 64) &&& LOW64 = xmm w.machine.state ctx.reg >>> 64 := by
        refine BitVec.eq_of_getLsbD_eq fun k hk => ?_
        rw [show LOW64 = BitVec.ofNat 128 (2 ^ 64 - 1) by decide, and_low, BitVec.getLsbD_setWidth, BitVec.getLsbD_setWidth, BitVec.getLsbD_ushiftRight,
          decide_eq_true hk, Bool.true_and]
        rcases Nat.lt_or_ge k 64 with hIn | hOut
        · rw [decide_eq_true hIn, Bool.true_and]
        · rw [BitVec.getLsbD_of_ge _ _ (by omega), Bool.and_false]
      have hLow : (xmm w.machine.state ctx.reg &&& LOW64) &&& LOW64 = xmm w.machine.state ctx.reg &&& LOW64 := by
        rw [BitVec.and_assoc, BitVec.and_self]
      exact (or_low_inj hTop hLow).trans ⟨fun hSame _ _ => hSame, fun hSame => hSame rfl rfl⟩

theorem plain_same (hSelf : ctx.rm = .Reg ctx.reg) (hPacked : op ∈ packedOps .Plain (kindOf ctx))
    (hHeld : Held { ctx with rm := rm } (operandWidth .Plain (kindOf ctx) op) w (xmm w.machine.state ctx.reg)) :
    Same (execSse fp ctx imm op w) (execSse fp { ctx with rm := rm } imm op w) ↔
      (op = 0x12 → isReg rm = false → xmm w.machine.state ctx.reg >>> 64 = xmm w.machine.state ctx.reg &&& LOW64) := by
  have hEight : 8 ≤ operandWidth .Plain (kindOf ctx) op := by
    unfold operandWidth
    dsimp only
    split <;> decide
  rcases Decidable.em (op = 0x12) with rfl | h12
  · rw [execSse_of_none (sseArm_half ..).1, execSse_of_none (sseArm_half ..).1]
    refine (half_same hSelf (hHeld.shorter hEight) false).trans ?_
    exact ⟨fun hSame _ => hSame rfl, fun hSame _ => hSame rfl⟩
  · refine (iff_of_true ?_ fun hOp => absurd hOp h12)
    rcases Decidable.em (op = 0x16) with rfl | h16
    · rw [execSse_of_none (sseArm_half ..).2, execSse_of_none (sseArm_half ..).2]
      exact (half_same hSelf (hHeld.shorter hEight) true).mpr fun hFalse => Bool.noConfusion hFalse
    · cases hArm : sseArm fp ctx imm op with
      | some arm =>
        have hBytes := sseArm_bytes hArm hPacked
        rw [execSse_of_arm hArm, execSse_of_arm ((sseArm_rm rm).trans hArm)]
        rw [width_of_arm hArm] at hHeld
        refine (Arm.same hSelf hBytes hHeld).mpr ?_
        rw [fetched_whole]
      | none =>
        obtain ⟨e, hRefuse⟩ := sseOther_packed hPacked hArm h12 h16 w.machine.state
        have hHere : sseOther fp ctx imm op w.machine.state = refuse e := hRefuse ctx.rm
        rw [execSse_of_none hArm, execSse_of_none ((sseArm_rm rm).trans hArm), hHere]
        have hThere := hRefuse rm
        rw [show sseOther fp { ctx with rm := rm } imm op w.machine.state = refuse e from hThere]
        exact same_refl _

theorem execSse0f38_of_arm (hPlain : op ≠ 0xF0 ∧ op ≠ 0xF1) (h : sse38Arm ctx op = some arm) (w : Watched) : execSse0f38 ctx op w = arm.exec ctx w := by
  unfold execSse0f38
  rw [if_neg fun hCrc => hCrc.elim hPlain.1 hPlain.2, h]

theorem x38_plain (hPacked : op ∈ packedOps .X38 kind) : op ≠ 0xF0 ∧ op ≠ 0xF1 := by
  have hOut : 0xF0 ∉ packedOps .X38 kind ∧ 0xF1 ∉ packedOps .X38 kind := by
    cases kind <;> decide
  exact ⟨fun hOp => hOut.1 (hOp ▸ hPacked), fun hOp => hOut.2 (hOp ▸ hPacked)⟩

theorem ok_setXmm_inj {i : U8} {x y : U128} : (Except.ok (setXmm s i x) : Result CpuState) = .ok (setXmm s i y) ↔ x = y :=
  ⟨fun hSame => setXmm_inj.mp (Except.ok.inj hSame), fun hSame => by rw [hSame]⟩

theorem aliased_self (hSelf : ctx.rm = .Reg ctx.reg) : aliased ctx = true := decide_eq_true hSelf

theorem horizontal_same (hSelf : ctx.rm = .Reg ctx.reg) (hOther : rm ≠ .Reg ctx.reg) (hPlain : op ≠ 0xF0 ∧ op ≠ 0xF1) (hPhadd : op ∈ HORIZONTAL)
    (hHeld : Held { ctx with rm := rm } 16 w (xmm w.machine.state ctx.reg)) :
    Same (execSse0f38 ctx op w) (execSse0f38 { ctx with rm := rm } op w) ↔
      Settled (phaddSize op) (phaddSub op) (phaddSat op) (xmm w.machine.state ctx.reg) := by
  have hApart : aliased { ctx with rm := rm } = false := decide_eq_false hOther
  rw [execSse0f38_of_arm hPlain (sse38Arm_horizontal hPhadd), execSse0f38_of_arm hPlain (sse38Arm_horizontal hPhadd)]
  refine (Arm.same (n := 16) hSelf rfl hHeld).trans ?_
  rw [fetched_whole, aliased_self hSelf, hApart]
  exact ok_setXmm_inj.trans (phaddsub_aliased_iff (phadd_horizontal hPhadd))

theorem x38_same (hSelf : ctx.rm = .Reg ctx.reg) (hOther : rm ≠ .Reg ctx.reg) (hPacked : op ∈ packedOps .X38 (kindOf ctx))
    (hHeld : Held { ctx with rm := rm } (operandWidth .X38 (kindOf ctx) op) w (xmm w.machine.state ctx.reg)) :
    Same (execSse0f38 ctx op w) (execSse0f38 { ctx with rm := rm } op w) ↔
      (op ∈ HORIZONTAL → Settled (phaddSize op) (phaddSub op) (phaddSat op) (xmm w.machine.state ctx.reg)) := by
  have hPlain := x38_plain hPacked
  have hWidth : operandWidth .X38 (kindOf ctx) op = if op ∈ PMOVX then 16 / (pmovxSizes op).2 * (pmovxSizes op).1 else 16 := rfl
  rw [hWidth] at hHeld
  rcases Decidable.em (op ∈ HORIZONTAL) with hPhadd | hNot
  · have hApart : ∀ x ∈ HORIZONTAL, x ∉ PMOVX := by decide
    rw [if_neg (hApart op hPhadd)] at hHeld
    exact (horizontal_same hSelf hOther hPlain hPhadd hHeld).trans ⟨fun h _ => h, fun h => h hPhadd⟩
  · refine iff_of_true ?_ fun h => absurd h hNot
    rcases Decidable.em (op ∈ PMOVX) with hPmovx | hWide
    · rw [if_pos hPmovx] at hHeld
      rw [execSse0f38_of_arm hPlain (sse38Arm_pmovx hPmovx), execSse0f38_of_arm hPlain (sse38Arm_pmovx hPmovx)]
      refine (Arm.same hSelf rfl hHeld).mpr (ok_setXmm_inj.mpr ?_)
      exact (pmovx_fetched hPmovx ..).symm
    · rw [if_neg hWide] at hHeld
      cases hArm : sse38Arm ctx op with
      | some arm =>
        rw [execSse0f38_of_arm hPlain hArm, execSse0f38_of_arm hPlain ((sse38Arm_rm hNot rm).trans hArm)]
        refine (Arm.same hSelf (sse38Arm_bytes hArm hWide) hHeld).mpr ?_
        rw [fetched_whole]
      | none =>
        unfold execSse0f38
        rw [if_neg fun hCrc => hCrc.elim hPlain.1 hPlain.2, if_neg fun hCrc => hCrc.elim hPlain.1 hPlain.2, hArm, (sse38Arm_rm hNot rm).trans hArm]
        exact same_refl _

theorem sse3aBody_of_arm (h : sse3aArm fp mxcsr ctx imm op = some arm) (w : Watched) : sse3aBody fp mxcsr ctx imm op w = arm.exec ctx w := by
  unfold sse3aBody
  rw [h]

theorem sse3aBody_of_none (h : sse3aArm fp mxcsr ctx imm op = none) (w : Watched) :
    sse3aBody fp mxcsr ctx imm op w = sse3aOther ctx imm op w.machine.state w := by
  unfold sse3aBody
  rw [h]
  exact bind_of_ok (a := w.machine.state) rfl

theorem sse3aOther_packed (hPacked : op ∈ packedOps .X3A kind) (s : CpuState) : sse3aOther ctx imm op s = refuse (unsupported3 0x3A op ctx "sse3a") := by
  have hKept : ∀ kind, ∀ x ∈ ([0x14, 0x15, 0x16, 0x17, 0x20, 0x22, 0x21] : List U8), x ∉ packedOps .X3A kind := by
    intro kind
    cases kind <;> decide
  have hOut : ∀ x ∈ ([0x14, 0x15, 0x16, 0x17, 0x20, 0x22, 0x21] : List U8), op ≠ x := fun x hx hOp => hKept _ x hx (hOp ▸ hPacked)
  have hList : ∀ xs : List U8, (∀ x ∈ xs, x ∈ ([0x14, 0x15, 0x16, 0x17, 0x20, 0x22, 0x21] : List U8)) → op ∉ xs :=
    fun xs hSub hOp => hOut op (hSub op hOp) rfl
  unfold sse3aOther
  rw [if_neg (hList _ (by decide)), if_neg (hOut _ (by decide)), if_neg (hList _ (by decide)), if_neg (hOut _ (by decide))]

theorem x3a_same (hSelf : ctx.rm = .Reg ctx.reg) (hPacked : op ∈ packedOps .X3A kind) (hHeld : Held { ctx with rm := rm } 16 w (xmm w.machine.state ctx.reg)) :
    Same (sse3aBody fp mxcsr ctx imm op w) (sse3aBody fp mxcsr { ctx with rm := rm } imm op w) := by
  cases hArm : sse3aArm fp mxcsr ctx imm op with
  | some arm =>
    rw [sse3aBody_of_arm hArm, sse3aBody_of_arm ((sse3aArm_rm rm).trans hArm)]
    refine (Arm.same hSelf (sse3aArm_bytes hArm) hHeld).mpr ?_
    rw [fetched_whole]
  | none =>
    rw [sse3aBody_of_none hArm, sse3aBody_of_none ((sse3aArm_rm rm).trans hArm), sse3aOther_packed hPacked, sse3aOther_packed hPacked]
    exact same_refl _

def twins : Watched := { machine := { state := { xmm := fun i => if i = 0 ∨ i = 1 then 1 else 0 }, mem := .new } }

def ownSource : Ctx := { pfx := { p66 := true }, cur := 0, bits := .B64 }

end Handlers

end Exemu.Interp
