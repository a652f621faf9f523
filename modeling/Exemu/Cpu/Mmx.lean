import Exemu.Cpu.Helper
import Exemu.Cpu.Interpreter

/-! # The MMX instructions

The same arithmetic on registers of 64 bits, that are the significands of the x87 stack.
-/
namespace Exemu

namespace X87

def mmx (x : X87) (i : U8) : U64 := (x.st (Fin.ofNat 8 (i &&& 7).toNat)).setWidth 64

def setMmx (x : X87) (i : U8) (v : U64) : X87 :=
  let idx := (i &&& 7).toNat
  { x with
    st := Function.update x.st (Fin.ofNat 8 idx) (((0xFFFF : U128) <<< 64) ||| v.setWidth 128)
    tw := x.tw &&& ~~~((0b11 : U16) <<< (idx * 2)) }

theorem mmx_setMmx (x : X87) (i : U8) (v : U64) : (x.setMmx i v).mmx i = v := by
  unfold mmx setMmx
  dsimp only
  rw [Function.update_self]
  refine BitVec.eq_of_getLsbD_eq fun k hk => ?_
  rw [BitVec.getLsbD_setWidth, BitVec.getLsbD_or, BitVec.getLsbD_shiftLeft, BitVec.getLsbD_setWidth, decide_eq_true hk, decide_eq_true (by omega : k < 128)]
  simp

end X87

namespace Interp

open Lanes Words

def mmxRm (ctx : Ctx) : Exec U64 :=
  match ctx.rm with
  | .Reg i => do return (← Fallible.get).state.x87.mmx (i &&& 7)
  | .Mem .. => readUint ctx.rmAddr 8

def setMmx (i : U8) (v : U64) : Exec Unit := onState fun s => { s with x87 := s.x87.setMmx i v }

def mmxStoreRm (ctx : Ctx) (v : U64) : Exec Unit :=
  match ctx.rm with
  | .Reg i => setMmx (i &&& 7) v
  | .Mem .. => writeUint ctx.rmAddr 8 v

def mask64 (size : Nat) : U64 :=
  match size with
  | 1 => 0xff
  | 2 => 0xffff
  | 4 => 0xffffffff
  | _ => BitVec.allOnes 64

/-! ## Loops over 64 bits -/

def emask64 (esz : Nat) : U64 := if esz * 8 ≥ 64 then BitVec.allOnes 64 else ((1 : U64) <<< (esz * 8)) - 1

def laneAt64 (v : U64) (i bits : Nat) (mask : U64) : U64 := (v >>> (i * bits)) &&& mask

def punpck64 (a b : U64) (esz : Nat) (high : Bool) : U64 :=
  let bits := esz * 8
  let mask := emask64 esz
  let half := 8 / esz / 2
  let base := if high then half else 0
  gather half fun i => (laneAt64 a (base + i) bits mask <<< (2 * i * bits)) ||| (laneAt64 b (base + i) bits mask <<< ((2 * i + 1) * bits))

def pack64 (a b : U64) (eszIn : Nat) (signedOut : Bool) : U64 :=
  let bitsIn := eszIn * 8
  let bitsOut := bitsIn / 2
  let inMask := emask64 eszIn
  let n := 8 / eszIn
  let part := fun (half : Nat) (src : U64) => gather n fun i =>
    let sv := sextLane (laneAt64 src i bitsIn inMask) bitsIn
    let clamped :=
      if signedOut then clampS sv (-((1 : U64) <<< (bitsOut - 1))) (((1 : U64) <<< (bitsOut - 1)) - 1) &&& (((1 : U64) <<< bitsOut) - 1)
      else clampS sv 0 (((1 : U64) <<< bitsOut) - 1) &&& (((1 : U64) <<< bitsOut) - 1)
    clamped <<< ((half * n + i) * bitsOut)
  part 0 a ||| part 1 b

def psadbw64 (a b : U64) : U64 :=
  (List.range 8).foldl (fun sum i =>
    let x : U32 := ((a >>> (i * 8)) &&& 0xFF).setWidth 32
    let y : U32 := ((b >>> (i * 8)) &&& 0xFF).setWidth 32
    sum + (unsignedAbs (x - y)).setWidth 64) 0

inductive ShiftKind where
  | Sll
  | Srl
  | Sra
  deriving DecidableEq

def mmxShiftLane (bits : Nat) (mask count : U64) (kind : ShiftKind) (lane : U64) : U64 :=
  match kind with
  | .Sll => if count.toNat ≥ bits then 0 else (lane <<< count.toNat) &&& mask
  | .Srl => if count.toNat ≥ bits then 0 else lane >>> count.toNat
  | .Sra => (sextLane lane bits).sshiftRight (min count.toNat (bits - 1)) &&& mask

def mmxShift (v : U64) (esz : Nat) (count : U64) (kind : ShiftKind) : U64 :=
  let bits := esz * 8
  let mask := emask64 esz
  gather (8 / esz) fun i => mmxShiftLane bits mask count kind (laneAt64 v i bits mask) <<< (i * bits)

def pshufw (src : U64) (imm : U8) : U64 := gather 4 fun i => laneAt64 src (select2 imm i) 16 0xFFFF <<< (i * 16)

def pmovmskb64 (src : U64) : U64 := gather 8 fun i => if (src >>> (i * 8 + 7)) &&& 1 ≠ 0 then (1 : U64) <<< i else 0

/-! ## The handler -/

/-- `f(a as u128, b as u128) as u64` -/
def widened (f : U128 → U128 → U128) (a b : U64) : U64 := (f (a.setWidth 128) (b.setWidth 128)).setWidth 64

def mmxArith (op2 : U8) : Option (U64 → U64 → U64) :=
  if op2 ∈ [0x60, 0x61, 0x62, 0x68, 0x69, 0x6A] then some fun a b => punpck64 a b (1 <<< (op2 &&& 3).toNat) (op2 ≥ 0x68)
  else if op2 = 0x63 then some fun a b => pack64 a b 2 true
  else if op2 = 0x6B then some fun a b => pack64 a b 4 true
  else if op2 = 0x67 then some fun a b => pack64 a b 2 false
  else if op2 ∈ [0xFC, 0xFD, 0xFE] then some (widened fun x y => addSub x y (1 <<< (op2 - 0xFC).toNat) true)
  else if op2 ∈ [0xF8, 0xF9, 0xFA] then some (widened fun x y => addSub x y (1 <<< (op2 - 0xF8).toNat) false)
  else if op2 = 0xD4 then some fun a b => a + b
  else if op2 = 0xFB then some fun a b => a - b
  else if op2 ∈ [0xD8, 0xD9, 0xDC, 0xDD, 0xE8, 0xE9, 0xEC, 0xED] then
    let esz := if op2 &&& 1 = 0 then 1 else 2
    let add := decide (op2 ∈ [0xDC, 0xDD, 0xEC, 0xED])
    let signed := decide (op2 ∈ [0xE8, 0xE9, 0xEC, 0xED])
    some (widened fun x y => addSubSat x y esz add signed)
  else if op2 = 0xDB then some fun a b => a &&& b
  else if op2 = 0xDF then some fun a b => ~~~a &&& b
  else if op2 = 0xEB then some fun a b => a ||| b
  else if op2 = 0xEF then some fun a b => a ^^^ b
  else if op2 ∈ [0x74, 0x75, 0x76, 0x64, 0x65, 0x66] then some (widened fun x y => pcmp x y (1 <<< (op2 &&& 3).toNat) (op2 < 0x70))
  else if op2 = 0xD5 then some (widened pmullw)
  else if op2 = 0xE5 then some (widened fun x y => pmulh x y true)
  else if op2 = 0xE4 then some (widened fun x y => pmulh x y false)
  else if op2 = 0xF4 then some fun a b => (a.setWidth 32).setWidth 64 * (b.setWidth 32).setWidth 64
  else if op2 = 0xF5 then some (widened pmaddwd)
  else if op2 = 0xDA then some (widened fun x y => byteMinmax x y false)
  else if op2 = 0xDE then some (widened fun x y => byteMinmax x y true)
  else if op2 = 0xE0 then some (widened fun x y => pavg x y 1)
  else if op2 = 0xE3 then some (widened fun x y => pavg x y 2)
  else if op2 = 0xF6 then some psadbw64
  else if op2 = 0xD1 then some fun dst count => mmxShift dst 2 count .Srl
  else if op2 = 0xD2 then some fun dst count => mmxShift dst 4 count .Srl
  else if op2 = 0xD3 then some fun dst count => mmxShift dst 8 count .Srl
  else if op2 = 0xE1 then some fun dst count => mmxShift dst 2 count .Sra
  else if op2 = 0xE2 then some fun dst count => mmxShift dst 4 count .Sra
  else if op2 = 0xF1 then some fun dst count => mmxShift dst 2 count .Sll
  else if op2 = 0xF2 then some fun dst count => mmxShift dst 4 count .Sll
  else if op2 = 0xF3 then some fun dst count => mmxShift dst 8 count .Sll
  else none

def mmxBinary (ctx : Ctx) (f : U64 → U64 → U64) : Exec Unit := do
  let a := (← Fallible.get).state.x87.mmx (ctx.reg &&& 7)
  let b ← mmxRm ctx
  setMmx (ctx.reg &&& 7) (f a b)

/-- `{:#x}` -/
def hex (v : U8) : String := "0x" ++ String.ofList (Nat.toDigits 16 v.toNat)

/-- `{:#04x}` -/
def hex04 (v : U8) : String := "0x" ++ (if v < 16 then "0" else "") ++ String.ofList (Nat.toDigits 16 v.toNat)

def fail {α : Type} (e : EmuError) : Exec α := .step fun _ => .error (.err e)

def mmxShiftGroup (op2 digit : U8) (src imm : U64) : Option U64 :=
  let esz := if op2 = 0x71 then 2 else if op2 = 0x72 then 4 else 8
  if digit = 2 then some (mmxShift src esz imm .Srl)
  else if op2 ∈ [0x71, 0x72] ∧ digit = 4 then some (mmxShift src esz imm .Sra)
  else if digit = 6 then some (mmxShift src esz imm .Sll)
  else none

def mmxGroup (ctx : Ctx) (op2 imm : U8) : Exec Unit := do
  let m ← Fallible.get
  match ctx.rm with
  | .Mem .. => fail (.unsupported "mmx shift m64,imm")
  | .Reg i =>
    match mmxShiftGroup op2 (ctx.reg &&& 7) (m.state.x87.mmx (i &&& 7)) (imm.setWidth 64) with
    | some out => setMmx (i &&& 7) out
    | none => fail (.unsupported s!"mmx shift-group {hex op2}/{(ctx.reg &&& 7).toNat}")

def mmxMask (ctx : Ctx) : Exec Unit := do
  let m ← Fallible.get
  match ctx.rm with
  | .Mem .. => fail (.unsupported "pmovmskb mm,m")
  | .Reg i => onState fun s => writeRegField ctx s (if ctx.pfx.w then 8 else 4) (pmovmskb64 (m.state.x87.mmx (i &&& 7)))

def mmxArm (ctx : Ctx) (imm op2 : U8) (m : Machine) : Exec Unit :=
  let reg := ctx.reg &&& 7
  let size := if ctx.pfx.w then 8 else 4
  if op2 = 0x6E then do
    let v ← readRm ctx size
    setMmx reg v
  else if op2 = 0x7E then writeRm ctx size (m.state.x87.mmx reg &&& mask64 size)
  else if op2 = 0x6F then do
    let v ← mmxRm ctx
    setMmx reg v
  else if op2 = 0x7F then mmxStoreRm ctx (m.state.x87.mmx reg)
  else if op2 = 0xD7 then mmxMask ctx
  else if op2 = 0x70 then do
    let src ← mmxRm ctx
    setMmx reg (pshufw src imm)
  else if op2 ∈ [0x71, 0x72, 0x73] then mmxGroup ctx op2 imm
  else match mmxArith op2 with
    | some f => mmxBinary ctx f
    | none => fail (.unsupported s!"mmx 0f {hex04 op2}")

def execMmx (ctx : Ctx) (imm op2 : U8) : Exec Unit := do mmxArm ctx imm op2 (← Fallible.get)

def isMmx (op2 : U8) : Bool :=
  op2 ∈ ([0x6E, 0x6F, 0x7E, 0x7F] : List U8) || (0x60 ≤ op2 && op2 ≤ 0x6B) || op2 ∈ ([0x74, 0x75, 0x76] : List U8) || op2 = 0x70 ||
    op2 ∈ ([0x71, 0x72, 0x73] : List U8) || op2 ∈ ([0xD1, 0xD2, 0xD3, 0xE1, 0xE2, 0xF1, 0xF2, 0xF3] : List U8) ||
    op2 ∈ ([0xD5, 0xE4, 0xE5, 0xF4, 0xF5] : List U8) || op2 ∈ ([0xD4, 0xFB] : List U8) || op2 ∈ ([0xDB, 0xDF, 0xEB, 0xEF] : List U8) ||
    (0xFC ≤ op2 && op2 ≤ 0xFE) || (0xF8 ≤ op2 && op2 ≤ 0xFA) || op2 ∈ ([0xDC, 0xDD, 0xD8, 0xD9] : List U8) ||
    op2 ∈ ([0xEC, 0xED, 0xE8, 0xE9] : List U8) || op2 ∈ ([0xDA, 0xDE, 0xE0, 0xE3, 0xF6] : List U8) || op2 = 0xD7

/-! ## The loops as halves of the helpers -/

section Halves

variable {esz i j k m n w : Nat} {a b : U64}

def low (x : U64) : U128 := x.setWidth 128

theorem lane_setWidth (x : U128) (hRoom : i * w + w ≤ 64) : lane w i (x.setWidth 64) = lane w i x := by
  refine lane_eq_iff.mpr fun k hk => ?_
  rw [BitVec.getLsbD_setWidth, getLsbD_lane, decide_eq_true hk, decide_eq_true (by omega : i * w + k < 64)]

theorem lane_low (x : U64) (i : Nat) : lane w i (low x) = lane w i x := by
  refine lane_eq_iff.mpr fun k hk => ?_
  unfold low
  rw [BitVec.getLsbD_setWidth, getLsbD_lane, decide_eq_true hk]
  rcases Nat.lt_or_ge (i * w + k) 128 with hIn | hOut
  · rw [decide_eq_true hIn]
  · rw [decide_eq_false (by omega), BitVec.getLsbD_of_ge x _ (by omega)]
    rfl

theorem eq_of_halves (hw : 0 < w) (hWhole : n * w = 64) {x : U64} {y : U128} (h : ∀ k < n, lane w k x = lane w k y) : x = y.setWidth 64 := by
  refine eq_of_lanes hw fun k hk => ?_
  have hLess : k < n := by
    rw [← hWhole] at hk
    exact Nat.lt_of_mul_lt_mul_right hk
  have hRoom : k * w + w ≤ 64 := by
    rw [← Nat.succ_mul, ← hWhole]
    exact Nat.mul_le_mul_right w hLess
  rw [lane_setWidth _ hRoom, h k hLess]

theorem emask64_eq (h : IsElem esz) : emask64 esz = (BitVec.allOnes (esz * 8)).setWidth 64 := by
  rcases h with rfl | rfl | rfl | rfl <;> decide

theorem and_mask64 (h : IsElem esz) (x : U64) : x &&& emask64 esz = (x.setWidth (esz * 8)).setWidth 64 := by
  refine BitVec.eq_of_getLsbD_eq fun k hk => ?_
  rw [BitVec.getLsbD_and, emask64_eq h, BitVec.getLsbD_setWidth, BitVec.getLsbD_allOnes, BitVec.getLsbD_setWidth, BitVec.getLsbD_setWidth,
    decide_eq_true hk, Bool.true_and, Bool.true_and, Bool.and_comm]

theorem laneAt64_eq (h : IsElem esz) (x : U64) (i : Nat) : laneAt64 x i (esz * 8) (emask64 esz) = (lane (esz * 8) i x).setWidth 64 := by
  unfold laneAt64
  rw [and_mask64 h]
  refine congrArg _ (BitVec.eq_of_getLsbD_eq fun k hk => ?_)
  rw [BitVec.getLsbD_setWidth, BitVec.getLsbD_ushiftRight, getLsbD_lane]

theorem whole64 (h : IsElem esz) : 8 / esz * (esz * 8) = 64 := by
  rcases h with rfl | rfl | rfl | rfl <;> decide

theorem lt_half (h : IsElem esz) (hk : k < 8 / esz) : k < 16 / esz := by
  rcases h with rfl | rfl | rfl | rfl <;> omega

theorem mmxShift_eq {kind : ShiftKind} {count : U64} {y : U128} {s : BitVec (esz * 8) → BitVec (esz * 8)} (h : IsElem esz)
    (hBody : ∀ x : BitVec (esz * 8), mmxShiftLane (esz * 8) (emask64 esz) count kind (x.setWidth 64) = (s x).setWidth 64)
    (hHelper : ∀ k < 16 / esz, lane (esz * 8) k y = s (lane (esz * 8) k (low a))) : mmxShift a esz count kind = y.setWidth 64 := by
  refine eq_of_halves h.pos (whole64 h) fun k hk => ?_
  rw [hHelper k (lt_half h hk), lane_low]
  refine lane_of_body (s := fun i => s (lane (esz * 8) i a)) (whole64 h).le hk fun i _ => ?_
  rw [laneAt64_eq h, hBody]

theorem mmxShift_sll (h : IsElem esz) (count : U64) : mmxShift a esz count .Sll = (shiftL (low a) esz count).setWidth 64 := by
  refine mmxShift_eq (s := fun x => x <<< count.toNat) h (fun x => ?_) fun k hk => lane_shiftL h hk count
  change (if count.toNat ≥ esz * 8 then 0 else (x.setWidth 64 <<< count.toNat) &&& emask64 esz) = _
  have hWide := h.bits_le
  split
  · rename_i hOver
    rw [BitVec.shiftLeft_eq_zero hOver]
    exact (BitVec.setWidth_zero ..).symm
  · rw [and_mask64 h]
    refine congrArg _ (BitVec.eq_of_getLsbD_eq fun k hk => ?_)
    rw [BitVec.getLsbD_setWidth, BitVec.getLsbD_shiftLeft, BitVec.getLsbD_shiftLeft, BitVec.getLsbD_setWidth, decide_eq_true hk,
      decide_eq_true (by omega : k < 64), decide_eq_true (by omega : k - count.toNat < 64), Bool.true_and, Bool.true_and, Bool.true_and]

theorem mmxShift_srl (h : IsElem esz) (count : U64) : mmxShift a esz count .Srl = (shiftR (low a) esz count false).setWidth 64 := by
  refine mmxShift_eq (s := fun x => x >>> count.toNat) h (fun x => ?_) fun k hk => lane_shiftR h hk count false
  change (if count.toNat ≥ esz * 8 then 0 else x.setWidth 64 >>> count.toNat) = _
  have hWide := h.bits_le
  split
  · rename_i hOver
    rw [BitVec.ushiftRight_eq_zero hOver]
    exact (BitVec.setWidth_zero ..).symm
  · refine BitVec.eq_of_getLsbD_eq fun k hk => ?_
    rw [BitVec.getLsbD_setWidth, BitVec.getLsbD_ushiftRight, BitVec.getLsbD_ushiftRight, BitVec.getLsbD_setWidth, decide_eq_true hk, Bool.true_and]
    rcases Nat.lt_or_ge (count.toNat + k) 64 with hIn | hOut
    · rw [decide_eq_true hIn, Bool.true_and]
    · rw [decide_eq_false (by omega), Bool.false_and, BitVec.getLsbD_of_ge _ _ (by omega)]

theorem mmxShift_sra (h : IsElem esz) (count : U64) : mmxShift a esz count .Sra = (shiftR (low a) esz count true).setWidth 64 := by
  refine mmxShift_eq (s := fun x => x.sshiftRight count.toNat) h (fun x => ?_) fun k hk => lane_shiftR h hk count true
  change (sextLane (x.setWidth 64) (esz * 8)).sshiftRight (min count.toNat (esz * 8 - 1)) &&& emask64 esz = _
  have hWide := h.bits_le
  have hPos := h.pos
  rw [sextLane_eq hWide, and_mask64 h]
  refine congrArg _ (BitVec.eq_of_getLsbD_eq fun k hk => ?_)
  have hMsb : (x.signExtend 64).msb = x.msb := by
    rw [BitVec.msb_eq_getLsbD_last, BitVec.getLsbD_signExtend, BitVec.msb_eq_getLsbD_last]
    split
    · rw [show 64 - 1 = esz * 8 - 1 by omega, decide_eq_true (by omega), Bool.true_and]
    · exact Bool.true_and _
  have hBit : ∀ i, (if i < 64 then (x.signExtend 64).getLsbD i else (x.signExtend 64).msb) = if i < esz * 8 then x.getLsbD i else x.msb := by
    intro i
    rw [hMsb, BitVec.getLsbD_signExtend]
    rcases Nat.lt_or_ge i 64 with hIn | hOut
    · rw [if_pos hIn, decide_eq_true hIn, Bool.true_and]
    · rw [if_neg (by omega), if_neg (by omega)]
  rw [BitVec.getLsbD_setWidth, BitVec.getLsbD_sshiftRight, BitVec.getLsbD_sshiftRight, decide_eq_true hk, decide_eq_false (by omega : ¬esz * 8 ≤ k),
    decide_eq_false (by omega : ¬64 ≤ k), hBit]
  rcases Nat.lt_or_ge (count.toNat + k) (esz * 8) with hIn | hOut
  · rw [Nat.min_eq_left (by omega)]
    rfl
  · rw [if_neg (by omega : ¬count.toNat + k < esz * 8)]
    split
    · have hTop : min count.toNat (esz * 8 - 1) + k = esz * 8 - 1 := by omega
      rw [hTop, BitVec.msb_eq_getLsbD_last]
      rfl
    · rfl

theorem lane_shiftLeft_low (hw : i * w + w ≤ 64) (x : U64) (count : Nat) (hCount : m * w = count) (hRoom : count + 64 ≤ 128) :
    lane w (m + i) (low x <<< count) = lane w i x := by
  refine lane_eq_iff.mpr fun k hk => ?_
  have hPlace : (m + i) * w + k = count + (i * w + k) := by
    rw [Nat.add_mul, hCount, Nat.add_assoc]
  unfold low
  rw [hPlace, BitVec.getLsbD_shiftLeft, getLsbD_lane, decide_eq_true hk, decide_eq_true (by omega : count + (i * w + k) < 128),
    decide_eq_false (by omega : ¬count + (i * w + k) < count), Nat.add_sub_cancel_left, BitVec.getLsbD_setWidth,
    decide_eq_true (by omega : i * w + k < 128)]
  rfl

theorem lane_punpck64 (h : esz = 1 ∨ esz = 2 ∨ esz = 4) (hk : k < 8 / esz) (high : Bool) :
    lane (esz * 8) k (punpck64 a b esz high) = lane (esz * 8) ((if high then 8 / esz / 2 else 0) + k / 2) (if k % 2 = 0 then a else b) := by
  have hElem : IsElem esz := by
    rcases h with rfl | rfl | rfl <;> decide
  have hHalf : 2 * (8 / esz / 2) = 8 / esz := by
    rcases h with rfl | rfl | rfl <;> decide
  have hRoom : 2 * (8 / esz / 2) * (esz * 8) ≤ 64 := by
    rw [hHalf]
    exact (whole64 hElem).le
  unfold punpck64
  dsimp only
  simp only [laneAt64_eq hElem]
  refine (lane_turns (fun i => lane (esz * 8) ((if high then 8 / esz / 2 else 0) + i) a) (fun i => lane (esz * 8) ((if high then 8 / esz / 2 else 0) + i) b)
    hRoom (by omega)).trans ?_
  split <;> rfl

theorem punpck64_low (h : esz = 1 ∨ esz = 2 ∨ esz = 4) : punpck64 a b esz false = (punpck (low a) (low b) esz false).setWidth 64 := by
  have hElem : IsElem esz := by
    rcases h with rfl | rfl | rfl <;> decide
  refine eq_of_halves hElem.pos (whole64 hElem) fun k hk => ?_
  rw [lane_punpck64 h hk, lane_punpck hElem (lt_half hElem hk)]
  rcases Decidable.em (k % 2 = 0) with hEven | hOdd
  · rw [if_pos hEven, if_pos hEven]
    exact (lane_low a _).symm
  · rw [if_neg hOdd, if_neg hOdd]
    exact (lane_low b _).symm

theorem punpck64_high (h : esz = 1 ∨ esz = 2 ∨ esz = 4) : punpck64 a b esz true = (punpck (low a <<< 32) (low b <<< 32) esz true).setWidth 64 := by
  have hElem : IsElem esz := by
    rcases h with rfl | rfl | rfl <;> decide
  refine eq_of_halves hElem.pos (whole64 hElem) fun k hk => ?_
  rw [lane_punpck64 h hk, lane_punpck hElem (lt_half hElem hk)]
  have hUp : ∀ x : U64, lane (esz * 8) (8 / esz / 2 + k / 2) x = lane (esz * 8) (16 / esz / 2 + k / 2) (low x <<< 32) := by
    intro x
    have hDown : 16 / esz / 2 + k / 2 = 4 / esz + (8 / esz / 2 + k / 2) := by
      rcases h with rfl | rfl | rfl <;> omega
    have hRoom : (8 / esz / 2 + k / 2) * (esz * 8) + esz * 8 ≤ 64 := by
      rcases h with rfl | rfl | rfl <;> omega
    have hCount : 4 / esz * (esz * 8) = 32 := by
      rcases h with rfl | rfl | rfl <;> decide
    rw [hDown, lane_shiftLeft_low hRoom x 32 hCount (by decide)]
  rcases Decidable.em (k % 2 = 0) with hEven | hOdd
  · rw [if_pos hEven, if_pos hEven]
    exact hUp a
  · rw [if_neg hOdd, if_neg hOdd]
    exact hUp b

def joined (a b : U64) : U128 := low a ||| (low b <<< 64)

theorem lane_joined (h : IsElem esz) (hk : k < 16 / esz) (a b : U64) :
    lane (esz * 8) k (joined a b) = if k < 8 / esz then lane (esz * 8) k a else lane (esz * 8) (k - 8 / esz) b := by
  have hHalf : 8 / esz * (esz * 8) = 64 := whole64 h
  have hTwice : 16 / esz = 2 * (8 / esz) := by
    rcases h with rfl | rfl | rfl | rfl <;> decide
  unfold joined
  rw [lane_or, lane_low]
  split
  · rename_i hLess
    have hRoom : k * (esz * 8) + esz * 8 ≤ 64 := by
      rw [← Nat.succ_mul, ← hHalf]
      exact Nat.mul_le_mul_right _ hLess
    have hZero : lane (esz * 8) k (low b <<< 64) = 0 := by
      refine lane_eq_iff.mpr fun m hm => ?_
      rw [BitVec.getLsbD_shiftLeft, decide_eq_true (by omega : k * (esz * 8) + m < 64), Bool.not_true, Bool.and_false, Bool.false_and]
      exact BitVec.getLsbD_zero.symm
    rw [hZero]
    exact BitVec.or_zero
  · rename_i hMore
    obtain ⟨m, rfl⟩ : ∃ m, k = 8 / esz + m := ⟨k - 8 / esz, by omega⟩
    have hRoom : m * (esz * 8) + esz * 8 ≤ 64 := by
      rw [← Nat.succ_mul, ← hHalf]
      exact Nat.mul_le_mul_right _ (by omega)
    have hZero : lane (esz * 8) (8 / esz + m) a = 0 := by
      refine lane_eq_iff.mpr fun n hn => ?_
      rw [BitVec.getLsbD_of_ge a _ (by rw [Nat.add_mul, hHalf]; omega)]
      exact BitVec.getLsbD_zero.symm
    rw [hZero, lane_shiftLeft_low hRoom b 64 hHalf (by decide), Nat.add_sub_cancel_left]
    exact BitVec.zero_or

theorem pack64_low (h : esz = 2 ∨ esz = 4) (signedOut : Bool) (c : U128) : pack64 a b esz signedOut = (pack (joined a b) c esz signedOut).setWidth 64 := by
  have hElem : IsElem esz := by
    rcases h with rfl | rfl <;> decide
  have hOut : IsElem (esz / 2) := by
    rcases h with rfl | rfl <;> decide
  have hHalf : esz * 8 / 2 = esz / 2 * 8 := by
    rcases h with rfl | rfl <;> decide
  have hCount : 8 / (esz / 2) = 2 * (8 / esz) ∧ 16 / esz = 2 * (8 / esz) ∧ 16 / (esz / 2) = 2 * (16 / esz) := by
    rcases h with rfl | rfl <;> decide
  have hBody : ∀ (src : U64) (i : Nat),
      (if signedOut then clampS (sextLane (laneAt64 src i (esz * 8) (emask64 esz)) (esz * 8)) (-((1 : U64) <<< (esz / 2 * 8 - 1)))
          (((1 : U64) <<< (esz / 2 * 8 - 1)) - 1) &&& (((1 : U64) <<< (esz / 2 * 8)) - 1)
        else clampS (sextLane (laneAt64 src i (esz * 8) (emask64 esz)) (esz * 8)) 0 (((1 : U64) <<< (esz / 2 * 8)) - 1) &&& (((1 : U64) <<< (esz / 2 * 8)) - 1)) =
      (saturate (esz / 2 * 8) signedOut (lane (esz * 8) i src).toInt).setWidth 64 := by
    intro src i
    have hNumber : sextLane (laneAt64 src i (esz * 8) (emask64 esz)) (esz * 8) = BitVec.ofInt 64 (lane (esz * 8) i src).toInt := by
      rw [laneAt64_eq hElem, sextLane_eq hElem.bits_le]
      rfl
    have hMask : ((1 : U64) <<< (esz / 2 * 8)) - 1 = emask64 (esz / 2) := by
      rcases h with rfl | rfl <;> decide
    have hFits := (fits_toInt (lane (esz * 8) i src)).mono hElem.bits_le
    obtain ⟨hLo, hHi⟩ := fits_bounds hOut (by omega) signedOut
    have hClamp := clampS_ofInt (by decide) hFits (hLo.mono (show 33 ≤ 64 by decide)) (hHi.mono (by decide))
    rw [← (pack_bounds h signedOut).1, ← (pack_bounds h signedOut).2] at hClamp
    rw [hNumber]
    unfold saturate
    rw [← setWidth_ofInt hOut.bits_le, ← and_mask64 hOut, ← hClamp, ← hMask]
    cases signedOut <;> rfl
  refine eq_of_halves hOut.pos (whole64 hOut) fun k hk => ?_
  rw [lane_pack h (by omega), if_pos (by omega), Nat.mod_eq_of_lt (by omega), lane_joined hElem (by omega)]
  unfold pack64
  dsimp only
  rw [hHalf]
  simp only [hBody]
  refine (lane_parts (fun i => saturate (esz / 2 * 8) signedOut (lane (esz * 8) i a).toInt) (fun i => saturate (esz / 2 * 8) signedOut (lane (esz * 8) i b).toInt)
    (by rw [← hCount.1]; exact (whole64 hOut).le) (by omega)).trans ?_
  split <;> rfl

theorem lane_first (x : U128) : lane 64 0 x = x.setWidth 64 := by
  refine lane_eq_iff.mpr fun k hk => ?_
  rw [BitVec.getLsbD_setWidth, decide_eq_true hk, Nat.zero_mul, Nat.zero_add, Bool.true_and]

theorem psadbw64_low : psadbw64 a b = (psadbw (low a) (low b)).setWidth 64 := by
  have hByte : ∀ (x : U64) (i : Nat), ((x >>> (i * 8)) &&& 0xFF).setWidth 32 = BitVec.ofInt 32 (number false (lane 8 (0 + i) (low x))) := by
    intro x i
    have hLane : ((x >>> (i * 8)) &&& 0xFF).setWidth 32 = (lane 8 i x).setWidth 32 :=
      (congrArg _ (@laneAt64_eq 1 (by decide) x i)).trans (BitVec.setWidth_setWidth_of_le _ (by decide))
    rw [hLane, Nat.zero_add, lane_low, setWidth_eq_ofInt]
    rfl
  have hSum : ∀ n, (List.range n).foldl (fun sum i =>
      sum + (unsignedAbs (((a >>> (i * 8)) &&& 0xFF).setWidth 32 - ((b >>> (i * 8)) &&& 0xFF).setWidth 32)).setWidth 64) 0 =
      BitVec.ofInt 64 (distance (low a) (low b) 0 0 n) := by
    intro n
    induction n with
    | zero => rfl
    | succ n ih =>
      have hStep : Counts 32 |number false (lane 8 (0 + n) (low a)) - number false (lane 8 (0 + n) (low b))| := by
        have hX := counts_number (lane 8 (0 + n) (low a))
        have hY := counts_number (lane 8 (0 + n) (low b))
        unfold Counts at *
        exact ⟨abs_nonneg _, abs_lt.mpr ⟨by omega, by omega⟩⟩
      unfold distance at *
      rw [List.range_succ, List.foldl_append, ih, Finset.sum_range_succ, BitVec.ofInt_add, List.foldl_cons, List.foldl_nil, hByte, hByte, unsignedAbs_eq,
        setWidth_up hStep]
  rw [← lane_first, lane_psadbw (by decide)]
  exact hSum 8

theorem lane_pshuflw {x : U128} (hk : k < 4) (imm : U8) : lane 16 k (pshuflw x imm) = lane 16 (select2 imm k) x := by
  have hLow : ∀ y z : U128, ((y &&& ~~~LOW64) ||| (z &&& LOW64)).setWidth 64 = z.setWidth 64 := by
    intro y z
    refine BitVec.eq_of_getLsbD_eq fun k hk => ?_
    have hMask : LOW64.getLsbD k = true := (@getLsbD_emask 8 (by decide) k).trans (decide_eq_true hk)
    rw [BitVec.getLsbD_setWidth, BitVec.getLsbD_setWidth, BitVec.getLsbD_or, BitVec.getLsbD_and, BitVec.getLsbD_and, BitVec.getLsbD_not, hMask]
    simp
  rw [← lane_setWidth _ (by omega)]
  refine (congrArg (lane 16 k) (hLow _ _)).trans ?_
  rw [lane_setWidth _ (by omega)]
  exact lane_of_body (s := fun k => lane 16 (select2 imm k) x) (by decide) hk fun i _ => congrArg (fun y : U128 => y <<< (i * 16)) (@laneAt_eq 2 (by decide) x _)

theorem pshufw_low (imm : U8) : pshufw a imm = (pshuflw (low a) imm).setWidth 64 := by
  refine eq_of_halves (w := 16) (n := 4) (by decide) (by decide) fun k hk => ?_
  rw [lane_pshuflw hk, lane_low]
  exact lane_of_body (s := fun k => lane 16 (select2 imm k) a) (by decide) hk fun i _ => congrArg (fun y : U64 => y <<< (i * 16)) (@laneAt64_eq 2 (by decide) a _)

theorem pmovmskb64_low : pmovmskb64 a = (pmovmskb (low a)).setWidth 64 := by
  have hSign : ∀ i, (a >>> (i * 8 + 7)) &&& 1 ≠ 0 ↔ (lane 8 i a).msb = true := by
    intro i
    rw [← sign_bit]
    have hBit := BitVec.and_one_eq_setWidth_ofBool_getLsbD (x := a >>> (i * 8 + 7))
    rw [show (1 : U64) = 1#64 by rfl, hBit]
    cases (a >>> (i * 8 + 7)).getLsbD 0 <;> decide
  refine BitVec.eq_of_getLsbD_eq fun k hk => ?_
  rw [BitVec.getLsbD_setWidth, pmovmskb_bit, lane_low, decide_eq_true hk, Bool.true_and]
  refine (getLsbD_gather_bits (p := fun i => (a >>> (i * 8 + 7)) &&& 1 ≠ 0) (by decide) k).trans ?_
  rw [Bool.eq_iff_iff, decide_eq_true_iff, hSign, Bool.and_eq_true, decide_eq_true_iff]
  refine ⟨fun hBoth => ⟨by omega, hBoth.2⟩, fun hBoth => ⟨?_, hBoth.2⟩⟩
  -- beyond the register there is no sign
  refine Nat.lt_of_not_le fun hBeyond => ?_
  have hSet := hBoth.2
  rw [BitVec.msb_eq_getLsbD_last, getLsbD_lane, BitVec.getLsbD_of_ge a _ (by omega), Bool.and_false] at hSet
  exact Bool.false_ne_true hSet

theorem pmuludq_low : (a.setWidth 32).setWidth 64 * (b.setWidth 32).setWidth 64 = (pmuludq (low a) (low b)).setWidth 64 := by
  have hDword : ∀ x : U64, lane 32 (2 * 0) (low x) = x.setWidth 32 := by
    intro x
    rw [lane_low]
    refine lane_eq_iff.mpr fun k hk => ?_
    rw [BitVec.getLsbD_setWidth, decide_eq_true hk, Bool.true_and]
    exact congrArg _ (by omega)
  rw [← lane_first, lane_pmuludq (by decide), hDword, hDword, BitVec.ofInt_mul, setWidth_eq_ofInt (a.setWidth 32), setWidth_eq_ofInt (b.setWidth 32)]
  rfl

theorem addSub_low (add : Bool) : (if add then a + b else a - b) = (addSub (low a) (low b) 8 add).setWidth 64 := by
  have hWhole : ∀ x : U64, lane 64 0 (low x) = x := by
    intro x
    rw [lane_first]
    exact (BitVec.setWidth_setWidth_of_le _ (by decide)).trans (BitVec.setWidth_eq x)
  rw [← lane_first]
  refine ((@lane_addSub 8 0 (low a) (low b) (by decide) (by decide) add).trans ?_).symm
  change (if add then lane 64 0 (low a) + lane 64 0 (low b) else lane 64 0 (low a) - lane 64 0 (low b)) = _
  rw [hWhole, hWhole]

/-! ## Each instruction and its helper -/

def counterpart (op2 : U8) : Option (U64 → U64 → Helper × U128 × U128) :=
  match op2 with
  | 0x60 => some fun a b => (.punpck 1 false, low a, low b)
  | 0x61 => some fun a b => (.punpck 2 false, low a, low b)
  | 0x62 => some fun a b => (.punpck 4 false, low a, low b)
  | 0x68 => some fun a b => (.punpck 1 true, low a <<< 32, low b <<< 32)
  | 0x69 => some fun a b => (.punpck 2 true, low a <<< 32, low b <<< 32)
  | 0x6A => some fun a b => (.punpck 4 true, low a <<< 32, low b <<< 32)
  | 0x63 => some fun a b => (.pack 2 true, joined a b, 0)
  | 0x6B => some fun a b => (.pack 4 true, joined a b, 0)
  | 0x67 => some fun a b => (.pack 2 false, joined a b, 0)
  | 0xFC => some fun a b => (.addSub 1 true, low a, low b)
  | 0xFD => some fun a b => (.addSub 2 true, low a, low b)
  | 0xFE => some fun a b => (.addSub 4 true, low a, low b)
  | 0xF8 => some fun a b => (.addSub 1 false, low a, low b)
  | 0xF9 => some fun a b => (.addSub 2 false, low a, low b)
  | 0xFA => some fun a b => (.addSub 4 false, low a, low b)
  | 0xD4 => some fun a b => (.addSub 8 true, low a, low b)
  | 0xFB => some fun a b => (.addSub 8 false, low a, low b)
  | 0xD8 => some fun a b => (.addSubSat 1 false false, low a, low b)
  | 0xD9 => some fun a b => (.addSubSat 2 false false, low a, low b)
  | 0xDC => some fun a b => (.addSubSat 1 true false, low a, low b)
  | 0xDD => some fun a b => (.addSubSat 2 true false, low a, low b)
  | 0xE8 => some fun a b => (.addSubSat 1 false true, low a, low b)
  | 0xE9 => some fun a b => (.addSubSat 2 false true, low a, low b)
  | 0xEC => some fun a b => (.addSubSat 1 true true, low a, low b)
  | 0xED => some fun a b => (.addSubSat 2 true true, low a, low b)
  | 0x74 => some fun a b => (.pcmp 1 false, low a, low b)
  | 0x75 => some fun a b => (.pcmp 2 false, low a, low b)
  | 0x76 => some fun a b => (.pcmp 4 false, low a, low b)
  | 0x64 => some fun a b => (.pcmp 1 true, low a, low b)
  | 0x65 => some fun a b => (.pcmp 2 true, low a, low b)
  | 0x66 => some fun a b => (.pcmp 4 true, low a, low b)
  | 0xD5 => some fun a b => (.pmullw, low a, low b)
  | 0xE5 => some fun a b => (.pmulh true, low a, low b)
  | 0xE4 => some fun a b => (.pmulh false, low a, low b)
  | 0xF4 => some fun a b => (.pmuludq, low a, low b)
  | 0xF5 => some fun a b => (.pmaddwd, low a, low b)
  | 0xDA => some fun a b => (.byteMinmax false, low a, low b)
  | 0xDE => some fun a b => (.byteMinmax true, low a, low b)
  | 0xE0 => some fun a b => (.pavg 1, low a, low b)
  | 0xE3 => some fun a b => (.pavg 2, low a, low b)
  | 0xF6 => some fun a b => (.psadbw, low a, low b)
  | 0xD1 => some fun a b => (.shiftR 2 b false, low a, 0)
  | 0xD2 => some fun a b => (.shiftR 4 b false, low a, 0)
  | 0xD3 => some fun a b => (.shiftR 8 b false, low a, 0)
  | 0xE1 => some fun a b => (.shiftR 2 b true, low a, 0)
  | 0xE2 => some fun a b => (.shiftR 4 b true, low a, 0)
  | 0xF1 => some fun a b => (.shiftL 2 b, low a, 0)
  | 0xF2 => some fun a b => (.shiftL 4 b, low a, 0)
  | 0xF3 => some fun a b => (.shiftL 8 b, low a, 0)
  | _ => none

def Agrees (op2 : U8) (a b : U64) (r : Helper × U128 × U128) : Prop := r.1.Valid ∧ ∃ f, mmxArith op2 = some f ∧ f a b = (r.1.run r.2.1 r.2.2).setWidth 64

theorem counterpart_agrees {op2 : U8} {g : U64 → U64 → Helper × U128 × U128} (h : counterpart op2 = some g) (a b : U64) : Agrees op2 a b (g a b) := by
  unfold counterpart at h
  split at h <;> cases h
  · exact ⟨.inl rfl, _, rfl, punpck64_low (.inl rfl)⟩
  · exact ⟨.inr (.inl rfl), _, rfl, punpck64_low (.inr (.inl rfl))⟩
  · exact ⟨.inr (.inr (.inl rfl)), _, rfl, punpck64_low (.inr (.inr rfl))⟩
  · exact ⟨.inl rfl, _, rfl, punpck64_high (.inl rfl)⟩
  · exact ⟨.inr (.inl rfl), _, rfl, punpck64_high (.inr (.inl rfl))⟩
  · exact ⟨.inr (.inr (.inl rfl)), _, rfl, punpck64_high (.inr (.inr rfl))⟩
  · exact ⟨.inl rfl, _, rfl, pack64_low (.inl rfl) true 0⟩
  · exact ⟨.inr rfl, _, rfl, pack64_low (.inr rfl) true 0⟩
  · exact ⟨.inl rfl, _, rfl, pack64_low (.inl rfl) false 0⟩
  · exact ⟨.inl rfl, _, rfl, rfl⟩
  · exact ⟨.inr (.inl rfl), _, rfl, rfl⟩
  · exact ⟨.inr (.inr (.inl rfl)), _, rfl, rfl⟩
  · exact ⟨.inl rfl, _, rfl, rfl⟩
  · exact ⟨.inr (.inl rfl), _, rfl, rfl⟩
  · exact ⟨.inr (.inr (.inl rfl)), _, rfl, rfl⟩
  · exact ⟨.inr (.inr (.inr rfl)), _, rfl, addSub_low true⟩
  · exact ⟨.inr (.inr (.inr rfl)), _, rfl, addSub_low false⟩
  · exact ⟨⟨.inl rfl, by decide⟩, _, rfl, rfl⟩
  · exact ⟨⟨.inr (.inl rfl), by decide⟩, _, rfl, rfl⟩
  · exact ⟨⟨.inl rfl, by decide⟩, _, rfl, rfl⟩
  · exact ⟨⟨.inr (.inl rfl), by decide⟩, _, rfl, rfl⟩
  · exact ⟨⟨.inl rfl, by decide⟩, _, rfl, rfl⟩
  · exact ⟨⟨.inr (.inl rfl), by decide⟩, _, rfl, rfl⟩
  · exact ⟨⟨.inl rfl, by decide⟩, _, rfl, rfl⟩
  · exact ⟨⟨.inr (.inl rfl), by decide⟩, _, rfl, rfl⟩
  · exact ⟨.inl rfl, _, rfl, rfl⟩
  · exact ⟨.inr (.inl rfl), _, rfl, rfl⟩
  · exact ⟨.inr (.inr (.inl rfl)), _, rfl, rfl⟩
  · exact ⟨.inl rfl, _, rfl, rfl⟩
  · exact ⟨.inr (.inl rfl), _, rfl, rfl⟩
  · exact ⟨.inr (.inr (.inl rfl)), _, rfl, rfl⟩
  · exact ⟨trivial, _, rfl, rfl⟩
  · exact ⟨trivial, _, rfl, rfl⟩
  · exact ⟨trivial, _, rfl, rfl⟩
  · exact ⟨trivial, _, rfl, pmuludq_low⟩
  · exact ⟨trivial, _, rfl, rfl⟩
  · exact ⟨trivial, _, rfl, rfl⟩
  · exact ⟨trivial, _, rfl, rfl⟩
  · exact ⟨⟨.inl rfl, by decide⟩, _, rfl, rfl⟩
  · exact ⟨⟨.inr (.inl rfl), by decide⟩, _, rfl, rfl⟩
  · exact ⟨trivial, _, rfl, psadbw64_low⟩
  · exact ⟨.inr (.inl rfl), _, rfl, mmxShift_srl (.inr (.inl rfl)) b⟩
  · exact ⟨.inr (.inr (.inl rfl)), _, rfl, mmxShift_srl (.inr (.inr (.inl rfl))) b⟩
  · exact ⟨.inr (.inr (.inr rfl)), _, rfl, mmxShift_srl (.inr (.inr (.inr rfl))) b⟩
  · exact ⟨.inr (.inl rfl), _, rfl, mmxShift_sra (.inr (.inl rfl)) b⟩
  · exact ⟨.inr (.inr (.inl rfl)), _, rfl, mmxShift_sra (.inr (.inr (.inl rfl))) b⟩
  · exact ⟨.inr (.inl rfl), _, rfl, mmxShift_sll (.inr (.inl rfl)) b⟩
  · exact ⟨.inr (.inr (.inl rfl)), _, rfl, mmxShift_sll (.inr (.inr (.inl rfl))) b⟩
  · exact ⟨.inr (.inr (.inr rfl)), _, rfl, mmxShift_sll (.inr (.inr (.inr rfl))) b⟩

def bitwise (op2 : U8) : Option (U128 → U128 → U128) :=
  match op2 with
  | 0xDB => some fun a b => a &&& b
  | 0xDF => some fun a b => ~~~a &&& b
  | 0xEB => some fun a b => a ||| b
  | 0xEF => some fun a b => a ^^^ b
  | _ => none

theorem bitwise_agrees {op2 : U8} {g : U128 → U128 → U128} (h : bitwise op2 = some g) (a b : U64) :
    ∃ f, mmxArith op2 = some f ∧ f a b = (g (low a) (low b)).setWidth 64 := by
  have hBack : ∀ x : U64, (low x).setWidth 64 = x := fun x => (BitVec.setWidth_setWidth_of_le _ (by decide)).trans (BitVec.setWidth_eq x)
  have hNot : ∀ x : U128, (~~~x).setWidth 64 = ~~~x.setWidth 64 := fun x => BitVec.setWidth_not (by decide)
  unfold bitwise at h
  split at h <;> cases h
  · exact ⟨_, rfl, by rw [BitVec.setWidth_and, hBack, hBack]⟩
  · exact ⟨_, rfl, by rw [BitVec.setWidth_and, hNot, hBack, hBack]⟩
  · exact ⟨_, rfl, by rw [BitVec.setWidth_or, hBack, hBack]⟩
  · exact ⟨_, rfl, by rw [BitVec.setWidth_xor, hBack, hBack]⟩

def groupHelper (op2 digit : U8) (count : U64) : Option Helper :=
  match op2, digit with
  | 0x71, 2 => some (.shiftR 2 count false)
  | 0x71, 4 => some (.shiftR 2 count true)
  | 0x71, 6 => some (.shiftL 2 count)
  | 0x72, 2 => some (.shiftR 4 count false)
  | 0x72, 4 => some (.shiftR 4 count true)
  | 0x72, 6 => some (.shiftL 4 count)
  | 0x73, 2 => some (.shiftR 8 count false)
  | 0x73, 6 => some (.shiftL 8 count)
  | _, _ => none

theorem group_agrees {op2 digit : U8} {count : U64} {h : Helper} (hRow : groupHelper op2 digit count = some h) (src : U64) :
    op2 ∈ [0x71, 0x72, 0x73] ∧ h.Valid ∧ mmxShiftGroup op2 digit src count = some ((h.run (low src) 0).setWidth 64) := by
  unfold groupHelper at hRow
  split at hRow <;> cases hRow
  · exact ⟨by decide, .inr (.inl rfl), congrArg some (mmxShift_srl (.inr (.inl rfl)) count)⟩
  · exact ⟨by decide, .inr (.inl rfl), congrArg some (mmxShift_sra (.inr (.inl rfl)) count)⟩
  · exact ⟨by decide, .inr (.inl rfl), congrArg some (mmxShift_sll (.inr (.inl rfl)) count)⟩
  · exact ⟨by decide, .inr (.inr (.inl rfl)), congrArg some (mmxShift_srl (.inr (.inr (.inl rfl))) count)⟩
  · exact ⟨by decide, .inr (.inr (.inl rfl)), congrArg some (mmxShift_sra (.inr (.inr (.inl rfl))) count)⟩
  · exact ⟨by decide, .inr (.inr (.inl rfl)), congrArg some (mmxShift_sll (.inr (.inr (.inl rfl))) count)⟩
  · exact ⟨by decide, .inr (.inr (.inr rfl)), congrArg some (mmxShift_srl (.inr (.inr (.inr rfl))) count)⟩
  · exact ⟨by decide, .inr (.inr (.inr rfl)), congrArg some (mmxShift_sll (.inr (.inr (.inr rfl))) count)⟩

end Halves

/-! ## The handler's results -/

section Handler

variable {ctx : Ctx} {imm op2 : U8} {m m' : Machine} {b : U64}

theorem mmxRm_run (h : mmxRm ctx m = some (.ok b, m')) : m' = m := by
  unfold mmxRm at h
  cases hRm : ctx.rm with
  | Reg i =>
    rw [hRm] at h
    cases h
    rfl
  | Mem base disp ripRel =>
    rw [hRm] at h
    exact (readUint_run h).2

def withMmx (m : Machine) (i : U8) (v : U64) : Machine := { m with state := { m.state with x87 := m.state.x87.setMmx i v } }

theorem execMmx_eq : execMmx ctx imm op2 m = mmxArm ctx imm op2 m m := Fallible.bind_of_ok rfl

theorem execMmx_arith {f : U64 → U64 → U64} (hArith : mmxArith op2 = some f) (hRead : mmxRm ctx m = some (.ok b, m')) :
    execMmx ctx imm op2 m = some (.ok (), withMmx m (ctx.reg &&& 7) (f (m.state.x87.mmx (ctx.reg &&& 7)) b)) := by
  obtain rfl := mmxRm_run hRead
  -- the table has no row for the other arms
  have hOther : ∀ op : U8, mmxArith op = none → op2 ≠ op := by
    rintro op hNone rfl
    rw [hNone] at hArith
    cases hArith
  have hGroup : op2 ∉ [0x71, 0x72, 0x73] := by
    intro hMem
    simp only [List.mem_cons, List.not_mem_nil, or_false] at hMem
    rcases hMem with rfl | rfl | rfl <;> cases hArith
  have hArm : mmxArm ctx imm op2 m' = mmxBinary ctx f := by
    unfold mmxArm
    dsimp only
    rw [if_neg (hOther 0x6E rfl), if_neg (hOther 0x7E rfl), if_neg (hOther 0x6F rfl), if_neg (hOther 0x7F rfl), if_neg (hOther 0xD7 rfl),
      if_neg (hOther 0x70 rfl), if_neg hGroup, hArith]
  rw [execMmx_eq, hArm]
  exact Fallible.bind_of_ok hRead

theorem execMmx_pshufw (hRead : mmxRm ctx m = some (.ok b, m')) : execMmx ctx imm 0x70 m = some (.ok (), withMmx m (ctx.reg &&& 7) (pshufw b imm)) := by
  obtain rfl := mmxRm_run hRead
  rw [execMmx_eq]
  exact Fallible.bind_of_ok hRead

theorem execMmx_mask {i : U8} (hRm : ctx.rm = .Reg i) : execMmx ctx imm 0xD7 m = some (.ok (),
    { m with state := writeRegField ctx m.state (if ctx.pfx.w then 8 else 4) (pmovmskb64 (m.state.x87.mmx (i &&& 7))) }) := by
  rw [execMmx_eq]
  change mmxMask ctx m = _
  unfold mmxMask
  rw [hRm]
  rfl

theorem execMmx_group {i : U8} {out : U64} (hOp : op2 ∈ [0x71, 0x72, 0x73]) (hRm : ctx.rm = .Reg i)
    (hRow : mmxShiftGroup op2 (ctx.reg &&& 7) (m.state.x87.mmx (i &&& 7)) (imm.setWidth 64) = some out) :
    execMmx ctx imm op2 m = some (.ok (), withMmx m (i &&& 7) out) := by
  have hRun : mmxGroup ctx op2 imm m = some (.ok (), withMmx m (i &&& 7) out) := by
    unfold mmxGroup
    rw [hRm]
    refine (@Fallible.bind_of_ok _ _ _ _ _ _ m m m rfl).trans ?_
    dsimp only
    rw [hRow]
    rfl
  rw [execMmx_eq, ← hRun]
  simp only [List.mem_cons, List.not_mem_nil, or_false] at hOp
  rcases hOp with rfl | rfl | rfl <;> rfl

def Leaves (x : Option (Except Stop Unit × Machine)) (i : U8) (v : U64) : Prop := ∃ m', x = some (.ok (), m') ∧ m'.state.x87.mmx i = v

theorem leaves_withMmx {x : Option (Except Stop Unit × Machine)} {i : U8} {v : U64} (h : x = some (.ok (), withMmx m i v)) : Leaves x i v :=
  ⟨withMmx m i v, h, m.state.x87.mmx_setMmx i v⟩

theorem isMmx_covered : ∀ op2 : U8, isMmx op2 = true →
    op2 ∈ [0x6E, 0x6F, 0x7E, 0x7F] ∨ op2 ∈ [0x70, 0x71, 0x72, 0x73, 0xD7] ∨ (counterpart op2).isSome ∨ (bitwise op2).isSome := by
  decide +kernel

/-- Each lane of each helper's result is the arithmetic of the lanes it reads, and each MMX instruction leaves the low half of
what its helper makes of the operands. -/
theorem packed_lanes :
    (∀ (h : Helper) (a b : U128) (k : Nat), h.Valid → k * h.width + h.width ≤ 128 → lane h.width k (h.run a b) = h.value a b k) ∧
      (∀ (h : Helper) (a a' b b' : U128) (k : Nat), h.Valid → h.Lanewise → k * h.width + h.width ≤ 128 → lane h.width k a = lane h.width k a' →
        lane h.width k b = lane h.width k b' → lane h.width k (h.run a b) = lane h.width k (h.run a' b')) ∧
      (∀ (v : U128) (k : Nat), (pmovmskb v).getLsbD k = (decide (k < 16) && (lane 8 k v).msb)) ∧
      (∀ src : U128, ∃ m, Least src 8 m ∧
        ∀ k < 8, lane 16 k (phminposuw src) = if k = 0 then lane 16 m src else if k = 1 then BitVec.ofNat 16 m else 0) ∧
      (∀ op2 : U8, isMmx op2 = true →
        op2 ∈ [0x6E, 0x6F, 0x7E, 0x7F] ∨ op2 ∈ [0x70, 0x71, 0x72, 0x73, 0xD7] ∨ (counterpart op2).isSome ∨ (bitwise op2).isSome) ∧
      (∀ (ctx : Ctx) (imm op2 : U8) (m m' : Machine) (a b : U64), m.state.x87.mmx (ctx.reg &&& 7) = a → mmxRm ctx m = some (.ok b, m') →
        (∀ g, counterpart op2 = some g → (g a b).1.Valid ∧
          Leaves (execMmx ctx imm op2 m) (ctx.reg &&& 7) (((g a b).1.run (g a b).2.1 (g a b).2.2).setWidth 64)) ∧
        (∀ g, bitwise op2 = some g → Leaves (execMmx ctx imm op2 m) (ctx.reg &&& 7) ((g (low a) (low b)).setWidth 64)) ∧
        Leaves (execMmx ctx imm 0x70 m) (ctx.reg &&& 7) ((pshuflw (low b) imm).setWidth 64)) ∧
      (∀ (ctx : Ctx) (imm op2 i : U8) (m : Machine) (src : U64), ctx.rm = .Reg i → m.state.x87.mmx (i &&& 7) = src →
        (∀ h, groupHelper op2 (ctx.reg &&& 7) (imm.setWidth 64) = some h → h.Valid ∧
          Leaves (execMmx ctx imm op2 m) (i &&& 7) ((h.run (low src) 0).setWidth 64)) ∧
        execMmx ctx imm 0xD7 m = some (.ok (),
          { m with state := writeRegField ctx m.state (if ctx.pfx.w then 8 else 4) ((pmovmskb (low src)).setWidth 64) })) := by
  refine ⟨fun h a b k hValid hRoom => Helper.run_lane hValid hRoom a b,
    fun h a a' b b' k hValid hLanewise hRoom hA hB => Helper.run_lanewise hValid hLanewise hRoom hA hB, pmovmskb_bit, lane_phminposuw, isMmx_covered,
    ?_, ?_⟩
  · rintro ctx imm op2 m m' a b rfl hRead
    refine ⟨fun g hRow => ?_, fun g hRow => ?_, ?_⟩
    · obtain ⟨hValid, f, hArith, hValue⟩ := counterpart_agrees hRow (m.state.x87.mmx (ctx.reg &&& 7)) b
      exact ⟨hValid, leaves_withMmx (hValue ▸ execMmx_arith hArith hRead)⟩
    · obtain ⟨f, hArith, hValue⟩ := bitwise_agrees hRow (m.state.x87.mmx (ctx.reg &&& 7)) b
      exact leaves_withMmx (hValue ▸ execMmx_arith hArith hRead)
    · exact leaves_withMmx (pshufw_low (a := b) imm ▸ execMmx_pshufw hRead)
  · rintro ctx imm op2 i m src hRm rfl
    refine ⟨fun h hRow => ?_, ?_⟩
    · obtain ⟨hOp, hValid, hGroup⟩ := group_agrees hRow (m.state.x87.mmx (i &&& 7))
      exact ⟨hValid, leaves_withMmx (execMmx_group hOp hRm hGroup)⟩
    · rw [← pmovmskb64_low]
      exact execMmx_mask hRm

def bytesToAdd : Machine := { state := { x87 := (({} : X87).setMmx 0 0xFF01).setMmx 1 0x0203 }, mem := .new }

theorem packed_lanes_of_bytes :
    lane 8 1 ((Helper.addSubSat 1 true true).run 0x7F00 0x0100) = 0x7F ∧
      Leaves (execMmx { cur := 0, reg := 0, rm := .Reg 1, bits := .B64 } 0 0xFC bytesToAdd) 0 0x0104 := by
  constructor
  · exact (packed_lanes.1 (.addSubSat 1 true true) 0x7F00 0x0100 1 ⟨.inl rfl, by decide⟩ (by decide)).trans rfl
  · exact ((packed_lanes.2.2.2.2.2.1 { cur := 0, reg := 0, rm := .Reg 1, bits := .B64 } 0 0xFC bytesToAdd bytesToAdd 0xFF01 0x0203 (by decide) rfl).1 _ rfl).2

end Handler

end Interp

end Exemu
