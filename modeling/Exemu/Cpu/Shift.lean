import Exemu.Cpu.Alu
import Exemu.Library.Row

/-! # Shifts and rotations

Each is computed in one go out of shifts of a whole word.
-/
namespace Exemu

namespace Interp

open VirtualMemory (isUintSize)
open Nat
open BitVec hiding not_or

/-! ## What the host checks -/

def hostShl (v : U64) (n : Nat) : Option U64 := if n < 64 then some (v <<< n) else none

def hostShr (v : U64) (n : Nat) : Option U64 := if n < 64 then some (v >>> n) else none

def hostSar (v : U64) (n : Nat) : Option U64 := if n < 64 then some (v.sshiftRight n) else none

def hostSub (a b : Nat) : Option Nat := if b ≤ a then some (a - b) else none

inductive Shift where
  | Rol
  | Ror
  | Rcl
  | Rcr
  | Shl
  | Shr
  | Sar
  deriving DecidableEq

def maskedCount (count : U64) (size : Nat) : Nat := (count &&& if size = 8 then 0x3f else 0x1f).toNat

def shlCarry (v : U64) (count bits : Nat) : Option Bool :=
  if count ≤ bits then do return (← hostShr v (← hostSub bits count)) &&& 1 != 0 else some false

def shl (s : CpuState) (v : U64) (count size : Nat) : Option (CpuState × U64) := do
  let bits := size * 8
  let cf ← shlCarry v count bits
  let res := (← hostShl v count) &&& mask size
  let s := s.setFlag flags.CF cf
  let s := if count = 1 then s.setFlag flags.OF ((res &&& signBit size != 0) ^^ cf) else s
  return (setSzp s res size, res)

def shr (s : CpuState) (v : U64) (count size : Nat) : Option (CpuState × U64) := do
  let cf := (← hostShr v (count - 1)) &&& 1 != 0
  let res ← hostShr v count
  let s := s.setFlag flags.CF cf
  let s := if count = 1 then s.setFlag flags.OF (v &&& signBit size != 0) else s
  return (setSzp s res size, res)

def sar (s : CpuState) (v : U64) (count size : Nat) : Option (CpuState × U64) := do
  let signed := sext v size
  let cf := (← hostShr signed (count - 1)) &&& 1 != 0
  let res := (← hostSar signed count) &&& mask size
  let s := s.setFlag flags.CF cf
  let s := if count = 1 then s.setFlag flags.OF false else s
  return (setSzp s res size, res)

def rol (s : CpuState) (v : U64) (count size : Nat) : Option (CpuState × U64) := do
  let bits := size * 8
  let c := count % bits
  let res := ((← hostShl v c) ||| (← hostShr v ((← hostSub bits c) % bits))) &&& mask size
  let cf := res &&& 1 != 0
  let s := s.setFlag flags.CF cf
  let s := if count = 1 then s.setFlag flags.OF ((res &&& signBit size != 0) ^^ cf) else s
  return (s, res)

def ror (s : CpuState) (v : U64) (count size : Nat) : Option (CpuState × U64) := do
  let bits := size * 8
  let c := count % bits
  let res := ((← hostShr v c) ||| (← hostShl v ((← hostSub bits c) % bits))) &&& mask size
  let s := s.setFlag flags.CF (res &&& signBit size != 0)
  let s := if count = 1 then s.setFlag flags.OF ((res &&& signBit size != 0) ^^ (res &&& (signBit size >>> 1) != 0)) else s
  return (s, res)

def rclStep (size : Nat) (x : U64 × Bool) : U64 × Bool :=
  (((x.1 <<< 1) ||| (if x.2 then 1 else 0)) &&& mask size, x.1 &&& signBit size != 0)

def rcrStep (size : Nat) (x : U64 × Bool) : U64 × Bool :=
  ((x.1 >>> 1) ||| ((if x.2 then (1 : U64) else 0) <<< (size * 8 - 1)), x.1 &&& 1 != 0)

def rcEnd (s : CpuState) (kind : Shift) (count size : Nat) (x : U64 × Bool) : CpuState × U64 :=
  let s := s.setFlag flags.CF x.2
  let msb := x.1 &&& signBit size != 0
  let s :=
    if count = 1 then s.setFlag flags.OF (if kind = .Rcl then msb ^^ x.2 else msb ^^ (x.1 &&& (signBit size >>> 1) != 0)) else s
  (s, x.1 &&& mask size)

def shift (s : CpuState) (kind : Shift) (val count : U64) (size : Nat) : Option (CpuState × U64) :=
  let n := maskedCount count size
  let v := val &&& mask size
  if n = 0 then some (s, v)
  else
    match kind with
    | .Shl => shl s v n size
    | .Shr => shr s v n size
    | .Sar => sar s v n size
    | .Rol => rol s v n size
    | .Ror => ror s v n size
    | .Rcl => some (rcEnd s .Rcl n size ((rclStep size)^[n] (v, s.flag flags.CF)))
    | .Rcr => some (rcEnd s .Rcr n size ((rcrStep size)^[n] (v, s.flag flags.CF)))

/-! ## Rows of bits -/

/-- The low `n` bits, the lowest first. -/
def bitRow (n : Nat) (v : U64) : List Bool := Row.of n v.getLsbD

namespace Shift

/-- All bits move by one place. The carry takes the one that leaves; what comes in tells the operations apart. -/
def move : Shift → List Bool × Bool → List Bool × Bool
  | .Shl, (row, _) => (Row.up false row, Row.last row)
  | .Rol, (row, _) => (Row.up (Row.last row) row, Row.last row)
  | .Rcl, (row, carry) => (Row.up carry row, Row.last row)
  | .Shr, (row, _) => (Row.down row false, Row.first row)
  | .Sar, (row, _) => (Row.down row (Row.last row), Row.first row)
  | .Ror, (row, _) => (Row.down row (Row.first row), Row.first row)
  | .Rcr, (row, carry) => (Row.down row carry, Row.first row)

/-- The overflow of a movement by one place, from what there was and what has become of it. -/
def overflow : Shift → List Bool × Bool → List Bool × Bool → Bool
  | .Shl, _, (row, carry) => Row.last row ^^ carry
  | .Rol, _, (row, carry) => Row.last row ^^ carry
  | .Rcl, _, (row, carry) => Row.last row ^^ carry
  | .Shr, (row, _), _ => Row.last row
  | .Sar, _, _ => false
  | .Ror, _, (row, _) => Row.last row ^^ Row.last row.dropLast
  | .Rcr, (row, carry), _ => Row.last row ^^ carry

def touches : Shift → List Nat
  | .Shl => [0, 2, 6, 7, 11]
  | .Shr => [0, 2, 6, 7, 11]
  | .Sar => [0, 2, 6, 7, 11]
  | _ => [0, 11]

end Shift

/-- What a shift should do: with the value and the carry before it, the bits move as often as the masked count says. -/
structure Shifts (kind : Shift) (s s' : CpuState) (val count : U64) (size : Nat) (r : U64) : Prop where
  range : r.toNat < 2 ^ (8 * size)
  row : (bitRow (8 * size) r, s'.flag flags.CF) = kind.move^[maskedCount count size] (bitRow (8 * size) val, s.flag flags.CF)
  zero : maskedCount count size = 0 → s' = s
  overflow : maskedCount count size = 1 →
    s'.flag flags.OF = kind.overflow (bitRow (8 * size) val, s.flag flags.CF) (bitRow (8 * size) r, s'.flag flags.CF)
  rest : s' = { s with rflags := s'.rflags }
  kept : ∀ i, i < 64 → i ∉ kind.touches → s'.rflags.getLsbD i = s.rflags.getLsbD i
  result : maskedCount count size ≠ 0 → 6 ∈ kind.touches →
    (s'.flag flags.ZF = true ↔ r = 0) ∧ (s'.flag flags.SF = true ↔ 2 ^ (8 * size - 1) ≤ r.toNat) ∧ (s'.flag flags.PF = true ↔ Even (countOnes r))

/-! ## Bits -/

section Bits

variable {size n i k : Nat} {f : Nat → Bool}

theorem mask_eq (hSize : isUintSize size = true) : mask size = BitVec.ofNat 64 (2 ^ (8 * size) - 1) := by
  rcases isUintSize_iff.mp hSize with rfl | rfl | rfl | rfl <;> rfl

theorem getLsbD_mask (hSize : isUintSize size = true) : (mask size).getLsbD i = decide (i < 8 * size) := by
  have hTop : 8 * size ≤ 64 := by rcases isUintSize_iff.mp hSize with rfl | rfl | rfl | rfl <;> decide
  rw [mask_eq hSize, getLsbD_ofNat, testBit_two_pow_sub_one]
  rcases lt_or_ge i (8 * size) with hIn | hOut
  · simp [hIn, show i < 64 by omega]
  · simp [Nat.not_lt.mpr hOut]

theorem getLsbD_cut (v : U64) (hSize : isUintSize size = true) :
    (v &&& mask size).getLsbD i = (decide (i < 8 * size) && v.getLsbD i) := by
  rw [getLsbD_and, getLsbD_mask hSize, Bool.and_comm]

theorem getLsbD_sext (v : U64) (hSize : isUintSize size = true) (hi : i < 64) :
    (sext v size).getLsbD i = v.getLsbD (min i (8 * size - 1)) := by
  have hExtend : ∀ w, 0 < w → ((v.setWidth w).signExtend 64).getLsbD i = v.getLsbD (min i (w - 1)) := by
    intro w hw
    rw [getLsbD_signExtend]
    rcases lt_or_ge i w with hIn | hOut
    · simp [hIn, hi, min_eq_left (show i ≤ w - 1 by omega)]
    · simp [Nat.not_lt.mpr hOut, hi, msb_setWidth, hw, min_eq_right (show w - 1 ≤ i by omega)]
  rcases isUintSize_iff.mp hSize with rfl | rfl | rfl | rfl
  · exact hExtend 8 (by decide)
  · exact hExtend 16 (by decide)
  · exact hExtend 32 (by decide)
  · rw [min_eq_left (by omega)]
    rfl

/-! ## Where the bits go -/

theorem shl_moves (hn : 0 < n) (c : Bool) (k : Nat) : Shift.Shl.move^[k] (Row.of n f, c) =
    (Row.of n fun i => decide (k ≤ i) && f (i - k), if k = 0 then c else decide (k ≤ n) && f (n - k)) := by
  induction k with
  | zero => simp
  | succ k ih =>
    rw [Function.iterate_succ_apply', ih, Shift.move, Row.up_of, Row.last_of _ hn, if_neg (succ_ne_zero k)]
    refine Prod.ext (Row.of_congr fun i hi => ?_) ?_
    · cases i with
      | zero => simp
      | succ i => simp [Nat.add_sub_add_right]
    · have hSame : n - 1 - k = n - (k + 1) := by omega
      have hIff : decide (k ≤ n - 1) = decide (k + 1 ≤ n) := decide_eq_decide.mpr (by omega)
      dsimp only
      rw [hSame, hIff]

theorem shr_moves (hn : 0 < n) (c : Bool) (k : Nat) : Shift.Shr.move^[k] (Row.of n f, c) =
    (Row.of n fun i => decide (i + k < n) && f (i + k), if k = 0 then c else decide (k ≤ n) && f (k - 1)) := by
  induction k with
  | zero =>
    refine Prod.ext (Row.of_congr fun i hi => ?_) rfl
    simp [hi]
  | succ k ih =>
    rw [Function.iterate_succ_apply', ih, Shift.move, Row.down_of, Row.first_of _ hn, if_neg (succ_ne_zero k)]
    refine Prod.ext (Row.of_congr fun i hi => ?_) ?_
    · have hSum : i + 1 + k = i + (k + 1) := by omega
      split
      · simp [show ¬i + (k + 1) < n by omega]
      · rw [hSum]
    · simp [succ_le_iff]

theorem sar_moves (hn : 0 < n) (c : Bool) (k : Nat) : Shift.Sar.move^[k] (Row.of n f, c) =
    (Row.of n fun i => f (min (i + k) (n - 1)), if k = 0 then c else f (min (k - 1) (n - 1))) := by
  induction k with
  | zero =>
    refine Prod.ext (Row.of_congr fun i hi => ?_) rfl
    rw [add_zero, min_eq_left (by omega)]
  | succ k ih =>
    rw [Function.iterate_succ_apply', ih, Shift.move, Row.down_of, Row.first_of _ hn, Row.last_of _ hn, if_neg (succ_ne_zero k)]
    refine Prod.ext (Row.of_congr fun i hi => ?_) ?_
    · split
      · congr 1
        omega
      · congr 1
        omega
    · dsimp only
      rw [Nat.zero_add, Nat.add_sub_cancel]

theorem rol_moves (hn : 0 < n) (c : Bool) (k : Nat) : Shift.Rol.move^[k] (Row.of n f, c) =
    (Row.of n fun i => f (((i : Int) - k) % n).toNat, if k = 0 then c else f ((-(k : Int)) % n).toNat) := by
  induction k with
  | zero =>
    refine Prod.ext (Row.of_congr fun i hi => ?_) rfl
    rw [cast_zero, Int.sub_zero, Int.emod_eq_of_lt (by omega) (by omega), Int.toNat_natCast]
  | succ k ih =>
    have hLast : ((n - 1 : Nat) : Int) - k = -((k + 1 : Nat) : Int) + n := by omega
    rw [Function.iterate_succ_apply', ih, Shift.move, Row.up_of, Row.last_of _ hn, if_neg (succ_ne_zero k)]
    refine Prod.ext (Row.of_congr fun i hi => ?_) ?_
    · cases i with
      | zero =>
        rw [if_pos rfl, hLast, Int.add_emod_right, cast_zero, Int.zero_sub]
      | succ i =>
        have hSame : ((i + 1 - 1 : Nat) : Int) - k = ((i + 1 : Nat) : Int) - (k + 1 : Nat) := by omega
        rw [if_neg (succ_ne_zero i), hSame]
    · dsimp only
      rw [hLast, Int.add_emod_right]

theorem ror_moves (hn : 0 < n) (c : Bool) (k : Nat) : Shift.Ror.move^[k] (Row.of n f, c) =
    (Row.of n fun i => f ((i + k) % n), if k = 0 then c else f ((k - 1) % n)) := by
  induction k with
  | zero =>
    refine Prod.ext (Row.of_congr fun i hi => ?_) rfl
    rw [add_zero, Nat.mod_eq_of_lt hi]
  | succ k ih =>
    rw [Function.iterate_succ_apply', ih, Shift.move, Row.down_of, Row.first_of _ hn, if_neg (succ_ne_zero k)]
    refine Prod.ext (Row.of_congr fun i hi => ?_) ?_
    · split
      · rename_i hEnd
        have hSum : i + (k + 1) = 0 + k + n := by omega
        rw [hSum, add_mod_right]
      · have hSum : i + 1 + k = i + (k + 1) := by omega
        rw [hSum]
    · dsimp only
      rw [Nat.zero_add, Nat.add_sub_cancel]

end Bits

/-! ## The flags -/

section Marks

variable {size count : Nat} {s : CpuState} {r : U64} {cf of : Bool}

def marked (s : CpuState) (cf : Bool) (count : Nat) (of : Bool) : CpuState :=
  let s := s.setFlag flags.CF cf
  if count = 1 then s.setFlag flags.OF of else s

theorem marked_rest (s : CpuState) (cf : Bool) (count : Nat) (of : Bool) : marked s cf count of = { s with rflags := (marked s cf count of).rflags } := by
  unfold marked
  dsimp only
  split <;> rfl

theorem marked_cf : (marked s cf count of).flag flags.CF = cf := by
  unfold marked
  rw [cf_eq, of_eq]
  dsimp only
  split
  · rw [flag_setFlag _ _ (by decide), if_neg (by decide), flag_setFlag _ _ (by decide), if_pos rfl]
  · rw [flag_setFlag _ _ (by decide), if_pos rfl]

theorem marked_of (h : count = 1) : (marked s cf count of).flag flags.OF = of := by
  unfold marked
  rw [of_eq]
  dsimp only
  rw [if_pos h, flag_setFlag _ _ (by decide), if_pos rfl]

theorem marked_kept {i : Nat} (hi : i < 64) (hOut : i ∉ [0, 11]) : (marked s cf count of).rflags.getLsbD i = s.rflags.getLsbD i := by
  rw [List.mem_cons, List.mem_singleton, not_or] at hOut
  unfold marked
  rw [cf_eq, of_eq]
  dsimp only
  split
  · rw [getLsbD_setFlag _ _ hi, if_neg hOut.2, getLsbD_setFlag _ _ hi, if_neg hOut.1]
  · rw [getLsbD_setFlag _ _ hi, if_neg hOut.1]

theorem setSzp_rest (s : CpuState) (r : U64) (size : Nat) : setSzp s r size = { s with rflags := (setSzp s r size).rflags } := rfl

theorem setSzp_kept {i : Nat} (hi : i < 64) (hOut : i ∉ [2, 6, 7]) : (setSzp s r size).rflags.getLsbD i = s.rflags.getLsbD i := by
  rw [List.mem_cons, List.mem_cons, List.mem_singleton, not_or, not_or] at hOut
  unfold setSzp
  rw [zf_eq, sf_eq, pf_eq]
  dsimp only
  rw [getLsbD_setFlag _ _ hi, if_neg hOut.1, getLsbD_setFlag _ _ hi, if_neg hOut.2.2, getLsbD_setFlag _ _ hi, if_neg hOut.2.1]

theorem setSzp_flag {i : Nat} (hi : i < 64) (hOut : i ∉ [2, 6, 7]) : (setSzp s r size).flag (BitVec.twoPow 64 i) = s.flag (BitVec.twoPow 64 i) := by
  rw [flag_eq _ hi, flag_eq _ hi, setSzp_kept hi hOut]

theorem setSzp_result (hSize : isUintSize size = true) (hRange : r.toNat < 2 ^ (8 * size)) (s : CpuState) :
    ((setSzp s r size).flag flags.ZF = true ↔ r = 0) ∧ ((setSzp s r size).flag flags.SF = true ↔ 2 ^ (8 * size - 1) ≤ r.toNat) ∧
      ((setSzp s r size).flag flags.PF = true ↔ Even (countOnes r)) := by
  have hMasked : r &&& mask size = r := eq_of_toNat_eq (by rw [toNat_and_mask r hSize, unsigned, Nat.mod_eq_of_lt hRange])
  have hSign : (r &&& signBit size != 0) = decide (2 ^ (8 * size - 1) ≤ r.toNat) := by
    rw [signBit_ne_zero r hSize, sign_of_lt hSize hRange]
  have hParity : parity r = decide (Even (countOnes r)) := by
    unfold parity
    rw [Bool.eq_iff_iff, beq_iff_eq, decide_eq_true_iff, even_iff]
  unfold setSzp
  dsimp only
  rw [hMasked, hSign, hParity, pf_eq, zf_eq, sf_eq]
  simp [flag_setFlag]

end Marks

/-! ## The operations -/

section Operations

variable {size : Nat} {kind : Shift} {s : CpuState} {val count r : U64} {cf of : Bool}

theorem Shifts.of_shift (hSize : isUintSize size = true) (hTouches : kind.touches = [0, 2, 6, 7, 11])
    (hSome : maskedCount count size ≠ 0) (hRange : r.toNat < 2 ^ (8 * size))
    (hRow : (bitRow (8 * size) r, cf) = kind.move^[maskedCount count size] (bitRow (8 * size) val, s.flag flags.CF))
    (hOf : maskedCount count size = 1 → of = kind.overflow (bitRow (8 * size) val, s.flag flags.CF) (bitRow (8 * size) r, cf)) :
    Shifts kind s (setSzp (marked s cf (maskedCount count size) of) r size) val count size r := by
  have hCarry : (setSzp (marked s cf (maskedCount count size) of) r size).flag flags.CF = cf := by
    rw [cf_eq, setSzp_flag (by decide) (by decide), ← cf_eq, marked_cf]
  refine ⟨hRange, hCarry.symm ▸ hRow, fun hZero => absurd hZero hSome, fun hOne => ?_, ?_, fun i hi hOut => ?_, fun _ _ => setSzp_result hSize hRange _⟩
  · rw [hCarry, of_eq, setSzp_flag (by decide) (by decide), ← of_eq, marked_of hOne, hOf hOne]
  · rw [setSzp_rest, marked_rest]
  · rw [hTouches] at hOut
    rw [setSzp_kept hi (by simp_all), marked_kept hi (by simp_all)]

theorem Shifts.of_rotate (hTouches : kind.touches = [0, 11]) (hSome : maskedCount count size ≠ 0) (hRange : r.toNat < 2 ^ (8 * size))
    (hRow : (bitRow (8 * size) r, cf) = kind.move^[maskedCount count size] (bitRow (8 * size) val, s.flag flags.CF))
    (hOf : maskedCount count size = 1 → of = kind.overflow (bitRow (8 * size) val, s.flag flags.CF) (bitRow (8 * size) r, cf)) :
    Shifts kind s (marked s cf (maskedCount count size) of) val count size r := by
  refine ⟨hRange, marked_cf.symm ▸ hRow, fun hZero => absurd hZero hSome, fun hOne => ?_, marked_rest _ _ _ _, fun i hi hOut => ?_, fun _ hSix => ?_⟩
  · rw [marked_cf, marked_of hOne, hOf hOne]
  · exact marked_kept hi (hTouches ▸ hOut)
  · rw [hTouches] at hSix
    exact absurd hSix (by decide)

variable {n : Nat}

theorem hostShl_eq {v : U64} (h : n < 64) : hostShl v n = some (v <<< n) := if_pos h

theorem hostShr_eq {v : U64} (h : n < 64) : hostShr v n = some (v >>> n) := if_pos h

theorem hostSar_eq {v : U64} (h : n < 64) : hostSar v n = some (v.sshiftRight n) := if_pos h

theorem hostSub_eq {a b : Nat} (h : b ≤ a) : hostSub a b = some (a - b) := if_pos h

theorem maskedCount_lt (count : U64) (size : Nat) : maskedCount count size < 64 := by
  unfold maskedCount
  rw [toNat_and]
  refine lt_of_le_of_lt and_le_right ?_
  split <;> decide

theorem bits_pos (hSize : isUintSize size = true) : 0 < 8 * size := by
  rcases isUintSize_iff.mp hSize with rfl | rfl | rfl | rfl <;> decide

theorem bits_le (hSize : isUintSize size = true) : 8 * size ≤ 64 := by
  rcases isUintSize_iff.mp hSize with rfl | rfl | rfl | rfl <;> decide

theorem cut_lt (v : U64) (hSize : isUintSize size = true) : (v &&& mask size).toNat < 2 ^ (8 * size) := by
  rw [toNat_and_mask v hSize]
  exact unsigned_lt size v

theorem last_bitRow (hSize : isUintSize size = true) (v : U64) : Row.last (bitRow (8 * size) v) = (v &&& signBit size != 0) := by
  rw [bitRow, Row.last_of _ (bits_pos hSize), signBit_ne_zero v hSize]

theorem shl_shifts (hSize : isUintSize size = true) (hSome : maskedCount count size ≠ 0) :
    ∃ p, shl s (val &&& mask size) (maskedCount count size) size = some p ∧ Shifts .Shl s p.1 val count size p.2 := by
  have hCount := maskedCount_lt count size
  have hBits := bits_le hSize
  generalize hk : maskedCount count size = k at hSome hCount ⊢
  let cf := decide (k ≤ 8 * size) && val.getLsbD (8 * size - k)
  let r := ((val &&& mask size) <<< k) &&& mask size
  have hCarry : shlCarry (val &&& mask size) k (size * 8) = some cf := by
    unfold shlCarry
    rw [mul_comm size 8]
    split
    · rename_i hIn
      rw [hostSub_eq hIn, Option.bind_eq_bind, Option.bind_some, hostShr_eq (by omega), Option.bind_eq_bind, Option.bind_some, carried _ (by decide),
        getLsbD_cut _ hSize]
      simp [cf, hIn, show 8 * size - k < 8 * size by omega]
    · rename_i hOut
      simp [cf, hOut]
  have hRow : bitRow (8 * size) r = Row.of (8 * size) fun i => decide (k ≤ i) && val.getLsbD (i - k) := by
    refine Row.of_congr fun i hi => ?_
    rw [getLsbD_cut _ hSize, getLsbD_shiftLeft, getLsbD_cut _ hSize]
    rcases lt_or_ge i k with hLow | hHigh
    · simp [hLow, Nat.not_le.mpr hLow]
    · simp [hi, hHigh, Nat.not_lt.mpr hHigh, show i < 64 by omega, show i - k < 8 * size by omega]
  refine ⟨(setSzp (marked s cf k ((r &&& signBit size != 0) ^^ cf)) r size, r), ?_, ?_⟩
  · unfold shl
    dsimp only
    rw [hCarry, hostShl_eq hCount]
    rfl
  · subst hk
    refine Shifts.of_shift hSize rfl hSome (cut_lt _ hSize) ?_ fun _ => ?_
    · rw [hRow, bitRow, shl_moves (bits_pos hSize), if_neg hSome]
    · rw [Shift.overflow, last_bitRow hSize]

theorem first_bitRow (hSize : isUintSize size = true) (v : U64) : Row.first (bitRow (8 * size) v) = v.getLsbD 0 :=
  Row.first_of _ (bits_pos hSize)

theorem shr_shifts (hSize : isUintSize size = true) (hSome : maskedCount count size ≠ 0) :
    ∃ p, shr s (val &&& mask size) (maskedCount count size) size = some p ∧ Shifts .Shr s p.1 val count size p.2 := by
  have hCount := maskedCount_lt count size
  have hBits := bits_le hSize
  generalize hk : maskedCount count size = k at hSome hCount ⊢
  let cf := decide (k ≤ 8 * size) && val.getLsbD (k - 1)
  let r := (val &&& mask size) >>> k
  have hCarry : ((val &&& mask size) >>> (k - 1) &&& 1 != 0) = cf := by
    rw [carried _ (by decide), getLsbD_cut _ hSize]
    congr 1
    exact decide_eq_decide.mpr (by omega)
  have hRow : bitRow (8 * size) r = Row.of (8 * size) fun i => decide (i + k < 8 * size) && val.getLsbD (i + k) := by
    refine Row.of_congr fun i _ => ?_
    rw [getLsbD_ushiftRight, getLsbD_cut _ hSize, add_comm k i]
  have hRange : r.toNat < 2 ^ (8 * size) := by
    rw [toNat_ushiftRight, shiftRight_eq_div_pow]
    exact lt_of_le_of_lt (div_le_self _ _) (cut_lt val hSize)
  refine ⟨(setSzp (marked s cf k ((val &&& mask size) &&& signBit size != 0)) r size, r), ?_, ?_⟩
  · unfold shr
    dsimp only
    rw [hostShr_eq (by omega), hostShr_eq hCount, Option.bind_eq_bind, Option.bind_some, hCarry]
    rfl
  · subst hk
    refine Shifts.of_shift hSize rfl hSome hRange ?_ fun _ => ?_
    · rw [hRow, bitRow, shr_moves (bits_pos hSize), if_neg hSome]
    · rw [Shift.overflow, last_bitRow hSize, signBit_ne_zero _ hSize, signBit_ne_zero _ hSize, getLsbD_cut _ hSize]
      simp [bits_pos hSize]

theorem sar_shifts (hSize : isUintSize size = true) (hSome : maskedCount count size ≠ 0) :
    ∃ p, sar s (val &&& mask size) (maskedCount count size) size = some p ∧ Shifts .Sar s p.1 val count size p.2 := by
  have hCount := maskedCount_lt count size
  have hBits := bits_le hSize
  generalize hk : maskedCount count size = k at hSome hCount ⊢
  let cf := val.getLsbD (min (k - 1) (8 * size - 1))
  let r := (sext (val &&& mask size) size).sshiftRight k &&& mask size
  have hSext : ∀ i < 64, (sext (val &&& mask size) size).getLsbD i = val.getLsbD (min i (8 * size - 1)) := by
    intro i hi
    rw [getLsbD_sext _ hSize hi, getLsbD_cut _ hSize]
    have hIn := bits_pos hSize
    simp [show min i (8 * size - 1) < 8 * size by omega]
  have hCarry : ((sext (val &&& mask size) size) >>> (k - 1) &&& 1 != 0) = cf := by
    rw [carried _ (by decide), hSext _ (by omega)]
  have hRow : bitRow (8 * size) r = Row.of (8 * size) fun i => val.getLsbD (min (i + k) (8 * size - 1)) := by
    refine Row.of_congr fun i hi => ?_
    rw [getLsbD_cut _ hSize, getLsbD_sshiftRight, msb_eq_getLsbD_last]
    simp only [hi, decide_true, Bool.true_and, show ¬64 ≤ i by omega, decide_false, Bool.not_false]
    split
    · rename_i hIn
      rw [hSext _ hIn, add_comm k i]
    · rw [hSext _ (by decide)]
      congr 1
      omega
  refine ⟨(setSzp (marked s cf k false) r size, r), ?_, ?_⟩
  · unfold sar
    dsimp only
    rw [hostShr_eq (by omega), hostSar_eq hCount, Option.bind_eq_bind, Option.bind_some, hCarry]
    rfl
  · subst hk
    refine Shifts.of_shift hSize rfl hSome (cut_lt _ hSize) ?_ fun _ => rfl
    rw [hRow, bitRow, sar_moves (bits_pos hSize), if_neg hSome]

theorem rol_index {i : Nat} (hi : i < n) (k : Nat) : (((i : Int) - k) % n).toNat = if k % n ≤ i then i - k % n else i + n - k % n := by
  have hRest := mod_lt k (show 0 < n by omega)
  have hSplit : ((k : Nat) : Int) = n * (k / n : Nat) + (k % n : Nat) := by exact_mod_cast (div_add_mod k n).symm
  have hMove : (i : Int) - k = (i - (k % n : Nat)) + n * (-(k / n : Nat)) := by
    rw [hSplit, Int.mul_neg]
    omega
  rw [hMove, Int.add_mul_emod_self_left]
  split
  · rw [Int.emod_eq_of_lt (by omega) (by omega)]
    omega
  · rw [← Int.add_emod_right, Int.emod_eq_of_lt (by omega) (by omega)]
    omega

theorem ror_index {i : Nat} (hi : i < n) (k : Nat) : (i + k) % n = if i + k % n < n then i + k % n else i + k % n - n := by
  have hRest := mod_lt k (show 0 < n by omega)
  rw [← add_mod_mod]
  split
  · rename_i hIn
    exact Nat.mod_eq_of_lt hIn
  · rw [mod_eq_sub_mod (by omega), Nat.mod_eq_of_lt (by omega)]

theorem rest_of_count {k : Nat} (hn : 0 < n) : (n - k % n) % n = if k % n = 0 then 0 else n - k % n := by
  have hRest := mod_lt k hn
  split
  · rename_i hZero
    rw [hZero, Nat.sub_zero, Nat.mod_self]
  · exact Nat.mod_eq_of_lt (by omega)

theorem rol_shifts (hSize : isUintSize size = true) (hSome : maskedCount count size ≠ 0) :
    ∃ p, rol s (val &&& mask size) (maskedCount count size) size = some p ∧ Shifts .Rol s p.1 val count size p.2 := by
  have hBits := bits_le hSize
  have hPos := bits_pos hSize
  generalize hk : maskedCount count size = k at hSome ⊢
  have hRest := mod_lt k hPos
  let r := (((val &&& mask size) <<< (k % (8 * size))) ||| ((val &&& mask size) >>> ((8 * size - k % (8 * size)) % (8 * size)))) &&& mask size
  have hRow : bitRow (8 * size) r = Row.of (8 * size) fun i => val.getLsbD (((i : Int) - k) % (8 * size : Nat)).toNat := by
    refine Row.of_congr fun i hi => ?_
    rw [getLsbD_cut _ hSize, getLsbD_or, getLsbD_shiftLeft, getLsbD_ushiftRight, getLsbD_cut _ hSize, getLsbD_cut _ hSize,
      rol_index hi, rest_of_count hPos]
    generalize k % (8 * size) = c at hRest ⊢
    rcases lt_or_ge i c with hLow | hHigh
    · simp [hi, hLow, show c ≠ 0 by omega, Nat.not_le.mpr hLow, show 8 * size - c + i = i + 8 * size - c by omega,
        show i + 8 * size - c < 8 * size by omega]
    · rcases Nat.eq_zero_or_pos c with rfl | hSomeCount
      · simp [hi, show i < 64 by omega]
      · simp [hi, hHigh, show i < 64 by omega, show i - c < 8 * size by omega, Nat.not_lt.mpr hHigh, show c ≠ 0 by omega,
          show ¬8 * size - c + i < 8 * size by omega]
  have hLow : r.getLsbD 0 = val.getLsbD ((-(k : Int)) % (8 * size : Nat)).toNat := by
    have hZero := Row.of_injective hRow hPos
    rwa [cast_zero, Int.zero_sub] at hZero
  have hCarry : (r &&& 1 != 0) = val.getLsbD ((-(k : Int)) % (8 * size : Nat)).toNat := by
    rw [← hLow, ← carried r (by decide) 0, ushiftRight_zero]
  refine ⟨(marked s (r &&& 1 != 0) k ((r &&& signBit size != 0) ^^ (r &&& 1 != 0)), r), ?_, ?_⟩
  · unfold rol
    dsimp only
    have hDown := mod_lt (8 * size - k % (8 * size)) hPos
    rw [mul_comm size 8, hostShl_eq (by omega), hostSub_eq hRest.le, Option.bind_eq_bind, Option.bind_some, Option.bind_eq_bind, Option.bind_some,
      hostShr_eq (by omega)]
    rfl
  · subst hk
    refine Shifts.of_rotate rfl hSome (cut_lt _ hSize) ?_ fun _ => ?_
    · rw [hRow, hCarry, bitRow, rol_moves hPos, if_neg hSome]
    · rw [Shift.overflow, last_bitRow hSize]

theorem signBit_half (hSize : isUintSize size = true) (v : U64) : (v &&& (signBit size >>> 1) != 0) = v.getLsbD (8 * size - 1 - 1) := by
  have hHalf : signBit size >>> 1 = BitVec.twoPow 64 (8 * size - 1 - 1) := by
    rcases isUintSize_iff.mp hSize with rfl | rfl | rfl | rfl <;> decide
  have hTop := bits_le hSize
  have hPos := bits_pos hSize
  rw [hHalf, and_twoPow_ne_zero _ (by omega)]

theorem ror_shifts (hSize : isUintSize size = true) (hSome : maskedCount count size ≠ 0) :
    ∃ p, ror s (val &&& mask size) (maskedCount count size) size = some p ∧ Shifts .Ror s p.1 val count size p.2 := by
  have hBits := bits_le hSize
  have hPos := bits_pos hSize
  generalize hk : maskedCount count size = k at hSome ⊢
  have hRest := mod_lt k hPos
  let r := (((val &&& mask size) >>> (k % (8 * size))) ||| ((val &&& mask size) <<< ((8 * size - k % (8 * size)) % (8 * size)))) &&& mask size
  have hRow : bitRow (8 * size) r = Row.of (8 * size) fun i => val.getLsbD ((i + k) % (8 * size)) := by
    refine Row.of_congr fun i hi => ?_
    rw [getLsbD_cut _ hSize, getLsbD_or, getLsbD_shiftLeft, getLsbD_ushiftRight, getLsbD_cut _ hSize, getLsbD_cut _ hSize,
      ror_index hi, rest_of_count hPos]
    generalize k % (8 * size) = c at hRest ⊢
    rcases lt_or_ge (i + c) (8 * size) with hLow | hHigh
    · rcases Nat.eq_zero_or_pos c with rfl | hSomeCount
      · simp [hi, show i < 64 by omega]
      · simp [hi, hLow, show c ≠ 0 by omega, show i < 8 * size - c by omega, add_comm c i]
    · simp [hi, show c ≠ 0 by omega, show ¬i + c < 8 * size by omega, show ¬c + i < 8 * size by omega, show ¬i < 8 * size - c by omega,
        show i < 64 by omega, show i - (8 * size - c) = i + c - 8 * size by omega, show i + c - 8 * size < 8 * size by omega]
  have hCarry : (r &&& signBit size != 0) = val.getLsbD ((k - 1) % (8 * size)) := by
    have hLast := Row.of_injective hRow (show 8 * size - 1 < 8 * size by omega)
    have hSum : 8 * size - 1 + k = k - 1 + 8 * size := by omega
    rw [signBit_ne_zero r hSize, hLast, hSum, add_mod_right]
  refine ⟨(marked s (r &&& signBit size != 0) k ((r &&& signBit size != 0) ^^ (r &&& (signBit size >>> 1) != 0)), r), ?_, ?_⟩
  · unfold ror
    dsimp only
    have hDown := mod_lt (8 * size - k % (8 * size)) hPos
    rw [mul_comm size 8, hostShr_eq (by omega), hostSub_eq hRest.le, Option.bind_eq_bind, Option.bind_some, Option.bind_eq_bind, Option.bind_some,
      hostShl_eq (by omega)]
    rfl
  · subst hk
    refine Shifts.of_rotate rfl hSome (cut_lt _ hSize) ?_ fun _ => ?_
    · rw [hRow, hCarry, bitRow, ror_moves hPos, if_neg hSome]
    · rw [Shift.overflow, last_bitRow hSize, bitRow, Row.dropLast_of, Row.last_of _ (by rcases isUintSize_iff.mp hSize with rfl | rfl | rfl | rfl <;> decide),
        signBit_half hSize]

/-! ## Through the carry -/

theorem bit_of_carry (c : Bool) (i : Nat) : (if c then (1 : U64) else 0).getLsbD i = (decide (i = 0) && c) := by
  cases c
  · simp
  · simp

section

variable (hSize : isUintSize size = true)
include hSize

theorem rclStep_moves (x : U64 × Bool) : (bitRow (8 * size) (rclStep size x).1, (rclStep size x).2) = Shift.Rcl.move (bitRow (8 * size) x.1, x.2) := by
  have hBits := bits_le hSize
  refine Prod.ext ?_ (last_bitRow hSize x.1).symm
  rw [Shift.move, bitRow, bitRow, Row.up_of]
  refine Row.of_congr fun i hi => ?_
  rw [rclStep, getLsbD_cut _ hSize, getLsbD_or, getLsbD_shiftLeft, bit_of_carry]
  cases i with
  | zero => simp [hi]
  | succ i => simp [hi, show i + 1 < 64 by omega]

theorem rcrStep_moves {x : U64 × Bool} (hRange : x.1.toNat < 2 ^ (8 * size)) :
    (bitRow (8 * size) (rcrStep size x).1, (rcrStep size x).2) = Shift.Rcr.move (bitRow (8 * size) x.1, x.2) ∧
      (rcrStep size x).1.toNat < 2 ^ (8 * size) := by
  have hBits := bits_le hSize
  have hPos := bits_pos hSize
  have hHigh : ∀ i, 8 * size ≤ i → x.1.getLsbD i = false := fun i hi =>
    Nat.testBit_lt_two_pow (hRange.trans_le (Nat.pow_le_pow_right (by decide) hi))
  have hBit : ∀ i, i < 64 → (rcrStep size x).1.getLsbD i = if i + 1 = 8 * size then x.2 else decide (i + 1 < 8 * size) && x.1.getLsbD (i + 1) := by
    intro i hi
    have hIn : ((if x.2 then (1 : U64) else 0) <<< (size * 8 - 1)).getLsbD i = (decide (i + 1 = 8 * size) && x.2) := by
      rw [getLsbD_shiftLeft, bit_of_carry]
      rcases Nat.lt_trichotomy i (size * 8 - 1) with hLow | rfl | hOver
      · simp [hLow, show ¬i + 1 = 8 * size by omega]
      · simp [hi, show size * 8 - 1 + 1 = 8 * size by omega]
      · simp [show ¬i + 1 = 8 * size by omega, show ¬i - (size * 8 - 1) = 0 by omega]
    rw [rcrStep, getLsbD_or, getLsbD_ushiftRight, hIn, add_comm 1 i]
    split
    · rename_i hEnd
      simp [hEnd, hHigh]
    · rename_i hOther
      rcases lt_or_ge (i + 1) (8 * size) with hLow | hOut
      · simp [hOther, hLow]
      · simp [hOther, hHigh _ hOut]
  refine ⟨Prod.ext ?_ ?_, ?_⟩
  · rw [Shift.move, bitRow, bitRow, Row.down_of]
    refine Row.of_congr fun i hi => ?_
    rw [hBit i (by omega)]
    split
    · rfl
    · simp [show i + 1 < 8 * size by omega]
  · rw [Shift.move, first_bitRow hSize, ← carried x.1 (by decide) 0, ushiftRight_zero]
    rfl
  · refine lt_pow_two_of_testBit _ fun i hi => ?_
    change (rcrStep size x).1.getLsbD i = false
    rcases lt_or_ge i 64 with hIn | hOut
    · rw [hBit i hIn]
      simp [show ¬i + 1 = 8 * size by omega, show ¬i + 1 < 8 * size by omega]
    · exact getLsbD_of_ge _ i hOut

theorem rcl_loop (x : U64 × Bool) (n : Nat) :
    (bitRow (8 * size) ((rclStep size)^[n] x).1, ((rclStep size)^[n] x).2) = Shift.Rcl.move^[n] (bitRow (8 * size) x.1, x.2) := by
  have hStep : Function.Semiconj (fun x : U64 × Bool => (bitRow (8 * size) x.1, x.2)) (rclStep size) Shift.Rcl.move := rclStep_moves hSize
  exact hStep.iterate_right n x

theorem rcr_loop {x : U64 × Bool} (hRange : x.1.toNat < 2 ^ (8 * size)) (n : Nat) :
    (bitRow (8 * size) ((rcrStep size)^[n] x).1, ((rcrStep size)^[n] x).2) = Shift.Rcr.move^[n] (bitRow (8 * size) x.1, x.2) ∧
      ((rcrStep size)^[n] x).1.toNat < 2 ^ (8 * size) := by
  induction n with
  | zero => exact ⟨rfl, hRange⟩
  | succ n ih =>
    obtain ⟨hMoved, hIn⟩ := rcrStep_moves hSize ih.2
    rw [Function.iterate_succ_apply', Function.iterate_succ_apply', ← ih.1]
    exact ⟨hMoved, hIn⟩

theorem bitRow_cut (v : U64) : bitRow (8 * size) (v &&& mask size) = bitRow (8 * size) v :=
  Row.of_congr fun i hi => by simp [getLsbD_cut _ hSize, hi]

theorem rcl_shifts (hSome : maskedCount count size ≠ 0) :
    let p := rcEnd s .Rcl (maskedCount count size) size ((rclStep size)^[maskedCount count size] (val &&& mask size, s.flag flags.CF))
    Shifts .Rcl s p.1 val count size p.2 := by
  have hLoop := rcl_loop hSize (val &&& mask size, s.flag flags.CF) (maskedCount count size)
  have hCut := bitRow_cut hSize ((rclStep size)^[maskedCount count size] (val &&& mask size, s.flag flags.CF)).1
  rw [bitRow_cut hSize] at hLoop
  refine Shifts.of_rotate rfl hSome (cut_lt _ hSize) ?_ fun _ => ?_
  · exact (congrArg (·, _) hCut).trans hLoop
  · rw [Shift.overflow, if_pos rfl]
    exact congrArg (· ^^ _) ((congrArg Row.last hCut).trans (last_bitRow hSize _)).symm

theorem rcr_shifts (hSome : maskedCount count size ≠ 0) :
    let p := rcEnd s .Rcr (maskedCount count size) size ((rcrStep size)^[maskedCount count size] (val &&& mask size, s.flag flags.CF))
    Shifts .Rcr s p.1 val count size p.2 := by
  obtain ⟨hLoop, -⟩ := rcr_loop hSize (x := (val &&& mask size, s.flag flags.CF)) (cut_lt val hSize) (maskedCount count size)
  have hCut := bitRow_cut hSize ((rcrStep size)^[maskedCount count size] (val &&& mask size, s.flag flags.CF)).1
  rw [bitRow_cut hSize] at hLoop
  refine Shifts.of_rotate rfl hSome (cut_lt _ hSize) ?_ fun hOne => ?_
  · exact (congrArg (·, _) hCut).trans hLoop
  · have hPos := bits_pos hSize
    have hBelow : 8 * size - 1 - 1 + 1 = 8 * size - 1 := by
      rcases isUintSize_iff.mp hSize with rfl | rfl | rfl | rfl <;> rfl
    -- what came in is the carry, and the bit below it is the one that was on top
    have hRow := congrArg Prod.fst hLoop
    rw [hOne, Function.iterate_one, Function.iterate_one, Shift.move, bitRow, bitRow, Row.down_of] at hRow
    have hTop := Row.of_injective hRow (show 8 * size - 1 < 8 * size by omega)
    have hNext := Row.of_injective hRow (show 8 * size - 1 - 1 < 8 * size by omega)
    rw [if_pos (by omega)] at hTop
    rw [if_neg (by omega), hBelow] at hNext
    rw [Shift.overflow, last_bitRow hSize, signBit_ne_zero _ hSize, signBit_ne_zero _ hSize, signBit_half hSize, hOne, Function.iterate_one, hTop, hNext,
      if_neg (by decide), Bool.xor_comm]

end

/-- Every shift and rotation is the movement of the row of bits, and asks nothing of the host that it does not do. -/
theorem shift_shifts (hSize : VirtualMemory.isUintSize size = true) (s : CpuState) (kind : Shift) (val count : U64) :
    ∃ s' r, shift s kind val count size = some (s', r) ∧ Shifts kind s s' val count size r := by
  unfold shift
  dsimp only
  split
  · rename_i hZero
    refine ⟨s, val &&& mask size, rfl, cut_lt val hSize, ?_, fun _ => rfl, fun hOne => by omega, rfl, fun _ _ _ => rfl, fun hSome => absurd hZero hSome⟩
    rw [bitRow_cut hSize, hZero]
    rfl
  · rename_i hSome
    cases kind with
    | Rol =>
      obtain ⟨p, hRun, hShifts⟩ := @rol_shifts size s val count hSize hSome
      exact ⟨p.1, p.2, hRun, hShifts⟩
    | Ror =>
      obtain ⟨p, hRun, hShifts⟩ := @ror_shifts size s val count hSize hSome
      exact ⟨p.1, p.2, hRun, hShifts⟩
    | Rcl => exact ⟨_, _, rfl, rcl_shifts hSize hSome⟩
    | Rcr => exact ⟨_, _, rfl, rcr_shifts hSize hSome⟩
    | Shl =>
      obtain ⟨p, hRun, hShifts⟩ := @shl_shifts size s val count hSize hSome
      exact ⟨p.1, p.2, hRun, hShifts⟩
    | Shr =>
      obtain ⟨p, hRun, hShifts⟩ := @shr_shifts size s val count hSize hSome
      exact ⟨p.1, p.2, hRun, hShifts⟩
    | Sar =>
      obtain ⟨p, hRun, hShifts⟩ := @sar_shifts size s val count hSize hSome
      exact ⟨p.1, p.2, hRun, hShifts⟩

theorem shift_shifts_of_byte : ∃ s' r, shift {} .Rcl 0x81 11 1 = some (s', r) ∧ Shifts .Rcl {} s' 0x81 11 1 r :=
  shift_shifts (by decide) {} .Rcl 0x81 11

end Operations

end Interp

end Exemu
