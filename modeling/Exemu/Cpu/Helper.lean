import Exemu.Cpu.Packed

/-! # Every helper and its arithmetic

One name for each packed helper, with the parameters its handlers give it: what the code computes,
and what each lane of the result is.
-/
namespace Exemu.Interp

open Lanes Words

inductive Helper where
  | punpck (esz : Nat) (high : Bool)
  | pcmp (esz : Nat) (gt : Bool)
  | addSub (esz : Nat) (add : Bool)
  | addSubSat (esz : Nat) (add signed : Bool)
  | pmullw
  | pmulh (signed : Bool)
  | pmuludq
  | pmaddwd
  | pavg (esz : Nat)
  | psadbw
  | pack (esz : Nat) (signedOut : Bool)
  | byteMinmax (up : Bool)
  | shiftR (esz : Nat) (count : U64) (arith : Bool)
  | shiftL (esz : Nat) (count : U64)
  | pmaddubsw
  | psign (esz : Nat)
  | pmulhrsw
  | pabs (esz : Nat)
  | blendVar (mask : U128) (esz : Nat)
  | blendImm (imm : U8) (esz : Nat)
  | pmovx (srcSz dstSz : Nat) (sign : Bool)
  | pmuldq
  | packusdw
  | intMinmax (esz : Nat) (signed up : Bool)
  | pmulld
  | palignr (imm : U8)
  | mpsadbw (imm : U8)
  deriving DecidableEq

namespace Helper

def Valid : Helper → Prop
  | punpck esz _ | pcmp esz _ | addSub esz _ | shiftR esz _ _ | shiftL esz _ | psign esz | pabs esz | blendVar _ esz | intMinmax esz _ _ => IsElem esz
  | addSubSat esz _ _ | pavg esz => IsElem esz ∧ esz ≤ 4
  | pack esz _ => esz = 2 ∨ esz = 4
  | blendImm _ esz => IsElem esz ∧ 2 ≤ esz
  | pmovx srcSz dstSz _ => IsElem srcSz ∧ IsElem dstSz ∧ srcSz < dstSz
  | _ => True

def run : Helper → U128 → U128 → U128
  | punpck esz high, a, b => Interp.punpck a b esz high
  | pcmp esz gt, a, b => Interp.pcmp a b esz gt
  | addSub esz add, a, b => Interp.addSub a b esz add
  | addSubSat esz add signed, a, b => Interp.addSubSat a b esz add signed
  | pmullw, a, b => Interp.pmullw a b
  | pmulh signed, a, b => Interp.pmulh a b signed
  | pmuludq, a, b => Interp.pmuludq a b
  | pmaddwd, a, b => Interp.pmaddwd a b
  | pavg esz, a, b => Interp.pavg a b esz
  | psadbw, a, b => Interp.psadbw a b
  | pack esz signedOut, a, b => Interp.pack a b esz signedOut
  | byteMinmax up, a, b => Interp.byteMinmax a b up
  | shiftR esz count arith, a, _ => Interp.shiftR a esz count arith
  | shiftL esz count, a, _ => Interp.shiftL a esz count
  | pmaddubsw, a, b => Interp.pmaddubsw a b
  | psign esz, a, b => Interp.psign a b esz
  | pmulhrsw, a, b => Interp.pmulhrsw a b
  | pabs esz, a, _ => Interp.pabs a esz
  | blendVar mask esz, a, b => Interp.blendVar a b mask esz
  | blendImm imm esz, a, b => Interp.blendImm a b imm esz
  | pmovx srcSz dstSz sign, a, _ => Interp.pmovx a srcSz dstSz sign
  | pmuldq, a, b => Interp.pmuldq a b
  | packusdw, a, b => Interp.packusdw a b
  | intMinmax esz signed up, a, b => Interp.intMinmax a b esz signed up
  | pmulld, a, b => Interp.pmulld a b
  | palignr imm, a, b => Interp.palignr a b imm
  | mpsadbw imm, a, b => Interp.mpsadbw a b imm

def width : Helper → Nat
  | punpck esz _ | pcmp esz _ | addSub esz _ | addSubSat esz _ _ | pavg esz | shiftR esz _ _ | shiftL esz _ | psign esz | pabs esz
  | blendVar _ esz | blendImm _ esz | intMinmax esz _ _ => esz * 8
  | pack esz _ => esz / 2 * 8
  | pmovx _ dstSz _ => dstSz * 8
  | pmullw | pmulh _ | pmaddubsw | pmulhrsw | packusdw | mpsadbw _ => 16
  | pmaddwd | pmulld => 32
  | pmuludq | pmuldq | psadbw => 64
  | byteMinmax _ | palignr _ => 8

/-- Lane `k` of the result, as arithmetic of lanes of the operands. -/
def value : (h : Helper) → U128 → U128 → Nat → BitVec h.width
  | punpck esz high, a, b, k => lane (esz * 8) ((if high then 16 / esz / 2 else 0) + k / 2) (if k % 2 = 0 then a else b)
  | pcmp esz gt, a, b, k =>
    if (if gt then (lane (esz * 8) k b).toInt < (lane (esz * 8) k a).toInt else lane (esz * 8) k a = lane (esz * 8) k b)
    then BitVec.allOnes (esz * 8) else 0
  | addSub esz add, a, b, k => if add then lane (esz * 8) k a + lane (esz * 8) k b else lane (esz * 8) k a - lane (esz * 8) k b
  | addSubSat esz add signed, a, b, k => saturate (esz * 8) signed
      (if add then number signed (lane (esz * 8) k a) + number signed (lane (esz * 8) k b)
        else number signed (lane (esz * 8) k a) - number signed (lane (esz * 8) k b))
  | pmullw, a, b, k => lane 16 k a * lane 16 k b
  | pmulh signed, a, b, k => BitVec.ofInt 16 (number signed (lane 16 k a) * number signed (lane 16 k b) / 2 ^ 16)
  | pmuludq, a, b, k => BitVec.ofInt 64 (number false (lane 32 (2 * k) a) * number false (lane 32 (2 * k) b))
  | pmaddwd, a, b, k => BitVec.ofInt 32
      ((lane 16 (2 * k) a).toInt * (lane 16 (2 * k) b).toInt + (lane 16 (2 * k + 1) a).toInt * (lane 16 (2 * k + 1) b).toInt)
  | pavg esz, a, b, k => BitVec.ofInt (esz * 8) ((number false (lane (esz * 8) k a) + number false (lane (esz * 8) k b) + 1) / 2)
  | psadbw, a, b, k => BitVec.ofInt 64 (distance a b (8 * k) (8 * k) 8)
  | pack esz signedOut, a, b, k => saturate (esz / 2 * 8) signedOut (lane (esz * 8) (k % (16 / esz)) (if k < 16 / esz then a else b)).toInt
  | byteMinmax up, a, b, k => BitVec.ofInt 8 (pick up (number false (lane 8 k a)) (number false (lane 8 k b)))
  | shiftR esz count arith, a, _, k => if arith then (lane (esz * 8) k a).sshiftRight count.toNat else lane (esz * 8) k a >>> count.toNat
  | shiftL esz count, a, _, k => lane (esz * 8) k a <<< count.toNat
  | pmaddubsw, a, b, k => saturate 16 true
      (number false (lane 8 (2 * k) a) * (lane 8 (2 * k) b).toInt + number false (lane 8 (2 * k + 1) a) * (lane 8 (2 * k + 1) b).toInt)
  | psign esz, a, b, k =>
    if (lane (esz * 8) k b).toInt < 0 then -lane (esz * 8) k a else if (lane (esz * 8) k b).toInt = 0 then 0 else lane (esz * 8) k a
  | pmulhrsw, a, b, k => BitVec.ofInt 16 (((lane 16 k a).toInt * (lane 16 k b).toInt / 2 ^ 14 + 1) / 2)
  | pabs esz, a, _, k => BitVec.ofInt (esz * 8) |(lane (esz * 8) k a).toInt|
  | blendVar mask esz, a, b, k => if (lane (esz * 8) k mask).msb then lane (esz * 8) k b else lane (esz * 8) k a
  | blendImm imm esz, a, b, k => if imm.getLsbD k then lane (esz * 8) k b else lane (esz * 8) k a
  | pmovx srcSz dstSz sign, a, _, k => BitVec.ofInt (dstSz * 8) (number sign (lane (srcSz * 8) k a))
  | pmuldq, a, b, k => BitVec.ofInt 64 ((lane 32 (2 * k) a).toInt * (lane 32 (2 * k) b).toInt)
  | packusdw, a, b, k => saturate 16 false (lane 32 (k % 4) (if k < 4 then a else b)).toInt
  | intMinmax esz signed up, a, b, k => BitVec.ofInt (esz * 8) (pick up (number signed (lane (esz * 8) k a)) (number signed (lane (esz * 8) k b)))
  | pmulld, a, b, k => lane 32 k a * lane 32 k b
  | palignr imm, a, b, k => if k + imm.toNat < 16 then lane 8 (k + imm.toNat) b else if k + imm.toNat < 32 then lane 8 (k + imm.toNat - 16) a else 0
  | mpsadbw imm, a, b, k => BitVec.ofInt 16 (distance a b (((imm >>> 2) &&& 1).toNat * 4 + k) ((imm &&& 3).toNat * 4) 4)

variable {h : Helper} {k : Nat} {a a' b b' : U128}

theorem lt_of_room {esz : Nat} (hElem : IsElem esz) (hRoom : k * (esz * 8) + esz * 8 ≤ 128) : k < 16 / esz := by
  rcases hElem with rfl | rfl | rfl | rfl <;> omega

theorem run_lane (hValid : h.Valid) (hRoom : k * h.width + h.width ≤ 128) (a b : U128) : lane h.width k (h.run a b) = h.value a b k := by
  cases h with
  | punpck esz high => exact lane_punpck hValid (lt_of_room hValid hRoom) high
  | pcmp esz gt => exact lane_pcmp hValid (lt_of_room hValid hRoom) gt
  | addSub esz add => exact lane_addSub hValid (lt_of_room hValid hRoom) add
  | addSubSat esz add signed => exact lane_addSubSat hValid.1 hValid.2 (lt_of_room hValid.1 hRoom) add signed
  | pmullw => exact lane_pmullw (by change k * 16 + 16 ≤ 128 at hRoom; omega)
  | pmulh signed => exact lane_pmulh (by change k * 16 + 16 ≤ 128 at hRoom; omega) signed
  | pmuludq => exact lane_pmuludq (by change k * 64 + 64 ≤ 128 at hRoom; omega)
  | pmaddwd => exact lane_pmaddwd (by change k * 32 + 32 ≤ 128 at hRoom; omega)
  | pavg esz => exact lane_pavg hValid.1 hValid.2 (lt_of_room hValid.1 hRoom)
  | psadbw => exact lane_psadbw (by change k * 64 + 64 ≤ 128 at hRoom; omega)
  | pack esz signedOut => 
    refine lane_pack hValid ?_ signedOut
    rcases hValid with rfl | rfl
    · exact lt_of_room (.inl rfl) hRoom
    · exact lt_of_room (.inr (.inl rfl)) hRoom
  | byteMinmax up => exact lane_byteMinmax (by change k * 8 + 8 ≤ 128 at hRoom; omega) up
  | shiftR esz count arith => exact lane_shiftR hValid (lt_of_room hValid hRoom) count arith
  | shiftL esz count => exact lane_shiftL hValid (lt_of_room hValid hRoom) count
  | pmaddubsw => exact lane_pmaddubsw (by change k * 16 + 16 ≤ 128 at hRoom; omega)
  | psign esz => exact lane_psign hValid (lt_of_room hValid hRoom)
  | pmulhrsw => exact lane_pmulhrsw (by change k * 16 + 16 ≤ 128 at hRoom; omega)
  | pabs esz => exact lane_pabs hValid (lt_of_room hValid hRoom)
  | blendVar mask esz => exact lane_blendVar hValid (lt_of_room hValid hRoom) mask
  | blendImm imm esz => exact lane_blendImm hValid.1 (lt_of_room hValid.1 hRoom) imm
  | pmovx srcSz dstSz sign => exact lane_pmovx hValid.1 hValid.2.1 (lt_of_room hValid.2.1 hRoom) sign
  | pmuldq => exact lane_pmuldq (by change k * 64 + 64 ≤ 128 at hRoom; omega)
  | packusdw => exact lane_packusdw (by change k * 16 + 16 ≤ 128 at hRoom; omega)
  | intMinmax esz signed up => exact lane_intMinmax hValid (lt_of_room hValid hRoom) signed up
  | pmulld => exact lane_pmulld (by change k * 32 + 32 ≤ 128 at hRoom; omega)
  | palignr imm => exact lane_palignr (by change k * 8 + 8 ≤ 128 at hRoom; omega) imm
  | mpsadbw imm => exact lane_mpsadbw (by change k * 16 + 16 ≤ 128 at hRoom; omega) imm

def Lanewise : Helper → Prop
  | punpck .. | pack .. | packusdw | pmovx .. | palignr _ | mpsadbw _ => False
  | _ => True

theorem lane_in_lane {w m i j : Nat} (hi : i < m) (x : U128) : lane w i (lane (m * w) j x) = lane w (m * j + i) x := by
  refine lane_eq_iff.mpr fun k hk => ?_
  have hPlace : i * w + k < m * w := by
    have := Nat.mul_le_mul_right w (Nat.succ_le_of_lt hi)
    rw [Nat.succ_mul] at this
    omega
  have hSum : j * (m * w) + (i * w + k) = (m * j + i) * w + k := by
    rw [Nat.add_mul, ← Nat.add_assoc, ← Nat.mul_assoc, Nat.mul_comm j m]
  rw [getLsbD_lane, getLsbD_lane, decide_eq_true hPlace, decide_eq_true hk, Bool.true_and, Bool.true_and, hSum]

theorem lane_part {w m i j : Nat} {x y : U128} (hi : i < m) (hSame : lane (m * w) j x = lane (m * w) j y) : lane w (m * j + i) x = lane w (m * j + i) y := by
  rw [← lane_in_lane hi, ← lane_in_lane hi, hSame]

theorem lane_pair {w : Nat} {x y : U128} (hSame : lane (2 * w) k x = lane (2 * w) k y) :
    lane w (2 * k) x = lane w (2 * k) y ∧ lane w (2 * k + 1) x = lane w (2 * k + 1) y :=
  ⟨lane_part (i := 0) (by decide) hSame, lane_part (by decide) hSame⟩

theorem value_lanewise (hLanewise : h.Lanewise) (hA : lane h.width k a = lane h.width k a') (hB : lane h.width k b = lane h.width k b') :
    h.value a b k = h.value a' b' k := by
  cases h with
  | punpck _ _ | pack _ _ | packusdw | pmovx _ _ _ | palignr _ | mpsadbw _ => exact hLanewise.elim
  | pmuludq =>
    change BitVec.ofInt 64 (number false (lane 32 (2 * k) a) * number false (lane 32 (2 * k) b)) = _
    rw [(@lane_pair k 32 _ _ hA).1, (@lane_pair k 32 _ _ hB).1]
    rfl
  | pmuldq =>
    change BitVec.ofInt 64 ((lane 32 (2 * k) a).toInt * (lane 32 (2 * k) b).toInt) = _
    rw [(@lane_pair k 32 _ _ hA).1, (@lane_pair k 32 _ _ hB).1]
    rfl
  | pmaddwd =>
    change BitVec.ofInt 32 ((lane 16 (2 * k) a).toInt * (lane 16 (2 * k) b).toInt + (lane 16 (2 * k + 1) a).toInt * (lane 16 (2 * k + 1) b).toInt) = _
    rw [(@lane_pair k 16 _ _ hA).1, (@lane_pair k 16 _ _ hB).1, (@lane_pair k 16 _ _ hA).2, (@lane_pair k 16 _ _ hB).2]
    rfl
  | pmaddubsw =>
    change saturate 16 true
      (number false (lane 8 (2 * k) a) * (lane 8 (2 * k) b).toInt + number false (lane 8 (2 * k + 1) a) * (lane 8 (2 * k + 1) b).toInt) = _
    rw [(@lane_pair k 8 _ _ hA).1, (@lane_pair k 8 _ _ hB).1, (@lane_pair k 8 _ _ hA).2, (@lane_pair k 8 _ _ hB).2]
    rfl
  | psadbw =>
    have hByte : ∀ {x y : U128}, lane 64 k x = lane 64 k y → ∀ i < 8, lane 8 (8 * k + i) x = lane 8 (8 * k + i) y := fun hSame i hi => lane_part hi hSame
    refine congrArg (BitVec.ofInt 64) (Finset.sum_congr rfl fun i hi => ?_)
    rw [hByte hA i (Finset.mem_range.mp hi), hByte hB i (Finset.mem_range.mp hi)]
  | pcmp esz _ | addSub esz _ | shiftR esz _ _ | psign esz | blendVar _ esz | blendImm _ esz =>
    have hA : lane (esz * 8) k a = lane (esz * 8) k a' := hA
    have hB : lane (esz * 8) k b = lane (esz * 8) k b' := hB
    simp only [value, hA, hB]
  | addSubSat esz _ _ | pavg esz | shiftL esz _ | pabs esz | intMinmax esz _ _ =>
    have hA : lane (esz * 8) k a = lane (esz * 8) k a' := hA
    have hB : lane (esz * 8) k b = lane (esz * 8) k b' := hB
    simp only [value, hA, hB]
    rfl
  | pmullw | pmulh _ | pmulhrsw =>
    have hA : lane 16 k a = lane 16 k a' := hA
    have hB : lane 16 k b = lane 16 k b' := hB
    simp only [value, hA, hB]
    rfl
  | pmulld =>
    have hA : lane 32 k a = lane 32 k a' := hA
    have hB : lane 32 k b = lane 32 k b' := hB
    simp only [value, hA, hB]
    rfl
  | byteMinmax _ =>
    have hA : lane 8 k a = lane 8 k a' := hA
    have hB : lane 8 k b = lane 8 k b' := hB
    simp only [value, hA, hB]
    rfl

theorem run_lanewise (hValid : h.Valid) (hLanewise : h.Lanewise) (hRoom : k * h.width + h.width ≤ 128) (hA : lane h.width k a = lane h.width k a')
    (hB : lane h.width k b = lane h.width k b') : lane h.width k (h.run a b) = lane h.width k (h.run a' b') := by
  rw [run_lane hValid hRoom, run_lane hValid hRoom, value_lanewise hLanewise hA hB]

end Helper

end Exemu.Interp
