import Exemu.Library.Double
import Exemu.Cpu.Shift
import Exemu.Cpu.Xsave

/-! # Extended registers

The registers of the x87 unit hold 80 bits. What the unit computes with them goes through the
host's doubles, by two conversions on the bits.
-/
namespace Exemu.Interp

open Double (magnitude ofParts encode)

/-- `v.leading_zeros()` -/
def leadingZeros64 (v : U64) : Nat := if v = 0 then 64 else 63 - v.toNat.log2

/-- The exponent and the significand of a double. A shift out of range stops the host. -/
def extFields (exp : U32) (frac : U64) : Option (U32 × U64) :=
  if exp = 0x7ff then some (0x7fff, if frac = 0 then 0x8000000000000000 else 0x8000000000000000 ||| (frac <<< 11))
  else if exp = 0 then
    if frac = 0 then some (0, 0)
    else do
      let lead := leadingZeros64 frac - 11
      let signif ← hostShl frac (11 + lead + 1)
      let e : Int := 1 - 1023 - (lead : Int) - 1 + 16383
      return (BitVec.ofInt 32 e, 0x8000000000000000 ||| signif)
  else some (exp + (16383 - 1023), 0x8000000000000000 ||| (frac <<< 11))

def f64ToExt (x : U64) : Option U128 := do
  let sign := (x >>> 63) &&& 1
  let exp : U32 := ((x >>> 52) &&& 0x7ff).setWidth 32
  let frac := x &&& 0x000fffffffffffff
  let (extExp, extSignif) ← extFields exp frac
  return (sign.setWidth 128 <<< 79) ||| (extExp.setWidth 128 <<< 64) ||| extSignif.setWidth 128

def exp2Up : Nat → Nat → U64 → U64
  | 0, _, r => r
  | fuel + 1, k, r => if k = 0 then r else exp2Up fuel (k - min k 1000) (Double.mul r ((BitVec.ofNat 64 (1023 + min k 1000)) <<< 52))

def exp2Down : Nat → Nat → U64 → U64
  | 0, _, r => r
  | fuel + 1, k, r => if k = 0 then r else exp2Down fuel (k - min k 1000) (Double.mul r ((BitVec.ofNat 64 (1023 - min k 1000)) <<< 52))

def exp2 (n : Int) : U64 :=
  if 1100 < n then ofParts false Double.top
  else if n < -1100 then 0
  else exp2Down (-n).toNat (-n).toNat (exp2Up n.toNat n.toNat 0x3FF0000000000000)

def extSign (v : U128) : Bool := (v >>> 79) &&& 1 != 0

def extExponent (v : U128) : U32 := ((v >>> 64) &&& 0x7fff).setWidth 32

def extSignificand (v : U128) : U64 := v.setWidth 64

def extToF64 (v : U128) : U64 :=
  let exp := extExponent v
  let signif := extSignificand v
  if exp = 0x7fff then
    let frac := signif &&& 0x7fffffffffffffff
    if frac = 0 then ofParts (extSign v) Double.top
    else ((if extSign v then 1 else 0 : U64) <<< 63) ||| ((0x7ff : U64) <<< 52) ||| (frac >>> 11) ||| 0x0008000000000000
  else if exp = 0 ∧ signif = 0 then (if extSign v then 1 else 0 : U64) <<< 63
  else
    let mantissa := Double.ofInt signif.toNat
    let mag := Double.mul mantissa (exp2 ((exp.toNat : Int) - 16383 - 63))
    if extSign v then Double.neg mag else mag

/-- The product in `ext_to_f64`, without rounding in between. -/
def extToF64Exact (v : U128) : U64 :=
  ofParts (extSign v) (encode 16446 ((extSignificand v).toNat * 2 ^ ((extExponent v).toNat + 1074)))

end Exemu.Interp
