import Exemu.Cpu.Vector

/-! # The floating helpers of the vector handlers

A float is its bits. What the host's floating point does with them is a parameter.
-/
namespace Exemu.Interp

open Lanes

structure Floats where
  add : U64 → U64 → U64
  sub : U64 → U64 → U64
  mul : U64 → U64 → U64
  div : U64 → U64 → U64
  sqrt : U64 → U64
  trunc : U64 → U64
  floor : U64 → U64
  ceil : U64 → U64
  roundTiesEven : U64 → U64
  lt : U64 → U64 → Bool
  eq : U64 → U64 → Bool
  isNan : U64 → Bool
  widen : U32 → U64
  narrow : U64 → U32
  addSingle : U32 → U32 → U32
  mulSingle : U32 → U32 → U32
  truncSingle : U32 → U32
  floorSingle : U32 → U32
  ceilSingle : U32 → U32
  roundTiesEvenSingle : U32 → U32
  ofI64 : U64 → U64
  singleOfI64 : U64 → U32
  singleOfI32 : U32 → U32
  inI64 : U64 → Bool
  inI32 : U64 → Bool
  toI64 : U64 → U64
  toI32 : U64 → U32
  deriving Inhabited

inductive Sse where
  | Ps
  | Pd
  | Ss
  | Sd
  deriving DecidableEq

section Helpers

variable (fp : Floats)

def f64Lane (v : U128) (lane : Nat) : U64 := (v >>> (lane * 64)).setWidth 64

def f32Lane (v : U128) (lane : Nat) : U32 := (v >>> (lane * 32)).setWidth 32

def pairs (f : Nat → U64) : U128 := gather 2 fun l => (f l).setWidth 128 <<< (l * 64)

def quads (f : Nat → U32) : U128 := gather 4 fun l => (f l).setWidth 128 <<< (l * 32)

def sseArith (kind : Sse) (f : U64 → U64 → U64) (dst src : U128) : U128 :=
  match kind with
  | .Sd => (dst &&& ~~~LOW64) ||| (f (f64Lane dst 0) (f64Lane src 0)).setWidth 128
  | .Ss => (dst &&& ~~~LOW32) ||| (fp.narrow (f (fp.widen (f32Lane dst 0)) (fp.widen (f32Lane src 0)))).setWidth 128
  | .Pd => pairs fun l => f (f64Lane dst l) (f64Lane src l)
  | .Ps => quads fun l => fp.narrow (f (fp.widen (f32Lane dst l)) (fp.widen (f32Lane src l)))

def sseUnary (kind : Sse) (f : U64 → U64) (dst src : U128) : U128 :=
  match kind with
  | .Sd => (dst &&& ~~~LOW64) ||| (f (f64Lane src 0)).setWidth 128
  | .Ss => (dst &&& ~~~LOW32) ||| (fp.narrow (f (fp.widen (f32Lane src 0)))).setWidth 128
  | .Pd => pairs fun l => f (f64Lane src l)
  | .Ps => quads fun l => fp.narrow (f (fp.widen (f32Lane src l)))

def cvtFToInt (f : U64) (truncate : Bool) (size : Nat) : U64 :=
  let r := if truncate then fp.trunc f else fp.roundTiesEven f
  if size = 8 then (if fp.inI64 r then fp.toI64 r else 0x8000000000000000)
  else if fp.inI32 r then (fp.toI32 r).setWidth 64 else 0x80000000

def cvtdq2ps (v : U128) : U128 := quads fun i => fp.singleOfI32 (f32Lane v i)

def cvtps2dq (v : U128) (truncate : Bool) : U128 := quads fun i => (cvtFToInt fp (fp.widen (f32Lane v i)) truncate 4).setWidth 32

def roundF64 (x : U64) (mode : U8) : U64 :=
  if mode = 0 then
    let r := fp.roundTiesEven x
    if fp.eq r 0 ∧ x.msb then 0x8000000000000000 else r
  else if mode = 1 then fp.floor x
  else if mode = 2 then fp.ceil x
  else fp.trunc x

def roundF32 (x : U32) (mode : U8) : U32 :=
  if mode = 0 then
    let r := fp.roundTiesEvenSingle x
    if fp.eq (fp.widen r) 0 ∧ x.msb then 0x80000000 else r
  else if mode = 1 then fp.floorSingle x
  else if mode = 2 then fp.ceilSingle x
  else fp.truncSingle x

/-- `a <= b` -/
def Floats.le (a b : U64) : Bool := fp.lt a b || fp.eq a b

/-- `a.is_nan() || b.is_nan()` -/
def Floats.unordered (a b : U64) : Bool := fp.isNan a || fp.isNan b

def cmpPredLow (a b : U64) (v : U8) : Bool :=
  if v = 0x00 then fp.eq a b
  else if v = 0x01 then fp.lt a b
  else if v = 0x02 then fp.le a b
  else if v = 0x03 then fp.unordered a b
  else if v = 0x04 then !fp.eq a b || fp.unordered a b
  else if v = 0x05 then fp.le b a || fp.unordered a b
  else if v = 0x06 then fp.lt b a || fp.unordered a b
  else if v = 0x07 then !fp.isNan a && !fp.isNan b
  else if v = 0x08 then fp.eq a b
  else if v = 0x09 then fp.lt a b || fp.unordered a b
  else if v = 0x0A then fp.le a b || fp.unordered a b
  else if v = 0x0B then false
  else if v = 0x0C then !fp.eq a b && !fp.isNan a && !fp.isNan b
  else if v = 0x0D then fp.le b a
  else if v = 0x0E then fp.lt b a
  else true

def cmpPred (a b : U64) (imm : U8) : Bool :=
  let v := imm &&& 0x1F
  if v < 0x10 then cmpPredLow fp a b v else cmpPredLow fp a b (v &&& 0x07)

def cmpPredFull (a b : U64) (imm : U8) : Bool := if imm &&& 0x1F = 0x08 then fp.eq a b || fp.unordered a b else cmpPred fp a b imm

def pcmpFloat (a b : U128) (dbl : Bool) (imm : U8) : U128 :=
  if dbl then pairs fun l => if cmpPredFull fp (f64Lane a l) (f64Lane b l) imm then BitVec.allOnes 64 else 0
  else quads fun l => if cmpPredFull fp (fp.widen (f32Lane a l)) (fp.widen (f32Lane b l)) imm then BitVec.allOnes 32 else 0

def cmpScalar (dbl : Bool) (dst src : U128) (imm : U8) : U128 :=
  if dbl then (dst &&& ~~~LOW64) ||| (if cmpPredFull fp (f64Lane dst 0) (f64Lane src 0) imm then LOW64 else 0)
  else (dst &&& ~~~LOW32) ||| (if cmpPredFull fp (fp.widen (f32Lane dst 0)) (fp.widen (f32Lane src 0)) imm then LOW32 else 0)

def dpps (a b : U128) (imm : U8) : U128 :=
  let sum := (List.range 4).foldl (fun sum i =>
    if (imm >>> (4 + i)) &&& 1 = 1 then fp.addSingle sum (fp.mulSingle (f32Lane a i) (f32Lane b i)) else sum) 0
  quads fun i => if (imm >>> i) &&& 1 = 1 then sum else 0

def dppd (a b : U128) (imm : U8) : U128 :=
  let sum := (List.range 2).foldl (fun sum i =>
    if (imm >>> (4 + i)) &&& 1 = 1 then fp.add sum (fp.mul (f64Lane a i) (f64Lane b i)) else sum) 0
  pairs fun i => if (imm >>> i) &&& 1 = 1 then sum else 0

def rounded (op3 mode : U8) (dst src : U128) : U128 :=
  if op3 = 0x08 then quads fun l => roundF32 fp (f32Lane src l) mode
  else if op3 = 0x09 then pairs fun l => roundF64 fp (f64Lane src l) mode
  else if op3 = 0x0A then (dst &&& ~~~LOW32) ||| (roundF32 fp (f32Lane src 0) mode).setWidth 128
  else (dst &&& ~~~LOW64) ||| (roundF64 fp (f64Lane src 0) mode).setWidth 128

end Helpers

end Exemu.Interp
