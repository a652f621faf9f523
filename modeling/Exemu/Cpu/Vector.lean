import Exemu.Core.Memory
import Exemu.Library.Lanes

/-! # The integer helpers of the vector handlers

Each of them takes registers of 128 bits apart with shifts and masks and gathers the result in a
word that was zero, lane after lane.
-/
namespace Exemu.Interp

open Lanes

def LOW64 : U128 := 0xFFFFFFFFFFFFFFFF
def LOW32 : U128 := 0xFFFFFFFF

/-- `v.clamp(lo, hi)` of signed words. -/
def clampS {w : Nat} (v lo hi : BitVec w) : BitVec w := if v.slt lo then lo else if hi.slt v then hi else v

/-- `((raw << shift) as i64) >> shift` -/
def sextLane (raw : U64) (bits : Nat) : U64 := (raw <<< (64 - bits)).sshiftRight (64 - bits)

def lowMask (n : Nat) : U128 := if n ≥ 16 then BitVec.allOnes 128 else ((1 : U128) <<< (n * 8)) - 1

def emask (esz : Nat) : U128 := if esz * 8 ≥ 128 then BitVec.allOnes 128 else ((1 : U128) <<< (esz * 8)) - 1

/-- `(v >> (i * bits)) & mask` -/
def laneAt (v : U128) (i bits : Nat) (mask : U128) : U128 := (v >>> (i * bits)) &&& mask

def punpck (a b : U128) (esz : Nat) (high : Bool) : U128 :=
  let bits := esz * 8
  let mask := emask esz
  let half := 16 / esz / 2
  let base := if high then half else 0
  gather half fun i => (laneAt a (base + i) bits mask <<< (2 * i * bits)) ||| (laneAt b (base + i) bits mask <<< ((2 * i + 1) * bits))

def pcmp (a b : U128) (esz : Nat) (gt : Bool) : U128 :=
  let bits := esz * 8
  let mask := emask esz
  let sign : U128 := (1 : U128) <<< (bits - 1)
  gather (16 / esz) fun i =>
    let x := laneAt a i bits mask
    let y := laneAt b i bits mask
    let hit := if gt then (y ^^^ sign).ult (x ^^^ sign) else x == y
    if hit then mask <<< (i * bits) else 0

def addSub (a b : U128) (esz : Nat) (add : Bool) : U128 :=
  let bits := esz * 8
  let mask := emask esz
  gather (16 / esz) fun i =>
    let x : U64 := (laneAt a i bits mask).setWidth 64
    let y : U64 := (laneAt b i bits mask).setWidth 64
    let r : U128 := (if add then x + y else x - y).setWidth 128
    (r &&& mask) <<< (i * bits)

def addSubSat (a b : U128) (esz : Nat) (add signed : Bool) : U128 :=
  let bits := esz * 8
  let mask := emask esz
  gather (16 / esz) fun i =>
    let x : U64 := (laneAt a i bits mask).setWidth 64
    let y : U64 := (laneAt b i bits mask).setWidth 64
    let r : U64 :=
      if signed then
        let sx := sextLane x bits
        let sy := sextLane y bits
        let v := if add then sx + sy else sx - sy
        let hi := ((1 : U64) <<< (bits - 1)) - 1
        let lo := -((1 : U64) <<< (bits - 1))
        clampS v lo hi &&& mask.setWidth 64
      else if add then (if x + y < mask.setWidth 64 then x + y else mask.setWidth 64)
      else if x < y then 0 else x - y
    (r.setWidth 128 &&& mask) <<< (i * bits)

def pmullw (a b : U128) : U128 :=
  gather 8 fun i =>
    let x : U32 := (laneAt a i 16 0xFFFF).setWidth 32
    let y : U32 := (laneAt b i 16 0xFFFF).setWidth 32
    ((x * y) &&& 0xFFFF).setWidth 128 <<< (i * 16)

def pmulh (a b : U128) (signed : Bool) : U128 :=
  gather 8 fun i =>
    let x : U16 := (laneAt a i 16 0xFFFF).setWidth 16
    let y : U16 := (laneAt b i 16 0xFFFF).setWidth 16
    let p : U64 := if signed then x.signExtend 64 * y.signExtend 64 else x.setWidth 64 * y.setWidth 64
    ((p.sshiftRight 16).signExtend 128 &&& 0xFFFF) <<< (i * 16)

def pmuludq (a b : U128) : U128 :=
  let a0 : U64 := (a &&& 0xFFFFFFFF).setWidth 64
  let b0 : U64 := (b &&& 0xFFFFFFFF).setWidth 64
  let a2 : U64 := ((a >>> 64) &&& 0xFFFFFFFF).setWidth 64
  let b2 : U64 := ((b >>> 64) &&& 0xFFFFFFFF).setWidth 64
  (a0.setWidth 128 * b0.setWidth 128) ||| ((a2.setWidth 128 * b2.setWidth 128) <<< 64)

/-- `((v >> sh) & 0xFFFF) as u16 as i16 as i32` -/
def wordAt (v : U128) (sh : Nat) : U32 := (((v >>> sh) &&& 0xFFFF).setWidth 16).signExtend 32

def pmaddwd (a b : U128) : U128 :=
  gather 4 fun i =>
    let base := i * 32
    let al := wordAt a base
    let ah := wordAt a (base + 16)
    let bl := wordAt b base
    let bh := wordAt b (base + 16)
    let s := al * bl + ah * bh
    s.setWidth 128 <<< base

def pavg (a b : U128) (esz : Nat) : U128 :=
  let bits := esz * 8
  let mask := emask esz
  gather (16 / esz) fun i =>
    let x : U64 := (laneAt a i bits mask).setWidth 64
    let y : U64 := (laneAt b i bits mask).setWidth 64
    let r := (x + y + 1) >>> 1
    (r.setWidth 128 &&& mask) <<< (i * bits)

/-- `unsigned_abs()` and `abs()` of an i32 that is not the least. -/
def unsignedAbs (v : U32) : U32 := if v.slt 0 then -v else v

/-- `((v >> sh) & 0xFF) as i32` -/
def byteAt (v : U128) (sh : Nat) : U32 := ((v >>> sh) &&& 0xFF).setWidth 32

def total (n : Nat) (f : Nat → U32) : U32 := (List.range n).foldl (fun sum i => sum + f i) 0

def psadbw (a b : U128) : U128 :=
  let half := fun h : Nat => (total 8 fun i => unsignedAbs (byteAt a ((h * 8 + i) * 8) - byteAt b ((h * 8 + i) * 8))).setWidth 128
  half 0 ||| (half 1 <<< 64)

def pack (a b : U128) (eszIn : Nat) (signedOut : Bool) : U128 :=
  let bitsIn := eszIn * 8
  let bitsOut := bitsIn / 2
  let maskIn := emask eszIn
  let maskOut := emask (eszIn / 2)
  let lanes := 16 / eszIn
  let lo : U64 := if signedOut then -((1 : U64) <<< (bitsOut - 1)) else 0
  let hi : U64 := if signedOut then ((1 : U64) <<< (bitsOut - 1)) - 1 else ((1 : U64) <<< bitsOut) - 1
  let part := fun (half : Nat) (src : U128) => gather lanes fun i =>
    let raw : U64 := (laneAt src i bitsIn maskIn).setWidth 64
    let v := sextLane raw bitsIn
    let c := clampS v lo hi &&& maskOut.setWidth 64
    c.setWidth 128 <<< ((half * lanes + i) * bitsOut)
  part 0 a ||| part 1 b

def byteMinmax (a b : U128) (max : Bool) : U128 :=
  gather 16 fun i =>
    let x : U8 := (laneAt a i 8 0xFF).setWidth 8
    let y : U8 := (laneAt b i 8 0xFF).setWidth 8
    let r := if max then (if x < y then y else x) else if x < y then x else y
    r.setWidth 128 <<< (i * 8)

def pmovmskb (v : U128) : U32 := gather 16 fun i => if (v >>> (i * 8 + 7)) &&& 1 = 1 then (1 : U32) <<< i else 0

def shiftR (v : U128) (esz : Nat) (count : U64) (arith : Bool) : U128 :=
  let bits := esz * 8
  let mask := emask esz
  let sign : U128 := (1 : U128) <<< (bits - 1)
  gather (16 / esz) fun i =>
    let e := laneAt v i bits mask
    let r : U128 :=
      if arith then
        let se := (e ^^^ sign) - sign
        (if count.toNat ≥ bits then se.sshiftRight 127 else se.sshiftRight count.toNat) &&& mask
      else if count.toNat ≥ bits then 0 else e >>> count.toNat
    r <<< (i * bits)

def shiftL (v : U128) (esz : Nat) (count : U64) : U128 :=
  let bits := esz * 8
  let mask := emask esz
  if count.toNat ≥ bits then 0
  else gather (16 / esz) fun i => ((laneAt v i bits mask <<< count.toNat) &&& mask) <<< (i * bits)

/-! ## Shuffles -/

/-- `(imm >> (i * 2)) & 3` -/
def select2 (imm : U8) (i : Nat) : Nat := ((imm >>> (i * 2)) &&& 3).toNat

def pshufd (src : U128) (imm : U8) : U128 := gather 4 fun i => laneAt src (select2 imm i) 32 LOW32 <<< (i * 32)

def pshuflw (src : U128) (imm : U8) : U128 :=
  let low := gather 4 fun i => laneAt src (select2 imm i) 16 0xFFFF <<< (i * 16)
  (src &&& ~~~LOW64) ||| (low &&& LOW64)

def pshufhw (src : U128) (imm : U8) : U128 :=
  let hi := src >>> 64
  let out := gather 4 fun i => laneAt hi (select2 imm i) 16 0xFFFF <<< (i * 16)
  (src &&& LOW64) ||| (out <<< 64)

def shufps (dst src : U128) (imm : U8) : U128 :=
  let dw := fun (v : U128) (i : Nat) => laneAt v i 32 LOW32
  dw dst (select2 imm 0) ||| (dw dst (select2 imm 1) <<< 32) ||| (dw src (select2 imm 2) <<< 64) ||| (dw src (select2 imm 3) <<< 96)

def shufpd (dst src : U128) (imm : U8) : U128 :=
  let lo := if imm &&& 1 = 0 then dst &&& LOW64 else (dst >>> 64) &&& LOW64
  let hi := if imm &&& 2 = 0 then src &&& LOW64 else (src >>> 64) &&& LOW64
  lo ||| (hi <<< 64)

def pshufb (a b : U128) : U128 :=
  gather 16 fun i =>
    let ctl : U8 := (laneAt b i 8 0xFF).setWidth 8
    if ctl &&& 0x80 = 0 then laneAt a (ctl &&& 0x0F).toNat 8 0xFF <<< (i * 8) else 0

/-! ## Horizontal sums -/

/-- What `combine` makes of two neighbours. -/
def combine (mask : U64) (sub sat : Bool) (x y : U64) : U64 :=
  let r := if sub then x - y else x + y
  (if sat then clampS r (-32768) 32767 else r) &&& mask

/-- The lanes of the destination are written in place. Where the source is the destination, the second loop reads what
the first one has written. -/
def phaddsub (a b : U128) (esz : Nat) (sub sat aliased : Bool) : U128 :=
  let bits := esz * 8
  let mask : U64 := (emask esz).setWidth 64
  let lanes := 16 / esz
  let raw := fun (v : U128) (i : Nat) => (laneAt v i bits (mask.setWidth 128)).setWidth 64
  let get := fun (v : U128) (i : Nat) => sextLane (raw v i) bits
  let half := lanes / 2
  let d : Nat → U64 := fun i => if i < lanes then raw a i else 0
  let d := (List.range half).foldl (fun d k =>
    Function.update d k (combine mask sub sat (sextLane (d (2 * k)) bits) (sextLane (d (2 * k + 1)) bits))) d
  let d := (List.range half).foldl (fun d k =>
    let x := if aliased then sextLane (d (2 * k)) bits else get b (2 * k)
    let y := if aliased then sextLane (d (2 * k + 1)) bits else get b (2 * k + 1)
    Function.update d (half + k) (combine mask sub sat x y)) d
  gather lanes fun i => ((d i).setWidth 128 &&& mask.setWidth 128) <<< (i * bits)

/-! ## The later sets -/

def pmaddubsw (a b : U128) : U128 :=
  gather 8 fun i =>
    let base := i * 16
    let a0 : U32 := (((a >>> base) &&& 0xFF).setWidth 8).setWidth 32
    let a1 : U32 := (((a >>> (base + 8)) &&& 0xFF).setWidth 8).setWidth 32
    let b0 : U32 := (((b >>> base) &&& 0xFF).setWidth 8).signExtend 32
    let b1 : U32 := (((b >>> (base + 8)) &&& 0xFF).setWidth 8).signExtend 32
    let s := clampS (a0 * b0 + a1 * b1) (-32768) 32767
    ((s.setWidth 16).setWidth 128 &&& 0xFFFF) <<< base

def psign (a b : U128) (esz : Nat) : U128 :=
  let bits := esz * 8
  let mask := emask esz
  gather (16 / esz) fun i =>
    let av : U64 := (laneAt a i bits mask).setWidth 64
    let bv := sextLane ((laneAt b i bits mask).setWidth 64) bits
    let r : U64 := if bv.slt 0 then -av else if bv = 0 then 0 else av
    (r.setWidth 128 &&& mask) <<< (i * bits)

def pmulhrsw (a b : U128) : U128 :=
  gather 8 fun i =>
    let x := wordAt a (i * 16)
    let y := wordAt b (i * 16)
    let r : U16 := (((x * y).sshiftRight 14 + 1).sshiftRight 1).setWidth 16
    (r.setWidth 128 &&& 0xFFFF) <<< (i * 16)

def pabs (v : U128) (esz : Nat) : U128 :=
  let bits := esz * 8
  let mask := emask esz
  gather (16 / esz) fun i =>
    let x := sextLane ((laneAt v i bits mask).setWidth 64) bits
    let r : U64 := if x.slt 0 then -x else x
    (r.setWidth 128 &&& mask) <<< (i * bits)

def blendVar (a b mask : U128) (esz : Nat) : U128 :=
  let bits := esz * 8
  let em := emask esz
  gather (16 / esz) fun i =>
    let top := (mask >>> (i * bits + bits - 1)) &&& 1
    let src := if top = 1 then b else a
    laneAt src i bits em <<< (i * bits)

def blendImm (dst src : U128) (imm : U8) (esz : Nat) : U128 :=
  let bits := esz * 8
  let em := emask esz
  gather (16 / esz) fun i =>
    let v := if (imm >>> i) &&& 1 = 1 then src else dst
    laneAt v i bits em <<< (i * bits)

def pmovx (src : U128) (srcSz dstSz : Nat) (sign : Bool) : U128 :=
  let sbits := srcSz * 8
  let dbits := dstSz * 8
  let smask := emask srcSz
  let dmask := emask dstSz
  gather (16 / dstSz) fun i =>
    let raw : U64 := (laneAt src i sbits smask).setWidth 64
    let e : U64 := if sign then sextLane raw sbits else raw
    (e.setWidth 128 &&& dmask) <<< (i * dbits)

/-- `((v >> sh) & 0xFFFF_FFFF) as u32 as i32 as i64` -/
def dwordAt (v : U128) (sh : Nat) : U64 := (((v >>> sh) &&& 0xFFFFFFFF).setWidth 32).signExtend 64

def pmuldq (a b : U128) : U128 := (dwordAt a 0 * dwordAt b 0).setWidth 128 ||| ((dwordAt a 64 * dwordAt b 64).setWidth 128 <<< 64)

def packusdw (a b : U128) : U128 :=
  let part := fun (half : Nat) (src : U128) => gather 4 fun i =>
    let v : U32 := (laneAt src i 32 0xFFFFFFFF).setWidth 32
    let c : U128 := (clampS v 0 0xFFFF).setWidth 128
    c <<< ((half * 4 + i) * 16)
  part 0 a ||| part 1 b

def intMinmax (a b : U128) (esz : Nat) (signed max : Bool) : U128 :=
  let bits := esz * 8
  let mask := emask esz
  gather (16 / esz) fun i =>
    let xr : U64 := (laneAt a i bits mask).setWidth 64
    let yr : U64 := (laneAt b i bits mask).setWidth 64
    let x := sextLane xr bits
    let y := sextLane yr bits
    let takeX := if signed then (if max then y.slt x else x.slt y) else if max then yr.ult xr else xr.ult yr
    let r := if takeX then xr else yr
    (r.setWidth 128 &&& mask) <<< (i * bits)

def pmulld (a b : U128) : U128 :=
  gather 4 fun i =>
    let x : U32 := (laneAt a i 32 0xFFFFFFFF).setWidth 32
    let y : U32 := (laneAt b i 32 0xFFFFFFFF).setWidth 32
    (x * y).setWidth 128 <<< (i * 32)

def leastStep (src : U128) (best : U32 × U32) (i : Nat) : U32 × U32 :=
  let w : U32 := (laneAt src i 16 0xFFFF).setWidth 32
  if w < best.1 then (w, BitVec.ofNat 32 i) else best

def phminposuw (src : U128) : U128 :=
  let least := (List.range 8).foldl (leastStep src) (0xFFFF, 0)
  least.1.setWidth 128 ||| (least.2.setWidth 128 <<< 16)

def palignr (a b : U128) (imm : U8) : U128 :=
  let n := imm.toNat
  if n ≥ 32 then 0
  else if n = 0 then b
  else if n < 16 then (b >>> (n * 8)) ||| (a <<< (128 - n * 8))
  else a >>> ((n - 16) * 8)

def mpsadbw (a b : U128) (imm : U8) : U128 :=
  let aOff := ((imm >>> 2) &&& 1).toNat * 4
  let bOff := (imm &&& 3).toNat * 4
  gather 8 fun k =>
    let sum := total 4 fun j => unsignedAbs (byteAt a ((aOff + k + j) * 8) - byteAt b ((bOff + j) * 8))
    ((sum.setWidth 16).setWidth 128 &&& 0xFFFF) <<< (k * 16)

def implicitLen (v : U128) (elemBytes n : Nat) : Nat :=
  ((List.range n).find? fun i => laneAt v i (elemBytes * 8) (emask elemBytes) == 0).getD n

end Exemu.Interp
