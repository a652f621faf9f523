import Exemu.Core.Unwind
import Exemu.Loader.RelocDirectory

/-! # The unwind records of an image

The exception directory names functions, and each of them a record of unwind codes that the parser
reads out of the sections.
-/
namespace Exemu.Loader

/-- `EmuError::InvalidPe` of this part of the parser, with the values its messages show. -/
inductive InvalidUnwind where
  | slice (e : InvalidPe)
  | emptyRange (begin_rva end_rva : U32)
  | version (version : U8)
  | allocLarge (opInfo : U8)
  | op (op : U8)
  | overrun
  | tooDeep
  | chainedZero
  deriving DecidableEq, Repr

abbrev UnwindResult (α : Type) := Except InvalidUnwind α

def UNW_FLAG_EHANDLER : U8 := 0x1
def UNW_FLAG_UHANDLER : U8 := 0x2
def UNW_FLAG_CHAININFO : U8 := 0x4

def MAX_CHAIN_DEPTH : Nat := 8

section Parser

variable (sections : List Section)

def unwindU8 (rva : U32) : UnwindResult U8 := (sliceU8 sections rva).mapError .slice
def unwindU16 (rva : U32) : UnwindResult U16 := (sliceU16 sections rva).mapError .slice
def unwindU32 (rva : U32) : UnwindResult U32 := (sliceU32 sections rva).mapError .slice

def unwindOp (version : U8) (base : U32) (i : Nat) (op opInfo : U8) : UnwindResult (UnwindOp × Nat) := do
  let nextU16 (i : Nat) := unwindU16 sections (base + BitVec.ofNat 32 (i * 2))
  let nextU32 (i : Nat) := unwindU32 sections (base + BitVec.ofNat 32 (i * 2))
  match op.toNat with
  | 0 => return (.PushNonvolatile opInfo, 1)
  | 1 =>
    match opInfo.toNat with
    | 0 => return (.Alloc ((← nextU16 (i + 1)).setWidth 32 * 8), 2)
    | 1 => return (.Alloc (← nextU32 (i + 1)), 3)
    | _ => throw (.allocLarge opInfo)
  | 2 => return (.Alloc (opInfo.setWidth 32 * 8 + 8), 1)
  | 3 => return (.SetFrameRegister, 1)
  | 4 => return (.SaveNonvolatile opInfo ((← nextU16 (i + 1)).setWidth 32 * 8), 2)
  | 5 => return (.SaveNonvolatile opInfo (← nextU32 (i + 1)), 3)
  | 6 => if version = 2 then return (.Epilog (← nextU16 i), 1) else throw (.op op)
  | 8 => return (.SaveXmm128 opInfo ((← nextU16 (i + 1)).setWidth 32 * 16), 2)
  | 9 => return (.SaveXmm128 opInfo (← nextU32 (i + 1)), 3)
  | 10 => return (.PushMachineFrame (decide (opInfo = 1)), 1)
  | _ => throw (.op op)

/-- The loop over the slots from `i` on. Every round takes one, so `count` rounds are enough. -/
def unwindCodes (version : U8) (base : U32) (count : Nat) : Nat → Nat → List UnwindCode → UnwindResult (Nat × List UnwindCode)
  | 0, i, codes => .ok (i, codes)
  | fuel + 1, i, codes =>
    if i < count then do
      let lo ← unwindU8 sections (base + BitVec.ofNat 32 (i * 2))
      let hi ← unwindU8 sections (base + BitVec.ofNat 32 (i * 2 + 1))
      let (op, used) ← unwindOp sections version base i (hi &&& 0xF) (hi >>> 4)
      unwindCodes version base count fuel (i + used) (codes ++ [⟨lo, op⟩])
    else .ok (i, codes)

/-- `parse_runtime_function`; `parseInfo` reads the record the entry names. -/
def runtimeFunction (parseInfo : U32 → UnwindResult UnwindInfo) (recRva : U32) : UnwindResult (Option UnwindEntry) := do
  let beginRva ← unwindU32 sections recRva
  let endRva ← unwindU32 sections (recRva + 4)
  let unwindRva ← unwindU32 sections (recRva + 8)
  if beginRva = 0 ∧ endRva = 0 then return none
  if endRva ≤ beginRva then throw (.emptyRange beginRva endRva)
  let info ← parseInfo unwindRva
  return some ⟨beginRva, endRva, recRva, info⟩

/-- `2 * ((count + 1) & !1)` bytes behind the first slot. -/
def afterCodes (rva : U32) (count : U8) : U32 := rva + 4 + BitVec.ofNat 32 (2 * (2 * ((count.toNat + 1) / 2)))

/-- What follows the codes: the handler and its data, and the entry this record is chained to. -/
def unwindTrailer (deeper : Option (U32 → UnwindResult UnwindInfo)) (flags : U8) (after : U32) :
    UnwindResult (Option U32 × Option U32 × Option UnwindEntry) :=
  if flags &&& UNW_FLAG_CHAININFO ≠ 0 then
    match deeper with
    | none => .error .tooDeep
    | some parseInfo => do
      match ← runtimeFunction sections parseInfo after with
      | some e => return (none, none, some e)
      | none => throw .chainedZero
  else if flags &&& (UNW_FLAG_EHANDLER ||| UNW_FLAG_UHANDLER) ≠ 0 then do
    let handler ← unwindU32 sections after
    return (some handler, some (after + 4), none)
  else .ok (none, none, none)

/-- `parse_unwind_info`; `deeper` reads the record of a chained entry, where the depth allows one. -/
def unwindInfo (deeper : Option (U32 → UnwindResult UnwindInfo)) (rva : U32) : UnwindResult UnwindInfo := do
  let b0 ← unwindU8 sections rva
  let version := b0 &&& 0x7
  let flags := b0 >>> 3
  if version ≠ 1 ∧ version ≠ 2 then throw (.version version)
  let prologSize ← unwindU8 sections (rva + 1)
  let count ← unwindU8 sections (rva + 2)
  let b3 ← unwindU8 sections (rva + 3)
  let frameRegister := if b3 &&& 0xF = 0 then none else some (b3 &&& 0xF)
  let frameOffset := (b3 >>> 4).setWidth 16 * 16
  let (i, codes) ← unwindCodes sections version (rva + 4) count.toNat count.toNat 0 []
  if count.toNat < i then throw .overrun
  let (handlerRva, handlerDataRva, chained) ← unwindTrailer sections deeper flags (afterCodes rva count)
  return {
    version
    hasExceptionHandler := flags &&& UNW_FLAG_EHANDLER ≠ 0
    hasTerminationHandler := flags &&& UNW_FLAG_UHANDLER ≠ 0
    prologSize, frameRegister, frameOffset, codes, handlerRva, handlerDataRva, chained }

/-- `parse_unwind_info` where the depth still allows so many chained records. -/
def parseUnwindInfo : Nat → U32 → UnwindResult UnwindInfo
  | 0 => unwindInfo sections none
  | left + 1 => unwindInfo sections (some (parseUnwindInfo left))

def parseRuntimeFunction (left : Nat) (recRva : U32) : UnwindResult (Option UnwindEntry) :=
  runtimeFunction sections (parseUnwindInfo sections left) recRva

def unwindCount (dirRva dirSize : U32) : Nat :=
  let readableEnd := (sections.map fun s => s.rva.toNat + s.data.length).foldl max 0
  let readable := (readableEnd - dirRva.toNat) / 12
  min (dirSize.toNat / 12) (min readable (2 ^ 32 - 1))

def parseFunctionTable (dirRva dirSize : U32) : List UnwindEntry :=
  let table := (List.range (unwindCount sections dirRva dirSize)).filterMap fun i =>
    (parseRuntimeFunction sections MAX_CHAIN_DEPTH (dirRva + BitVec.ofNat 32 (i * 12))).toOption.join
  table.mergeSort fun a b => decide (a.beginRva ≤ b.beginRva)

end Parser
end Exemu.Loader

/-! # The format of unwind records

A record as the format lays it out: its head, the codes in the form each was given, a slot left
over where their number is odd, and behind them nothing, a handler or a chained entry. Read
back by the parser it gives the same operations, with sizes and offsets scaled.
-/
namespace Exemu.Loader

/-! ## Codes -/

/-- The forms of a code: the operations that hold a number have a scaled one and one in full. -/
inductive CodeForm where
  | pushNonvolatile (reg : BitVec 4)
  | allocLarge (scaled : U16)
  | allocLargeFar (size : U32)
  | allocSmall (scaled : BitVec 4)
  | setFrameRegister
  | saveNonvolatile (reg : BitVec 4) (scaled : U16)
  | saveNonvolatileFar (reg : BitVec 4) (offset : U32)
  | epilog (info : BitVec 4)
  | saveXmm128 (reg : BitVec 4) (scaled : U16)
  | saveXmm128Far (reg : BitVec 4) (offset : U32)
  | pushMachineFrame (withErrorCode : Bool)
  deriving DecidableEq, Repr

namespace CodeForm

def opcode : CodeForm → BitVec 4
  | pushNonvolatile _ => 0
  | allocLarge _ => 1
  | allocLargeFar _ => 1
  | allocSmall _ => 2
  | setFrameRegister => 3
  | saveNonvolatile _ _ => 4
  | saveNonvolatileFar _ _ => 5
  | epilog _ => 6
  | saveXmm128 _ _ => 8
  | saveXmm128Far _ _ => 9
  | pushMachineFrame _ => 10

def info : CodeForm → BitVec 4
  | pushNonvolatile reg => reg
  | allocLarge _ => 0
  | allocLargeFar _ => 1
  | allocSmall scaled => scaled
  | setFrameRegister => 0
  | saveNonvolatile reg _ => reg
  | saveNonvolatileFar reg _ => reg
  | epilog info => info
  | saveXmm128 reg _ => reg
  | saveXmm128Far reg _ => reg
  | pushMachineFrame withErrorCode => if withErrorCode then 1 else 0

def extra : CodeForm → List U8
  | allocLarge scaled => toLe 2 (scaled.setWidth 64)
  | allocLargeFar size => toLe 4 (size.setWidth 64)
  | saveNonvolatile _ scaled => toLe 2 (scaled.setWidth 64)
  | saveNonvolatileFar _ offset => toLe 4 (offset.setWidth 64)
  | saveXmm128 _ scaled => toLe 2 (scaled.setWidth 64)
  | saveXmm128Far _ offset => toLe 4 (offset.setWidth 64)
  | _ => []

def slots : CodeForm → Nat
  | allocLarge _ => 2
  | allocLargeFar _ => 3
  | saveNonvolatile _ _ => 2
  | saveNonvolatileFar _ _ => 3
  | saveXmm128 _ _ => 2
  | saveXmm128Far _ _ => 3
  | _ => 1

def isEpilog : CodeForm → Bool
  | epilog _ => true
  | _ => false

variable (form : CodeForm)

theorem slots_pos : 0 < form.slots := by
  cases form <;> exact Nat.succ_pos _

theorem length_extra : form.extra.length + 2 = 2 * form.slots := by
  cases form <;> simp [extra, slots]

def second (form : CodeForm) : U8 := form.info.setWidth 8 <<< 4 ||| form.opcode.setWidth 8

theorem nibbles : ∀ info opcode : BitVec 4, (info.setWidth 8 <<< 4 ||| opcode.setWidth 8 : U8) &&& 0xF = opcode.setWidth 8 ∧
    (info.setWidth 8 <<< 4 ||| opcode.setWidth 8 : U8) >>> 4 = info.setWidth 8 := by
  decide

theorem second_low : form.second &&& 0xF = form.opcode.setWidth 8 := (nibbles _ _).1

theorem second_high : form.second >>> 4 = form.info.setWidth 8 := (nibbles _ _).2

def op (offset : U8) : CodeForm → UnwindOp
  | pushNonvolatile reg => .PushNonvolatile (reg.setWidth 8)
  | allocLarge scaled => .Alloc (scaled.setWidth 32 * 8)
  | allocLargeFar size => .Alloc size
  | allocSmall scaled => .Alloc (scaled.setWidth 32 * 8 + 8)
  | setFrameRegister => .SetFrameRegister
  | saveNonvolatile reg scaled => .SaveNonvolatile (reg.setWidth 8) (scaled.setWidth 32 * 8)
  | saveNonvolatileFar reg offset => .SaveNonvolatile (reg.setWidth 8) offset
  | epilog info => .Epilog ((epilog info).second ++ offset)
  | saveXmm128 reg scaled => .SaveXmm128 (reg.setWidth 8) (scaled.setWidth 32 * 16)
  | saveXmm128Far reg offset => .SaveXmm128 (reg.setWidth 8) offset
  | pushMachineFrame withErrorCode => .PushMachineFrame withErrorCode

end CodeForm

structure FormedCode where
  offset : U8
  form : CodeForm
  deriving DecidableEq, Repr

namespace FormedCode

def bytes (c : FormedCode) : List U8 := c.offset :: c.form.second :: c.form.extra

def code (c : FormedCode) : UnwindCode := ⟨c.offset, c.form.op c.offset⟩

theorem length_bytes (c : FormedCode) : c.bytes.length = 2 * c.form.slots := c.form.length_extra

end FormedCode

def slotCount (codes : List FormedCode) : Nat := (codes.map fun c => c.form.slots).sum

theorem length_flatMap_bytes (codes : List FormedCode) : (codes.flatMap FormedCode.bytes).length = 2 * slotCount codes := by
  induction codes with
  | nil => rfl
  | cons c codes ih =>
    rw [List.flatMap_cons, List.length_append, ih, c.length_bytes, slotCount, slotCount, List.map_cons, List.sum_cons]
    omega

/-! ## Records -/

structure RecordHead where
  version : U8
  prologSize : U8
  frameRegister : BitVec 4
  frameOffset : BitVec 4
  codes : List FormedCode
  deriving DecidableEq, Repr

namespace RecordHead

def count (head : RecordHead) : Nat := slotCount head.codes

/-- Version 2 has one operation more, and the slots are counted in a byte. -/
structure Fits (head : RecordHead) : Prop where
  version : head.version = 1 ∨ head.version = 2
  epilogs : ∀ c ∈ head.codes, c.form.isEpilog = true → head.version = 2
  count : head.count < 2 ^ 8

def bytes (head : RecordHead) (flags : U8) : List U8 :=
  [head.version ||| flags <<< 3, head.prologSize, BitVec.ofNat 8 head.count,
    head.frameOffset.setWidth 8 <<< 4 ||| head.frameRegister.setWidth 8] ++
  (head.codes.flatMap FormedCode.bytes ++ List.replicate (2 * (head.count % 2)) 0)

def info (head : RecordHead) (flags : U8) (handlerRva handlerDataRva : Option U32) (chained : Option UnwindEntry) : UnwindInfo where
  version := head.version
  hasExceptionHandler := flags &&& UNW_FLAG_EHANDLER ≠ 0
  hasTerminationHandler := flags &&& UNW_FLAG_UHANDLER ≠ 0
  prologSize := head.prologSize
  frameRegister := if head.frameRegister = 0 then none else some (head.frameRegister.setWidth 8)
  frameOffset := head.frameOffset.setWidth 16 * 16
  codes := head.codes.map FormedCode.code
  handlerRva
  handlerDataRva
  chained

end RecordHead

def handlerFlags (exception termination : Bool) : U8 :=
  (if exception then UNW_FLAG_EHANDLER else 0) ||| (if termination then UNW_FLAG_UHANDLER else 0)

inductive UnwindRecord where
  | plain (head : RecordHead)
  | handled (head : RecordHead) (exception termination : Bool) (handlerRva : U32)
  | chained (head : RecordHead) (beginRva endRva unwindRva : U32) (parent : UnwindRecord)

namespace UnwindRecord

def head : UnwindRecord → RecordHead
  | plain head => head
  | handled head _ _ _ => head
  | chained head _ _ _ _ => head

def flags : UnwindRecord → U8
  | plain _ => 0
  | handled _ exception termination _ => handlerFlags exception termination
  | chained _ _ _ _ _ => UNW_FLAG_CHAININFO

def trailer : UnwindRecord → List U8
  | plain _ => []
  | handled _ _ _ handlerRva => toLe 4 (handlerRva.setWidth 64)
  | chained _ beginRva endRva unwindRva _ =>
    toLe 4 (beginRva.setWidth 64) ++ (toLe 4 (endRva.setWidth 64) ++ toLe 4 (unwindRva.setWidth 64))

def bytes (r : UnwindRecord) : List U8 := r.head.bytes r.flags ++ r.trailer

/-- A handler is for exceptions, for termination or for both, and a chained entry has a function. -/
def Fits : UnwindRecord → Prop
  | plain head => head.Fits
  | handled head exception termination _ => head.Fits ∧ (exception || termination) = true
  | chained head beginRva endRva _ parent => head.Fits ∧ beginRva < endRva ∧ parent.Fits

def links : UnwindRecord → Nat
  | chained _ _ _ _ parent => parent.links + 1
  | _ => 0

/-- Where the trailer of a record at `rva` begins. -/
def after (r : UnwindRecord) (rva : U32) : U32 := rva + BitVec.ofNat 32 (r.head.bytes r.flags).length

def info : UnwindRecord → U32 → UnwindInfo
  | plain head, _ => head.info 0 none none none
  | r@(handled head _ _ handlerRva), rva => head.info r.flags (some handlerRva) (some (r.after rva + 4)) none
  | r@(chained head beginRva endRva unwindRva parent), rva =>
    head.info r.flags none none (some ⟨beginRva, endRva, r.after rva, parent.info unwindRva⟩)

end UnwindRecord

def Served (sections : List Section) (rva : U32) (bytes : List U8) : Prop :=
  ∀ k n, 0 < n → k + n ≤ bytes.length → sliceAt sections (rva + BitVec.ofNat 32 k) n = .ok ((bytes.drop k).take n)

/-- The record is at `rva`, and every record it is chained to at the place its entry names. -/
def UnwindRecord.Stored (sections : List Section) : UnwindRecord → U32 → Prop
  | r@(chained _ _ _ unwindRva parent), rva => Served sections rva r.bytes ∧ parent.Stored sections unwindRva
  | r, rva => Served sections rva r.bytes

/-! ## Reading it back -/

section Reads

variable {sections : List Section} {rva : U32} {a b : List U8}

theorem Holds.served (hLaid : Laid sections) (h : Holds sections rva a) : Served sections rva a :=
  fun _ _ hn hEnd => h.slice hLaid hn hEnd

theorem Served.left (h : Served sections rva (a ++ b)) : Served sections rva a := by
  intro k n hn hEnd
  rw [h k n hn (by rw [List.length_append]; omega), List.drop_append_of_le_length (by omega), List.take_append_of_le_length]
  rw [List.length_drop]
  omega

theorem Served.right (h : Served sections rva (a ++ b)) : Served sections (rva + BitVec.ofNat 32 a.length) b := by
  intro k n hn hEnd
  have hSlice := h (a.length + k) n hn (by rw [List.length_append]; omega)
  rwa [BitVec.ofNat_add, ← BitVec.add_assoc, List.drop_append, List.drop_of_length_le (by omega), List.nil_append,
    Nat.add_sub_cancel_left] at hSlice

theorem Served.whole (h : Served sections rva a) (hPos : 0 < a.length) : sliceAt sections rva a.length = .ok a := by
  have hSlice := h 0 a.length hPos (Nat.le_of_eq (Nat.zero_add _))
  rwa [BitVec.add_zero, List.drop_zero, List.take_length] at hSlice

theorem Served.u8 {v : U8} (h : Served sections rva (v :: b)) : unwindU8 sections rva = .ok v := by
  have hSlice := (Served.left (a := [v]) h).whole Nat.one_pos
  rw [unwindU8, sliceU8, show sliceAt sections rva 1 = .ok [v] from hSlice]
  exact congrArg Except.ok (by simp [fromLe])

theorem Served.u16 {v : U16} (h : Served sections rva (toLe 2 (v.setWidth 64))) : unwindU16 sections rva = .ok v := by
  have hSlice := h.whole (by rw [length_toLe]; exact Nat.two_pos)
  rw [length_toLe] at hSlice
  rw [unwindU16, sliceU16, hSlice]
  exact congrArg Except.ok (fromLe_toLe_setWidth (Nat.le_refl 16) (by decide) v)

theorem Served.u32 {v : U32} (h : Served sections rva (toLe 4 (v.setWidth 64))) : unwindU32 sections rva = .ok v := by
  have hSlice := h.whole (by rw [length_toLe]; exact Nat.succ_pos 3)
  rw [length_toLe] at hSlice
  rw [unwindU32, sliceU32, hSlice]
  exact congrArg Except.ok (fromLe_toLe_four v)

variable {version : U8} {base : U32} {i : Nat}

theorem toLe_append (lo hi : U8) : toLe 2 ((hi ++ lo : U16).setWidth 64) = [lo, hi] := by
  have hLow : (((hi ++ lo : U16).setWidth 64) >>> (8 * 0)).setWidth 8 = lo := by
    apply BitVec.eq_of_getLsbD_eq
    intro k hk
    simp only [BitVec.getLsbD_setWidth, BitVec.getLsbD_ushiftRight, Nat.mul_zero, Nat.zero_add, hk, show k < 64 by omega, decide_true,
      Bool.true_and]
    exact (@BitVec.getLsbD_append 8 8 k hi lo).trans (if_pos hk)
  have hHigh : (((hi ++ lo : U16).setWidth 64) >>> (8 * 1)).setWidth 8 = hi := by
    apply BitVec.eq_of_getLsbD_eq
    intro k hk
    simp only [BitVec.getLsbD_setWidth, BitVec.getLsbD_ushiftRight, Nat.mul_one, hk, show 8 + k < 64 by omega, decide_true,
      Bool.true_and]
    exact (@BitVec.getLsbD_append 8 8 (8 + k) hi lo).trans (by rw [if_neg (by omega), Nat.add_sub_cancel_left])
  exact congrArg₂ (fun x y => [x, y]) hLow hHigh

theorem Served.extra {c : FormedCode} (h : Served sections (base + BitVec.ofNat 32 (i * 2)) c.bytes) :
    Served sections (base + BitVec.ofNat 32 ((i + 1) * 2)) c.form.extra := by
  have hRest := Served.right (a := [c.offset, c.form.second]) h
  rwa [BitVec.add_assoc, ← BitVec.ofNat_add, show i * 2 + [c.offset, c.form.second].length = (i + 1) * 2 from (Nat.succ_mul i 2).symm]
    at hRest

theorem unwindOp_served {c : FormedCode} (hVersion : c.form.isEpilog = true → version = 2)
    (h : Served sections (base + BitVec.ofNat 32 (i * 2)) c.bytes) :
    unwindOp sections version base i (c.form.opcode.setWidth 8) (c.form.info.setWidth 8) = .ok (c.form.op c.offset, c.form.slots) := by
  have hExtra := h.extra
  obtain ⟨offset, form⟩ := c
  cases form with
  | pushNonvolatile reg => rfl
  | allocLarge scaled => exact congrArg (· >>= _) hExtra.u16
  | allocLargeFar size => exact congrArg (· >>= _) hExtra.u32
  | allocSmall scaled =>
    have hWiden : ∀ n : BitVec 4, (n.setWidth 8).setWidth 32 = n.setWidth 32 := by decide
    show Except.ok (UnwindOp.Alloc ((scaled.setWidth 8).setWidth 32 * 8 + 8), 1) = _
    rw [hWiden]
    rfl
  | setFrameRegister => rfl
  | saveNonvolatile reg scaled => exact congrArg (· >>= _) hExtra.u16
  | saveNonvolatileFar reg offset => exact congrArg (· >>= _) hExtra.u32
  | epilog info =>
    have hTwo : version = 2 := hVersion rfl
    have hRaw : unwindU16 sections (base + BitVec.ofNat 32 (i * 2)) = .ok ((CodeForm.epilog info).second ++ offset) := by
      refine Served.u16 ?_
      exact (toLe_append _ _).symm ▸ h
    show (if version = 2 then _ else _) = _
    rw [if_pos hTwo]
    exact congrArg (· >>= _) hRaw
  | saveXmm128 reg scaled => exact congrArg (· >>= _) hExtra.u16
  | saveXmm128Far reg offset => exact congrArg (· >>= _) hExtra.u32
  | pushMachineFrame withErrorCode => cases withErrorCode <;> rfl

theorem unwindCodes_served {codes : List FormedCode} (hVersion : ∀ c ∈ codes, c.form.isEpilog = true → version = 2) {count fuel : Nat}
    {read : List UnwindCode} (h : Served sections (base + BitVec.ofNat 32 (i * 2)) (codes.flatMap FormedCode.bytes))
    (hCount : i + slotCount codes = count) (hFuel : slotCount codes ≤ fuel) :
    unwindCodes sections version base count fuel i read = .ok (count, read ++ codes.map FormedCode.code) := by
  induction codes generalizing fuel i read with
  | nil =>
    obtain rfl : i = count := hCount
    rw [List.map_nil, List.append_nil]
    cases fuel with
    | zero => rfl
    | succ fuel =>
      rw [unwindCodes, if_neg (Nat.lt_irrefl i)]
  | cons c codes ih =>
    have hSlots : slotCount (c :: codes) = c.form.slots + slotCount codes := List.sum_cons
    have hPos := c.form.slots_pos
    have hHere : Served sections (base + BitVec.ofNat 32 (i * 2)) c.bytes := h.left
    have hLater := Served.right (a := c.bytes) h
    rw [BitVec.add_assoc, ← BitVec.ofNat_add, c.length_bytes, Nat.mul_comm 2, ← Nat.add_mul] at hLater
    have hSecond := (Served.right (a := [c.offset]) hHere).u8
    rw [BitVec.add_assoc, ← BitVec.ofNat_add] at hSecond
    cases fuel with
    | zero => omega
    | succ fuel =>
      rw [unwindCodes, if_pos (by omega), hHere.u8]
      show (unwindU8 sections _ >>= _) = _
      rw [show unwindU8 sections (base + BitVec.ofNat 32 (i * 2 + 1)) = .ok c.form.second from hSecond]
      show (unwindOp sections version base i (c.form.second &&& 0xF) (c.form.second >>> 4) >>= _) = _
      rw [c.form.second_low, c.form.second_high, unwindOp_served (hVersion c List.mem_cons_self) hHere]
      show unwindCodes sections version base count fuel (i + c.form.slots) (read ++ [c.code]) = _
      rw [ih (fun d hd => hVersion d (List.mem_cons_of_mem c hd)) hLater (by omega) (by omega), List.append_assoc]
      rfl

theorem flags_version : ∀ flags : U8, flags < 8 → ∀ version ∈ [(1 : U8), 2],
    (version ||| flags <<< 3) &&& 0x7 = version ∧ (version ||| flags <<< 3) >>> 3 = flags := by
  decide

theorem RecordHead.length_bytes (head : RecordHead) (flags : U8) :
    (head.bytes flags).length = 4 + 2 * (2 * ((head.count + 1) / 2)) := by
  rw [bytes, List.length_append, List.length_append, List.length_replicate, length_flatMap_bytes, count]
  show 4 + _ = _
  omega

theorem RecordHead.Fits.count_toNat {head : RecordHead} (hFits : head.Fits) : (BitVec.ofNat 8 head.count).toNat = head.count := by
  rw [BitVec.toNat_ofNat, Nat.mod_eq_of_lt hFits.count]

theorem unwindInfo_served {head : RecordHead} (hFits : head.Fits) {flags : U8} (hFlags : flags < 8)
    {deeper : Option (U32 → UnwindResult UnwindInfo)} (h : Served sections rva (head.bytes flags)) :
    unwindInfo sections deeper rva = do
      let (handlerRva, handlerDataRva, chained) ←
        unwindTrailer sections deeper flags (rva + BitVec.ofNat 32 (head.bytes flags).length)
      return head.info flags handlerRva handlerDataRva chained := by
  have hVersion : head.version ∈ [(1 : U8), 2] := by
    rcases hFits.version with hOne | hTwo
    · exact hOne ▸ List.mem_cons_self
    · exact hTwo ▸ List.mem_cons_of_mem _ List.mem_cons_self
  obtain ⟨hLow, hHigh⟩ := flags_version flags hFlags head.version hVersion
  obtain ⟨hRegister, hOffset⟩ := CodeForm.nibbles head.frameOffset head.frameRegister
  have h1 := (Served.right (a := [head.version ||| flags <<< 3]) h).u8
  have h2 := (Served.right (a := [_, _]) h).u8
  have h3 := (Served.right (a := [_, _, _]) h).u8
  have hCodes : Served sections (rva + 4 + BitVec.ofNat 32 (0 * 2)) (head.codes.flatMap FormedCode.bytes) := by
    rw [Nat.zero_mul, BitVec.add_zero]
    exact (Served.right (a := [_, _, _, _]) h).left
  have hLoop := @unwindCodes_served _ head.version (rva + 4) 0 head.codes hFits.epilogs head.count head.count [] hCodes
    (Nat.zero_add _) (Nat.le_refl _)
  have hAfter : afterCodes rva (BitVec.ofNat 8 head.count) = rva + BitVec.ofNat 32 (head.bytes flags).length := by
    rw [afterCodes, hFits.count_toNat, head.length_bytes, BitVec.ofNat_add, ← BitVec.add_assoc]
    rfl
  have hFrame : (if head.frameRegister.setWidth 8 = (0 : U8) then none else some (head.frameRegister.setWidth 8 : U8)) =
      if head.frameRegister = 0 then none else some (head.frameRegister.setWidth 8) := by
    generalize head.frameRegister = r
    revert r
    decide
  have hWide : (head.frameOffset.setWidth 8).setWidth 16 = head.frameOffset.setWidth 16 := by
    generalize head.frameOffset = n
    revert n
    decide
  rw [unwindInfo, Served.u8 (b := _) h, show unwindU8 sections (rva + 1) = _ from h1, show unwindU8 sections (rva + 2) = _ from h2,
    show unwindU8 sections (rva + 3) = _ from h3]
  dsimp only [bind, Except.bind]
  rw [hLow, hHigh, hRegister, hOffset, hFits.count_toNat, hLoop, hAfter, hFrame, hWide]
  rw [if_neg (fun hNeither => hFits.version.elim hNeither.1 hNeither.2)]
  dsimp only
  rw [if_neg (Nat.lt_irrefl _)]
  rfl

theorem runtimeFunction_served {beginRva endRva unwindRva : U32} (hRange : beginRva < endRva) (parseInfo : U32 → UnwindResult UnwindInfo)
    (h : Served sections rva (toLe 4 (beginRva.setWidth 64) ++ (toLe 4 (endRva.setWidth 64) ++ toLe 4 (unwindRva.setWidth 64)))) :
    runtimeFunction sections parseInfo rva = (parseInfo unwindRva).map fun info => some ⟨beginRva, endRva, rva, info⟩ := by
  have hLater := h.right
  rw [length_toLe] at hLater
  have hLast := hLater.right
  rw [length_toLe, BitVec.add_assoc] at hLast
  have hSome : ¬(beginRva = 0 ∧ endRva = 0) := by
    rintro ⟨rfl, rfl⟩
    exact BitVec.lt_irrefl _ hRange
  rw [runtimeFunction, h.left.u32, show unwindU32 sections (rva + 4) = _ from hLater.left.u32,
    show unwindU32 sections (rva + 8) = _ from hLast.u32]
  dsimp only [bind, Except.bind]
  rw [if_neg hSome, if_neg (BitVec.not_le.mpr hRange)]
  cases parseInfo unwindRva with
  | error e => rfl
  | ok info => rfl

theorem UnwindRecord.Fits.head {r : UnwindRecord} (hFits : r.Fits) : r.head.Fits := by
  cases r with
  | plain head => exact hFits
  | handled head exception termination handlerRva => exact hFits.1
  | chained head beginRva endRva unwindRva parent => exact hFits.1

theorem handlerFlags_lt : ∀ exception termination : Bool, handlerFlags exception termination < 8 := by
  decide

theorem handlerFlags_handler : ∀ exception termination : Bool, (exception || termination) = true →
    ¬handlerFlags exception termination &&& UNW_FLAG_CHAININFO ≠ 0 ∧
      handlerFlags exception termination &&& (UNW_FLAG_EHANDLER ||| UNW_FLAG_UHANDLER) ≠ 0 := by
  decide

theorem UnwindRecord.flags_lt (r : UnwindRecord) : r.flags < 8 := by
  cases r with
  | plain head => exact (by decide : (0 : U8) < 8)
  | handled head exception termination handlerRva => exact handlerFlags_lt exception termination
  | chained head beginRva endRva unwindRva parent => exact (by decide : UNW_FLAG_CHAININFO < 8)

variable {r : UnwindRecord}

theorem UnwindRecord.Stored.served (h : r.Stored sections rva) : Served sections rva r.bytes := by
  cases r with
  | plain head => exact h
  | handled head exception termination handlerRva => exact h
  | chained head beginRva endRva unwindRva parent => exact h.1

theorem unwindInfo_stored (hFits : r.Fits) (hStored : r.Stored sections rva) (deeper : Option (U32 → UnwindResult UnwindInfo)) :
    unwindInfo sections deeper rva = do
      let (handlerRva, handlerDataRva, chained) ← unwindTrailer sections deeper r.flags (r.after rva)
      return r.head.info r.flags handlerRva handlerDataRva chained :=
  unwindInfo_served hFits.head r.flags_lt hStored.served.left

theorem unwindTrailer_plain (deeper : Option (U32 → UnwindResult UnwindInfo)) : unwindTrailer sections deeper 0 rva = .ok (none, none, none) := by
  unfold unwindTrailer
  rw [if_neg (by decide), if_neg (by decide)]

theorem unwindTrailer_none : unwindTrailer sections none UNW_FLAG_CHAININFO rva = .error .tooDeep := by
  unfold unwindTrailer
  rw [if_pos (by decide)]

theorem unwindTrailer_handled {head : RecordHead} {exception termination : Bool} {handlerRva : U32}
    (hEither : (exception || termination) = true) (deeper : Option (U32 → UnwindResult UnwindInfo))
    (h : Served sections rva (UnwindRecord.handled head exception termination handlerRva).trailer) :
    unwindTrailer sections deeper (handlerFlags exception termination) rva = .ok (some handlerRva, some (rva + 4), none) := by
  obtain ⟨hAlone, hHandler⟩ := handlerFlags_handler exception termination hEither
  unfold unwindTrailer
  rw [if_neg hAlone, if_pos hHandler]
  exact congrArg (· >>= _) (Served.u32 h)

theorem unwindTrailer_chained {head : RecordHead} {beginRva endRva unwindRva : U32} {parent : UnwindRecord} (hRange : beginRva < endRva)
    (parseInfo : U32 → UnwindResult UnwindInfo)
    (h : Served sections rva (UnwindRecord.chained head beginRva endRva unwindRva parent).trailer) :
    unwindTrailer sections (some parseInfo) UNW_FLAG_CHAININFO rva =
      (parseInfo unwindRva).map fun info => (none, none, some ⟨beginRva, endRva, rva, info⟩) := by
  unfold unwindTrailer
  rw [if_pos (by decide)]
  dsimp only
  rw [runtimeFunction_served hRange parseInfo h]
  cases parseInfo unwindRva with
  | error e => rfl
  | ok info => rfl

theorem parseUnwindInfo_stored (hFits : r.Fits) (hStored : r.Stored sections rva) (left : Nat) :
    parseUnwindInfo sections left rva = if r.links ≤ left then .ok (r.info rva) else .error .tooDeep := by
  induction r generalizing rva left with
  | plain head =>
    refine Eq.trans ?_ (if_pos (Nat.zero_le left)).symm
    have hRead := fun deeper => (unwindInfo_stored hFits hStored deeper).trans (congrArg (· >>= _) (unwindTrailer_plain deeper))
    cases left with
    | zero => exact hRead none
    | succ left => exact hRead _
  | handled head exception termination handlerRva =>
    refine Eq.trans ?_ (if_pos (Nat.zero_le left)).symm
    have hRead := fun deeper => (unwindInfo_stored hFits hStored deeper).trans
      (congrArg (· >>= _) (unwindTrailer_handled hFits.2 deeper hStored.served.right))
    cases left with
    | zero => exact hRead none
    | succ left => exact hRead _
  | chained head beginRva endRva unwindRva parent ih =>
    cases left with
    | zero =>
      refine Eq.trans ?_ (if_neg (Nat.not_succ_le_zero parent.links)).symm
      exact (unwindInfo_stored hFits hStored none).trans (congrArg (· >>= _) unwindTrailer_none)
    | succ left =>
      have hRead := (unwindInfo_stored hFits hStored (some (parseUnwindInfo sections left))).trans
        (congrArg (· >>= _) (unwindTrailer_chained hFits.2.1 _ hStored.served.right))
      rw [ih hFits.2.2 hStored.2 left] at hRead
      by_cases hDeep : parent.links ≤ left
      · rw [if_pos hDeep] at hRead
        exact hRead.trans (if_pos (Nat.succ_le_succ hDeep)).symm
      · rw [if_neg hDeep] at hRead
        exact hRead.trans (if_neg fun hLe => hDeep (Nat.le_of_succ_le_succ hLe)).symm

end Reads

end Exemu.Loader
