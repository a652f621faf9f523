import Exemu.Library.Ask
import Exemu.Loader.Image

/-! # Walking the tables of an image

The directories of an image are walked by relative address only, each read depending on the ones
before it.
-/
namespace Exemu.Loader

open Path (Text)

inductive Read where
  | u8 (rva : U32)
  | u16 (rva : U32)
  | u32 (rva : U32)
  | u64 (rva : U32)
  | cstr (rva : U32)
  deriving DecidableEq, Repr

abbrev Read.Answer : Read → Type
  | .u8 _ => PeResult U8
  | .u16 _ => PeResult U16
  | .u32 _ => PeResult U32
  | .u64 _ => PeResult U64
  | .cstr _ => PeResult Text

def fileAnswer (sections : List Section) : (q : Read) → q.Answer
  | .u8 rva => sliceU8 sections rva
  | .u16 rva => sliceU16 sections rva
  | .u32 rva => sliceU32 sections rva
  | .u64 rva => sliceU64 sections rva
  | .cstr rva => cstrAtRva sections rva

/-- Why there is no result. Some loops of the parser end only where the image lets them,
so a walk is given the number of rounds it may make in such a loop. -/
inductive Stop where
  | refused (e : InvalidPe)
  | fuel
  deriving DecidableEq, Repr

abbrev Walk := ExceptT Stop (Ask Read Read.Answer)

namespace Walk

variable {α β : Type}

def ofResult : PeResult α → Except Stop α
  | .ok a => .ok a
  | .error e => .error (.refused e)

def readU8 (rva : U32) : Walk U8 := ExceptT.mk (.ask (.u8 rva) fun a => .done (ofResult a))
def readU16 (rva : U32) : Walk U16 := ExceptT.mk (.ask (.u16 rva) fun a => .done (ofResult a))
def readU32 (rva : U32) : Walk U32 := ExceptT.mk (.ask (.u32 rva) fun a => .done (ofResult a))
def readU64 (rva : U32) : Walk U64 := ExceptT.mk (.ask (.u64 rva) fun a => .done (ofResult a))
def readCstr (rva : U32) : Walk Text := ExceptT.mk (.ask (.cstr rva) fun a => .done (ofResult a))

def okOf : Except Stop α → Except Stop (Option α)
  | .ok a => .ok (some a)
  | .error (.refused _) => .ok none
  | .error .fuel => .error .fuel

/-- `Result::ok` -/
def ok (w : Walk α) : Walk (Option α) := ExceptT.mk (okOf <$> w.run)

def outOfFuel : Walk α := throw Stop.fuel

/-- `for i in i..i + n` -/
def forFrom (body : U32 → β → Walk β) : Nat → U32 → β → Walk β
  | 0, _, b => pure b
  | n + 1, i, b => do
    let b ← body i b
    forFrom body n (i + 1) b

def result (answer : (q : Read) → q.Answer) (w : Walk α) : Except Stop α := Ask.run answer (ExceptT.run w)

def reads (answer : (q : Read) → q.Answer) (w : Walk α) : List Read := Ask.asked answer (ExceptT.run w)

variable {answer answer' : (q : Read) → q.Answer}

@[simp] theorem result_pure (a : α) : (pure a : Walk α).result answer = .ok a := rfl

variable (w : Walk α)

theorem result_bind (f : α → Walk β) : (w >>= f).result answer = (w.result answer).bind fun a => (f a).result answer := by
  show Ask.run answer (w.run >>= ExceptT.bindCont f) = _
  rw [Ask.run_bind]
  show (ExceptT.bindCont f (w.result answer)).run answer = _
  cases w.result answer with
  | ok a => rfl
  | error e => rfl

@[simp] theorem result_readU16 (rva : U32) : (readU16 rva).result answer = ofResult (answer (.u16 rva)) := rfl
@[simp] theorem result_readU32 (rva : U32) : (readU32 rva).result answer = ofResult (answer (.u32 rva)) := rfl

@[simp] theorem result_ok : (ok w).result answer = okOf (w.result answer) :=
  Ask.run_bind w.run (pure ∘ okOf)

theorem result_eq_of_agree (hAgree : ∀ q ∈ w.reads answer, answer' q = answer q) :
    w.result answer' = w.result answer := Ask.run_eq_of_agree _ hAgree

end Walk

open Walk

/-! ## Exports -/

def exportName (namesRva ordsRva i : U32) (names : List (U32 × Text)) : Walk (List (U32 × Text)) := do
  let nameRva ← readU32 (namesRva + i * 4)
  let ordIndex := (← readU16 (ordsRva + i * 2)).setWidth 32
  match ← (readCstr nameRva).ok with
  | some nm => return (ordIndex, nm) :: names
  | none => return names

/-- A name stored for an index replaces the one stored for it before: `names` is newest first. -/
def exportEntry (dirRva dirEnd funcsRva ordinalBase : U32) (names : List (U32 × Text)) (i : U32) (exports : List Export) :
    Walk (List Export) := do
  let funcRva ← readU32 (funcsRva + i * 4)
  if funcRva = 0 then return exports
  else
    let forwarder ← if dirRva ≤ funcRva && funcRva < dirEnd then (readCstr funcRva).ok else pure none
    return exports ++ [⟨names.lookup i, (ordinalBase + i).setWidth 16, funcRva, forwarder⟩]

/-- `saturating_add` -/
def saturatingAdd32 (a b : U32) : U32 := if a.toNat + b.toNat < 2 ^ 32 then a + b else BitVec.allOnes 32

def parseExports (dirRva dirSize : U32) : Walk (List Export × Option Text) := do
  let ordinalBase ← readU32 (dirRva + 16)
  let numFuncs ← readU32 (dirRva + 20)
  let numNames ← readU32 (dirRva + 24)
  let funcsRva ← readU32 (dirRva + 28)
  let namesRva ← readU32 (dirRva + 32)
  let ordsRva ← readU32 (dirRva + 36)
  let namePtr ← readU32 (dirRva + 12)
  let dllName ← if namePtr ≠ 0 then (readCstr namePtr).ok else pure none
  let dirEnd := saturatingAdd32 dirRva dirSize
  let names ← forFrom (exportName namesRva ordsRva) numNames.toNat 0 []
  let exports ← forFrom (exportEntry dirRva dirEnd funcsRva ordinalBase names) numFuncs.toNat 0 []
  return (exports, dllName)

/-! ## Relocations -/

def relocEntry (pageRva block : U32) (e : U32) (relocs : List Reloc) : Walk (List Reloc) := do
  let v ← readU16 (block + 8 + e * 2)
  let kind := (v >>> 12).setWidth 8
  if kind = 0 then return relocs else return relocs ++ [⟨pageRva + (v &&& 0x0FFF).setWidth 32, kind⟩]

/-- The `while` loop. Each round moves at least eight bytes on, so that `dir_size / 8` of them are enough. -/
def relocBlocks (dirRva dirSize : U32) : Nat → U32 → List Reloc → Walk (List Reloc)
  | 0, _, relocs => pure relocs
  | n + 1, off, relocs => do
    if off.toNat + 8 ≤ dirSize.toNat then
      let pageRva ← readU32 (dirRva + off)
      let blockSize ← readU32 (dirRva + off + 4)
      if blockSize < 8 then return relocs
      else
        let relocs ← forFrom (relocEntry pageRva (dirRva + off)) ((blockSize.toNat - 8) / 2) 0 relocs
        relocBlocks dirRva dirSize n (saturatingAdd32 off blockSize) relocs
    else return relocs

def parseRelocs (dirRva dirSize : U32) : Walk (List Reloc) := relocBlocks dirRva dirSize (dirSize.toNat / 8) 0 []

/-! ## Thread-local storage -/

def readPtr (is64bit : Bool) (rva : U32) : Walk U64 :=
  if is64bit then readU64 rva else return (← readU32 rva).setWidth 64

def vaToRva (imageBase va : U64) : Option U32 :=
  if va = 0 then none
  else if imageBase ≤ va && decide ((va - imageBase).toNat < 2 ^ 32) then some ((va - imageBase).setWidth 32)
  else none

def tlsTemplate : Nat → U32 → List U8 → Walk (List U8)
  | 0, _, buf => pure buf
  | n + 1, rva, buf => do
    match ← (readU8 rva).ok with
    | some b => tlsTemplate n (rva + 1) (buf ++ [b])
    | none => return []

def tlsCallbacks (is64bit : Bool) (imageBase : U64) (p : U32) : Nat → U32 → List U32 → Walk (List U32)
  | 0, _, _ => outOfFuel
  | n + 1, arrRva, callbacks => do
    match ← (readPtr is64bit arrRva).ok with
    | none => return callbacks
    | some cbVa =>
      if cbVa = 0 then return callbacks
      else
        match vaToRva imageBase cbVa with
        | some rva => tlsCallbacks is64bit imageBase p n (arrRva + p) (callbacks ++ [rva])
        | none => return callbacks

def parseTls (fuel : Nat) (dirRva : U32) (imageBase : U64) (is64bit : Bool) : Walk Tls := do
  let p : U32 := if is64bit then 8 else 4
  let startAddr ← readPtr is64bit dirRva
  let endAddr ← readPtr is64bit (dirRva + p)
  let indexAddr ← readPtr is64bit (dirRva + 2 * p)
  let callbacksAddr ← readPtr is64bit (dirRva + 3 * p)
  let zeroFill ← readU32 (dirRva + 4 * p)
  let characteristics ← readU32 (dirRva + (4 * p + 4))
  let rawTemplate ← match vaToRva imageBase startAddr with
    | some startRva => if startAddr < endAddr then tlsTemplate (endAddr - startAddr).toNat startRva [] else pure []
    | none => pure []
  let callbackRvas ← match vaToRva imageBase callbacksAddr with
    | some arrRva => tlsCallbacks is64bit imageBase p fuel arrRva []
    | none => pure []
  return ⟨startAddr, endAddr, indexAddr, callbacksAddr, zeroFill, characteristics, rawTemplate, callbackRvas⟩

/-! ## Imports -/

def thunkSize (is64bit : Bool) : U32 := if is64bit then 8 else 4

def ordinalFlag (is64bit : Bool) : U64 := if is64bit then 1 <<< 63 else 1 <<< 31

def byName (thunk : U64) : U32 := (thunk &&& 0x7FFFFFFF).setWidth 32 + 2

def thunkSymbol (is64bit : Bool) (thunk : U64) : Walk ImportSymbol :=
  if thunk &&& ordinalFlag is64bit ≠ 0 then pure (.ordinal ((thunk &&& 0xFFFF).setWidth 16))
  else ImportSymbol.named <$> readCstr (byName thunk)

def importThunks (is64bit : Bool) (dll : Text) (lookup firstThunk : U32) : Nat → U32 → List Import → Walk (List Import)
  | 0, _, _ => outOfFuel
  | n + 1, i, imports => do
    let thunk ← readPtr is64bit (lookup + i * thunkSize is64bit)
    if thunk = 0 then return imports
    else
      let symbol ← thunkSymbol is64bit thunk
      importThunks is64bit dll lookup firstThunk n (i + 1) (imports ++ [⟨dll, symbol, firstThunk + i * thunkSize is64bit⟩])

def importDescriptors (is64bit : Bool) : Nat → U32 → List Import → Walk (List Import)
  | 0, _, _ => outOfFuel
  | n + 1, desc, imports => do
    let origFirstThunk ← readU32 desc
    let nameRva ← readU32 (desc + 12)
    let firstThunk ← readU32 (desc + 16)
    if origFirstThunk = 0 && nameRva = 0 && firstThunk = 0 then return imports
    else
      let dll := (← readCstr nameRva).map Char.toLower
      let lookup := if origFirstThunk ≠ 0 then origFirstThunk else firstThunk
      let imports ← importThunks is64bit dll lookup firstThunk n 0 imports
      importDescriptors is64bit n (desc + 20) imports

def parseImports (fuel : Nat) (dirRva : U32) (is64bit : Bool) : Walk (List Import) := importDescriptors is64bit fuel dirRva []

def delayThunks (is64bit : Bool) (dll : Text) (intRva iatRva : U32) : Nat → U32 → List Import → Walk (List Import)
  | 0, _, _ => outOfFuel
  | n + 1, i, imports => do
    match ← (readPtr is64bit (intRva + i * thunkSize is64bit)).ok with
    | none => return imports
    | some thunk =>
      if thunk = 0 then return imports
      else
        match ← (thunkSymbol is64bit thunk).ok with
        | none => return imports
        | some symbol =>
          delayThunks is64bit dll intRva iatRva n (i + 1) (imports ++ [⟨dll, symbol, iatRva + i * thunkSize is64bit⟩])

def delayDescriptors (imageBase : U64) (is64bit : Bool) : Nat → U32 → List Import → Walk (List Import)
  | 0, _, _ => outOfFuel
  | n + 1, desc, imports => do
    let attributes ← readU32 desc
    let nameField ← readU32 (desc + 4)
    let iatField ← readU32 (desc + 12)
    let intField ← readU32 (desc + 16)
    if attributes = 0 && nameField = 0 && iatField = 0 && intField = 0 then return imports
    else
      let toRva (field : U32) : U32 :=
        if attributes &&& 1 ≠ 0 then field else (field.setWidth 64 - imageBase).setWidth 32
      match ← (readCstr (toRva nameField)).ok with
      | none => delayDescriptors imageBase is64bit n (desc + 32) imports
      | some dll =>
        let imports ← delayThunks is64bit (dll.map Char.toLower) (toRva intField) (toRva iatField) n 0 imports
        delayDescriptors imageBase is64bit n (desc + 32) imports

def parseDelayImports (fuel : Nat) (dirRva : U32) (imageBase : U64) (is64bit : Bool) : Walk (List Import) :=
  delayDescriptors imageBase is64bit fuel dirRva []

end Exemu.Loader
