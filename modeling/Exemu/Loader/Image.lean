import Exemu.Core.Memory
import Exemu.Library.Path

/-! # A parsed image and reading it by relative address

What the parser makes of a file, and the reads every table of it is walked with: an address
relative to the image base is looked up in the section table, and the bytes come from that
section's part of the file.
-/
namespace Exemu.Loader

open Path (Text)

/-- `EmuError::InvalidPe`, with the values its message shows. -/
inductive InvalidPe where
  | dosSignature
  | peSignature
  | machine (machine : U16)
  | magic (magic : U16)
  | outOfBounds (len off : Nat)
  | overlap (cur : Text) (curRva : U32) (next : Text) (nextRva : U32)
  | notInSection (rva : U32)
  | pastSectionData (rva : U32)
  | stringNotInSection (rva : U32)
  | stringPastSectionData (rva : U32)
  | relocationType (kind : U8) (rva : U32)
  | relocationNotInSection (rva : U32)
  | relocationPastData (rva : U32)
  deriving DecidableEq, Repr

abbrev PeResult (α : Type) := Except InvalidPe α

theorem ok_of_bind {ε α β : Type} {x : Except ε α} {f : α → Except ε β} {b : β} (h : (x >>= f) = .ok b) :
    ∃ a, x = .ok a ∧ f a = .ok b := by
  cases x with
  | error e => cases h
  | ok a => exact ⟨a, rfl, h⟩

theorem toOption_ok {ε α : Type} {x : Except ε α} {a : α} (h : x.toOption = some a) : x = .ok a := by
  cases x with
  | error e => cases h
  | ok b =>
    cases h
    rfl

structure Section where
  name : Text
  rva : U32
  virtualSize : U32
  data : List U8
  readable : Bool
  writable : Bool
  executable : Bool
  deriving DecidableEq, Repr

inductive ImportSymbol where
  | named (name : Text)
  | ordinal (ord : U16)
  deriving DecidableEq, Repr

structure Import where
  dll : Text
  symbol : ImportSymbol
  iatRva : U32
  deriving DecidableEq, Repr

structure Export where
  name : Option Text
  ordinal : U16
  rva : U32
  forwarder : Option Text
  deriving DecidableEq, Repr

structure Reloc where
  rva : U32
  kind : U8
  deriving DecidableEq, Repr

structure Tls where
  startAddressOfRawData : U64
  endAddressOfRawData : U64
  addressOfIndex : U64
  addressOfCallbacks : U64
  sizeOfZeroFill : U32
  characteristics : U32
  rawTemplate : List U8
  callbackRvas : List U32
  deriving DecidableEq, Repr

structure PeImage where
  is64bit : Bool
  imageBase : U64
  entryRva : U32
  sizeOfImage : U32
  sizeOfHeaders : U32
  subsystem : U16
  stackReserve : U64
  sections : List Section
  imports : List Import
  exports : List Export
  relocations : List Reloc
  tls : Option Tls
  dllName : Option Text
  headers : List U8
  deriving DecidableEq, Inhabited, Repr

/-! ## Texts -/

def REPLACEMENT_CHARACTER : Char := '\uFFFD'

/-- The range of the second byte after this first one, and how many bytes follow the first. -/
def utf8Lead (b : Nat) : Option (Nat × Nat × Nat) :=
  if 0xC2 ≤ b && b ≤ 0xDF then some (0x80, 0xBF, 1)
  else if b = 0xE0 then some (0xA0, 0xBF, 2)
  else if b = 0xED then some (0x80, 0x9F, 2)
  else if 0xE1 ≤ b && b ≤ 0xEF then some (0x80, 0xBF, 2)
  else if b = 0xF0 then some (0x90, 0xBF, 3)
  else if 0xF1 ≤ b && b ≤ 0xF3 then some (0x80, 0xBF, 3)
  else if b = 0xF4 then some (0x80, 0x8F, 3)
  else none

def isContinuation (b : U8) : Bool := 0x80 ≤ b.toNat && b.toNat ≤ 0xBF

/-- The character that starts with `b`, and how many of the bytes after `b` it takes.
A sequence that breaks off is replaced as far as it was right. -/
def decodeUtf8 (b : U8) (bs : List U8) : Char × Nat :=
  if b.toNat < 0x80 then (Char.ofNat b.toNat, 0)
  else
    match utf8Lead b.toNat, bs with
    | some (lo, hi, n), second :: rest =>
      if lo ≤ second.toNat && second.toNat ≤ hi then
        let tail := (rest.take (n - 1)).takeWhile isContinuation
        if tail.length = n - 1 then
          (Char.ofNat ((second :: tail).foldl (fun acc x => acc * 64 + x.toNat % 64) (b.toNat % 2 ^ (6 - n))), n)
        else (REPLACEMENT_CHARACTER, 1 + tail.length)
      else (REPLACEMENT_CHARACTER, 0)
    | _, _ => (REPLACEMENT_CHARACTER, 0)

/-- `String::from_utf8_lossy`, behind `skip` bytes that belong to the character before. -/
def utf8LossyFrom : Nat → List U8 → Text
  | _, [] => []
  | skip + 1, _ :: bs => utf8LossyFrom skip bs
  | 0, b :: bs => (decodeUtf8 b bs).1 :: utf8LossyFrom (decodeUtf8 b bs).2 bs

def fromUtf8Lossy (bs : List U8) : Text := utf8LossyFrom 0 bs

/-! ## Reads by relative address -/

/-- The `n` bytes at `a` of a byte map, if it has them all. -/
def bytesAt (byte : Nat → Option U8) : Nat → Nat → Option (List U8)
  | _, 0 => some []
  | a, n + 1 => do
    let b ← byte a
    return b :: (← bytesAt byte (a + 1) n)

theorem bytesAt_congr {f g : Nat → Option U8} {a n : Nat} (h : ∀ k < n, f (a + k) = g (a + k)) : bytesAt f a n = bytesAt g a n := by
  induction n generalizing a with
  | zero => rfl
  | succ n ih =>
    have hRest : bytesAt f (a + 1) n = bytesAt g (a + 1) n := by
      refine ih fun k hk => ?_
      have hLater := h (k + 1) (by omega)
      rwa [show a + (k + 1) = a + 1 + k by omega] at hLater
    rw [bytesAt, bytesAt, hRest, show f a = g a from h 0 (Nat.succ_pos n)]

theorem bytesAt_eq {f : Nat → Option U8} {a : Nat} {bs : List U8} (h : ∀ k (hk : k < bs.length), f (a + k) = some bs[k]) :
    bytesAt f a bs.length = some bs := by
  induction bs generalizing a with
  | nil => rfl
  | cons b bs ih =>
    have hRest : bytesAt f (a + 1) bs.length = some bs := by
      refine ih fun k hk => ?_
      have hLater := h (k + 1) (Nat.succ_lt_succ hk)
      rwa [show a + (k + 1) = a + 1 + k by omega] at hLater
    rw [List.length_cons, bytesAt, hRest, show f a = some b from h 0 (Nat.succ_pos _)]
    rfl

namespace Section

/-- `virtual_size.max(data.len() as u32)` -/
def vsize (s : Section) : Nat := max s.virtualSize.toNat (s.data.length % 2 ^ 32)

def covers (s : Section) (a : Nat) : Bool := decide (s.rva.toNat ≤ a) && decide (a < s.rva.toNat + s.vsize)

theorem covers_iff (s : Section) (a : Nat) : s.covers a = true ↔ s.rva.toNat ≤ a ∧ a < s.rva.toNat + s.vsize := by
  simp [covers]

end Section

def readAtRva (sections : List Section) (rva : U32) : Option (Section × Nat) :=
  (sections.find? fun s => s.covers rva.toNat).map fun s => (s, rva.toNat - s.rva.toNat)

/-- The read of `n` bytes that `slice_u8` to `slice_u64` make. -/
def sliceAt (sections : List Section) (rva : U32) (n : Nat) : PeResult (List U8) :=
  match readAtRva sections rva with
  | none => .error (.notInSection rva)
  | some (s, off) =>
    if off + n ≤ s.data.length then .ok ((s.data.drop off).take n) else .error (.pastSectionData rva)

def sliceU8 (sections : List Section) (rva : U32) : PeResult U8 := do
  return (fromLe (← sliceAt sections rva 1)).setWidth 8

def sliceU16 (sections : List Section) (rva : U32) : PeResult U16 := do
  return (fromLe (← sliceAt sections rva 2)).setWidth 16

def sliceU32 (sections : List Section) (rva : U32) : PeResult U32 := do
  return (fromLe (← sliceAt sections rva 4)).setWidth 32

def sliceU64 (sections : List Section) (rva : U32) : PeResult U64 := do
  return fromLe (← sliceAt sections rva 8)

def cstrAtRva (sections : List Section) (rva : U32) : PeResult Text :=
  match readAtRva sections rva with
  | none => .error (.stringNotInSection rva)
  | some (s, off) =>
    if off ≤ s.data.length then .ok (fromUtf8Lossy ((s.data.drop off).takeWhile (· ≠ 0)))
    else .error (.stringPastSectionData rva)

theorem readAtRva_some {sections : List Section} {rva : U32} {s : Section} {off : Nat} (h : readAtRva sections rva = some (s, off)) :
    s ∈ sections ∧ s.covers rva.toNat = true ∧ off = rva.toNat - s.rva.toNat := by
  obtain ⟨s', hFind, hPair⟩ := Option.map_eq_some_iff.mp h
  cases hPair
  have hCovers := List.find?_some hFind
  exact ⟨List.mem_of_find?_eq_some hFind, hCovers, rfl⟩

end Exemu.Loader
