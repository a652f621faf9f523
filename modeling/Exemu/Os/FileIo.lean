import Exemu.Library.Fallible
import Exemu.Library.Put
import Exemu.Memory.Virtual

/-! # Reading and writing a file

`NtReadFile` and `NtWriteFile` move the position of the host's file, move bytes, and write the
status block of the guest, in this order.
-/
namespace Exemu.Os

namespace FileIo

open Fallible

def HANDLE_STDIN : U64 := 0x0C
def HANDLE_STDOUT : U64 := 0x10
def HANDLE_STDERR : U64 := 0x14
def STATUS_SUCCESS : U32 := 0
def STATUS_END_OF_FILE : U32 := 0xC0000011
def STATUS_INVALID_HANDLE : U32 := 0xC0000008

/-! ## The host's files -/

@[ext]
structure HostFile where
  bytes : List U8
  pos : Nat
deriving DecidableEq

inductive SeekFrom where
  | Start (off : U64)
  | End
deriving DecidableEq

structure HostTurn where
  seeks : Bool
  /-- the most bytes it moves, or none if it fails -/
  moves : Option Nat

namespace HostFile

def place (f : HostFile) : SeekFrom → Nat
  | .Start off => off.toNat
  | .End => f.bytes.length

def seek (f : HostFile) (turn : HostTurn) (dest : SeekFrom) : HostFile := if turn.seeks then { f with pos := f.place dest } else f

def ahead (f : HostFile) (turn : HostTurn) (len : Nat) : List U8 := (f.bytes.drop f.pos).take (min (turn.moves.getD 0) len)

def read (f : HostFile) (turn : HostTurn) (len : Nat) : List U8 × HostFile :=
  (f.ahead turn len, { f with pos := f.pos + (f.ahead turn len).length })

def put (bytes : List U8) (at' : Nat) (data : List U8) : List U8 :=
  if data = [] then bytes else Put.overwrite (bytes ++ List.replicate (at' - bytes.length) 0) at' data

def write (f : HostFile) (turn : HostTurn) (data : List U8) : Nat × HostFile :=
  let n := min (turn.moves.getD 0) data.length
  (n, ⟨put f.bytes f.pos (data.take n), f.pos + n⟩)

end HostFile

/-! ## State -/

structure FileSys where
  mem : VirtualMemory
  files : U64 → Option HostFile
  stdoutBuf : List U8
  stderrBuf : List U8

abbrev Act := Fallible FileSys EmuError

namespace FileSys

def isFileHandle (s : FileSys) (handle : U64) : Bool := (s.files handle).isSome

def setFile (s : FileSys) (handle : U64) (f : HostFile) : FileSys := { s with files := Function.update s.files handle (some f) }

def withMem (s : FileSys) (mem : VirtualMemory) : FileSys := { s with mem := mem }

def seekFile (s : FileSys) (handle : U64) (turn : HostTurn) (dest : SeekFrom) : FileSys :=
  match s.files handle with
  | none => s
  | some f => s.setFile handle (f.seek turn dest)

def emit (s : FileSys) (isErr : Bool) (bytes : List U8) : FileSys :=
  if isErr then { s with stderrBuf := s.stderrBuf ++ bytes } else { s with stdoutBuf := s.stdoutBuf ++ bytes }

end FileSys

def isStdHandle (handle : U64) : Bool := handle == HANDLE_STDIN || handle == HANDLE_STDOUT || handle == HANDLE_STDERR

structure Frame where
  r10 : U64
  rdx : U64
  r8 : U64
  r9 : U64
  guestRsp : U64

/-! ## What a call reads and writes -/

def onMem {α : Type} (x : Fallible VirtualMemory EmuError α) : Act α := fun s => (x s.mem).map fun p => (p.1, s.withMem p.2)

def load (addr : U64) (n : Nat) : Act U64 := Fallible.step fun s => (s.mem.readUint addr n).map fun v => (v, s)

def store (addr : U64) (n : Nat) (v : U64) : Fallible VirtualMemory EmuError Unit := Fallible.step fun mem => (mem.writeUint addr n v).map fun mem => ((), mem)

def syscallArg (frame : Frame) : Nat → Act U64
  | 0 => return frame.r10
  | 1 => return frame.rdx
  | 2 => return frame.r8
  | 3 => return frame.r9
  | n => load (frame.guestRsp + 0x28 + (BitVec.ofNat 64 n - 4) * 8) 8

def writeIosb (ptr : U64) (status : U32) (information : U64) : Fallible VirtualMemory EmuError Unit :=
  if ptr = 0 then return ()
  else do
    store ptr 4 (status.setWidth 64)
    store (ptr + 4) 4 0
    store (ptr + 8) 8 information

def readGuest (buffer : U64) (length : U64) : Act (List U8) :=
  if length ≠ 0 then Fallible.step fun s => (s.mem.read buffer length.toNat).map fun data => (data, s) else return []

def writeGuest (buffer : U64) (data : List U8) : Act Unit :=
  if data ≠ [] then Fallible.step fun s => (s.mem.write buffer data).map fun mem => ((), s.withMem mem) else return ()

structure Args where
  handle : U64
  iosbPtr : U64
  buffer : U64
  length : U64
  offsetPtr : U64

def callArgs (frame : Frame) : Act Args := do
  let handle ← syscallArg frame 0
  let iosbPtr ← syscallArg frame 4
  let buffer ← syscallArg frame 5
  let length := (← syscallArg frame 6) &&& 0xFFFFFFFF
  let offsetPtr ← syscallArg frame 7
  return ⟨handle, iosbPtr, buffer, length, offsetPtr⟩

/-! ## The host's part -/

def readFile (turn : HostTurn) (handle : U64) (len : Nat) : Act (Option (List U8)) := fun s =>
  match s.files handle with
  | none => some (.ok none, s)
  | some f => some (.ok (some (f.read turn len).1), s.setFile handle (f.read turn len).2)

def writeFileHandle (turn : HostTurn) (handle : U64) (data : List U8) : Act (Option Nat) := fun s =>
  match s.files handle with
  | none => some (.ok none, s)
  | some f => some (.ok (some (f.write turn data).1), s.setFile handle (f.write turn data).2)

/-! ## The calls -/

def readTarget (off : U64) : Option SeekFrom := if 0 ≤ off.toInt then some (.Start off) else none

def writeTarget (off : U64) : Option SeekFrom := if off = BitVec.allOnes 64 then some .End else if 0 ≤ off.toInt then some (.Start off) else none

def seekTo (turn : HostTurn) (target : U64 → Option SeekFrom) (handle offsetPtr : U64) : Act Unit :=
  if offsetPtr ≠ 0 then do
    let off ← load offsetPtr 8
    match target off with
    | some dest => modify fun s => s.seekFile handle turn dest
    | none => return ()
  else return ()

def ntReadFile (turn : HostTurn) (frame : Frame) : Act U32 := do
  let ⟨handle, iosbPtr, buffer, length, offsetPtr⟩ ← callArgs frame
  let s ← get
  if isStdHandle handle then
    onMem (writeIosb iosbPtr STATUS_END_OF_FILE 0)
    return STATUS_END_OF_FILE
  else if !s.isFileHandle handle then return STATUS_INVALID_HANDLE
  else
    seekTo turn readTarget handle offsetPtr
    let buf := (← readFile turn handle length.toNat).getD []
    writeGuest buffer buf
    if buf = [] ∧ length ≠ 0 then
      onMem (writeIosb iosbPtr STATUS_END_OF_FILE 0)
      return STATUS_END_OF_FILE
    else
      onMem (writeIosb iosbPtr STATUS_SUCCESS (BitVec.ofNat 64 buf.length))
      return STATUS_SUCCESS

def ntWriteFile (turn : HostTurn) (frame : Frame) : Act U32 := do
  let ⟨handle, iosbPtr, buffer, length, offsetPtr⟩ ← callArgs frame
  let s ← get
  if isStdHandle handle then
    let data ← readGuest buffer length
    modify fun s => s.emit (handle == HANDLE_STDERR) data
    onMem (writeIosb iosbPtr STATUS_SUCCESS length)
    return STATUS_SUCCESS
  else if !s.isFileHandle handle then return STATUS_INVALID_HANDLE
  else
    seekTo turn writeTarget handle offsetPtr
    let data ← readGuest buffer length
    let n := (← writeFileHandle turn handle data).getD 0
    onMem (writeIosb iosbPtr STATUS_SUCCESS (BitVec.ofNat 64 n))
    return STATUS_SUCCESS

end FileIo

end Exemu.Os
