import Exemu.Library.Fallible
import Exemu.Os.Vm
import Mathlib.Data.List.AList

/-! # The audio driver

The entries of the driver's table that know of streams.
-/
namespace Exemu.Os

namespace Audio

def S_OK : U32 := 0x00000000
def S_FALSE : U32 := 0x00000001
def E_POINTER : U32 := 0x80004003
def E_OUTOFMEMORY : U32 := 0x8007000E
def AUDCLNT_E_NOT_INITIALIZED : U32 := 0x88890001
def AUDCLNT_E_DEVICE_INVALIDATED : U32 := 0x88890004
def AUDCLNT_E_NOT_STOPPED : U32 := 0x88890005
def AUDCLNT_E_BUFFER_TOO_LARGE : U32 := 0x88890006
def AUDCLNT_E_OUT_OF_ORDER : U32 := 0x88890007
def AUDCLNT_E_WRONG_ENDPOINT_TYPE : U32 := 0x88890008
def AUDCLNT_E_INVALID_SIZE : U32 := 0x88890009
def AUDCLNT_E_UNSUPPORTED_FORMAT : U32 := 0x8889000E
def AUDCLNT_E_EXCLUSIVE_MODE_NOT_ALLOWED : U32 := 0x88890017

def E_RENDER : U32 := 0
def SHARE_SHARED : U32 := 0

def MIX_SAMPLE_RATE : U32 := 48000
def MIX_CHANNELS : U16 := 2
def MIX_BITS : U16 := 32
def MIX_FRAME_BYTES : U32 := 8
def WAVE_FORMAT_EXTENSIBLE : U16 := 0xFFFE
def WAVE_FORMAT_IEEE_FLOAT : U16 := 3
def WAVEFORMATEXTENSIBLE_EXTRA : U16 := 22
def DEFAULT_PERIOD : U64 := 100000
def MAX_BUFFER_FRAMES : U32 := MIX_SAMPLE_RATE * 10

def ENDPOINT_ID : String := "exemu-coreaudio-render"

/-! ## State -/

structure Stream where
  capacity : U32
  buffer : U64
  held : Option U32
  started : Bool
  position : U64
deriving DecidableEq

def Stream.bytes (st : Stream) : U64 := st.capacity.setWidth 64 * MIX_FRAME_BYTES.setWidth 64

structure AudioState where
  streams : AList fun _ : Nat => Stream
  nextHandle : Nat

inductive SinkOp where
  | start
  | stop
  | reset
  | write (frames : List U8)
  | close
deriving DecidableEq

structure State where
  sys : Sys
  audio : AudioState
  sink : List SinkOp

abbrev Act := Fallible State EmuError

/-- The status the call returns, and the result it leaves in its arguments. -/
structure Reply where
  status : U32
  result : U32
deriving DecidableEq

def load (addr : U64) (n : Nat) : Act U64 := .step fun s => (s.sys.mem.readUint addr n).map fun v => (v, s)

def store (addr : U64) (n : Nat) (v : U64) : Act Unit :=
  .step fun s => (s.sys.mem.writeUint addr n v).map fun mem => ((), { s with sys := { s.sys with mem := mem } })

def readU16 (addr : U64) : Act U16 := return (← load addr 2).setWidth 16
def readU32 (addr : U64) : Act U32 := return (← load addr 4).setWidth 32

def reply (at_ : U64) (hr : U32) : Act Reply := do
  store at_ 4 (hr.setWidth 64)
  return ⟨S_OK, hr⟩

def storeAt (ptr : U64) (n : Nat) (v : U64) : Act Unit := if ptr ≠ 0 then store ptr n v else pure ()

def tell (op : SinkOp) : Act Unit := .modify fun s => { s with sink := s.sink ++ [op] }

def streamOf (handle : U64) : Act (Option Stream) := return (← .get).audio.streams.lookup handle.toNat

def setStream (handle : U64) (st : Stream) : Act Unit :=
  .modify fun s => { s with audio := { s.audio with streams := s.audio.streams.insert handle.toNat st } }

/-! ## Opening -/

structure Wfx where
  tag : U16
  channels : U16
  sampleRate : U32
  bits : U16
  subTag : U32

def readSubTag (ptr : U64) (tag : U16) : Act U32 :=
  if tag = WAVE_FORMAT_EXTENSIBLE then do
    let extra ← readU16 (ptr + 16)
    if WAVEFORMATEXTENSIBLE_EXTRA ≤ extra then readU32 (ptr + 24) else pure 0
  else pure 0

def Wfx.read (ptr : U64) : Act Wfx := do
  let tag ← readU16 ptr
  let subTag ← readSubTag ptr tag
  return ⟨tag, ← readU16 (ptr + 2), ← readU32 (ptr + 4), ← readU16 (ptr + 14), subTag⟩

def Wfx.isMixFormat (fmt : Wfx) : Bool :=
  (fmt.tag = WAVE_FORMAT_IEEE_FLOAT || fmt.tag = WAVE_FORMAT_EXTENSIBLE && fmt.subTag = WAVE_FORMAT_IEEE_FLOAT.setWidth 32) &&
    fmt.channels = MIX_CHANNELS && fmt.sampleRate = MIX_SAMPLE_RATE && fmt.bits = MIX_BITS

/-- `read_cstr`, the bytes before the first zero; any failure ends the text empty. -/
def readCstr (mem : VirtualMemory) : Nat → U64 → Result (List U8)
  | 0, _ => .ok []
  | n + 1, addr => do
    let b ← mem.readUint addr 1
    if b = 0 then return [] else return b.setWidth 8 :: (← readCstr mem n (addr + 1))

def cstrAt (mem : VirtualMemory) (ptr : U64) : List U8 :=
  if ptr = 0 then []
  else
    match readCstr mem 512 ptr with
    | .ok raw => raw
    | .error _ => []

/-- The checks of `audio_create_stream`: the frames there is to be room for, or the result that refuses. -/
def checkFormat (args : U64) : Act (Except U32 U32) := do
  if (← readU32 (args + 0x10)) ≠ E_RENDER then return .error AUDCLNT_E_WRONG_ENDPOINT_TYPE
  else do
    if (← readU32 (args + 0x14)) ≠ SHARE_SHARED then return .error AUDCLNT_E_EXCLUSIVE_MODE_NOT_ALLOWED
    else do
      let device := cstrAt (← .get).sys.mem (← load (args + 0x08) 8)
      if device ≠ ENDPOINT_ID.toList.map (fun c => BitVec.ofNat 8 c.toNat) then return .error AUDCLNT_E_DEVICE_INVALIDATED
      else do
        let fmtPtr ← load (args + 0x30) 8
        if fmtPtr = 0 then return .error E_POINTER
        else do
          if !(← Wfx.read fmtPtr).isMixFormat then return .error AUDCLNT_E_UNSUPPORTED_FORMAT
          else do
            let duration ← load (args + 0x20) 8
            let frames := min (duration.toNat * MIX_SAMPLE_RATE.toNat) (2 ^ 64 - 1) / 10000000
            if MAX_BUFFER_FRAMES.toNat < frames then return .error AUDCLNT_E_BUFFER_TOO_LARGE
            else return .ok (BitVec.ofNat 32 (max 1 (min frames MAX_BUFFER_FRAMES.toNat)))

/-- `map_anywhere`; `granted` is the host allocator's answer. -/
def mapAnywhere (granted : U64 → Bool) (size : U64) : Act (Option U64) :=
  .step fun s =>
    let mapped := s.sys.mapAnywhere granted size Perm.RW "audio-render"
    .ok (mapped.2, { s with sys := mapped.1 })

def insertStream (capacity : U32) (buffer : U64) : Act Nat :=
  .step fun s =>
    let handle := s.audio.nextHandle + 1
    .ok (handle, { s with audio := ⟨s.audio.streams.insert handle ⟨capacity, buffer, none, false, 0⟩, handle⟩ })

def createStream (granted : U64 → Bool) (opens : Bool) (args : U64) : Act Reply := do
  match ← checkFormat args with
  | .error hr => reply (args + 0x38) hr
  | .ok capacity =>
    match ← mapAnywhere granted (capacity.setWidth 64 * MIX_FRAME_BYTES.setWidth 64) with
    | none => reply (args + 0x38) E_OUTOFMEMORY
    | some buffer =>
      if !opens then reply (args + 0x38) AUDCLNT_E_DEVICE_INVALIDATED
      else do
        let handle ← insertStream capacity buffer
        let countPtr ← load (args + 0x40) 8
        storeAt countPtr 4 (MIX_CHANNELS.setWidth 64)
        let streamPtr ← load (args + 0x48) 8
        storeAt streamPtr 8 (BitVec.ofNat 64 handle)
        reply (args + 0x38) S_OK

/-! ## The buffer -/

def getRenderBuffer (args : U64) : Act Reply := do
  let handle ← load args 8
  let frames ← readU32 (args + 0x08)
  match ← streamOf handle with
  | none => reply (args + 0x0c) AUDCLNT_E_NOT_INITIALIZED
  | some st =>
    if st.held.isSome then reply (args + 0x0c) AUDCLNT_E_OUT_OF_ORDER
    else if st.capacity < frames then reply (args + 0x0c) AUDCLNT_E_BUFFER_TOO_LARGE
    else do
      setStream handle { st with held := some frames }
      let dataPtr ← load (args + 0x10) 8
      if dataPtr = 0 then reply (args + 0x0c) E_POINTER
      else do
        store dataPtr 8 st.buffer
        reply (args + 0x0c) S_OK

/-- The bytes from `addr` on, one by one. -/
def readBytes (mem : VirtualMemory) : Nat → U64 → Result (List U8)
  | 0, _ => .ok []
  | n + 1, addr => do
    let b ← mem.readUint addr 1
    return b.setWidth 8 :: (← readBytes mem n (addr + 1))

def pcmOf (mem : VirtualMemory) (flags : U32) (base : U64) (bytes : Nat) : Result (List U8) :=
  if flags &&& 1 = 0 then readBytes mem bytes base else .ok (List.replicate bytes 0)

def readPcm (flags : U32) (base : U64) (bytes : Nat) : Act (List U8) :=
  .step fun s => (pcmOf s.sys.mem flags base bytes).map fun pcm => (pcm, s)

def releaseRenderBuffer (args : U64) : Act Reply := do
  let handle ← load args 8
  let written ← readU32 (args + 0x08)
  let flags ← readU32 (args + 0x0c)
  match ← streamOf handle with
  | none => reply (args + 0x10) AUDCLNT_E_NOT_INITIALIZED
  | some st =>
    match st.held with
    | none => reply (args + 0x10) AUDCLNT_E_OUT_OF_ORDER
    | some held =>
      if held < written then reply (args + 0x10) AUDCLNT_E_INVALID_SIZE
      else do
        setStream handle { st with held := none, position := st.position + written.setWidth 64 }
        let pcm ← readPcm flags st.buffer (written.toNat * MIX_FRAME_BYTES.toNat)
        tell (.write pcm)
        reply (args + 0x10) S_OK

/-! ## Calls with a stream only -/

/-- What `audio_stream_only` does with the stream it found, by the code of the call. -/
inductive StreamOnly where
  | CODE_START
  | CODE_STOP
  | CODE_RESET
  | CODE_IS_STARTED

def streamOnly (args : U64) (code : StreamOnly) : Act Reply := do
  let handle ← load args 8
  match ← streamOf handle with
  | none => reply (args + 0x08) AUDCLNT_E_NOT_INITIALIZED
  | some st =>
    match code with
    | .CODE_START => do
      setStream handle { st with started := true }
      tell .start
      reply (args + 0x08) S_OK
    | .CODE_STOP => do
      setStream handle { st with started := false }
      tell .stop
      reply (args + 0x08) S_OK
    | .CODE_RESET =>
      if st.started then reply (args + 0x08) AUDCLNT_E_NOT_STOPPED
      else do
        setStream handle { st with position := 0, held := none }
        tell .reset
        reply (args + 0x08) S_OK
    | .CODE_IS_STARTED => reply (args + 0x08) (if st.started then S_OK else S_FALSE)

/-! ## Calls with a place for the answer -/

inductive StreamOut where
  | CODE_GET_BUFFER_SIZE
  | CODE_GET_LATENCY
  | CODE_GET_CURRENT_PADDING
  | CODE_GET_NEXT_PACKET_SIZE
  | CODE_GET_FREQUENCY

def streamOut (args : U64) (code : StreamOut) : Act Reply := do
  let handle ← load args 8
  let out ← load (args + 0x10) 8
  match ← streamOf handle with
  | none => reply (args + 0x08) AUDCLNT_E_NOT_INITIALIZED
  | some st =>
    if out = 0 then reply (args + 0x08) E_POINTER
    else
      match code with
      | .CODE_GET_BUFFER_SIZE => do
        store out 4 (st.capacity.setWidth 64)
        reply (args + 0x08) S_OK
      | .CODE_GET_CURRENT_PADDING => do
        store out 4 0
        reply (args + 0x08) S_OK
      | .CODE_GET_LATENCY => do
        store out 8 DEFAULT_PERIOD
        reply (args + 0x08) S_OK
      | .CODE_GET_FREQUENCY => do
        store out 8 (MIX_SAMPLE_RATE.setWidth 64)
        reply (args + 0x08) S_OK
      | .CODE_GET_NEXT_PACKET_SIZE => reply (args + 0x08) AUDCLNT_E_WRONG_ENDPOINT_TYPE

/-- `now` is the host's clock. -/
def getPosition (now : U64) (args : U64) : Act Reply := do
  let handle ← load args 8
  match ← streamOf handle with
  | none => reply (args + 0x0c) AUDCLNT_E_NOT_INITIALIZED
  | some st => do
    let ptr ← load (args + 0x10) 8
    storeAt ptr 8 st.position
    let qpc ← load (args + 0x18) 8
    storeAt qpc 8 now
    reply (args + 0x0c) S_OK

/-! ## Closing -/

def unmapStream (s : State) (st : Stream) : State := { s with sys := s.sys.unmap st.buffer st.bytes }

def removeStream (handle : U64) : Act Unit := do
  match ← streamOf handle with
  | none => pure ()
  | some st =>
    .modify fun s => unmapStream { s with audio := { s.audio with streams := s.audio.streams.erase handle.toNat } } st

def closeIfIdle : Act Unit := do
  let s ← .get
  if s.audio.streams.entries.isEmpty then tell .close else pure ()

def releaseStream (args : U64) : Act Reply := do
  let handle ← load args 8
  removeStream handle
  closeIfIdle
  reply (args + 0x10) S_OK

def processDetach : Act Reply := do
  .modify fun s => (s.audio.streams.entries.map Sigma.snd).foldl unmapStream { s with audio := { s.audio with streams := ∅ } }
  tell .close
  return ⟨S_OK, S_OK⟩

def capture (args : U64) : Act Reply := reply (args + 0x08) AUDCLNT_E_WRONG_ENDPOINT_TYPE

/-! ## Calls -/

inductive Call where
  | createStream (granted : U64 → Bool) (opens : Bool) (args : U64)
  | releaseStream (args : U64)
  | streamOnly (args : U64) (code : StreamOnly)
  | getRenderBuffer (args : U64)
  | releaseRenderBuffer (args : U64)
  | capture (args : U64)
  | streamOut (args : U64) (code : StreamOut)
  | getPosition (now : U64) (args : U64)
  | processDetach

def Call.run : Call → Act Reply
  | .createStream granted opens args => Audio.createStream granted opens args
  | .releaseStream args => Audio.releaseStream args
  | .streamOnly args code => Audio.streamOnly args code
  | .getRenderBuffer args => Audio.getRenderBuffer args
  | .releaseRenderBuffer args => Audio.releaseRenderBuffer args
  | .capture args => Audio.capture args
  | .streamOut args code => Audio.streamOut args code
  | .getPosition now args => Audio.getPosition now args
  | .processDetach => Audio.processDetach

end Audio

end Exemu.Os
