import Exemu.Os.FileIo

/-! # Sockets

Every request to a socket is one call that reads what is asked, asks the host, changes the socket
and tells the guest, in this order.
-/
namespace Exemu.Os

namespace Net

open Fallible
open FileIo (store writeIosb)

inductive Ioctl where
  | bind
  | startListen
  | select
  | getSockName
  | wineCreate
  | wineAccept
  | wineConnect
  | wineShutdown
  | wineRecvmsg
  | wineSendmsg
  | wineOp210
  | wineGetPeerName
  | wineGetSocketInfo
deriving DecidableEq

def ofCode (code : U32) : Option Ioctl :=
  if code = 0x00012003 then some .bind
  else if code = 0x0001200b then some .startListen
  else if code = 0x00012024 then some .select
  else if code = 0x0001202f then some .getSockName
  else if code = 0x00120320 then some .wineCreate
  else if code = 0x00120324 then some .wineAccept
  else if code = 0x0012032c then some .wineConnect
  else if code = 0x00120330 then some .wineShutdown
  else if code = 0x00120334 then some .wineRecvmsg
  else if code = 0x00120338 then some .wineSendmsg
  else if code = 0x00120348 then some .wineOp210
  else if code = 0x00120360 then some .wineGetPeerName
  else if code = 0x00120368 then some .wineGetSocketInfo
  else none

def CREATE_PARAMS_LEN : Nat := 0x10
def LISTEN_PARAMS_LEN : Nat := 0x0c
def LISTEN_BACKLOG_OFF : U64 := 4
def ACCEPT_OUT_LEN : Nat := 4
def SHUTDOWN_PARAMS_LEN : Nat := 4
def SOCKET_INFO_LEN : Nat := 0x0c
def CONNECT_PARAMS_HEADER : Nat := 8
def BIND_PARAMS_HEADER : Nat := 4
def RECVMSG_PARAMS_LEN : Nat := 0x30
def RECVMSG_ADDR_OFF : U64 := 0x08
def RECVMSG_ADDR_LEN_OFF : U64 := 0x10
def RECVMSG_COUNT_OFF : U64 := 0x24
def RECVMSG_BUFFERS_OFF : U64 := 0x28
def SENDMSG_PARAMS_LEN : Nat := 0x20
def SENDMSG_ADDR_OFF : U64 := 0x00
def SENDMSG_ADDR_LEN_OFF : U64 := 0x08
def SENDMSG_COUNT_OFF : U64 := 0x14
def SENDMSG_BUFFERS_OFF : U64 := 0x18
def WSABUF_STRIDE : U64 := 0x10
def WSABUF_PTR_OFF : U64 := 0x08
def POLL_PARAMS_HEADER : U64 := 0x10
def POLL_PARAMS_COUNT_OFF : U64 := 0x08
def POLL_ENTRY_STRIDE : U64 := 0x10
def POLL_ENTRY_FLAGS_OFF : U64 := 0x08
def POLL_ENTRY_STATUS_OFF : U64 := 0x0c

def AFD_POLL_READ : U32 := 0x0001
def AFD_POLL_WRITE : U32 := 0x0004
def AFD_POLL_HUP : U32 := 0x0008
def AFD_POLL_RESET : U32 := 0x0010
def AFD_POLL_ACCEPT : U32 := 0x0080
def AFD_POLL_CONNECT_ERR : U32 := 0x0100

def STATUS_SUCCESS : U32 := 0x00000000
def STATUS_PENDING : U32 := 0x00000103
def STATUS_NOT_IMPLEMENTED : U32 := 0xC0000002
def STATUS_ACCESS_VIOLATION : U32 := 0xC0000005
def STATUS_INVALID_HANDLE : U32 := 0xC0000008
def STATUS_INVALID_PARAMETER : U32 := 0xC000000D
def STATUS_ADDRESS_ALREADY_EXISTS : U32 := 0xC000020A
def STATUS_INVALID_ADDRESS_COMPONENT : U32 := 0xC0000207
def STATUS_CONNECTION_REFUSED : U32 := 0xC0000236
def STATUS_CONNECTION_RESET : U32 := 0xC000020D
def STATUS_CONNECTION_ABORTED : U32 := 0xC0000241
def STATUS_CONNECTION_ACTIVE : U32 := 0xC000023B
def STATUS_INVALID_CONNECTION : U32 := 0xC0000140
def STATUS_NETWORK_UNREACHABLE : U32 := 0xC000023C
def STATUS_HOST_UNREACHABLE : U32 := 0xC000023D
def STATUS_IO_TIMEOUT : U32 := 0xC00000B5
def STATUS_PIPE_DISCONNECTED : U32 := 0xC00000B0

def AF_INET : U32 := 2
def AF_INET6 : U32 := 23
def SOCK_STREAM : U32 := 1
def SOCK_DGRAM : U32 := 2
def SOCKADDR_IN_LEN : Nat := 16
def SOCKADDR_IN6_LEN : Nat := 28
def SD_RECEIVE : U32 := 0
def SD_SEND : U32 := 1
def MAX_TRANSFER : Nat := 16 * 2 ^ 20
def MAX_POLL_ENTRIES : Nat := 4096
def MAX_WSABUFS : Nat := 1024

/-! ## The host -/

inductive ErrorKind where
  | ConnectionRefused
  | ConnectionReset
  | ConnectionAborted
  | BrokenPipe
  | AddrInUse
  | AddrNotAvailable
  | NotConnected
  | TimedOut
  | PermissionDenied
  | WouldBlock
  | Other
deriving DecidableEq

inductive SocketAddr where
  | V4 (octets : List U8) (port : U16)
  | V6 (octets : List U8) (port : U16) (flowinfo scope : U32)
deriving DecidableEq

def SocketAddr.port : SocketAddr → U16
  | .V4 _ port => port
  | .V6 _ port _ _ => port

structure Probe where
  accept : Except ErrorKind Nat
  peek : Except ErrorKind Nat

/-- What the host's operations give while one request is served; its sockets are named by numbers. -/
structure HostTurn where
  udpBind : Except ErrorKind Nat
  tcpBind : Except ErrorKind Nat
  tcpConnect : Except ErrorKind Nat
  nonblocking : Except ErrorKind Unit
  udpConnect : Except ErrorKind Unit
  name : Option SocketAddr
  accept : Except ErrorKind Nat
  read : Except ErrorKind (List U8)
  recvFrom : Except ErrorKind (List U8 × SocketAddr)
  send : Except ErrorKind Nat
  shutdown : Except ErrorKind Unit
  probes : Nat → Probe

/-! ## State -/

inductive Endpoint where
  | Unbound
  | Listener (l : Nat)
  | Stream (s : Nat)
  | Datagram (d : Nat)
deriving DecidableEq

structure Socket where
  family : U32
  kind : U32
  protocol : U32
  ep : Endpoint
  requestedBind : Option SocketAddr
  listening : Bool
  pending : List Nat
  peer : Option SocketAddr
  rdShutdown : Bool
  wrShutdown : Bool
deriving DecidableEq

def Socket.new : Socket := ⟨0, 0, 0, .Unbound, none, false, [], none, false, false⟩

structure Sockets where
  mem : VirtualMemory
  sockets : U64 → Option Socket
  nextHandle : U64
  /-- the bytes that the host has handed over for each socket -/
  drawn : U64 → List U8
  /-- the connections that the host has handed over, and to which listener -/
  accepted : List (U64 × Nat)

abbrev Act := Fallible Sockets EmuError

inductive OpResult where
  | Done (status : U32) (info : U64)
  | WouldBlock
deriving DecidableEq

def OK : OpResult := .Done STATUS_SUCCESS 0

structure Request where
  handle : U64
  code : U32
  inBuf : U64
  inLen : U64
  outBuf : U64
  outLen : U64

namespace Sockets

def withMem (s : Sockets) (mem : VirtualMemory) : Sockets := { s with mem := mem }

def setSocket (s : Sockets) (handle : U64) (k : Socket) : Sockets := { s with sockets := Function.update s.sockets handle (some k) }

def draw (s : Sockets) (handle : U64) (data : List U8) : Sockets :=
  { s with drawn := Function.update s.drawn handle (s.drawn handle ++ data) }

def accept (s : Sockets) (handle : U64) (c : Nat) : Sockets := { s with accepted := s.accepted ++ [(handle, c)] }

end Sockets

def query {α : Type} (f : VirtualMemory → Result α) : Act α := Fallible.step fun s => (f s.mem).map fun a => (a, s)

def onMem {α : Type} (x : Fallible VirtualMemory EmuError α) : Act α := fun s => (x s.mem).map fun p => (p.1, s.withMem p.2)

def socketMut (handle : U64) : Act Socket := fun s => (s.sockets handle).map fun k => (.ok k, s)

def setSocket (handle : U64) (k : Socket) : Act Unit := modify fun s => s.setSocket handle k

/-! ## Addresses and buffers -/

def statusFor : ErrorKind → U32
  | .ConnectionRefused => STATUS_CONNECTION_REFUSED
  | .ConnectionReset => STATUS_CONNECTION_RESET
  | .ConnectionAborted => STATUS_CONNECTION_ABORTED
  | .BrokenPipe => STATUS_CONNECTION_ABORTED
  | .AddrInUse => STATUS_ADDRESS_ALREADY_EXISTS
  | .AddrNotAvailable => STATUS_INVALID_ADDRESS_COMPONENT
  | .NotConnected => STATUS_INVALID_CONNECTION
  | .TimedOut => STATUS_IO_TIMEOUT
  | .PermissionDenied => STATUS_NETWORK_UNREACHABLE
  | .WouldBlock => STATUS_HOST_UNREACHABLE
  | .Other => STATUS_HOST_UNREACHABLE

def refusal (e : ErrorKind) : OpResult := if e = .WouldBlock then .WouldBlock else .Done (statusFor e) 0

def fromIo {α : Type} (r : Except ErrorKind α) (ok : α → OpResult) : OpResult :=
  match r with
  | .ok v => ok v
  | .error e => refusal e

def toBe (n : Nat) {w : Nat} (v : BitVec w) : List U8 := (toLe n (v.setWidth 64)).reverse

def readPort (mem : VirtualMemory) (ptr : U64) : Result U16 := (mem.read ptr 2).map fun bytes => (fromLe bytes.reverse).setWidth 16

def readSockaddr (mem : VirtualMemory) (ptr : U64) (len : Nat) : Result (Option SocketAddr) :=
  if ptr = 0 ∨ len < 2 then return none
  else do
    let family ← mem.readUint ptr 2
    if family.setWidth 32 = AF_INET ∧ SOCKADDR_IN_LEN ≤ len then
      let port ← readPort mem (ptr + 2)
      let octets ← mem.read (ptr + 4) 4
      return some (.V4 octets port)
    else if family.setWidth 32 = AF_INET6 ∧ SOCKADDR_IN6_LEN ≤ len then
      let port ← readPort mem (ptr + 2)
      let raw ← mem.read (ptr + 8) 16
      let scope ← mem.readUint (ptr + 24) 4
      return some (.V6 raw port 0 (scope.setWidth 32))
    else return none

def sockaddrBytes : SocketAddr → List U8
  | .V4 octets port => toLe 2 (AF_INET.setWidth 64) ++ toBe 2 port ++ octets ++ List.replicate 8 0
  | .V6 octets port flowinfo scope =>
    toLe 2 (AF_INET6.setWidth 64) ++ toBe 2 port ++ toBe 4 flowinfo ++ octets ++ toLe 4 (scope.setWidth 64)

def writeBytes (ptr : U64) (data : List U8) : Fallible VirtualMemory EmuError Unit :=
  Fallible.step fun mem => (mem.write ptr data).map fun mem => ((), mem)

def loadUint (ptr : U64) (n : Nat) : Fallible VirtualMemory EmuError U64 := Fallible.step fun mem => (mem.readUint ptr n).map fun v => (v, mem)

def writeSockaddr (ptr : U64) (cap : Nat) (addr : SocketAddr) : Fallible VirtualMemory EmuError (Option Nat) :=
  if ptr = 0 ∨ cap < (sockaddrBytes addr).length then return none
  else do
    writeBytes ptr (sockaddrBytes addr)
    return some (sockaddrBytes addr).length

structure WsaBuf where
  ptr : U64
  len : Nat

/-- `count` more buffers, with `total` bytes before them. -/
def readWsabufsFrom (mem : VirtualMemory) (base : U64) (total : Nat) : Nat → Result (List WsaBuf)
  | 0 => return []
  | count + 1 => do
    let len ← mem.readUint base 4
    let ptr ← mem.readUint (base + WSABUF_PTR_OFF) 8
    let len := min len.toNat (MAX_TRANSFER - total)
    if MAX_TRANSFER ≤ total + len then return [⟨ptr, len⟩]
    else return ⟨ptr, len⟩ :: (← readWsabufsFrom mem (base + WSABUF_STRIDE) (total + len) count)

def readWsabufs (mem : VirtualMemory) (array : U64) (count : Nat) : Result (List WsaBuf) :=
  if array = 0 then return [] else readWsabufsFrom mem array 0 count

def capacity (bufs : List WsaBuf) : Nat := (bufs.map (·.len)).sum

def gather (mem : VirtualMemory) : List WsaBuf → Result (List U8)
  | [] => return []
  | b :: bufs => do
    let data ← if b.len = 0 then pure [] else mem.read b.ptr b.len
    return data ++ (← gather mem bufs)

def scatter : List WsaBuf → List U8 → Fallible VirtualMemory EmuError Unit
  | [], _ => return ()
  | b :: bufs, data =>
    if data = [] then return ()
    else do
      if min b.len data.length ≠ 0 then writeBytes b.ptr (data.take b.len)
      scatter bufs (data.drop b.len)

/-! ## Binding, listening and connecting -/

def afdPolicyCheck : SocketAddr → Except U32 Unit
  | .V4 .. => .ok ()
  | .V6 .. => .ok ()

def Socket.create (k : Socket) (family kind protocol : U32) : Socket := { k with family := family, kind := kind, protocol := protocol }

def createParams (req : Request) (mem : VirtualMemory) : Result (U32 × U32 × U32) := do
  let family ← mem.readUint req.inBuf 4
  let kind ← mem.readUint (req.inBuf + 4) 4
  let protocol ← mem.readUint (req.inBuf + 8) 4
  return (family.setWidth 32, kind.setWidth 32, protocol.setWidth 32)

def isSupported (family kind : U32) : Bool := (family == AF_INET || family == AF_INET6) && (kind == SOCK_STREAM || kind == SOCK_DGRAM)

def afdCreate (req : Request) : Act OpResult :=
  if req.inLen.toNat < CREATE_PARAMS_LEN ∨ req.inBuf = 0 then return .Done STATUS_ACCESS_VIOLATION 0
  else do
    let (family, kind, protocol) ← query (createParams req)
    if !isSupported family kind then return .Done STATUS_NOT_IMPLEMENTED 0
    else
      let k ← socketMut req.handle
      setSocket req.handle (k.create family kind protocol)
      return OK

def Socket.bind (k : Socket) (ep : Endpoint) (addr : SocketAddr) : Socket := { k with ep := ep, requestedBind := some addr }

def bindHost (turn : HostTurn) (kind : U32) : Except U32 Endpoint :=
  if kind = SOCK_DGRAM then
    match turn.udpBind with
    | .ok d => .ok (.Datagram d)
    | .error e => .error (statusFor e)
  else if kind = SOCK_STREAM then
    match turn.tcpBind with
    | .ok l => .ok (.Listener l)
    | .error e => .error (statusFor e)
  else .error STATUS_INVALID_PARAMETER

def bindAddr (req : Request) (mem : VirtualMemory) : Result (Option SocketAddr) :=
  readSockaddr mem (req.inBuf + BitVec.ofNat 64 BIND_PARAMS_HEADER) (req.inLen.toNat - BIND_PARAMS_HEADER)

def bindReply (req : Request) : Option SocketAddr → Fallible VirtualMemory EmuError U64
  | none => return 0
  | some addr => do
    let written ← writeSockaddr req.outBuf req.outLen.toNat addr
    return BitVec.ofNat 64 (written.getD 0)

def afdBind (turn : HostTurn) (req : Request) : Act OpResult := do
  match ← query (bindAddr req) with
  | none => return .Done STATUS_INVALID_ADDRESS_COMPONENT 0
  | some addr =>
    match afdPolicyCheck addr with
    | .error status => return .Done status 0
    | .ok () =>
      let k ← socketMut req.handle
      match bindHost turn k.kind with
      | .error status => return .Done status 0
      | .ok ep =>
        setSocket req.handle (k.bind ep addr)
        let info ← onMem (bindReply req turn.name)
        return .Done STATUS_SUCCESS info

def Socket.isListener (k : Socket) : Bool :=
  match k.ep with
  | .Listener _ => true
  | _ => false

def Socket.listen (k : Socket) : Socket := { k with listening := true }

def afdListen (req : Request) : Act OpResult :=
  if req.inLen.toNat < LISTEN_PARAMS_LEN ∨ req.inBuf = 0 then return .Done STATUS_ACCESS_VIOLATION 0
  else do
    let _backlog ← query fun mem => mem.readUint (req.inBuf + LISTEN_BACKLOG_OFF) 4
    let k ← socketMut req.handle
    if !k.isListener then return .Done STATUS_INVALID_PARAMETER 0
    else
      setSocket req.handle k.listen
      return OK

def connectAddr (req : Request) (mem : VirtualMemory) : Result (Option SocketAddr) := do
  let addrLen ← mem.readUint req.inBuf 4
  readSockaddr mem (req.inBuf + BitVec.ofNat 64 CONNECT_PARAMS_HEADER) addrLen.toNat

def Socket.gives (k : Socket) : Bool := !(k.listening || !(k.requestedBind.map fun a => a.port == 0).getD false)

/-- What is to become of the socket: first before the host connects it, and then with what the host gives. -/
def connectHost (turn : HostTurn) (k : Socket) (addr : SocketAddr) : Except U32 (Socket × Except ErrorKind Socket) :=
  match k.ep with
  | .Stream _ => .error STATUS_CONNECTION_ACTIVE
  | .Listener _ =>
    if k.gives then .ok ({ k with ep := .Unbound }, turn.tcpConnect.map fun s => { k with ep := .Stream s }) else .error STATUS_INVALID_PARAMETER
  | .Datagram _ => .ok (k, turn.udpConnect.map fun _ => { k with peer := some addr })
  | .Unbound =>
    if k.kind = SOCK_DGRAM then
      .ok (k, do
        let d ← turn.udpBind
        turn.nonblocking
        turn.udpConnect
        return { k with ep := .Datagram d, peer := some addr })
    else .ok (k, turn.tcpConnect.map fun s => { k with ep := .Stream s })

def afdConnect (turn : HostTurn) (req : Request) : Act OpResult :=
  if req.inLen.toNat < CONNECT_PARAMS_HEADER ∨ req.inBuf = 0 then return .Done STATUS_ACCESS_VIOLATION 0
  else do
    match ← query (connectAddr req) with
    | none => return .Done STATUS_INVALID_ADDRESS_COMPONENT 0
    | some addr =>
      match afdPolicyCheck addr with
      | .error status => return .Done status 0
      | .ok () =>
        let k ← socketMut req.handle
        match connectHost turn k addr with
        | .error status => return .Done status 0
        | .ok (before, made) =>
          setSocket req.handle before
          match made with
          | .error e => return .Done (statusFor e) 0
          | .ok k =>
            setSocket req.handle k
            return OK

/-! ## Accepting -/

def Socket.child (k : Socket) (stream : Nat) : Socket :=
  { Socket.new with family := k.family, kind := SOCK_STREAM, protocol := k.protocol, ep := .Stream stream }

def acceptReply (req : Request) (child : U64) : Fallible VirtualMemory EmuError U64 := do
  store req.outBuf 4 (child &&& 0xFFFFFFFF)
  return BitVec.ofNat 64 ACCEPT_OUT_LEN

def allocKhandle : Act U64 := fun s => some (.ok s.nextHandle, { s with nextHandle := s.nextHandle + 4 })

def handOver (req : Request) (stream : Nat) : Act OpResult := do
  let k ← socketMut req.handle
  let child ← allocKhandle
  setSocket child (k.child stream)
  let info ← onMem (acceptReply req child)
  return .Done STATUS_SUCCESS info

def afdAccept (turn : HostTurn) (req : Request) : Act OpResult :=
  if req.outLen.toNat < ACCEPT_OUT_LEN ∨ req.outBuf = 0 then return .Done STATUS_ACCESS_VIOLATION 0
  else do
    let k ← socketMut req.handle
    match k.pending with
    | stream :: rest =>
      setSocket req.handle { k with pending := rest }
      handOver req stream
    | [] =>
      if !k.isListener then return .Done STATUS_INVALID_CONNECTION 0
      else
        match turn.accept with
        | .ok stream =>
          modify fun s => s.accept req.handle stream
          handOver req stream
        | .error e => return refusal e

/-! ## Moving bytes -/

structure RecvArgs where
  addrPtr : U64
  addrLenPtr : U64
  bufs : List WsaBuf

def recvArgs (req : Request) (mem : VirtualMemory) : Result RecvArgs := do
  let count ← mem.readUint (req.inBuf + RECVMSG_COUNT_OFF) 4
  let buffers ← mem.readUint (req.inBuf + RECVMSG_BUFFERS_OFF) 8
  let addrPtr ← mem.readUint (req.inBuf + RECVMSG_ADDR_OFF) 8
  let addrLenPtr ← mem.readUint (req.inBuf + RECVMSG_ADDR_LEN_OFF) 8
  let bufs ← readWsabufs mem buffers (min count.toNat MAX_WSABUFS)
  return ⟨addrPtr, addrLenPtr, bufs⟩

def Socket.receive (k : Socket) (turn : HostTurn) (cap : Nat) : Except OpResult (List U8 × Option SocketAddr) :=
  match k.ep with
  | .Stream _ =>
    match turn.read with
    | .ok data => .ok (data.take cap, none)
    | .error e => .error (refusal e)
  | .Datagram _ =>
    match turn.recvFrom with
    | .ok (data, sender) => .ok (data.take cap, some sender)
    | .error e => .error (refusal e)
  | _ => .error (.Done STATUS_INVALID_CONNECTION 0)

def senderCap (args : RecvArgs) : Fallible VirtualMemory EmuError U64 := if args.addrLenPtr ≠ 0 then loadUint args.addrLenPtr 4 else return 0

def tellSender (args : RecvArgs) : Option SocketAddr → Fallible VirtualMemory EmuError Unit
  | none => return ()
  | some sender =>
    if args.addrPtr = 0 then return ()
    else do
      let cap ← senderCap args
      match ← writeSockaddr args.addrPtr cap.toNat sender with
      | none => return ()
      | some written => if args.addrLenPtr ≠ 0 then store args.addrLenPtr 4 (BitVec.ofNat 64 written) else return ()

def recvReply (args : RecvArgs) (data : List U8) (sender : Option SocketAddr) : Fallible VirtualMemory EmuError U64 := do
  scatter args.bufs data
  tellSender args sender
  return BitVec.ofNat 64 data.length

def afdRecv (turn : HostTurn) (req : Request) : Act OpResult :=
  if req.inLen.toNat < RECVMSG_PARAMS_LEN ∨ req.inBuf = 0 then return .Done STATUS_ACCESS_VIOLATION 0
  else do
    let args ← query (recvArgs req)
    let k ← socketMut req.handle
    if k.rdShutdown then return OK
    else
      match k.receive turn (capacity args.bufs) with
      | .error r => return r
      | .ok (data, sender) =>
        modify fun s => s.draw req.handle data
        if data = [] ∧ capacity args.bufs ≠ 0 ∧ sender = none then return OK
        else
          let info ← onMem (recvReply args data sender)
          return .Done STATUS_SUCCESS info

def sendArgs (req : Request) (mem : VirtualMemory) : Result (Option SocketAddr × List U8) := do
  let count ← mem.readUint (req.inBuf + SENDMSG_COUNT_OFF) 4
  let buffers ← mem.readUint (req.inBuf + SENDMSG_BUFFERS_OFF) 8
  let addrPtr ← mem.readUint (req.inBuf + SENDMSG_ADDR_OFF) 8
  let addrLen ← mem.readUint (req.inBuf + SENDMSG_ADDR_LEN_OFF) 4
  let dest ← readSockaddr mem addrPtr addrLen.toNat
  let bufs ← readWsabufs mem buffers (min count.toNat MAX_WSABUFS)
  let data ← gather mem bufs
  return (dest, data)

def afdSend (turn : HostTurn) (req : Request) : Act OpResult :=
  if req.inLen.toNat < SENDMSG_PARAMS_LEN ∨ req.inBuf = 0 then return .Done STATUS_ACCESS_VIOLATION 0
  else do
    let (dest, _data) ← query (sendArgs req)
    match (dest.map afdPolicyCheck).getD (.ok ()) with
    | .error status => return .Done status 0
    | .ok () =>
      let k ← socketMut req.handle
      if k.wrShutdown then return .Done STATUS_PIPE_DISCONNECTED 0
      else
        match k.ep with
        | .Stream _ => return fromIo turn.send fun n => .Done STATUS_SUCCESS (BitVec.ofNat 64 n)
        | .Datagram _ => return fromIo turn.send fun n => .Done STATUS_SUCCESS (BitVec.ofNat 64 n)
        | _ => return .Done STATUS_INVALID_CONNECTION 0

/-! ## Shutting down -/

def Socket.shut (k : Socket) (how : U32) : Socket :=
  if how = SD_RECEIVE then { k with rdShutdown := true }
  else if how = SD_SEND then { k with wrShutdown := true }
  else { k with rdShutdown := true, wrShutdown := true }

def shutHost (turn : HostTurn) (ep : Endpoint) : OpResult :=
  match ep with
  | .Stream _ =>
    match turn.shutdown with
    | .ok () => OK
    | .error .NotConnected => OK
    | .error e => .Done (statusFor e) 0
  | .Datagram _ => OK
  | .Listener _ => OK
  | .Unbound => .Done STATUS_INVALID_CONNECTION 0

def afdShutdown (turn : HostTurn) (req : Request) : Act OpResult :=
  if req.inLen.toNat < SHUTDOWN_PARAMS_LEN ∨ req.inBuf = 0 then return .Done STATUS_ACCESS_VIOLATION 0
  else do
    let how ← query fun mem => mem.readUint req.inBuf 4
    let k ← socketMut req.handle
    setSocket req.handle (k.shut (how.setWidth 32))
    return shutHost turn k.ep

/-! ## Asking -/

def Socket.localAddr (k : Socket) (turn : HostTurn) : Option SocketAddr :=
  match k.ep with
  | .Unbound => none
  | _ => turn.name

def Socket.peerAddr (k : Socket) (turn : HostTurn) : Option SocketAddr :=
  match k.ep with
  | .Stream _ => turn.name
  | .Datagram _ => k.peer
  | _ => none

def afdGetName (turn : HostTurn) (req : Request) (peer : Bool) : Act OpResult := do
  let k ← socketMut req.handle
  match if peer then k.peerAddr turn else k.localAddr turn with
  | none => return .Done STATUS_INVALID_CONNECTION 0
  | some addr =>
    match ← onMem (writeSockaddr req.outBuf req.outLen.toNat addr) with
    | some n => return .Done STATUS_SUCCESS (BitVec.ofNat 64 n)
    | none => return .Done STATUS_ACCESS_VIOLATION 0

def afdGetSocketInfo (req : Request) : Act OpResult :=
  if req.outLen.toNat < SOCKET_INFO_LEN ∨ req.outBuf = 0 then return .Done STATUS_ACCESS_VIOLATION 0
  else do
    let k ← socketMut req.handle
    onMem (do
      store req.outBuf 4 (k.family.setWidth 64)
      store (req.outBuf + 4) 4 (k.kind.setWidth 64)
      store (req.outBuf + 8) 4 (k.protocol.setWidth 64))
    return .Done STATUS_SUCCESS (BitVec.ofNat 64 SOCKET_INFO_LEN)

def Socket.probed (k : Socket) (probe : Probe) : List Nat :=
  match k.ep, k.pending, probe.accept with
  | .Listener _, [], .ok c => [c]
  | _, _, _ => []

def Socket.waiting (k : Socket) (new : List Nat) : Socket := { k with pending := k.pending ++ new }

def Socket.readiness (k : Socket) (probe : Probe) : U32 :=
  (if k.wrShutdown && k.rdShutdown then AFD_POLL_HUP else 0) |||
    match k.ep with
    | .Stream _ =>
      (if !k.wrShutdown then AFD_POLL_WRITE else 0) |||
        match probe.peek with
        | .ok 0 => AFD_POLL_READ ||| AFD_POLL_HUP
        | .ok _ => AFD_POLL_READ
        | .error .WouldBlock => 0
        | .error _ => AFD_POLL_RESET ||| AFD_POLL_READ
    | .Listener _ => if k.pending ≠ [] then AFD_POLL_ACCEPT ||| AFD_POLL_READ else 0
    | .Datagram _ =>
      AFD_POLL_WRITE |||
        match probe.peek with
        | .ok _ => AFD_POLL_READ
        | .error _ => 0
    | .Unbound => AFD_POLL_WRITE

def afdReadiness (handle : U64) (probe : Probe) : Act U32 := fun s =>
  match s.sockets handle with
  | none => some (.ok AFD_POLL_CONNECT_ERR, s)
  | some k =>
    let new := k.probed probe
    let k := k.waiting new
    some (.ok (k.readiness probe), { s.setSocket handle k with accepted := s.accepted ++ new.map fun c => (handle, c) })

def pollEntry (p : U64) (i : Nat) : U64 := p + POLL_PARAMS_HEADER + BitVec.ofNat 64 i * POLL_ENTRY_STRIDE

/-- The entries that are ready, of those from the `i`th on. -/
def pollFrom (turn : HostTurn) (p : U64) (i : Nat) : Nat → Act (List (U64 × U32))
  | 0 => return []
  | count + 1 => do
    let handle ← query fun mem => mem.readUint (pollEntry p i) 8
    let want ← query fun mem => mem.readUint (pollEntry p i + POLL_ENTRY_FLAGS_OFF) 4
    let got := (← afdReadiness handle (turn.probes i)) &&& want.setWidth 32
    let rest ← pollFrom turn p (i + 1) count
    return if got ≠ 0 then (handle, got) :: rest else rest

def tellReady (p : U64) (i : Nat) : List (U64 × U32) → Fallible VirtualMemory EmuError Unit
  | [] => return ()
  | (handle, flags) :: rest => do
    store (pollEntry p i) 8 handle
    store (pollEntry p i + POLL_ENTRY_FLAGS_OFF) 4 (flags.setWidth 64)
    store (pollEntry p i + POLL_ENTRY_STATUS_OFF) 4 (STATUS_SUCCESS.setWidth 64)
    tellReady p (i + 1) rest

def afdSelect (turn : HostTurn) (req : Request) : Act OpResult :=
  if req.inBuf = 0 ∨ req.inLen.toNat < POLL_PARAMS_HEADER.toNat then return .Done STATUS_ACCESS_VIOLATION 0
  else do
    let timeout ← query fun mem => mem.readUint req.inBuf 8
    let count ← query fun mem => mem.readUint (req.inBuf + POLL_PARAMS_COUNT_OFF) 4
    let ready ← pollFrom turn req.inBuf 0 (min count.toNat MAX_POLL_ENTRIES)
    if ready = [] ∧ timeout ≠ 0 then return .WouldBlock
    else
      onMem (do
        tellReady req.inBuf 0 ready
        store (req.inBuf + POLL_PARAMS_COUNT_OFF) 4 (BitVec.ofNat 64 ready.length))
      return .Done STATUS_SUCCESS (POLL_PARAMS_HEADER + BitVec.ofNat 64 ready.length * POLL_ENTRY_STRIDE)

/-! ## The calls -/

def afdDispatch (turn : HostTurn) (req : Request) : Act OpResult :=
  match ofCode req.code with
  | some .wineCreate => afdCreate req
  | some .bind => afdBind turn req
  | some .startListen => afdListen req
  | some .wineConnect => afdConnect turn req
  | some .wineAccept => afdAccept turn req
  | some .wineRecvmsg => afdRecv turn req
  | some .wineSendmsg => afdSend turn req
  | some .wineShutdown => afdShutdown turn req
  | some .getSockName => afdGetName turn req false
  | some .wineGetPeerName => afdGetName turn req true
  | some .wineGetSocketInfo => afdGetSocketInfo req
  | some .select => afdSelect turn req
  | some .wineOp210 => return OK
  | none => return .Done STATUS_NOT_IMPLEMENTED 0

def finish (iosb : U64) (status : U32) (info : U64) : Act U32 := do
  onMem (writeIosb iosb status info)
  return status

def afdWaitExpired (req : Request) (iosb : U64) : Act U32 :=
  if ofCode req.code = some .select ∧ req.inBuf ≠ 0 then do
    onMem (store (req.inBuf + POLL_PARAMS_COUNT_OFF) 4 0)
    finish iosb STATUS_SUCCESS POLL_PARAMS_HEADER
  else finish iosb STATUS_IO_TIMEOUT 0

def afdPoll (req : Request) (iosb : U64) : List HostTurn → Act U32
  | [] => afdWaitExpired req iosb
  | turn :: turns => do
    match ← afdDispatch turn req with
    | .Done status info => finish iosb status info
    | .WouldBlock => afdPoll req iosb turns

def afdWaitLimit (req : Request) : Act Unit :=
  if ofCode req.code ≠ some .select ∨ req.inBuf = 0 then return ()
  else query fun mem => (mem.readUint req.inBuf 8).map fun _ => ()

def afdBlock (req : Request) (iosb : U64) (switched : Bool) (turns : List HostTurn) : Act U32 :=
  if switched then return STATUS_PENDING
  else do
    afdWaitLimit req
    afdPoll req iosb turns

/-- `switched` says that another thread runs while the call waits, and `turns` what else the host does
before its time is over. -/
def ntDeviceIoControlFile (req : Request) (iosb : U64) (known switched : Bool) (turn : HostTurn) (turns : List HostTurn) : Act U32 := do
  let s ← get
  match s.sockets req.handle with
  | none => finish iosb (if known then STATUS_NOT_IMPLEMENTED else STATUS_INVALID_HANDLE) 0
  | some _ =>
    match ← afdDispatch turn req with
    | .Done status info => finish iosb status info
    | .WouldBlock => afdBlock req iosb switched turns

def ntOpenAfd (named : Bool) (handlePtr iosb : U64) : Act (Option U32) :=
  if !named then return none
  else if handlePtr = 0 then return some STATUS_ACCESS_VIOLATION
  else do
    let handle ← allocKhandle
    setSocket handle .new
    onMem (do
      store handlePtr 8 handle
      writeIosb iosb STATUS_SUCCESS 1)
    return some STATUS_SUCCESS

def closeSocket (s : Sockets) (handle : U64) : Sockets := { s with sockets := Function.update s.sockets handle none }

end Net

end Exemu.Os
