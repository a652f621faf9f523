import Exemu.Library.First
import Exemu.Os.Spawn

/-! # Child processes

A child is made suspended, and run to its end by the host inside the call that resumes it.
-/
namespace Exemu.Os

namespace Children

def STATUS_SUCCESS : U32 := 0
def STATUS_UNSUCCESSFUL : U32 := 0xC0000001
def STATUS_NOT_IMPLEMENTED : U32 := 0xC0000002
def STATUS_INFO_LENGTH_MISMATCH : U32 := 0xC0000004
def STATUS_INVALID_HANDLE : U32 := 0xC0000008
def STATUS_INVALID_PARAMETER : U32 := 0xC000000D
def STATUS_OBJECT_NAME_NOT_FOUND : U32 := 0xC0000034
def STATUS_NOT_SUPPORTED : U32 := 0xC00000BB
def ERROR_FILE_NOT_FOUND : U32 := 2
def ERROR_INVALID_HANDLE : U32 := 6
def ERROR_INVALID_PARAMETER : U32 := 87
def NT_CURRENT_PROCESS : Nat := 2 ^ 64 - 1
def PROCESS_BASIC_INFORMATION : U32 := 0
def PROCESS_WOW64_INFORMATION : U32 := 26
def CURRENT_PROCESS_ID : Nat := 0x1000

structure ChildProcessRequest where
  imageGuestPath : String
  imageHostPath : String
  commandLine : String
  currentDirectory : String
  environment : List (String × String)
  inheritHandles : Bool
  depth : Nat
deriving DecidableEq

structure ChildProcessOutcome where
  exitCode : U32
  stdout : List U8
  stderr : List U8

inductive SpawnError where
  | Unsupported
  | ImageNotFound
  | InvalidImage (m : String)
  | Faulted (m : String)

def SpawnError.note : SpawnError → String
  | .Unsupported => "no child-process runner is installed"
  | .ImageNotFound => "the child image disappeared"
  | .InvalidImage m => "the child image is not loadable: " ++ m
  | .Faulted m => "exemu failed while running the child: " ++ m

abbrev Spawner := ChildProcessRequest → Except SpawnError ChildProcessOutcome

/-- An entry of the table, with what the scheduler does not look at. -/
structure Child extends ChildProcess where
  pid : Nat
  tid : Nat
  exitCode : U32
  request : Option ChildProcessRequest

structure State where
  /-- its own table of children is not used -/
  os : WinOs
  mem : VirtualMemory
  children : List Child
  nextPid : Nat
  spawnDepth : Nat
  stdoutBuf : List U8
  stderrBuf : List U8
  childFailure : Option String
  /-- the children that the spawner was called for, by their ids -/
  spawned : List Nat

namespace State

def childByProcessHandle (s : State) (handle : Nat) : Option Nat := s.children.findIdx? (·.processHandle == handle)

def childByThreadHandle (s : State) (handle : Nat) : Option Nat := s.children.findIdx? (·.threadHandle == handle)

/-! ## Closing a handle -/

def forgetChildHandle (s : State) (handle : Nat) : State :=
  let children := First.change (·.processHandle == handle) (fun c => { c with processHandle := 0 }) s.children
  let children := First.change (·.threadHandle == handle) (fun c => { c with threadHandle := 0 }) children
  { s with children := children.filter fun c => c.processHandle != 0 || c.threadHandle != 0 }

def closeHandle (s : State) (handle : Nat) : State × Bool :=
  match s.os.kobjects handle with
  | none => (s, false)
  | some _ =>
    let os : WinOs :=
      { s.os with
        kobjects := Function.update s.os.kobjects handle none
        namedKobjects := fun n => if s.os.namedKobjects n = some handle then none else s.os.namedKobjects n }
    ({ s with os := os }.forgetChildHandle handle, true)

/-! ## Running a child -/

def emitChild (s : State) (isErr : Bool) (bytes : List U8) : State :=
  if isErr then { s with stderrBuf := s.stderrBuf ++ bytes } else { s with stdoutBuf := s.stdoutBuf ++ bytes }

def noteOutcome (s : State) (req : ChildProcessRequest) : Except SpawnError ChildProcessOutcome → State
  | .ok o => (s.emitChild false o.stdout).emitChild true o.stderr
  | .error e =>
    { s.emitChild true (("exemu: child process " ++ req.imageGuestPath ++ " failed — " ++ e.note ++ "\n").toUTF8.toList.map (·.toBitVec)) with
      childFailure := some e.note }

def exitCodeOf : Except SpawnError ChildProcessOutcome → U32
  | .ok o => o.exitCode
  | .error _ => STATUS_UNSUCCESSFUL

def runChild (s : State) (spawner : Spawner) (i : Nat) : State :=
  match s.children[i]? with
  | none => s
  | some c =>
    match c.request with
    | none => s
    | some req =>
      let outcome := spawner req
      let s := s.noteOutcome req outcome
      { s with
        children := s.children.set i { c with request := none, state := .Exited, exitCode := exitCodeOf outcome }
        os := s.os.markChildExited c.toChildProcess
        spawned := s.spawned ++ [c.pid] }

def resumeChild (s : State) (spawner : Spawner) (i : Nat) : State × Nat :=
  match s.children[i]? with
  | none => (s, 0)
  | some c =>
    let c' := { c with suspendCount := c.suspendCount - 1 }
    let s := { s with children := s.children.set i c' }
    if c'.suspendCount = 0 ∧ c'.state = .NotStarted then (s.runChild spawner i, c.suspendCount) else (s, c.suspendCount)

def resumeChildThread (s : State) (spawner : Spawner) (handle : Nat) : Option (State × Nat) :=
  (s.childByThreadHandle handle).map fun i => s.resumeChild spawner i

def terminateChild (s : State) (handle : Nat) (code : U32) : State × Bool :=
  match s.childByProcessHandle handle with
  | none => (s, false)
  | some i =>
    match s.children[i]? with
    | none => (s, false)
    | some c =>
      if c.state = .NotStarted then
        ({ s with
            children := s.children.set i { c with request := none, state := .Exited, exitCode := code }
            os := s.os.markChildExited c.toChildProcess }, true)
      else (s, true)

/-! ## Making a child -/

def createChild (s : State) (request : ChildProcessRequest) : State × Child :=
  let pid := s.nextPid
  let tid := s.nextPid + 4
  let (ph, os) := s.os.allocKhandle
  let (th, os) := os.allocKhandle
  let os := (os.setObject ph (.Process false)).setObject th (.Thread false)
  let c : Child := ⟨⟨ph, th, .NotStarted, 1⟩, pid, tid, STILL_ACTIVE, some request⟩
  ({ s with os := os, nextPid := s.nextPid + 8, children := s.children ++ [c] }, c)

/-- `mem.write_*(..)?` over the fields. -/
def writeAll (s : State) (fields : List Field) : State × Result Unit :=
  let (mem, done) := writeFields s.mem fields
  ({ s with mem := mem }, done)

/-- A call that is done writes its results to the guest, and fails with the first store that fails. -/
def answer (s : State) (status : U32) (fields : List Field) : State × Result U32 :=
  match s.writeAll fields with
  | (s, .ok ()) => (s, .ok status)
  | (s, .error e) => (s, .error e)

def ptrSize (s : State) : Nat := if s.os.cfg.is64bit then 8 else 4

end State

/-- What the file system of the host and the names of the guest are. -/
structure Names where
  hostPath : String → Option String
  isFile : String → Bool
  stripNtPrefix : String → String
  fullPathName : String → String
  firstToken : String → String

structure PsAttributes where
  imageName : Option String
  clientIdOut : Option U64
  imageInfoOut : Option (U64 × U64)
  returnLengths : List (U64 × U64)

/-- A call of `NtCreateUserProcess`, with what it reads of the guest. -/
structure NtCreate where
  processHandleOut : U64
  threadHandleOut : U64
  params : U64
  inheritHandles : Bool
  attrs : Result (Except U32 PsAttributes)
  stdHandles : Result (List Nat)
  commandLine : String
  imageFromParams : String
  currentDirectory : String
  environment : Result (List (String × String))

/-- A call of `CreateProcess`, with what it reads of the guest. -/
structure Win32Create where
  app : Result String
  cmd : Result String
  dir : Result String
  inherit : Bool
  suspended : Bool
  info : U64
  environment : List (String × String)

def isStdHandle (h : Nat) : Bool := h == 0x0C || h == 0x10 || h == 0x14

def NtCreate.request (names : Names) (depth : Nat) (args : NtCreate) (attrs : PsAttributes) (hostPath : String)
    (environment : List (String × String)) : ChildProcessRequest :=
  ⟨names.stripNtPrefix (attrs.imageName.getD args.imageFromParams), hostPath, args.commandLine, args.currentDirectory, environment,
    args.inheritHandles, depth + 1⟩

def NtCreate.check (names : Names) (depth : Nat) (args : NtCreate) : Result (Except U32 (PsAttributes × ChildProcessRequest)) :=
  if args.processHandleOut = 0 ∨ args.threadHandleOut = 0 ∨ args.params = 0 then .ok (.error STATUS_INVALID_PARAMETER)
  else do
    match ← args.attrs with
    | .error status => return .error status
    | .ok attrs =>
      let stdHandles ← args.stdHandles
      if stdHandles.any fun h => h != 0 && h != 2 ^ 64 - 1 && !isStdHandle h then return .error STATUS_NOT_SUPPORTED
      else
        let environment ← args.environment
        let image := attrs.imageName.getD args.imageFromParams
        if image = "" then return .error STATUS_OBJECT_NAME_NOT_FOUND
        else
          match names.hostPath (names.stripNtPrefix image) with
          | none => return .error STATUS_OBJECT_NAME_NOT_FOUND
          | some hostPath =>
            if !names.isFile hostPath then return .error STATUS_OBJECT_NAME_NOT_FOUND
            else return .ok (attrs, args.request names depth attrs hostPath environment)

def PsAttributes.clientId (attrs : PsAttributes) (c : Child) : List Field :=
  match attrs.clientIdOut with
  | none => []
  | some clientId => [(clientId, 8, BitVec.ofNat 64 c.pid), (clientId + 8, 8, BitVec.ofNat 64 c.tid)]

def PsAttributes.imageInfo (attrs : PsAttributes) : List Field :=
  match attrs.imageInfoOut with
  | none => []
  | some (ptr, len) => (List.range ((len.toNat + 7) / 8)).map fun k => (ptr + BitVec.ofNat 64 (k * 8), 8, 0)

def NtCreate.fields (ptrSize : Nat) (args : NtCreate) (attrs : PsAttributes) (c : Child) : List Field :=
  [(args.processHandleOut, ptrSize, BitVec.ofNat 64 c.processHandle), (args.threadHandleOut, ptrSize, BitVec.ofNat 64 c.threadHandle)] ++
    attrs.clientId c ++ attrs.imageInfo ++ attrs.returnLengths.map fun p => (p.1, 8, p.2)

def Win32Create.check (names : Names) (depth : Nat) (args : Win32Create) : Result (Except U32 ChildProcessRequest) := do
  let app ← args.app
  let cmd ← args.cmd
  let dir ← args.dir
  let image := if app ≠ "" then app else names.firstToken cmd
  if image = "" then return .error ERROR_INVALID_PARAMETER
  else
    let image := names.fullPathName image
    let commandLine := if cmd = "" then image else cmd
    let cwd := if dir = "" then "C:\\" else names.fullPathName dir
    match names.hostPath image with
    | none => return .error ERROR_FILE_NOT_FOUND
    | some hostPath =>
      if !names.isFile hostPath then return .error ERROR_FILE_NOT_FOUND
      else return .ok ⟨image, hostPath, commandLine, cwd, args.environment, args.inherit, depth + 1⟩

def Win32Create.fields (ptrSize : Nat) (args : Win32Create) (c : Child) : List Field :=
  if args.info = 0 then []
  else
    [(args.info, ptrSize, BitVec.ofNat 64 c.processHandle), (args.info + BitVec.ofNat 64 ptrSize, ptrSize, BitVec.ofNat 64 c.threadHandle),
      (args.info + BitVec.ofNat 64 (ptrSize * 2), 4, BitVec.ofNat 64 c.pid),
      (args.info + BitVec.ofNat 64 (ptrSize * 2 + 4), 4, BitVec.ofNat 64 c.tid)]

namespace State

def ntCreateUserProcess (s : State) (names : Names) (args : NtCreate) : State × Result U32 :=
  match args.check names s.spawnDepth with
  | .error e => (s, .error e)
  | .ok (.error status) => (s, .ok status)
  | .ok (.ok (attrs, request)) =>
    let (s, c) := s.createChild request
    s.answer STATUS_SUCCESS (args.fields s.ptrSize attrs c)

def win32CreateProcess (s : State) (names : Names) (spawner : Spawner) (args : Win32Create) : State × Result U32 :=
  match args.check names s.spawnDepth with
  | .error e => (s, .error e)
  | .ok (.error code) => ({ s with os := { s.os with lastError := code } }, .ok 0)
  | .ok (.ok request) =>
    let (s, c) := s.createChild request
    let s := if args.suspended then s else ((s.resumeChildThread spawner c.threadHandle).map (·.1)).getD s
    s.answer 1 (args.fields s.ptrSize c)

/-! ## The other calls -/

def ntResumeThread (s : State) (spawner : Spawner) (handle : Nat) (prevOut : U64) : State × Result U32 :=
  let noted (prev : Nat) : List Field := if prevOut ≠ 0 then [(prevOut, 4, BitVec.ofNat 64 prev)] else []
  match s.resumeChildThread spawner handle with
  | some (s, prev) => s.answer STATUS_SUCCESS (noted prev)
  | none =>
    match s.os.ntThreadIndex handle with
    | none => (s, .ok STATUS_INVALID_HANDLE)
    | some i => { s with os := s.os.resumeAt i }.answer STATUS_SUCCESS (noted (s.os.suspendCountAt i))

def resumeThread (s : State) (handle : Nat) : State × Result U32 :=
  ({ s with os := (s.os.resumeThread handle).1 }, .ok (BitVec.ofNat 32 (s.os.resumeThread handle).2))

def ntTerminateProcess (s : State) (handle : Nat) (code : U32) : State × Result U32 :=
  if handle = 0 ∨ handle = 2 ^ 64 - 1 then ({ s with os := { s.os with pendingSyscallExit := some code.toInt } }, .ok STATUS_SUCCESS)
  else
    match s.terminateChild handle code with
    | (s, true) => (s, .ok STATUS_SUCCESS)
    | (s, false) => (s, .ok STATUS_INVALID_HANDLE)

def ntClose (s : State) (handle : Nat) : State × Result U32 :=
  if handle = 2 ^ 64 - 1 ∨ handle = 2 ^ 64 - 2 ∨ isStdHandle handle = true then (s, .ok STATUS_SUCCESS)
  else
    match s.closeHandle handle with
    | (s, true) => (s, .ok STATUS_SUCCESS)
    | (s, false) => (s, .ok STATUS_INVALID_HANDLE)

def childExitCode (s : State) (handle : Nat) : Option U32 := (s.childByProcessHandle handle).bind fun i => s.children[i]?.map (·.exitCode)

def win32GetExitCodeProcess (s : State) (handle : Nat) (out : U64) : State × Result U32 :=
  let code := if handle = 0 ∨ handle = NT_CURRENT_PROCESS ∨ handle = 0xFFFFFFFF then some STILL_ACTIVE else s.childExitCode handle
  match code with
  | none => ({ s with os := { s.os with lastError := ERROR_INVALID_HANDLE } }, .ok 0)
  | some code => s.answer 1 (if out ≠ 0 then [(out, 4, code.setWidth 64)] else [])

def basicInformation (s : State) (buffer : U64) (exitStatus : U32) (peb : U64) (pid : Nat) : List Field :=
  let parent : U64 := if pid = CURRENT_PROCESS_ID then 0 else BitVec.ofNat 64 CURRENT_PROCESS_ID
  if s.os.cfg.is64bit then
    [(buffer, 4, exitStatus.setWidth 64), (buffer + 0x04, 4, 0), (buffer + 0x08, 8, peb), (buffer + 0x10, 8, 1), (buffer + 0x18, 8, 8),
      (buffer + 0x20, 8, BitVec.ofNat 64 pid), (buffer + 0x28, 8, parent)]
  else
    [(buffer, 4, exitStatus.setWidth 64), (buffer + 0x04, 4, peb), (buffer + 0x08, 4, 1), (buffer + 0x0C, 4, 8),
      (buffer + 0x10, 4, BitVec.ofNat 64 pid), (buffer + 0x14, 4, parent)]

def ntQueryInformationProcess (s : State) (handle : Nat) (cls : U32) (buffer : U64) (length : Nat) (returnLength : U64) : State × Result U32 :=
  let noted (n : Nat) : List Field := if returnLength ≠ 0 then [(returnLength, 4, BitVec.ofNat 64 n)] else []
  if cls = PROCESS_WOW64_INFORMATION then
    if buffer = 0 ∨ length < s.ptrSize then (s, .ok STATUS_INFO_LENGTH_MISMATCH)
    else s.answer STATUS_SUCCESS ((buffer, s.ptrSize, s.os.wow64Peb32) :: noted s.ptrSize)
  else if cls ≠ PROCESS_BASIC_INFORMATION then (s, .ok STATUS_NOT_IMPLEMENTED)
  else
    let need := if s.os.cfg.is64bit then 0x30 else 0x18
    if buffer = 0 ∨ length < need then (s, .ok STATUS_INFO_LENGTH_MISMATCH)
    else if handle = 0 ∨ handle = NT_CURRENT_PROCESS then
      s.answer STATUS_SUCCESS (s.basicInformation buffer STILL_ACTIVE s.os.cfg.pebAddr CURRENT_PROCESS_ID ++ noted need)
    else
      match (s.childByProcessHandle handle).bind fun i => s.children[i]? with
      | some c => s.answer STATUS_SUCCESS (s.basicInformation buffer c.exitCode 0 c.pid ++ noted need)
      | none => (s, .ok STATUS_INVALID_HANDLE)

end State

inductive Call where
  | ntCreate (names : Names) (args : NtCreate)
  | win32Create (names : Names) (spawner : Spawner) (args : Win32Create)
  | close (handle : Nat)
  | ntClose (handle : Nat)
  | ntResume (spawner : Spawner) (handle : Nat) (prevOut : U64)
  | resume (handle : Nat)
  | terminate (handle : Nat) (code : U32)
  | queryInformation (handle : Nat) (cls : U32) (buffer : U64) (length : Nat) (returnLength : U64)
  | getExitCode (handle : Nat) (out : U64)

def State.step (s : State) : Call → State × Result U32
  | .ntCreate names args => s.ntCreateUserProcess names args
  | .win32Create names spawner args => s.win32CreateProcess names spawner args
  | .close handle => ((s.closeHandle handle).1, .ok 1)
  | .ntClose handle => s.ntClose handle
  | .ntResume spawner handle prevOut => s.ntResumeThread spawner handle prevOut
  | .resume handle => s.resumeThread handle
  | .terminate handle code => s.ntTerminateProcess handle code
  | .queryInformation handle cls buffer length returnLength => s.ntQueryInformationProcess handle cls buffer length returnLength
  | .getExitCode handle out => s.win32GetExitCodeProcess handle out

end Children

end Exemu.Os
