import Exemu.Memory.Lawful
import Exemu.Os.FileIo

/-! # Bytes moved and bytes reported

A call that succeeds has moved the bytes it reports, at the offset asked for, and one that fails
has left the file alone, exactly when the host does all that is asked of it and the guest's memory
can be accessed, or the position happens to end up where it belongs.
-/
namespace Exemu.Os

namespace FileIo

open Fallible

variable {s s' : FileSys} {turn : HostTurn} {frame : Frame} {f : HostFile} {handle ptr info buffer length : U64} {status : U32}
  {mem mem' : VirtualMemory} {data : List U8} {dest : Option SeekFrom}

/-! ## The parts of a call -/

theorem setFile_setFile (s : FileSys) (handle : U64) (f g : HostFile) : (s.setFile handle f).setFile handle g = s.setFile handle g := by
  unfold FileSys.setFile
  rw [Function.update_idem]

theorem setFile_same (h : s.files handle = some f) : s.setFile handle f = s := by
  unfold FileSys.setFile
  rw [← h, Function.update_eq_self]

theorem files_setFile (s : FileSys) (handle : U64) (f : HostFile) : (s.setFile handle f).files handle = some f := Function.update_self ..

def Reads {α : Type} (x : Act α) : Prop := ∀ s, ∃ r, x s = some (r, s)

variable {α : Type} {g : HostFile}

theorem reads_pure (a : α) : Reads (Pure.pure a : Act α) := fun _ => ⟨.ok a, rfl⟩

theorem load_ok {addr v : U64} {n : Nat} (h : s.mem.readUint addr n = .ok v) : load addr n s = some (.ok v, s) := step_of_ok (by rw [h]; rfl)

theorem load_error {addr : U64} {n : Nat} {e : EmuError} (h : s.mem.readUint addr n = .error e) : load addr n s = some (.error e, s) :=
  step_of_error (by rw [h]; rfl)

theorem reads_load (addr : U64) (n : Nat) : Reads (load addr n) := by
  intro s
  cases h : s.mem.readUint addr n with
  | ok v => exact ⟨.ok v, load_ok h⟩
  | error e => exact ⟨.error e, load_error h⟩

theorem reads_bind {β : Type} {x : Act α} {k : α → Act β} (hx : Reads x) (hk : ∀ a, Reads (k a)) : Reads (x >>= k) := by
  intro s
  obtain ⟨r, hFirst⟩ := hx s
  cases r with
  | ok a =>
    obtain ⟨r, hRest⟩ := hk a s
    exact ⟨r, (bind_of_ok hFirst).trans hRest⟩
  | error e => exact ⟨.error e, bind_of_error hFirst⟩

theorem reads_syscallArg (frame : Frame) (i : Nat) : Reads (syscallArg frame i) := by
  unfold syscallArg
  split
  · exact reads_pure _
  · exact reads_pure _
  · exact reads_pure _
  · exact reads_pure _
  · exact reads_load _ _

theorem reads_callArgs (frame : Frame) : Reads (callArgs frame) := by
  refine reads_bind (reads_syscallArg frame 0) fun _ => reads_bind (reads_syscallArg frame 4) fun _ =>
    reads_bind (reads_syscallArg frame 5) fun _ => reads_bind (reads_syscallArg frame 6) fun _ =>
    reads_bind (reads_syscallArg frame 7) fun _ => reads_pure _

theorem writeIosb_ends (ptr : U64) (status : U32) (info : U64) (mem : VirtualMemory) : ∃ r mem', writeIosb ptr status info mem = some (r, mem') := by
  have hStore (addr : U64) (n : Nat) (v : U64) (mem : VirtualMemory) : ∃ r mem', store addr n v mem = some (r, mem') := by
    cases h : mem.writeUint addr n v with
    | ok mem' => exact ⟨.ok (), mem', step_of_ok (by rw [h]; rfl)⟩
    | error e => exact ⟨.error e, mem, step_of_error (by rw [h]; rfl)⟩
  unfold writeIosb
  split
  · exact ⟨_, _, rfl⟩
  · obtain ⟨r, mem₁, hFirst⟩ := hStore ptr 4 (status.setWidth 64) mem
    cases r with
    | error e => exact ⟨.error e, mem₁, bind_of_error hFirst⟩
    | ok _ =>
      obtain ⟨r, mem₂, hSecond⟩ := hStore (ptr + 4) 4 0 mem₁
      cases r with
      | error e => exact ⟨.error e, mem₂, (bind_of_ok hFirst).trans (bind_of_error hSecond)⟩
      | ok _ =>
        obtain ⟨r, mem₃, hThird⟩ := hStore (ptr + 8) 8 info mem₂
        exact ⟨r, mem₃, (bind_of_ok hFirst).trans ((bind_of_ok hSecond).trans hThird)⟩

theorem onMem_run {x : Fallible VirtualMemory EmuError α} {r : Except EmuError α} (h : x s.mem = some (r, mem')) : onMem x s = some (r, s.withMem mem') := by
  unfold onMem
  rw [h]
  rfl

theorem writeGuest_ok (h : s.mem.write buffer data = .ok mem) : writeGuest buffer data s = some (.ok (), s.withMem mem) := by
  unfold writeGuest
  split
  · exact step_of_ok (by rw [h]; rfl)
  · rename_i hNone
    obtain rfl := not_not.mp hNone
    cases h
    rfl

theorem writeGuest_error {e : EmuError} (h : s.mem.write buffer data = .error e) : writeGuest buffer data s = some (.error e, s) := by
  unfold writeGuest
  split
  · exact step_of_error (by rw [h]; rfl)
  · rename_i hNone
    obtain rfl := not_not.mp hNone
    cases h

theorem readGuest_ok (h : s.mem.read buffer length.toNat = .ok data) : readGuest buffer length s = some (.ok data, s) := by
  unfold readGuest
  split
  · exact step_of_ok (by rw [h]; rfl)
  · rename_i hNone
    obtain rfl := not_not.mp hNone
    cases h
    rfl

theorem readGuest_error {e : EmuError} (h : s.mem.read buffer length.toNat = .error e) : readGuest buffer length s = some (.error e, s) := by
  unfold readGuest
  split
  · exact step_of_error (by rw [h]; rfl)
  · rename_i hNone
    obtain rfl := not_not.mp hNone
    cases h

/-! ## What a call is to do -/

inductive Kind where
  | read
  | write
deriving DecidableEq

def Kind.target : Kind → U64 → Option SeekFrom
  | .read => readTarget
  | .write => writeTarget

structure Request where
  kind : Kind
  turn : HostTurn
  frame : Frame

def Request.run (q : Request) : Act U32 :=
  match q.kind with
  | .read => ntReadFile q.turn q.frame
  | .write => ntWriteFile q.turn q.frame

/-- What the offset of the call asks for: nothing, if there is none or it stands for the position. -/
def destination (kind : Kind) (mem : VirtualMemory) (offsetPtr : U64) : Except EmuError (Option SeekFrom) :=
  if offsetPtr = 0 then .ok none else (mem.readUint offsetPtr 8).map kind.target

namespace HostFile

def stated (f : HostFile) (dest : Option SeekFrom) : Nat := (dest.map f.place).getD f.pos

def moved (f : HostFile) (turn : HostTurn) (dest : Option SeekFrom) : HostFile := (dest.map (f.seek turn)).getD f

end HostFile

def count (kind : Kind) (turn : HostTurn) (a : Args) (f : HostFile) (dest : Option SeekFrom) : Nat :=
  match kind with
  | .read => ((f.moved turn dest).ahead turn a.length.toNat).length
  | .write => min (turn.moves.getD 0) a.length.toNat

def Reports (ptr : U64) (n : Nat) (mem mem' : VirtualMemory) : Prop := writeIosb ptr STATUS_SUCCESS (BitVec.ofNat 64 n) mem = some (.ok (), mem')

/-- As many bytes as are reported were moved, at the offset asked for, and for a write all of them. -/
def Done (kind : Kind) (turn : HostTurn) (a : Args) (f : HostFile) (dest : Option SeekFrom) (s s' : FileSys) : Prop :=
  match kind with
  | .read =>
    ((f.bytes.drop (f.stated dest)).take (count .read turn a f dest)).length = count .read turn a f dest ∧
    s'.files = Function.update s.files a.handle (some ⟨f.bytes, f.stated dest + count .read turn a f dest⟩) ∧
    ∃ mem, s.mem.write a.buffer ((f.bytes.drop (f.stated dest)).take (count .read turn a f dest)) = .ok mem ∧
      Reports a.iosbPtr (count .read turn a f dest) mem s'.mem
  | .write =>
    count .write turn a f dest = a.length.toNat ∧
    ∃ data, s.mem.read a.buffer (count .write turn a f dest) = .ok data ∧
      s'.files = Function.update s.files a.handle
        (some ⟨HostFile.put f.bytes (f.stated dest) data, f.stated dest + count .write turn a f dest⟩) ∧
      Reports a.iosbPtr (count .write turn a f dest) s.mem s'.mem

def Emitted (a : Args) (s s' : FileSys) : Prop :=
  ∃ data, s.mem.read a.buffer a.length.toNat = .ok data ∧ s'.files = s.files ∧ s'.stdoutBuf = (s.emit (a.handle == HANDLE_STDERR) data).stdoutBuf ∧
    s'.stderrBuf = (s.emit (a.handle == HANDLE_STDERR) data).stderrBuf ∧ Reports a.iosbPtr a.length.toNat s.mem s'.mem

/-- A success has moved what it reports, and everything else leaves the files alone. -/
structure Answers (q : Request) (s : FileSys) (r : Except EmuError U32) (s' : FileSys) : Prop where
  success : r = .ok STATUS_SUCCESS → ∃ a, callArgs q.frame s = some (.ok a, s) ∧ (isStdHandle a.handle = true ∧ Emitted a s s' ∨
    ∃ f dest, s.files a.handle = some f ∧ destination q.kind s.mem a.offsetPtr = .ok dest ∧ Done q.kind q.turn a f dest s s')
  failure : r ≠ .ok STATUS_SUCCESS → s'.files = s.files

def Takes (a : Args) (data : List U8) (mem : VirtualMemory) : Prop :=
  ∃ mid mem', mem.write a.buffer data = .ok mid ∧ Reports a.iosbPtr data.length mid mem'

/-- A call on a file that ends well finds the position where it is asked to be, and takes all the
bytes of a write; one that does not leaves the position, and the bytes, where they were. -/
def Clean (kind : Kind) (turn : HostTurn) (a : Args) (f : HostFile) (dest : Option SeekFrom) (mem : VirtualMemory) : Prop :=
  match kind with
  | .read =>
    let data := (f.moved turn dest).ahead turn a.length.toNat
    ((data ≠ [] ∨ a.length = 0) ∧ Takes a data mem → (f.moved turn dest).pos = f.stated dest) ∧
      (¬((data ≠ [] ∨ a.length = 0) ∧ Takes a data mem) → (f.moved turn dest).pos + data.length = f.pos)
  | .write =>
    let n := min (turn.moves.getD 0) a.length.toNat
    (∀ data, mem.read a.buffer a.length.toNat = .ok data →
      ((∃ mem', Reports a.iosbPtr n mem mem') → (f.moved turn dest).pos = f.stated dest ∧ n = a.length.toNat) ∧
      (¬(∃ mem', Reports a.iosbPtr n mem mem') → (f.moved turn dest).pos + n = f.pos ∧
        HostFile.put f.bytes (f.moved turn dest).pos (data.take n) = f.bytes)) ∧
    (∀ e, mem.read a.buffer a.length.toNat = .error e → (f.moved turn dest).pos = f.pos)

def Request.Clean (q : Request) (s : FileSys) : Prop :=
  ∀ a f dest, callArgs q.frame s = some (.ok a, s) → isStdHandle a.handle = false → s.files a.handle = some f →
    destination q.kind s.mem a.offsetPtr = .ok dest → FileIo.Clean q.kind q.turn a f dest s.mem

/-! ## How a call goes -/

variable {kind : Kind} {a : Args} {q : Request} {e : EmuError}

theorem seekTo_ok (hFile : s.files handle = some f) (h : destination kind s.mem ptr = .ok dest) :
    seekTo turn kind.target handle ptr s = some (.ok (), s.setFile handle (f.moved turn dest)) := by
  have hSame : s.setFile handle f = s := setFile_same hFile
  unfold destination at h
  unfold seekTo
  by_cases hPtr : ptr = 0
  · rw [if_pos hPtr] at h
    cases h
    rw [if_neg (not_not.mpr hPtr)]
    rw [show s.setFile handle (f.moved turn none) = s from hSame]
    rfl
  · rw [if_neg hPtr] at h
    rw [if_pos hPtr]
    cases hOff : s.mem.readUint ptr 8 with
    | error e =>
      rw [hOff] at h
      cases h
    | ok off =>
      rw [hOff] at h
      cases h
      rw [bind_of_ok (load_ok hOff)]
      cases hTarget : kind.target off with
      | none =>
        rw [show s.setFile handle (f.moved turn none) = s from hSame]
        rfl
      | some dest =>
        change some (Except.ok (), s.seekFile handle turn dest) = _
        unfold FileSys.seekFile
        rw [hFile]
        rfl

theorem seekTo_error (h : destination kind s.mem ptr = .error e) : seekTo turn kind.target handle ptr s = some (.error e, s) := by
  unfold destination at h
  unfold seekTo
  by_cases hPtr : ptr = 0
  · rw [if_pos hPtr] at h
    cases h
  · rw [if_neg hPtr] at h
    rw [if_pos hPtr]
    cases hOff : s.mem.readUint ptr 8 with
    | ok off =>
      rw [hOff] at h
      cases h
    | error e' =>
      rw [hOff] at h
      cases h
      exact bind_of_error (load_error hOff)

def readAt (turn : HostTurn) (a : Args) : Act U32 := do
  let buf := (← readFile turn a.handle a.length.toNat).getD []
  writeGuest a.buffer buf
  if buf = [] ∧ a.length ≠ 0 then
    onMem (writeIosb a.iosbPtr STATUS_END_OF_FILE 0)
    return STATUS_END_OF_FILE
  else
    onMem (writeIosb a.iosbPtr STATUS_SUCCESS (BitVec.ofNat 64 buf.length))
    return STATUS_SUCCESS

def writeAt (turn : HostTurn) (a : Args) : Act U32 := do
  let data ← readGuest a.buffer a.length
  let n := (← writeFileHandle turn a.handle data).getD 0
  onMem (writeIosb a.iosbPtr STATUS_SUCCESS (BitVec.ofNat 64 n))
  return STATUS_SUCCESS

def Kind.transfer : Kind → HostTurn → Args → Act U32
  | .read => readAt
  | .write => writeAt

theorem run_error (h : callArgs q.frame s = some (.error e, s)) : q.run s = some (.error e, s) := by
  unfold Request.run ntReadFile ntWriteFile
  cases q.kind with
  | read => exact bind_of_error h
  | write => exact bind_of_error h

theorem run_none (h : callArgs q.frame s = some (.ok a, s)) (hStd : isStdHandle a.handle = false) (hFile : s.files a.handle = none) :
    q.run s = some (.ok STATUS_INVALID_HANDLE, s) := by
  unfold Request.run ntReadFile ntWriteFile
  cases q.kind with
  | read =>
    dsimp only
    rw [bind_of_ok h, bind_of_ok rfl, hStd, if_neg Bool.false_ne_true, FileSys.isFileHandle, hFile]
    rfl
  | write =>
    dsimp only
    rw [bind_of_ok h, bind_of_ok rfl, hStd, if_neg Bool.false_ne_true, FileSys.isFileHandle, hFile]
    rfl

theorem run_file (h : callArgs q.frame s = some (.ok a, s)) (hStd : isStdHandle a.handle = false) (hFile : s.files a.handle = some f) :
    q.run s = (seekTo q.turn q.kind.target a.handle a.offsetPtr >>= fun _ => q.kind.transfer q.turn a) s := by
  unfold Request.run ntReadFile ntWriteFile
  cases q.kind with
  | read =>
    dsimp only
    rw [bind_of_ok h, bind_of_ok rfl, hStd, if_neg Bool.false_ne_true, FileSys.isFileHandle, hFile]
    rfl
  | write =>
    dsimp only
    rw [bind_of_ok h, bind_of_ok rfl, hStd, if_neg Bool.false_ne_true, FileSys.isFileHandle, hFile]
    rfl

/-! ## The bytes -/

theorem moved_bytes (f : HostFile) (turn : HostTurn) (dest : Option SeekFrom) : (f.moved turn dest).bytes = f.bytes := by
  cases dest with
  | none => rfl
  | some dest =>
    change (f.seek turn dest).bytes = _
    unfold HostFile.seek
    split <;> rfl

theorem files_set_iff (h : s.files handle = some f) (g : HostFile) : (s.setFile handle g).files = s.files ↔ g = f := by
  constructor
  · intro hSame
    have hHere := congrFun hSame handle
    rw [files_setFile, h] at hHere
    exact Option.some.inj hHere
  · rintro rfl
    rw [setFile_same h]

theorem not_success (e : EmuError) : (Except.error e : Except EmuError U32) ≠ .ok STATUS_SUCCESS := by
  rintro ⟨⟩

theorem not_both {x : Except EmuError α} {v : α} (hOk : x = .ok v) (hError : x = .error e) : False := by
  rw [hOk] at hError
  cases hError

def readLeft (s : FileSys) (turn : HostTurn) (a : Args) (g : HostFile) : FileSys :=
  s.setFile a.handle ⟨g.bytes, g.pos + (g.ahead turn a.length.toNat).length⟩

theorem readAt_done {mid : VirtualMemory} (hFile : s.files a.handle = some g) (hSome : g.ahead turn a.length.toNat ≠ [] ∨ a.length = 0)
    (hWrite : s.mem.write a.buffer (g.ahead turn a.length.toNat) = .ok mid) (hNote : Reports a.iosbPtr (g.ahead turn a.length.toNat).length mid mem') :
    readAt turn a s = some (.ok STATUS_SUCCESS, (readLeft s turn a g).withMem mem') := by
  have hRead : readFile turn a.handle a.length.toNat s = some (.ok (some (g.ahead turn a.length.toNat)), readLeft s turn a g) := by
    unfold readFile
    rw [hFile]
    rfl
  have hGuest : writeGuest a.buffer (g.ahead turn a.length.toNat) (readLeft s turn a g) = some (.ok (), (readLeft s turn a g).withMem mid) :=
    writeGuest_ok hWrite
  have hBlock : onMem (writeIosb a.iosbPtr STATUS_SUCCESS (BitVec.ofNat 64 (g.ahead turn a.length.toNat).length)) ((readLeft s turn a g).withMem mid) =
      some (.ok (), (readLeft s turn a g).withMem mem') := onMem_run hNote
  unfold readAt
  rw [bind_of_ok hRead]
  dsimp only [Option.getD_some]
  rw [bind_of_ok hGuest, if_neg (by rintro ⟨hNone, hLen⟩; exact hSome.elim (fun h => h hNone) hLen), bind_of_ok hBlock]
  rfl

theorem readAt_fails (hFile : s.files a.handle = some g)
    (hNot : ¬((g.ahead turn a.length.toNat ≠ [] ∨ a.length = 0) ∧ Takes a (g.ahead turn a.length.toNat) s.mem)) :
    ∃ r s', readAt turn a s = some (r, s') ∧ r ≠ .ok STATUS_SUCCESS ∧ s'.files = (readLeft s turn a g).files := by
  have hRead : readFile turn a.handle a.length.toNat s = some (.ok (some (g.ahead turn a.length.toNat)), readLeft s turn a g) := by
    unfold readFile
    rw [hFile]
    rfl
  unfold readAt
  rw [bind_of_ok hRead]
  dsimp only [Option.getD_some]
  cases hWrite : s.mem.write a.buffer (g.ahead turn a.length.toNat) with
  | error e =>
    have hGuest : writeGuest a.buffer (g.ahead turn a.length.toNat) (readLeft s turn a g) = some (.error e, readLeft s turn a g) :=
      writeGuest_error hWrite
    rw [bind_of_error hGuest]
    exact ⟨_, _, rfl, not_success e, rfl⟩
  | ok mid =>
    have hGuest : writeGuest a.buffer (g.ahead turn a.length.toNat) (readLeft s turn a g) = some (.ok (), (readLeft s turn a g).withMem mid) :=
      writeGuest_ok hWrite
    rw [bind_of_ok hGuest]
    split
    · obtain ⟨r, mem', hNote⟩ := writeIosb_ends a.iosbPtr STATUS_END_OF_FILE 0 mid
      cases r with
      | ok _ =>
        rw [bind_of_ok (onMem_run hNote)]
        exact ⟨_, _, rfl, by decide, rfl⟩
      | error e =>
        rw [bind_of_error (onMem_run hNote)]
        exact ⟨_, _, rfl, not_success e, rfl⟩
    · rename_i hSome
      obtain ⟨r, mem', hNote⟩ := writeIosb_ends a.iosbPtr STATUS_SUCCESS (BitVec.ofNat 64 (g.ahead turn a.length.toNat).length) mid
      cases r with
      | ok _ =>
        refine absurd ⟨?_, mid, mem', hWrite, hNote⟩ hNot
        by_cases hNone : g.ahead turn a.length.toNat = []
        · exact .inr (not_not.mp fun hLen => hSome ⟨hNone, hLen⟩)
        · exact .inl hNone
      | error e =>
        rw [bind_of_error (onMem_run hNote)]
        exact ⟨_, _, rfl, not_success e, rfl⟩

def writeLeft (s : FileSys) (turn : HostTurn) (a : Args) (g : HostFile) (data : List U8) : FileSys :=
  s.setFile a.handle ⟨HostFile.put g.bytes g.pos (data.take (min (turn.moves.getD 0) a.length.toNat)),
    g.pos + min (turn.moves.getD 0) a.length.toNat⟩

theorem writeAt_error (h : s.mem.read a.buffer a.length.toNat = .error e) : writeAt turn a s = some (.error e, s) := by
  unfold writeAt
  rw [bind_of_error (readGuest_error h)]

theorem writeAt_ends {r : Except EmuError Unit} (hFile : s.files a.handle = some g) (hData : s.mem.read a.buffer a.length.toNat = .ok data)
    (hNote : writeIosb a.iosbPtr STATUS_SUCCESS (BitVec.ofNat 64 (min (turn.moves.getD 0) a.length.toNat)) s.mem = some (r, mem')) :
    writeAt turn a s = some (r.map fun _ => STATUS_SUCCESS, (writeLeft s turn a g data).withMem mem') := by
  have hLength : data.length = a.length.toNat := VirtualMemory.read_length hData
  have hWrite : writeFileHandle turn a.handle data s = some (.ok (some (min (turn.moves.getD 0) a.length.toNat)), writeLeft s turn a g data) := by
    unfold writeFileHandle
    rw [hFile]
    unfold HostFile.write writeLeft
    rw [hLength]
  have hBlock : onMem (writeIosb a.iosbPtr STATUS_SUCCESS (BitVec.ofNat 64 (min (turn.moves.getD 0) a.length.toNat))) (writeLeft s turn a g data) =
      some (r, (writeLeft s turn a g data).withMem mem') := onMem_run hNote
  unfold writeAt
  rw [bind_of_ok (readGuest_ok hData), bind_of_ok hWrite]
  dsimp only [Option.getD_some]
  cases r with
  | ok _ =>
    rw [bind_of_ok hBlock]
    rfl
  | error e =>
    rw [bind_of_error hBlock]
    rfl

/-! ## Exactly when a call is clean -/

theorem answers_failed {r : Except EmuError U32} (h : r ≠ .ok STATUS_SUCCESS) : Answers q s r s' ↔ s'.files = s.files :=
  ⟨fun hAnswers => hAnswers.failure h, fun hSame => ⟨fun hDone => absurd hDone h, fun _ => hSame⟩⟩

theorem answers_done (hArgs : callArgs q.frame s = some (.ok a, s)) (hStd : isStdHandle a.handle = false) (hFile : s.files a.handle = some f)
    (hDest : destination q.kind s.mem a.offsetPtr = .ok dest) : Answers q s (.ok STATUS_SUCCESS) s' ↔ Done q.kind q.turn a f dest s s' := by
  constructor
  · intro h
    obtain ⟨a', hArgs', hOr⟩ := h.success rfl
    cases hArgs.symm.trans hArgs'
    rcases hOr with ⟨hNot, -⟩ | ⟨f', dest', hFile', hDest', hDone⟩
    · rw [hStd] at hNot
      cases hNot
    · cases hFile.symm.trans hFile'
      cases hDest.symm.trans hDest'
      exact hDone
  · exact fun hDone => ⟨fun _ => ⟨a, hArgs, .inr ⟨f, dest, hFile, hDest, hDone⟩⟩, fun hNot => absurd rfl hNot⟩

theorem readLeft_files (s : FileSys) (turn : HostTurn) (a : Args) (f g : HostFile) (dest : Option SeekFrom) :
    (readLeft (s.setFile a.handle (f.moved turn dest)) turn a g).files = (s.setFile a.handle ⟨g.bytes, g.pos + (g.ahead turn a.length.toNat).length⟩).files := by
  unfold readLeft
  rw [setFile_setFile]

theorem writeLeft_files (s : FileSys) (turn : HostTurn) (a : Args) (f g : HostFile) (dest : Option SeekFrom) (data : List U8) :
    (writeLeft (s.setFile a.handle (f.moved turn dest)) turn a g data).files =
      (s.setFile a.handle ⟨HostFile.put g.bytes g.pos (data.take (min (turn.moves.getD 0) a.length.toNat)),
        g.pos + min (turn.moves.getD 0) a.length.toNat⟩).files := by
  unfold writeLeft
  rw [setFile_setFile]

theorem take_ahead (f : HostFile) (turn : HostTurn) (len : Nat) : (f.bytes.drop f.pos).take (f.ahead turn len).length = f.ahead turn len :=
  (List.prefix_iff_eq_take.mp (List.take_prefix _ _)).symm

theorem readAt_iff (hArgs : callArgs q.frame s = some (.ok a, s)) (hStd : isStdHandle a.handle = false) (hFile : s.files a.handle = some f)
    (hDest : destination q.kind s.mem a.offsetPtr = .ok dest) (hKind : q.kind = .read) :
    Ends (readAt q.turn a) (s.setFile a.handle (f.moved q.turn dest)) (Answers q s) ↔ Clean .read q.turn a f dest s.mem := by
  have hHere : (s.setFile a.handle (f.moved q.turn dest)).files a.handle = some (f.moved q.turn dest) := files_setFile ..
  have hBytes := moved_bytes f q.turn dest
  by_cases hWell : ((f.moved q.turn dest).ahead q.turn a.length.toNat ≠ [] ∨ a.length = 0) ∧ Takes a ((f.moved q.turn dest).ahead q.turn a.length.toNat) s.mem
  · obtain ⟨hSome, mid, mem', hWrite, hNote⟩ := hWell
    rw [ends_of_run (readAt_done hHere hSome hWrite hNote), answers_done hArgs hStd hFile hDest, hKind]
    have hLeft := readLeft_files s q.turn a f (f.moved q.turn dest) dest
    constructor
    · rintro ⟨-, hFiles, -⟩
      refine ⟨fun _ => ?_, fun hNot => absurd ⟨hSome, mid, mem', hWrite, hNote⟩ hNot⟩
      have hHandle := congrFun (hLeft.symm.trans hFiles) a.handle
      rw [files_setFile, Function.update_self] at hHandle
      exact Nat.add_right_cancel (congrArg HostFile.pos (Option.some.inj hHandle))
    · rintro ⟨hPos, -⟩
      have hStated := hPos ⟨hSome, mid, mem', hWrite, hNote⟩
      have hTake : (f.bytes.drop (f.stated dest)).take (count .read q.turn a f dest) = (f.moved q.turn dest).ahead q.turn a.length.toNat := by
        rw [← hStated, ← hBytes]
        exact take_ahead ..
      refine ⟨congrArg List.length hTake, ?_, mid, ?_, hNote⟩
      · rw [← hStated, ← hBytes]
        exact hLeft
      · rw [hTake]
        exact hWrite
  · obtain ⟨r, s', hRun, hFails, hFiles⟩ := readAt_fails (s := s.setFile a.handle (f.moved q.turn dest)) hHere hWell
    rw [ends_of_run hRun, answers_failed hFails, hFiles, readLeft_files, files_set_iff hFile]
    constructor
    · intro hSame
      exact ⟨fun hNot => absurd hNot hWell, fun _ => congrArg HostFile.pos hSame⟩
    · rintro ⟨-, hPos⟩
      rw [hPos hWell, hBytes]

theorem writeAt_iff (hArgs : callArgs q.frame s = some (.ok a, s)) (hStd : isStdHandle a.handle = false) (hFile : s.files a.handle = some f)
    (hDest : destination q.kind s.mem a.offsetPtr = .ok dest) (hKind : q.kind = .write) :
    Ends (writeAt q.turn a) (s.setFile a.handle (f.moved q.turn dest)) (Answers q s) ↔ Clean .write q.turn a f dest s.mem := by
  have hHere : (s.setFile a.handle (f.moved q.turn dest)).files a.handle = some (f.moved q.turn dest) := files_setFile ..
  have hBytes := moved_bytes f q.turn dest
  cases hData : s.mem.read a.buffer a.length.toNat with
  | error e =>
    rw [ends_of_run (writeAt_error (s := s.setFile a.handle (f.moved q.turn dest)) hData)]
    refine ((answers_failed (not_success e)).trans (files_set_iff hFile _)).trans ?_
    constructor
    · intro hSame
      exact ⟨fun _ hOk => (not_both hOk hData).elim, fun _ _ => congrArg HostFile.pos hSame⟩
    · rintro ⟨-, hPos⟩
      exact HostFile.ext hBytes (hPos e hData)
  | ok data =>
    have hLeft := writeLeft_files s q.turn a f (f.moved q.turn dest) dest data
    obtain ⟨r, mem', hNote⟩ := writeIosb_ends a.iosbPtr STATUS_SUCCESS (BitVec.ofNat 64 (min (q.turn.moves.getD 0) a.length.toNat)) s.mem
    have hRun := writeAt_ends (s := s.setFile a.handle (f.moved q.turn dest)) hHere hData hNote
    cases r with
    | ok _ =>
      rw [ends_of_run hRun]
      refine (answers_done hArgs hStd hFile hDest).trans ?_
      rw [hKind]
      constructor
      · rintro ⟨hAll, data', hData', hFiles, -⟩
        refine ⟨fun d hd => ⟨fun _ => ⟨?_, hAll⟩, fun hNot => absurd ⟨mem', hNote⟩ hNot⟩, fun e he => (not_both hData he).elim⟩
        have hHandle := congrFun (hLeft.symm.trans hFiles) a.handle
        rw [files_setFile, Function.update_self] at hHandle
        exact Nat.add_right_cancel (congrArg HostFile.pos (Option.some.inj hHandle))
      · rintro ⟨hPos, -⟩
        obtain ⟨hStated, hAll⟩ := (hPos data hData).1 ⟨mem', hNote⟩
        have hLength : data.length = a.length.toNat := VirtualMemory.read_length hData
        refine ⟨hAll, data, ?_, ?_, hNote⟩
        · rw [show count .write q.turn a f dest = a.length.toNat from hAll]
          exact hData
        · refine hLeft.trans ?_
          rw [hAll, List.take_of_length_le hLength.le, hBytes, hStated, show count .write q.turn a f dest = a.length.toNat from hAll]
          rfl
    | error e =>
      rw [ends_of_run hRun]
      have hNot : ¬∃ mem', Reports a.iosbPtr (min (q.turn.moves.getD 0) a.length.toNat) s.mem mem' := by
        rintro ⟨mem₂, hOk⟩
        cases hNote.symm.trans hOk
      refine (answers_failed (not_success e)).trans ?_
      change (writeLeft _ _ _ _ _).files = _ ↔ _
      rw [hLeft, files_set_iff hFile]
      constructor
      · intro hSame
        refine ⟨fun d hd => ⟨fun hOk => absurd hOk hNot, fun _ => ?_⟩, fun e he => (not_both hData he).elim⟩
        cases hData.symm.trans hd
        exact ⟨congrArg HostFile.pos hSame, by rw [← hBytes]; exact (congrArg HostFile.bytes hSame).trans hBytes.symm⟩
      · rintro ⟨hPos, -⟩
        obtain ⟨hEnd, hPut⟩ := (hPos data hData).2 hNot
        rw [hEnd, hBytes, hPut]

theorem emit_files (s : FileSys) (isErr : Bool) (bytes : List U8) : (s.emit isErr bytes).files = s.files := by
  unfold FileSys.emit
  split <;> rfl

theorem emit_mem (s : FileSys) (isErr : Bool) (bytes : List U8) : (s.emit isErr bytes).mem = s.mem := by
  unfold FileSys.emit
  split <;> rfl

theorem answers_std (hArgs : callArgs q.frame s = some (.ok a, s)) (hStd : isStdHandle a.handle = true) : Ends q.run s (Answers q s) := by
  unfold Request.run ntReadFile ntWriteFile
  cases hKind : q.kind with
  | read =>
    dsimp only
    rw [ends_ok hArgs, ends_ok rfl, if_pos hStd]
    obtain ⟨r, mem', hNote⟩ := writeIosb_ends a.iosbPtr STATUS_END_OF_FILE 0 s.mem
    cases r with
    | ok _ =>
      rw [ends_ok (onMem_run hNote), ends_pure, answers_failed (by decide)]
      rfl
    | error e =>
      rw [ends_error (onMem_run hNote), answers_failed (not_success e)]
      rfl
  | write =>
    dsimp only
    rw [ends_ok hArgs, ends_ok rfl, if_pos hStd]
    cases hData : s.mem.read a.buffer a.length.toNat with
    | error e => rw [ends_error (readGuest_error hData), answers_failed (not_success e)]
    | ok data =>
      have hEmit : Fallible.modify (fun s : FileSys => s.emit (a.handle == HANDLE_STDERR) data) s =
        some ((.ok () : Except EmuError Unit), s.emit (a.handle == HANDLE_STDERR) data) := rfl
      rw [ends_ok (readGuest_ok hData), ends_ok hEmit]
      obtain ⟨r, mem', hNote⟩ := writeIosb_ends a.iosbPtr STATUS_SUCCESS a.length s.mem
      have hBlock : onMem (writeIosb a.iosbPtr STATUS_SUCCESS a.length) (s.emit (a.handle == HANDLE_STDERR) data) =
          some (r, (s.emit (a.handle == HANDLE_STDERR) data).withMem mem') := onMem_run (by rw [emit_mem]; exact hNote)
      cases r with
      | ok _ =>
        rw [ends_ok hBlock, ends_pure]
        refine ⟨fun _ => ⟨a, hArgs, .inl ⟨hStd, data, hData, emit_files .., rfl, rfl, ?_⟩⟩, fun hNot => absurd rfl hNot⟩
        unfold Reports
        rw [BitVec.ofNat_toNat, BitVec.setWidth_eq]
        exact hNote
      | error e =>
        rw [ends_error hBlock, answers_failed (not_success e)]
        exact emit_files ..

theorem answers_iff (q : Request) (s : FileSys) : Ends q.run s (Answers q s) ↔ q.Clean s := by
  obtain ⟨r, hArgs⟩ := reads_callArgs q.frame s
  cases r with
  | error e =>
    rw [ends_of_run (run_error hArgs)]
    refine iff_of_true ((answers_failed (not_success e)).mpr rfl) fun a f dest hOk => ?_
    cases hArgs.symm.trans hOk
  | ok a =>
    cases hStd : isStdHandle a.handle with
    | true =>
      refine iff_of_true (answers_std hArgs hStd) fun a' f dest hOk hNot => ?_
      cases hArgs.symm.trans hOk
      rw [hStd] at hNot
      cases hNot
    | false =>
      cases hFile : s.files a.handle with
      | none =>
        have hOther : (Except.ok STATUS_INVALID_HANDLE : Except EmuError U32) ≠ .ok STATUS_SUCCESS := by decide
        rw [ends_of_run (run_none hArgs hStd hFile)]
        refine iff_of_true ((answers_failed hOther).mpr rfl) fun a' f dest hOk _ hSome => ?_
        cases hArgs.symm.trans hOk
        rw [hFile] at hSome
        cases hSome
      | some f =>
        have hRun : Ends q.run s (Answers q s) ↔
            Ends (seekTo q.turn q.kind.target a.handle a.offsetPtr >>= fun _ => q.kind.transfer q.turn a) s (Answers q s) := by
          unfold Ends
          rw [run_file hArgs hStd hFile]
        rw [hRun]
        cases hDest : destination q.kind s.mem a.offsetPtr with
        | error e =>
          rw [ends_error (seekTo_error hDest)]
          refine iff_of_true ((answers_failed (not_success e)).mpr rfl) fun a' f' dest hOk _ _ hSome => ?_
          cases hArgs.symm.trans hOk
          exact (not_both hSome hDest).elim
        | ok dest =>
          have hClean : q.Clean s ↔ FileIo.Clean q.kind q.turn a f dest s.mem := by
            constructor
            · exact fun h => h a f dest hArgs hStd hFile hDest
            · intro h a' f' dest' hArgs' _ hFile' hDest'
              cases hArgs.symm.trans hArgs'
              cases hFile.symm.trans hFile'
              cases hDest.symm.trans hDest'
              exact h
          rw [ends_ok (seekTo_ok hFile hDest), hClean]
          cases hKind : q.kind with
          | read => exact readAt_iff hArgs hStd hFile hDest hKind
          | write => exact writeAt_iff hArgs hStd hFile hDest hKind

/-! ## Every run -/

/-- Each of the calls does what it is to do; the guest may change its memory before each. -/
def EachAnswered : FileSys → List (Request × VirtualMemory) → Prop
  | _, [] => True
  | s, (q, mem) :: rest => Ends q.run (s.withMem mem) fun r s' => Answers q (s.withMem mem) r s' ∧ EachAnswered s' rest

def EachClean : FileSys → List (Request × VirtualMemory) → Prop
  | _, [] => True
  | s, (q, mem) :: rest => q.Clean (s.withMem mem) ∧ ∀ r s', q.run (s.withMem mem) = some (r, s') → EachClean s' rest

/-- A run of calls on any handles. -/
theorem answered_iff_clean (s : FileSys) (calls : List (Request × VirtualMemory)) : EachAnswered s calls ↔ EachClean s calls := by
  induction calls generalizing s with
  | nil => exact Iff.rfl
  | cons call rest ih =>
    obtain ⟨q, mem⟩ := call
    constructor
    · rintro ⟨p, hRun, hAnswers, hRest⟩
      refine ⟨(answers_iff q _).mp ⟨p, hRun, hAnswers⟩, fun r s' hAgain => ?_⟩
      cases hRun.symm.trans hAgain
      exact (ih _).mp hRest
    · rintro ⟨hClean, hRest⟩
      obtain ⟨p, hRun, hAnswers⟩ := (answers_iff q _).mpr hClean
      exact ⟨p, hRun, hAnswers, (ih _).mpr (hRest p.1 p.2 hRun)⟩

/-! ## A write that the host refuses -/

def refusedStart : FileSys where
  mem := (do
    let mem ← VirtualMemory.new.map true ⟨"stack", 0x1000, 0x1000, Perm.RW⟩
    let mem ← mem.writeUint 0x1028 8 0x1100
    let mem ← mem.writeUint 0x1030 8 0x1200
    mem.writeUint 0x1038 8 3).toOption.getD .new
  files := fun handle => if handle = 0x100 then some ⟨[], 0⟩ else none
  stdoutBuf := []
  stderrBuf := []

def refusedWrite : Request := ⟨.write, ⟨true, none⟩, ⟨0x100, 0, 0, 0, 0x1000⟩⟩

/-- The call succeeds, and the file is empty. -/
theorem answered_misses :
    ((refusedWrite.run refusedStart).map fun p => (p.1.toOption, (p.2.files 0x100).map (·.bytes))) = some (some STATUS_SUCCESS, some []) ∧
      ¬EachAnswered refusedStart [(refusedWrite, refusedStart.mem)] := by
  have hEnd : ((refusedWrite.run refusedStart).map fun p => (p.1.toOption, (p.2.files 0x100).map (·.bytes))) =
      some (some STATUS_SUCCESS, some []) := by decide
  have hArgs : ((callArgs refusedWrite.frame refusedStart).map fun p => p.1.toOption.map fun a => (a.handle, a.length)) =
      some (some (0x100, 3)) := by decide
  refine ⟨hEnd, ?_⟩
  rintro ⟨⟨r, s'⟩, hRun, hAnswers, -⟩
  rw [show refusedStart.withMem refusedStart.mem = refusedStart from rfl] at hRun hAnswers
  rw [hRun] at hEnd
  cases r with
  | error e => cases hEnd
  | ok status =>
    obtain rfl : status = STATUS_SUCCESS := Option.some.inj (Prod.mk.inj (Option.some.inj hEnd)).1
    obtain ⟨a, hOk, hDone⟩ := hAnswers.success rfl
    rw [hOk] at hArgs
    have hPair := Prod.mk.inj (Option.some.inj (Option.some.inj hArgs))
    rcases hDone with ⟨hStd, -⟩ | ⟨f, dest, -, -, hAll, -⟩
    · rw [hPair.1] at hStd
      cases hStd
    · rw [hPair.2, show count .write refusedWrite.turn a f dest = 0 from Nat.zero_min _] at hAll
      exact absurd hAll (by decide)

end FileIo

end Exemu.Os
