import Exemu.Library.Wildcard
import Exemu.Memory.Packed
import Exemu.Os.Registry

/-! # Listing a directory

`NtQueryDirectoryFile` hands out one entry of a directory per call, from a listing made by the
first call on the handle.
-/
namespace Exemu.Os

open Path (Text)
open Stamp

namespace File

def FILE_ATTRIBUTE_DIRECTORY : U32 := 0x10
def FILE_ATTRIBUTE_NORMAL : U32 := 0x80
def STATUS_SUCCESS : U32 := 0
def STATUS_NO_MORE_FILES : U32 := 0x80000006
def STATUS_INVALID_PARAMETER : U32 := 0xC000000D
def STATUS_INVALID_HANDLE : U32 := 0xC0000008
def STATUS_BUFFER_TOO_SMALL : U32 := 0xC0000023
def STATUS_INVALID_INFO_CLASS : U32 := 0xC0000003

end File

structure FindEntry where
  name : Text
  isDir : Bool
  size : U64
  ctime : U64
  atime : U64
  mtime : U64
  deriving DecidableEq

structure FindState where
  entries : List FindEntry
  pos : Nat
  wide : Bool
  deriving DecidableEq

structure DirInfoClass where
  cls : U32
  nameOff : U64
  deriving DecidableEq

def FILE_BOTH_DIRECTORY_INFORMATION : DirInfoClass := ⟨3, 0x5E⟩
def FILE_ID_EXTD_BOTH_DIRECTORY_INFORMATION : DirInfoClass := ⟨0x3F, 0x72⟩

def DIR_INFO_CLASSES : List DirInfoClass := [FILE_BOTH_DIRECTORY_INFORMATION, FILE_ID_EXTD_BOTH_DIRECTORY_INFORMATION]

/-! ## Patterns -/

def globCi : Text → Text → Bool
  | [], n => n.isEmpty
  | pc :: p, n =>
    if pc = '*' then (List.range (n.length + 1)).any fun i => globCi p (n.drop i)
    else if pc = '?' then !n.isEmpty && globCi p (n.drop 1)
    else n.head? == some pc && globCi p (n.drop 1)

def globMatches (pattern name : Text) : Bool :=
  let effectivePat := if pattern = "*.*".toList then "*".toList else pattern
  globCi (toAsciiLowercase effectivePat) (toAsciiLowercase name)

/-! ## The listing -/

structure HostMetadata where
  isDir : Bool
  len : U64
  created : U64
  accessed : U64
  modified : U64

structure HostEntry where
  fileName : Text
  metadata : Option HostMetadata

def FindEntry.of (de : HostEntry) : FindEntry :=
  match de.metadata with
  | some m => ⟨de.fileName, m.isDir, m.len, m.created, m.accessed, m.modified⟩
  | none => ⟨de.fileName, false, 0, 0, 0, 0⟩

def FindEntry.key (e : FindEntry) : Text := toAsciiLowercase e.name

/-- `collect_dir_entries`, of what the host lists for the directory. -/
def collectDirEntries (listing : List HostEntry) (pattern : Text) : List FindEntry :=
  ((listing.filter fun de => globMatches pattern de.fileName).map FindEntry.of).mergeSort fun a b => decide (a.key ≤ b.key)

/-! ## The call -/

def writeIosb (ptr : U64) (status : U32) (information : U64) : List Store :=
  if ptr = 0 then [] else [.u32 ptr status, .u32 (ptr + 4) 0, .u64 (ptr + 8) information]

def writeDirInformation (ptr : U64) (cls : DirInfoClass) (entry : FindEntry) : List Store :=
  let nameUnits := encodeUtf16 entry.name
  let attrs := if entry.isDir then File.FILE_ATTRIBUTE_DIRECTORY else File.FILE_ATTRIBUTE_NORMAL
  [⟨ptr, List.replicate cls.nameOff.toNat 0⟩, .u32 ptr 0, .u64 (ptr + 0x08) entry.ctime, .u64 (ptr + 0x10) entry.atime,
      .u64 (ptr + 0x18) entry.mtime, .u64 (ptr + 0x20) entry.mtime, .u64 (ptr + 0x28) entry.size,
      .u64 (ptr + 0x30) entry.size, .u32 (ptr + 0x38) attrs, .u32 (ptr + 0x3C) (BitVec.ofNat 32 (nameUnits.length * 2))] ++
    nameUnits.mapIdx fun i u => .u16 (ptr + cls.nameOff + BitVec.ofNat 64 (i * 2)) u

structure DirFiles where
  files : U64 → Bool
  /-- the guest's path of an open directory -/
  fileDirs : U64 → Option Text
  findHandles : U64 → Option FindState

/-- A call, with what the host lists for a guest's path, and the memory it writes to. -/
structure DirQuery where
  handle : U64
  iosb : U64
  info : U64
  length : U32
  classId : U32
  /-- none if there is no pattern to be read -/
  pattern : Option Text
  restart : Bool
  listing : Text → List HostEntry
  mem : VirtualMemory

inductive DirReply where
  /-- a status, and nothing written -/
  | plain (status : U32)
  /-- a status, written to the status block only -/
  | noted (status : U32)
  | entry (e : FindEntry) (cls : DirInfoClass)
  deriving DecidableEq

namespace DirQuery

def infoClass (q : DirQuery) : Option DirInfoClass := DIR_INFO_CLASSES.find? fun c => c.cls == q.classId

def effectivePattern (q : DirQuery) : Text :=
  let pattern := q.pattern.getD "*".toList
  if pattern = [] then "*".toList else pattern

/-- `class.name_off + name_bytes` -/
def need (cls : DirInfoClass) (entry : FindEntry) : Nat := cls.nameOff.toNat + (encodeUtf16 entry.name).length * 2

def stores (q : DirQuery) : DirReply → List Store
  | .plain _ => []
  | .noted status => writeIosb q.iosb status 0
  | .entry e cls => writeDirInformation q.info cls e ++ writeIosb q.iosb File.STATUS_SUCCESS (BitVec.ofNat 64 (need cls e))

end DirQuery

namespace DirFiles

def scans (self : DirFiles) (q : DirQuery) : Bool := q.restart || (self.findHandles q.handle).isNone

def opened (self : DirFiles) (q : DirQuery) : Option FindState :=
  if self.scans q then
    (self.fileDirs q.handle).map fun dir => ⟨collectDirEntries (q.listing dir) q.effectivePattern, 0, true⟩
  else self.findHandles q.handle

def set (self : DirFiles) (handle : U64) (st : FindState) : DirFiles :=
  { self with findHandles := fun h => if h = handle then some st else self.findHandles h }

def ntQueryDirectoryFile (self : DirFiles) (q : DirQuery) : DirFiles × DirReply :=
  if !self.files q.handle then (self, .plain File.STATUS_INVALID_HANDLE)
  else
    match q.infoClass with
    | none => (self, .noted File.STATUS_INVALID_INFO_CLASS)
    | some cls =>
      match self.opened q with
      | none => (self, .plain File.STATUS_INVALID_PARAMETER)
      | some st =>
        match st.entries[st.pos]? with
        | none => (self.set q.handle st, .noted File.STATUS_NO_MORE_FILES)
        | some e =>
          (self.set q.handle { st with pos := st.pos + 1 },
            if q.length.toNat < DirQuery.need cls e then .noted File.STATUS_BUFFER_TOO_SMALL else .entry e cls)

end DirFiles

/-! ## Patterns and what they stand for -/

def wildcard (pc : Char) : Wildcard.Token Char :=
  if pc = '*' then .many else if pc = '?' then .one else .letter pc

theorem globCi_eq (p n : Text) : globCi p n = Wildcard.glob (p.map wildcard) n := by
  induction p generalizing n with
  | nil => rfl
  | cons pc p ih =>
    have hRest : ∀ n, globCi p n = Wildcard.glob (p.map wildcard) n := ih
    rw [List.map_cons, globCi]
    unfold wildcard
    split
    · simp only [Wildcard.glob, hRest]
      rfl
    · split
      · rw [hRest]
        rfl
      · rw [hRest]
        rfl

/-- The name matches the pattern; `*.*` is as good as `*`. -/
def Matching (pattern name : Text) : Prop :=
  Wildcard.Matches ((toAsciiLowercase (if pattern = "*.*".toList then "*".toList else pattern)).map wildcard) (toAsciiLowercase name)

theorem globMatches_iff (pattern name : Text) : globMatches pattern name = true ↔ Matching pattern name := by
  unfold globMatches Matching
  rw [globCi_eq, Wildcard.glob_iff]

/-- A listing: the matching entries, each once, by name; names alike but for case are in the host's order. -/
structure Listing (listing : List HostEntry) (pattern : Text) (entries : List FindEntry) : Prop where
  matching : ∃ des : List HostEntry, des.Sublist listing ∧ (∀ de ∈ listing, de ∈ des ↔ Matching pattern de.fileName) ∧
    entries.Perm (des.map FindEntry.of)
  sorted : entries.Pairwise fun a b => a.key ≤ b.key
  stable : ∀ a b, [a, b].Sublist ((listing.filter fun de => globMatches pattern de.fileName).map FindEntry.of) →
    a.key ≤ b.key → [a, b].Sublist entries

theorem listing_collectDirEntries (listing : List HostEntry) (pattern : Text) :
    Listing listing pattern (collectDirEntries listing pattern) where
  matching := by
    refine ⟨listing.filter fun de => globMatches pattern de.fileName, List.filter_sublist, fun de hde => ?_,
      List.mergeSort_perm ..⟩
    rw [List.mem_filter, globMatches_iff]
    exact and_iff_right hde
  sorted := by
    have hSorted := @List.pairwise_mergeSort FindEntry (fun a b => decide (a.key ≤ b.key))
      (fun a b c hab hbc => by simpa using (of_decide_eq_true hab).trans (of_decide_eq_true hbc))
      (fun a b => by simpa using le_total a.key b.key)
      ((listing.filter fun de => globMatches pattern de.fileName).map FindEntry.of)
    exact hSorted.imp fun h => of_decide_eq_true h
  stable a b hOrder hKeys :=
    List.pair_sublist_mergeSort (fun a b c hab hbc => by simpa using (of_decide_eq_true hab).trans (of_decide_eq_true hbc))
      (fun a b => by simpa using le_total a.key b.key) (decide_eq_true hKeys) hOrder

/-! ## Runs -/

/-- The listing of a handle's directory, and the entries handed out of it since it was made. -/
structure Reading where
  scan : List FindEntry
  given : List FindEntry

namespace DirFiles

def next (self : DirFiles) (q : DirQuery) : DirFiles := (self.ntQueryDirectoryFile q).1

def listed (self : DirFiles) (q : DirQuery) : Option (List FindEntry) :=
  if self.files q.handle && q.infoClass.isSome && self.scans q then (self.opened q).map FindState.entries else none

def gave (self : DirFiles) (q : DirQuery) : Option FindEntry :=
  match (self.ntQueryDirectoryFile q).2 with
  | .entry e cls => if (q.mem.writes (q.stores (.entry e cls))).isOk then some e else none
  | _ => none

def due (self : DirFiles) (q : DirQuery) : Option (FindEntry × DirInfoClass) :=
  if self.files q.handle then
    q.infoClass.bind fun cls => (self.opened q).bind fun st => st.entries[st.pos]?.map fun e => (e, cls)
  else none

def Served (self : DirFiles) (q : DirQuery) : Prop :=
  ∀ e cls, self.due q = some (e, cls) →
    DirQuery.need cls e ≤ q.length.toNat ∧ (q.mem.writes (q.stores (.entry e cls))).isOk = true

end DirFiles

namespace Reading

def after (h : U64) (s : DirFiles) (r : Reading) (q : DirQuery) : Reading :=
  if q.handle = h then
    let r := ((s.listed q).map fun es => (⟨es, []⟩ : Reading)).getD r
    { r with given := r.given ++ (s.gave q).toList }
  else r

/-- Every call, on whatever handle, with what it does to the reading of `h`. -/
def step (h : U64) (x : DirFiles × Reading) (q : DirQuery) : DirFiles × Reading := (x.1.next q, x.2.after h x.1 q)

def Whole (h : U64) (x : DirFiles × Reading) : Prop :=
  match x.1.findHandles h with
  | none => x.2.given = []
  | some st => st.entries = x.2.scan ∧ x.2.given ++ st.entries.drop st.pos = x.2.scan

/-- A call on `h` that leaves the reading whole; that, too small, consumes nothing; and that says that there are no more
entries only after all of them. -/
structure Right (h : U64) (x : DirFiles × Reading) (q : DirQuery) : Prop where
  whole : Whole h (step h x q)
  listing : q.handle = h → ∀ es, x.1.listed q = some es →
    ∃ dir, x.1.fileDirs h = some dir ∧ Listing (q.listing dir) q.effectivePattern es
  ordered : (step h x q).2.given <+: (step h x q).2.scan
  tooSmall : q.handle = h → (x.1.ntQueryDirectoryFile q).2 = .noted File.STATUS_BUFFER_TOO_SMALL →
    (x.1.next q).findHandles h = x.1.opened q
  done : q.handle = h → (x.1.ntQueryDirectoryFile q).2 = .noted File.STATUS_NO_MORE_FILES →
    (step h x q).2.given = (step h x q).2.scan

end Reading

/-! ## One call -/

namespace DirFiles

variable {s : DirFiles} {q : DirQuery}

structure Reaches (s : DirFiles) (q : DirQuery) (cls : DirInfoClass) (st : FindState) : Prop where
  file : s.files q.handle = true
  infoClass : q.infoClass = some cls
  opened : s.opened q = some st

theorem query_cases (s : DirFiles) (q : DirQuery) :
    (s.next q = s ∧ s.listed q = none ∧ s.due q = none ∧ ((s.ntQueryDirectoryFile q).2 = .plain File.STATUS_INVALID_HANDLE ∨
        (s.ntQueryDirectoryFile q).2 = .noted File.STATUS_INVALID_INFO_CLASS ∨
        (s.ntQueryDirectoryFile q).2 = .plain File.STATUS_INVALID_PARAMETER)) ∨
      ∃ cls st, Reaches s q cls st := by
  cases hFile : s.files q.handle with
  | false =>
    refine .inl ⟨?_, ?_, ?_, .inl ?_⟩ <;>
      simp only [next, listed, due, ntQueryDirectoryFile, hFile, Bool.not_false, if_true, Bool.false_and, Bool.false_eq_true, if_false]
  | true =>
    cases hClass : q.infoClass with
    | none =>
      refine .inl ⟨?_, ?_, ?_, .inr (.inl ?_)⟩ <;>
        simp [next, listed, due, ntQueryDirectoryFile, hFile, hClass]
    | some cls =>
      cases hOpen : s.opened q with
      | none =>
        refine .inl ⟨?_, ?_, ?_, .inr (.inr ?_)⟩ <;>
          simp [next, listed, due, ntQueryDirectoryFile, hFile, hClass, hOpen]
      | some st => exact .inr ⟨cls, st, hFile, hClass, hOpen⟩

variable {cls : DirInfoClass} {st : FindState}

theorem Reaches.query (h : Reaches s q cls st) : s.ntQueryDirectoryFile q =
    match st.entries[st.pos]? with
    | none => (s.set q.handle st, .noted File.STATUS_NO_MORE_FILES)
    | some e => (s.set q.handle { st with pos := st.pos + 1 },
        if q.length.toNat < DirQuery.need cls e then .noted File.STATUS_BUFFER_TOO_SMALL else .entry e cls) := by
  unfold ntQueryDirectoryFile
  rw [h.file, h.infoClass, h.opened]
  rfl

theorem Reaches.due (h : Reaches s q cls st) : s.due q = st.entries[st.pos]?.map fun e => (e, cls) := by
  unfold DirFiles.due
  rw [h.file, h.infoClass, h.opened]
  rfl

theorem Reaches.listed (h : Reaches s q cls st) : s.listed q = if s.scans q then some st.entries else none := by
  unfold DirFiles.listed
  rw [h.file, h.infoClass, h.opened]
  rfl

end DirFiles

namespace Reading

variable {h : U64} {x : DirFiles × Reading} {q : DirQuery} {cls : DirInfoClass} {st : FindState}

theorem whole_iff (hGet : x.1.findHandles h = some st) :
    Whole h x ↔ st.entries = x.2.scan ∧ x.2.given ++ st.entries.drop st.pos = x.2.scan := by
  unfold Whole
  rw [hGet]

theorem findHandles_set (s : DirFiles) (h : U64) (st : FindState) : (s.set h st).findHandles h = some st := if_pos rfl

def before (h : U64) (x : DirFiles × Reading) (q : DirQuery) : Reading :=
  ((x.1.listed q).map fun es => (⟨es, []⟩ : Reading)).getD x.2

theorem whole_before (hWhole : Whole q.handle x) (hReaches : x.1.Reaches q cls st) :
    (before q.handle x q).scan = st.entries ∧ (before q.handle x q).given ++ st.entries.drop st.pos = st.entries := by
  have hOpen := hReaches.opened
  unfold before
  rw [hReaches.listed]
  unfold DirFiles.opened at hOpen
  split
  · rename_i hScans
    rw [if_pos hScans] at hOpen
    obtain ⟨dir, -, rfl⟩ := Option.map_eq_some_iff.mp hOpen
    exact ⟨rfl, rfl⟩
  · rename_i hHeld
    rw [if_neg hHeld] at hOpen
    obtain ⟨hScan, hGiven⟩ := (whole_iff hOpen).mp hWhole
    rw [← hScan] at hGiven
    exact ⟨hScan.symm, hGiven⟩

theorem step_self (x : DirFiles × Reading) (q : DirQuery) :
    step q.handle x q = (x.1.next q, { before q.handle x q with
      given := (before q.handle x q).given ++ (x.1.gave q).toList }) := by
  unfold step after before
  rw [if_pos rfl]

theorem Whole.ordered (hWhole : Whole h x) : x.2.given <+: x.2.scan := by
  unfold Whole at hWhole
  split at hWhole
  · rw [hWhole]
    exact List.nil_prefix
  · rw [← hWhole.2]
    exact List.prefix_append _ _

theorem listing_of_reaches (hReaches : x.1.Reaches q cls st) {es : List FindEntry} (hListed : x.1.listed q = some es) :
    ∃ dir, x.1.fileDirs q.handle = some dir ∧ Listing (q.listing dir) q.effectivePattern es := by
  have hOpen := hReaches.opened
  rw [hReaches.listed] at hListed
  unfold DirFiles.opened at hOpen
  split at hListed
  · rename_i hScans
    rw [if_pos hScans] at hOpen
    obtain ⟨dir, hDir, rfl⟩ := Option.map_eq_some_iff.mp hOpen
    cases hListed
    exact ⟨dir, hDir, listing_collectDirEntries _ _⟩
  · cases hListed

theorem gave_of_reply {s : DirFiles} {status : U32} (hReply : (s.ntQueryDirectoryFile q).2 = .noted status) : s.gave q = none := by
  unfold DirFiles.gave
  rw [hReply]

theorem right_at_end (hWhole : Whole q.handle x) (hReaches : x.1.Reaches q cls st) (hEnd : st.entries[st.pos]? = none) :
    Right q.handle x q := by
  obtain ⟨hScan, hGiven⟩ := whole_before hWhole hReaches
  have hQuery := hReaches.query
  rw [hEnd] at hQuery
  have hReply : (x.1.ntQueryDirectoryFile q).2 = .noted File.STATUS_NO_MORE_FILES := by rw [hQuery]
  have hNext : x.1.next q = x.1.set q.handle st := congrArg Prod.fst hQuery
  have hAll : (before q.handle x q).given = st.entries := by
    rwa [List.drop_eq_nil_of_le (List.getElem?_eq_none_iff.mp hEnd), List.append_nil] at hGiven
  have hStep : step q.handle x q = (x.1.set q.handle st, before q.handle x q) := by
    rw [step_self, hNext, gave_of_reply hReply, Option.toList_none, List.append_nil]
  have hKept : Whole q.handle (step q.handle x q) := by
    rw [hStep, whole_iff (findHandles_set ..)]
    exact ⟨hScan.symm, hGiven.trans hScan.symm⟩
  refine ⟨hKept, fun _ es => listing_of_reaches hReaches, hKept.ordered, fun _ hSmall => ?_, fun _ _ => ?_⟩
  · rw [hReply] at hSmall
    exact absurd hSmall (by decide)
  · rw [hStep, hAll, hScan]

variable {e : FindEntry} (length : U32)

theorem not_right_of_lost (hReaches : x.1.Reaches q cls st) (hWhole : Whole q.handle x) (hDue : st.entries[st.pos]? = some e)
    (hGave : x.1.gave q = none) : ¬Right q.handle x q := by
  intro hRight
  obtain ⟨hScan, hGiven⟩ := whole_before hWhole hReaches
  have hQuery := hReaches.query
  rw [hDue] at hQuery
  have hNext : x.1.next q = x.1.set q.handle { st with pos := st.pos + 1 } := congrArg Prod.fst hQuery
  have hKept := hRight.whole
  rw [step_self, hNext, hGave, Option.toList_none, List.append_nil, whole_iff (findHandles_set ..)] at hKept
  obtain ⟨hLess, hSome⟩ := List.getElem?_eq_some_iff.mp hDue
  have hLeft : (before q.handle x q).given ++ st.entries.drop (st.pos + 1) = st.entries := hKept.2.trans hScan
  have hRest := hLeft.trans hGiven.symm
  rw [List.drop_eq_getElem_cons hLess] at hRest
  have hLength := congrArg List.length (List.append_cancel_left hRest)
  rw [List.length_cons] at hLength
  omega

theorem right_of_given (hWhole : Whole q.handle x) (hReaches : x.1.Reaches q cls st) (hDue : st.entries[st.pos]? = some e)
    (hReply : (x.1.ntQueryDirectoryFile q).2 = .entry e cls) (hGave : x.1.gave q = some e) : Right q.handle x q := by
  obtain ⟨hScan, hGiven⟩ := whole_before hWhole hReaches
  have hQuery := hReaches.query
  rw [hDue] at hQuery
  have hNext : x.1.next q = x.1.set q.handle { st with pos := st.pos + 1 } := congrArg Prod.fst hQuery
  have hKept : Whole q.handle (step q.handle x q) := by
    rw [step_self, hNext, hGave, whole_iff (findHandles_set ..)]
    refine ⟨hScan.symm, ?_⟩
    obtain ⟨hLess, rfl⟩ := List.getElem?_eq_some_iff.mp hDue
    rw [List.drop_eq_getElem_cons hLess] at hGiven
    dsimp only
    rw [List.append_assoc, hScan]
    exact hGiven
  refine ⟨hKept, fun _ es => listing_of_reaches hReaches, hKept.ordered, fun _ hSmall => ?_, fun _ hDone => ?_⟩
  · rw [hReply] at hSmall
    cases hSmall
  · rw [hReply] at hDone
    cases hDone

theorem right_of_same (hWhole : Whole h x) (hState : (x.1.next q).findHandles h = x.1.findHandles h) (hReading : (step h x q).2 = x.2)
    (hListed : q.handle = h → x.1.listed q = none) (hSmall : q.handle = h →
      (x.1.ntQueryDirectoryFile q).2 ≠ .noted File.STATUS_BUFFER_TOO_SMALL)
    (hDone : q.handle = h → (x.1.ntQueryDirectoryFile q).2 ≠ .noted File.STATUS_NO_MORE_FILES) : Right h x q := by
  have hKept : Whole h (step h x q) := by
    have hSame : (step h x q).1.findHandles h = x.1.findHandles h := hState
    unfold Whole at hWhole ⊢
    rwa [hSame, hReading]
  refine ⟨hKept, fun hHandle es hSome => ?_, hKept.ordered, fun hHandle hReply => absurd hReply (hSmall hHandle),
    fun hHandle hReply => absurd hReply (hDone hHandle)⟩
  rw [hListed hHandle] at hSome
  cases hSome

theorem right_iff_served (hWhole : Whole h x) (q : DirQuery) : Right h x q ↔ (q.handle = h → x.1.Served q) := by
  rcases Decidable.em (q.handle = h) with rfl | hOther
  · rcases x.1.query_cases q with ⟨hNext, hListed, hDue, hReply⟩ | ⟨cls, st, hReaches⟩
    · refine iff_of_true (right_of_same hWhole (by rw [hNext]) ?_ (fun _ => hListed) (fun _ hSmall => ?_) fun _ hDone => ?_)
        fun _ e cls hSome => ?_
      · have hGave : x.1.gave q = none := by
          unfold DirFiles.gave
          rcases hReply with hReply | hReply | hReply <;> rw [hReply]
        rw [step_self, hGave]
        unfold before
        rw [hListed, Option.toList_none, List.append_nil]
        rfl
      · rw [hSmall] at hReply
        exact absurd hReply (by decide)
      · rw [hDone] at hReply
        exact absurd hReply (by decide)
      · rw [hDue] at hSome
        cases hSome
    · cases hAt : st.entries[st.pos]? with
      | none =>
        refine iff_of_true (right_at_end hWhole hReaches hAt) fun _ e cls hSome => ?_
        rw [hReaches.due, hAt] at hSome
        cases hSome
      | some e =>
        have hDue : x.1.due q = some (e, cls) := by rw [hReaches.due, hAt, Option.map_some]
        have hQuery := hReaches.query
        rw [hAt] at hQuery
        rcases Nat.lt_or_ge q.length.toNat (DirQuery.need cls e) with hSmall | hRoom
        · have hReply : (x.1.ntQueryDirectoryFile q).2 = .noted File.STATUS_BUFFER_TOO_SMALL := by
            rw [hQuery]
            exact if_pos hSmall
          refine iff_of_false (not_right_of_lost hReaches hWhole hAt (gave_of_reply hReply)) fun hServed => ?_
          exact Nat.not_le.mpr hSmall (hServed rfl e cls hDue).1
        · have hReply : (x.1.ntQueryDirectoryFile q).2 = .entry e cls := by
            rw [hQuery]
            exact if_neg (Nat.not_lt.mpr hRoom)
          cases hTaken : (q.mem.writes (q.stores (.entry e cls))).isOk with
          | true =>
            refine iff_of_true (right_of_given hWhole hReaches hAt hReply ?_) fun _ e' cls' hSome => ?_
            · unfold DirFiles.gave
              rw [hReply]
              exact if_pos hTaken
            · rw [hDue] at hSome
              cases hSome
              exact ⟨hRoom, hTaken⟩
          | false =>
            refine iff_of_false (not_right_of_lost hReaches hWhole hAt ?_) fun hServed => ?_
            · unfold DirFiles.gave
              rw [hReply]
              exact if_neg (by rw [hTaken]; decide)
            · rw [(hServed rfl e cls hDue).2] at hTaken
              cases hTaken
  · have hReading : (step h x q).2 = x.2 := if_neg hOther
    refine iff_of_true (right_of_same hWhole ?_ hReading (fun hHandle => absurd hHandle hOther)
      (fun hHandle => absurd hHandle hOther) fun hHandle => absurd hHandle hOther) fun hHandle => absurd hHandle hOther
    rcases x.1.query_cases q with ⟨hNext, -⟩ | ⟨cls, st, hReaches⟩
    · rw [hNext]
    · unfold DirFiles.next
      rw [hReaches.query]
      have hElse : ∀ st, (x.1.set q.handle st).findHandles h = x.1.findHandles h := fun st => if_neg (Ne.symm hOther)
      split <;> exact hElse _

def unread : DirFiles :=
  { files := fun h => h == 4, fileDirs := fun h => if h = 4 then some "C:\\d".toList else none, findHandles := fun _ => none }

def twoFiles : List FindEntry := [⟨"a.txt".toList, false, 0, 0, 0, 0⟩, ⟨"bb.txt".toList, false, 0, 0, 0, 0⟩]

def askTwo (length : U32) : DirQuery :=
  { handle := 4, iosb := 0, info := 0x10000, length := length, classId := 3, pattern := none, restart := false
    listing := fun _ => [⟨"a.txt".toList, none⟩, ⟨"bb.txt".toList, none⟩]
    mem := ((VirtualMemory.new.map true ⟨"buffer", 0x10000, 0x1000, Perm.RW⟩).toOption).getD .new }

theorem reaches_unread : unread.Reaches (askTwo length) FILE_BOTH_DIRECTORY_INFORMATION ⟨twoFiles, 0, true⟩ where
  file := rfl
  infoClass := rfl
  opened := by
    have hSorted : collectDirEntries [⟨"a.txt".toList, none⟩, ⟨"bb.txt".toList, none⟩] "*".toList = twoFiles :=
      List.mergeSort_of_pairwise (by decide)
    exact congrArg (fun es => some (⟨es, 0, true⟩ : FindState)) hSorted

theorem next_unread : unread.next (askTwo length) = unread.set 4 ⟨twoFiles, 1, true⟩ :=
  congrArg Prod.fst (reaches_unread length).query

theorem taken_askTwo (he : e ∈ twoFiles) :
    ((askTwo length).mem.writes ((askTwo length).stores (.entry e FILE_BOTH_DIRECTORY_INFORMATION))).isOk = true := by
  revert e
  change ∀ e ∈ twoFiles, ((askTwo 0).mem.writes ((askTwo 0).stores (.entry e FILE_BOTH_DIRECTORY_INFORMATION))).isOk = true
  decide

end Reading

end Exemu.Os
