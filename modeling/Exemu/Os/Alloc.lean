import Exemu.Os.Ranges
import Exemu.Os.Search

/-! # Allocations over a run

Memory is allocated, freed, mapped as views and taken for threads in any order.
-/
namespace Exemu.Os

open VirtualMemory Stamp

def MEM_DECOMMIT : U32 := 0x4000
def MEM_RELEASE : U32 := 0x8000

def zeroBitsCeiling (zeroBits : U64) : U64 :=
  if zeroBits = 0 then BitVec.allOnes 64
  else if zeroBits < 32 then (1 <<< (64 - zeroBits.toNat)) - 1
  else zeroBits

namespace Sys

def vmDecommit (s : Sys) (addr : U64) : Sys :=
  match allocAt s.os (addr &&& ~~~(PAGE - 1)) with
  | some i => { s with os := { s.os with vmAllocs := s.os.vmAllocs.modify i fun a => { a with committed := false } } }
  | none => s

def vmFreeRegion (s : Sys) (addr : U64) (freeType : U32) : Sys :=
  if freeType &&& MEM_RELEASE ≠ 0 then s.vmRelease addr
  else if freeType &&& MEM_DECOMMIT ≠ 0 then s.vmDecommit addr
  else s

end Sys

structure AllocRequest where
  granted : U64 → Bool
  addrReq : U64
  sizeReq : U64
  committed : Bool
  maxAddr : U64

inductive VmOp where
  | VirtualAlloc (granted : U64 → Bool) (addr size : U64) (committed : Bool)
  | NtAllocateVirtualMemory (granted : U64 → Bool) (addr size : U64) (committed : Bool) (zeroBits : U64)
  | VirtualFree (addr : U64) (freeType : U32)
  | mapView (granted : U64 → Bool) (reqBase want : U64) (low : Bool)
  | unmapView (base : U64)
  | spawnThread (granted : U64 → Bool) (reqStack entry param : U64) (suspended : Bool)
  | spawnWow64Thread (granted : U64 → Bool) (reqStack entry param : U64) (suspended : Bool)
  | endThread (i : Nat) (code : U32)
  | mapAnywhere (granted : U64 → Bool) (size : U64) (perm : Perm) (name : String)
  | mapAnywhereLow (granted : U64 → Bool) (size : U64) (perm : Perm) (name : String)

def VmOp.request : VmOp → Option AllocRequest
  | .VirtualAlloc granted addr size committed => some ⟨granted, addr, size, committed, BitVec.allOnes 64⟩
  | .NtAllocateVirtualMemory granted addr size committed zeroBits =>
    some ⟨granted, addr, size, committed, zeroBitsCeiling zeroBits⟩
  | _ => none

namespace AllocRequest

def pages (r : AllocRequest) : U64 := alignUp (maxU64 r.sizeReq 1) PAGE
def wholePages (r : AllocRequest) : Nat := (max r.sizeReq.toNat 1 + 0xFFF) / 0x1000 * 0x1000

def base (r : AllocRequest) : U64 := r.addrReq &&& ~~~(PAGE - 1)

end AllocRequest

def viewPages (want : U64) : U64 := alignUp (maxU64 want 1) PAGE

def stackPages (reqStack : U64) : U64 := alignUp (maxU64 reqStack THREAD_STACK_SIZE) PAGE

namespace Sys

def serve (s : Sys) (r : AllocRequest) : Sys × U64 :=
  s.vmAllocRegionBelow r.granted r.addrReq r.sizeReq r.committed r.maxAddr

def vmStep (s : Sys) : VmOp → Sys
  | .VirtualAlloc granted addr size committed => (s.serve ⟨granted, addr, size, committed, BitVec.allOnes 64⟩).1
  | .NtAllocateVirtualMemory granted addr size committed zeroBits =>
    (s.serve ⟨granted, addr, size, committed, zeroBitsCeiling zeroBits⟩).1
  | .VirtualFree addr freeType => s.vmFreeRegion addr freeType
  | .mapView granted reqBase want low => (s.mapView granted reqBase (viewPages want) low).1
  | .unmapView base => if s.os.vmAllocs.any fun a => a.base == base then s.vmFreeRegion base MEM_RELEASE else s
  | .spawnThread granted reqStack entry param suspended => (s.spawnThread granted reqStack entry param suspended).1
  | .spawnWow64Thread granted reqStack entry param suspended =>
    (s.spawnWow64Thread granted reqStack entry param suspended).1
  | .endThread i code => s.endThread i code
  | .mapAnywhere granted size perm name => (s.mapAnywhere granted size perm name).1
  | .mapAnywhereLow granted size perm name => (s.mapAnywhereLow granted size perm name).1

def vmRun (s : Sys) (ops : List VmOp) : Sys := ops.foldl vmStep s

end Sys

def VmOp.searches (s : Sys) : VmOp → List (Sys × U64 × U64)
  | .VirtualAlloc _ addr size _ =>
    if addr = 0 then [(s, alignUp (maxU64 size 1) PAGE, BitVec.allOnes 64)] else []
  | .NtAllocateVirtualMemory _ addr size _ zeroBits =>
    if addr = 0 then [(s, alignUp (maxU64 size 1) PAGE, zeroBitsCeiling zeroBits)] else []
  | .mapView _ reqBase want low =>
    if reqBase ≠ 0 then [] else [(s, viewPages want, if low then 0xFFFFFFFF else BitVec.allOnes 64)]
  | .spawnThread granted reqStack _ _ _ =>
    (s, stackPages reqStack, BitVec.allOnes 64) ::
      match s.mapAnywhere granted (stackPages reqStack) Perm.RWX "thread-stack" with
      | (_, none) => []
      | (s, some _) => [(s, THREAD_TEB_SIZE, BitVec.allOnes 64)]
  | .spawnWow64Thread granted reqStack _ _ _ =>
    match s.os.wow64Threading with
    | none => []
    | some _ =>
      (s, stackPages reqStack, 0xFFFFFFFF) ::
        match s.mapAnywhereLow granted (stackPages reqStack) Perm.RW "wow64-thread-stack32" with
        | (_, none) => []
        | (s, some _) =>
          (s, THREAD_STACK_SIZE, BitVec.allOnes 64) ::
            match s.mapAnywhere granted THREAD_STACK_SIZE Perm.RWX "wow64-thread-stack64" with
            | (_, none) => []
            | (s, some _) => [(s, WOW64_THREAD_BLOCK, 0xFFFFFFFF)]
  | .mapAnywhere _ size _ _ => [(s, size, BitVec.allOnes 64)]
  | .mapAnywhereLow _ size _ _ => [(s, size, 0xFFFFFFFF)]
  | _ => []

def WinOs.allocEnds (os : WinOs) : List Addition := os.vmAllocs.map fun a => (a.base, a.size)

def VmOp.additions (s : Sys) : VmOp → List Addition
  | .VirtualAlloc _ addr size _ =>
    (maxU64 size 1, PAGE) ::
      if addr = 0 then [] else (addr &&& ~~~(PAGE - 1), alignUp (maxU64 size 1) PAGE) :: s.os.allocEnds
  | .NtAllocateVirtualMemory _ addr size _ _ =>
    (maxU64 size 1, PAGE) ::
      if addr = 0 then [] else (addr &&& ~~~(PAGE - 1), alignUp (maxU64 size 1) PAGE) :: s.os.allocEnds
  | .VirtualFree .. => s.os.allocEnds
  | .mapView _ _ want _ => [(maxU64 want 1, PAGE)]
  | .unmapView _ => s.os.allocEnds
  | .spawnThread _ reqStack _ _ _ => [(maxU64 reqStack THREAD_STACK_SIZE, PAGE)]
  | .spawnWow64Thread _ reqStack _ _ _ => [(maxU64 reqStack THREAD_STACK_SIZE, PAGE)]
  | _ => []

/-! ## What is to hold -/

/-- A reported allocation is mapped to its last page, and lies below the ceiling. -/
structure Served (mem : VirtualMemory) (r : AllocRequest) (b : U64) : Prop where
  mapped : Covered mem b.toNat r.wholePages
  under : b.toNat + r.wholePages ≤ r.maxAddr.toNat + 1

structure Recorded (os : WinOs) : Prop where
  pages : ∀ a ∈ os.vmAllocs, a.base.toNat % 0x1000 = 0 ∧ a.size.toNat % 0x1000 = 0
  apart : os.vmAllocs.Pairwise fun a b =>
    a.base.toNat + a.size.toNat ≤ b.base.toNat ∨ b.base.toNat + b.size.toNat ≤ a.base.toNat

/-- A step keeps its word: what it reports is there, and nothing it adds up wraps. -/
structure StepServes (s : Sys) (op : VmOp) : Prop where
  served : ∀ r, op.request = some r → (s.serve r).2 ≠ 0 → Served (s.vmStep op).mem r (s.serve r).2
  searches : ∀ q ∈ op.searches s, ∀ p ∈ q.1.vmFindFreeSums q.2.1 q.2.2, p.Fits
  additions : ∀ p ∈ op.additions s, p.Fits

/-! ## The condition -/

/-- The range that is asked for ends below `2 ^ 64`; if its base can be told from a failure, it ends below
the ceiling too, and is mapped throughout, or free and granted by the host. -/
structure Takeable (s : Sys) (r : AllocRequest) : Prop where
  inside : r.base.toNat + r.wholePages < 2 ^ 64
  under : r.base ≠ 0 → r.base.toNat + r.wholePages ≤ r.maxAddr.toNat + 1
  there : r.base ≠ 0 → Covered s.mem r.base.toNat r.wholePages ∨
    Unmapped s.mem r.base.toNat r.wholePages ∧ r.wholePages < 2 ^ 63 ∧ r.granted r.base = true

structure Roomy (s : Sys) (op : VmOp) : Prop where
  searchable : ∀ q ∈ op.searches s, q.2.1 ≠ 0 ∧ q.1.Searchable q.2.1 q.2.2
  takeable : ∀ r, op.request = some r → max r.sizeReq.toNat 1 + 0x1000 < 2 ^ 64 ∧ (r.addrReq ≠ 0 → Takeable s r)
  view : ∀ granted reqBase want low, op = .mapView granted reqBase want low →
    max want.toNat 1 + 0x1000 < 2 ^ 64 ∧
      (reqBase ≠ 0 → (reqBase &&& ~~~(GRAN - 1)).toNat + (viewPages want).toNat < 2 ^ 64)
  stack : ∀ granted reqStack entry param suspended,
    op = .spawnThread granted reqStack entry param suspended ∨
      op = .spawnWow64Thread granted reqStack entry param suspended →
    max reqStack.toNat THREAD_STACK_SIZE.toNat + 0x1000 < 2 ^ 64
  lives : ∀ i code t, op = .endThread i code → s.os.threads[i]? = some t → t.state ≠ .Terminated

/-- Less than that: no range goes round the end of the address space, and nobody is ended twice. -/
structure Straight (s : Sys) (op : VmOp) : Prop where
  request : ∀ r, op.request = some r → r.pages ≠ 0 ∧
    (r.addrReq = 0 → ∀ b, (s.vmFindFreeBelow r.pages r.maxAddr).2 = some b → b.toNat + r.pages.toNat < 2 ^ 64) ∧
      (r.addrReq ≠ 0 → r.base.toNat + r.pages.toNat < 2 ^ 64)
  view : ∀ granted reqBase want low, op = .mapView granted reqBase want low → viewPages want ≠ 0 ∧
    (reqBase = 0 → ∀ b, (s.vmFindFreeBelow (viewPages want) (if low then 0xFFFFFFFF else BitVec.allOnes 64)).2 = some b →
      b.toNat + (viewPages want).toNat < 2 ^ 64) ∧
      (reqBase ≠ 0 → (reqBase &&& ~~~(GRAN - 1)).toNat + (viewPages want).toNat < 2 ^ 64)
  stack : ∀ granted reqStack entry param suspended,
    op = .spawnThread granted reqStack entry param suspended ∨ op = .spawnWow64Thread granted reqStack entry param suspended →
      stackPages reqStack ≠ 0
  lives : ∀ i code t, op = .endThread i code → s.os.threads[i]? = some t → t.state ≠ .Terminated

/-! ## The outcomes of a request -/

section Requests

variable {s : Sys} {r : AllocRequest}

inductive Outcomes (s : Sys) (r : AllocRequest) : Sys × U64 → Prop
  | none (s' : Sys) (hAllocs : s'.os.vmAllocs = s.os.vmAllocs) : Outcomes s r (s', 0)
  | found (next base : U64) (bytes : Nat → U8) (mem : VirtualMemory) (hAddr : r.addrReq = 0)
      (hFind : (s.vmFindFreeBelow r.pages r.maxAddr).2 = some base)
      (hInsert : s.mem.insert ⟨"valloc", base, r.pages, Perm.RWX⟩ bytes = .ok mem) :
      Outcomes s r (({ s with os := { s.os with vallocNext := next }, mem := mem } : Sys).vmInsert
        ⟨base, r.pages, r.committed⟩, base)
  | within (i : Nat) (hAddr : r.addrReq ≠ 0) (hAt : Sys.allocAt s.os r.base = some i) :
      Outcomes s r ({ s with os := { s.os with
        vmAllocs := s.os.vmAllocs.modify i fun a => { a with committed := a.committed || r.committed } } }, r.base)
  | fresh (bytes : Nat → U8) (mem : VirtualMemory) (hAddr : r.addrReq ≠ 0)
      (hInsert : s.mem.insert ⟨"valloc", r.base, r.pages, Perm.RWX⟩ bytes = .ok mem) :
      Outcomes s r (({ s with mem := mem } : Sys).vmInsert ⟨r.base, r.pages, r.committed⟩, r.base)
  | occupied (rb rsize : U64) (perm : Perm) (hAddr : r.addrReq ≠ 0)
      (hNext : s.mem.nextRegion r.base = some (rb, rsize, perm)) (hUnder : ¬r.base + r.pages ≤ rb) :
      Outcomes s r (s, r.base)
  | unbacked (hAddr : r.addrReq ≠ 0) (hMap : (s.tryMap r.granted r.base r.pages Perm.RWX "valloc").2 = false) :
      Outcomes s r (s, r.base)

theorem serve_outcomes (s : Sys) (r : AllocRequest) : Outcomes s r (s.serve r) := by
  unfold Sys.serve Sys.vmAllocRegionBelow
  dsimp only
  split
  · rename_i hAddr
    obtain ⟨next, hFst⟩ := s.vmFindFreeBelow_fst r.pages r.maxAddr
    have hPages : alignUp (maxU64 r.sizeReq 1) PAGE = r.pages := rfl
    rw [hPages]
    rcases Sys.mapFound_spec (s.vmFindFreeBelow r.pages r.maxAddr) r.granted r.pages Perm.RWX "valloc" with
      hMap | ⟨base, bytes, mem, hFind, hInsert, hMap⟩
    · rw [hMap, hFst]
      exact .none _ rfl
    · rw [hMap, hFst]
      rw [hFst] at hInsert
      exact .found next base bytes mem hAddr hFind hInsert
  · rename_i hAddr
    have hPages : alignUp (maxU64 r.sizeReq 1) PAGE = r.pages := rfl
    have hBase : r.addrReq &&& ~~~(PAGE - 1) = r.base := rfl
    rw [hPages, hBase]
    cases hAt : Sys.allocAt s.os r.base with
    | some i => exact .within i hAddr hAt
    | none =>
      dsimp only
      split
      · rcases s.tryMap_spec r.granted r.base r.pages Perm.RWX "valloc" with ⟨hNo, hSame⟩ | ⟨bytes, mem, hInsert, hMap⟩
        · have hMap : s.tryMap r.granted r.base r.pages Perm.RWX "valloc" = (s, false) := Prod.ext hSame hNo
          rw [hMap]
          exact .unbacked hAddr hNo
        · rw [hMap]
          exact .fresh bytes mem hAddr hInsert
      · rename_i hBusy
        cases hNext : s.mem.nextRegion r.base with
        | none =>
          rw [hNext] at hBusy
          exact absurd rfl hBusy
        | some q =>
          obtain ⟨rb, rsize, perm⟩ := q
          rw [hNext, Option.all_some, decide_eq_true_eq] at hBusy
          exact .occupied rb rsize perm hAddr hNext hBusy

theorem pages_toNat {v w : U64} (h : max v.toNat w.toNat + 0x1000 < 2 ^ 64) :
    (alignUp (maxU64 v w) PAGE).toNat = (max v.toNat w.toNat + 0xFFF) / 0x1000 * 0x1000 := by
  rw [alignUp_page (by rw [toNat_maxU64]; exact h), toNat_maxU64]

theorem pages_ne_zero {v w : U64} (hSome : 0 < w.toNat) (h : max v.toNat w.toNat + 0x1000 < 2 ^ 64) :
    alignUp (maxU64 v w) PAGE ≠ 0 := by
  intro hZero
  have hPages := pages_toNat h
  rw [hZero] at hPages
  have hNone : (0 : U64).toNat = 0 := rfl
  omega

theorem request_pages (h : max r.sizeReq.toNat 1 + 0x1000 < 2 ^ 64) : r.pages.toNat = r.wholePages := pages_toNat h

theorem wholePages_pos (r : AllocRequest) : 0 < r.wholePages := by
  unfold AllocRequest.wholePages
  omega

theorem base_mod (r : AllocRequest) : r.base.toNat % 0x1000 = 0 := by
  unfold AllocRequest.base
  rw [toNat_and_not_mask (k := 12) _ page_toNat]
  exact Nat.mul_mod_left _ _

end Requests

/-! ## The invariant -/

def PageAligned (a : VmAlloc) : Prop :=
  a.base.toNat % 0x1000 = 0 ∧ a.size.toNat % 0x1000 = 0 ∧ a.base.toNat + a.size.toNat < 2 ^ 64

structure AllocsKept (s : Sys) : Prop where
  holding : Holding s
  aligned : ∀ a ∈ s.os.vmAllocs, PageAligned a

section Invariant

variable {s : Sys}

theorem AllocsKept.recorded (h : AllocsKept s) : Recorded s.os where
  pages a ha := ⟨(h.aligned a ha).1, (h.aligned a ha).2.1⟩
  apart := by
    have hPairs := List.pairwise_map.mp (h.holding.apart.sublist (List.sublist_append_right _ _))
    refine hPairs.imp_of_mem fun {a b} ha hb hApart => ?_
    have hA := (h.aligned a ha).2.2
    have hB := (h.aligned b hb).2.2
    unfold Range.Apart Range.endAddr at hApart
    dsimp only at hApart
    omega

theorem AllocsKept.ends (h : AllocsKept s) {p : Addition} (hp : p ∈ s.os.allocEnds) : p.Fits := by
  obtain ⟨a, ha, rfl⟩ := List.mem_map.mp hp
  exact (h.aligned a ha).2.2

theorem mem_vmInsert (s : Sys) (a b : VmAlloc) : b ∈ (s.vmInsert a).os.vmAllocs ↔ b = a ∨ b ∈ s.os.vmAllocs := by
  unfold Sys.vmInsert
  dsimp only
  rw [List.mem_append, List.mem_cons, or_left_comm, ← List.mem_append, List.take_append_drop]

theorem inserted_aligned (h : ∀ a ∈ s.os.vmAllocs, PageAligned a) {a : VmAlloc} (ha : PageAligned a) :
    ∀ b ∈ (s.vmInsert a).os.vmAllocs, PageAligned b := by
  intro b hb
  rcases (mem_vmInsert s a b).mp hb with rfl | hb
  · exact ha
  · exact h b hb

theorem modified_aligned {as : List VmAlloc} (h : ∀ a ∈ as, PageAligned a) (i : Nat) (f : VmAlloc → VmAlloc)
    (hf : ∀ a, (f a).base = a.base ∧ (f a).size = a.size) : ∀ b ∈ as.modify i f, PageAligned b := by
  intro b hb
  obtain ⟨j, hj⟩ := List.mem_iff_getElem?.mp hb
  rw [List.getElem?_modify] at hj
  cases hGet : as[j]? with
  | none =>
    rw [hGet] at hj
    cases hj
  | some a =>
    have ha := h a (List.mem_of_getElem? hGet)
    rw [hGet] at hj
    change some (if i = j then f a else a) = some b at hj
    obtain rfl := Option.some.inj hj
    split
    · unfold PageAligned
      rw [(hf a).1, (hf a).2]
      exact ha
    · exact ha

theorem allocAt_mapped (h : AllocsKept s) {base : U64} {i : Nat} (hAt : Sys.allocAt s.os base = some i) :
    ∃ a ∈ s.os.vmAllocs, (a.base, a.size) ∈ s.mem.layout ∧ a.base.toNat ≤ base.toNat ∧
      base.toNat < a.base.toNat + a.size.toNat := by
  obtain ⟨hi, hHere, -⟩ := List.findIdx?_eq_some_iff_getElem.mp hAt
  rw [Bool.and_eq_true, decide_eq_true_eq, decide_eq_true_eq, BitVec.le_def, BitVec.lt_def] at hHere
  have ha := List.getElem_mem hi
  have hFits := (h.aligned _ ha).2.2
  rw [BitVec.toNat_add, Nat.mod_eq_of_lt hFits] at hHere
  refine ⟨_, ha, h.holding.mapped _ (List.mem_append_right _ (List.mem_map.mpr ⟨_, ha, rfl⟩)), hHere⟩

variable {b size : U64} {granted : U64 → Bool} {r : AllocRequest}

theorem covered_of_layout {mem : VirtualMemory} (h : (b, size) ∈ mem.layout) :
    Covered mem b.toNat size.toNat := fun _ hLow hHigh => ⟨_, h, hLow, hHigh⟩

theorem covered_inserted {mem mem' : VirtualMemory} {bytes : Nat → U8}
    (hInsert : mem.insert ⟨"valloc", b, size, Perm.RWX⟩ bytes = .ok mem') (hSize : size ≠ 0) :
    Covered mem' b.toNat size.toNat := covered_of_layout ((mem_layout_insert hInsert).mpr (.inr ⟨hSize, rfl⟩))

theorem tryMap_done (hUnmapped : Unmapped s.mem b.toNat size.toNat) (hEnd : b.toNat + size.toNat < 2 ^ 64)
    (hSize : size.toNat < 2 ^ 63) (hGranted : granted b = true) (perm : Perm) (name : String) :
    (s.tryMap granted b size perm name).2 = true := by
  have hZero : zeroed (granted b) size = .ok fun _ => 0 := by
    unfold zeroed
    rw [hGranted, if_pos (by simpa using hSize)]
  have hInsert : ∃ mem, s.mem.insert ⟨name, b, size, perm⟩ (fun _ => 0) = .ok mem := by
    unfold VirtualMemory.insert
    split
    · exact ⟨_, rfl⟩
    · rw [if_neg]
      · exact ⟨_, rfl⟩
      · rw [List.any_eq_true]
        rintro ⟨x, hx, hOverlap⟩
        rw [Bool.and_eq_true, decide_eq_true_eq, decide_eq_true_eq] at hOverlap
        have hApart := hUnmapped _ (List.mem_map.mpr ⟨x, hx, rfl⟩)
        unfold Region.endAddr at hOverlap
        unfold Range.endAddr at hApart
        dsimp only at hOverlap hApart
        omega
  obtain ⟨mem, hInsert⟩ := hInsert
  have hMap : s.mem.mapFixed (granted b) b size perm name = .ok mem := by
    unfold VirtualMemory.mapFixed VirtualMemory.map
    rw [hZero]
    exact hInsert
  unfold Sys.tryMap
  rw [hMap]

/-! ## A request -/

theorem serve_served (h : AllocsKept s) (hSize : max r.sizeReq.toNat 1 + 0x1000 < 2 ^ 64)
    (hSearch : r.addrReq = 0 → s.Searchable r.pages r.maxAddr) (hTake : r.addrReq ≠ 0 → Takeable s r)
    (hReports : (s.serve r).2 ≠ 0) : Served (s.serve r).1.mem r (s.serve r).2 := by
  have hPages := request_pages hSize
  have hSome : r.pages ≠ 0 := pages_ne_zero (w := 1) (by decide) hSize
  have hPos := wholePages_pos r
  have hOutcomes := serve_outcomes s r
  generalize s.serve r = result at hOutcomes hReports
  cases hOutcomes with
  | none s' hAllocs => exact absurd rfl hReports
  | found next base bytes mem hAddr hFind hInsert =>
    have hFound := vmFindFreeBelow_found hSome (hSearch hAddr)
    refine ⟨?_, ?_⟩
    · rw [← hPages]
      exact covered_inserted hInsert hSome
    · rw [← hPages]
      exact hFound.under base hFind
  | within i hAddr hAt =>
    have hTaken := hTake hAddr
    refine ⟨?_, hTaken.under hReports⟩
    rcases hTaken.there hReports with hCovered | ⟨hUnmapped, -, -⟩
    · exact hCovered
    · obtain ⟨a, ha, hLayout, hLow, hHigh⟩ := allocAt_mapped h hAt
      have hFits := (h.aligned a ha).2.2
      have hApart := hUnmapped _ hLayout
      unfold Range.endAddr at hApart
      dsimp only at hApart
      omega
  | fresh bytes mem hAddr hInsert =>
    refine ⟨?_, (hTake hAddr).under hReports⟩
    rw [← hPages]
    exact covered_inserted hInsert hSome
  | occupied rb rsize perm hAddr hNext hUnder =>
    have hTaken := hTake hAddr
    refine ⟨?_, hTaken.under hReports⟩
    rcases hTaken.there hReports with hCovered | ⟨hUnmapped, -, -⟩
    · exact hCovered
    · obtain ⟨hLayout, hAbove⟩ := nextRegion_some hNext
      have hInside := hTaken.inside
      have hEnd : (r.base + r.pages).toNat = r.base.toNat + r.wholePages := by
        rw [BitVec.toNat_add, hPages, Nat.mod_eq_of_lt hInside]
      rw [BitVec.le_def, hEnd] at hUnder
      have hApart := hUnmapped _ hLayout
      dsimp only at hApart
      omega
  | unbacked hAddr hMap =>
    have hTaken := hTake hAddr
    refine ⟨?_, hTaken.under hReports⟩
    rcases hTaken.there hReports with hCovered | ⟨hUnmapped, hSmall, hGranted⟩
    · exact hCovered
    · rw [← hPages] at hUnmapped hSmall
      have hInside := hTaken.inside
      rw [← hPages] at hInside
      rw [tryMap_done hUnmapped hInside hSmall hGranted Perm.RWX "valloc"] at hMap
      cases hMap

theorem serve_aligned (h : AllocsKept s)
    (hFound : r.addrReq = 0 → ∀ b, (s.vmFindFreeBelow r.pages r.maxAddr).2 = some b → b.toNat + r.pages.toNat < 2 ^ 64)
    (hAsked : r.addrReq ≠ 0 → r.base.toNat + r.pages.toNat < 2 ^ 64) : ∀ a ∈ (s.serve r).1.os.vmAllocs, PageAligned a := by
  have hMod : r.pages.toNat % 0x1000 = 0 := alignUp_page_mod _
  have hOutcomes := serve_outcomes s r
  generalize s.serve r = result at hOutcomes
  cases hOutcomes with
  | none s' hAllocs =>
    rw [hAllocs]
    exact h.aligned
  | found next base bytes mem hAddr hFind hInsert =>
    have hBase := vmFindFreeBelow_mod hFind
    exact inserted_aligned (s := { s with os := { s.os with vallocNext := next }, mem := mem }) h.aligned
      ⟨by dsimp only; omega, hMod, hFound hAddr base hFind⟩
  | within i hAddr hAt => exact modified_aligned h.aligned i _ fun _ => ⟨rfl, rfl⟩
  | fresh bytes mem hAddr hInsert => exact inserted_aligned (s := { s with mem := mem }) h.aligned ⟨base_mod r, hMod, hAsked hAddr⟩
  | occupied rb rsize perm hAddr hNext hUnder => exact h.aligned
  | unbacked hAddr hMap => exact h.aligned

theorem serve_kept (h : AllocsKept s) (hSome : r.pages ≠ 0)
    (hFound : r.addrReq = 0 → ∀ b, (s.vmFindFreeBelow r.pages r.maxAddr).2 = some b → b.toNat + r.pages.toNat < 2 ^ 64)
    (hAsked : r.addrReq ≠ 0 → r.base.toNat + r.pages.toNat < 2 ^ 64) : AllocsKept (s.serve r).1 where
  holding := vmAllocRegionBelow_holding h.holding hSome
  aligned := serve_aligned h hFound hAsked

/-! ## The other steps -/

theorem decommit_holdings (os : WinOs) (i : Nat) :
    ({ os with vmAllocs := os.vmAllocs.modify i fun a => { a with committed := false } } : WinOs).holdings =
      os.holdings := by
  unfold WinOs.holdings
  dsimp only
  congr 1
  apply List.ext_getElem?
  intro j
  rw [List.getElem?_map, List.getElem?_map, List.getElem?_modify]
  cases os.vmAllocs[j]? with
  | none => rfl
  | some a =>
    simp only [Option.map_some]
    split <;> rfl

theorem vmFreeRegion_kept (h : AllocsKept s) (addr : U64) (freeType : U32) : AllocsKept (s.vmFreeRegion addr freeType) := by
  unfold Sys.vmFreeRegion
  split
  · refine ⟨vmRelease_holding h.holding, ?_⟩
    unfold Sys.vmRelease
    dsimp only
    split
    · exact h.aligned
    · exact fun a ha => h.aligned a (List.mem_of_mem_eraseIdx ha)
  · split
    · unfold Sys.vmDecommit
      split
      · refine ⟨?_, modified_aligned h.aligned _ _ fun _ => ⟨rfl, rfl⟩⟩
        unfold Holding
        dsimp only
        rw [decommit_holdings]
        exact h.holding
      · exact h
    · exact h

theorem maps_allocs {r : Sys × Option U64} (h : Sys.Maps s size r) : r.1.os.vmAllocs = s.os.vmAllocs := by
  cases h <;> rfl

theorem maps_quiet {r : Sys × Option U64} (h : Sys.Maps s size r) : Quiet s r.1 := by
  cases h with
  | fails next => exact ⟨fun _ h => h, rfl⟩
  | maps next base region bytes mem hBase hSize hLast hInsert => exact .mapped hInsert rfl rfl

theorem mapped_kept (h : AllocsKept s) {r : Sys × Option U64} (hMaps : Sys.Maps s size r) : AllocsKept r.1 where
  holding := (maps_quiet hMaps).holding h.holding
  aligned := maps_allocs hMaps ▸ h.aligned

theorem mapFound_place {found : Sys × Option U64} {perm : Perm} {name : String}
    (h : (Sys.mapFound found granted size perm name).2 = some b) : found.2 = some b := by
  rcases Sys.mapFound_spec found granted size perm name with hMap | ⟨base, bytes, mem, hBase, -, hMap⟩
  · rw [hMap] at h
    cases h
  · rw [hMap] at h
    cases h
    exact hBase

theorem newThreadTeb_allocs (s : Sys) (granted : U64 → Bool) (tid : Nat) (stackBase stackTop : U64) :
    (s.newThreadTeb granted tid stackBase stackTop).1.os.vmAllocs = s.os.vmAllocs := by
  have hMap := maps_allocs (s.mapAnywhere_maps granted THREAD_TEB_SIZE Perm.RW "thread-teb")
  unfold Sys.newThreadTeb
  generalize s.mapAnywhere granted THREAD_TEB_SIZE Perm.RW "thread-teb" = mapped at hMap
  obtain ⟨s', _ | base⟩ := mapped
  · exact hMap
  · have hSeed := seed_quiet s' (seedTeb64 s'.os.cfg base tid s'.os.cfg.pebAddr stackTop stackBase)
    dsimp only
    split <;> (rename_i hDone; exact (congrArg (fun r => r.1.os.vmAllocs) hDone).symm.trans hMap)

theorem spawnThread_allocs (s : Sys) (granted : U64 → Bool) (reqStack entry param : U64) (suspended : Bool) :
    (s.spawnThread granted reqStack entry param suspended).1.os.vmAllocs = s.os.vmAllocs := by
  unfold Sys.spawnThread
  extract_lets stackSize
  have hStack := maps_allocs (s.mapAnywhere_maps granted stackSize Perm.RWX "thread-stack")
  generalize s.mapAnywhere granted stackSize Perm.RWX "thread-stack" = mapped at hStack ⊢
  obtain ⟨s₁, _ | stackBase⟩ := mapped
  · exact hStack
  · dsimp only
    have hTeb := newThreadTeb_allocs { s₁ with os := { s₁.os with nextTid := s₁.os.nextTid + 1 } } granted
      s₁.os.nextTid stackBase (stackBase + stackSize)
    generalize Sys.newThreadTeb { s₁ with os := { s₁.os with nextTid := s₁.os.nextTid + 1 } } granted
      s₁.os.nextTid stackBase (stackBase + stackSize) = teb at hTeb ⊢
    obtain ⟨s₂, _ | tebBase⟩ := teb
    · exact hTeb.trans hStack
    · dsimp only
      generalize Sys.initialState s₂.os tebBase (stackBase + stackSize) entry param = start
      obtain ⟨st, slots, pendingEntry⟩ := start
      have hSlots : (s₂.seed slots).1.os = s₂.os := rfl
      dsimp only
      generalize s₂.seed slots = seeded at hSlots ⊢
      obtain ⟨s₃, e | done⟩ := seeded
      · exact (congrArg WinOs.vmAllocs hSlots).trans (hTeb.trans hStack)
      · exact (congrArg WinOs.vmAllocs hSlots).trans (hTeb.trans hStack)

theorem seedWow64_allocs (s : Sys) (w : Wow64Threading) (tid : Nat) (stack32 stack32Top stack64 block entry param : U64) :
    (s.seedWow64 w tid stack32 stack32Top stack64 block entry param).1.os.vmAllocs = s.os.vmAllocs := by
  unfold Sys.seedWow64
  extract_lets teb32 area
  split
  · rename_i s₁ e hSeed
    exact (congrArg (fun r => r.1.os.vmAllocs) hSeed).symm
  · rename_i s₁ hSeed
    have hFirst : s₁.os.vmAllocs = s.os.vmAllocs := (congrArg (fun r => r.1.os.vmAllocs) hSeed).symm
    split <;> exact hFirst

theorem spawnWow64Thread_allocs (s : Sys) (granted : U64 → Bool) (reqStack entry param : U64) (suspended : Bool) :
    (s.spawnWow64Thread granted reqStack entry param suspended).1.os.vmAllocs = s.os.vmAllocs := by
  unfold Sys.spawnWow64Thread
  cases s.os.wow64Threading with
  | none => rfl
  | some w =>
    dsimp only
    generalize alignUp (maxU64 reqStack THREAD_STACK_SIZE) PAGE = size
    have hLow := maps_allocs (s.mapAnywhereLow_maps granted size Perm.RW "wow64-thread-stack32")
    generalize s.mapAnywhereLow granted size Perm.RW "wow64-thread-stack32" = low at hLow ⊢
    obtain ⟨s₁, _ | stack32⟩ := low
    · exact hLow
    · dsimp only
      have hHigh := maps_allocs (s₁.mapAnywhere_maps granted THREAD_STACK_SIZE Perm.RWX "wow64-thread-stack64")
      generalize s₁.mapAnywhere granted THREAD_STACK_SIZE Perm.RWX "wow64-thread-stack64" = high at hHigh ⊢
      obtain ⟨s₂, _ | stack64⟩ := high
      · exact hHigh.trans hLow
      · dsimp only
        have hBlock := maps_allocs (s₂.mapAnywhereLow_maps granted WOW64_THREAD_BLOCK Perm.RW "wow64-thread-teb")
        generalize s₂.mapAnywhereLow granted WOW64_THREAD_BLOCK Perm.RW "wow64-thread-teb" = blk at hBlock ⊢
        have hTwo := hBlock.trans (hHigh.trans hLow)
        obtain ⟨s₃, _ | block⟩ := blk
        · exact hTwo
        · dsimp only
          have hSeed := seedWow64_allocs { s₃ with os := { s₃.os with nextTid := s₃.os.nextTid + 1 } } w
            s₃.os.nextTid stack32 (stack32 + size) stack64 block entry param
          generalize Sys.seedWow64 { s₃ with os := { s₃.os with nextTid := s₃.os.nextTid + 1 } } w
            s₃.os.nextTid stack32 (stack32 + size) stack64 block entry param = seeded at hSeed ⊢
          obtain ⟨s₄, e | done⟩ := seeded <;> exact hSeed.trans hTwo

theorem mapView_aligned (h : AllocsKept s) {reqBase : U64} {low : Bool} (hMod : size.toNat % 0x1000 = 0)
    (hInside : reqBase = 0 → ∀ b, (s.vmFindFreeBelow size (if low then 0xFFFFFFFF else BitVec.allOnes 64)).2 = some b →
      b.toNat + size.toNat < 2 ^ 64) (hEnd : reqBase ≠ 0 → (reqBase &&& ~~~(GRAN - 1)).toNat + size.toNat < 2 ^ 64) :
    ∀ a ∈ (s.mapView granted reqBase size low).1.os.vmAllocs, PageAligned a := by
  unfold Sys.mapView
  extract_lets base placed
  suffices hPlaced : placed.1.os.vmAllocs = s.os.vmAllocs ∧
      ∀ b, placed.2 = some b → b.toNat % 0x1000 = 0 ∧ b.toNat + size.toNat < 2 ^ 64 by
    clear_value placed
    obtain ⟨s', _ | b⟩ := placed
    · exact hPlaced.1 ▸ h.aligned
    · obtain ⟨hAllocs, hPlace⟩ := hPlaced
      obtain ⟨hBase, hInside⟩ := hPlace b rfl
      have hOld : ∀ a ∈ s'.os.vmAllocs, PageAligned a := hAllocs ▸ h.aligned
      exact inserted_aligned hOld ⟨hBase, hMod, hInside⟩
  have hFound : reqBase = 0 → ∀ b, (s.vmFindFreeBelow size (if low then 0xFFFFFFFF else BitVec.allOnes 64)).2 = some b →
      b.toNat % 0x1000 = 0 ∧ b.toNat + size.toNat < 2 ^ 64 := by
    intro hReq b hb
    have hGran := vmFindFreeBelow_mod hb
    exact ⟨by omega, hInside hReq b hb⟩
  change (ite _ _ _ : Sys × Option U64).1.os.vmAllocs = _ ∧ ∀ b, (ite _ _ _ : Sys × Option U64).2 = some b → _
  split
  · rename_i hReq
    have hBase : base.toNat % 0x1000 = 0 := by
      change (reqBase &&& ~~~(GRAN - 1)).toNat % 0x1000 = 0
      rw [toNat_and_not_mask (k := 16) _ gran_toNat]
      omega
    rcases s.tryMap_spec granted base size Perm.RWX "section-view" with ⟨hNo, hSame⟩ | ⟨bytes, mem, hInsert, hMap⟩
    · have hMap : s.tryMap granted base size Perm.RWX "section-view" = (s, false) := Prod.ext hSame hNo
      rw [hMap]
      exact ⟨rfl, fun b hb => by cases hb⟩
    · rw [hMap]
      refine ⟨rfl, fun b hb => ?_⟩
      cases hb
      exact ⟨hBase, hEnd hReq⟩
  · rename_i hReq
    have hZero : reqBase = 0 := not_not.mp hReq
    split
    · rename_i hLow
      rw [hLow] at hFound
      exact ⟨maps_allocs (s.mapAnywhereLow_maps granted size Perm.RWX "section-view"),
        fun b hb => hFound hZero b (mapFound_place hb)⟩
    · rename_i hHigh
      rw [Bool.eq_false_iff.mpr hHigh] at hFound
      refine ⟨maps_allocs (s.mapAnywhere_maps granted size Perm.RWX "section-view"), fun b hb => hFound hZero b ?_⟩
      exact mapFound_place hb

theorem viewPages_ne_zero {want : U64} (h : max want.toNat 1 + 0x1000 < 2 ^ 64) : viewPages want ≠ 0 :=
  pages_ne_zero (w := 1) (by decide) h

theorem stackPages_ne_zero {reqStack : U64} (h : max reqStack.toNat THREAD_STACK_SIZE.toNat + 0x1000 < 2 ^ 64) :
    stackPages reqStack ≠ 0 := pages_ne_zero (by decide) h

/-! ## One step, and a run -/

variable {op : VmOp}

theorem roomy_request (hRoomy : Roomy s op) (hRequest : op.request = some r) : r.addrReq = 0 → s.Searchable r.pages r.maxAddr := by
  intro hAddr
  cases op with
  | VirtualAlloc granted addr size committed =>
    cases hRequest
    refine (hRoomy.searchable (s, alignUp (maxU64 size 1) PAGE, BitVec.allOnes 64) ?_).2
    rw [VmOp.searches, if_pos hAddr]
    exact List.mem_singleton_self _
  | NtAllocateVirtualMemory granted addr size committed zeroBits =>
    cases hRequest
    refine (hRoomy.searchable (s, alignUp (maxU64 size 1) PAGE, zeroBitsCeiling zeroBits) ?_).2
    rw [VmOp.searches, if_pos hAddr]
    exact List.mem_singleton_self _
  | _ => cases hRequest

theorem roomy_of_request (hRequest : op.request = some r) (hSearch : ∀ q ∈ op.searches s, q.2.1 ≠ 0 ∧ q.1.Searchable q.2.1 q.2.2)
    (hSize : max r.sizeReq.toNat 1 + 0x1000 < 2 ^ 64) (hTake : r.addrReq ≠ 0 → Takeable s r) : Roomy s op where
  searchable := hSearch
  takeable r' hr' := by
    obtain rfl := Option.some.inj (hRequest.symm.trans hr')
    exact ⟨hSize, hTake⟩
  view granted reqBase want low hOp := by
    subst hOp
    cases hRequest
  stack granted reqStack entry param suspended hOp := by
    rcases hOp with hOp | hOp <;> (subst hOp; cases hRequest)
  lives i code t hOp := by
    subst hOp
    cases hRequest

theorem vmStep_request (hRequest : op.request = some r) : s.vmStep op = (s.serve r).1 := by
  cases op with
  | VirtualAlloc granted addr size committed =>
    cases hRequest
    rfl
  | NtAllocateVirtualMemory granted addr size committed zeroBits =>
    cases hRequest
    rfl
  | _ => cases hRequest

theorem vmStep_straight (h : AllocsKept s) (hStraight : Straight s op) : AllocsKept (s.vmStep op) := by
  have hServe : ∀ r, op.request = some r → AllocsKept (s.serve r).1 := by
    intro r hRequest
    obtain ⟨hSome, hFound, hAsked⟩ := hStraight.request r hRequest
    exact serve_kept h hSome hFound hAsked
  cases op with
  | VirtualAlloc granted addr size committed => exact hServe _ rfl
  | NtAllocateVirtualMemory granted addr size committed zeroBits => exact hServe _ rfl
  | VirtualFree addr freeType => exact vmFreeRegion_kept h addr freeType
  | mapView granted reqBase want low =>
    obtain ⟨hSome, hFound, hEnd⟩ := hStraight.view granted reqBase want low rfl
    exact ⟨mapView_holding h.holding hSome, mapView_aligned h (alignUp_page_mod _) hFound hEnd⟩
  | unmapView base =>
    unfold Sys.vmStep
    dsimp only
    split
    · exact vmFreeRegion_kept h base MEM_RELEASE
    · exact h
  | spawnThread granted reqStack entry param suspended =>
    have hStack := hStraight.stack granted reqStack entry param suspended (.inl rfl)
    refine ⟨spawnThread_holding h.holding hStack, ?_⟩
    exact (spawnThread_allocs s granted reqStack entry param suspended).symm ▸ h.aligned
  | spawnWow64Thread granted reqStack entry param suspended =>
    have hStack := hStraight.stack granted reqStack entry param suspended (.inr rfl)
    refine ⟨spawnWow64Thread_holding h.holding hStack, ?_⟩
    exact (spawnWow64Thread_allocs s granted reqStack entry param suspended).symm ▸ h.aligned
  | endThread i code =>
    refine ⟨endThread_holding code h.holding fun t ht => hStraight.lives i code t rfl ht, ?_⟩
    obtain ⟨k, hOs⟩ := s.endThread_os i code
    have hAllocs : (s.vmStep (.endThread i code)).os.vmAllocs = s.os.vmAllocs := by
      change (s.endThread i code).os.vmAllocs = _
      rw [hOs]
      rfl
    exact hAllocs ▸ h.aligned
  | mapAnywhere granted size perm name => exact mapped_kept h (s.mapAnywhere_maps granted size perm name)
  | mapAnywhereLow granted size perm name => exact mapped_kept h (s.mapAnywhereLow_maps granted size perm name)

theorem Roomy.straight (hRoomy : Roomy s op) : Straight s op where
  request r hRequest := by
    obtain ⟨hSize, hTake⟩ := hRoomy.takeable r hRequest
    have hSome : r.pages ≠ 0 := pages_ne_zero (w := 1) (by decide) hSize
    refine ⟨hSome, fun hAddr b hFind => ?_, fun hAddr => ?_⟩
    · exact (vmFindFreeBelow_found hSome (roomy_request hRoomy hRequest hAddr)).inside b hFind
    · rw [request_pages hSize]
      exact (hTake hAddr).inside
  view granted reqBase want low hOp := by
    obtain ⟨hWant, hEnd⟩ := hRoomy.view granted reqBase want low hOp
    have hSome := viewPages_ne_zero hWant
    refine ⟨hSome, fun hReq b hb => ?_, hEnd⟩
    refine (vmFindFreeBelow_found hSome ?_).inside b hb
    refine (hRoomy.searchable (s, viewPages want, if low then 0xFFFFFFFF else BitVec.allOnes 64) ?_).2
    rw [hOp, VmOp.searches, if_neg (not_not.mpr hReq)]
    exact List.mem_singleton_self _
  stack granted reqStack entry param suspended hOp := stackPages_ne_zero (hRoomy.stack granted reqStack entry param suspended hOp)
  lives := hRoomy.lives

theorem vmStep_kept (h : AllocsKept s) (hRoomy : Roomy s op) : AllocsKept (s.vmStep op) := vmStep_straight h hRoomy.straight

theorem fits_maxU64 {v w : U64} (h : max v.toNat w.toNat + 0x1000 < 2 ^ 64) : Addition.Fits (maxU64 v w, PAGE) := by
  unfold Addition.Fits
  dsimp only
  rw [toNat_maxU64]
  exact h

theorem additions_fit (h : AllocsKept s) (hRoomy : Roomy s op) : ∀ p ∈ op.additions s, p.Fits := by
  have hRequest : ∀ r, op.request = some r → ∀ p : Addition, p ∈ (maxU64 r.sizeReq 1, PAGE) ::
      (if r.addrReq = 0 then [] else (r.base, r.pages) :: s.os.allocEnds) → p.Fits := by
    intro r hr p hp
    obtain ⟨hSize, hTake⟩ := hRoomy.takeable r hr
    rcases List.mem_cons.mp hp with rfl | hp
    · exact fits_maxU64 (w := 1) hSize
    · split at hp
      · cases hp
      · rename_i hAddr
        rcases List.mem_cons.mp hp with rfl | hp
        · have hInside := (hTake hAddr).inside
          rwa [← request_pages hSize] at hInside
        · exact h.ends hp
  cases op with
  | VirtualAlloc granted addr size committed => exact hRequest _ rfl
  | NtAllocateVirtualMemory granted addr size committed zeroBits => exact hRequest _ rfl
  | VirtualFree addr freeType => exact fun p hp => h.ends hp
  | mapView granted reqBase want low =>
    intro p hp
    obtain rfl := List.mem_singleton.mp hp
    exact fits_maxU64 (w := 1) (hRoomy.view granted reqBase want low rfl).1
  | unmapView base => exact fun p hp => h.ends hp
  | spawnThread granted reqStack entry param suspended =>
    intro p hp
    obtain rfl := List.mem_singleton.mp hp
    exact fits_maxU64 (hRoomy.stack granted reqStack entry param suspended (.inl rfl))
  | spawnWow64Thread granted reqStack entry param suspended =>
    intro p hp
    obtain rfl := List.mem_singleton.mp hp
    exact fits_maxU64 (hRoomy.stack granted reqStack entry param suspended (.inr rfl))
  | endThread i code => exact fun p hp => by cases hp
  | mapAnywhere granted size perm name => exact fun p hp => by cases hp
  | mapAnywhereLow granted size perm name => exact fun p hp => by cases hp

theorem vmStep_serves (h : AllocsKept s) (hRoomy : Roomy s op) : StepServes s op where
  served r hRequest hReports := by
    have hTake := hRoomy.takeable r hRequest
    rw [vmStep_request hRequest]
    exact serve_served h hTake.1 (roomy_request hRoomy hRequest) hTake.2 hReports
  searches q hq :=
    have hSearch := hRoomy.searchable q hq
    (vmFindFreeBelow_found hSearch.1 hSearch.2).fits
  additions := additions_fit h hRoomy

end Invariant

structure Sys.Starts (s : Sys) : Prop where
  os : ∃ cfg vallocBase exitThunk tlsThunk entryThunk wow64Peb32 wow64Threading,
    s.os = WinOs.new cfg vallocBase exitThunk tlsThunk entryThunk wow64Peb32 wow64Threading
  wellFormed : WellFormed s.mem

theorem Sys.Starts.kept {s : Sys} (h : s.Starts) : AllocsKept s := by
  obtain ⟨⟨cfg, vallocBase, exitThunk, tlsThunk, entryThunk, wow64Peb32, wow64Threading, hOs⟩, hWf⟩ := h
  have hNone : s.os.holdings = [] := by
    rw [hOs]
    rfl
  constructor
  · unfold Holding
    rw [hNone]
    exact Holds.nil hWf
  · intro a ha
    rw [hOs] at ha
    cases ha

/-- The claim of a run: every state has its allocations apart and on pages, and every step keeps its word. -/
structure AllocsHold (s : Sys) (ops : List VmOp) : Prop where
  recorded : ∀ n, Recorded (s.vmRun (ops.take n)).os
  serves : ∀ n op, ops[n]? = some op → StepServes (s.vmRun (ops.take n)) op

theorem roomy_run_holds {s : Sys} {ops : List VmOp} (hStarts : s.Starts) (hRun : Along Sys.vmStep Roomy s ops) :
    AllocsHold s ops := by
  have hKept : ∀ n, AllocsKept (s.vmRun (ops.take n)) := fun n =>
    (hRun.take n).keeps (J := AllocsKept) (fun _ _ _ h hRoomy => vmStep_kept h hRoomy) hStarts.kept
  exact ⟨fun n => (hKept n).recorded, fun n op hGet => vmStep_serves (hKept n) (hRun.at n op hGet)⟩

theorem boot_sys_starts : Process.boot.sys.Starts := ⟨Process.boot_starts.os, Process.boot_wellFormed⟩

def allocatesWithin : List VmOp :=
  [.VirtualAlloc (fun _ => true) 0 0x3000 true, .VirtualAlloc (fun _ => true) 0x4000001000 0x1000 true]

theorem roomy_run_holds_within : AllocsHold Process.boot.sys allocatesWithin := by
  refine roomy_run_holds boot_sys_starts (.cons ?_ (.cons ?_ (.nil _)))
  · refine roomy_of_request rfl (fun q hq => ?_) (by decide) fun h => absurd rfl h
    · obtain rfl := List.mem_singleton.mp hq
      refine ⟨by decide, ?_⟩
      unfold Sys.Searchable
      rw [if_pos rfl]
      refine ⟨by decide, 0x4000000000, by decide, by decide, by decide, ?_⟩
      have hAll : (Process.boot.sys.mem.layout.all fun r =>
          decide (r.endAddr ≤ 0x4000000000 ∨ 0x4000000000 + 0x3000 ≤ r.1.toNat)) = true := by decide
      exact fun r hr => of_decide_eq_true (List.all_eq_true.mp hAll r hr)
  · refine roomy_of_request rfl (fun q hq => by cases hq) (by decide) fun _ => ?_
    refine ⟨by decide, fun _ => by decide, fun _ => .inl fun x hLow hHigh => ?_⟩
    have hLayout : ((0x4000000000, 0x3000) : Range) ∈
        (Process.boot.sys.vmRun (allocatesWithin.take 1)).mem.layout := by decide
    refine ⟨_, hLayout, ?_, ?_⟩
    · exact le_trans (by decide) hLow
    · exact lt_of_lt_of_le hHigh (by decide)

def allocatesPast : List VmOp :=
  [.VirtualAlloc (fun _ => true) 0 0x1000 true, .VirtualAlloc (fun _ => true) 0x4000000000 0x2000 true]

theorem second_page_not_mapped : Process.boot.sys.Starts ∧ ¬AllocsHold Process.boot.sys allocatesPast := by
  refine ⟨boot_sys_starts, fun h => ?_⟩
  have hReports : ((Process.boot.sys.vmRun (allocatesPast.take 1)).serve
      ⟨fun _ => true, 0x4000000000, 0x2000, true, BitVec.allOnes 64⟩).2 = 0x4000000000 := by decide
  have hMissing : (((Process.boot.sys.vmRun (allocatesPast.take 1)).serve
      ⟨fun _ => true, 0x4000000000, 0x2000, true, BitVec.allOnes 64⟩).1.mem.layout.all fun r =>
      decide ¬(r.1.toNat ≤ 0x4000001000 ∧ 0x4000001000 < r.1.toNat + r.2.toNat)) = true := by decide
  have hServed := (h.serves 1 _ rfl).served _ rfl (by
    rw [hReports]
    decide)
  rw [hReports] at hServed
  obtain ⟨r, hr, hIn⟩ := hServed.mapped 0x4000001000 (by decide) (by decide)
  exact of_decide_eq_true (List.all_eq_true.mp hMissing r hr) hIn

end Exemu.Os
