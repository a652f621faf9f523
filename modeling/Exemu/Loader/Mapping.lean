import Exemu.Library.Align
import Exemu.Loader.Mapped
import Exemu.Memory.Lawful

/-! # Mapping the image of a process

`Process::load` maps the headers and each section as a region of its own, in whole pages.
-/
namespace Exemu.Loader

open VirtualMemory (WellFormed)

def PAGE : U64 := 0x1000

def alignUp (v align : U64) : U64 := (v + align - 1) &&& ~~~(align - 1)

def wholePages (n : U64) : U64 := if alignUp n PAGE < PAGE then PAGE else alignUp n PAGE

def sectionName (raw : Path.Text) : String := if raw = [] then "section" else String.ofList raw

def sectionPerm (s : Section) : Perm :=
  ⟨(if s.writable then Perm.WRITE.bits else 0) ||| (if s.executable then Perm.EXEC.bits else 0) ||| Perm.READ.bits⟩

def carriesIat (img : PeImage) (s : Section) (size : U64) : Bool :=
  img.imports.any fun i => decide (s.rva.toNat ≤ i.iatRva.toNat) && decide (i.iatRva.toNat < s.rva.toNat + size.toNat)

def sectionSize (s : Section) : U64 := wholePages (BitVec.ofNat 64 (max s.virtualSize.toNat s.data.length))

def mapSection (granted : Bool) (base : U64) (img : PeImage) (mem : VirtualMemory) (s : Section) : Result VirtualMemory :=
  let perm := sectionPerm s
  mem.mapWithData granted (sectionName s.name) (base + s.rva.setWidth 64) (sectionSize s) s.data
    (if carriesIat img s (sectionSize s) then ⟨perm.bits ||| Perm.WRITE.bits⟩ else perm)

def mapSections (granted : Bool) (base : U64) (img : PeImage) : List Section → VirtualMemory → Result VirtualMemory
  | [], mem => .ok mem
  | s :: rest, mem => do
    let mem ← mapSection granted base img mem s
    mapSections granted base img rest mem

def mapImage (granted : Bool) (base : U64) (img : PeImage) (mem : VirtualMemory) : Result VirtualMemory := do
  let mem ← mem.mapWithData granted "headers" base (wholePages (img.sizeOfHeaders.setWidth 64)) img.headers Perm.RW
  mapSections granted base img img.sections mem

/-- A region of this memory that begins with `data` at `base` and is at least `n` bytes long. -/
def Placed (m : VirtualMemory) (base : U64) (n : Nat) (data : List U8) : Prop :=
  ∃ r ∈ m.regions, r.region.base = base ∧ n ≤ r.region.size.toNat ∧ ∀ k, r.bytes k = data[k]?.getD 0

section Placed

variable {m m' : VirtualMemory} {granted : Bool} {name : String} {base size : U64} {data : List U8} {perm : Perm}

theorem wholePages_ge {n : U64} (h : n.toNat + 0x1000 ≤ 2 ^ 64) : n.toNat ≤ (wholePages n).toNat ∧ 0x1000 ≤ (wholePages n).toNat := by
  have hUp : (alignUp n PAGE).toNat = (n.toNat + 0xFFF) / 0x1000 * 0x1000 := toNat_alignUp (k := 12) n rfl (by omega)
  have hPage : PAGE.toNat = 0x1000 := rfl
  unfold wholePages
  split
  · rename_i hLt
    rw [BitVec.lt_def] at hLt
    omega
  · rename_i hLt
    rw [BitVec.lt_def] at hLt
    omega

theorem mapWithData_ok (h : m.mapWithData granted name base size data perm = .ok m') (hSize : size ≠ 0)
    (hData : data.length < 2 ^ 64) :
    Placed m' base size.toNat data ∧ ∀ {b n d}, Placed m b n d → Placed m' b n d := by
  unfold VirtualMemory.mapWithData at h
  obtain ⟨zero, hZero, hInsert⟩ := ok_of_bind h
  have hMax : (BitVec.ofNat 64 (max size.toNat data.length)).toNat = max size.toNat data.length := by
    have hLt := size.isLt
    rw [BitVec.toNat_ofNat, Nat.mod_eq_of_lt (by omega)]
  have hBytes : zero = fun _ => 0 := by
    unfold zeroed at hZero
    split at hZero
    · cases hZero
      rfl
    · cases hZero
  subst hBytes
  rcases VirtualMemory.insert_ok hInsert with ⟨hNone, -⟩ | ⟨-, -, rfl⟩
  · have hNat := congrArg BitVec.toNat hNone
    dsimp only at hNat
    have hZeroNat : (0 : U64).toNat = 0 := rfl
    rw [hMax, hZeroNat] at hNat
    exact absurd (BitVec.eq_of_toNat_eq (show size.toNat = (0 : U64).toNat by omega)) hSize
  · constructor
    · refine ⟨_, List.mem_append_right _ List.mem_cons_self, rfl, ?_, fun k => ?_⟩
      · dsimp only
        omega
      · dsimp only [splice]
        split
        · rw [Nat.sub_zero, List.getD_eq_getElem?_getD]
        · rw [List.getElem?_eq_none (by omega)]
          rfl
    · rintro b n d ⟨r, hr, hRest⟩
      refine ⟨r, ?_, hRest⟩
      rw [List.mem_append, List.mem_cons, or_left_comm, ← List.mem_append, List.take_append_drop]
      exact .inr hr

theorem mapWithData_wellFormed (hWf : WellFormed m) (h : m.mapWithData granted name base size data perm = .ok m') :
    WellFormed m' := by
  unfold VirtualMemory.mapWithData at h
  obtain ⟨zero, -, hInsert⟩ := ok_of_bind h
  exact hWf.insert hInsert

theorem Placed.peek (hWf : WellFormed m) {n : Nat} (h : Placed m base n data) {k : Nat} (hk : k < n)
    (hTop : base.toNat + k < 2 ^ 64 - 1) : m.peek (base + BitVec.ofNat 64 k) = some (data[k]?.getD 0) := by
  obtain ⟨r, hr, rfl, hn, hBytes⟩ := h
  obtain ⟨i, hGet⟩ := List.mem_iff_getElem?.mp hr
  have hSum : (r.region.base + BitVec.ofNat 64 k).toNat = r.region.base.toNat + k := by
    rw [BitVec.toNat_add, BitVec.toNat_ofNat]
    omega
  have hContains : r.region.contains (r.region.base + BitVec.ofNat 64 k) = true := by
    rw [Region.contains_iff, hSum]
    unfold Region.endAddr
    omega
  rw [VirtualMemory.peek_of_region hWf hGet hContains, hSum, Nat.add_sub_cancel_left, hBytes]

end Placed

section Image

variable {m m' : VirtualMemory} {granted : Bool} {base : U64} {img : PeImage}

theorem wholePages_ne_zero {n : U64} : wholePages n ≠ 0 := by
  intro hZero
  unfold wholePages at hZero
  split at hZero
  · cases hZero
  · rename_i hLt
    rw [hZero] at hLt
    exact hLt (by decide)

theorem section_size {s : Section} (hSmall : s.data.length < 2 ^ 32) : max s.virtualSize.toNat s.data.length ≤ (sectionSize s).toNat := by
  have hVirtual := s.virtualSize.isLt
  have hNat : (BitVec.ofNat 64 (max s.virtualSize.toNat s.data.length)).toNat = max s.virtualSize.toNat s.data.length := by
    rw [BitVec.toNat_ofNat, Nat.mod_eq_of_lt (by omega)]
  have hGe := (wholePages_ge (n := BitVec.ofNat 64 (max s.virtualSize.toNat s.data.length)) (by omega)).1
  rwa [hNat] at hGe

theorem mapSections_ok {sections : List Section} (hWf : WellFormed m) (hSmall : ∀ s ∈ sections, s.data.length < 2 ^ 32)
    (h : mapSections granted base img sections m = .ok m') :
    WellFormed m' ∧ (∀ {b n d}, Placed m b n d → Placed m' b n d) ∧
      ∀ s ∈ sections, Placed m' (base + s.rva.setWidth 64) (sectionSize s).toNat s.data := by
  induction sections generalizing m with
  | nil =>
    cases h
    exact ⟨hWf, id, fun s hs => absurd hs List.not_mem_nil⟩
  | cons s rest ih =>
    obtain ⟨m₁, hMap, hRest⟩ := ok_of_bind h
    have hLen := hSmall s List.mem_cons_self
    obtain ⟨hHere, hKeeps⟩ := mapWithData_ok hMap wholePages_ne_zero (by omega)
    obtain ⟨hWf', hKeeps', hLater⟩ := ih (mapWithData_wellFormed hWf hMap) (fun t ht => hSmall t (List.mem_cons_of_mem _ ht)) hRest
    exact ⟨hWf', fun hPlaced => hKeeps' (hKeeps hPlaced), List.forall_mem_cons.mpr ⟨hKeeps' hHere, hLater⟩⟩

theorem peek_mapImage (hLaid : Laid img.sections) (hWf : WellFormed m) (hHeaders : img.headers.length ≤ img.sizeOfHeaders.toNat)
    (h : mapImage granted base img m = .ok m') {a : Nat} {b : U8} (hByte : img.byte a = some b)
    (hTop : base.toNat + a < 2 ^ 64 - 1) : m'.peek (base + BitVec.ofNat 64 a) = some b := by
  obtain ⟨m₁, hMap, hSections⟩ := ok_of_bind h
  have hSize := img.sizeOfHeaders.isLt
  obtain ⟨hHead, -⟩ := mapWithData_ok hMap wholePages_ne_zero (by omega)
  obtain ⟨hWf', hKeeps, hPlaced⟩ := mapSections_ok (mapWithData_wellFormed hWf hMap) hLaid.small hSections
  unfold PeImage.byte at hByte
  split at hByte
  · rename_i s hFind
    have hs := List.mem_of_find?_eq_some hFind
    have hIn := (Section.covers_iff _ _).mp (List.find?_some (p := fun t : Section => t.covers a) hFind)
    have hRva := s.rva.isLt
    have hVsize := hLaid.vsize_eq hs
    have hRoom := section_size (hLaid.small s hs)
    have hShift : base + BitVec.ofNat 64 a = base + s.rva.setWidth 64 + BitVec.ofNat 64 (a - s.rva.toNat) := by
      apply BitVec.eq_of_toNat_eq
      rw [BitVec.toNat_add, BitVec.toNat_add, BitVec.toNat_add, BitVec.toNat_setWidth, BitVec.toNat_ofNat, BitVec.toNat_ofNat]
      omega
    have hBase : (base + s.rva.setWidth 64).toNat = base.toNat + s.rva.toNat := by
      rw [BitVec.toNat_add, BitVec.toNat_setWidth]
      omega
    cases hByte
    rw [hShift]
    exact (hPlaced s hs).peek hWf' (by omega) (by omega)
  · obtain ⟨ha, -⟩ := List.getElem?_eq_some_iff.mp hByte
    have hNat : (img.sizeOfHeaders.setWidth 64).toNat = img.sizeOfHeaders.toNat := by
      rw [BitVec.toNat_setWidth]
      omega
    have hGe := (wholePages_ge (n := img.sizeOfHeaders.setWidth 64) (by omega)).1
    rw [(hKeeps hHead).peek hWf' (by omega) hTop, hByte]
    rfl

end Image

end Exemu.Loader
