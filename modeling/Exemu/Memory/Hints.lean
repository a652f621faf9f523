import Exemu.Memory.Generation

/-! # The lookup hints

`find_idx` remembers for every slot of page numbers the index it found last and tries it first.
-/
namespace Exemu

open VirtualMemory

def HINT_SLOTS : Nat := 8

structure Hinted where
  mem : VirtualMemory
  hints : Nat → Nat

namespace Hinted

def new : Hinted := { mem := .new, hints := fun _ => 0 }

/-- `((addr >> 12) as usize) & (HINT_SLOTS - 1)` -/
def slot (addr : U64) : Nat := addr.toNat / 0x1000 % HINT_SLOTS

def findIdxSlow (self : Hinted) (addr : U64) (slot : Nat) : Hinted × Option Nat :=
  let idx := partitionPoint (fun m => decide (m.region.base ≤ addr)) self.mem.regions
  if idx = 0 then (self, none)
  else
    match self.mem.regions[idx - 1]? with
    | some m =>
      if m.region.contains addr then
        ({ self with hints := fun s => if s = slot then idx - 1 else self.hints s }, some (idx - 1))
      else (self, none)
    | none => (self, none)

def findIdx (self : Hinted) (addr : U64) : Hinted × Option Nat :=
  match self.mem.regions[self.hints (slot addr)]? with
  | some m => if m.region.contains addr then (self, some (self.hints (slot addr))) else self.findIdxSlow addr (slot addr)
  | none => self.findIdxSlow addr (slot addr)

/-- `find_mut`, and the index with it. -/
def find (self : Hinted) (addr : U64) : Hinted × Option (Nat × Mapped) :=
  let (self, found) := self.findIdx addr
  (self, found.bind fun i => self.mem.regions[i]?.map fun m => (i, m))

def locate (self : Hinted) (addr : U64) (len : Nat) (needed : Perm) (what : String) :
    Hinted × Result (Nat × Mapped × Nat) :=
  match self.find addr with
  | (self, none) => (self, .error (.unmapped addr len))
  | (self, some (i, m)) =>
    let start := addr.toNat - m.region.base.toNat
    if start + len ≤ m.region.size.toNat then
      if m.region.perm.contains needed then (self, .ok (i, m, start))
      else (self, .error (.permission addr what))
    else (self, .error (.unmapped addr len))

def sliced (len : Nat) : Hinted × Result (Nat × Mapped × Nat) → Hinted × Result (List U8)
  | (self, .error e) => (self, .error e)
  | (self, .ok (_, m, start)) => (self, .ok (slice m.bytes start len))

def stored (addr : U64) (data : List U8) : Hinted × Result (Nat × Mapped × Nat) → Hinted × Result Unit
  | (self, .error e) => (self, .error e)
  | (self, .ok (i, m, start)) => ({ self with mem := self.mem.store i m addr start data }, .ok ())

def read (self : Hinted) (addr : U64) (len : Nat) : Hinted × Result (List U8) :=
  if len = 0 then (self, .ok []) else sliced len (self.locate addr len Perm.READ "read")

def fetch (self : Hinted) (addr : U64) (len : Nat) : Hinted × Result (List U8) :=
  if len = 0 then (self, .ok []) else sliced len (self.locate addr len Perm.EXEC "execute")

def write (self : Hinted) (addr : U64) (data : List U8) : Hinted × Result Unit :=
  if data.isEmpty then (self, .ok ()) else stored addr data (self.locate addr data.length Perm.WRITE "write")

def readUint (self : Hinted) (addr : U64) (size : Nat) : Hinted × Result U64 :=
  if isUintSize size then
    match self.locate addr size Perm.READ "read" with
    | (self, .error e) => (self, .error e)
    | (self, .ok (_, m, start)) => (self, .ok (fromLe (slice m.bytes start size)))
  else (self, .error (.unsupported "memory read of an odd number of bytes"))

def writeUint (self : Hinted) (addr : U64) (size : Nat) (v : U64) : Hinted × Result Unit :=
  if isUintSize size then stored addr (toLe size v) (self.locate addr size Perm.WRITE "write")
  else (self, .error (.unsupported "memory write of an odd number of bytes"))

def poke (self : Hinted) (addr : U64) (data : List U8) : Hinted × Result Unit :=
  if data.isEmpty then (self, .ok ())
  else
    match self.find addr with
    | (self, none) => (self, .error (.unmapped addr data.length))
    | (self, some (i, m)) =>
      let start := addr.toNat - m.region.base.toNat
      if start + data.length ≤ m.region.size.toNat then
        ({ self with mem := self.mem.store i m addr start data }, .ok ())
      else (self, .error (.unmapped addr data.length))

def protect (self : Hinted) (base size : U64) (perm : Perm) : Hinted × Result Perm :=
  match self.find base with
  | (self, none) => (self, .error (.unmapped base size.toNat))
  | (self, some (i, m)) =>
    ({ self with mem := { self.mem with
        regions := self.mem.regions.set i { m with region := { m.region with perm := perm } }
        layoutGen := self.mem.layoutGen + 1 } }, .ok m.region.perm)

def hostSpan (self : Hinted) (addr : U64) (len : Nat) (needed : Perm) : Hinted × Option (List U8) :=
  if len = 0 || self.mem.watchpointsArmed then (self, none)
  else
    match self.locate addr len needed "read" with
    | (self, .error _) => (self, none)
    | (self, .ok (_, m, start)) => (self, some (slice m.bytes start len))

/-- `host_span_mut`, and its slice filled with `data` by the caller. -/
def fillSpan (self : Hinted) (addr : U64) (data : List U8) (needed : Perm) : Hinted × Option Unit :=
  if data.length = 0 || self.mem.watchpointsArmed then (self, none)
  else
    match self.locate addr data.length needed "write" with
    | (self, .error _) => (self, none)
    | (self, .ok (i, m, start)) =>
      if m.region.perm.contains Perm.EXEC then (self, none)
      else
        ({ self with mem := { self.mem with
            regions := self.mem.regions.set i { m with bytes := splice m.bytes start data } } }, some ())

/-! ## A stale hint misleads no lookup -/

variable {self : Hinted} {addr : U64}

@[simp] theorem findIdxSlow_mem (self : Hinted) (addr : U64) (slot : Nat) :
    (self.findIdxSlow addr slot).1.mem = self.mem := by
  unfold findIdxSlow
  dsimp only
  split
  · rfl
  · split
    · split <;> rfl
    · rfl

theorem findIdxSlow_found (self : Hinted) (addr : U64) (slot : Nat) :
    (self.findIdxSlow addr slot).2 = self.mem.findIdx addr := by
  unfold findIdxSlow VirtualMemory.findIdx
  dsimp only
  split
  · rfl
  · cases self.mem.regions[partitionPoint (fun m => decide (m.region.base ≤ addr)) self.mem.regions - 1]? with
    | none => rfl
    | some m =>
      dsimp only
      split <;> rfl

@[simp] theorem findIdx_mem (self : Hinted) (addr : U64) : (self.findIdx addr).1.mem = self.mem := by
  unfold findIdx
  split
  · split
    · rfl
    · exact self.findIdxSlow_mem addr _
  · exact self.findIdxSlow_mem addr _

theorem findIdx_found (hSep : Separated self.mem.regions) (addr : U64) :
    (self.findIdx addr).2 = self.mem.findIdx addr := by
  have hHinted : (self.findIdx addr).2 = self.mem.findIdxHinted (self.hints (slot addr)) addr := by
    unfold findIdx findIdxHinted
    cases self.mem.regions[self.hints (slot addr)]? with
    | none => exact self.findIdxSlow_found addr _
    | some m =>
      dsimp only
      split
      · rfl
      · exact self.findIdxSlow_found addr _
  rw [hHinted, findIdxHinted_eq hSep]

theorem findIdx_linear (hSep : Separated self.mem.regions) (addr : U64) :
    (self.findIdx addr).2 = self.mem.regions.findIdx? fun m => m.region.contains addr := by
  rw [findIdx_found hSep]
  cases hLinear : self.mem.regions.findIdx? fun m => m.region.contains addr with
  | some i =>
    obtain ⟨hi, hContains, -⟩ := List.findIdx?_eq_some_iff_getElem.mp hLinear
    exact (findIdx_eq_some_iff hSep).mpr ⟨_, List.getElem?_eq_getElem hi, hContains⟩
  | none =>
    have hNone := List.findIdx?_eq_none_iff.mp hLinear
    cases hFind : self.mem.findIdx addr with
    | none => rfl
    | some i =>
      obtain ⟨m, hGet, hContains⟩ := findIdx_sound hFind
      rw [hNone m (List.mem_of_getElem? hGet)] at hContains
      cases hContains

@[simp] theorem find_mem (self : Hinted) (addr : U64) : (self.find addr).1.mem = self.mem := self.findIdx_mem addr

theorem find_found (hSep : Separated self.mem.regions) (addr : U64) :
    (self.find addr).2 = (self.mem.findIdx addr).bind fun i => self.mem.regions[i]?.map fun m => (i, m) := by
  unfold find
  dsimp only
  rw [findIdx_found hSep, findIdx_mem]

/-! ## With hints and without -/

/-- A call that reads: it answers as without hints, and moves at most a hint. -/
structure Looks {α : Type} (before : Hinted) (r : Hinted × α) (result : α) : Prop where
  mem : r.1.mem = before.mem
  answer : r.2 = result

/-- A call that writes: done or refused as without hints, and refused leaves the memory as it was. -/
structure Alters (before : Hinted) (r : Hinted × Result Unit) (result : Result VirtualMemory) : Prop where
  mem : r.1.mem = before.mem.orKeep result
  answer : r.2 = result.map fun _ => ()

theorem locate_looks (hSep : Separated self.mem.regions) (addr : U64) (len : Nat) (needed : Perm) (what : String) :
    Looks self (self.locate addr len needed what) (self.mem.locate addr len needed what) := by
  have hMem := self.find_mem addr
  have hFound := find_found hSep addr
  unfold locate VirtualMemory.locate
  rw [← hFound]
  generalize self.find addr = found at hMem
  obtain ⟨s, _ | ⟨i, m⟩⟩ := found
  · exact ⟨hMem, rfl⟩
  · dsimp only
    split
    · split <;> exact ⟨hMem, rfl⟩
    · exact ⟨hMem, rfl⟩

theorem sliced_looks {r : Hinted × Result (Nat × Mapped × Nat)} {p : Result (Nat × Mapped × Nat)} (h : Looks self r p)
    (len : Nat) : Looks self (sliced len r) (p.map fun l => slice l.2.1.bytes l.2.2 len) := by
  obtain ⟨s, e | l⟩ := r
  · obtain rfl := h.answer
    exact ⟨h.mem, rfl⟩
  · obtain rfl := h.answer
    exact ⟨h.mem, rfl⟩

theorem stored_alters {r : Hinted × Result (Nat × Mapped × Nat)} {p : Result (Nat × Mapped × Nat)} (h : Looks self r p)
    (addr : U64) (data : List U8) :
    Alters self (stored addr data r) (p.map fun l => self.mem.store l.1 l.2.1 addr l.2.2 data) := by
  obtain ⟨s, e | l⟩ := r
  · obtain rfl := h.answer
    exact ⟨h.mem, rfl⟩
  · obtain rfl := h.answer
    have hMem : s.mem = self.mem := h.mem
    refine ⟨?_, rfl⟩
    change s.mem.store _ _ _ _ _ = _
    rw [hMem]
    rfl

section

variable (hSep : Separated self.mem.regions)
include hSep

theorem read_looks (addr : U64) (len : Nat) : Looks self (self.read addr len) (self.mem.read addr len) := by
  unfold read VirtualMemory.read
  split
  · exact ⟨rfl, rfl⟩
  · have hSliced := sliced_looks (locate_looks hSep addr len Perm.READ "read") len
    refine ⟨hSliced.mem, hSliced.answer.trans ?_⟩
    cases self.mem.locate addr len Perm.READ "read" <;> rfl

theorem fetch_looks (addr : U64) (len : Nat) : Looks self (self.fetch addr len) (self.mem.fetch addr len) := by
  unfold fetch VirtualMemory.fetch
  split
  · exact ⟨rfl, rfl⟩
  · have hSliced := sliced_looks (locate_looks hSep addr len Perm.EXEC "execute") len
    refine ⟨hSliced.mem, hSliced.answer.trans ?_⟩
    cases self.mem.locate addr len Perm.EXEC "execute" <;> rfl

theorem write_alters (addr : U64) (data : List U8) : Alters self (self.write addr data) (self.mem.write addr data) := by
  unfold write VirtualMemory.write
  split
  · exact ⟨rfl, rfl⟩
  · have hStored := stored_alters (locate_looks hSep addr data.length Perm.WRITE "write") addr data
    cases hLocate : self.mem.locate addr data.length Perm.WRITE "write" with
    | error e => exact hLocate ▸ hStored
    | ok l => exact hLocate ▸ hStored

theorem writeUint_alters (addr : U64) (size : Nat) (v : U64) :
    Alters self (self.writeUint addr size v) (self.mem.writeUint addr size v) := by
  unfold writeUint VirtualMemory.writeUint
  split
  · have hStored := stored_alters (locate_looks hSep addr size Perm.WRITE "write") addr (toLe size v)
    cases hLocate : self.mem.locate addr size Perm.WRITE "write" with
    | error e => exact hLocate ▸ hStored
    | ok l => exact hLocate ▸ hStored
  · exact ⟨rfl, rfl⟩

theorem poke_alters (addr : U64) (data : List U8) : Alters self (self.poke addr data) (self.mem.poke addr data) := by
  have hMem := self.find_mem addr
  have hFound := find_found hSep addr
  unfold poke VirtualMemory.poke
  split
  · exact ⟨rfl, rfl⟩
  · rw [← hFound]
    generalize self.find addr = found at hMem
    obtain ⟨s, _ | ⟨i, m⟩⟩ := found
    · exact ⟨hMem, rfl⟩
    · dsimp only at hMem ⊢
      split
      · exact ⟨by rw [hMem]; rfl, rfl⟩
      · exact ⟨hMem, rfl⟩

theorem protect_alters (base size : U64) (perm : Perm) :
    Alters self ((self.protect base size perm).1, (self.protect base size perm).2.map fun _ => ())
      ((self.mem.protect base size perm).map Prod.snd) := by
  have hMem := self.find_mem base
  have hFound := find_found hSep base
  unfold protect VirtualMemory.protect
  rw [← hFound]
  generalize self.find base = found at hMem
  obtain ⟨s, _ | ⟨i, m⟩⟩ := found
  · exact ⟨hMem, rfl⟩
  · dsimp only at hMem ⊢
    exact ⟨by rw [hMem]; rfl, rfl⟩

end

end Hinted
end Exemu
