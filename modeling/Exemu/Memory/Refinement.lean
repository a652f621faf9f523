import Exemu.Memory.Bytes
import Exemu.Memory.Lawful

/-! # The region vector refines the byte map

The memory runs through any sequence of its operations, and a journal keeps what each of them
assigned.
-/
namespace Exemu

open Stamp VirtualMemory

inductive MemoryCall where
  | op (op : MemoryOp)
  | read (addr : U64) (len : Nat)
  | fetch (addr : U64) (len : Nat)
  | readUint (addr : U64) (size : Nat)
  | hostSpan (addr : U64) (len : Nat) (needed : Perm)
  | fillSpan (addr : U64) (data : List U8) (needed : Perm)
  | setDebug (debug : DebugControl)

def MemoryOp.maps : MemoryOp → Option (Bool × Region)
  | .map granted region => some (granted, region)
  | .mapFixed granted base size perm name => some (granted, ⟨name, base, size, perm⟩)
  | .mapWithData granted name base size data perm =>
    some (granted, ⟨name, base, BitVec.ofNat 64 (max size.toNat data.length), perm⟩)
  | _ => none

def MemoryOp.assigns : MemoryOp → U64 → Option U8
  | .map _ region => region.fill fun _ => 0
  | .mapFixed _ base size perm name => Region.fill ⟨name, base, size, perm⟩ fun _ => 0
  | .mapWithData _ name base size data perm =>
    Region.fill ⟨name, base, BitVec.ofNat 64 (max size.toNat data.length), perm⟩ fun i => data.getD i 0
  | .poke addr data => wrote addr data
  | .write addr data => wrote addr data
  | .writeUint addr size v => wrote addr (toLe size v)
  | .protect .. => fun _ => none
  | .unmap .. => fun _ => none

namespace MemoryCall

def assigns : MemoryCall → U64 → Option U8
  | .op o => o.assigns
  | .fillSpan addr data _ => wrote addr data
  | _ => fun _ => none

def maps : MemoryCall → Option (Bool × Region)
  | .op o => o.maps
  | _ => none

end MemoryCall

namespace Hinted

def laidOut (self : Hinted) : Result VirtualMemory → Hinted × Result Unit
  | .ok mem => ({ self with mem := mem }, .ok ())
  | .error e => (self, .error e)

def perform (self : Hinted) : MemoryOp → Hinted × Result Unit
  | .map granted region => self.laidOut (self.mem.map granted region)
  | .mapFixed granted base size perm name => self.laidOut (self.mem.mapFixed granted base size perm name)
  | .mapWithData granted name base size data perm =>
    self.laidOut (self.mem.mapWithData granted name base size data perm)
  | .poke addr data => self.poke addr data
  | .write addr data => self.write addr data
  | .writeUint addr size v => self.writeUint addr size v
  | .protect base size perm => ((self.protect base size perm).1, (self.protect base size perm).2.map fun _ => ())
  | .unmap base size => ({ self with mem := self.mem.unmap base size }, .ok ())

def call (self : Hinted) : MemoryCall → Hinted × Bool
  | .op op => ((self.perform op).1, (self.perform op).2.isOk)
  | .read addr len => ((self.read addr len).1, (self.read addr len).2.isOk)
  | .fetch addr len => ((self.fetch addr len).1, (self.fetch addr len).2.isOk)
  | .readUint addr size => ((self.readUint addr size).1, (self.readUint addr size).2.isOk)
  | .hostSpan addr len needed => ((self.hostSpan addr len needed).1, (self.hostSpan addr len needed).2.isSome)
  | .fillSpan addr data needed => ((self.fillSpan addr data needed).1, (self.fillSpan addr data needed).2.isSome)
  | .setDebug debug => ({ self with mem := self.mem.setDebug debug }, true)

end Hinted

structure Journaled where
  now : Hinted
  log : Journal U64 U8

namespace Journaled

def new : Journaled := { now := .new, log := [] }

def next (j : Journaled) (c : MemoryCall) : Journaled :=
  { now := (j.now.call c).1
    log := (if (j.now.call c).2 then c.assigns else fun _ => none) :: j.log }

def run (calls : List MemoryCall) : Journaled := calls.foldl next new

def Seen (log : Journal U64 U8) (addr : U64) (len : Nat) (bs : List U8) : Prop :=
  bs.length = len ∧ ∀ (k : Nat) (b : U8), bs[k]? = some b → log.latest (addr + BitVec.ofNat 64 k) = some b

structure Faithful (j : Journaled) : Prop where
  sorted : j.now.mem.regions.Pairwise fun x y => x.region.base.toNat < y.region.base.toNat
  nonempty : ∀ r ∈ j.now.mem.regions, r.region.size ≠ 0
  disjoint : j.now.mem.regions.Pairwise fun x y => ∀ a, ¬(x.region.holds a = true ∧ y.region.holds a = true)
  lookup : ∀ addr, (j.now.findIdx addr).2 = j.now.mem.regions.findIdx? fun m => m.region.contains addr
  read : ∀ addr len bs, (j.now.read addr len).2 = .ok bs → Seen j.log addr len bs
  fetch : ∀ addr len bs, (j.now.fetch addr len).2 = .ok bs → Seen j.log addr len bs
  hostSpan : ∀ addr len needed bs, (j.now.hostSpan addr len needed).2 = some bs → Seen j.log addr len bs
  readUint : ∀ addr size, isUintSize size = true →
    j.now.readUint addr size = ((j.now.read addr size).1, (j.now.read addr size).2.map fromLe)
  writeUint : ∀ addr size v, isUintSize size = true → j.now.writeUint addr size v = j.now.write addr (toLe size v)
  refused : ∀ c, (j.now.call c).2 = false → (j.now.call c).1.mem = j.now.mem

def Clears (j : Journaled) (c : MemoryCall) : Prop :=
  ∀ granted region, c.maps = some (granted, region) → j.now.mem.Admits granted region →
    ∀ r ∈ j.now.mem.regions, Region.ClearOf region r.region

/-! ## Mappings -/

variable {m m' : VirtualMemory}

variable {op : MemoryOp} {granted : Bool} {region : Region} {h : Hinted} {addr : U64} {data : List U8} {size : Nat}

theorem maps_inserted (hMaps : op.maps = some (granted, region)) (hDone : (h.perform op).2.isOk = true) :
    ∃ bytes, op.assigns = region.fill bytes ∧ h.mem.insert region bytes = .ok (h.perform op).1.mem ∧
      (region.size.toNat < 2 ^ 63 ∧ granted = true) := by
  have hMap : ∀ (g : Bool) (r : Region), (h.laidOut (h.mem.map g r)).2.isOk = true →
      h.mem.insert r (fun _ => 0) = .ok (h.laidOut (h.mem.map g r)).1.mem ∧ (r.size.toNat < 2 ^ 63 ∧ g = true) := by
    intro g r hOk
    cases hCall : h.mem.map g r with
    | error e =>
      rw [hCall] at hOk
      cases hOk
    | ok mem =>
      refine ⟨?_, (map_ok hCall).1⟩
      unfold VirtualMemory.map at hCall
      cases hZero : zeroed g r.size with
      | error e =>
        rw [hZero] at hCall
        cases hCall
      | ok bytes =>
        rw [hZero] at hCall
        obtain rfl := zeroed_bytes hZero
        exact hCall
  cases op with
  | map g r =>
    cases hMaps
    obtain ⟨hInsert, hRoom⟩ := hMap _ _ hDone
    exact ⟨_, rfl, hInsert, hRoom⟩
  | mapFixed g base size perm name =>
    cases hMaps
    obtain ⟨hInsert, hRoom⟩ := hMap _ _ hDone
    exact ⟨_, rfl, hInsert, hRoom⟩
  | mapWithData g name base size data perm =>
    cases hMaps
    refine ⟨fun i => data.getD i 0, rfl, ?_⟩
    unfold Hinted.perform at hDone ⊢
    dsimp only at hDone ⊢
    cases hCall : h.mem.mapWithData granted name base size data perm with
    | error e =>
      rw [hCall] at hDone
      cases hDone
    | ok mem =>
      refine ⟨?_, (mapWithData_ok hCall).1⟩
      unfold VirtualMemory.mapWithData at hCall
      dsimp only at hCall
      cases hZero : zeroed granted (BitVec.ofNat 64 (max size.toNat data.length)) with
      | error e =>
        rw [hZero] at hCall
        cases hCall
      | ok bytes =>
        rw [hZero] at hCall
        obtain rfl := zeroed_bytes hZero
        have hBytes : splice (fun _ => 0) 0 data = fun i => data.getD i 0 := by
          funext i
          unfold splice
          split
          · rfl
          · rename_i hPast
            rw [List.getD_eq_getElem?_getD, List.getElem?_eq_none (by omega), Option.getD_none]
        change h.mem.insert _ (splice (fun _ => 0) 0 data) = _ at hCall
        rw [hBytes] at hCall
        exact hCall
  | poke addr data => cases hMaps
  | write addr data => cases hMaps
  | writeUint addr size v => cases hMaps
  | protect base size perm => cases hMaps
  | unmap base size => cases hMaps

theorem alters_done {r : Hinted × Result Unit} {p : Result VirtualMemory} (hAlters : Hinted.Alters h r p)
    (hDone : r.2.isOk = true) : p = .ok r.1.mem := by
  obtain ⟨hMem, hAnswer⟩ := hAlters
  cases p with
  | error e =>
    rw [hAnswer] at hDone
    cases hDone
  | ok mem => rw [hMem]; rfl

theorem alters_refused {r : Hinted × Result Unit} {p : Result VirtualMemory} (hAlters : Hinted.Alters h r p)
    (hRefused : r.2.isOk = false) : r.1.mem = h.mem := by
  obtain ⟨hMem, hAnswer⟩ := hAlters
  cases p with
  | error e => exact hMem
  | ok mem =>
    rw [hAnswer] at hRefused
    cases hRefused

theorem laidOut_alters (h : Hinted) (p : Result VirtualMemory) : Hinted.Alters h (h.laidOut p) p := by
  cases p <;> exact ⟨rfl, rfl⟩

theorem perform_alters (hSep : Separated h.mem.regions) (op : MemoryOp) :
    ∃ p, Hinted.Alters h (h.perform op) p ∧ h.mem.orKeep p = h.mem.apply op := by
  cases op with
  | map granted region => exact ⟨_, laidOut_alters h _, rfl⟩
  | mapFixed granted base size perm name => exact ⟨_, laidOut_alters h _, rfl⟩
  | mapWithData granted name base size data perm => exact ⟨_, laidOut_alters h _, rfl⟩
  | poke addr data => exact ⟨_, Hinted.poke_alters hSep addr data, rfl⟩
  | write addr data => exact ⟨_, Hinted.write_alters hSep addr data, rfl⟩
  | writeUint addr size v => exact ⟨_, Hinted.writeUint_alters hSep addr size v, rfl⟩
  | protect base size perm => exact ⟨_, Hinted.protect_alters hSep base size perm, rfl⟩
  | unmap base size => exact ⟨.ok (h.mem.unmap base size), ⟨rfl, rfl⟩, rfl⟩

inductive Overwrites (m m' : VirtualMemory) (addr : U64) (data : List U8) : Prop
  | none (hData : data = []) (hSame : m' = m)
  | stretch (i : Nat) (r : Mapped) (hGet : m.regions[i]? = some r) (hContains : r.region.contains addr = true)
      (hFits : addr.toNat - r.region.base.toNat + data.length ≤ r.region.size.toNat)
      (hRegions : m'.regions = m.regions.set i { r with bytes := splice r.bytes (addr.toNat - r.region.base.toNat) data })

theorem Overwrites.disjoint (h : Overwrites m m' addr data) (hDisjoint : m.Disjoint) : m'.Disjoint := by
  cases h with
  | none hData hSame => exact hSame ▸ hDisjoint
  | stretch i r hGet hContains hFits hRegions => exact hDisjoint.set hGet hRegions rfl rfl

theorem Overwrites.bytes (h : Overwrites m m' addr data) (hDisjoint : m.Disjoint) {a : U64} {b : U8}
    (hByte : m'.ByteAt a b) : wrote addr data a = some b ∨ wrote addr data a = Option.none ∧ m.ByteAt a b := by
  cases h with
  | none hData hSame =>
    right
    refine ⟨?_, hSame ▸ hByte⟩
    rw [hData]
    rfl
  | stretch i r hGet hContains hFits hRegions => exact byteAt_splice hDisjoint hGet hContains hFits hRegions hByte

theorem poke_overwrites (h : m.poke addr data = .ok m') : Overwrites m m' addr data := by
  rcases poke_ok h with ⟨hData, hSame⟩ | ⟨-, i, r, hGet, hContains, hFits, rfl⟩
  · exact .none hData hSame
  · exact .stretch i r hGet hContains hFits (m.store_regions ..)

theorem write_overwrites (h : m.write addr data = .ok m') : Overwrites m m' addr data := by
  rcases write_ok h with ⟨hData, hSame⟩ | ⟨-, i, r, hGet, hContains, hFits, -, rfl⟩
  · exact .none hData hSame
  · exact .stretch i r hGet hContains hFits (m.store_regions ..)

theorem writeUint_overwrites {v : U64} (h : m.writeUint addr size v = .ok m') : Overwrites m m' addr (toLe size v) := by
  obtain ⟨-, i, r, hGet, hContains, hFits, -, rfl⟩ := writeUint_ok h
  exact .stretch i r hGet hContains (by rwa [length_toLe]) (m.store_regions ..)

theorem protect_performed (hSep : Separated h.mem.regions) {base size : U64} {perm : Perm}
    (hDone : (h.perform (.protect base size perm)).2.isOk = true) :
    ∃ (i : Nat) (r : Mapped), h.mem.regions[i]? = some r ∧ (h.perform (.protect base size perm)).1.mem.regions =
      h.mem.regions.set i { r with region := { r.region with perm := perm } } := by
  have hCall := alters_done (Hinted.protect_alters hSep base size perm) hDone
  cases hProtect : h.mem.protect base size perm with
  | error e =>
    rw [hProtect] at hCall
    cases hCall
  | ok done =>
    rw [hProtect] at hCall
    obtain ⟨i, r, hGet, -, -, hEq⟩ := protect_ok hProtect
    refine ⟨i, r, hGet, (congrArg regions (Except.ok.inj hCall).symm).trans ?_⟩
    rw [hEq]

theorem fillSpan_cases (hSep : Separated h.mem.regions) (addr : U64) (data : List U8) (needed : Perm) :
    ((h.fillSpan addr data needed).2 = none ∧ (h.fillSpan addr data needed).1.mem = h.mem) ∨
      ∃ i r, h.mem.regions[i]? = some r ∧ r.region.contains addr = true ∧
        addr.toNat - r.region.base.toNat + data.length ≤ r.region.size.toNat ∧
        (h.fillSpan addr data needed).2 = some () ∧
        (h.fillSpan addr data needed).1.mem = { h.mem with
          regions := h.mem.regions.set i
            { r with bytes := splice r.bytes (addr.toNat - r.region.base.toNat) data } } := by
  have hLooks := Hinted.locate_looks hSep addr data.length needed "write"
  unfold Hinted.fillSpan
  split
  · exact .inl ⟨rfl, rfl⟩
  · generalize h.locate addr data.length needed "write" = located at hLooks
    obtain ⟨s, e | ⟨i, r, start⟩⟩ := located
    · exact .inl ⟨rfl, hLooks.mem⟩
    · have hMem : s.mem = h.mem := hLooks.mem
      obtain ⟨hGet, hContains, rfl, hFits, -⟩ := locate_ok hLooks.answer.symm
      dsimp only
      split
      · exact .inl ⟨rfl, hMem⟩
      · exact .inr ⟨i, r, hGet, hContains, hFits, rfl, by rw [hMem]⟩

theorem hostSpan_cases (hSep : Separated h.mem.regions) (addr : U64) (len : Nat) (needed : Perm) :
    (h.hostSpan addr len needed).1.mem = h.mem ∧ ∀ bs, (h.hostSpan addr len needed).2 = some bs →
      ∃ (i : Nat) (r : Mapped), h.mem.regions[i]? = some r ∧ r.region.contains addr = true ∧
        addr.toNat - r.region.base.toNat + len ≤ r.region.size.toNat ∧
        bs = slice r.bytes (addr.toNat - r.region.base.toNat) len := by
  have hLooks := Hinted.locate_looks hSep addr len needed "read"
  unfold Hinted.hostSpan
  split
  · exact ⟨rfl, fun _ h => by cases h⟩
  · generalize h.locate addr len needed "read" = located at hLooks
    obtain ⟨s, e | ⟨i, r, start⟩⟩ := located
    · exact ⟨hLooks.mem, fun _ h => by cases h⟩
    · obtain ⟨hGet, hContains, rfl, hFits, -⟩ := locate_ok hLooks.answer.symm
      refine ⟨hLooks.mem, fun bs h => ?_⟩
      cases h
      exact ⟨i, r, hGet, hContains, hFits, rfl⟩

theorem readUint_mem (hSep : Separated h.mem.regions) (addr : U64) (size : Nat) :
    (h.readUint addr size).1.mem = h.mem := by
  have hMem := (Hinted.locate_looks hSep addr size Perm.READ "read").mem
  unfold Hinted.readUint
  split
  · generalize h.locate addr size Perm.READ "read" = located at hMem
    obtain ⟨s, e | l⟩ := located <;> exact hMem
  · rfl

/-! ## One call -/

structure Sound (h : Hinted) : Prop where
  wellFormed : WellFormed h.mem
  disjoint : h.mem.Disjoint

theorem sound_new : Sound Hinted.new := ⟨wellFormed_new, List.Pairwise.nil⟩

theorem call_refused (hSep : Separated h.mem.regions) {c : MemoryCall} (hRefused : (h.call c).2 = false) :
    (h.call c).1.mem = h.mem := by
  cases c with
  | op op =>
    obtain ⟨p, hAlters, -⟩ := perform_alters hSep op
    exact alters_refused hAlters hRefused
  | read addr len => exact (Hinted.read_looks hSep addr len).mem
  | fetch addr len => exact (Hinted.fetch_looks hSep addr len).mem
  | readUint addr size => exact readUint_mem hSep addr size
  | hostSpan addr len needed => exact (hostSpan_cases hSep addr len needed).1
  | fillSpan addr data needed =>
    rcases fillSpan_cases hSep addr data needed with ⟨-, hMem⟩ | ⟨i, r, -, -, -, hSome, -⟩
    · exact hMem
    · change (h.fillSpan addr data needed).2.isSome = false at hRefused
      rw [hSome] at hRefused
      cases hRefused
  | setDebug debug => cases hRefused

theorem call_wellFormed (hWf : WellFormed h.mem) (c : MemoryCall) : WellFormed (h.call c).1.mem := by
  cases c with
  | op op =>
    obtain ⟨p, hAlters, hApply⟩ := perform_alters hWf.separated op
    have hMem : (h.call (.op op)).1.mem = h.mem.apply op := hAlters.mem.trans hApply
    rw [hMem]
    exact hWf.apply op
  | read addr len => exact (Hinted.read_looks hWf.separated addr len).mem ▸ hWf
  | fetch addr len => exact (Hinted.fetch_looks hWf.separated addr len).mem ▸ hWf
  | readUint addr size => exact readUint_mem hWf.separated addr size ▸ hWf
  | hostSpan addr len needed => exact (hostSpan_cases hWf.separated addr len needed).1 ▸ hWf
  | fillSpan addr data needed =>
    rcases fillSpan_cases hWf.separated addr data needed with ⟨-, hMem⟩ | ⟨i, r, hGet, -, -, -, hMem⟩
    · exact hMem ▸ hWf
    · exact hWf.set { r with bytes := splice r.bytes (addr.toNat - r.region.base.toNat) data } hGet rfl rfl
        (congrArg regions hMem)
  | setDebug debug => exact ⟨hWf.separated, hWf.nonempty⟩

theorem inserted_admits {bytes : Nat → U8} (hInsert : m.insert region bytes = .ok m') (hSize : region.size ≠ 0)
    (hRoom : region.size.toNat < 2 ^ 63 ∧ granted = true) : m.Admits granted region := by
  rcases insert_ok hInsert with ⟨hZero, -⟩ | ⟨-, hFree, -⟩
  · exact absurd hZero hSize
  · exact ⟨hSize, hRoom, hFree⟩

theorem clear_iff_disjoint (hSound : Sound h) {bytes : Nat → U8} (hAdmits : h.mem.Admits granted region)
    (hInsert : h.mem.insert region bytes = .ok m') :
    m'.Disjoint ↔ ∀ r ∈ h.mem.regions, Region.ClearOf region r.region := by
  obtain ⟨hSize, -, hFree⟩ := hAdmits
  rw [disjoint_insert_iff hSound.disjoint hSize hInsert]
  refine forall₂_congr fun r hr => ?_
  exact (Region.clearOf_iff hSize (hSound.wellFormed.nonempty r hr) (hFree r hr)).symm

theorem perform_disjoint (hSound : Sound h)
    (hClear : ∀ granted region, op.maps = some (granted, region) → h.mem.Admits granted region →
      ∀ r ∈ h.mem.regions, Region.ClearOf region r.region) : (h.perform op).1.mem.Disjoint := by
  have hSep := hSound.wellFormed.separated
  cases hDone : (h.perform op).2.isOk with
  | false =>
    obtain ⟨p, hAlters, -⟩ := perform_alters hSep op
    rw [alters_refused hAlters hDone]
    exact hSound.disjoint
  | true =>
    cases hMaps : op.maps with
    | some gr =>
      obtain ⟨granted, region⟩ := gr
      obtain ⟨bytes, -, hInsert, hRoom⟩ := maps_inserted hMaps hDone
      by_cases hSize : region.size = 0
      · rcases insert_ok hInsert with ⟨-, hSame⟩ | ⟨hSome, -, -⟩
        · exact hSame ▸ hSound.disjoint
        · exact absurd hSize hSome
      · have hAdmits := inserted_admits hInsert hSize hRoom
        exact (clear_iff_disjoint hSound hAdmits hInsert).mpr (hClear granted region hMaps hAdmits)
    | none =>
      cases op with
      | map granted region => cases hMaps
      | mapFixed granted base size perm name => cases hMaps
      | mapWithData granted name base size data perm => cases hMaps
      | poke addr data =>
        exact (poke_overwrites (alters_done (Hinted.poke_alters hSep addr data) hDone)).disjoint hSound.disjoint
      | write addr data =>
        exact (write_overwrites (alters_done (Hinted.write_alters hSep addr data) hDone)).disjoint hSound.disjoint
      | writeUint addr size v =>
        exact (writeUint_overwrites (alters_done (Hinted.writeUint_alters hSep addr size v) hDone)).disjoint
          hSound.disjoint
      | protect base size perm =>
        obtain ⟨i, r, hGet, hRegions⟩ := protect_performed hSep hDone
        exact hSound.disjoint.set hGet hRegions rfl rfl
      | unmap base size => exact List.Pairwise.sublist (h.mem.unmap_sublist base size) hSound.disjoint

theorem call_disjoint {j : Journaled} (hSound : Sound j.now) {c : MemoryCall} (hClear : Clears j c) :
    (j.now.call c).1.mem.Disjoint := by
  have hSep := hSound.wellFormed.separated
  cases c with
  | op op => exact perform_disjoint hSound hClear
  | read addr len => exact (Hinted.read_looks hSep addr len).mem ▸ hSound.disjoint
  | fetch addr len => exact (Hinted.fetch_looks hSep addr len).mem ▸ hSound.disjoint
  | readUint addr size => exact readUint_mem hSep addr size ▸ hSound.disjoint
  | hostSpan addr len needed => exact (hostSpan_cases hSep addr len needed).1 ▸ hSound.disjoint
  | fillSpan addr data needed =>
    rcases fillSpan_cases hSep addr data needed with ⟨-, hMem⟩ | ⟨i, r, hGet, -, -, -, hMem⟩
    · exact hMem ▸ hSound.disjoint
    · exact hSound.disjoint.set hGet (congrArg regions hMem) rfl rfl
  | setDebug debug => exact hSound.disjoint

theorem perform_bytes (hSound : Sound h) (hDisjoint : (h.perform op).1.mem.Disjoint)
    (hDone : (h.perform op).2.isOk = true) {a : U64} {b : U8} (hByte : (h.perform op).1.mem.ByteAt a b) :
    op.assigns a = some b ∨ op.assigns a = none ∧ h.mem.ByteAt a b := by
  have hSep := hSound.wellFormed.separated
  cases hMaps : op.maps with
  | some gr =>
    obtain ⟨granted, region⟩ := gr
    obtain ⟨bytes, hAssigns, hInsert, -⟩ := maps_inserted hMaps hDone
    rw [hAssigns]
    exact byteAt_insert hInsert hDisjoint hByte
  | none =>
    cases op with
    | map granted region => cases hMaps
    | mapFixed granted base size perm name => cases hMaps
    | mapWithData granted name base size data perm => cases hMaps
    | poke addr data =>
      exact (poke_overwrites (alters_done (Hinted.poke_alters hSep addr data) hDone)).bytes hSound.disjoint hByte
    | write addr data =>
      exact (write_overwrites (alters_done (Hinted.write_alters hSep addr data) hDone)).bytes hSound.disjoint hByte
    | writeUint addr size v =>
      exact (writeUint_overwrites (alters_done (Hinted.writeUint_alters hSep addr size v) hDone)).bytes
        hSound.disjoint hByte
    | protect base size perm =>
      obtain ⟨i, r, hGet, hRegions⟩ := protect_performed hSep hDone
      exact .inr ⟨rfl, byteAt_protect hGet hRegions hByte⟩
    | unmap base size => exact .inr ⟨rfl, byteAt_unmap hByte⟩

/-- The invariant of the run: the bytes held are those of the journal. -/
structure Kept (j : Journaled) : Prop where
  sound : Sound j.now
  mirrors : Journal.Mirrors j.now.mem.ByteAt j.log

theorem kept_new : Kept new where
  sound := sound_new
  mirrors a b hByte := by
    obtain ⟨r, hr, -⟩ := hByte
    cases hr

variable {j : Journaled} {c : MemoryCall}

theorem next_mirrors (h : Kept j) (hDisjoint : (j.now.call c).1.mem.Disjoint) :
    Journal.Mirrors (j.next c).now.mem.ByteAt (j.next c).log := by
  have hSep := h.sound.wellFormed.separated
  cases hDone : (j.now.call c).2 with
  | false =>
    have hSame : (j.next c).now.mem = j.now.mem := call_refused hSep hDone
    refine h.mirrors.forget (fun a => ?_) fun a b hByte => hSame ▸ hByte
    rw [hDone]
    rfl
  | true =>
    refine h.mirrors.push fun a b hByte => ?_
    rw [hDone, if_pos rfl]
    cases c with
    | op op => exact perform_bytes h.sound hDisjoint hDone hByte
    | read addr len => exact .inr ⟨rfl, (Hinted.read_looks hSep addr len).mem ▸ hByte⟩
    | fetch addr len => exact .inr ⟨rfl, (Hinted.fetch_looks hSep addr len).mem ▸ hByte⟩
    | readUint addr size => exact .inr ⟨rfl, readUint_mem hSep addr size ▸ hByte⟩
    | hostSpan addr len needed => exact .inr ⟨rfl, (hostSpan_cases hSep addr len needed).1 ▸ hByte⟩
    | fillSpan addr data needed =>
      rcases fillSpan_cases hSep addr data needed with ⟨hNone, -⟩ | ⟨i, r, hGet, hContains, hFits, -, hMem⟩
      · change (j.now.fillSpan addr data needed).2.isSome = true at hDone
        rw [hNone] at hDone
        cases hDone
      · exact byteAt_splice h.sound.disjoint hGet hContains hFits (congrArg regions hMem) hByte
    | setDebug debug => exact .inr ⟨rfl, hByte⟩

theorem next_kept (h : Kept j) (hClear : Clears j c) : Kept (j.next c) where
  sound := ⟨call_wellFormed h.sound.wellFormed c, call_disjoint h.sound hClear⟩
  mirrors := next_mirrors h (call_disjoint h.sound hClear)

/-! ## What the invariant says of the reads -/

theorem seen_slice (h : Kept j) {i : Nat} {r : Mapped} (hGet : j.now.mem.regions[i]? = some r) {len : Nat}
    (hContains : r.region.contains addr = true) (hFits : addr.toNat - r.region.base.toNat + len ≤ r.region.size.toNat) :
    Seen j.log addr len (slice r.bytes (addr.toNat - r.region.base.toNat) len) := by
  refine ⟨length_slice .., fun k b hByte => ?_⟩
  obtain ⟨hk, hAt⟩ := List.getElem?_eq_some_iff.mp hByte
  rw [length_slice] at hk
  have hSlice : r.bytes (addr.toNat - r.region.base.toNat + k) = b := by
    rw [← hAt]
    simp [slice]
  exact h.mirrors _ _ (hSlice ▸ byteAt_slice hGet hContains hFits hk)

theorem fetch_ok {len : Nat} {bs : List U8} (h : m.fetch addr len = .ok bs) (hLen : len ≠ 0) :
    ∃ (i : Nat) (r : Mapped), m.regions[i]? = some r ∧ r.region.contains addr = true ∧
      addr.toNat - r.region.base.toNat + len ≤ r.region.size.toNat ∧
      bs = slice r.bytes (addr.toNat - r.region.base.toNat) len := by
  unfold VirtualMemory.fetch at h
  rw [if_neg hLen] at h
  cases hLocate : m.locate addr len Perm.EXEC "execute" with
  | error e =>
    rw [hLocate] at h
    cases h
  | ok p =>
    obtain ⟨i, r, start⟩ := p
    rw [hLocate] at h
    cases h
    obtain ⟨hGet, hContains, rfl, hFits, -⟩ := locate_ok hLocate
    exact ⟨i, r, hGet, hContains, hFits, rfl⟩

theorem seen_nil (log : Journal U64 U8) (addr : U64) : Seen log addr 0 [] := ⟨rfl, fun k b h => by simp at h⟩

theorem readUint_view (h : Hinted) (hSize : isUintSize size = true) :
    h.readUint addr size = ((h.read addr size).1, (h.read addr size).2.map fromLe) := by
  have hPos := (uintSize_pos hSize).1
  unfold Hinted.readUint Hinted.read
  rw [if_pos hSize, if_neg (by omega)]
  generalize h.locate addr size Perm.READ "read" = located
  obtain ⟨s, e | l⟩ := located <;> rfl

theorem writeUint_view (h : Hinted) {v : U64} (hSize : isUintSize size = true) :
    h.writeUint addr size v = h.write addr (toLe size v) := by
  have hPos := (uintSize_pos hSize).1
  have hSome : (toLe size v).isEmpty = false := by
    rw [← Bool.not_eq_true, List.isEmpty_iff_length_eq_zero, length_toLe]
    omega
  unfold Hinted.writeUint Hinted.write
  rw [if_pos hSize, hSome, length_toLe]
  rfl

theorem Kept.faithful (h : Kept j) : Faithful j := by
  have hSep := h.sound.wellFormed.separated
  exact {
    sorted := h.sound.wellFormed.sorted h.sound.disjoint
    nonempty := h.sound.wellFormed.nonempty
    disjoint := h.sound.disjoint
    lookup := Hinted.findIdx_linear hSep
    read := fun addr len bs hRead => by
      rw [(Hinted.read_looks hSep addr len).answer] at hRead
      by_cases hLen : len = 0
      · subst hLen
        cases hRead
        exact seen_nil j.log addr
      · obtain ⟨i, r, hGet, hContains, hFits, -, rfl⟩ := read_ok hRead hLen
        exact seen_slice h hGet hContains hFits
    fetch := fun addr len bs hFetch => by
      rw [(Hinted.fetch_looks hSep addr len).answer] at hFetch
      by_cases hLen : len = 0
      · subst hLen
        cases hFetch
        exact seen_nil j.log addr
      · obtain ⟨i, r, hGet, hContains, hFits, rfl⟩ := fetch_ok hFetch hLen
        exact seen_slice h hGet hContains hFits
    hostSpan := fun addr len needed bs hSpan => by
      obtain ⟨i, r, hGet, hContains, hFits, rfl⟩ := (hostSpan_cases hSep addr len needed).2 bs hSpan
      exact seen_slice h hGet hContains hFits
    readUint := fun _ _ hSize => readUint_view j.now hSize
    writeUint := fun _ _ _ hSize => writeUint_view j.now hSize
    refused := fun _ hRefused => call_refused hSep hRefused }

/-! ## Over a whole run -/

theorem admits_inserts (hAdmits : m.Admits granted region) (bytes : Nat → U8) :
    ∃ mem, m.insert region bytes = .ok mem := by
  obtain ⟨hSize, -, hFree⟩ := hAdmits
  unfold VirtualMemory.insert
  rw [if_neg hSize, if_neg]
  · exact ⟨_, rfl⟩
  · rw [List.any_eq_true]
    rintro ⟨r, hr, hOverlap⟩
    exact hFree r hr (by simpa using hOverlap)

theorem admits_zeroed (hAdmits : m.Admits granted region) : zeroed granted region.size = .ok fun _ => 0 := by
  obtain ⟨-, ⟨hSize, rfl⟩, -⟩ := hAdmits
  exact if_pos (by simpa using hSize)

theorem admits_map (hAdmits : m.Admits granted region) : ∃ mem, m.map granted region = .ok mem := by
  obtain ⟨mem, hInsert⟩ := admits_inserts hAdmits fun _ => 0
  unfold VirtualMemory.map
  rw [admits_zeroed hAdmits]
  exact ⟨mem, hInsert⟩

theorem admits_done (hMaps : op.maps = some (granted, region)) (hAdmits : h.mem.Admits granted region) :
    (h.perform op).2.isOk = true := by
  have hLaid : ∀ {p : Result VirtualMemory}, (∃ mem, p = .ok mem) → (h.laidOut p).2.isOk = true := by
    rintro p ⟨mem, rfl⟩
    rfl
  cases op with
  | map g r =>
    cases hMaps
    exact hLaid (admits_map hAdmits)
  | mapFixed g base size perm name =>
    cases hMaps
    exact hLaid (admits_map hAdmits)
  | mapWithData g name base size data perm =>
    cases hMaps
    obtain ⟨mem, hInsert⟩ := admits_inserts hAdmits (splice (fun _ => 0) 0 data)
    refine hLaid (p := h.mem.mapWithData granted name base size data perm) ⟨mem, ?_⟩
    have hZero := admits_zeroed hAdmits
    dsimp only at hZero
    unfold VirtualMemory.mapWithData
    dsimp only
    rw [hZero]
    exact hInsert
  | poke addr data => cases hMaps
  | write addr data => cases hMaps
  | writeUint addr size v => cases hMaps
  | protect base size perm => cases hMaps
  | unmap base size => cases hMaps

theorem clears_of_disjoint (hSound : Sound j.now) (hDisjoint : (j.next c).now.mem.Disjoint) : Clears j c := by
  intro granted region hMaps hAdmits
  cases c with
  | op op =>
    obtain ⟨bytes, -, hInsert, -⟩ := maps_inserted hMaps (admits_done hMaps hAdmits)
    exact (clear_iff_disjoint hSound hAdmits hInsert).mp hDisjoint
  | read addr len => cases hMaps
  | fetch addr len => cases hMaps
  | readUint addr size => cases hMaps
  | hostSpan addr len needed => cases hMaps
  | fillSpan addr data needed => cases hMaps
  | setDebug debug => cases hMaps

theorem run_kept {calls : List MemoryCall} (h : Along next Clears new calls) : Kept (run calls) :=
  h.keeps (J := Kept) (fun _ _ _ hKept hClear => next_kept hKept hClear) kept_new

theorem run_wellFormed (calls : List MemoryCall) : WellFormed (run calls).now.mem := by
  have hAll : ∀ (j : Journaled), WellFormed j.now.mem → WellFormed (calls.foldl next j).now.mem := by
    induction calls with
    | nil => exact fun _ h => h
    | cons c calls ih => exact fun j h => ih (j.next c) (call_wellFormed h c)
  exact hAll new wellFormed_new

/-- Every state of a run is faithful to the byte map if and only if every mapping the run lets through
is clear of the regions there are. -/
theorem faithful_iff_clears (calls : List MemoryCall) :
    (∀ n, Faithful (run (calls.take n))) ↔ Along next Clears new calls := by
  constructor
  · intro hAll
    refine Along.of_at fun n c hGet => ?_
    have hHere := hAll n
    have hNext := hAll (n + 1)
    have hStep : run (calls.take (n + 1)) = (run (calls.take n)).next c := by
      unfold run
      rw [List.take_add_one, hGet]
      simp
    rw [hStep] at hNext
    exact clears_of_disjoint ⟨run_wellFormed _, hHere.disjoint⟩ hNext.disjoint
  · exact fun h n => (run_kept (h.take n)).faithful

def topCalls : List MemoryCall :=
  [.op (.map true ⟨"top", 0xFFFFFFFFFFFFF000, 0x1000, Perm.RW⟩),
    .op (.map true ⟨"last", 0xFFFFFFFFFFFFFFFF, 1, Perm.RW⟩)]

theorem not_pairwise_of_both {rs : List Mapped} {a : U64}
    (h : (rs.map fun m => (m.region.name, m.region.holds a)) = [("top", true), ("last", true)]) :
    ¬rs.Pairwise fun x y => ∀ a, ¬(x.region.holds a = true ∧ y.region.holds a = true) := by
  intro hDisjoint
  cases rs with
  | nil => cases h
  | cons x rs =>
    cases rs with
    | nil => simp at h
    | cons y rs =>
      rw [List.map_cons, List.map_cons, List.cons.injEq, List.cons.injEq, Prod.mk.injEq, Prod.mk.injEq] at h
      exact (List.pairwise_cons.mp hDisjoint).1 y List.mem_cons_self a ⟨h.1.2, h.2.1.2⟩

/-- Both mappings are let through, and both hold the last address. -/
theorem last_address_mapped_twice :
    ((run topCalls).now.mem.regions.map fun m => (m.region.name, m.region.holds 0xFFFFFFFFFFFFFFFF)) =
        [("top", true), ("last", true)] ∧
      ¬∀ (calls : List MemoryCall) (n : Nat), Faithful (run (calls.take n)) := by
  have hBoth : ((run topCalls).now.mem.regions.map fun m => (m.region.name, m.region.holds 0xFFFFFFFFFFFFFFFF)) =
      [("top", true), ("last", true)] := by decide
  refine ⟨hBoth, fun hAll => ?_⟩
  have hFaithful := hAll topCalls topCalls.length
  rw [List.take_length] at hFaithful
  exact not_pairwise_of_both hBoth hFaithful.disjoint

end Journaled
end Exemu
