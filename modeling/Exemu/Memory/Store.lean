import Exemu.Memory.Generation
import Mathlib.Data.List.Nodup

/-! # Stores, and what they leave alone

The three writers replace bytes of one region.
-/
namespace Exemu.VirtualMemory
open Stamp

structure SameLayout (m m' : VirtualMemory) : Prop where
  shapes : m'.regions.map (fun r => (r.region, r.host)) = m.regions.map fun r => (r.region, r.host)
  layoutGen : m'.layoutGen = m.layoutGen
  debug : m'.debug = m.debug
  nextHost : m'.nextHost = m.nextHost

structure Hosted (m : VirtualMemory) : Prop where
  distinct : (m.regions.map Mapped.host).Nodup
  below : ∀ r ∈ m.regions, r.host < m.nextHost

namespace SameLayout

variable {m m' m'' : VirtualMemory}

theorem refl (m : VirtualMemory) : SameLayout m m := ⟨rfl, rfl, rfl, rfl⟩

theorem trans (h : SameLayout m m') (h' : SameLayout m' m'') : SameLayout m m'' :=
  ⟨h'.shapes.trans h.shapes, h'.layoutGen.trans h.layoutGen, h'.debug.trans h.debug,
    h'.nextHost.trans h.nextHost⟩

theorem symm (h : SameLayout m m') : SameLayout m' m :=
  ⟨h.shapes.symm, h.layoutGen.symm, h.debug.symm, h.nextHost.symm⟩

variable {r : Mapped}

theorem get (h : SameLayout m m') {i : Nat} (hGet : m'.regions[i]? = some r) :
    ∃ old, m.regions[i]? = some old ∧ r.region = old.region ∧ r.host = old.host := by
  have hShape : (m'.regions.map fun r => (r.region, r.host))[i]? = some (r.region, r.host) := by
    rw [List.getElem?_map, hGet]
    rfl
  rw [h.shapes, List.getElem?_map] at hShape
  obtain ⟨old, hOld, hEq⟩ := Option.map_eq_some_iff.mp hShape
  exact ⟨old, hOld, (Prod.mk.inj hEq).1.symm, (Prod.mk.inj hEq).2.symm⟩

theorem mem (h : SameLayout m m') (hMem : r ∈ m'.regions) :
    ∃ old ∈ m.regions, r.region = old.region ∧ r.host = old.host := by
  obtain ⟨i, hi⟩ := List.getElem?_of_mem hMem
  obtain ⟨old, hOld, hSame⟩ := h.get hi
  exact ⟨old, List.mem_of_getElem? hOld, hSame⟩

theorem hosted (h : SameLayout m m') (hHosted : Hosted m) : Hosted m' where
  distinct := by
    have hHosts : m'.regions.map Mapped.host = m.regions.map Mapped.host := by
      have hSecond := congrArg (List.map Prod.snd) h.shapes
      simpa [List.map_map, Function.comp_def] using hSecond
    rw [hHosts]
    exact hHosted.distinct
  below r hr := by
    obtain ⟨old, hOld, -, hHost⟩ := h.mem hr
    rw [hHost, h.nextHost]
    exact hHosted.below old hOld

theorem set {i : Nat} (hGet : m.regions[i]? = some r) (bytes : Nat → U8) :
    SameLayout m { m with regions := m.regions.set i { r with bytes := bytes } } := by
  refine ⟨?_, rfl, rfl, rfl⟩
  apply List.ext_getElem?
  intro j
  rw [List.getElem?_map, List.getElem?_map]
  by_cases hij : i = j
  · subst hij
    rw [List.getElem?_set_self (List.getElem?_eq_some_iff.mp hGet).1, hGet]
    rfl
  · rw [List.getElem?_set_ne hij]

end SameLayout

theorem hosted_new : Hosted new := ⟨List.nodup_nil, nofun⟩

variable {m : VirtualMemory}

theorem Hosted.insert {m' : VirtualMemory} (h : Hosted m) {region : Region} {bytes : Nat → U8}
    (hInsert : m.insert region bytes = .ok m') : Hosted m' := by
  rcases insert_ok hInsert with ⟨_, rfl⟩ | ⟨_, _, rfl⟩
  · exact h
  generalize partitionPoint (fun r => decide (r.region.base < region.base)) m.regions = n
  have hPerm : (m.regions.take n ++ ⟨region, bytes, m.nextHost⟩ :: m.regions.drop n).Perm
      (⟨region, bytes, m.nextHost⟩ :: m.regions) := by
    have hMiddle : (m.regions.take n ++ ⟨region, bytes, m.nextHost⟩ :: m.regions.drop n).Perm
        (⟨region, bytes, m.nextHost⟩ :: (m.regions.take n ++ m.regions.drop n)) := List.perm_middle
    rwa [List.take_append_drop] at hMiddle
  constructor
  · rw [(hPerm.map Mapped.host).nodup_iff, List.map_cons, List.nodup_cons]
    refine ⟨fun hMem => ?_, h.distinct⟩
    obtain ⟨r, hr, hHost⟩ := List.mem_map.mp hMem
    exact absurd hHost (Nat.ne_of_lt (h.below r hr))
  · intro r hr
    rcases List.mem_cons.mp (hPerm.mem_iff.mp hr) with rfl | hr
    · exact Nat.lt_succ_self _
    · exact Nat.lt_succ_of_lt (h.below r hr)

theorem Hosted.unmap (h : Hosted m) (base size : U64) : Hosted (m.unmap base size) where
  distinct := ((m.unmap_sublist base size).map Mapped.host).nodup h.distinct
  below r hr := h.below r ((m.unmap_sublist base size).subset hr)

theorem Hosted.unique (h : Hosted m) {r s : Mapped} (hr : r ∈ m.regions) (hs : s ∈ m.regions)
    (hHost : r.host = s.host) : r = s :=
  List.inj_on_of_nodup_map h.distinct hr hs hHost

/-- A store of `data` at `addr` that goes through. -/
structure Stores (m : VirtualMemory) (addr : U64) (data : List U8) (m' : VirtualMemory) : Prop where
  nonempty : data ≠ []
  hit : ∃ i r, m.regions[i]? = some r ∧ r.region.contains addr = true ∧
    addr.toNat - r.region.base.toNat + data.length ≤ r.region.size.toNat ∧
    m' = m.store i r addr (addr.toNat - r.region.base.toNat) data

theorem stores_writeUint {m' : VirtualMemory} {addr : U64} {size : Nat} {v : U64}
    (h : m.writeUint addr size v = .ok m') : Stores m addr (toLe size v) m' := by
  obtain ⟨hSize, i, r, hGet, hContains, hFits, -, hEq⟩ := writeUint_ok h
  refine ⟨fun hNil => ?_, i, r, hGet, hContains, by rwa [length_toLe], hEq⟩
  have hLength := congrArg List.length hNil
  rw [length_toLe] at hLength
  subst hLength
  cases hSize

/-- A write of `len` bytes at `addr` moves counters that are not at their end. -/
structure Counted (m : VirtualMemory) (addr : U64) (len : Nat) : Prop where
  pages : m.NoWrap addr len
  global : m.codeGen ≠ BitVec.allOnes 64

/-- What the counters of two moments owe each other: the pages' theirs, the global one theirs in turn. -/
structure Tracks (m m' : VirtualMemory) : Prop where
  covers : Covers fetchByte codeStamp m m'
  mono : m.codeGen.toNat ≤ m'.codeGen.toNat
  same : m.codeGen = m'.codeGen → m.pageGen = m'.pageGen

namespace Tracks

variable {m m' m'' : VirtualMemory}

theorem refl (m : VirtualMemory) : Tracks m m := ⟨.refl m, le_rfl, fun _ => rfl⟩

theorem trans (h : Tracks m m') (h' : Tracks m' m'') : Tracks m m'' where
  covers := h.covers.trans h'.covers
  mono := h.mono.trans h'.mono
  same hEq := by
    have hMiddle : m.codeGen = m'.codeGen := by
      apply BitVec.eq_of_toNat_eq
      have hFirst := h.mono
      have hSecond := h'.mono
      rw [← hEq] at hSecond
      omega
    exact (h.same hMiddle).trans (h'.same (hMiddle.symm.trans hEq))

theorem of_silent (hView : ∀ a, m.fetchByte a = m'.fetchByte a) (hCode : m'.codeGen = m.codeGen)
    (hPage : m'.pageGen = m.pageGen) : Tracks m m' where
  covers := by
    refine ⟨fun a => ?_, fun a hNot => absurd (hView a) hNot⟩
    unfold codeStamp codePageGeneration
    rw [hPage]
  mono := by rw [hCode]
  same _ := hPage.symm

end Tracks

namespace Stores

variable {m m' : VirtualMemory} {addr : U64} {data : List U8}

theorem sameLayout (h : Stores m addr data m') : SameLayout m m' := by
  obtain ⟨i, r, hGet, -, -, rfl⟩ := h.hit
  have hSet := SameLayout.set hGet (splice r.bytes (addr.toNat - r.region.base.toNat) data)
  unfold store
  dsimp only
  split
  · exact ⟨hSet.shapes, rfl, rfl, rfl⟩
  · exact hSet

theorem wellFormed (h : Stores m addr data m') (hWf : WellFormed m) : WellFormed m' := by
  obtain ⟨i, r, hGet, -, -, rfl⟩ := h.hit
  exact hWf.store hGet _ _ _

theorem fetchByte_eq (h : Stores m addr data m') (hWf : WellFormed m) {a : U64}
    (hOut : ¬(addr.toNat ≤ a.toNat ∧ a.toNat < addr.toNat + data.length)) :
    m.fetchByte a = m'.fetchByte a := by
  obtain ⟨i, r, hGet, hContains, -, rfl⟩ := h.hit
  apply fetchByte_set hWf.separated
    { r with bytes := splice r.bytes (addr.toNat - r.region.base.toNat) data } hGet rfl rfl
    (m.store_regions i r addr _ data)
  intro hHolds
  refine ⟨rfl, fun _ => ?_⟩
  obtain ⟨hLow, -⟩ := (Region.contains_iff _ _).mp hHolds
  obtain ⟨hLow', -⟩ := (Region.contains_iff _ _).mp hContains
  change splice r.bytes _ data _ = _
  unfold splice
  rw [if_neg]
  rintro ⟨hFrom, hTo⟩
  exact hOut ⟨by omega, by omega⟩

theorem fetchByte_plain (h : Stores m addr data m') (hWf : WellFormed m)
    (hPlain : ∀ r, m.regionAt addr = some r → r.region.perm.contains Perm.EXEC = false) (a : U64) :
    m.fetchByte a = m'.fetchByte a := by
  obtain ⟨i, r, hGet, hContains, -, rfl⟩ := h.hit
  have hAt : m.regionAt addr = some r :=
    (regionAt_eq_some_iff hWf.separated).mpr ⟨List.mem_of_getElem? hGet, hContains⟩
  apply fetchByte_set hWf.separated
    { r with bytes := splice r.bytes (addr.toNat - r.region.base.toNat) data } hGet rfl rfl
    (m.store_regions i r addr _ data)
  refine fun _ => ⟨rfl, fun hExec => ?_⟩
  rw [hPlain r hAt] at hExec
  cases hExec

theorem tracks (h : Stores m addr data m') (hWf : WellFormed m)
    (hCounted : ∀ r, m.regionAt addr = some r → r.region.perm.contains Perm.EXEC = true →
      m.Counted addr data.length) : Tracks m m' := by
  obtain ⟨i, r, hGet, hContains, -, rfl⟩ := h.hit
  have hAt : m.regionAt addr = some r :=
    (regionAt_eq_some_iff hWf.separated).mpr ⟨List.mem_of_getElem? hGet, hContains⟩
  have hCovers := covers_store hWf hGet hContains h.nonempty fun hExec => (hCounted r hAt hExec).pages
  by_cases hExec : r.region.perm.contains Perm.EXEC = true
  · have hGen : (m.store i r addr (addr.toNat - r.region.base.toNat) data).codeGen = m.codeGen + 1 := by
      unfold store
      dsimp only
      rw [if_pos hExec]
      rfl
    have hNext := add_one_toNat_of_ne_allOnes (hCounted r hAt hExec).global
    refine ⟨hCovers, by rw [hGen]; omega, fun hEq => ?_⟩
    rw [hGen] at hEq
    have hNat := congrArg BitVec.toNat hEq
    omega
  · have hSame : (m.store i r addr (addr.toNat - r.region.base.toNat) data).codeGen = m.codeGen ∧
        (m.store i r addr (addr.toNat - r.region.base.toNat) data).pageGen = m.pageGen := by
      unfold store
      dsimp only
      rw [if_neg hExec]
      exact ⟨rfl, rfl⟩
    exact ⟨hCovers, by rw [hSame.1], fun _ => hSame.2.symm⟩

end Stores

end Exemu.VirtualMemory

namespace Exemu

def MemoryOp.written : MemoryOp → Option (U64 × List U8)
  | .poke addr data => some (addr, data)
  | .write addr data => some (addr, data)
  | .writeUint addr size v => some (addr, toLe size v)
  | _ => none

end Exemu

namespace Exemu.VirtualMemory

variable {m : VirtualMemory}

theorem apply_written {op : MemoryOp} {addr : U64} {data : List U8} (h : op.written = some (addr, data)) :
    m.apply op = m ∨ Stores m addr data (m.apply op) := by
  have hKeep : ∀ r : Result VirtualMemory, (∀ m', r = .ok m' → m' = m ∨ Stores m addr data m') →
      m.orKeep r = m ∨ Stores m addr data (m.orKeep r) := by
    intro r hr
    cases r with
    | ok m' => exact hr m' rfl
    | error e => exact .inl rfl
  cases op with
  | poke addr data =>
    cases h
    refine hKeep _ fun m' hPoke => ?_
    rcases poke_ok hPoke with ⟨_, rfl⟩ | ⟨hData, i, r, hGet, hContains, hFits, hEq⟩
    · exact .inl rfl
    · exact .inr ⟨hData, i, r, hGet, hContains, hFits, hEq⟩
  | write addr data =>
    cases h
    refine hKeep _ fun m' hWrite => ?_
    rcases write_ok hWrite with ⟨_, rfl⟩ | ⟨hData, i, r, hGet, hContains, hFits, _, hEq⟩
    · exact .inl rfl
    · exact .inr ⟨hData, i, r, hGet, hContains, hFits, hEq⟩
  | writeUint addr size v =>
    cases h
    exact hKeep _ fun m' hWrite => .inr (stores_writeUint hWrite)
  | map granted region => cases h
  | mapFixed granted base size perm name => cases h
  | mapWithData granted name base size data perm => cases h
  | protect base size perm => cases h
  | unmap base size => cases h

theorem Hosted.apply (h : Hosted m) (op : MemoryOp) : Hosted (m.apply op) := by
  have hKeep : ∀ r : Result VirtualMemory, (∀ m', r = .ok m' → Hosted m') → Hosted (m.orKeep r) := by
    intro r hr
    cases r with
    | ok m' => exact hr m' rfl
    | error e => exact h
  have hWrite : ∀ {op : MemoryOp} {addr : U64} {data : List U8}, op.written = some (addr, data) →
      Hosted (m.apply op) := by
    intro op addr data hOp
    rcases apply_written hOp with hEq | hStores
    · rw [hEq]
      exact h
    · exact hStores.sameLayout.hosted h
  cases op with
  | map granted region =>
    refine hKeep _ fun m' hMap => ?_
    obtain ⟨-, bytes, hInsert⟩ := map_ok hMap
    exact h.insert hInsert
  | mapFixed granted base size perm name =>
    refine hKeep _ fun m' hMap => ?_
    obtain ⟨-, bytes, hInsert⟩ := map_ok hMap
    exact h.insert hInsert
  | mapWithData granted name base size data perm =>
    refine hKeep _ fun m' hMap => ?_
    obtain ⟨-, bytes, hInsert⟩ := mapWithData_ok hMap
    exact h.insert hInsert
  | poke addr data => exact @hWrite (.poke addr data) _ _ rfl
  | write addr data => exact @hWrite (.write addr data) _ _ rfl
  | writeUint addr size v => exact @hWrite (.writeUint addr size v) _ _ rfl
  | protect base size perm =>
    refine hKeep _ fun m' hProtect => ?_
    cases hCall : m.protect base size perm with
    | error e => rw [hCall] at hProtect; cases hProtect
    | ok p =>
      rw [hCall] at hProtect
      cases hProtect
      obtain ⟨i, r, hGet, -, -, hEq⟩ := protect_ok hCall
      have hHosts : (m.regions.set i { r with region := { r.region with perm := perm } }).map Mapped.host =
          m.regions.map Mapped.host := by
        obtain ⟨hi, rfl⟩ := List.getElem?_eq_some_iff.mp hGet
        rw [List.map_set]
        conv_rhs => rw [← @List.set_getElem_self _ (m.regions.map Mapped.host) i (by simpa using hi)]
        rw [List.getElem_map]
      rw [hEq]
      refine ⟨by rw [hHosts]; exact h.distinct, fun s hs => ?_⟩
      rcases List.mem_or_eq_of_mem_set hs with hs | rfl
      · exact h.below s hs
      · exact h.below r (List.mem_of_getElem? hGet)
  | unmap base size => exact h.unmap base size

theorem apply_layout (m : VirtualMemory) (op : MemoryOp) :
    SameLayout m (m.apply op) ∨ op.written = none ∧ (m.apply op).layoutGen = m.layoutGen + 1 := by
  have hInsert : ∀ {region : Region} {bytes : Nat → U8} {m' : VirtualMemory}, m.insert region bytes = .ok m' →
      SameLayout m m' ∨ m'.layoutGen = m.layoutGen + 1 := by
    intro region bytes m' hOk
    rcases insert_ok hOk with ⟨-, rfl⟩ | ⟨-, -, rfl⟩
    · exact .inl (.refl _)
    · exact .inr rfl
  have hKeep : ∀ r : Result VirtualMemory, (∀ m', r = .ok m' → SameLayout m m' ∨ m'.layoutGen = m.layoutGen + 1) →
      SameLayout m (m.orKeep r) ∨ (m.orKeep r).layoutGen = m.layoutGen + 1 := by
    intro r hr
    cases r with
    | ok m' => exact hr m' rfl
    | error e => exact .inl (.refl m)
  have hWrite : ∀ {op : MemoryOp} {addr : U64} {data : List U8}, op.written = some (addr, data) →
      SameLayout m (m.apply op) := by
    intro op addr data hOp
    rcases apply_written hOp with hEq | hStores
    · rw [hEq]
      exact .refl m
    · exact hStores.sameLayout
  cases op with
  | map granted region =>
    refine (hKeep _ fun m' hMap => ?_).imp_right fun h => ⟨rfl, h⟩
    obtain ⟨-, bytes, hOk⟩ := map_ok hMap
    exact hInsert hOk
  | mapFixed granted base size perm name =>
    refine (hKeep _ fun m' hMap => ?_).imp_right fun h => ⟨rfl, h⟩
    obtain ⟨-, bytes, hOk⟩ := map_ok hMap
    exact hInsert hOk
  | mapWithData granted name base size data perm =>
    refine (hKeep _ fun m' hMap => ?_).imp_right fun h => ⟨rfl, h⟩
    obtain ⟨-, bytes, hOk⟩ := mapWithData_ok hMap
    exact hInsert hOk
  | poke addr data => exact .inl (@hWrite (.poke addr data) _ _ rfl)
  | write addr data => exact .inl (@hWrite (.write addr data) _ _ rfl)
  | writeUint addr size v => exact .inl (@hWrite (.writeUint addr size v) _ _ rfl)
  | protect base size perm =>
    refine (hKeep _ fun m' hProtect => ?_).imp_right fun h => ⟨rfl, h⟩
    cases hCall : m.protect base size perm with
    | error e => rw [hCall] at hProtect; cases hProtect
    | ok p =>
      rw [hCall] at hProtect
      cases hProtect
      obtain ⟨i, r, hGet, -, -, hEq⟩ := protect_ok hCall
      rw [hEq]
      exact .inr rfl
  | unmap base size => exact .inr ⟨rfl, rfl⟩

theorem hosted_history (h : Hosted m) (ops : List MemoryOp) : Hosted (m.history ops) := by
  induction ops generalizing m with
  | nil => exact h
  | cons op ops ih => exact ih (h.apply op)

end Exemu.VirtualMemory
