import Exemu.Memory.Window
import Exemu.Os.Section

/-! # What a view shows

A view that is placed where it fits, by a call whose pointers can be written, shows the content of
its section and is recorded; unmapping it takes away its region and its record, and nothing else.
-/
namespace Exemu.Os

open List

open VirtualMemory Fallible

namespace Sections

variable {s s' : State} {g : Region} {f : Nat → U8}

/-! ## Content -/

def ImageSection.covers (sec : ImageSection) (i : Nat) : Bool :=
  decide (sec.rva.toNat ≤ i) && decide (i < sec.rva.toNat + min sec.virtualSize.toNat sec.data.length)

def imageByte (img : SectionImage) (i : Nat) : U8 :=
  img.sections.foldl (fun b sec => if sec.covers i then sec.data.getD (i - sec.rva.toNat) 0 else b) (img.headers.getD i 0)

structure View where
  size : U64
  low : Bool
  name : String
  byte : Nat → U8

inductive Asks (s : State) (sec : Section) (offsetPtr sizePtr : U64) : View → Prop
  | image (img : SectionImage) (hImage : sec.image = some img) : Asks s sec offsetPtr sizePtr ⟨imageSize img, !img.is64bit, "image-view", imageByte img⟩
  | flat (offset want : U64) (hImage : sec.image = none) (hOffset : readAt offsetPtr s = some (.ok offset, s))
      (hWant : readAt sizePtr s = some (.ok want, s)) :
      Asks s sec offsetPtr sizePtr
        ⟨flatSize sec offset want, s.sys.os.wow64Peb32 ≠ 0, "section-view", fun i => sec.data.getD (offset.toNat + i) 0⟩

/-! ## What is to hold -/

structure Shows (s s' : State) (base : U64) (view : View) : Prop where
  layout : ∀ r, r ∈ s'.sys.mem.layout ↔ r = (base, view.size) ∨ r ∈ s.sys.mem.layout
  record : ∀ a, a ∈ s'.sys.os.vmAllocs ↔ a = ⟨base, view.size, true⟩ ∨ a ∈ s.sys.os.vmAllocs
  bytes : ∀ i, i < view.size.toNat → s'.sys.mem.peek (base + BitVec.ofNat 64 i) = some (view.byte i)

structure Untouched (s s' : State) : Prop where
  regions : s'.sys.mem.regions = s.sys.mem.regions
  records : s'.sys.os.vmAllocs = s.sys.os.vmAllocs
  views : s'.imageViews = s.imageViews

structure Removed (s s' : State) (a : VmAlloc) : Prop where
  recorded : a ∈ s.sys.os.vmAllocs
  mapped : (a.base, a.size) ∈ s.sys.mem.layout
  regions : s'.sys.mem.regions = s.sys.mem.regions.filter fun r => r.region.base != a.base
  records : s'.sys.os.vmAllocs = s.sys.os.vmAllocs.filter fun b => b.base != a.base

def Call.Meets (s : State) (c : Call) : Prop :=
  match c with
  | .ntMapViewOfSection _ sectionHandle _ offsetPtr sizePtr =>
    Ends c.run s fun r s' =>
      (r = .ok STATUS_SUCCESS → ∃ sec view base, s.sections sectionHandle = some sec ∧ Asks s sec offsetPtr sizePtr view ∧ Shows s s' base view) ∧
        (r ≠ .ok STATUS_SUCCESS → Untouched s s')
  | .ntUnmapViewOfSection base =>
    Ends c.run s fun r s' => (r = .ok STATUS_SUCCESS → ∃ a : VmAlloc, a.base = base ∧ Removed s s' a) ∧ (r ≠ .ok STATUS_SUCCESS → Untouched s s')
  | _ => ∃ p, c.run s = some p

/-! ## The condition -/

/-- Once the view has been placed, it is not empty and does not go round the end of the address space, and
the pointers of the call could be written before. -/
structure Placeable (s : State) (granted : U64 → Bool) (sec : Section) (basePtr offsetPtr sizePtr : U64) : Prop where
  view : ∀ view reqBase base, Asks s sec offsetPtr sizePtr view → readU64 basePtr s = some (.ok reqBase, s) →
    (placeView s.sys granted reqBase view.size view.low view.name).2 = some base →
      view.size ≠ 0 ∧ base.toNat + view.size.toNat < 2 ^ 64 ∧ Writable s.sys.mem basePtr ∧ Writable s.sys.mem sizePtr ∧
        (offsetPtr ≠ 0 → Writable s.sys.mem offsetPtr)

def Call.Safe (s : State) : Call → Prop
  | .ntMapViewOfSection granted sectionHandle basePtr offsetPtr sizePtr =>
    basePtr ≠ 0 → sizePtr ≠ 0 → ∀ sec, s.sections sectionHandle = some sec → Placeable s granted sec basePtr offsetPtr sizePtr
  | .vm op => Straight s.sys op
  | _ => True

/-! ## Placing -/

/-- Nothing but the search pointer changes, or a region of zeros is mapped. -/
inductive Placing (s : Sys) (size : U64) : Sys × Option U64 → Prop
  | refused (next : U64) : Placing s size ({ s with os := { s.os with vallocNext := next } }, none)
  | mapped (next base : U64) (name : String) (mem : VirtualMemory) (hGran : base.toNat % 0x10000 = 0)
      (hInsert : s.mem.insert ⟨name, base, size, Perm.RWX⟩ (fun _ => 0) = .ok mem) :
      Placing s size ({ s with os := { s.os with vallocNext := next }, mem := mem }, some base)

theorem tryMap_zeroed (s : Sys) (granted : U64 → Bool) (base size : U64) (perm : Perm) (name : String) :
    s.tryMap granted base size perm name = (s, false) ∨ ∃ mem, s.mem.insert ⟨name, base, size, perm⟩ (fun _ => 0) = .ok mem ∧
      s.tryMap granted base size perm name = ({ s with mem := mem }, true) := by
  unfold Sys.tryMap VirtualMemory.mapFixed VirtualMemory.map
  cases hZero : zeroed (granted base) size with
  | error e => exact .inl rfl
  | ok bytes =>
    obtain rfl := zeroed_bytes hZero
    have hThen : (Except.ok (fun _ => (0 : U8)) >>= fun bytes => s.mem.insert ⟨name, base, size, perm⟩ bytes : Result VirtualMemory) =
        s.mem.insert ⟨name, base, size, perm⟩ fun _ => 0 := rfl
    rw [hThen]
    cases s.mem.insert ⟨name, base, size, perm⟩ fun _ => 0 with
    | error e => exact .inl rfl
    | ok mem => exact .inr ⟨mem, rfl, rfl⟩

theorem mapFound_placing (s : Sys) (granted : U64 → Bool) (size maxAddr : U64) (name : String) :
    Placing s size (Sys.mapFound (s.vmFindFreeBelow size maxAddr) granted size Perm.RWX name) := by
  obtain ⟨next, hFst⟩ := s.vmFindFreeBelow_fst size maxAddr
  have hMod : ∀ b, (s.vmFindFreeBelow size maxAddr).2 = some b → b.toNat % 0x10000 = 0 := fun _ => vmFindFreeBelow_mod
  generalize s.vmFindFreeBelow size maxAddr = found at hFst hMod
  obtain ⟨s₁, _ | base⟩ := found
  · obtain rfl : s₁ = _ := hFst
    exact .refused next
  · obtain rfl : s₁ = _ := hFst
    unfold Sys.mapFound
    rcases tryMap_zeroed { s with os := { s.os with vallocNext := next } } granted base size Perm.RWX name with hMap | ⟨mem, hInsert, hMap⟩
    · simp only [hMap]
      exact .refused next
    · simp only [hMap]
      exact .mapped next base name mem (hMod base rfl) hInsert

theorem placeView_placing (s : Sys) (granted : U64 → Bool) (reqBase viewSize : U64) (low : Bool) (name : String) :
    Placing s viewSize (placeView s granted reqBase viewSize low name) := by
  unfold placeView
  split
  · dsimp only
    rcases tryMap_zeroed s granted (reqBase &&& ~~~(GRAN - 1)) viewSize Perm.RWX name with hMap | ⟨mem, hInsert, hMap⟩
    · rw [hMap]
      exact .refused s.os.vallocNext
    · rw [hMap]
      refine .mapped s.os.vallocNext _ name mem ?_ hInsert
      rw [toNat_and_not_mask (k := 16) _ gran_toNat]
      exact Nat.mul_mod_left _ _
  · split
    · exact mapFound_placing s granted viewSize 0xFFFFFFFF name
    · exact mapFound_placing s granted viewSize (BitVec.allOnes 64) name

/-! ## Copying -/

def State.withMem (s : State) (mem : VirtualMemory) : State := { s with sys := { s.sys with mem := mem } }

theorem write_run {addr : U64} {bytes : List U8} {mem : VirtualMemory} (h : s.sys.mem.write addr bytes = .ok mem) :
    write addr bytes s = some (.ok (), s.withMem mem) := by
  unfold write Fallible.step
  dsimp only
  rw [h]
  rfl

theorem copy_run {addr : U64} {bytes : List U8} {mem : VirtualMemory} (h : s.sys.mem.write addr bytes = .ok mem) :
    copy addr bytes s = some (.ok (), s.withMem mem) := by
  unfold copy
  split
  · exact write_run h
  · rename_i hNone
    obtain rfl := not_not.mp hNone
    cases h
    rfl

theorem splice_nil (f : Nat → U8) (start : Nat) : splice f start [] = f := by
  funext i
  unfold splice
  rw [if_neg]
  rintro ⟨hLow, hHigh⟩
  exact absurd hHigh (Nat.not_lt.mpr hLow)

def laid (f : Nat → U8) (parts : List (U64 × List U8)) : Nat → U8 := parts.foldl (fun f p => splice f p.1.toNat p.2) f

theorem copyAll_window {parts : List (U64 × List U8)} (h : Window s.sys.mem g f) (hPerm : g.perm.contains Perm.WRITE = true)
    (hFits : ∀ p ∈ parts, p.2 ≠ [] → p.1.toNat + p.2.length ≤ g.size.toNat) :
    ∃ mem, copyAll g.base parts s = some (.ok (), s.withMem mem) ∧ Window mem g (laid f parts) ∧
      (mem.regions.map fun r => r.region) = s.sys.mem.regions.map fun r => r.region := by
  induction parts generalizing s f with
  | nil => exact ⟨s.sys.mem, rfl, h, rfl⟩
  | cons p ps ih =>
    have hHead : ∃ mem, s.sys.mem.write (g.base + p.1) p.2 = .ok mem ∧ Window mem g (splice f p.1.toNat p.2) := by
      by_cases hNone : p.2 = []
      · rw [hNone, splice_nil]
        exact ⟨s.sys.mem, rfl, h⟩
      · have hWrite := h.write (hFits p mem_cons_self hNone) hPerm
        rwa [BitVec.ofNat_toNat, BitVec.setWidth_eq] at hWrite
    obtain ⟨mem, hWrite, hWindow⟩ := hHead
    obtain ⟨mem', hRest, hWindow', hRegions⟩ := ih (s := s.withMem mem) hWindow fun q hq => hFits q (mem_cons_of_mem _ hq)
    refine ⟨mem', ?_, hWindow', hRegions.trans (write_regions hWrite)⟩
    exact (congrArg (Option.bind · _) (copy_run hWrite)).trans hRest

theorem flatBytes_laid (sec : Section) (offset viewSize : U64) {i : Nat} (hi : i < viewSize.toNat) :
    splice (fun _ => 0) 0 (flatBytes sec offset viewSize) i = sec.data.getD (offset.toNat + i) 0 := by
  unfold splice flatBytes
  dsimp only
  simp only [length_take, length_drop, Nat.sub_zero, Nat.zero_add, Nat.zero_le, true_and, getD_eq_getElem?_getD]
  split
  · rename_i hIn
    rw [getElem?_take_of_lt (by omega), getElem?_drop, Nat.min_eq_left (by omega)]
  · rename_i hOut
    rw [getElem?_eq_none (by omega)]
    rfl

theorem section_laid (sec : ImageSection) (f : Nat → U8) {size i : Nat} (hi : i < size) :
    splice f (sec.rva.setWidth 64).toNat (sec.data.take (min (sec.rva.toNat + sec.virtualSize.toNat) size - sec.rva.toNat)) i =
      if sec.covers i then sec.data.getD (i - sec.rva.toNat) 0 else f i := by
  have hRva : (sec.rva.setWidth 64).toNat = sec.rva.toNat := BitVec.toNat_setWidth_of_le (by decide)
  unfold splice ImageSection.covers
  simp only [hRva, length_take, Bool.and_eq_true, decide_eq_true_eq, getD_eq_getElem?_getD]
  split
  · rename_i hIn
    rw [if_pos (by omega), getElem?_take_of_lt (by omega)]
  · rename_i hOut
    rw [if_neg (by omega)]

theorem imageParts_laid (img : SectionImage) (viewSize : U64) {i : Nat} (hi : i < viewSize.toNat) :
    laid (fun _ => 0) (imageParts img viewSize) i = imageByte img i := by
  unfold imageParts imageByte laid
  rw [foldl_cons, foldl_map]
  have hHeaders : splice (fun _ => 0) (0 : U64).toNat (img.headers.take (min img.headers.length viewSize.toNat)) i = img.headers.getD i 0 := by
    have hZero : (0 : U64).toNat = 0 := rfl
    unfold splice
    simp only [hZero, length_take, Nat.sub_zero, Nat.zero_add, Nat.zero_le, true_and, getD_eq_getElem?_getD]
    split
    · rw [getElem?_take_of_lt (by omega)]
    · rw [getElem?_eq_none (by omega)]
      rfl
  rw [← hHeaders]
  generalize splice (fun _ => 0) (0 : U64).toNat (img.headers.take (min img.headers.length viewSize.toNat)) = f
  induction img.sections generalizing f with
  | nil => rfl
  | cons sec rest ih =>
    rw [foldl_cons, foldl_cons, ih]
    dsimp only
    rw [section_laid sec f hi]

theorem imageParts_fit (img : SectionImage) (viewSize : U64) :
    ∀ p ∈ imageParts img viewSize, p.2 ≠ [] → p.1.toNat + p.2.length ≤ viewSize.toNat := by
  intro p hp hSome
  have hPos := List.length_pos_iff.mpr hSome
  rcases List.mem_cons.mp hp with rfl | hp
  · dsimp only at hPos ⊢
    rw [length_take] at hPos ⊢
    have hZero : (0 : U64).toNat = 0 := rfl
    omega
  · obtain ⟨sec, -, rfl⟩ := List.mem_map.mp hp
    have hRva : (sec.rva.setWidth 64).toNat = sec.rva.toNat := BitVec.toNat_setWidth_of_le (by decide)
    dsimp only at hPos ⊢
    rw [length_take] at hPos ⊢
    omega

/-! ## Reading and telling -/

theorem read_run (p : U64) (n : Nat) (s : State) : (∃ bytes, read p n s = some (.ok bytes, s)) ∨ ∃ e, read p n s = some (.error e, s) := by
  unfold read Fallible.step
  dsimp only
  cases s.sys.mem.read p n with
  | ok bytes => exact .inl ⟨bytes, rfl⟩
  | error e => exact .inr ⟨e, rfl⟩

theorem readU64_run (p : U64) (s : State) : (∃ v, readU64 p s = some (.ok v, s)) ∨ ∃ e, readU64 p s = some (.error e, s) := by
  rcases read_run p 8 s with ⟨bytes, hRead⟩ | ⟨e, hRead⟩
  · exact .inl ⟨fromLe bytes, congrArg (Option.bind · _) hRead⟩
  · exact .inr ⟨e, congrArg (Option.bind · _) hRead⟩

theorem readAt_run (p : U64) (s : State) : (∃ v, readAt p s = some (.ok v, s)) ∨ ∃ e, readAt p s = some (.error e, s) := by
  unfold readAt
  split
  · exact readU64_run p s
  · exact .inl ⟨0, rfl⟩

theorem writeU64_beside (h : Window s.sys.mem g f) {p : U64} (hBeside : Beside s.sys.mem g p) (v : U64) :
    ∃ mem, writeU64 p v s = some (.ok (), s.withMem mem) ∧ Window mem g f ∧
      (mem.regions.map fun r => r.region) = s.sys.mem.regions.map fun r => r.region := by
  obtain ⟨mem, hWrite, hWindow⟩ := h.writeBeside hBeside (length_toLe 8 v)
  exact ⟨mem, write_run hWrite, hWindow, write_regions hWrite⟩

/-- The window is there, and the pointers of the call lie beside it. -/
structure Ready (m : VirtualMemory) (g : Region) (f : Nat → U8) (basePtr sizePtr offsetPtr : U64) : Prop where
  window : Window m g f
  base : Beside m g basePtr
  size : Beside m g sizePtr
  offset : offsetPtr ≠ 0 → Beside m g offsetPtr

variable {basePtr offsetPtr sizePtr : U64}

variable {m : VirtualMemory} {r : Except EmuError U32}

theorem Ready.congr {m' : VirtualMemory} {f' : Nat → U8} (h : Ready m g f basePtr sizePtr offsetPtr) (hWindow : Window m' g f')
    (hRegions : (m'.regions.map fun r => r.region) = m.regions.map fun r => r.region) : Ready m' g f' basePtr sizePtr offsetPtr where
  window := hWindow
  base := h.base.congr hRegions
  size := h.size.congr hRegions
  offset hPtr := (h.offset hPtr).congr hRegions

theorem Ready.tells (h : Ready s.sys.mem g f basePtr sizePtr offsetPtr) (base size offset : U64) :
    Ends (do
      writeU64 basePtr base
      writeU64 sizePtr size
      writeAt offsetPtr offset
      return STATUS_SUCCESS : Act U32) s fun r s' => r = .ok STATUS_SUCCESS ∧ ∃ mem, s' = s.withMem mem ∧ Window mem g f ∧
        (mem.regions.map fun r => r.region) = s.sys.mem.regions.map fun r => r.region := by
  obtain ⟨mem₁, hRun₁, hWindow₁, hRegions₁⟩ := writeU64_beside h.window h.base base
  rw [ends_ok hRun₁]
  obtain ⟨mem₂, hRun₂, hWindow₂, hRegions₂⟩ := writeU64_beside (s := s.withMem mem₁) hWindow₁ (h.size.congr hRegions₁) size
  rw [ends_ok hRun₂]
  have hRegions := hRegions₂.trans hRegions₁
  have hState : (s.withMem mem₁).withMem mem₂ = s.withMem mem₂ := rfl
  rw [hState]
  unfold writeAt
  split
  · rename_i hSome
    obtain ⟨mem₃, hRun₃, hWindow₃, hRegions₃⟩ := writeU64_beside (s := s.withMem mem₂) hWindow₂ ((h.offset hSome).congr hRegions) offset
    rw [ends_ok hRun₃]
    exact (ends_pure _).mpr ⟨rfl, mem₃, rfl, hWindow₃, hRegions₃.trans hRegions⟩
  · exact (ends_pure _).mpr ⟨rfl, mem₂, rfl, hWindow₂, hRegions⟩

/-! ## Mapping -/

inductive Mapping (s : State) (sec : Section) (offsetPtr sizePtr : U64) : Except EmuError U32 → State → Prop
  | failed (r : Except EmuError U32) (next : U64) (hNot : r ≠ .ok STATUS_SUCCESS) :
      Mapping s sec offsetPtr sizePtr r { s with sys := { s.sys with os := { s.sys.os with vallocNext := next } } }
  | shown (view : View) (base next : U64) (name : String) (mem mem' : VirtualMemory) (bytes : Nat → U8) (imageViews : List (U64 × U64))
      (hAsks : Asks s sec offsetPtr sizePtr view) (hGran : base.toNat % 0x10000 = 0) (hPages : view.size.toNat % 0x1000 = 0)
      (hSome : view.size ≠ 0) (hInsert : s.sys.mem.insert ⟨name, base, view.size, Perm.RWX⟩ (fun _ => 0) = .ok mem)
      (hRegions : (mem'.regions.map fun r => r.region) = mem.regions.map fun r => r.region)
      (hWindow : Window mem' ⟨name, base, view.size, Perm.RWX⟩ bytes) (hBytes : ∀ i, i < view.size.toNat → bytes i = view.byte i) :
      Mapping s sec offsetPtr sizePtr (.ok STATUS_SUCCESS)
        { s with
          sys := ({ s.sys with os := { s.sys.os with vallocNext := next }, mem := mem' } : Sys).vmInsert ⟨base, view.size, true⟩
          imageViews := imageViews }

variable {sec : Section} {granted : U64 → Bool}

theorem failed_here (hNot : r ≠ .ok STATUS_SUCCESS) : Mapping s sec offsetPtr sizePtr r s :=
  .failed r s.sys.os.vallocNext hNot

theorem rwx_writes : Perm.RWX.contains Perm.WRITE = true := by decide

def State.placed (s : State) (next : U64) (mem : VirtualMemory) : State :=
  { s with sys := { s.sys with os := { s.sys.os with vallocNext := next }, mem := mem } }

theorem place_maps (hWf : WellFormed s.sys.mem) (h : Placeable s granted sec basePtr offsetPtr sizePtr) {view : View} {reqBase : U64}
    (hAsks : Asks s sec offsetPtr sizePtr view) (hReq : readU64 basePtr s = some (.ok reqBase, s)) {rest : U64 → Act U32}
    (hRest : ∀ next base name mem, base.toNat % 0x10000 = 0 → view.size ≠ 0 →
      s.sys.mem.insert ⟨name, base, view.size, Perm.RWX⟩ (fun _ => 0) = .ok mem →
      Ready mem ⟨name, base, view.size, Perm.RWX⟩ (fun _ => 0) basePtr sizePtr offsetPtr →
      Ends (rest base) (s.placed next mem) (Mapping s sec offsetPtr sizePtr)) :
    Ends (do
      match ← place granted reqBase view.size view.low view.name with
      | none => return STATUS_NO_MEMORY
      | some base => rest base) s (Mapping s sec offsetPtr sizePtr) := by
  have hFits := h.view view reqBase
  have hPlacing := placeView_placing s.sys granted reqBase view.size view.low view.name
  have hPlace : place granted reqBase view.size view.low view.name s = some
    (.ok (placeView s.sys granted reqBase view.size view.low view.name).2,
      { s with sys := (placeView s.sys granted reqBase view.size view.low view.name).1 }) := rfl
  rw [ends_ok hPlace]
  generalize placeView s.sys granted reqBase view.size view.low view.name = placed at hFits hPlacing ⊢
  cases hPlacing with
  | refused next => exact (ends_pure _).mpr (.failed _ next (by decide))
  | mapped next base name mem hGran hInsert =>
    obtain ⟨hSome, hTop, hBase, hSize, hOffset⟩ := hFits base hAsks hReq rfl
    have hFresh := Window.fresh hWf hInsert hSome hTop
    exact hRest next base name mem hGran hSome hInsert
      ⟨hFresh, hBase.beside hWf hInsert hSome hTop, hSize.beside hWf hInsert hSome hTop,
        fun hPtr => (hOffset hPtr).beside hWf hInsert hSome hTop⟩

theorem mapFlatView_maps (hWf : WellFormed s.sys.mem) (hImage : sec.image = none) (h : Placeable s granted sec basePtr offsetPtr sizePtr) :
    Ends (mapFlatView granted sec basePtr offsetPtr sizePtr) s (Mapping s sec offsetPtr sizePtr) := by
  unfold mapFlatView
  rcases readAt_run offsetPtr s with ⟨offset, hOffset⟩ | ⟨e, hFails⟩
  · rw [ends_ok hOffset]
    rcases readAt_run sizePtr s with ⟨want, hWant⟩ | ⟨e, hFails⟩
    · rw [ends_ok hWant]
      rcases readU64_run basePtr s with ⟨reqBase, hReq⟩ | ⟨e, hFails⟩
      · rw [ends_ok hReq, ends_bind, ends_get, then_ok]
        have hAsks := Asks.flat offset want hImage hOffset hWant
        refine place_maps hWf h hAsks hReq fun next base name mem hGran hSome hInsert hReady => ?_
        generalize hSize : flatSize sec offset want = viewSize at hAsks hSome hInsert hReady ⊢
        have hLength : 0 + (flatBytes sec offset viewSize).length ≤ viewSize.toNat := by
          unfold flatBytes
          rw [length_take]
          omega
        obtain ⟨mem₁, hWrite, hWindow⟩ := hReady.window.write hLength rwx_writes
        have hHere : base + BitVec.ofNat 64 0 = base := BitVec.add_zero base
        rw [hHere] at hWrite
        have hPages : viewSize.toNat % 0x1000 = 0 := by
          rw [← hSize]
          unfold flatSize
          split <;> exact alignUp_page_mod _
        rw [ends_ok (copy_run (s := s.placed next mem) hWrite)]
        unfold vmInsertView onSys
        rw [ends_bind, ends_modify, then_ok]
        refine ((hReady.congr hWindow (write_regions hWrite)).tells base viewSize offset).mono ?_
        rintro r s' ⟨rfl, mem₂, rfl, hWindow', hRegions⟩
        exact .shown _ base next name mem mem₂ _ s.imageViews hAsks hGran hPages hSome hInsert
          (hRegions.trans (write_regions hWrite)) hWindow' fun i hi => flatBytes_laid sec offset viewSize hi
      · rw [ends_error hFails]
        exact failed_here nofun
    · rw [ends_error hFails]
      exact failed_here nofun
  · rw [ends_error hFails]
    exact failed_here nofun

theorem mapImageView_maps {img : SectionImage} (hWf : WellFormed s.sys.mem) (hImage : sec.image = some img)
    (h : Placeable s granted sec basePtr offsetPtr sizePtr) :
    Ends (mapImageView granted img basePtr sizePtr offsetPtr) s (Mapping s sec offsetPtr sizePtr) := by
  unfold mapImageView
  extract_lets viewSize
  rcases readU64_run basePtr s with ⟨reqBase, hReq⟩ | ⟨e, hFails⟩
  · rw [ends_ok hReq]
    have hAsks := @Asks.image s sec offsetPtr sizePtr img hImage
    refine place_maps hWf h hAsks hReq fun next base name mem hGran hSome hInsert hReady => ?_
    obtain ⟨mem₁, hCopy, hWindow, hRegions⟩ := copyAll_window (s := s.placed next mem) hReady.window rwx_writes (imageParts_fit img viewSize)
    rw [ends_ok hCopy]
    unfold vmInsertView onSys recordImageView
    rw [ends_bind, ends_modify, then_ok, ends_bind, ends_modify, then_ok]
    refine ((hReady.congr hWindow hRegions).tells base viewSize 0).mono ?_
    rintro r s' ⟨rfl, mem₂, rfl, hWindow', hRegions'⟩
    exact .shown _ base next name mem mem₂ _ _ hAsks hGran (alignUp_page_mod _) hSome hInsert (hRegions'.trans hRegions) hWindow'
      fun i hi => imageParts_laid img viewSize hi
  · rw [ends_error hFails]
    exact failed_here nofun

theorem layout_of_regions {m' : VirtualMemory} (h : (m'.regions.map fun r => r.region) = m.regions.map fun r => r.region) : m'.layout = m.layout := by
  have hMap : ∀ m : VirtualMemory, m.layout = (m.regions.map fun r => r.region).map fun g => (g.base, g.size) := by
    intro m
    unfold VirtualMemory.layout
    rw [map_map]
    rfl
  rw [hMap, hMap, h]

theorem Mapping.meets (h : Mapping s sec offsetPtr sizePtr r s') :
    (r = .ok STATUS_SUCCESS → ∃ view base, Asks s sec offsetPtr sizePtr view ∧ Shows s s' base view) ∧
      (r ≠ .ok STATUS_SUCCESS → Untouched s s') := by
  cases h with
  | failed r next hNot => exact ⟨fun hDone => absurd hDone hNot, fun _ => ⟨rfl, rfl, rfl⟩⟩
  | shown view base next name mem mem' bytes imageViews hAsks hGran hPages hSome hInsert hRegions hWindow hBytes =>
    refine ⟨fun _ => ⟨view, base, hAsks, ?_, fun a => mem_vmInsert _ _ _, fun i hi => ?_⟩, fun hNot => absurd rfl hNot⟩
    · intro r
      have hLayout : r ∈ mem'.layout ↔ r = (base, view.size) ∨ r ∈ s.sys.mem.layout := by
        rw [layout_of_regions hRegions, mem_layout_insert hInsert, and_iff_right hSome]
        exact or_comm
      exact hLayout
    · rw [← hBytes i hi]
      exact hWindow.bytes i hi

theorem Mapping.kept (hKept : AllocsKept s.sys) (h : Mapping s sec offsetPtr sizePtr r s') : AllocsKept s'.sys := by
  cases h with
  | failed r next hNot => exact ⟨hKept.holding, hKept.aligned⟩
  | shown view base next name mem mem' bytes imageViews hAsks hGran hPages hSome hInsert hRegions hWindow hBytes =>
    have hTop := hWindow.top
    have hLast : base ≠ BitVec.allOnes 64 := by
      rintro rfl
      exact absurd hGran (by decide)
    have hHolds := (Holds.cons hKept.holding hInsert hSome hLast).same hWindow.wellFormed (layout_of_regions hRegions)
    refine ⟨vmInsert_holding hHolds, inserted_aligned ?_ ⟨?_, hPages, hTop⟩⟩
    · exact hKept.aligned
    · dsimp only
      omega

theorem ntMapViewOfSection_maps (hWf : WellFormed s.sys.mem) {sectionHandle : Nat}
    (h : (Call.ntMapViewOfSection granted sectionHandle basePtr offsetPtr sizePtr).Safe s) :
    Ends (ntMapViewOfSection granted sectionHandle basePtr offsetPtr sizePtr) s fun r s' =>
      (r ≠ .ok STATUS_SUCCESS ∧ s' = s) ∨ ∃ sec, s.sections sectionHandle = some sec ∧ Mapping s sec offsetPtr sizePtr r s' := by
  unfold ntMapViewOfSection
  split
  · exact (ends_pure _).mpr (.inl ⟨by decide, rfl⟩)
  · rename_i hPtrs
    obtain ⟨hBase, hSize⟩ := not_or.mp hPtrs
    rw [ends_bind, ends_get, then_ok]
    cases hSection : s.sections sectionHandle with
    | none => exact (ends_pure _).mpr (.inl ⟨by decide, rfl⟩)
    | some sec =>
      have hPlaceable := h hBase hSize sec hSection
      dsimp only
      cases hImage : sec.image with
      | some img => exact (mapImageView_maps hWf hImage hPlaceable).mono fun r s' hMaps => .inr ⟨sec, rfl, hMaps⟩
      | none => exact (mapFlatView_maps hWf hImage hPlaceable).mono fun r s' hMaps => .inr ⟨sec, rfl, hMaps⟩

/-! ## Unmapping -/

theorem eraseP_eq_filter {α : Type} {p : α → Bool} {xs : List α} (h : xs.Pairwise fun x y => p x = true → p y = false) :
    xs.eraseP p = xs.filter fun x => !p x := by
  induction xs with
  | nil => rfl
  | cons x xs ih =>
    obtain ⟨hHead, hTail⟩ := List.pairwise_cons.mp h
    cases hp : p x with
    | true =>
      rw [eraseP_cons_of_pos hp, filter_cons_of_neg (by rw [hp]; decide)]
      exact (List.filter_eq_self.mpr fun y hy => by rw [hHead y hy hp]; rfl).symm
    | false => rw [eraseP_cons_of_neg (by rw [hp]; decide), filter_cons_of_pos (by rw [hp]; rfl), ih hTail]

theorem regions_distinct (hWf : WellFormed m) {base : U64} (hLast : base ≠ BitVec.allOnes 64) :
    m.regions.Pairwise fun x y => (x.region.base == base) = true → (y.region.base == base) = false := by
  refine List.Pairwise.imp_of_mem (fun {x y} hx _ hApart hBase => ?_) hWf.separated
  rw [beq_iff_eq] at hBase
  rw [beq_eq_false_iff_ne]
  rintro rfl
  have hPos : x.region.size.toNat ≠ 0 := fun hZero => hWf.nonempty x hx (BitVec.eq_of_toNat_eq hZero)
  have hLess := y.region.base.isLt
  have hNot : y.region.base.toNat ≠ 2 ^ 64 - 1 := fun hEq => hLast (BitVec.eq_of_toNat_eq (by rw [hEq]; rfl))
  unfold Region.endAddr at hApart
  rw [hBase] at hApart
  omega

theorem vmRelease_removes {s : Sys} (h : AllocsKept s) {a : VmAlloc} (ha : a ∈ s.os.vmAllocs) :
    (s.vmRelease a.base).mem.regions = s.mem.regions.filter (fun r => r.region.base != a.base) ∧
      (s.vmRelease a.base).os.vmAllocs = s.os.vmAllocs.filter fun b => b.base != a.base := by
  obtain ⟨hPages, -, hTop⟩ := h.aligned a ha
  have hBase : a.base &&& ~~~(PAGE - 1) = a.base := by
    refine BitVec.eq_of_toNat_eq ?_
    rw [toNat_and_not_mask (k := 12) _ page_toNat]
    omega
  have hLast : a.base ≠ BitVec.allOnes 64 := by
    intro hEq
    rw [hEq] at hPages
    exact absurd hPages (by decide)
  have hBases : (s.os.vmAllocs.map VmAlloc.base).Nodup := by
    have hDistinct := h.holding.distinct.sublist ((sublist_append_right (s.os.threads.flatMap held) _).map Prod.fst)
    rwa [map_map] at hDistinct
  have hOne : s.os.vmAllocs.Pairwise fun x y => (x.base == a.base) = true → (y.base == a.base) = false := by
    refine (List.pairwise_map.mp hBases).imp fun {x y} hNe hEq => ?_
    rw [beq_iff_eq] at hEq
    rw [beq_eq_false_iff_ne, ← hEq]
    exact hNe.symm
  have hErase := @List.eraseP_eq_eraseIdx _ s.os.vmAllocs fun b => b.base == a.base
  rw [eraseP_eq_filter hOne] at hErase
  unfold Sys.vmRelease
  rw [hBase]
  dsimp only
  split
  · rename_i hNone
    rw [findIdx?_eq_none_iff] at hNone
    exact absurd (hNone a ha) (by rw [beq_self_eq_true]; decide)
  · rename_i pos hFind
    rw [hFind] at hErase
    refine ⟨?_, hErase.symm⟩
    change s.mem.regions.eraseP (fun m => m.region.base == a.base) = _
    exact eraseP_eq_filter (regions_distinct h.holding.wellFormed hLast)

theorem ntUnmapViewOfSection_removes (h : AllocsKept s.sys) (base : U64) :
    Ends (ntUnmapViewOfSection base) s fun r s' => AllocsKept s'.sys ∧
      (r = .ok STATUS_SUCCESS → ∃ a : VmAlloc, a.base = base ∧ Removed s s' a) ∧ (r ≠ .ok STATUS_SUCCESS → Untouched s s') := by
  unfold ntUnmapViewOfSection
  rw [ends_bind, ends_get, then_ok]
  unfold vmViewBase
  cases hFind : s.sys.os.vmAllocs.find? fun a => a.base == base with
  | none => exact (ends_pure _).mpr ⟨h, fun hDone => absurd hDone (by decide), fun _ => ⟨rfl, rfl, rfl⟩⟩
  | some a =>
    have ha := mem_of_find?_eq_some hFind
    have hHere := find?_some hFind
    have hBase : a.base = base := eq_of_beq hHere
    subst hBase
    obtain ⟨hRegions, hRecords⟩ := vmRelease_removes h ha
    have hFree : s.sys.vmFreeRegion a.base MEM_RELEASE = s.sys.vmRelease a.base := rfl
    unfold onSys
    rw [Option.map_some, ends_bind, ends_modify, then_ok, ends_bind, ends_modify, then_ok]
    dsimp only
    rw [hFree]
    refine (ends_pure _).mpr ⟨?_, fun _ => ⟨a, rfl, ha, ?_, hRegions, hRecords⟩, fun hNot => absurd rfl hNot⟩
    · exact hFree ▸ vmFreeRegion_kept h a.base MEM_RELEASE
    · exact h.holding.mapped _ (mem_append_right _ (List.mem_map.mpr ⟨a, ha, rfl⟩))

/-! ## The other calls -/

theorem write_kept (h : AllocsKept s.sys) (addr : U64) (bytes : List U8) : Ends (write addr bytes) s fun _ s' => AllocsKept s'.sys := by
  cases hWrite : s.sys.mem.write addr bytes with
  | error e =>
    have hRun : write addr bytes s = some (.error e, s) := by
      unfold write Fallible.step
      dsimp only
      rw [hWrite]
      rfl
    exact (ends_of_run hRun).mpr h
  | ok mem =>
    have hHolds := h.holding.same (LawfulMemory.sound_write (M := VirtualMemory) h.holding.wellFormed hWrite) (write_layout hWrite)
    exact (ends_of_run (write_run hWrite)).mpr ⟨hHolds, h.aligned⟩

theorem ntCreateSection_kept (h : AllocsKept s.sys) (images : ImageLoader) (handlePtr maxSizePtr : U64) (isImage : Bool)
    (backing : Option (Option (List U8))) :
    Ends (ntCreateSection images handlePtr maxSizePtr isImage backing) s fun _ s' => AllocsKept s'.sys := by
  unfold ntCreateSection
  split
  · exact (ends_pure _).mpr h
  · cases backing.getD (some []) with
    | none => exact (ends_pure _).mpr h
    | some data =>
      dsimp only
      rcases readAt_run maxSizePtr s with ⟨requested, hRead⟩ | ⟨e, hFails⟩
      · rw [ends_ok hRead]
        rw [ends_bind, ends_get, then_ok, ends_bind, ends_modify, then_ok, ends_bind]
        unfold writeU64
        refine (write_kept ?_ _ _).mono fun r s' hKept => ?_
        · exact ⟨h.holding, h.aligned⟩
        · cases r with
          | ok _ =>
            rw [then_ok, ends_pure]
            exact hKept
          | error e => exact hKept
      · rw [ends_error hFails]
        exact h

/-! ## Runs -/

theorem Call.keeps (h : AllocsKept s.sys) (c : Call) (hSafe : c.Safe s) : Ends c.run s (fun _ s' => AllocsKept s'.sys) ∧ c.Meets s := by
  cases c with
  | ntCreateSection images handlePtr maxSizePtr isImage backing =>
    have hKept := ntCreateSection_kept h images handlePtr maxSizePtr isImage backing
    exact ⟨hKept, hKept.imp fun _ hEnds => hEnds.1⟩
  | ntMapViewOfSection granted sectionHandle basePtr offsetPtr sizePtr =>
    have hMaps := ntMapViewOfSection_maps h.holding.wellFormed hSafe
    constructor
    · refine hMaps.mono fun r s' hDone => ?_
      rcases hDone with ⟨-, rfl⟩ | ⟨sec, -, hMapping⟩
      · exact h
      · exact hMapping.kept h
    · unfold Call.Meets
      refine hMaps.mono fun r s' hDone => ?_
      rcases hDone with ⟨hNot, rfl⟩ | ⟨sec, hSection, hMapping⟩
      · exact ⟨fun hEq => absurd hEq hNot, fun _ => ⟨rfl, rfl, rfl⟩⟩
      · refine ⟨fun hEq => ?_, hMapping.meets.2⟩
        obtain ⟨view, base, hAsks, hShows⟩ := hMapping.meets.1 hEq
        exact ⟨sec, view, base, hSection, hAsks, hShows⟩
  | ntUnmapViewOfSection base =>
    have hRemoves := ntUnmapViewOfSection_removes h base
    exact ⟨hRemoves.mono fun _ _ hDone => hDone.1, hRemoves.mono fun _ _ hDone => hDone.2⟩
  | vm op =>
    have hRun : (Call.vm op).run s = some (.ok STATUS_SUCCESS, { s with sys := s.sys.vmStep op }) := rfl
    exact ⟨⟨_, hRun, vmStep_straight h hSafe⟩, _, hRun⟩
  | store addr bytes =>
    have hKept : Ends (Call.store addr bytes).run s fun _ s' => AllocsKept s'.sys := by
      refine ends_bind.mpr ((write_kept h addr bytes).mono fun r s' hKept => ?_)
      cases r with
      | ok _ =>
        rw [then_ok, ends_pure]
        exact hKept
      | error e => exact hKept
    exact ⟨hKept, hKept.imp fun _ hEnds => hEnds.1⟩

def State.new (sys : Sys) : State := ⟨sys, fun _ => none, []⟩

/-- Runs of calls that are such as these; a call that fails has been made too. -/
inductive Run (ok : State → Call → Prop) : State → Prop where
  | new (sys : Sys) (hStarts : sys.Starts) : Run ok (State.new sys)
  | step {s : State} (c : Call) (r : Except EmuError U32) (s' : State) : Run ok s → ok s c → c.run s = some (r, s') → Run ok s'

theorem Run.kept (h : Run Call.Safe s) : AllocsKept s.sys := by
  induction h with
  | new sys hStarts => exact hStarts.kept
  | step c r s' _ hSafe hRun ih => exact (ends_of_run hRun).mp (Call.keeps ih c hSafe).1

/-- After every run of safe calls, one more that is safe does what it reports. -/
theorem Run.call_meets (h : Run Call.Safe s) (c : Call) (hSafe : c.Safe s) : c.Meets s := (Call.keeps h.kept c hSafe).2

/-! ## Three views -/

def State.after (s : State) (c : Call) : State := (c.run s).elim s Prod.snd

theorem Run.after {ok : State → Call → Prop} (h : Run ok s) {c : Call} (hOk : ok s c) (hRun : (c.run s).isSome = true) : Run ok (s.after c) := by
  obtain ⟨p, hRun⟩ := Option.isSome_iff_exists.mp hRun
  have hAfter : s.after c = p.2 := by
    unfold State.after
    rw [hRun]
    rfl
  rw [hAfter]
  exact h.step c p.1 p.2 hOk hRun

def booted : State := State.new Process.boot.sys

def State.word (s : State) (p : U64) : Option U64 := (s.sys.mem.read p 8).toOption.map fromLe

theorem readU64_word {p v : U64} (h : readU64 p s = some (.ok v, s)) : s.word p = some v := by
  obtain ⟨bytes, s₁, hRead, hPure⟩ := bind_ok_run h
  cases hPure
  unfold read Fallible.step at hRead
  dsimp only at hRead
  unfold State.word
  cases hMem : s.sys.mem.read p 8 with
  | error e =>
    rw [hMem] at hRead
    cases hRead
  | ok bs =>
    rw [hMem] at hRead
    cases hRead
    rfl

theorem writable_of_isOk {p : U64} (h : (m.write p (toLe 8 0)).isOk = true) : Writable m p := by
  unfold Writable
  cases hWrite : m.write p (toLe 8 0) with
  | ok m' => exact ⟨m', rfl⟩
  | error e =>
    rw [hWrite] at h
    cases h

def threeBytes : Call := .ntCreateSection (smallEnv []).images 0x1000100000 0 false (some (some [1, 2, 3]))

def filed : State := booted.after threeBytes

theorem view_shown : (Call.ntMapViewOfSection (fun _ => true) 0x1000 0x1000100010 0 0x1000100020).Meets filed := by
  have hRun : Run Call.Safe filed := (Run.new Process.boot.sys boot_sys_starts).after trivial (by decide)
  refine hRun.call_meets _ fun _ _ sec hSection => ⟨fun view reqBase base hAsks hReq hPlace => ?_⟩
  have hImage : ((filed.sections 0x1000).map fun sec => sec.image.isNone) = some true := by decide
  have hSize : ((filed.sections 0x1000).map fun sec => sec.size) = some 0x1000 := by decide
  have hZero : filed.word 0x1000100010 = some 0 := by decide
  obtain rfl : 0 = reqBase := Option.some.inj (hZero.symm.trans (readU64_word hReq))
  rw [hSection] at hImage hSize
  cases hAsks with
  | image img hHas =>
    rw [Option.map_some, hHas] at hImage
    cases hImage
  | flat offset want hNone hOffset hWant =>
    have hNothing : filed.word 0x1000100020 = some 0 := by decide
    obtain rfl : 0 = want := Option.some.inj (hNothing.symm.trans (readU64_word hWant))
    cases hOffset
    have hView : flatSize sec 0 0 = 0x1000 := by
      have hHere : sec.size = 0x1000 := Option.some.inj hSize
      unfold flatSize
      rw [hHere]
      decide
    dsimp only at hPlace ⊢
    rw [hView] at hPlace ⊢
    have hThere : (placeView filed.sys (fun _ => true) 0 0x1000 (decide (filed.sys.os.wow64Peb32 ≠ 0)) "section-view").2 = some 0x4000000000 := by
      decide
    obtain rfl := Option.some.inj (hThere.symm.trans hPlace)
    exact ⟨by decide, by decide, writable_of_isOk (by decide), writable_of_isOk (by decide), fun h => absurd rfl h⟩

def readOnly : State := (booted.after (.vm (.mapAnywhere (fun _ => true) 0x1000 Perm.READ "image"))).after threeBytes

/-- The base of a view is asked for that is to hold an image, and its size is to be told within. -/
def imaged : State :=
  (booted.after (.store 0x1000100010 (toLe 8 0x50000000))).after
    (.ntCreateSection (smallEnv []).images 0x1000100000 0 true (some (some (Loader.smallFile [] 0x1000 [1, 2, 3]))))

/-- A view whose base cannot be told stays behind, with its record; and one that is told into does not show
its image. -/
theorem view_left_behind :
    (Run (fun _ _ => True) readOnly ∧ ¬(Call.ntMapViewOfSection (fun _ => true) 0x1000 0x4000000000 0 0x1000100020).Meets readOnly) ∧
      Run (fun _ _ => True) imaged ∧ ¬(Call.ntMapViewOfSection (fun _ => true) 0x1000 0x1000100010 0 0x50000010).Meets imaged := by
  refine ⟨⟨?_, fun hMeets => ?_⟩, ?_, fun hMeets => ?_⟩
  · exact ((Run.new Process.boot.sys boot_sys_starts).after trivial (by decide)).after trivial (by decide)
  · obtain ⟨p, hRun, -, hFails⟩ := hMeets
    have hResult : ((Call.ntMapViewOfSection (fun _ => true) 0x1000 0x4000000000 0 0x1000100020).run readOnly).map
        (fun p => (p.1.isOk, p.2.sys.os.vmAllocs.length)) = some (false, 1) := by decide
    rw [hRun, Option.map_some] at hResult
    have hBoth := Option.some.inj hResult
    have hNot : p.1 ≠ .ok STATUS_SUCCESS := by
      intro hOk
      rw [hOk] at hBoth
      cases hBoth
    have hBefore : readOnly.sys.os.vmAllocs.length = 0 := by decide
    have hAfter : p.2.sys.os.vmAllocs.length = 1 := congrArg Prod.snd hBoth
    rw [(hFails hNot).records, hBefore] at hAfter
    exact absurd hAfter (by decide)
  · exact ((Run.new Process.boot.sys boot_sys_starts).after trivial (by decide)).after trivial (by decide)
  · obtain ⟨p, hRun, hDone, -⟩ := hMeets
    have hResult : ((Call.ntMapViewOfSection (fun _ => true) 0x1000 0x1000100010 0 0x50000010).run imaged).map
        (fun p => (p.1.toOption, p.2.sys.os.vmAllocs.map VmAlloc.base, p.2.sys.mem.peek 0x50000011)) =
          some (some STATUS_SUCCESS, [0x50000000], some 0x20) := by decide +kernel
    rw [hRun, Option.map_some] at hResult
    obtain ⟨hOk, hBases, hByte⟩ : p.1.toOption = some STATUS_SUCCESS ∧ p.2.sys.os.vmAllocs.map VmAlloc.base = [0x50000000] ∧
        p.2.sys.mem.peek 0x50000011 = some 0x20 := by
      simpa only [Option.some.injEq, Prod.mk.injEq] using hResult
    have hSuccess : p.1 = .ok STATUS_SUCCESS := by
      cases hEq : p.1 with
      | ok v =>
        rw [hEq] at hOk
        rw [Option.some.inj hOk]
      | error e =>
        rw [hEq] at hOk
        cases hOk
    obtain ⟨sec, view, base, hSection, hAsks, hShows⟩ := hDone hSuccess
    have hMember : base ∈ p.2.sys.os.vmAllocs.map VmAlloc.base := List.mem_map.mpr ⟨_, (hShows.record _).mpr (.inl rfl), rfl⟩
    rw [hBases] at hMember
    obtain rfl := List.mem_singleton.mp hMember
    have hImage : (imaged.sections 0x1000).map (fun sec => sec.image.map fun img => (imageSize img, imageByte img 0x11)) = some (some (0x2000, 0)) := by
      decide +kernel
    rw [hSection, Option.map_some] at hImage
    have hHere := Option.some.inj hImage
    cases hAsks with
    | image img hHas =>
      rw [hHas, Option.map_some] at hHere
      obtain ⟨hSize, hZero⟩ := Prod.mk.inj (Option.some.inj hHere)
      have hTold := hShows.bytes 0x11 (by dsimp only; rw [hSize]; decide)
      have hPlace : (0x50000000 : U64) + BitVec.ofNat 64 0x11 = 0x50000011 := rfl
      rw [hPlace, hByte] at hTold
      dsimp only at hTold
      rw [hZero] at hTold
      exact absurd hTold (by decide)
    | flat offset want hNone hOffset hWant =>
      rw [hNone] at hHere
      cases hHere

end Sections

end Exemu.Os
