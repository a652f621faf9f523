import Exemu.Os.Gdi
import Mathlib.Data.Nat.Bitwise

/-! # One slot, one object

As long as every creation that gets a slot succeeds, every handle given back is that of the object
in its slot, and no cursor is destroyed with bitmaps of its own, each slot handed out belongs to
one object that is whole, or is free.
-/
namespace Exemu.Os

namespace Gdi

open Fallible

/-! ## Handles -/

def typeOf (handle : U32) : U16 := (handle >>> 16).setWidth 16

theorem slotOf_toNat (handle : U32) : slotOf handle = handle.toNat % 65536 := by
  rw [slotOf, BitVec.toNat_and]
  exact Nat.and_two_pow_sub_one_eq_mod handle.toNat 16

theorem typeOf_toNat (handle : U32) : (typeOf handle).toNat = handle.toNat / 65536 := by
  have hBound := handle.isLt
  rw [typeOf, BitVec.toNat_setWidth, BitVec.toNat_ushiftRight, Nat.shiftRight_eq_div_pow]
  exact Nat.mod_eq_of_lt (by omega)

variable {slot : Nat}

theorem handleOf_toNat (ty : U16) (h : slot < 65536) : (handleOf ty slot).toNat = ty.toNat * 65536 + slot := by
  have hTy := ty.isLt
  have hLow : (BitVec.ofNat 32 slot &&& (0xFFFF : U32)).toNat = slot := by
    have hMask := slotOf_toNat (BitVec.ofNat 32 slot)
    rw [slotOf, BitVec.toNat_ofNat] at hMask
    rw [hMask]
    omega
  rw [handleOf, BitVec.toNat_or, hLow, BitVec.toNat_shiftLeft, BitVec.toNat_setWidth, Nat.mod_eq_of_lt (by omega : ty.toNat < 2 ^ 32),
    Nat.shiftLeft_eq, Nat.mod_eq_of_lt (by omega)]
  exact (Nat.shiftLeft_eq ty.toNat 16 ▸ Nat.shiftLeft_add_eq_or_of_lt h ty.toNat).symm

theorem slotOf_handleOf (ty : U16) (h : slot < 65536) : slotOf (handleOf ty slot) = slot := by
  rw [slotOf_toNat, handleOf_toNat ty h]
  omega

theorem typeOf_handleOf (ty : U16) (h : slot < 65536) : typeOf (handleOf ty slot) = ty := by
  refine BitVec.eq_of_toNat_eq ?_
  rw [typeOf_toNat, handleOf_toNat ty h]
  omega

theorem handle_ext {h h' : U32} (hType : typeOf h = typeOf h') (hSlot : slotOf h = slotOf h') : h = h' := by
  have hTypes := congrArg BitVec.toNat hType
  rw [typeOf_toNat, typeOf_toNat] at hTypes
  rw [slotOf_toNat, slotOf_toNat] at hSlot
  exact BitVec.eq_of_toNat_eq (by omega)

theorem fontSlot_eq (handle : U32) : handle &&& 0xFFFF = BitVec.ofNat 32 (slotOf handle) := by
  rw [slotOf, BitVec.ofNat_toNat, BitVec.setWidth_eq]

/-! ## Objects that are whole -/

variable {s s' : State} {live : List U32} {guest : Guest}

structure Registered (s : State) (h : U32) : Prop where
  dc : typeOf h = GdiType.DC → ∃ hwnd, (h, hwnd) ∈ s.dcs
  brush : typeOf h = GdiType.BRUSH → ∃ color, (h, color) ∈ s.brushes
  bitmap : typeOf h = GdiType.BITMAP → ∃ b, (h, b) ∈ s.bitmaps
  font : typeOf h = GdiType.FONT → BitVec.ofNat 32 (slotOf h) ∈ s.fonts

structure Intact (s : State) (h : U32) : Prop where
  entry : s.table (slotOf h) = ⟨typeOf h, GDI_ENTRY_IN_USE⟩
  registered : Registered s h

def FIRST : Nat := STOCK_SLOT_LAST + 1

/-- The claim on a state: each slot handed out has one object that is whole, or is on the free list. -/
structure Orderly (live : List U32) (s : State) : Prop where
  split : Slots.Split FIRST (live.map slotOf) s.slots
  intact : ∀ h ∈ live, Intact s h

structure Kept (live : List U32) (s : State) : Prop extends Orderly live s where
  unready : s.ready = false → live = [] ∧ s.slots.free = []
  first : s.ready = true → FIRST ≤ s.slots.next
  limit : s.slots.next ≤ GDI_TABLE_SLOTS
  unused : ∀ slot, isStock slot = false → slot ∉ live.map slotOf → (s.table slot).type = 0
  listed : ∀ x ∈ s.bitmaps, x.1 ∈ live

structure Grows (s s' : State) : Prop where
  ready : s'.ready = s.ready
  table : s'.table = s.table
  slots : s'.slots = s.slots
  dcs : ∀ x ∈ s.dcs, x ∈ s'.dcs
  brushes : ∀ x ∈ s.brushes, x ∈ s'.brushes
  bitmaps : ∀ x ∈ s.bitmaps, x ∈ s'.bitmaps
  fonts : ∀ x ∈ s.fonts, x ∈ s'.fonts

theorem Registered.grows {h : U32} (hReg : Registered s h) (hGrows : Grows s s') : Registered s' h where
  dc hTy := (hReg.dc hTy).imp fun _ hIn => hGrows.dcs _ hIn
  brush hTy := (hReg.brush hTy).imp fun _ hIn => hGrows.brushes _ hIn
  bitmap hTy := (hReg.bitmap hTy).imp fun _ hIn => hGrows.bitmaps _ hIn
  font hTy := hGrows.fonts _ (hReg.font hTy)

theorem Intact.grows {h : U32} (hIntact : Intact s h) (hGrows : Grows s s') : Intact s' h where
  entry := by rw [hGrows.table, hIntact.entry]
  registered := hIntact.registered.grows hGrows

theorem Grows.refl : Grows s s := ⟨rfl, rfl, rfl, fun _ hx => hx, fun _ hx => hx, fun _ hx => hx, fun _ hx => hx⟩

theorem Kept.grows (h : Kept live s) (hGrows : Grows s s') (hBitmaps : s'.bitmaps = s.bitmaps) : Kept live s' where
  split := hGrows.slots ▸ h.split
  intact x hx := (h.intact x hx).grows hGrows
  unready hReady := hGrows.slots ▸ h.unready (hGrows.ready ▸ hReady)
  first hReady := hGrows.slots ▸ h.first (hGrows.ready ▸ hReady)
  limit := hGrows.slots ▸ h.limit
  unused := hGrows.table ▸ h.unused
  listed := hBitmaps ▸ h.listed

theorem kept_new : Kept [] State.new where
  split := by
    refine ⟨List.nodup_nil, List.nodup_nil, fun _ hs => absurd hs List.not_mem_nil, fun slot => ⟨?_, fun h => absurd h.2 (Nat.not_lt_zero slot)⟩⟩
    rintro (hs | hs) <;> exact absurd hs List.not_mem_nil
  intact h hh := absurd hh List.not_mem_nil
  unready _ := ⟨rfl, rfl⟩
  first hReady := by cases hReady
  limit := Nat.zero_le _
  unused _ _ _ := rfl
  listed x hx := absurd hx List.not_mem_nil

theorem Kept.slot_bounds (h : Kept live s) {x : U32} (hx : x ∈ live) : FIRST ≤ slotOf x ∧ slotOf x < GDI_TABLE_SLOTS := by
  obtain ⟨hLow, hHigh⟩ := (h.split.out (slotOf x)).mp (.inl (List.mem_map_of_mem hx))
  exact ⟨hLow, Nat.lt_of_lt_of_le hHigh h.limit⟩

/-! ## Slots for objects -/

theorem ends_reach {a : Access} {Q : Except Access Unit → State → Prop} :
    Ends (reach guest a) s Q ↔ (guest.answers a = true → Q (.ok ()) s) ∧ (guest.answers a = false → Q (.error a) s) := by
  cases h : guest.answers a with
  | true =>
    rw [ends_of_run (p := (.ok (), s)) (by rw [reach, Fallible.step, h]; rfl)]
    exact ⟨fun hQ => ⟨fun _ => hQ, fun hNo => by (cases hNo)⟩, fun hQ => hQ.1 rfl⟩
  | false =>
    rw [ends_of_run (p := (.error a, s)) (by rw [reach, Fallible.step, h]; rfl)]
    exact ⟨fun hQ => ⟨fun hYes => by (cases hYes), fun _ => hQ⟩, fun hQ => hQ.2 rfl⟩

def EnsureFine (guest : Guest) (s : State) : Prop :=
  s.ready = true ∨ guest.answers .tableMap = true ∧ guest.answers .arenaMap = true ∧ guest.answers .pebTable = true ∧
    STOCK_OBJECTS.length ≤ guest.stock

def Available (guest : Guest) (s : State) : Prop :=
  EnsureFine guest s ∧ (s.ready = true → (Slots.take GDI_TABLE_SLOTS s.slots).isSome)

theorem publishStock_kept {stock : Nat × U16 × Option U32} (hStock : isStock stock.1 = true) (h : Kept [] s) : Kept [] (publishStock s stock) where
  split := h.split
  intact x hx := absurd hx List.not_mem_nil
  unready := h.unready
  first := h.first
  limit := h.limit
  listed := h.listed
  unused slot hSlot hOut := by
    have hNe : slot ≠ stock.1 := by
      rintro rfl
      rw [hStock] at hSlot
      cases hSlot
    show (Function.update s.table stock.1 _ slot).type = 0
    rw [Function.update_of_ne hNe]
    exact h.unused slot hSlot hOut

theorem foldl_publishStock (stocks : List (Nat × U16 × Option U32)) (hStocks : ∀ x ∈ stocks, isStock x.1 = true) (h : Kept [] s) :
    Kept [] (stocks.foldl publishStock s) ∧ (stocks.foldl publishStock s).ready = s.ready ∧ (stocks.foldl publishStock s).slots = s.slots := by
  induction stocks generalizing s with
  | nil => exact ⟨h, rfl, rfl⟩
  | cons x xs ih =>
    obtain ⟨hHead, hTail⟩ := List.forall_mem_cons.mp hStocks
    exact ih hTail (publishStock_kept hHead h)

theorem stock_objects_isStock : ∀ x ∈ STOCK_OBJECTS, isStock x.1 = true := by decide

theorem ensureGdiTable_spec (h : Kept live s) : Ends (ensureGdiTable guest) s fun r s' => Kept live s' ∧
    (r = .ok true ∧ EnsureFine guest s ∧ s'.ready = true ∧ (s.ready = true → s' = s) ∧ (s.ready = false → s'.slots = ⟨FIRST, []⟩) ∨
      r = .ok false ∧ ¬EnsureFine guest s) := by
  unfold ensureGdiTable
  rw [ends_bind, ends_get, then_ok]
  cases hReady : s.ready with
  | true => exact (ends_pure _).mpr ⟨h, .inl ⟨rfl, .inl hReady, hReady, fun _ => rfl, fun hNo => by cases hNo⟩⟩
  | false =>
    obtain ⟨rfl, hFree⟩ := h.unready hReady
    rw [if_neg (by decide)]
    split
    · rename_i hRefused
      refine (ends_pure _).mpr ⟨h, .inr ⟨rfl, ?_⟩⟩
      rintro (hYes | ⟨hTable, hArena, hPeb, -⟩)
      · rw [hReady] at hYes
        cases hYes
      · rw [hTable, hArena, hPeb] at hRefused
        cases hRefused
    · rename_i hMapped
      simp only [Bool.not_eq_true, Bool.not_eq_false', Bool.and_eq_true] at hMapped
      have hMade : Kept [] { s with ready := true, table := fun _ => ⟨0, 0⟩, slots := { s.slots with next := STOCK_SLOT_LAST + 1 } } :=
        { split := by
            show Slots.Split FIRST [] ⟨FIRST, s.slots.free⟩
            rw [hFree]
            exact Slots.Split.start FIRST
          intact := fun x hx => absurd hx List.not_mem_nil
          unready := fun hNo => by cases hNo
          first := fun _ => Nat.le_refl _
          limit := Nat.le_of_ble_eq_true rfl
          unused := fun _ _ _ => rfl
          listed := h.listed }
      obtain ⟨hPublished, hReady', hSlots⟩ := foldl_publishStock (STOCK_OBJECTS.take guest.stock)
        (fun x hx => stock_objects_isStock x (List.mem_of_mem_take hx)) hMade
      rw [ends_bind, ends_modify, then_ok]
      unfold publishStockObjects
      rw [ends_bind, ends_modify, then_ok, ends_pure]
      refine ⟨hPublished, ?_⟩
      by_cases hAll : STOCK_OBJECTS.length ≤ guest.stock
      · refine .inl ⟨congrArg Except.ok (decide_eq_true hAll), .inr ⟨hMapped.1.1, hMapped.1.2, hMapped.2, hAll⟩, hReady', fun hNo => by (cases hNo),
          fun _ => hSlots.trans ?_⟩
        show Slots.mk _ s.slots.free = _
        rw [hFree]
        rfl
      · refine .inr ⟨congrArg Except.ok (decide_eq_false hAll), ?_⟩
        rintro (hYes | ⟨-, -, -, hEnough⟩)
        · rw [hReady] at hYes
          cases hYes
        · exact hAll hEnough

structure Filled (live : List U32) (ty : U16) (slot : Nat) (s : State) : Prop where
  split : Slots.Split FIRST (slot :: live.map slotOf) s.slots
  ready : s.ready = true
  entry : s.table slot = ⟨ty, GDI_ENTRY_IN_USE⟩
  intact : ∀ h ∈ live, Intact s h
  first : FIRST ≤ s.slots.next
  limit : s.slots.next ≤ GDI_TABLE_SLOTS
  unused : ∀ other, isStock other = false → other ≠ slot → other ∉ live.map slotOf → (s.table other).type = 0
  listed : ∀ x ∈ s.bitmaps, x.1 ∈ live

section Filled

variable {ty : U16} {slot : Nat}

theorem Filled.slot_lt (h : Filled live ty slot s) : slot < 65536 := by
  have hHigh := ((h.split.out slot).mp (.inl List.mem_cons_self)).2
  have hLimit : s.slots.next ≤ 4096 := h.limit
  omega

theorem Filled.kept (h : Filled live ty slot s) (hGrows : Grows s s') (hReg : Registered s' (handleOf ty slot))
    (hListed : ∀ x ∈ s'.bitmaps, x ∈ s.bitmaps ∨ x.1 = handleOf ty slot) : Kept (handleOf ty slot :: live) s' := by
  have hSlot := slotOf_handleOf ty h.slot_lt
  constructor
  · constructor
    · rw [List.map_cons, hSlot, hGrows.slots]
      exact h.split
    · refine List.forall_mem_cons.mpr ⟨⟨?_, hReg⟩, fun x hx => (h.intact x hx).grows hGrows⟩
      rw [hSlot, typeOf_handleOf ty h.slot_lt, hGrows.table]
      exact h.entry
  · intro hNo
    rw [hGrows.ready, h.ready] at hNo
    cases hNo
  · exact fun _ => hGrows.slots ▸ h.first
  · exact hGrows.slots ▸ h.limit
  · intro other hOther hOut
    rw [List.map_cons, hSlot, List.mem_cons, not_or] at hOut
    exact hGrows.table ▸ h.unused other hOther hOut.1 hOut.2
  · intro x hx
    rcases hListed x hx with hOld | hNew
    · exact List.mem_cons_of_mem _ (h.listed x hOld)
    · exact List.mem_cons.mpr (.inl hNew)

theorem Filled.lost (h : Filled live ty slot s) : ¬Slots.Split FIRST (live.map slotOf) s.slots :=
  h.split.lost List.mem_cons_self (List.nodup_cons.mp h.split.once).1

theorem Filled.handle_ne (h : Filled live ty slot s) : handleOf ty slot ≠ 0 := by
  intro hZero
  have hSlot := slotOf_handleOf ty h.slot_lt
  rw [hZero] at hSlot
  have hLow := ((h.split.out slot).mp (.inl List.mem_cons_self)).1
  rw [← hSlot] at hLow
  exact absurd hLow (by decide)

end Filled

def EntryFine (guest : Guest) : Prop :=
  guest.answers .zeroObject = true ∧ guest.answers .entryGeneration = true ∧ guest.answers .entryType = true ∧ guest.answers .entryObject = true

theorem fillEntry_spec (ty : U16) (slot : Nat) : Ends (fillEntry guest ty slot) s fun r s' => s'.slots = s.slots ∧
    (r = .ok (handleOf ty slot) ∧ EntryFine guest ∧ s' = { s with table := Function.update s.table slot ⟨ty, GDI_ENTRY_IN_USE⟩ } ∨
      (∃ e, r = .error e) ∧ ¬EntryFine guest) := by
  unfold fillEntry
  rw [ends_bind, ends_reach]
  refine ⟨fun hZero => ?_, fun hNo => (then_error _).mpr ⟨rfl, .inr ⟨⟨_, rfl⟩, fun hFine => ?_⟩⟩⟩
  · rw [then_ok, ends_bind, ends_reach]
    refine ⟨fun hGeneration => ?_, fun hNo => (then_error _).mpr ⟨rfl, .inr ⟨⟨_, rfl⟩, fun hFine => ?_⟩⟩⟩
    · rw [then_ok, ends_bind]
      refine (ends_modify _).mpr ?_
      rw [then_ok, ends_bind, ends_reach]
      refine ⟨fun hType => ?_, fun hNo => (then_error _).mpr ⟨rfl, .inr ⟨⟨_, rfl⟩, fun hFine => ?_⟩⟩⟩
      · rw [then_ok, ends_bind]
        refine (ends_modify _).mpr ?_
        rw [then_ok, ends_bind, ends_reach]
        refine ⟨fun hObject => ?_, fun hNo => (then_error _).mpr ⟨rfl, .inr ⟨⟨_, rfl⟩, fun hFine => ?_⟩⟩⟩
        · rw [then_ok, ends_pure]
          refine ⟨rfl, .inl ⟨rfl, ⟨hZero, hGeneration, hType, hObject⟩, ?_⟩⟩
          dsimp only
          rw [Function.update_self, Function.update_idem]
        · rw [hFine.2.2.2] at hNo
          cases hNo
      · rw [hFine.2.2.1] at hNo
        cases hNo
    · rw [hFine.2.1] at hNo
      cases hNo
  · rw [hFine.1] at hNo
    cases hNo

theorem Kept.filled {slots : Slots} (h : Kept live s) (hReady : s.ready = true) (hTake : Slots.take GDI_TABLE_SLOTS s.slots = some (slot, slots))
    (ty : U16) : Filled live ty slot { s with slots := slots, table := Function.update s.table slot ⟨ty, GDI_ENTRY_IN_USE⟩ } := by
  have hFresh := (h.split.take_fresh hTake).1
  refine ⟨h.split.take (h.first hReady) hTake, hReady, Function.update_self .., fun x hx => ⟨?_, ?_⟩, ?_, ?_, fun other hOther hNe hOut => ?_, h.listed⟩
  · have hNe : slotOf x ≠ slot := by
      rintro rfl
      exact hFresh (List.mem_map_of_mem hx)
    exact (Function.update_of_ne hNe ..).trans (h.intact x hx).entry
  · have hReg := (h.intact x hx).registered
    exact ⟨hReg.dc, hReg.brush, hReg.bitmap, hReg.font⟩
  · exact Nat.le_trans (h.first hReady) (Slots.take_next hTake)
  · exact Slots.take_limit h.limit hTake
  · show (Function.update s.table slot _ other).type = 0
    rw [Function.update_of_ne hNe]
    exact h.unused other hOther hOut

theorem ends_takeSlot {Q : Except Access (Option Nat) → State → Prop} : Ends takeSlot s Q ↔
    (∀ slot slots, Slots.take GDI_TABLE_SLOTS s.slots = some (slot, slots) → Q (.ok (some slot)) { s with slots }) ∧
      (Slots.take GDI_TABLE_SLOTS s.slots = none → Q (.ok none) s) := by
  cases hTake : Slots.take GDI_TABLE_SLOTS s.slots with
  | none =>
    rw [ends_of_run (p := (.ok none, s)) (by rw [takeSlot, Fallible.step, hTake])]
    exact ⟨fun hQ => ⟨fun _ _ hNo => by (cases hNo), fun _ => hQ⟩, fun hQ => hQ.2 rfl⟩
  | some taken =>
    rw [ends_of_run (p := (.ok (some taken.1), { s with slots := taken.2 })) (by rw [takeSlot, Fallible.step, hTake])]
    refine ⟨fun hQ => ⟨fun slot slots hEq => ?_, fun hNo => by (cases hNo)⟩, fun hQ => hQ.1 _ _ rfl⟩
    cases hEq
    exact hQ

theorem allocGdiObject_spec (ty : U16) (h : Kept live s) : Ends (allocGdiObject guest ty) s fun r s' =>
    (r = .ok none ∧ ¬Available guest s ∧ Kept live s') ∨
      (∃ slot, r = .ok (some (handleOf ty slot)) ∧ Available guest s ∧ EntryFine guest ∧ Filled live ty slot s') ∨
      ((∃ e, r = .error e) ∧ Available guest s ∧ ¬EntryFine guest ∧ ¬Slots.Split FIRST (live.map slotOf) s'.slots) := by
  unfold allocGdiObject
  rw [ends_bind]
  refine (ensureGdiTable_spec h).mono ?_
  rintro r s₁ ⟨hKept, ⟨rfl, hFine, hReady, hSame, hNew⟩ | ⟨rfl, hNot⟩⟩
  · rw [then_ok, if_neg (by decide), ends_bind]
    have hAvailable : Available guest s ↔ (Slots.take GDI_TABLE_SLOTS s₁.slots).isSome := by
      cases hBefore : s.ready with
      | true =>
        rw [hSame hBefore]
        exact ⟨fun hAv => hAv.2 hBefore, fun hSome => ⟨hFine, fun _ => hSome⟩⟩
      | false =>
        rw [hNew hBefore]
        refine ⟨fun _ => rfl, fun _ => ⟨hFine, fun hYes => ?_⟩⟩
        rw [hBefore] at hYes
        cases hYes
    refine ends_takeSlot.mpr ⟨fun slot slots hTake => ?_, fun hTake => ?_⟩
    · have hHad : Available guest s := hAvailable.mpr (by rw [hTake]; rfl)
      rw [then_ok]
      dsimp only
      rw [ends_bind]
      refine (fillEntry_spec ty slot).mono ?_
      rintro r s₂ ⟨hSlots, ⟨rfl, hEntry, rfl⟩ | ⟨⟨e, rfl⟩, hEntry⟩⟩
      · rw [then_ok, ends_pure]
        exact .inr (.inl ⟨slot, rfl, hHad, hEntry, hKept.filled hReady hTake ty⟩)
      · refine .inr (.inr ⟨⟨e, rfl⟩, hHad, hEntry, ?_⟩)
        rw [hSlots]
        exact hKept.split.take_lost (hKept.first hReady) hTake
    · refine (then_ok _).mpr ((ends_pure _).mpr (.inl ⟨rfl, ?_, hKept⟩))
      rw [hAvailable, hTake]
      decide
  · rw [then_ok, if_pos (by decide), ends_pure]
    exact .inl ⟨rfl, fun hAvailable => hNot hAvailable.1, hKept⟩

end Gdi

end Exemu.Os
