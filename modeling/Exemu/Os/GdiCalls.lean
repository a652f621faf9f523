import Exemu.Os.GdiSlots

/-! # Creations, deletions and runs of them

A creation that gets a slot fails without giving it back; a deletion goes by the slot of its
handle and does not look at the type.
-/
namespace Exemu.Os

namespace Gdi

open Fallible

variable {s s' : State} {live : List U32} {guest : Guest} {r : Except Access U32}

/-- The claim holds of the state behind a call exactly if the call is safe. -/
inductive Settles (safe : Prop) (live : List U32) (s : State) : Prop where
  | kept (hSafe : safe) (hKept : Kept live s)
  | broken (hNot : ¬safe) (hSplit : ¬Slots.Split FIRST (live.map slotOf) s.slots)

variable {safe possible fine : Prop} {handle : U32}

theorem Settles.congr {safe' : Prop} (h : Settles safe live s) (hSafe : safe ↔ safe') : Settles safe' live s := by
  cases h with
  | kept hYes hKept => exact .kept (hSafe.mp hYes) hKept
  | broken hNot hSplit => exact .broken (fun hYes => hNot (hSafe.mpr hYes)) hSplit

theorem Settles.orderly_iff (h : Settles safe live s) : Orderly live s ↔ safe := by
  cases h with
  | kept hSafe hKept => exact ⟨fun _ => hSafe, fun _ => hKept.toOrderly⟩
  | broken hNot hSplit => exact ⟨fun hOrderly => absurd hOrderly.split hSplit, fun hSafe => absurd hSafe hNot⟩

/-! ## Creation -/

def NoHandle (r : Except Access U32) : Prop := ∀ h, r = .ok h → h = 0

theorem noHandle_zero : NoHandle (.ok 0) := by
  rintro h hEq
  cases hEq
  rfl

theorem noHandle_error (e : Access) : NoHandle (.error e) := by
  rintro h hEq
  cases hEq

/-- What a creation leaves: no object when it cannot have one, and otherwise one, unless it fails. -/
inductive Created (possible fine : Prop) (live : List U32) (r : Except Access U32) (s' : State) : Prop where
  | refused (hNot : ¬possible) (hKept : Kept live s') (hResult : NoHandle r)
  | made (hPossible : possible) (hFine : fine) (h : U32) (hResult : r = .ok h) (hNe : h ≠ 0) (hKept : Kept (h :: live) s')
  | failed (hPossible : possible) (hNot : ¬fine) (hResult : NoHandle r) (hLost : ¬Slots.Split FIRST (live.map slotOf) s'.slots)

theorem Created.congr {possible' fine' : Prop} (h : Created possible fine live r s') (hPossible : possible ↔ possible') (hFine : possible → (fine ↔ fine')) :
    Created possible' fine' live r s' := by
  cases h with
  | refused hNot hKept hResult => exact .refused (fun hYes => hNot (hPossible.mpr hYes)) hKept hResult
  | made hHad hOk h hResult hNe hKept => exact .made (hPossible.mp hHad) ((hFine hHad).mp hOk) h hResult hNe hKept
  | failed hHad hNot hResult hLost => exact .failed (hPossible.mp hHad) (fun hYes => hNot ((hFine hHad).mpr hYes)) hResult hLost

theorem Kept.lost {h : U32} (hKept : Kept (h :: live) s) : ¬Slots.Split FIRST (live.map slotOf) s.slots := by
  have hSplit := hKept.split
  exact hSplit.lost List.mem_cons_self (List.nodup_cons.mp hSplit.once).1

section Creation

variable {ty : U16} {possible fine fine' : Prop}

theorem created_object {f : Option U32 → Act U32} (hKept : Kept live s) (hNone : f none = pure 0)
    (hSome : ∀ slot s₁, Filled live ty slot s₁ → Ends (f (some (handleOf ty slot))) s₁ fun r s' =>
      (r = .ok (handleOf ty slot) ∧ fine' ∧ Kept (handleOf ty slot :: live) s') ∨ (NoHandle r ∧ ¬fine' ∧ s'.slots = s₁.slots)) :
    Ends (allocGdiObject guest ty >>= f) s (Created (Available guest s) (EntryFine guest ∧ fine') live) := by
  refine ends_bind.mpr ((allocGdiObject_spec ty hKept).mono fun r s₁ => ?_)
  rintro (⟨rfl, hNot, hAfter⟩ | ⟨slot, rfl, hHad, hEntry, hFilled⟩ | ⟨⟨e, rfl⟩, hHad, hEntry, hLost⟩)
  · rw [then_ok, hNone, ends_pure]
    exact .refused hNot hAfter noHandle_zero
  · rw [then_ok]
    refine (hSome slot s₁ hFilled).mono fun r s' => ?_
    rintro (⟨rfl, hOk, hAfter⟩ | ⟨hResult, hNo, hSlots⟩)
    · exact .made hHad ⟨hEntry, hOk⟩ _ rfl hFilled.handle_ne hAfter
    · exact .failed hHad (fun hBoth => hNo hBoth.2) hResult (hSlots ▸ hFilled.lost)
  · exact .failed hHad (fun hBoth => hEntry hBoth.1) (noHandle_error e) hLost

theorem created_entry {f : Option U32 → Act U32} (hKept : Kept live s) (hNone : f none = pure 0)
    (hSome : ∀ slot s₁, Filled live ty slot s₁ → Ends (f (some (handleOf ty slot))) s₁ fun r s' =>
      r = .ok (handleOf ty slot) ∧ Kept (handleOf ty slot :: live) s') :
    Ends (allocGdiObject guest ty >>= f) s (Created (Available guest s) (EntryFine guest) live) := by
  refine (created_object hKept hNone fun slot s₁ hFilled => (hSome slot s₁ hFilled).mono ?_).mono fun r s' hCreated =>
    hCreated.congr Iff.rfl fun _ => iff_of_eq (and_true _)
  rintro r s' ⟨hResult, hAfter⟩
  exact .inl ⟨hResult, trivial, hAfter⟩

variable {x : Act U32}

theorem created_then {f : U32 → Act U32} (hx : Ends x s (Created possible fine live)) (hZero : ∀ s₁, Ends (f 0) s₁ fun r s' => NoHandle r ∧ s' = s₁)
    (hSome : ∀ h s₁, h ≠ 0 → Ends (f h) s₁ fun r s' =>
      Grows s₁ s' ∧ s'.bitmaps = s₁.bitmaps ∧ (r = .ok h ∧ fine' ∨ NoHandle r ∧ ¬fine')) : Ends (x >>= f) s (Created possible (fine ∧ fine') live) := by
  refine ends_bind.mpr (hx.mono fun r s₁ hCreated => ?_)
  cases hCreated with
  | refused hNot hKept hResult =>
    cases r with
    | error e => exact .refused hNot hKept hResult
    | ok h =>
      rw [then_ok, hResult h rfl]
      refine (hZero s₁).mono ?_
      rintro r s' ⟨hResult, rfl⟩
      exact .refused hNot hKept hResult
  | made hHad hOk h hResult hNe hKept =>
    subst hResult
    rw [then_ok]
    refine (hSome h s₁ hNe).mono ?_
    rintro r s' ⟨hGrows, hBitmaps, ⟨rfl, hOk'⟩ | ⟨hResult, hNot⟩⟩
    · exact .made hHad ⟨hOk, hOk'⟩ h rfl hNe (hKept.grows hGrows hBitmaps)
    · exact .failed hHad (fun hBoth => hNot hBoth.2) hResult (hKept.grows hGrows hBitmaps).lost
  | failed hHad hNot hResult hLost =>
    cases r with
    | error e => exact .failed hHad (fun hBoth => hNot hBoth.1) hResult hLost
    | ok h =>
      rw [then_ok, hResult h rfl]
      refine (hZero s₁).mono ?_
      rintro r s' ⟨hResult, rfl⟩
      exact .failed hHad (fun hBoth => hNot hBoth.1) hResult hLost

theorem created_unless {c : Prop} [Decidable c] (hKept : Kept live s) (hx : Ends x s (Created possible fine live)) :
    Ends (if c then pure 0 else x) s (Created (¬c ∧ possible) fine live) := by
  split
  · rename_i hYes
    exact (ends_pure _).mpr (.refused (fun hBoth => hBoth.1 hYes) hKept noHandle_zero)
  · rename_i hNo
    exact hx.mono fun r s' hCreated => hCreated.congr ⟨fun hHad => ⟨hNo, hHad⟩, And.right⟩ fun _ => Iff.rfl

theorem created_behind {a : Access} (hKept : Kept live s) (hx : Ends x s (Created possible fine live)) :
    Ends (reach guest a >>= fun _ => x) s (Created (guest.answers a = true ∧ possible) fine live) := by
  refine ends_bind.mpr (ends_reach.mpr ⟨fun hYes => ?_, fun hNo => .refused (fun hBoth => ?_) hKept (noHandle_error a)⟩)
  · rw [then_ok]
    exact hx.mono fun r s' hCreated => hCreated.congr ⟨fun hHad => ⟨hYes, hHad⟩, And.right⟩ fun _ => Iff.rfl
  · rw [hBoth.1] at hNo
    cases hNo

theorem ends_result (h : U32) (a : Access) : Ends (reach guest a >>= fun _ => (pure h : Act U32)) s fun r s' =>
    Grows s s' ∧ s'.bitmaps = s.bitmaps ∧ (r = .ok h ∧ guest.answers a = true ∨ NoHandle r ∧ ¬guest.answers a = true) := by
  refine ends_bind.mpr (ends_reach.mpr ⟨fun hYes => ?_, fun hNo => ?_⟩)
  · rw [then_ok, ends_pure]
    exact ⟨Grows.refl, rfl, .inl ⟨rfl, hYes⟩⟩
  · refine ⟨Grows.refl, rfl, .inr ⟨noHandle_error a, ?_⟩⟩
    rw [hNo]
    decide

end Creation

/-! ## Each creating call -/

theorem not_bnot {b : Bool} : ¬(!b) = true ↔ b = true := by cases b <;> decide

theorem allocDc_spec (hwnd : U32) (h : Kept live s) :
    Ends (allocDc guest hwnd) s (Created (Available guest s) (EntryFine guest ∧ guest.answers .dcOrigin = true) live) := by
  unfold allocDc
  refine created_object h rfl fun slot s₁ hFilled => ?_
  dsimp only
  refine ends_bind.mpr (ends_reach.mpr ⟨fun hYes => ?_, fun hNo => .inr ⟨noHandle_error _, ?_, rfl⟩⟩)
  · rw [then_ok, ends_bind, ends_modify, then_ok, ends_pure]
    refine .inl ⟨rfl, hYes, hFilled.kept ?_ ?_ fun x hx => .inl hx⟩
    · exact ⟨rfl, rfl, rfl, fun x hx => List.mem_append_left _ hx, fun x hx => hx, fun x hx => hx, fun x hx => hx⟩
    · have hTy := typeOf_handleOf GdiType.DC hFilled.slot_lt
      refine ⟨fun _ => ⟨hwnd, List.mem_append_right _ List.mem_cons_self⟩, ?_, ?_, ?_⟩ <;>
        exact fun hOther => absurd (hTy.symm.trans hOther) (by decide)
  · rw [hNo]
    decide

theorem allocBrush_spec (color : U32) (h : Kept live s) :
    Ends (allocBrush guest color) s (Created (Available guest s) (EntryFine guest) live) := by
  unfold allocBrush
  refine created_entry h rfl fun slot s₁ hFilled => ?_
  dsimp only
  rw [ends_bind, ends_modify, then_ok, ends_pure]
  refine ⟨rfl, hFilled.kept ?_ ?_ fun x hx => .inl hx⟩
  · exact ⟨rfl, rfl, rfl, fun x hx => hx, fun x hx => List.mem_append_left _ hx, fun x hx => hx, fun x hx => hx⟩
  · have hTy := typeOf_handleOf GdiType.BRUSH hFilled.slot_lt
    refine ⟨?_, fun _ => ⟨color, List.mem_append_right _ List.mem_cons_self⟩, ?_, ?_⟩ <;>
      exact fun hOther => absurd (hTy.symm.trans hOther) (by decide)

theorem created_plain {ty : U16} (hDc : ty ≠ GdiType.DC) (hBrush : ty ≠ GdiType.BRUSH) (hBitmap : ty ≠ GdiType.BITMAP) (hFont : ty ≠ GdiType.FONT)
    (h : Kept live s) :
    Ends (allocGdiObject guest ty >>= fun handle => (pure (handle.getD 0) : Act U32)) s
      (Created (Available guest s) (EntryFine guest) live) := by
  refine created_entry h rfl fun slot s₁ hFilled => (ends_pure _).mpr (⟨rfl, hFilled.kept Grows.refl ?_ fun x hx => .inl hx⟩)
  have hTy := typeOf_handleOf ty hFilled.slot_lt
  exact ⟨fun hOther => absurd (hTy.symm.trans hOther) hDc, fun hOther => absurd (hTy.symm.trans hOther) hBrush,
    fun hOther => absurd (hTy.symm.trans hOther) hBitmap, fun hOther => absurd (hTy.symm.trans hOther) hFont⟩

theorem ntGdiHfontCreate_spec (enumex : Bool) (h : Kept live s) :
    Ends (ntGdiHfontCreate guest enumex) s
      (Created ((enumex = true ∧ guest.answers .argument = true) ∧ Available guest s) (EntryFine guest) live) := by
  unfold ntGdiHfontCreate
  refine Ends.mono (created_unless h (created_behind h (created_entry h rfl fun slot s₁ hFilled => ?_))) fun r s' hAfter =>
    hAfter.congr ?_ fun _ => Iff.rfl
  · dsimp only
    rw [ends_bind, ends_modify, then_ok, ends_pure]
    refine ⟨rfl, hFilled.kept ?_ ?_ fun x hx => .inl hx⟩
    · exact ⟨rfl, rfl, rfl, fun x hx => hx, fun x hx => hx, fun x hx => hx, fun x hx => List.mem_append_left _ hx⟩
    · have hTy := typeOf_handleOf GdiType.FONT hFilled.slot_lt
      refine ⟨?_, ?_, ?_, fun _ => List.mem_append_right _ ?_⟩
      · exact fun hOther => absurd (hTy.symm.trans hOther) (by decide)
      · exact fun hOther => absurd (hTy.symm.trans hOther) (by decide)
      · exact fun hOther => absurd (hTy.symm.trans hOther) (by decide)
      · rw [fontSlot_eq]
        exact List.mem_cons_self
  · rw [not_bnot]
    exact and_assoc.symm

def Sized (w h : BitVec 32) (planes bpp : U32) : Prop :=
  ¬(w.toInt ≤ 0 ∨ h.toInt.natAbs = 0 ∨ strideOf w (if planes = 0 then 1 else planes) bpp = 0)

theorem allocBitmap_spec (w height : BitVec 32) (planes bpp : U32) (topDown : Bool) (h : Kept live s) :
    Ends (allocBitmap guest w height planes bpp topDown) s
      (Created (Sized w height planes bpp ∧ Available guest s) (EntryFine guest ∧ guest.bits.isSome = true) live) := by
  unfold allocBitmap
  extract_lets planes' rows stride
  refine created_unless h (created_object h rfl fun slot s₁ hFilled => ?_)
  dsimp only
  cases hBits : guest.bits with
  | none => exact (ends_pure _).mpr (.inr ⟨noHandle_zero, by decide, rfl⟩)
  | some bits =>
    dsimp only
    rw [ends_bind, ends_modify, then_ok, ends_pure]
    refine .inl ⟨rfl, rfl, hFilled.kept ?_ ?_ fun x hx => ?_⟩
    · exact ⟨rfl, rfl, rfl, fun x hx => hx, fun x hx => hx, fun x hx => List.mem_append_left _ hx, fun x hx => hx⟩
    · have hTy := typeOf_handleOf GdiType.BITMAP hFilled.slot_lt
      refine ⟨?_, ?_, fun _ => ⟨_, List.mem_append_right _ List.mem_cons_self⟩, ?_⟩ <;>
        exact fun hOther => absurd (hTy.symm.trans hOther) (by decide)
    · rcases List.mem_append.mp hx with hOld | hNew
      · exact .inl hOld
      · exact .inr (congrArg Prod.fst (List.mem_singleton.mp hNew))

/-! ## Deletion -/

def Matches (guest : Guest) (s : State) (handle : U32) : Prop :=
  ¬(slotOf handle = 0 ∨ GDI_TABLE_SLOTS ≤ slotOf handle ∨ isStock (slotOf handle) = true) → s.ready = true →
    guest.answers .entryRead = true → (s.table (slotOf handle)).type &&& GDI_ENTRY_IN_USE ≠ 0 → guest.answers .entryFree = true →
      (s.table (slotOf handle)).generation = typeOf handle

theorem Kept.not_stock (h : Kept live s) {x : U32} (hx : x ∈ live) :
    ¬(slotOf x = 0 ∨ GDI_TABLE_SLOTS ≤ slotOf x ∨ isStock (slotOf x) = true) := by
  obtain ⟨hLow, hHigh⟩ := h.slot_bounds hx
  have hLow' : 0x37 < slotOf x := hLow
  rintro (hZero | hPast | hStock)
  · omega
  · omega
  · have hLast := of_decide_eq_true (Bool.and_eq_true_iff.mp hStock).2
    exact absurd hLow' (Nat.not_lt.mpr hLast)

theorem Kept.erase_eq (h : Kept live s) (hNot : slotOf handle = 0 ∨ GDI_TABLE_SLOTS ≤ slotOf handle ∨ isStock (slotOf handle) = true) :
    live.erase handle = live :=
  List.erase_of_not_mem fun hIn => h.not_stock hIn hNot

theorem Kept.owner (h : Kept live s) {slot : Nat} (hStock : isStock slot = false) (hUse : (s.table slot).type &&& GDI_ENTRY_IN_USE ≠ 0) :
    ∃ x ∈ live, slotOf x = slot := by
  by_contra hNone
  refine hUse ?_
  rw [h.unused slot hStock fun hIn => hNone (List.mem_map.mp hIn)]
  rfl

theorem Kept.slot_ne (h : Kept live s) {x y : U32} (hx : x ∈ live) (hy : y ∈ live) (hNe : x ≠ y) : slotOf x ≠ slotOf y :=
  fun hSlot => hNe (List.inj_on_of_nodup_map h.split.once hx hy hSlot)

def forget (handle : U32) (s : State) : State :=
  { s with
    brushes := s.brushes.filter fun x => x.1 ≠ handle
    dcs := s.dcs.filter fun x => x.1 ≠ handle
    bitmaps := s.bitmaps.filter fun x => x.1 ≠ handle
    fonts := s.fonts.filter fun x => x ≠ BitVec.ofNat 32 (slotOf handle) }

theorem slotOf_lt (handle : U32) : slotOf handle < 65536 := by
  rw [slotOf_toNat]
  exact Nat.mod_lt _ (by decide)

theorem fontSlot_ne {x : U32} (h : slotOf x ≠ slotOf handle) : BitVec.ofNat 32 (slotOf x) ≠ BitVec.ofNat 32 (slotOf handle) := by
  intro hEq
  have hNat := congrArg BitVec.toNat hEq
  have hLeft := slotOf_lt x
  have hRight := slotOf_lt handle
  rw [BitVec.toNat_ofNat, BitVec.toNat_ofNat] at hNat
  omega

theorem Registered.forgotten {x : U32} (hReg : Registered s x) (hSlot : slotOf x ≠ slotOf handle) : Registered (forget handle s) x := by
  have hNe : x ≠ handle := fun hEq => hSlot (congrArg slotOf hEq)
  constructor
  · exact fun hTy => (hReg.dc hTy).imp fun _ hIn => List.mem_filter.mpr ⟨hIn, decide_eq_true hNe⟩
  · exact fun hTy => (hReg.brush hTy).imp fun _ hIn => List.mem_filter.mpr ⟨hIn, decide_eq_true hNe⟩
  · exact fun hTy => (hReg.bitmap hTy).imp fun _ hIn => List.mem_filter.mpr ⟨hIn, decide_eq_true hNe⟩
  · exact fun hTy => List.mem_filter.mpr ⟨hReg.font hTy, decide_eq_true (fontSlot_ne hSlot)⟩

theorem Kept.forgotten (h : Kept live s) (hNone : ∀ x ∈ live, slotOf x ≠ slotOf handle) : Kept live (forget handle s) where
  split := h.split
  intact x hx := ⟨(h.intact x hx).entry, (h.intact x hx).registered.forgotten (hNone x hx)⟩
  unready := h.unready
  first := h.first
  limit := h.limit
  unused := h.unused
  listed x hx := h.listed x (List.mem_filter.mp hx).1

theorem Kept.give (h : Kept live s) (hIn : handle ∈ live) :
    Kept (live.erase handle) (forget handle
      { s with table := Function.update s.table (slotOf handle) { s.table (slotOf handle) with type := 0 }, slots := s.slots.give (slotOf handle) }) := by
  have hNodup := List.Nodup.of_map slotOf h.split.once
  have hMap : (live.erase handle).map slotOf = (live.map slotOf).erase (slotOf handle) :=
    Slots.map_erase fun x hx => List.inj_on_of_nodup_map h.split.once hx hIn
  have hOther : ∀ x ∈ live.erase handle, x ∈ live ∧ slotOf x ≠ slotOf handle := by
    intro x hx
    obtain ⟨hNe, hx⟩ := hNodup.mem_erase_iff.mp hx
    exact ⟨hx, h.slot_ne hx hIn hNe⟩
  constructor
  · constructor
    · rw [hMap]
      exact h.split.give (List.mem_map_of_mem hIn)
    · intro x hx
      obtain ⟨hx, hSlot⟩ := hOther x hx
      exact ⟨(Function.update_of_ne hSlot ..).trans (h.intact x hx).entry,
        Registered.forgotten ⟨(h.intact x hx).registered.dc, (h.intact x hx).registered.brush, (h.intact x hx).registered.bitmap,
          (h.intact x hx).registered.font⟩ hSlot⟩
  · intro hReady
    rw [(h.unready hReady).1] at hIn
    exact absurd hIn List.not_mem_nil
  · exact h.first
  · exact h.limit
  · intro slot hStock hOut
    show (Function.update s.table (slotOf handle) _ slot).type = 0
    by_cases hEq : slot = slotOf handle
    · rw [hEq, Function.update_self]
    · rw [Function.update_of_ne hEq]
      refine h.unused slot hStock fun hUsed => hOut ?_
      rw [hMap]
      exact h.split.once.mem_erase_iff.mpr ⟨hEq, hUsed⟩
  · intro x hx
    obtain ⟨hx, hNe⟩ := List.mem_filter.mp hx
    exact hNodup.mem_erase_iff.mpr ⟨of_decide_eq_true hNe, h.listed x hx⟩

def removed {α : Type} (handle : U32) (live : List U32) : Except Access α → List U32
  | .ok _ => live.erase handle
  | .error _ => live

theorem kept_out {α : Type} (h : Kept live s) (hOut : slotOf handle = 0 ∨ GDI_TABLE_SLOTS ≤ slotOf handle ∨ isStock (slotOf handle) = true) (a : α) :
    Settles (Matches guest s handle) (removed handle live (.ok a)) s := by
  refine .kept (fun hRange => absurd hOut hRange) ?_
  show Kept (live.erase handle) s
  rw [h.erase_eq hOut]
  exact h

theorem Kept.deleted (h : Kept live s) (hStock : isStock (slotOf handle) = false) (hUse : (s.table (slotOf handle)).type &&& GDI_ENTRY_IN_USE ≠ 0) :
    Settles ((s.table (slotOf handle)).generation = typeOf handle) (live.erase handle) (forget handle
      { s with table := Function.update s.table (slotOf handle) { s.table (slotOf handle) with type := 0 }, slots := s.slots.give (slotOf handle) }) := by
  obtain ⟨x, hx, hSlot⟩ := h.owner hStock hUse
  have hEntry := (h.intact x hx).entry
  rw [hSlot] at hEntry
  by_cases hMatch : (s.table (slotOf handle)).generation = typeOf handle
  · have hEq : x = handle := by
      refine handle_ext ?_ hSlot
      rw [← hMatch, hEntry]
    exact .kept hMatch (h.give (hEq ▸ hx))
  · have hOut : handle ∉ live := by
      intro hIn
      refine hMatch ?_
      rw [(h.intact handle hIn).entry]
    refine .broken hMatch ?_
    show ¬Slots.Split FIRST ((live.erase handle).map slotOf) (s.slots.give (slotOf handle))
    rw [List.erase_of_not_mem hOut]
    exact Slots.Split.give_shared (hSlot ▸ List.mem_map_of_mem hx)

theorem clearEntry_spec (handle : U32) (h : Kept live s) (hRange : ¬(slotOf handle = 0 ∨ GDI_TABLE_SLOTS ≤ slotOf handle ∨ isStock (slotOf handle) = true)) :
    Ends (clearEntry guest (slotOf handle)) s fun r s' =>
      Settles (Matches guest s handle) (removed handle live r) (if r = .ok () then forget handle s' else s') := by
  have hStock : isStock (slotOf handle) = false := Bool.eq_false_iff.mpr fun hYes => hRange (.inr (.inr hYes))
  have hAbsent : (∀ x ∈ live, slotOf x ≠ slotOf handle) → live.erase handle = live := fun hNone =>
    List.erase_of_not_mem fun hIn => hNone handle hIn rfl
  unfold clearEntry
  rw [ends_bind, ends_get, then_ok]
  split
  · rename_i hReady
    refine ends_bind.mpr (ends_reach.mpr ⟨fun hRead => ?_, fun hNo => ?_⟩)
    · rw [then_ok]
      split
      · rename_i hUse
        refine ends_bind.mpr (ends_reach.mpr ⟨fun hFree => ?_, fun hNo => ?_⟩)
        · rw [then_ok, ends_modify, if_pos rfl]
          cases h.deleted hStock hUse with
          | kept hMatch hKept => exact .kept (fun _ _ _ _ _ => hMatch) hKept
          | broken hNot hShared => exact .broken (fun hMatch => hNot (hMatch hRange hReady hRead hUse hFree)) hShared
        · rw [then_error, if_neg (fun hEq => by (cases hEq))]
          refine .kept (fun _ _ _ _ hFree => ?_) h
          rw [hNo] at hFree
          cases hFree
      · rename_i hIdle
        rw [ends_pure, if_pos rfl]
        have hNone : ∀ x ∈ live, slotOf x ≠ slotOf handle := by
          intro x hx hSlot
          have hEntry := (h.intact x hx).entry
          rw [hSlot] at hEntry
          refine hIdle ?_
          rw [hEntry]
          exact fun hZero : GDI_ENTRY_IN_USE &&& GDI_ENTRY_IN_USE = 0 => absurd hZero (by decide)
        refine .kept (fun _ _ _ hUse => absurd hUse hIdle) ?_
        show Kept (live.erase handle) (forget handle s)
        rw [hAbsent hNone]
        exact h.forgotten hNone
    · rw [then_error, if_neg (fun hEq => by (cases hEq))]
      refine .kept (fun _ _ hRead => ?_) h
      rw [hNo] at hRead
      cases hRead
  · rename_i hUnready
    rw [ends_pure, if_pos rfl]
    obtain ⟨rfl, -⟩ := h.unready (Bool.eq_false_iff.mpr hUnready)
    exact .kept (fun _ hReady => absurd hReady hUnready) (h.forgotten fun x hx => absurd hx List.not_mem_nil)

theorem freeGdiObject_spec (handle : U32) (h : Kept live s) :
    Ends (freeGdiObject guest handle) s fun r s' => Settles (Matches guest s handle) (removed handle live r) s' := by
  unfold freeGdiObject
  extract_lets slot
  split
  · rename_i hOut
    exact (ends_pure _).mpr (kept_out h hOut ())
  · rename_i hRange
    refine ends_bind.mpr ((clearEntry_spec handle h hRange).mono fun r s₁ hDeleted => ?_)
    cases r with
    | ok u =>
      rw [if_pos rfl] at hDeleted
      rw [then_ok, ends_modify]
      exact hDeleted
    | error e =>
      rw [if_neg (fun hEq => by (cases hEq))] at hDeleted
      exact hDeleted

theorem deleted_then (handle : U32) (b : U32) (h : Kept live s) :
    Ends (freeGdiObject guest handle >>= fun _ => (pure b : Act U32)) s fun r s' =>
      Settles (Matches guest s handle) (removed handle live r) s' := by
  refine ends_bind.mpr ((freeGdiObject_spec handle h).mono fun r s₁ hDeleted => ?_)
  cases r with
  | ok u =>
    rw [then_ok, ends_pure]
    exact hDeleted
  | error e => exact hDeleted

theorem deleted_behind {a : Access} {x : Act U32} (h : Kept live s) (hx : Ends x s fun r s' => Settles safe (removed handle live r) s') :
    Ends (reach guest a >>= fun _ => x) s fun r s' => Settles (guest.answers a = true → safe) (removed handle live r) s' := by
  refine ends_bind.mpr (ends_reach.mpr ⟨fun hYes => ?_, fun hNo => .kept (fun hYes => ?_) h⟩)
  · rw [then_ok]
    exact hx.mono fun r s' hDeleted => hDeleted.congr ⟨fun hSafe _ => hSafe, fun hSafe => hSafe hYes⟩
  · rw [hNo] at hYes
    cases hYes

/-! ## Calls -/

def added (live : List U32) : Except Access U32 → List U32
  | .ok h => if h = 0 then live else h :: live
  | .error _ => live

theorem NoHandle.added_eq (h : NoHandle r) : added live r = live := by
  cases r with
  | ok x => exact if_pos (h x rfl)
  | error e => rfl

theorem Created.settles (h : Created possible fine live r s') : Settles (possible → fine) (added live r) s' := by
  cases h with
  | refused hNot hKept hResult =>
    rw [hResult.added_eq]
    exact .kept (fun hHad => absurd hHad hNot) hKept
  | made hHad hFine x hResult hNe hKept =>
    subst hResult
    show Settles _ (if x = 0 then live else x :: live) s'
    rw [if_neg hNe]
    exact .kept (fun _ => hFine) hKept
  | failed hHad hNot hResult hLost =>
    rw [hResult.added_eq]
    exact .broken (fun hSafe => hNot (hSafe hHad)) hLost

def IconObject.owns (icon : IconObject) (h : U32) : Bool := decide (h = icon.color ∨ h = icon.alpha ∨ h = icon.mask)

/-- The live objects after a call: those created and not deleted. A destroyed cursor takes its bitmaps with it. -/
def Call.after (s : State) (r : Except Access U32) (live : List U32) : Call → List U32
  | .sysColorBrush index _ => if (s.sysBrushes.lookup index).isSome then live else added live r
  | .ntGdiDeleteObjectApp handle => removed handle live r
  | .ntUserReleaseDc hdc => removed hdc live r
  | .ntUserEndPaint _ hdc => hdc.elim live fun hdc => removed hdc live r
  | .createCursorIcon _ _ => live
  | .ntUserSetCursorIconData _ _ _ _ => live
  | .ntUserDestroyCursor hicon =>
    (s.icons.lookup hicon).elim live fun icon => live.filter fun h => !(s.bitmaps.any fun x => x.1 = h && icon.owns h)
  | _ => added live r

/-- What a creation goes through once it has its slot; deletions go by the entry; a destroyed
cursor has no bitmaps. -/
def Call.Safe (guest : Guest) (s : State) : Call → Prop
  | .ntUserGetDc hwnd =>
    (hwnd ≠ 0 ∧ guest.answers .surface = true) ∧ Available guest s → EntryFine guest ∧ guest.answers .dcOrigin = true
  | .ntUserBeginPaint hwnd ps =>
    (hwnd ≠ 0 ∧ guest.answers .surface = true) ∧ Available guest s →
      (EntryFine guest ∧ guest.answers .dcOrigin = true) ∧ (ps = true → guest.answers .result = true)
  | .ntGdiCreateCompatibleDc => Available guest s → EntryFine guest ∧ guest.answers .dcOrigin = true
  | .ntGdiCreateSolidBrush _ => Available guest s → EntryFine guest
  | .sysColorBrush index _ => s.sysBrushes.lookup index = none ∧ Available guest s → EntryFine guest
  | .ntGdiCreatePen => Available guest s → EntryFine guest
  | .ntGdiCreateRectRgn => Available guest s → EntryFine guest
  | .ntGdiHfontCreate enumex => (enumex = true ∧ guest.answers .argument = true) ∧ Available guest s → EntryFine guest
  | .ntGdiCreateBitmap w h planes bpp src =>
    Sized w h planes bpp ∧ Available guest s →
      (EntryFine guest ∧ guest.bits.isSome = true) ∧ (src = true → guest.answers .result = true)
  | .ntGdiCreateCompatibleBitmap w h => Sized w h 1 32 ∧ Available guest s → EntryFine guest ∧ guest.bits.isSome = true
  | .ntGdiCreateDibSection bmi w h planes bpp outBits =>
    (bmi = true ∧ guest.answers .argument = true) ∧ Sized w h planes bpp ∧ Available guest s →
      (EntryFine guest ∧ guest.bits.isSome = true) ∧ guest.bits ≠ some 0 ∧ (outBits = true → guest.answers .result = true)
  | .copyBitmap src =>
    ∀ b, s.bitmaps.lookup src = some b → Sized b.w b.h b.planes b.bpp ∧ Available guest s →
      (EntryFine guest ∧ guest.bits.isSome = true) ∧ guest.answers .result = true
  | .ntGdiDeleteObjectApp handle => Matches guest s handle
  | .ntUserReleaseDc hdc => ((s.dcs.lookup hdc).isSome = true → guest.answers .surface = true) → Matches guest s hdc
  | .ntUserEndPaint window hdc =>
    ∀ h, hdc = some h → (window = true → guest.answers .surface = true) → guest.answers .argument = true → Matches guest s h
  | .createCursorIcon _ _ => True
  | .ntUserSetCursorIconData _ _ _ _ => True
  | .ntUserDestroyCursor hicon => ∀ icon, s.icons.lookup hicon = some icon → ∀ x ∈ s.bitmaps, icon.owns x.1 = false

theorem created_surface {x : Act U32} (hwnd : U32) (h : Kept live s) (hx : Ends x s (Created possible fine live)) :
    Ends (if hwnd = 0 then pure 0 else if !guest.answers .surface then pure 0 else x) s
      (Created ((hwnd ≠ 0 ∧ guest.answers .surface = true) ∧ possible) fine live) := by
  refine (created_unless h (created_unless h hx)).mono fun r s' hCreated => hCreated.congr ?_ fun _ => Iff.rfl
  rw [not_bnot]
  exact and_assoc.symm

theorem ends_pass (h : U32) (c : Bool) (a : Access) :
    Ends (if c = true then reach guest a >>= fun _ => (pure h : Act U32) else pure h) s fun r s' =>
      Grows s s' ∧ s'.bitmaps = s.bitmaps ∧
        (r = .ok h ∧ (c = true → guest.answers a = true) ∨ NoHandle r ∧ ¬(c = true → guest.answers a = true)) := by
  cases c with
  | true =>
    refine (ends_result h a).mono ?_
    rintro r s' ⟨hGrows, hBitmaps, ⟨hResult, hYes⟩ | ⟨hResult, hNo⟩⟩
    · exact ⟨hGrows, hBitmaps, .inl ⟨hResult, fun _ => hYes⟩⟩
    · exact ⟨hGrows, hBitmaps, .inr ⟨hResult, fun hAnswers => hNo (hAnswers rfl)⟩⟩
  | false => exact (ends_pure _).mpr ⟨Grows.refl, rfl, .inl ⟨rfl, fun hNo => by (cases hNo)⟩⟩

theorem ends_none {c : Prop} [Decidable c] (a : Access) :
    Ends (if c then reach guest a >>= fun _ => (pure 0 : Act U32) else pure 0) s fun r s' => NoHandle r ∧ s' = s := by
  split
  · refine ends_bind.mpr (ends_reach.mpr ⟨fun _ => ?_, fun _ => ⟨noHandle_error a, rfl⟩⟩)
    rw [then_ok, ends_pure]
    exact ⟨noHandle_zero, rfl⟩
  · exact (ends_pure _).mpr ⟨noHandle_zero, rfl⟩

theorem ntUserBeginPaint_spec (hwnd : U32) (ps : Bool) (h : Kept live s) :
    Ends (ntUserBeginPaint guest hwnd ps) s (Created ((hwnd ≠ 0 ∧ guest.answers .surface = true) ∧ Available guest s)
      ((EntryFine guest ∧ guest.answers .dcOrigin = true) ∧ (ps = true → guest.answers .result = true)) live) := by
  unfold ntUserBeginPaint
  exact created_surface hwnd h (created_then (allocDc_spec hwnd h) (fun s₁ => ends_none .result) fun hdc s₁ _ => ends_pass hdc ps .result)

theorem sysColorBrush_spec (index color : U32) (h : Kept live s) : Ends (sysColorBrush guest index color) s fun r s' =>
    Settles (s.sysBrushes.lookup index = none ∧ Available guest s → EntryFine guest)
      (if (s.sysBrushes.lookup index).isSome then live else added live r) s' := by
  unfold sysColorBrush
  rw [ends_bind, ends_get, then_ok]
  cases hKnown : s.sysBrushes.lookup index with
  | some handle => exact (ends_pure _).mpr (.kept (fun hBoth => by (cases hBoth.1)) h)
  | none =>
    refine (created_then (allocBrush_spec color h) (fun s₁ => ?_) fun handle s₁ hNe => ?_).mono fun r s' hCreated =>
      hCreated.settles.congr ⟨fun hSafe hBoth => (hSafe hBoth.2).1, fun hSafe hHad => ⟨hSafe ⟨rfl, hHad⟩, trivial⟩⟩
    · exact (ends_pure _).mpr ⟨noHandle_zero, rfl⟩
    · rw [if_pos hNe, ends_bind, ends_modify, then_ok, ends_pure]
      exact ⟨⟨rfl, rfl, rfl, fun x hx => hx, fun x hx => hx, fun x hx => hx, fun x hx => hx⟩, rfl, .inl ⟨rfl, trivial⟩⟩

theorem ntGdiCreateBitmap_spec (w height : BitVec 32) (planes bpp : U32) (src : Bool) (h : Kept live s) :
    Ends (ntGdiCreateBitmap guest w height planes bpp src) s (Created (Sized w height planes bpp ∧ Available guest s)
      ((EntryFine guest ∧ guest.bits.isSome = true) ∧ (src = true → guest.answers .result = true)) live) := by
  unfold ntGdiCreateBitmap
  refine created_then (allocBitmap_spec w height planes bpp true h) (fun s₁ => ends_none .result) fun handle s₁ hNe => ?_
  have hPass := @ends_pass s₁ guest handle src .result
  rw [← if_congr (and_iff_right hNe) rfl rfl] at hPass
  exact hPass

theorem ntGdiCreateDibSection_spec (bmi : Bool) (w height : BitVec 32) (planes bpp : U32) (outBits : Bool) (h : Kept live s) :
    Ends (ntGdiCreateDibSection guest bmi w height planes bpp outBits) s
      (Created ((bmi = true ∧ guest.answers .argument = true) ∧ Sized w height planes bpp ∧ Available guest s)
        ((EntryFine guest ∧ guest.bits.isSome = true) ∧ guest.bits ≠ some 0 ∧ (outBits = true → guest.answers .result = true)) live) := by
  unfold ntGdiCreateDibSection
  refine Ends.mono (created_unless h (created_behind h (created_then (allocBitmap_spec w height planes bpp _ h)
    (fun s₁ => (ends_pure _).mpr ⟨noHandle_zero, rfl⟩) fun handle s₁ hNe => ?_))) fun r s' hAfter => hAfter.congr ?_ fun _ => Iff.rfl
  · rw [if_neg hNe]
    split
    · rename_i hBits
      exact (ends_pure _).mpr ⟨Grows.refl, rfl, .inr ⟨noHandle_zero, fun hBoth => hBoth.1 hBits⟩⟩
    · rename_i hBits
      refine (ends_pass handle outBits .result).mono ?_
      rintro r s' ⟨hGrows, hBitmaps, ⟨hResult, hYes⟩ | ⟨hResult, hNo⟩⟩
      · exact ⟨hGrows, hBitmaps, .inl ⟨hResult, hBits, hYes⟩⟩
      · exact ⟨hGrows, hBitmaps, .inr ⟨hResult, fun hBoth => hNo hBoth.2⟩⟩
  · rw [not_bnot]
    exact and_assoc.symm

theorem copied_spec (b : Bitmap) (h : Kept live s) :
    Ends (do
        let dst ← allocBitmap guest b.w b.h b.planes b.bpp b.topDown
        if dst = 0 then return 0
        else do
          reach guest .result
          return dst) s
      (Created (Sized b.w b.h b.planes b.bpp ∧ Available guest s)
        ((EntryFine guest ∧ guest.bits.isSome = true) ∧ guest.answers .result = true) live) := by
  refine created_then (allocBitmap_spec b.w b.h b.planes b.bpp b.topDown h) (fun s₁ => ?_) fun dst s₁ hNe => ?_
  · exact (ends_pure _).mpr ⟨noHandle_zero, rfl⟩
  · rw [if_neg hNe]
    exact ends_result dst .result

theorem copyBitmap_spec (src : U32) (h : Kept live s) : Ends (copyBitmap guest src) s fun r s' =>
    Settles (∀ b, s.bitmaps.lookup src = some b → Sized b.w b.h b.planes b.bpp ∧ Available guest s →
      (EntryFine guest ∧ guest.bits.isSome = true) ∧ guest.answers .result = true) (added live r) s' := by
  unfold copyBitmap
  rw [ends_bind, ends_get, then_ok]
  cases hSrc : s.bitmaps.lookup src with
  | none => exact (ends_pure _).mpr (.kept (fun b hSome => by (cases hSome)) h)
  | some b =>
    dsimp only
    refine (copied_spec b h).mono fun r s' hCreated => hCreated.settles.congr ⟨fun hSafe b' hSome => ?_, fun hSafe => hSafe b rfl⟩
    cases hSome
    exact hSafe

theorem ntGdiDeleteObjectApp_spec (handle : U32) (h : Kept live s) : Ends (ntGdiDeleteObjectApp guest handle) s fun r s' =>
    Settles (Matches guest s handle) (removed handle live r) s' := by
  unfold ntGdiDeleteObjectApp
  extract_lets slot
  split
  · rename_i hOut
    have hOut' : slotOf handle = 0 ∨ GDI_TABLE_SLOTS ≤ slotOf handle ∨ isStock (slotOf handle) = true := hOut.imp_right .inl
    exact (ends_pure _).mpr (kept_out h hOut' 0)
  · split
    · rename_i hStock
      exact (ends_pure _).mpr (kept_out h (.inr (.inr hStock)) 1)
    · exact deleted_then handle 1 h

theorem ntUserReleaseDc_spec (hdc : U32) (h : Kept live s) : Ends (ntUserReleaseDc guest hdc) s fun r s' =>
    Settles ((Call.ntUserReleaseDc hdc).Safe guest s) (removed hdc live r) s' := by
  unfold ntUserReleaseDc
  rw [ends_bind, ends_get, then_ok]
  split
  · rename_i hKnown
    exact (deleted_behind h (deleted_then hdc 1 h)).mono fun r s' hDeleted =>
      hDeleted.congr ⟨fun hSafe hAnswers => hSafe (hAnswers hKnown), fun hSafe hAnswers => hSafe fun _ => hAnswers⟩
  · rename_i hUnknown
    exact (deleted_then hdc 1 h).mono fun r s' hDeleted =>
      hDeleted.congr ⟨fun hSafe _ => hSafe, fun hSafe => hSafe fun hKnown => absurd hKnown hUnknown⟩

theorem ntUserEndPaint_spec (window : Bool) (hdc : Option U32) (h : Kept live s) : Ends (ntUserEndPaint guest window hdc) s fun r s' =>
    Settles (∀ x, hdc = some x → (window = true → guest.answers .surface = true) → guest.answers .argument = true → Matches guest s x)
      (hdc.elim live fun x => removed x live r) s' := by
  unfold ntUserEndPaint
  cases hdc with
  | none =>
    cases window with
    | true =>
      refine ends_bind.mpr (ends_reach.mpr ⟨fun _ => ?_, fun _ => Settles.kept (fun x hSome => by (cases hSome)) h⟩)
      rw [then_ok]
      exact (ends_pure 1).mpr (Settles.kept (fun x hSome => by (cases hSome)) h)
    | false => exact (ends_pure _).mpr (Settles.kept (fun x hSome => by (cases hSome)) h)
  | some x =>
    cases window with
    | true =>
      refine (deleted_behind h (deleted_behind h (deleted_then x 1 h))).mono fun r s' hDeleted =>
        hDeleted.congr ⟨fun hSafe y hSome hAnswers => ?_, fun hSafe hAnswers => hSafe x rfl fun _ => hAnswers⟩
      cases hSome
      exact hSafe (hAnswers rfl)
    | false =>
      refine (deleted_behind h (deleted_then x 1 h)).mono fun r s' hDeleted =>
        hDeleted.congr ⟨fun hSafe y hSome _ => ?_, fun hSafe => hSafe x rfl fun hNo => by (cases hNo)⟩
      cases hSome
      exact hSafe

theorem ntUserSetCursorIconData_spec (hicon color alpha mask : U32) (h : Kept live s) :
    Ends (ntUserSetCursorIconData guest hicon color alpha mask) s fun _ s' => Settles True live s' := by
  unfold ntUserSetCursorIconData
  rw [ends_bind, ends_get, then_ok]
  split
  · exact (ends_pure _).mpr (.kept trivial h)
  · refine ends_bind.mpr (ends_reach.mpr ⟨fun _ => ?_, fun _ => .kept trivial h⟩)
    rw [then_ok, ends_bind, ends_modify, then_ok, ends_pure]
    exact .kept trivial (h.grows ⟨rfl, rfl, rfl, fun x hx => hx, fun x hx => hx, fun x hx => hx, fun x hx => hx⟩ rfl)

theorem Kept.orphaned (h : Kept live s) (icon : IconObject) (icons : List (U32 × IconObject)) :
    Settles (∀ x ∈ s.bitmaps, icon.owns x.1 = false) (live.filter fun h => !(s.bitmaps.any fun x => x.1 = h && icon.owns h))
      { s with
        icons
        bitmaps := s.bitmaps.filter fun x => x.1 ≠ icon.color ∧ x.1 ≠ icon.alpha ∧ x.1 ≠ icon.mask } := by
  by_cases hSafe : ∀ x ∈ s.bitmaps, icon.owns x.1 = false
  · have hNone : ∀ h, (s.bitmaps.any fun x => x.1 = h && icon.owns h) = false := by
      intro h
      refine List.any_eq_false.mpr fun x hx hBoth => ?_
      obtain ⟨hEq, hOwns⟩ := Bool.and_eq_true_iff.mp hBoth
      rw [← of_decide_eq_true hEq, hSafe x hx] at hOwns
      cases hOwns
    have hLive : (live.filter fun h => !(s.bitmaps.any fun x => x.1 = h && icon.owns h)) = live := by
      refine List.filter_eq_self.mpr fun h _ => ?_
      rw [hNone h]
      rfl
    have hBitmaps : (s.bitmaps.filter fun x => x.1 ≠ icon.color ∧ x.1 ≠ icon.alpha ∧ x.1 ≠ icon.mask) = s.bitmaps := by
      refine List.filter_eq_self.mpr fun x hx => decide_eq_true ?_
      have hOwns := of_decide_eq_false (hSafe x hx)
      rw [not_or, not_or] at hOwns
      exact hOwns
    rw [hLive, hBitmaps]
    exact .kept hSafe (h.grows ⟨rfl, rfl, rfl, fun x hx => hx, fun x hx => hx, fun x hx => hx, fun x hx => hx⟩ rfl)
  · refine .broken hSafe ?_
    obtain ⟨x, hx, hOwns⟩ : ∃ x ∈ s.bitmaps, icon.owns x.1 = true := by
      by_contra hNone
      refine hSafe fun x hx => Bool.eq_false_iff.mpr fun hOwns => hNone ⟨x, hx, hOwns⟩
    refine h.split.lost (List.mem_map_of_mem (h.listed x hx)) fun hIn => ?_
    obtain ⟨y, hy, hSlot⟩ := List.mem_map.mp hIn
    obtain ⟨hy, hKept⟩ := List.mem_filter.mp hy
    cases List.inj_on_of_nodup_map h.split.once hy (h.listed x hx) hSlot
    have hAny : (s.bitmaps.any fun z => z.1 = x.1 && icon.owns x.1) = true :=
      List.any_eq_true.mpr ⟨x, hx, Bool.and_eq_true_iff.mpr ⟨decide_eq_true rfl, hOwns⟩⟩
    rw [hAny] at hKept
    cases hKept

theorem ntUserDestroyCursor_spec (hicon : U32) (h : Kept live s) : Ends (ntUserDestroyCursor hicon) s fun _ s' =>
    Settles (∀ icon, s.icons.lookup hicon = some icon → ∀ x ∈ s.bitmaps, icon.owns x.1 = false)
      ((s.icons.lookup hicon).elim live fun icon => live.filter fun h => !(s.bitmaps.any fun x => x.1 = h && icon.owns h)) s' := by
  unfold ntUserDestroyCursor
  rw [ends_bind, ends_get, then_ok]
  cases hIcon : s.icons.lookup hicon with
  | none => exact (ends_pure _).mpr (.kept (fun icon hSome => by (cases hSome)) h)
  | some icon =>
    dsimp only
    rw [ends_bind, ends_modify, then_ok, ends_pure]
    refine (h.orphaned icon _).congr ⟨fun hSafe icon' hSome => ?_, fun hSafe => hSafe icon rfl⟩
    cases hSome
    exact hSafe

theorem Call.spec (c : Call) (h : Kept live s) :
    Ends (c.run guest) s fun r s' => Settles (c.Safe guest s) (c.after s r live) s' := by
  cases c with
  | ntUserGetDc hwnd => exact (created_surface hwnd h (allocDc_spec hwnd h)).mono fun r s' hCreated => hCreated.settles
  | ntUserBeginPaint hwnd ps => exact (ntUserBeginPaint_spec hwnd ps h).mono fun r s' hCreated => hCreated.settles
  | ntGdiCreateCompatibleDc => exact (allocDc_spec 0 h).mono fun r s' hCreated => hCreated.settles
  | ntGdiCreateSolidBrush color => exact (allocBrush_spec color h).mono fun r s' hCreated => hCreated.settles
  | sysColorBrush index color => exact sysColorBrush_spec index color h
  | ntGdiCreatePen =>
    exact (created_plain (by decide) (by decide) (by decide) (by decide) h).mono fun r s' hCreated => hCreated.settles
  | ntGdiCreateRectRgn =>
    exact (created_plain (by decide) (by decide) (by decide) (by decide) h).mono fun r s' hCreated => hCreated.settles
  | ntGdiHfontCreate enumex => exact (ntGdiHfontCreate_spec enumex h).mono fun r s' hCreated => hCreated.settles
  | ntGdiCreateBitmap w height planes bpp src =>
    exact (ntGdiCreateBitmap_spec w height planes bpp src h).mono fun r s' hCreated => hCreated.settles
  | ntGdiCreateCompatibleBitmap w height => exact (allocBitmap_spec w height 1 32 true h).mono fun r s' hCreated => hCreated.settles
  | ntGdiCreateDibSection bmi w height planes bpp outBits =>
    exact (ntGdiCreateDibSection_spec bmi w height planes bpp outBits h).mono fun r s' hCreated => hCreated.settles
  | copyBitmap src => exact copyBitmap_spec src h
  | ntGdiDeleteObjectApp handle => exact ntGdiDeleteObjectApp_spec handle h
  | ntUserReleaseDc hdc => exact ntUserReleaseDc_spec hdc h
  | ntUserEndPaint window hdc => exact ntUserEndPaint_spec window hdc h
  | createCursorIcon handle isIcon =>
    refine (ends_bind.mpr ((ends_modify _).mpr ((then_ok _).mpr ((ends_pure _).mpr ?_))))
    exact .kept trivial (h.grows ⟨rfl, rfl, rfl, fun x hx => hx, fun x hx => hx, fun x hx => hx, fun x hx => hx⟩ rfl)
  | ntUserSetCursorIconData hicon color alpha mask => exact ntUserSetCursorIconData_spec hicon color alpha mask h
  | ntUserDestroyCursor hicon => exact ntUserDestroyCursor_spec hicon h

/-! ## Runs -/

/-- Runs of calls that are such as these. How the guest's memory answers may change from call to call. -/
inductive Run (ok : Guest → State → Call → Prop) : List U32 → State → Prop where
  | new : Run ok [] State.new
  | step {live : List U32} {s : State} (guest : Guest) (c : Call) (r : Except Access U32) (s' : State) :
    Run ok live s → ok guest s c → c.run guest s = some (r, s') → Run ok (c.after s r live) s'

theorem Run.kept (h : Run Call.Safe live s) : Kept live s := by
  induction h with
  | new => exact kept_new
  | step guest c r s' _ hSafe hRun ih =>
    cases (ends_of_run hRun).mp (c.spec ih) with
    | kept _ hKept => exact hKept
    | broken hNot _ => exact absurd hSafe hNot

def Guest.sound : Guest := ⟨fun _ => true, STOCK_OBJECTS.length, some 0x10000⟩

end Gdi

end Exemu.Os
