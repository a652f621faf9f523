import Exemu.Library.Put
import Exemu.Loader.RelocDirectory
import Mathlib.Data.BitVec

/-! # From base to base

A relocated image can be relocated again: the way from one base to another does not matter, and
the way back restores the file's bytes.
-/
namespace Exemu.Loader

open List

/-! ## Numbers in bytes -/

theorem fromLe_byte {bs : List U8} (h : bs.length ≤ 8) {i : Nat} (hi : i < bs.length) :
    (fromLe bs >>> (8 * i)).setWidth 8 = bs[i] := by
  induction bs generalizing i with
  | nil => cases hi
  | cons b bs ih =>
    have hCons : fromLe (b :: bs) = (fromLe bs <<< 8) ||| b.setWidth 64 := rfl
    rw [length_cons] at h hi
    rw [hCons]
    cases i with
    | zero =>
      apply BitVec.eq_of_getLsbD_eq
      intro k hk
      simp [hk]
    | succ i =>
      rw [getElem_cons_succ, ← ih (by omega) (by omega)]
      apply BitVec.eq_of_getLsbD_eq
      intro k hk
      have hHigh : b.getLsbD (8 * (i + 1) + k) = false := BitVec.getLsbD_of_ge b _ (by omega)
      simp only [BitVec.getLsbD_setWidth, BitVec.getLsbD_ushiftRight, BitVec.getLsbD_or, BitVec.getLsbD_shiftLeft, hHigh,
        show 8 * (i + 1) + k - 8 = 8 * i + k by omega]
      simp [hk, show 8 * (i + 1) + k < 64 by omega, show ¬8 * (i + 1) + k < 8 by omega]

theorem toLe_fromLe {bs : List U8} (h : bs.length ≤ 8) : toLe bs.length (fromLe bs) = bs := by
  refine ext_getElem (length_toLe _ _) fun i hi hi' => ?_
  rw [← fromLe_byte h hi']
  simp only [toLe, getElem_map, getElem_range]

theorem toLe_add {w : Nat} (hw : w = 4 ∨ w = 8) (x e : U64) : toLe w (fromLe (toLe w x) + e) = toLe w (x + e) := by
  rcases hw with rfl | rfl
  · have hLow : (fromLe (toLe 4 x)).setWidth 32 = x.setWidth 32 := by
      have hSame : toLe 4 x = toLe 4 ((x.setWidth 32).setWidth 64) := by simpa using (toLe_four_add x 0).symm
      rw [hSame, fromLe_toLe_four]
    rw [← toLe_four_add, hLow, toLe_four_add]
  · rw [fromLe_toLe_eight]

theorem toLe_four_sub_ne (x : U64) : toLe 4 (x - 1) ≠ toLe 4 x := by
  intro hSame
  have hBack : ∀ y : U64, (fromLe (toLe 4 y)).setWidth 32 = y.setWidth 32 := by
    intro y
    have hLow : toLe 4 y = toLe 4 ((y.setWidth 32).setWidth 64) := by simpa using (toLe_four_add y 0).symm
    rw [hLow, fromLe_toLe_four]
  have hLow := (hBack (x - 1)).symm.trans ((congrArg (fun bs => (fromLe bs).setWidth 32) hSame).trans (hBack x))
  bv_omega

/-! ## Bytes of a section -/

namespace Section

variable {s t : Section} {off off' n : Nat} {bs bs' : List U8}

/-- The `n` bytes at `off` of the section's part of the file. -/
def bytes (s : Section) (off n : Nat) : List U8 := (s.data.drop off).take n

theorem length_bytes (h : off + n ≤ s.data.length) : (s.bytes off n).length = n := by
  rw [bytes, length_take, length_drop]
  omega

theorem bytes_get {k : Nat} (hk : k < n) : (s.bytes off n)[k]? = s.data[off + k]? := by
  rw [bytes, getElem?_take_of_lt hk, getElem?_drop]

theorem bytes_overwrite (h : off + bs.length ≤ s.data.length) : (s.overwrite off bs).bytes off bs.length = bs := by
  refine ext_getElem? fun k => ?_
  have hEnd : off + bs.length ≤ (s.overwrite off bs).data.length := by rwa [length_overwrite h]
  rcases Nat.lt_or_ge k bs.length with hk | hk
  · rw [bytes_get hk, overwrite_get h, if_pos (by omega), Nat.add_sub_cancel_left]
  · rw [getElem?_eq_none hk, getElem?_eq_none (by rw [length_bytes hEnd]; exact hk)]

theorem bytes_overwrite_apart (h : off + bs.length ≤ s.data.length) (h' : off' + n ≤ s.data.length)
    (hApart : off' + n ≤ off ∨ off + bs.length ≤ off') : (s.overwrite off bs).bytes off' n = s.bytes off' n := by
  refine ext_getElem? fun k => ?_
  have hEnd : off' + n ≤ (s.overwrite off bs).data.length := by rwa [length_overwrite h]
  rcases Nat.lt_or_ge k n with hk | hk
  · rw [bytes_get hk, bytes_get hk, overwrite_get h, if_neg (by omega)]
  · rw [getElem?_eq_none (by rw [length_bytes hEnd]; exact hk), getElem?_eq_none (by rw [length_bytes h']; exact hk)]

theorem overwrite_bytes (h : off + n ≤ s.data.length) : s.overwrite off (s.bytes off n) = s := by
  have hLen := length_bytes h
  have hData : (s.overwrite off (s.bytes off n)).data = s.data := by
    refine ext_getElem? fun k => ?_
    rw [overwrite_get (by rwa [hLen]), hLen]
    split
    · rw [bytes_get (by omega)]
      congr 1
      omega
    · rfl
  exact congrArg (fun data => { s with data }) hData

theorem overwrite_overwrite (h : off + bs.length ≤ s.data.length) (hLen : bs'.length = bs.length) :
    (s.overwrite off bs).overwrite off bs' = s.overwrite off bs' := by
  have hData : ((s.overwrite off bs).overwrite off bs').data = (s.overwrite off bs').data := by
    refine ext_getElem? fun k => ?_
    have hHere : off + bs'.length ≤ s.data.length := by rwa [hLen]
    have hAgain : off + bs'.length ≤ (s.overwrite off bs).data.length := by rwa [length_overwrite h]
    rw [overwrite_get hAgain, overwrite_get hHere, overwrite_get h, hLen]
    split <;> rfl
  exact congrArg (fun data => { s with data }) hData

theorem overwrite_comm (h : off + bs.length ≤ s.data.length) (h' : off' + bs'.length ≤ s.data.length)
    (hApart : off + bs.length ≤ off' ∨ off' + bs'.length ≤ off) :
    (s.overwrite off bs).overwrite off' bs' = (s.overwrite off' bs').overwrite off bs := by
  have hData : ((s.overwrite off bs).overwrite off' bs').data = ((s.overwrite off' bs').overwrite off bs).data := by
    refine ext_getElem? fun k => ?_
    have hThen : off' + bs'.length ≤ (s.overwrite off bs).data.length := by rwa [length_overwrite h]
    have hThen' : off + bs.length ≤ (s.overwrite off' bs').data.length := by rwa [length_overwrite h']
    rw [overwrite_get hThen, overwrite_get hThen', overwrite_get h, overwrite_get h']
    split <;> split <;> first | rfl | omega
  exact congrArg (fun data => { s with data }) hData

def Alike (s t : Section) : Prop := t.rva = s.rva ∧ t.virtualSize = s.virtualSize ∧ t.data.length = s.data.length

theorem alike_overwrite (h : off + bs.length ≤ s.data.length) : s.Alike (s.overwrite off bs) := ⟨rfl, rfl, length_overwrite h⟩

theorem Alike.vsize (h : s.Alike t) : t.vsize = s.vsize := by
  rw [Section.vsize, Section.vsize, h.2.1, h.2.2]

theorem Alike.covers (h : s.Alike t) (a : Nat) : t.covers a = s.covers a := by
  rw [Section.covers, Section.covers, h.1, h.vsize]

theorem Alike.reaches (h : s.Alike t) (rva : U32) : t.reaches rva = s.reaches rva := by
  rw [Section.reaches, Section.reaches, h.1, h.vsize]

end Section

/-! ## Places in the sections -/

section Places

variable {sections sections' : List Section} {r r' : Reloc} {d e : U64} {rva : U32} {bs : List U8} {s t : Section}

/-- Where `slice_mut` finds the address. -/
def spot (sections : List Section) (rva : U32) : Nat := sections.findIdx fun s => s.reaches rva

/-- Where `slice_u32` finds it. -/
def readSpot (sections : List Section) (rva : U32) : Nat := sections.findIdx fun s => s.covers rva.toNat

def Section.Holds (s : Section) (rva : U32) (n : Nat) : Prop := rva.toNat - s.rva.toNat + n ≤ s.data.length

def OneSearch (sections : List Section) : Prop :=
  ∀ rva s t, sections[readSpot sections rva]? = some s → s.Holds rva 4 → sections[spot sections rva]? = some t → t.Holds rva 4 →
    readSpot sections rva = spot sections rva

namespace Reloc

def offset (r : Reloc) (s : Section) : Nat := r.rva.toNat - s.rva.toNat

/-- The number of the relocation in this section, `d` further. -/
def bump (r : Reloc) (d : U64) (s : Section) : Section :=
  s.overwrite (r.offset s) (toLe r.width (fromLe (s.bytes (r.offset s) r.width) + d))

def act (r : Reloc) (d : U64) (sections : List Section) : List Section := sections.modify (spot sections r.rva) (r.bump d)

def HasRoom (r : Reloc) (sections : List Section) : Prop :=
  ∃ s, sections[spot sections r.rva]? = some s ∧ s.Holds r.rva r.width

/-- The relocation is of a known kind, and what it reads and writes is there. -/
structure Fits (r : Reloc) (sections : List Section) : Prop where
  kind : r.kind = REL_HIGHLOW ∨ r.kind = REL_DIR64
  read : r.kind = REL_HIGHLOW → ∃ s, sections[readSpot sections r.rva]? = some s ∧ s.Holds r.rva 4
  room : r.HasRoom sections

theorem width_eq (r : Reloc) : r.width = 4 ∨ r.width = 8 := by
  unfold width
  split
  · exact .inl rfl
  · exact .inr rfl

end Reloc

theorem SameShape.find (h : SameShape sections sections') (p : Section → Bool) (hp : ∀ s t : Section, s.Alike t → p t = p s) :
    sections'.findIdx p = sections.findIdx p := by
  induction h with
  | nil => rfl
  | cons hHead _ ih => rw [findIdx_cons, findIdx_cons, ih, hp _ _ hHead]

theorem SameShape.spot (h : SameShape sections sections') (rva : U32) : spot sections' rva = spot sections rva :=
  h.find _ fun _ _ hAlike => hAlike.reaches rva

theorem SameShape.readSpot (h : SameShape sections sections') (rva : U32) : readSpot sections' rva = readSpot sections rva :=
  h.find _ fun _ _ hAlike => hAlike.covers rva.toNat

variable {i : Nat}

theorem SameShape.get (h : SameShape sections sections') (hs : sections[i]? = some s) : ∃ t, sections'[i]? = some t ∧ s.Alike t := by
  induction h generalizing i with
  | nil => cases hs
  | @cons a b _ _ hHead _ ih =>
    cases i with
    | zero =>
      cases hs
      exact ⟨b, rfl, hHead⟩
    | succ i => exact ih hs

theorem Section.Alike.holds (h : s.Alike t) {n : Nat} (hHolds : s.Holds rva n) : t.Holds rva n := by
  unfold Section.Holds at hHolds ⊢
  rwa [h.1, h.2.2]

theorem SameShape.modify {f : Section → Section} (h : ∀ s, sections[i]? = some s → s.Alike (f s)) :
    SameShape sections (sections.modify i f) := by
  induction sections generalizing i with
  | nil =>
    rw [modify_nil]
    exact .refl _
  | cons s rest ih =>
    cases i with
    | zero => exact .cons (h s rfl) (SameShape.refl rest)
    | succ i => exact .cons ⟨rfl, rfl, rfl⟩ (ih fun t ht => h t ht)

theorem SameShape.symm (h : SameShape sections sections') : SameShape sections' sections := by
  induction h with
  | nil => exact .nil
  | cons hHead _ ih => exact .cons ⟨hHead.1.symm, hHead.2.1.symm, hHead.2.2.symm⟩ ih

theorem SameShape.oneSearch (h : SameShape sections sections') (hOne : OneSearch sections) : OneSearch sections' := by
  intro rva s t hs hHolds ht hHolds'
  obtain ⟨s₀, hs₀, hAlike⟩ := h.symm.get hs
  obtain ⟨t₀, ht₀, hAlike'⟩ := h.symm.get ht
  rw [h.readSpot] at hs₀ ⊢
  rw [h.spot] at ht₀ ⊢
  exact hOne rva s₀ t₀ hs₀ (hAlike.holds hHolds) ht₀ (hAlike'.holds hHolds')

theorem SameShape.room (h : SameShape sections sections') (hRoom : r.HasRoom sections) : r.HasRoom sections' := by
  obtain ⟨s, hs, hHolds⟩ := hRoom
  obtain ⟨t, ht, hAlike⟩ := h.get hs
  exact ⟨t, by rwa [h.spot], hAlike.holds hHolds⟩

theorem SameShape.fits (h : SameShape sections sections') (hFits : r.Fits sections) : r.Fits sections' where
  kind := hFits.kind
  read := fun hKind => by
    obtain ⟨s, hs, hHolds⟩ := hFits.read hKind
    obtain ⟨t, ht, hAlike⟩ := h.get hs
    exact ⟨t, by rwa [h.readSpot], hAlike.holds hHolds⟩
  room := h.room hFits.room

/-! ## Amounts at these places -/

theorem modify_congr {α : Type} {xs : List α} {f g : α → α} (h : ∀ x, xs[i]? = some x → f x = g x) : xs.modify i f = xs.modify i g := by
  refine ext_getElem? fun k => ?_
  rw [getElem?_modify, getElem?_modify]
  split
  · rename_i hSame
    subst hSame
    cases hx : xs[i]? with
    | none => rfl
    | some x => exact congrArg some (h x hx)
  · rfl

theorem modify_eq_of_fixed {α : Type} {xs : List α} {f : α → α} (h : ∀ x, xs[i]? = some x → f x = x) : xs.modify i f = xs := by
  rw [modify_congr h]
  refine ext_getElem? fun k => ?_
  rw [getElem?_modify]
  cases xs[k]? <;> split <;> rfl

namespace Reloc

theorem alike_bump (h : s.Holds r.rva r.width) : s.Alike (r.bump d s) :=
  Section.alike_overwrite (by rw [length_toLe]; exact h)

theorem bump_zero (h : s.Holds r.rva r.width) : r.bump 0 s = s := by
  have hLen : (s.bytes (r.offset s) r.width).length = r.width := Section.length_bytes h
  have hBack : toLe r.width (fromLe (s.bytes (r.offset s) r.width)) = s.bytes (r.offset s) r.width := by
    rcases r.width_eq with hw | hw <;>
    · have hSame := @toLe_fromLe (s.bytes (r.offset s) r.width) (by omega)
      rwa [hLen] at hSame
  have hSame : fromLe (s.bytes (r.offset s) r.width) + 0 = fromLe (s.bytes (r.offset s) r.width) := BitVec.add_zero _
  rw [bump, hSame, hBack]
  exact Section.overwrite_bytes h

theorem bump_bump (h : s.Holds r.rva r.width) : r.bump e (r.bump d s) = r.bump (d + e) s := by
  have hEnd : r.offset s + (toLe r.width (fromLe (s.bytes (r.offset s) r.width) + d)).length ≤ s.data.length := by
    rw [length_toLe]
    exact h
  have hBytes := Section.bytes_overwrite hEnd
  rw [length_toLe] at hBytes
  have hOffset : r.offset (r.bump d s) = r.offset s := rfl
  rw [bump, hOffset]
  rw [show (r.bump d s).bytes (r.offset s) r.width = _ from hBytes, toLe_add r.width_eq, BitVec.add_assoc]
  rw [bump, bump, Section.overwrite_overwrite hEnd (by rw [length_toLe, length_toLe])]

theorem bump_comm (h : s.Holds r.rva r.width) (h' : s.Holds r'.rva r'.width) (hLow : s.rva.toNat ≤ r.rva.toNat)
    (hLow' : s.rva.toNat ≤ r'.rva.toNat) (hClear : r.Clear r') : r.bump d (r'.bump e s) = r'.bump e (r.bump d s) := by
  have hApart : r.offset s + r.width ≤ r'.offset s ∨ r'.offset s + r'.width ≤ r.offset s := by
    unfold Clear at hClear
    unfold offset
    omega
  have hEnd : ∀ x, r.offset s + (toLe r.width x).length ≤ s.data.length := fun x => by rw [length_toLe]; exact h
  have hEnd' : ∀ x, r'.offset s + (toLe r'.width x).length ≤ s.data.length := fun x => by rw [length_toLe]; exact h'
  have hSame : (r'.bump e s).bytes (r.offset s) r.width = s.bytes (r.offset s) r.width :=
    Section.bytes_overwrite_apart (hEnd' _) h (by rw [length_toLe]; exact hApart)
  have hSame' : (r.bump d s).bytes (r'.offset s) r'.width = s.bytes (r'.offset s) r'.width :=
    Section.bytes_overwrite_apart (hEnd _) h' (by rw [length_toLe]; exact hApart.symm)
  have hFirst : r.bump d (r'.bump e s) =
      (r'.bump e s).overwrite (r.offset s) (toLe r.width (fromLe (s.bytes (r.offset s) r.width) + d)) := by rw [← hSame]; rfl
  have hFirst' : r'.bump e (r.bump d s) =
      (r.bump d s).overwrite (r'.offset s) (toLe r'.width (fromLe (s.bytes (r'.offset s) r'.width) + e)) := by rw [← hSame']; rfl
  rw [hFirst, hFirst']
  exact (Section.overwrite_comm (hEnd _) (hEnd' _) (by rw [length_toLe, length_toLe]; exact hApart)).symm

theorem low_of_spot (h : sections[spot sections r.rva]? = some s) : s.rva.toNat ≤ r.rva.toNat := by
  have hReaches : s.reaches r.rva = true := findIdx_of_getElem?_eq_some (p := fun s : Section => s.reaches r.rva) h
  exact ((Section.covers_iff _ _).mp (Section.reaches_covers hReaches s.vsize_lt)).1

theorem alike_act (h : r.HasRoom sections) : SameShape sections (r.act d sections) := by
  refine SameShape.modify fun s hs => ?_
  obtain ⟨t, ht, hHolds⟩ := h
  rw [hs] at ht
  cases ht
  exact alike_bump hHolds

theorem act_act (h : r.HasRoom sections) : r.act e (r.act d sections) = r.act (d + e) sections := by
  rw [act, (alike_act h).spot, act, modify_modify_eq]
  refine modify_congr fun s hs => ?_
  obtain ⟨t, ht, hHolds⟩ := h
  rw [hs] at ht
  cases ht
  exact bump_bump hHolds

theorem act_zero (h : r.HasRoom sections) : r.act 0 sections = sections := by
  refine modify_eq_of_fixed fun s hs => ?_
  obtain ⟨t, ht, hHolds⟩ := h
  rw [hs] at ht
  cases ht
  exact bump_zero hHolds

theorem act_comm (h : r.HasRoom sections) (h' : r'.HasRoom sections) (hClear : r = r' ∨ r.Clear r') :
    r.act d (r'.act e sections) = r'.act e (r.act d sections) := by
  rcases hClear with rfl | hClear
  · rw [act_act h, act_act h, BitVec.add_comm]
  · unfold act
    rw [show spot (sections.modify (spot sections r'.rva) (r'.bump e)) r.rva = spot sections r.rva from (alike_act h').spot _,
      show spot (sections.modify (spot sections r.rva) (r.bump d)) r'.rva = spot sections r'.rva from (alike_act h).spot _]
    by_cases hSpot : spot sections r'.rva = spot sections r.rva
    · rw [hSpot, modify_modify_eq, modify_modify_eq]
      refine modify_congr fun s hs => ?_
      obtain ⟨t, ht, hHolds⟩ := h
      obtain ⟨t', ht', hHolds'⟩ := h'
      have hLow' := low_of_spot ht'
      rw [hSpot, hs] at ht'
      rw [hs] at ht
      cases ht
      cases ht'
      exact bump_comm hHolds hHolds' (low_of_spot hs) hLow' hClear
    · exact modify_modify_ne _ _ _ hSpot

end Reloc

/-! ## What a search and a relocation do -/

theorem spot_cons : spot (s :: sections) rva = if s.reaches rva = true then 0 else spot sections rva + 1 := by
  rw [spot, findIdx_cons]
  cases s.reaches rva <;> rfl

theorem sliceRef_iff {n : Nat} : sliceRef sections rva n = .ok bs ↔
    ∃ s, sections[spot sections rva]? = some s ∧ s.Holds rva n ∧ bs = s.bytes (rva.toNat - s.rva.toNat) n := by
  induction sections with
  | nil => simp [sliceRef, spot]
  | cons s rest ih =>
    rw [sliceRef, spot_cons]
    split
    · constructor
      · intro h
        split at h
        · cases h
          exact ⟨s, rfl, ‹_›, rfl⟩
        · cases h
      · rintro ⟨t, ht, hHolds, rfl⟩
        cases ht
        exact if_pos hHolds
    · exact ih

theorem writeAt_iff : writeAt sections rva bs = .ok sections' ↔
    ∃ s, sections[spot sections rva]? = some s ∧ s.Holds rva bs.length ∧
      sections' = sections.modify (spot sections rva) fun t => t.overwrite (rva.toNat - t.rva.toNat) bs := by
  induction sections generalizing sections' with
  | nil => simp [writeAt, spot]
  | cons s rest ih =>
    rw [writeAt, spot_cons]
    split
    · constructor
      · intro h
        split at h
        · cases h
          exact ⟨s, rfl, ‹_›, rfl⟩
        · cases h
      · rintro ⟨t, ht, hHolds, rfl⟩
        cases ht
        exact if_pos hHolds
    · constructor
      · intro h
        obtain ⟨rest', hRest, hDone⟩ := ok_of_bind h
        cases hDone
        obtain ⟨t, ht, hHolds, rfl⟩ := ih.mp hRest
        exact ⟨t, ht, hHolds, rfl⟩
      · rintro ⟨t, ht, hHolds, rfl⟩
        rw [ih.mpr ⟨t, ht, hHolds, rfl⟩]
        rfl

theorem getElem?_findIdx {α : Type} {p : α → Bool} {xs : List α} : xs[xs.findIdx p]? = xs.find? p := by
  induction xs with
  | nil => rfl
  | cons x xs ih =>
    rw [findIdx_cons, find?_cons]
    cases p x
    · exact ih
    · rfl

theorem sliceAt_iff {n : Nat} : sliceAt sections rva n = .ok bs ↔
    ∃ s, sections[readSpot sections rva]? = some s ∧ s.Holds rva n ∧ bs = s.bytes (rva.toNat - s.rva.toNat) n := by
  have hFind : sections[readSpot sections rva]? = sections.find? fun s => s.covers rva.toNat := getElem?_findIdx
  rw [hFind, sliceAt, readAtRva]
  cases sections.find? fun s => s.covers rva.toNat with
  | none => simp
  | some s =>
    rw [Option.map_some]
    constructor
    · intro h
      dsimp only at h
      split at h
      · cases h
        exact ⟨s, rfl, ‹_›, rfl⟩
      · cases h
    · rintro ⟨t, ht, hHolds, rfl⟩
      cases ht
      exact if_pos hHolds

theorem applyOne_highlow (hKind : r.kind = REL_HIGHLOW) (hs : sections[readSpot sections r.rva]? = some s) (hRead : s.Holds r.rva 4)
    (ht : sections[spot sections r.rva]? = some t) (hWrite : t.Holds r.rva 4) :
    applyOne d sections r = .ok (sections.modify (spot sections r.rva) fun u =>
      u.overwrite (r.rva.toNat - u.rva.toNat) (toLe 4 (fromLe (s.bytes (r.rva.toNat - s.rva.toNat) 4) + d))) := by
  have hBytes := sliceAt_iff.mpr ⟨s, hs, hRead, rfl⟩
  rw [applyOne, if_pos hKind, sliceU32, hBytes]
  change writeAt sections r.rva (toLe 4 (((fromLe (s.bytes (r.rva.toNat - s.rva.toNat) 4)).setWidth 32 + d.setWidth 32).setWidth 64)) = _
  rw [toLe_four_add]
  exact writeAt_iff.mpr ⟨t, ht, by rwa [length_toLe], rfl⟩

theorem applyOne_fits (h : applyOne d sections r = .ok sections') : r.Fits sections := by
  unfold applyOne at h
  split at h
  · rename_i hKind
    obtain ⟨old, hOld, hWrite⟩ := ok_of_bind h
    obtain ⟨bs, hRead, -⟩ := ok_of_bind hOld
    obtain ⟨s, hs, hHolds, -⟩ := sliceAt_iff.mp hRead
    obtain ⟨t, ht, hRoom, -⟩ := writeAt_iff.mp hWrite
    rw [length_toLe] at hRoom
    have hWidth : r.width = 4 := if_pos hKind
    exact ⟨.inl hKind, fun _ => ⟨s, hs, hHolds⟩, t, ht, by rwa [hWidth]⟩
  · rename_i hOther
    split at h
    · rename_i hKind
      obtain ⟨bs, hRead, -⟩ := ok_of_bind h
      obtain ⟨s, hs, hHolds, -⟩ := sliceRef_iff.mp hRead
      have hWidth : r.width = 8 := if_neg hOther
      exact ⟨.inr hKind, fun hSame => absurd hSame hOther, s, hs, by rwa [hWidth]⟩
    · cases h

theorem applyOne_act (hOne : OneSearch sections) (hFits : r.Fits sections) : applyOne d sections r = .ok (r.act d sections) := by
  obtain ⟨t, ht, hRoom⟩ := hFits.room
  by_cases hKind : r.kind = REL_HIGHLOW
  · have hWidth : r.width = 4 := if_pos hKind
    obtain ⟨s, hs, hRead⟩ := hFits.read hKind
    rw [hWidth] at hRoom
    rw [applyOne_highlow hKind hs hRead ht hRoom]
    have hSpot := hOne r.rva s t hs hRead ht hRoom
    rw [hSpot, ht] at hs
    cases hs
    refine congrArg Except.ok (modify_congr fun u hu => ?_)
    rw [ht] at hu
    cases hu
    rw [Reloc.bump, hWidth]
    rfl
  · have hWidth : r.width = 8 := if_neg hKind
    rw [hWidth] at hRoom
    have hBytes := sliceRef_iff.mpr ⟨t, ht, hRoom, rfl⟩
    rw [applyOne, if_neg hKind, if_pos (hFits.kind.resolve_left hKind), hBytes]
    refine writeAt_iff.mpr ⟨t, ht, by rwa [length_toLe], modify_congr fun u hu => ?_⟩
    rw [ht] at hu
    cases hu
    rw [Reloc.bump, hWidth]
    rfl

theorem foldlM_fits {relocs : List Reloc} (hOne : OneSearch sections) (h : relocs.foldlM (applyOne d) sections = .ok sections') :
    ∀ r ∈ relocs, r.Fits sections := by
  induction relocs generalizing sections with
  | nil => exact fun r hr => absurd hr not_mem_nil
  | cons r relocs ih =>
    rw [foldlM_cons] at h
    obtain ⟨middle, hFirst, hRest⟩ := ok_of_bind h
    have hFits := applyOne_fits hFirst
    rw [applyOne_act hOne hFits] at hFirst
    cases hFirst
    have hShape : SameShape sections (r.act d sections) := Reloc.alike_act hFits.room
    exact List.forall_mem_cons.mpr ⟨hFits, fun r' hr' => hShape.symm.fits (ih (hShape.oneSearch hOne) hRest r' hr')⟩

theorem foldlM_act {relocs : List Reloc} (hOne : OneSearch sections) (hFits : ∀ r ∈ relocs, r.Fits sections) :
    relocs.foldlM (applyOne d) sections = .ok (Additive.all Reloc.act d relocs sections) := by
  induction relocs generalizing sections with
  | nil => rfl
  | cons r relocs ih =>
    obtain ⟨hHead, hTail⟩ := List.forall_mem_cons.mp hFits
    have hShape : SameShape sections (r.act d sections) := Reloc.alike_act hHead.room
    rw [foldlM_cons, applyOne_act hOne hHead]
    exact ih (hShape.oneSearch hOne) fun r' hr' => hShape.fits (hTail r' hr')

end Places

/-! ## The law -/

section Law

variable {sections sections' : List Section} {relocs : List Reloc} {d p a b : U64}

def SitesApart (relocs : List Reloc) : Prop := relocs.Pairwise fun r r' => r = r' ∨ r.Clear r'

def Reloc.Touches (r : Reloc) (a : Nat) : Prop :=
  (r.kind = REL_HIGHLOW ∨ r.kind = REL_DIR64) ∧ r.rva.toNat ≤ a ∧ a < r.rva.toNat + r.width

def applyLeaves (d : U64) : List Section → List Reloc → List Section
  | sections, [] => sections
  | sections, r :: relocs =>
    match applyOne d sections r with
    | .ok sections' => applyLeaves d sections' relocs
    | .error _ => sections

/-- Relocated from `p` to `a`, the sections can go on to `b` and back to `p`, and no byte outside of the sites changes. -/
structure Retargets (sections : List Section) (relocs : List Reloc) (p a b : U64) : Prop where
  onward : ∀ sections', apply sections relocs p a = .ok sections' →
    ∃ sections'', apply sections' relocs a b = .ok sections'' ∧ apply sections relocs p b = .ok sections''
  back : ∀ sections', apply sections relocs p a = .ok sections' → apply sections' relocs a p = .ok sections
  elsewhere : ∀ (i k : Nat) (s : Section), sections[i]? = some s → (∀ r ∈ relocs, ¬r.Touches (s.rva.toNat + k)) →
    ∃ t, (applyLeaves (a - p) sections relocs)[i]? = some t ∧ t.rva = s.rva ∧ t.data[k]? = s.data[k]?

theorem additive_act (hApart : SitesApart relocs) : Additive Reloc.act (fun sections => ∀ r ∈ relocs, r.HasRoom sections) relocs where
  keeps := fun r hr _ _ h r' hr' => (Reloc.alike_act (h r hr)).room (h r' hr')
  zero := fun r hr _ h => Reloc.act_zero (h r hr)
  add := fun r hr _ _ _ h => Reloc.act_act (h r hr)
  comm := hApart.imp_of_mem fun hr hr' hClear _ _ _ h => Reloc.act_comm (h _ hr) (h _ hr') hClear

theorem alike_all (hFits : ∀ r ∈ relocs, r.Fits sections) : SameShape sections (Additive.all Reloc.act d relocs sections) := by
  induction relocs generalizing sections with
  | nil => exact .refl _
  | cons r relocs ih =>
    obtain ⟨hHead, hTail⟩ := List.forall_mem_cons.mp hFits
    have hShape : SameShape sections (r.act d sections) := Reloc.alike_act hHead.room
    exact hShape.trans (ih fun r' hr' => hShape.fits (hTail r' hr'))

variable {r : Reloc} {s : Section}

theorem applyOne_elsewhere (h : applyOne d sections r = .ok sections') {i k : Nat} (hs : sections[i]? = some s)
    (hk : ¬r.Touches (s.rva.toNat + k)) : ∃ t, sections'[i]? = some t ∧ t.rva = s.rva ∧ t.data[k]? = s.data[k]? := by
  have hKind := (applyOne_fits h).kind
  have hWrite : ∃ bs, bs.length = r.width ∧ writeAt sections r.rva bs = .ok sections' := by
    unfold applyOne at h
    split at h
    · rename_i hHighlow
      obtain ⟨old, -, hWrite⟩ := ok_of_bind h
      exact ⟨_, (length_toLe _ _).trans (if_pos hHighlow).symm, hWrite⟩
    · rename_i hOther
      split at h
      · obtain ⟨bs, -, hWrite⟩ := ok_of_bind h
        exact ⟨_, (length_toLe _ _).trans (if_neg hOther).symm, hWrite⟩
      · cases h
  obtain ⟨bs, hLen, hWrite⟩ := hWrite
  obtain ⟨t, ht, hRoom, rfl⟩ := writeAt_iff.mp hWrite
  rw [getElem?_modify]
  split
  · rename_i hSame
    rw [← hSame, ht] at hs
    cases hs
    rw [← hSame, ht]
    refine ⟨_, rfl, rfl, ?_⟩
    have hLow := Reloc.low_of_spot ht
    rw [Section.overwrite_get hRoom, if_neg]
    intro hIn
    exact hk ⟨hKind, by omega, by omega⟩
  · rw [hs]
    exact ⟨s, rfl, rfl, rfl⟩

theorem applyLeaves_elsewhere {i k : Nat} (hs : sections[i]? = some s) (hk : ∀ r ∈ relocs, ¬r.Touches (s.rva.toNat + k)) :
    ∃ t, (applyLeaves d sections relocs)[i]? = some t ∧ t.rva = s.rva ∧ t.data[k]? = s.data[k]? := by
  induction relocs generalizing sections s with
  | nil => exact ⟨s, hs, rfl, rfl⟩
  | cons r relocs ih =>
    obtain ⟨hHead, hTail⟩ := List.forall_mem_cons.mp hk
    rw [applyLeaves]
    split
    · rename_i sections' hOne
      obtain ⟨t, ht, hRva, hByte⟩ := applyOne_elsewhere hOne hs hHead
      rw [← hRva] at hTail
      obtain ⟨u, hu, hRva', hByte'⟩ := ih ht hTail
      exact ⟨u, hu, hRva'.trans hRva, hByte'.trans hByte⟩
    · exact ⟨s, hs, rfl, rfl⟩

theorem retargets (hOne : OneSearch sections) (hApart : SitesApart relocs) : Retargets sections relocs p a b := by
  have hAdd := additive_act hApart
  have hDone : ∀ sections', apply sections relocs p a = .ok sections' →
      (∀ r ∈ relocs, r.Fits sections) ∧ sections' = Additive.all Reloc.act (a - p) relocs sections := by
    intro sections' h
    have hFits := foldlM_fits hOne h
    exact ⟨hFits, Except.ok.inj (h.symm.trans (foldlM_act hOne hFits))⟩
  refine ⟨fun sections' h => ?_, fun sections' h => ?_, fun i k s hs hk => applyLeaves_elsewhere hs hk⟩
  · obtain ⟨hFits, rfl⟩ := hDone sections' h
    have hShape : SameShape sections (Additive.all Reloc.act (a - p) relocs sections) := alike_all hFits
    refine ⟨Additive.all Reloc.act (b - p) relocs sections, ?_, foldlM_act hOne hFits⟩
    rw [apply, foldlM_act (hShape.oneSearch hOne) fun r hr => hShape.fits (hFits r hr),
      hAdd.all_all fun r hr => (hFits r hr).room, show a - p + (b - a) = b - p by bv_omega]
  · obtain ⟨hFits, rfl⟩ := hDone sections' h
    have hShape : SameShape sections (Additive.all Reloc.act (a - p) relocs sections) := alike_all hFits
    rw [apply, foldlM_act (hShape.oneSearch hOne) fun r hr => hShape.fits (hFits r hr),
      hAdd.all_all fun r hr => (hFits r hr).room, show a - p + (p - a) = 0 by bv_omega,
      hAdd.all_zero fun r hr => (hFits r hr).room]

theorem apply_singleton : apply sections [r] p a = applyOne (a - p) sections r := by
  rw [apply, foldlM_cons]
  exact bind_pure _

theorem bytes_of_back {rva : U32} {t : Section} (hs : sections[readSpot sections rva]? = some s) (hRead : s.Holds rva 4)
    (ht : sections[spot sections rva]? = some t) (hWrite : t.Holds rva 4) (hParted : readSpot sections rva ≠ spot sections rva)
    (hBack : ∀ sections', apply sections [⟨rva, REL_HIGHLOW⟩] 0 d = .ok sections' →
      apply sections' [⟨rva, REL_HIGHLOW⟩] d 0 = .ok sections) :
    t.bytes (rva.toNat - t.rva.toNat) 4 = toLe 4 (fromLe (s.bytes (rva.toNat - s.rva.toNat) 4) - d) := by
  have hFirst : applyOne (d - 0) sections ⟨rva, REL_HIGHLOW⟩ = .ok _ := applyOne_highlow rfl hs hRead ht hWrite
  generalize hMiddle : (sections.modify (spot sections rva) fun u =>
    u.overwrite (rva.toNat - u.rva.toNat) (toLe 4 (fromLe (s.bytes (rva.toNat - s.rva.toNat) 4) + (d - 0)))) = middle at hFirst
  have hShape : SameShape sections middle := by
    rw [← hMiddle]
    refine .modify fun u hu => ?_
    rw [ht] at hu
    cases hu
    exact Section.alike_overwrite (by rw [length_toLe]; exact hWrite)
  have hs' : middle[readSpot sections rva]? = some s := by
    rw [← hMiddle, getElem?_modify_ne _ _ (Ne.symm hParted), hs]
  obtain ⟨t', ht', hAlike⟩ := hShape.get ht
  have hSecond : applyOne (0 - d) middle ⟨rva, REL_HIGHLOW⟩ = .ok _ :=
    applyOne_highlow rfl (by rw [hShape.readSpot]; exact hs') hRead (by rw [hShape.spot]; exact ht') (hAlike.holds hWrite)
  have hAgain := hBack middle (apply_singleton.trans hFirst)
  rw [apply_singleton, hSecond, hShape.spot] at hAgain
  have hHere := congrArg (fun l => l[spot sections rva]?) (Except.ok.inj hAgain)
  dsimp only at hHere
  rw [getElem?_modify_eq, ht', ht] at hHere
  have hSame : t'.overwrite (rva.toNat - t'.rva.toNat) (toLe 4 (fromLe (s.bytes (rva.toNat - s.rva.toNat) 4) + (0 - d))) = t :=
    Option.some.inj hHere
  have hHolds : rva.toNat - t'.rva.toNat + (toLe 4 (fromLe (s.bytes (rva.toNat - s.rva.toNat) 4) + (0 - d))).length ≤ t'.data.length := by
    rw [length_toLe]
    exact hAlike.holds hWrite
  have hBytes := Section.bytes_overwrite hHolds
  rw [hSame, length_toLe, hAlike.1] at hBytes
  rw [hBytes]
  congr 1
  bv_omega

theorem oneSearch_of_back (h : ∀ (r : Reloc) (d : U64) sections', apply sections [r] 0 d = .ok sections' →
    apply sections' [r] d 0 = .ok sections) : OneSearch sections := by
  intro rva s t hs hRead ht hWrite
  by_contra hParted
  have hBytes : ∀ d, t.bytes (rva.toNat - t.rva.toNat) 4 = toLe 4 (fromLe (s.bytes (rva.toNat - s.rva.toNat) 4) - d) := fun d =>
    bytes_of_back hs hRead ht hWrite hParted (h _ d)
  have hZero := hBytes 0
  rw [show fromLe (s.bytes (rva.toNat - s.rva.toNat) 4) - 0 = fromLe (s.bytes (rva.toNat - s.rva.toNat) 4) by bv_omega] at hZero
  exact toLe_four_sub_ne _ ((hBytes 1).symm.trans hZero)

/-! ## Sums of 32 bits -/

/-- The sums of address and size that `slice_ref` and `slice_mut` form, in 32 bits, on their way to the address. -/
def searchSums : List Section → U32 → List Nat
  | [], _ => []
  | s :: rest, rva =>
    if s.rva.toNat ≤ rva.toNat then (s.rva.toNat + s.vsize) :: if s.reaches rva then [] else searchSums rest rva
    else searchSums rest rva

def Reloc.sums (r : Reloc) (sections : List Section) : List Nat :=
  if r.kind = REL_HIGHLOW then if (sliceU32 sections r.rva).isOk then searchSums sections r.rva else []
  else if r.kind = REL_DIR64 then
    searchSums sections r.rva ++ if (sliceRef sections r.rva 8).isOk then searchSums sections r.rva else []
  else []

def applySums (d : U64) : List Section → List Reloc → List Nat
  | _, [] => []
  | sections, r :: relocs =>
    r.sums sections ++
      match applyOne d sections r with
      | .ok sections' => applySums d sections' relocs
      | .error _ => []

def EndsLow (sections : List Section) : Prop := ∀ s ∈ sections, s.rva.toNat + s.vsize < 2 ^ 32

def Accepted (sections : List Section) : Prop := ∃ fuel bytes image, parse fuel bytes = .ok image ∧ image.sections = sections

theorem searchSums_of_mem {rva : U32} {n : Nat} (h : n ∈ searchSums sections rva) : ∃ s ∈ sections, n = s.rva.toNat + s.vsize := by
  induction sections with
  | nil => cases h
  | cons s rest ih =>
    have hRest : n ∈ searchSums rest rva → ∃ t ∈ s :: rest, n = t.rva.toNat + t.vsize := by
      intro hLater
      obtain ⟨t, ht, hSum⟩ := ih hLater
      exact ⟨t, mem_cons_of_mem _ ht, hSum⟩
    rw [searchSums] at h
    split at h
    · rcases List.mem_cons.mp h with rfl | h
      · exact ⟨s, mem_cons_self, rfl⟩
      · split at h
        · cases h
        · exact hRest h
    · exact hRest h

theorem Reloc.sums_of_mem {n : Nat} (h : n ∈ r.sums sections) : n ∈ searchSums sections r.rva := by
  unfold Reloc.sums at h
  split at h
  · split at h
    · exact h
    · cases h
  · split at h
    · rcases List.mem_append.mp h with h | h
      · exact h
      · split at h
        · exact h
        · cases h
    · cases h

theorem SameShape.endsLow (h : SameShape sections sections') (hLow : EndsLow sections) : EndsLow sections' := by
  intro t ht
  obtain ⟨i, hi⟩ := mem_iff_getElem?.mp ht
  obtain ⟨s, hs, hAlike⟩ := h.symm.get hi
  have hEnd := hLow s (mem_of_getElem? hs)
  rwa [hAlike.1, hAlike.vsize] at hEnd

theorem applyOne_shape (h : applyOne d sections r = .ok sections') : SameShape sections sections' := by
  have hWrite : ∃ bs, writeAt sections r.rva bs = .ok sections' := by
    unfold applyOne at h
    split at h
    · obtain ⟨old, -, hWrite⟩ := ok_of_bind h
      exact ⟨_, hWrite⟩
    · split at h
      · obtain ⟨bs, -, hWrite⟩ := ok_of_bind h
        exact ⟨_, hWrite⟩
      · cases h
  obtain ⟨bs, hWrite⟩ := hWrite
  obtain ⟨t, ht, hRoom, rfl⟩ := writeAt_iff.mp hWrite
  refine .modify fun u hu => ?_
  rw [ht] at hu
  cases hu
  exact Section.alike_overwrite hRoom

theorem applySums_lt (hLow : EndsLow sections) {n : Nat} (h : n ∈ applySums d sections relocs) : n < 2 ^ 32 := by
  induction relocs generalizing sections with
  | nil => cases h
  | cons r relocs ih =>
    rw [applySums] at h
    rcases List.mem_append.mp h with h | h
    · obtain ⟨s, hs, rfl⟩ := searchSums_of_mem (Reloc.sums_of_mem h)
      exact hLow s hs
    · split at h
      · rename_i sections' hOne
        exact ih ((applyOne_shape hOne).endsLow hLow) h
      · cases h

theorem mem_searchSums (hLaid : Laid sections) (hs : s ∈ sections) (hPos : 0 < s.vsize) :
    s.rva.toNat + s.vsize ∈ searchSums sections s.rva := by
  obtain ⟨hApart, -⟩ := hLaid
  induction sections with
  | nil => cases hs
  | cons t rest ih =>
    obtain ⟨hHead, hRest⟩ := List.pairwise_cons.mp hApart
    rw [searchSums]
    rcases List.mem_cons.mp hs with rfl | hs
    · rw [if_pos (le_refl _)]
      exact mem_cons_self
    · have hLater := ih hs hRest
      split
      · rename_i hLow
        have hNot : ¬t.reaches s.rva = true := by
          intro hReaches
          have hIn := (Section.covers_iff _ _).mp (Section.reaches_covers hReaches t.vsize_lt)
          have hClear := hHead s hs
          unfold Section.Apart at hClear
          omega
        rw [if_neg hNot]
        exact mem_cons_of_mem _ hLater
      · exact hLater

theorem Accepted.laid (h : Accepted sections) : Laid sections := by
  obtain ⟨fuel, bytes, image, hParse, rfl⟩ := h
  obtain ⟨h, hHeaders, -⟩ := ok_of_bind hParse
  exact (parse_ok (ofResult_ok hHeaders) hParse).1

theorem endsLow_of_sums (hLaid : Laid sections) (h : ∀ relocs d, ∀ n ∈ applySums d sections relocs, n < 2 ^ 32) : EndsLow sections := by
  intro s hs
  rcases Nat.eq_zero_or_pos s.vsize with hZero | hPos
  · rw [hZero]
    exact s.rva.isLt
  · have hSum := mem_searchSums hLaid hs hPos
    refine h [⟨s.rva, REL_DIR64⟩] 0 _ ?_
    refine mem_append_left _ ?_
    have hOther : REL_DIR64 ≠ REL_HIGHLOW := by decide
    rw [Reloc.sums, if_neg hOther, if_pos rfl]
    exact mem_append_left _ hSum

/-! ## The claims of a relocatable image -/

/-- For every list of sites and all bases the law holds, and for sections out of the parser no sum leaves 32 bits. -/
structure Retargetable (sections : List Section) : Prop where
  law : ∀ relocs, SitesApart relocs → ∀ p a b, Retargets sections relocs p a b
  sums : Accepted sections → ∀ relocs p a, ∀ n ∈ applySums (a - p) sections relocs, n < 2 ^ 32

theorem retargetable_iff : Retargetable sections ↔ OneSearch sections ∧ (Accepted sections → EndsLow sections) := by
  constructor
  · rintro ⟨hLaw, hSums⟩
    refine ⟨oneSearch_of_back fun r d sections' h => (hLaw [r] (List.pairwise_singleton _ _) 0 d 0).back sections' h, fun hAccepted => ?_⟩
    refine endsLow_of_sums hAccepted.laid fun relocs d n hn => hSums hAccepted relocs 0 d n ?_
    rwa [show d - 0 = d by bv_omega]
  · rintro ⟨hOne, hLow⟩
    exact ⟨fun relocs hApart p a b => retargets hOne hApart, fun hAccepted relocs p a n hn => applySums_lt (hLow hAccepted) hn⟩

/-- A file whose only section takes all of the address space above `0x1000`. -/
def tallFile : List U8 := smallFile [] 0xFFFFF000 (zeros 8)

/-- Its first number is refused: the section's end is zero in 32 bits. -/
theorem tall_section_overflows :
    parse 1 tallFile = .ok (.ofFile tallFile) ∧ ¬Retargetable (PeImage.ofFile tallFile).sections ∧
      2 ^ 32 ∈ applySums 0 (PeImage.ofFile tallFile).sections [⟨0x1000, REL_DIR64⟩] ∧
      apply (PeImage.ofFile tallFile).sections [⟨0x1000, REL_DIR64⟩] 0 0 = .error (.relocationNotInSection 0x1000) := by
  have hParse : parse 1 tallFile = .ok (.ofFile tallFile) := by decide +kernel
  have hSum : 2 ^ 32 ∈ applySums 0 (PeImage.ofFile tallFile).sections [⟨0x1000, REL_DIR64⟩] := by decide +kernel
  refine ⟨hParse, fun h => ?_, hSum, by decide +kernel⟩
  exact absurd (h.sums ⟨1, tallFile, _, hParse, rfl⟩ _ 0 0 _ hSum) (lt_irrefl _)

end Law

end Exemu.Loader
