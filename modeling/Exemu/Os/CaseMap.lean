import Exemu.Library.Pool
import Exemu.Library.Row
import Exemu.Os.Namespace

/-! # Case tables

`ntdll` changes the case of a unit by a table of three levels: a page, a row of it and the unit's
place in the row lead to what is added to the unit.
-/
namespace Exemu.Os

namespace CaseMap

open ApiSet (unitBytes unitsOf)

def CASE_BLOCK : Nat := 16

/-! ## Building -/

/-- What is added to a unit, where `f` is the case mapping of a character. A mapping to several characters
or to one of more than a unit counts as none. -/
def caseDelta (f : Char → List Char) (ch : U16) : U16 :=
  if 0xD800 ≤ ch.toNat ∧ ch.toNat < 0xE000 then 0
  else
    match f (Char.ofNat ch.toNat) with
    | [m] => if m.toNat < 2 ^ 16 then BitVec.ofNat 16 m.toNat - ch else 0
    | _ => 0

def l3Block (delta : U16 → U16) (row : Nat) : List U16 := Row.of CASE_BLOCK fun i => delta (BitVec.ofNat 16 (row * CASE_BLOCK + i))

/-- `l3_blocks` and `l3_of_row` -/
def l3Pool (delta : U16 → U16) : List (List U16) × List Nat := Pool.placeAll [] (Row.of 0x1000 (l3Block delta))

def l2Block (l3OfRow : List Nat) (page : Nat) : List Nat := Row.of CASE_BLOCK fun i => l3OfRow[page * CASE_BLOCK + i]?.getD 0

/-- `l2_blocks` and `l2_of_page` -/
def l2Pool (l3OfRow : List Nat) : List (List Nat) × List Nat := Pool.placeAll [] (Row.of 0x100 (l2Block l3OfRow))

/-- The pages, the blocks of rows and the blocks of units, one behind the other. The builder stops where this is too long. -/
def layTable (l2OfPage : List Nat) (l2Blocks : List (List Nat)) (l3Blocks : List (List U16)) : Option (List U16) :=
  let l2Base := 0x100
  let l3Base := l2Base + l2Blocks.length * CASE_BLOCK
  let total := l3Base + l3Blocks.length * CASE_BLOCK
  if total ≤ 0x8000 then
    some (l2OfPage.map (fun b => BitVec.ofNat 16 (l2Base + b * CASE_BLOCK)) ++
      ((l2Blocks.map fun block => block.map fun l3 => BitVec.ofNat 16 (l3Base + l3 * CASE_BLOCK)).flatten ++ l3Blocks.flatten))
  else none

/-- `build_case_table` behind `delta` -/
def caseTable (delta : U16 → U16) : Option (List U16) :=
  let l3 := l3Pool delta
  let l2 := l2Pool l3.2
  layTable l2.2 l2.1 l3.1

def buildCaseTable (f : Char → List Char) : Option (List U16) := caseTable (caseDelta f)

/-! ## Looking up -/

/-- Where a unit's own cell is: the high byte leads to a page, the next four bits to a row, the last four to the cell. -/
def caseSlot (t : List U16) (ch : U16) : Option Nat := do
  let l2 ← t[(ch >>> 8).toNat]?
  let l3 ← t[l2.toNat + ((ch >>> 4) &&& 0xF).toNat]?
  return l3.toNat + (ch &&& 0xF).toNat

def guestLookup (t : List U16) (ch : U16) : Option U16 := do
  let slot ← caseSlot t ch
  let delta ← t[slot]?
  return ch + delta

section Lookup

variable {delta : U16 → U16} {t : List U16}

theorem size_l3Pool (delta : U16 → U16) : ∀ b ∈ (l3Pool delta).1, b.length = CASE_BLOCK := by
  intro b hb
  rcases Pool.mem_placeAll hb with hNone | hRow
  · exact absurd hNone List.not_mem_nil
  · obtain ⟨row, -, rfl⟩ := List.mem_map.mp hRow
    exact Row.length_of ..

variable (l3OfRow : List Nat)

theorem size_l2Pool : ∀ b ∈ (l2Pool l3OfRow).1, b.length = CASE_BLOCK := by
  intro b hb
  rcases Pool.mem_placeAll hb with hNone | hPage
  · exact absurd hNone List.not_mem_nil
  · obtain ⟨page, -, rfl⟩ := List.mem_map.mp hPage
    exact Row.length_of ..

theorem length_l2Pages : (l2Pool l3OfRow).2.length = 0x100 := by
  unfold l2Pool
  rw [Pool.length_placeAll]
  exact Row.length_of ..

theorem l3Pool_row (delta : U16 → U16) {row : Nat} (hRow : row < 0x1000) :
    ∃ k, (l3Pool delta).2[row]? = some k ∧ (l3Pool delta).1[k]? = some (l3Block delta row) :=
  Pool.getElem?_placeAll (Row.getElem?_of hRow)

theorem l2Pool_page {page : Nat} (hPage : page < 0x100) :
    ∃ b, (l2Pool l3OfRow).2[page]? = some b ∧ (l2Pool l3OfRow).1[b]? = some (l2Block l3OfRow page) :=
  Pool.getElem?_placeAll (Row.getElem?_of hPage)

theorem unit_digits (ch : U16) : (ch >>> 8).toNat < 0x100 ∧ ((ch >>> 4) &&& 0xF).toNat < CASE_BLOCK ∧ (ch &&& 0xF).toNat < CASE_BLOCK ∧
    ((ch >>> 8).toNat * CASE_BLOCK + ((ch >>> 4) &&& 0xF).toNat) * CASE_BLOCK + (ch &&& 0xF).toNat = ch.toNat := by
  have hNibble : ∀ v : U16, (v &&& 0xF).toNat = v.toNat % 16 := fun v => by
    rw [BitVec.toNat_and]
    exact Nat.and_two_pow_sub_one_eq_mod v.toNat 4
  have hMax := ch.isLt
  rw [hNibble, hNibble, BitVec.toNat_ushiftRight, BitVec.toNat_ushiftRight, Nat.shiftRight_eq_div_pow, Nat.shiftRight_eq_div_pow, CASE_BLOCK]
  omega

section Cells

variable {l2OfPage : List Nat} {l2Blocks : List (List Nat)} {l3Blocks : List (List U16)} {b k page mid low : Nat} {rows : List Nat}
  {units : List U16}

theorem layTable_cells (h : layTable l2OfPage l2Blocks l3Blocks = some t) (hPages : l2OfPage.length = 0x100)
    (hL2 : ∀ block ∈ l2Blocks, block.length = CASE_BLOCK) (hL3 : ∀ block ∈ l3Blocks, block.length = CASE_BLOCK)
    (hPage : l2OfPage[page]? = some b) (hRows : l2Blocks[b]? = some rows) (hMid : rows[mid]? = some k) (hUnits : l3Blocks[k]? = some units)
    (hLow : low < CASE_BLOCK) : ∃ l2 l3 : U16, t[page]? = some l2 ∧ t[l2.toNat + mid]? = some l3 ∧ t[l3.toNat + low]? = units[low]? := by
  have hb := (List.getElem?_eq_some_iff.mp hRows).1
  have hk := (List.getElem?_eq_some_iff.mp hUnits).1
  have hMidLt : mid < CASE_BLOCK := hL2 rows (List.mem_of_getElem? hRows) ▸ (List.getElem?_eq_some_iff.mp hMid).1
  have hPageLt : page < 0x100 := hPages ▸ (List.getElem?_eq_some_iff.mp hPage).1
  unfold layTable at h
  dsimp only at h
  split at h
  · rename_i hTotal
    obtain rfl := Option.some.inj h
    have hCells : ∀ block ∈ l2Blocks.map fun block => block.map fun l3 =>
        BitVec.ofNat 16 (0x100 + l2Blocks.length * CASE_BLOCK + l3 * CASE_BLOCK), block.length = CASE_BLOCK := by
      intro block hBlock
      obtain ⟨c, hc, rfl⟩ := List.mem_map.mp hBlock
      rw [List.length_map, hL2 c hc]
    have hMiddle := Pool.length_flatten hCells
    rw [List.length_map] at hMiddle
    have hSmall : b * CASE_BLOCK + CASE_BLOCK ≤ l2Blocks.length * CASE_BLOCK := Nat.succ_mul b CASE_BLOCK ▸ Nat.mul_le_mul_right _ hb
    have hSmall' : k * CASE_BLOCK + CASE_BLOCK ≤ l3Blocks.length * CASE_BLOCK := Nat.succ_mul k CASE_BLOCK ▸ Nat.mul_le_mul_right _ hk
    refine ⟨BitVec.ofNat 16 (0x100 + b * CASE_BLOCK), BitVec.ofNat 16 (0x100 + l2Blocks.length * CASE_BLOCK + k * CASE_BLOCK), ?_, ?_, ?_⟩
    · rw [List.getElem?_append_left (by rw [List.length_map, hPages]; exact hPageLt), List.getElem?_map, hPage]
      rfl
    · rw [BitVec.toNat_ofNat, Nat.mod_eq_of_lt (by omega),
        List.getElem?_append_right (by rw [List.length_map, hPages]; omega), List.length_map, hPages,
        List.getElem?_append_left (by rw [hMiddle]; omega), show 0x100 + b * CASE_BLOCK + mid - 0x100 = b * CASE_BLOCK + mid by omega]
      have hBlock : (l2Blocks.map fun block => block.map fun l3 =>
          BitVec.ofNat 16 (0x100 + l2Blocks.length * CASE_BLOCK + l3 * CASE_BLOCK))[b]? =
            some (rows.map fun l3 => BitVec.ofNat 16 (0x100 + l2Blocks.length * CASE_BLOCK + l3 * CASE_BLOCK)) := by
        rw [List.getElem?_map, hRows]
        rfl
      rw [Pool.getElem?_flatten hCells hBlock hMidLt, List.getElem?_map, hMid]
      rfl
    · rw [BitVec.toNat_ofNat, Nat.mod_eq_of_lt (by omega),
        List.getElem?_append_right (by rw [List.length_map, hPages]; omega), List.length_map, hPages,
        List.getElem?_append_right (by rw [hMiddle]; omega), hMiddle, show 0x100 + l2Blocks.length * CASE_BLOCK + k * CASE_BLOCK + low -
          0x100 - l2Blocks.length * CASE_BLOCK = k * CASE_BLOCK + low by omega]
      exact Pool.getElem?_flatten hL3 hUnits hLow
  · cases h

end Cells

theorem caseTable_slot (h : caseTable delta = some t) (ch : U16) : ∃ slot, caseSlot t ch = some slot ∧ t[slot]? = some (delta ch) := by
  obtain ⟨hPage, hMid, hLow, hDigits⟩ := unit_digits ch
  have hRow : (ch >>> 8).toNat * CASE_BLOCK + ((ch >>> 4) &&& 0xF).toNat < 0x1000 := by
    rw [CASE_BLOCK] at *
    omega
  obtain ⟨k, hNumber, hBlock⟩ := l3Pool_row delta hRow
  obtain ⟨b, hPlace, hRows⟩ := l2Pool_page (l3Pool delta).2 hPage
  have hCell : (l2Block (l3Pool delta).2 (ch >>> 8).toNat)[((ch >>> 4) &&& 0xF).toNat]? = some k := by
    rw [l2Block, Row.getElem?_of hMid, hNumber]
    rfl
  unfold caseTable at h
  dsimp only at h
  obtain ⟨l2, l3, hl2, hl3, hUnit⟩ := layTable_cells h (length_l2Pages _) (size_l2Pool _) (size_l3Pool delta) hPlace hRows hCell hBlock hLow
  refine ⟨l3.toNat + (ch &&& 0xF).toNat, ?_, ?_⟩
  · rw [caseSlot, hl2]
    show (t[l2.toNat + ((ch >>> 4) &&& 0xF).toNat]?.bind fun l3 => some (l3.toNat + (ch &&& 0xF).toNat)) = _
    rw [hl3]
    rfl
  · rw [hUnit, l3Block, Row.getElem?_of hLow, hDigits, BitVec.ofNat_toNat, BitVec.setWidth_eq]

theorem guestLookup_caseTable (h : caseTable delta = some t) (ch : U16) : guestLookup t ch = some (ch + delta ch) := by
  obtain ⟨slot, hSlot, hCell⟩ := caseTable_slot h ch
  rw [guestLookup, hSlot]
  show (t[slot]?.bind fun d => some (ch + d)) = _
  rw [hCell]
  rfl

def caseTotal (delta : U16 → U16) : Nat :=
  0x100 + (l2Pool (l3Pool delta).2).1.length * CASE_BLOCK + (l3Pool delta).1.length * CASE_BLOCK

theorem caseTable_eq_none : caseTable delta = none ↔ 0x8000 < caseTotal delta := by
  unfold caseTable layTable
  dsimp only
  split
  · rename_i hTotal
    exact ⟨nofun, fun hLong => absurd hTotal (Nat.not_le.mpr hLong)⟩
  · rename_i hTotal
    exact ⟨fun _ => Nat.lt_of_not_le hTotal, fun _ => rfl⟩

/-- For every mapping the table that is built gives it back, by cells of the table, and units that are led to one cell
have the same number added; nothing is built only where the table would be too long. The builder's own
mappings are among them. -/
theorem caseTable_lookup (f : U16 → U16) :
    (0x8000 < caseTotal (fun ch => f ch - ch) ∧ caseTable (fun ch => f ch - ch) = none ∨
      ∃ t, caseTable (fun ch => f ch - ch) = some t ∧ (∀ ch, guestLookup t ch = some (f ch)) ∧
        (∀ ch, ∃ slot < t.length, caseSlot t ch = some slot) ∧
        ∀ ch ch', caseSlot t ch = caseSlot t ch' → f ch - ch = f ch' - ch') ∧
    ∀ g : Char → List Char, (∀ ch, f ch = ch + caseDelta g ch) → buildCaseTable g = caseTable fun ch => f ch - ch := by
  refine ⟨?_, fun g hOf => ?_⟩
  case refine_2 =>
    have hDelta : caseDelta g = fun ch => f ch - ch := by
      funext ch
      rw [hOf, BitVec.add_comm, BitVec.add_sub_cancel]
    rw [buildCaseTable, hDelta]
  cases h : caseTable fun ch => f ch - ch with
  | none => exact .inl ⟨caseTable_eq_none.mp h, rfl⟩
  | some t =>
    refine .inr ⟨t, rfl, fun ch => ?_, fun ch => ?_, fun ch ch' hSame => ?_⟩
    · rw [guestLookup_caseTable h, BitVec.add_comm, BitVec.sub_add_cancel]
    · obtain ⟨slot, hSlot, hCell⟩ := caseTable_slot h ch
      exact ⟨slot, (List.getElem?_eq_some_iff.mp hCell).1, hSlot⟩
    · obtain ⟨slot, hSlot, hCell⟩ := caseTable_slot h ch
      obtain ⟨slot', hSlot', hCell'⟩ := caseTable_slot h ch'
      obtain rfl : slot = slot' := Option.some.inj (hSlot.symm.trans (hSame.trans hSlot'))
      exact Option.some.inj (hCell.symm.trans hCell')

end Lookup

theorem caseTotal_identity : caseTotal (fun ch => id ch - ch) ≤ 0x8000 := by
  have hL3 : (l3Pool fun ch => id ch - ch).1.length ≤ 1 := by
    refine @Pool.length_placeAll_const _ _ _ (Row.of CASE_BLOCK fun _ => 0) fun block hBlock => ?_
    obtain ⟨row, -, rfl⟩ := List.mem_map.mp hBlock
    exact Row.of_congr fun i hi => BitVec.sub_self _
  have hL2 : (l2Pool (l3Pool fun ch => id ch - ch).2).1.length ≤ 1 := by
    refine @Pool.length_placeAll_const _ _ _ (Row.of CASE_BLOCK fun _ => 0) fun block hBlock => ?_
    obtain ⟨page, hPage, rfl⟩ := List.mem_map.mp hBlock
    refine Row.of_congr fun i hi => ?_
    have hRow : page * CASE_BLOCK + i < 0x1000 := by
      rw [List.mem_range] at hPage
      rw [CASE_BLOCK] at *
      omega
    obtain ⟨k, hNumber, hFound⟩ := l3Pool_row (fun ch => id ch - ch) hRow
    rw [hNumber, Option.getD_some]
    have hk := (List.getElem?_eq_some_iff.mp hFound).1
    omega
  rw [caseTotal, CASE_BLOCK]
  omega

theorem caseTable_lookup_identity : ∃ t, caseTable (fun ch => id ch - ch) = some t ∧ ∀ ch, guestLookup t ch = some ch := by
  rcases (caseTable_lookup id).1 with ⟨hLong, -⟩ | ⟨t, hTable, hLookup, -⟩
  · exact absurd caseTotal_identity (Nat.not_le.mpr hLong)
  · exact ⟨t, hTable, hLookup⟩

end CaseMap
end Exemu.Os
