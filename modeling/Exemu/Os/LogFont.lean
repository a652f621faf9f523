import Exemu.Core.Memory
import Exemu.Library.Signed

/-! # The metrics of a font

A font is asked for by the bytes of a `LOGFONTW`.
-/
namespace Exemu.Os

open Signed

def LOGFONTW_SIZE : Nat := 0x5c
def LOGFONT_HEIGHT : Nat := 0x00
def LOGFONT_WEIGHT : Nat := 0x10
def LOGFONT_ITALIC : Nat := 0x14
def LOGFONT_UNDERLINE : Nat := 0x15
def LOGFONT_STRIKE_OUT : Nat := 0x16
def LOGFONT_CHAR_SET : Nat := 0x17
def LOGFONT_PITCH_AND_FAMILY : Nat := 0x1b
def FW_NORMAL : BitVec 32 := 400
def STUB_FONT_CELL_H : Nat := 16

structure LogFont where
  bytes : List U8
  sized : bytes.length = LOGFONTW_SIZE

structure TextMetrics where
  height : Nat
  ascent : Nat
  descent : Nat
  internalLeading : Nat
  aveCharWidth : Nat
  maxCharWidth : Nat
  weight : U32
  italic : U8
  underlined : U8
  struckOut : U8
  charSet : U8
  pitchAndFamily : U8
  deriving DecidableEq, Repr

def word32 (v : Nat) : Option Nat := if v < 2 ^ 32 then some v else none

def checkedSub (a b : Nat) : Option Nat := if b ≤ a then some (a - b) else none

/-- `v.clamp(lo, hi)` -/
def clamp (v lo hi : Nat) : Nat := max lo (min v hi)

namespace LogFont

def fromBytes (src : List U8) : LogFont where
  bytes := (src ++ List.replicate LOGFONTW_SIZE 0).take LOGFONTW_SIZE
  sized := by
    rw [List.length_take, List.length_append, List.length_replicate]
    omega

variable (lf : LogFont)

def i32At (off : Nat) : BitVec 32 := (fromLe ((lf.bytes.drop off).take 4)).setWidth 32

def byteAt (off : Nat) : U8 := lf.bytes.getD off 0

def height : BitVec 32 := lf.i32At LOGFONT_HEIGHT

def weight : BitVec 32 := if lf.i32At LOGFONT_WEIGHT = 0 then FW_NORMAL else lf.i32At LOGFONT_WEIGHT

/-- A positive height is that of the cell, the magnitude of a negative one that of the
characters in it. -/
def cellHeight : Option Nat := do
  let h := lf.height.toInt
  let cell ←
    if h = 0 then some STUB_FONT_CELL_H
    else if 0 < h then some h.toNat
    else word32 (h.natAbs + (h.natAbs + 3) / 4)
  return clamp cell 1 512

def leading (cell : Nat) : Option Nat := if lf.height.toInt < 0 then checkedSub cell lf.height.toInt.natAbs else some (cell / 8)

def metrics : Option TextMetrics := do
  let cell ← lf.cellHeight
  let descent := max (cell / 4) 1
  let internalLeading ← lf.leading cell
  let wide ← word32 (cell * 3)
  let ave := max (wide / 8) 1
  let maxCharWidth ← word32 (ave * 2)
  let ascent ← checkedSub cell descent
  return {
    height := cell
    ascent
    descent
    internalLeading
    aveCharWidth := ave
    maxCharWidth
    weight := lf.weight
    italic := lf.byteAt LOGFONT_ITALIC
    underlined := lf.byteAt LOGFONT_UNDERLINE
    struckOut := lf.byteAt LOGFONT_STRIKE_OUT
    charSet := lf.byteAt LOGFONT_CHAR_SET
    pitchAndFamily := lf.byteAt LOGFONT_PITCH_AND_FAMILY }

def asked : Nat := lf.height.toInt.natAbs + (lf.height.toInt.natAbs + 3) / 4

structure Sound (m : TextMetrics) : Prop where
  sum : m.ascent + m.descent = m.height
  pos : 1 ≤ m.height
  leading : m.internalLeading ≤ m.height
  unclamped : lf.height.toInt < 0 → m.height = lf.asked → (m.internalLeading : Int) = m.height - lf.height.toInt.natAbs

def Meets : Prop := ∃ m, lf.metrics = some m ∧ lf.Sound m

variable {lf}

/-! ## When there are any -/

theorem natAbs_height_le : lf.height.toInt.natAbs ≤ 2 ^ 31 := by
  obtain ⟨hLow, hHigh⟩ := fits_toInt lf.height
  omega

theorem cellHeight_eq : ∃ cell, lf.cellHeight = some cell ∧ (1 ≤ cell ∧ cell ≤ 512) ∧ (lf.height.toInt < 0 → cell = min lf.asked 512) := by
  have hAbs := @natAbs_height_le lf
  unfold cellHeight asked
  dsimp only
  split
  · exact ⟨_, rfl, by decide, by omega⟩
  split
  · exact ⟨_, rfl, by unfold clamp; omega, by omega⟩
  · rw [word32, if_pos (by omega)]
    exact ⟨_, rfl, by unfold clamp; omega, by unfold clamp; omega⟩

theorem metrics_of_leading {cell rest : Nat} (hCell : lf.cellHeight = some cell) (hRange : 1 ≤ cell ∧ cell ≤ 512) (hRest : lf.leading cell = some rest) :
    ∃ m, lf.metrics = some m ∧ (m.height = cell ∧ m.internalLeading = rest) ∧ m.ascent + m.descent = cell := by
  have hWide : word32 (cell * 3) = some (cell * 3) := if_pos (by omega)
  have hMax : word32 (max (cell * 3 / 8) 1 * 2) = some (max (cell * 3 / 8) 1 * 2) := if_pos (by omega)
  have hAscent : checkedSub cell (max (cell / 4) 1) = some (cell - max (cell / 4) 1) := if_pos (by omega)
  unfold metrics
  simp only [hCell, hRest, hWide, hMax, hAscent, Option.bind_eq_bind, Option.bind_some, Option.pure_def]
  refine ⟨_, rfl, ⟨rfl, rfl⟩, ?_⟩
  dsimp only
  omega

theorem metrics_none (h : lf.height.toInt < -512) : lf.metrics = none := by
  obtain ⟨cell, hCell, hRange, -⟩ := @cellHeight_eq lf
  have hShort : lf.leading cell = none := (if_pos (by omega)).trans (if_neg (by omega))
  unfold metrics
  simp only [hCell, hShort, Option.bind_eq_bind, Option.bind_some, Option.bind_none]

/-- The magnitude of a negative height must not be more than the largest cell. -/
theorem metrics_meets_iff (lf : LogFont) : lf.Meets ↔ -512 ≤ lf.height.toInt := by
  constructor
  · rintro ⟨m, hMetrics, -⟩
    by_contra hDeep
    rw [metrics_none (by omega)] at hMetrics
    cases hMetrics
  · intro hLow
    obtain ⟨cell, hCell, hRange, hAsked⟩ := @cellHeight_eq lf
    rcases lt_or_ge lf.height.toInt 0 with hDown | hUp
    · have hEnough : lf.height.toInt.natAbs ≤ cell := by
        rw [hAsked hDown]
        unfold asked
        omega
      obtain ⟨m, hMetrics, ⟨hHeight, hLeading⟩, hSum⟩ := metrics_of_leading hCell hRange ((if_pos hDown).trans (if_pos hEnough))
      exact ⟨m, hMetrics, by omega, by omega, by omega, fun _ _ => by omega⟩
    · obtain ⟨m, hMetrics, ⟨hHeight, hLeading⟩, hSum⟩ := metrics_of_leading hCell hRange (if_neg (not_lt.mpr hUp))
      exact ⟨m, hMetrics, by omega, by omega, by omega, fun hDown => by omega⟩

/-- A font with characters of 513 pixels. -/
theorem large_font_fails : ¬(fromBytes [0xff, 0xfd, 0xff, 0xff]).Meets := by
  have hHeight : (fromBytes [0xff, 0xfd, 0xff, 0xff]).height.toInt = -513 := by decide
  rintro ⟨m, hMetrics, -⟩
  rw [metrics_none (by omega)] at hMetrics
  cases hMetrics

end LogFont
end Exemu.Os
