import Exemu.Cpu.Xsave

/-! # What XSAVE leaves alone

The legacy area is built and written as a whole, whatever components the mask names.
-/
namespace Exemu

namespace Interp

open Fallible

/-! ## Whose the bytes are -/

def ofX87 (k : Nat) : Prop := k < 24 ∨ (32 ≤ k ∧ k < 160)

def ofSse (k : Nat) : Prop := (24 ≤ k ∧ k < 32) ∨ (160 ≤ k ∧ k < 416)

def ofAvx (k : Nat) : Prop := 576 ≤ k ∧ k < 832

def ofXstateBv (k : Nat) : Prop := 512 ≤ k ∧ k < 520

/-- The byte at this distance belongs to a component that is saved, or says which are. -/
def Saved (features : U64) (k : Nat) : Prop :=
  (features &&& 1 ≠ 0 ∧ ofX87 k) ∨ (features &&& 2 ≠ 0 ∧ ofSse k) ∨ (features &&& 4 ≠ 0 ∧ ofAvx k) ∨ ofXstateBv k

def KeepsRest (features addr : U64) (m m' : VirtualMemory) : Prop :=
  ∀ b x, (∀ k, Saved features k → b ≠ addr + BitVec.ofNat 64 k) → m.peek b = some x → m'.peek b = some x

def Holds (features addr : U64) (m : VirtualMemory) (k : Nat) (byte : U8) : Prop :=
  ¬Saved features k → addr.toNat + k < 2 ^ 64 → ∀ x, m.peek (addr + BitVec.ofNat 64 k) = some x → x = byte

/-- Where nothing is to be saved the area has the registers already, and zeros between them and behind. -/
structure AlreadyThere (cpu : Interpreter) (rexw : Bool) (addr : U64) (m : VirtualMemory) : Prop where
  fields : ∀ p ∈ cpu.fxsaveParts rexw, ∀ j byte, p.2[j]? = some byte → Holds cpu.xsaveRfbm addr m (p.1 + j) byte
  between : ∀ k < 512, (∀ p ∈ cpu.fxsaveParts rexw, k < p.1 ∨ p.1 + p.2.length ≤ k) → Holds cpu.xsaveRfbm addr m k 0

section Image

variable {self : Interpreter} {rexw : Bool} {addr : U64} {m : VirtualMemory}

theorem image_field {p : Nat × List U8} (hp : p ∈ self.fxsaveParts rexw) {j : Nat} {byte : U8} (hj : p.2[j]? = some byte) :
    (self.buildFxsaveArea rexw)[p.1 + j]? = some byte := by
  obtain ⟨hLess, -⟩ := List.getElem?_eq_some_iff.mp hj
  have hField := congrArg (fun bs => bs[j]?) (@field_area _ _ p.1 p.2 hp)
  dsimp only [field] at hField
  rw [List.getElem?_take_of_lt hLess, List.getElem?_drop, hj] at hField
  exact hField

theorem image_between {k : Nat} (hk : k < 512) (h : ∀ p ∈ self.fxsaveParts rexw, k < p.1 ∨ p.1 + p.2.length ≤ k) :
    (self.buildFxsaveArea rexw)[k]? = some 0 := by
  rw [Put.putAll_elsewhere (area_parts self rexw) h, List.getElem?_replicate, if_pos hk]

theorem alreadyThere_iff : AlreadyThere self rexw addr m ↔
    ∀ k byte, (self.buildFxsaveArea rexw)[k]? = some byte → Holds self.xsaveRfbm addr m k byte := by
  constructor
  · intro h k byte hByte
    obtain ⟨hk, -⟩ := List.getElem?_eq_some_iff.mp hByte
    rw [length_area] at hk
    by_cases hOut : ∀ p ∈ self.fxsaveParts rexw, k < p.1 ∨ p.1 + p.2.length ≤ k
    · rw [image_between hk hOut] at hByte
      cases hByte
      exact h.between k hk hOut
    · push Not at hOut
      obtain ⟨p, hp, hLow, hHigh⟩ := hOut
      obtain ⟨j, rfl⟩ := Nat.exists_eq_add_of_le hLow
      have hHere : p.2[j]? = some byte := by
        rw [← hByte, image_field hp (List.getElem?_eq_getElem (by omega))]
        exact List.getElem?_eq_getElem _
      exact h.fields p hp j byte hHere
  · intro h
    exact ⟨fun p hp j byte hj => h _ _ (image_field hp hj), fun k hk hOut => h k 0 (image_between hk hOut)⟩

end Image

/-! ## What changes -/

section Changes

variable {c c' : Core} {addr : U64} {rexw : Bool}

theorem peek_last (m : VirtualMemory) {b : U64} (h : b.toNat = 2 ^ 64 - 1) : m.peek b = none := by
  refine VirtualMemory.peek_of_none fun r _ => Bool.eq_false_iff.mpr fun hIn => ?_
  obtain ⟨-, hHigh⟩ := (Region.contains_iff _ _).mp hIn
  unfold Region.endAddr at hHigh
  omega

theorem part_saved {self : Interpreter} {header : U64} {p : Nat × List U8} (hp : p ∈ xsaveParts self rexw header) :
    p = (0, self.buildFxsaveArea rexw) ∨ (∀ j < p.2.length, Saved self.xsaveRfbm (p.1 + j)) := by
  unfold xsaveParts at hp
  rw [List.mem_append, List.mem_append, List.mem_singleton, List.mem_singleton] at hp
  rcases hp with (rfl | hAvx) | rfl
  · exact .inl rfl
  · refine .inr fun j hj => ?_
    split at hAvx
    · rename_i hFeature
      obtain ⟨i, hi, rfl⟩ := List.mem_map.mp hAvx
      rw [List.mem_range] at hi
      rw [length_toLe128] at hj
      have hCount := nxmm_cases self
      exact .inr (.inr (.inl ⟨hFeature, by unfold ofAvx; omega⟩))
    · exact absurd hAvx List.not_mem_nil
  · refine .inr fun j hj => ?_
    rw [length_toLe] at hj
    exact .inr (.inr (.inr (by unfold ofXstateBv; omega)))

theorem xsave_outside (hWf : VirtualMemory.WellFormed c.mem) (h : xsave addr rexw c = some (.ok (), c')) {b : U64}
    (hSaved : ∀ k, Saved c.cpu.xsaveRfbm k → b ≠ addr + BitVec.ofNat 64 k)
    (hLegacy : ∀ k < 512, addr.toNat + k < 2 ^ 64 → b ≠ addr + BitVec.ofNat 64 k) : c'.mem.peek b = c.mem.peek b := by
  obtain ⟨old, hAll, -⟩ := xsave_ok h
  refine VirtualMemory.writeAll_outside hWf hAll fun q hq => ?_
  obtain ⟨p, hp, rfl⟩ := List.mem_map.mp hq
  have hb := b.isLt
  by_contra hIn
  push Not at hIn
  obtain ⟨hLow, hHigh⟩ := hIn
  dsimp only at hLow hHigh
  obtain ⟨j, hj⟩ := Nat.exists_eq_add_of_le hLow
  have hPlace : b = addr + BitVec.ofNat 64 (p.1 + j) := by
    refine BitVec.eq_of_toNat_eq ?_
    rw [← add_ofNat, BitVec.toNat_add, BitVec.toNat_ofNat]
    omega
  rcases part_saved hp with rfl | hPart
  · rw [show addr + BitVec.ofNat 64 (0, c.cpu.buildFxsaveArea rexw).1 = addr from BitVec.add_zero addr] at hj hHigh
    rw [length_area] at hHigh
    rw [Nat.zero_add] at hPlace
    exact hLegacy j (by omega) (by omega) hPlace
  · exact hSaved (p.1 + j) (hPart j (by omega)) hPlace

theorem xsave_legacy (hWf : VirtualMemory.WellFormed c.mem) (h : xsave addr rexw c = some (.ok (), c')) {k : Nat} {byte : U8}
    (hByte : (c.cpu.buildFxsaveArea rexw)[k]? = some byte) (hLast : addr.toNat + k < 2 ^ 64 - 1) :
    c'.mem.peek (addr + BitVec.ofNat 64 k) = some byte := by
  obtain ⟨old, hAll, -⟩ := xsave_ok h
  have hApart := xsaveParts_apart c.cpu rexw (xstateBv old c.cpu.xsaveRfbm) addr
  have hLies := VirtualMemory.writeAll_lies hWf hAll hApart (addr + BitVec.ofNat 64 0, c.cpu.buildFxsaveArea rexw)
    (List.mem_map.mpr ⟨(0, c.cpu.buildFxsaveArea rexw), by simp [xsaveParts], rfl⟩)
  have hHere := hLies k byte hByte
  dsimp only at hHere
  rw [show addr + BitVec.ofNat 64 0 = addr from BitVec.add_zero addr] at hHere
  exact hHere hLast

/-- An XSAVE leaves alone what it does not save exactly where the area holds the registers before. -/
theorem xsave_keeps_iff (hWf : VirtualMemory.WellFormed c.mem) (h : xsave addr rexw c = some (.ok (), c')) :
    KeepsRest c.cpu.xsaveRfbm addr c.mem c'.mem ↔ AlreadyThere c.cpu rexw addr c.mem := by
  rw [alreadyThere_iff]
  constructor
  · intro hKeeps k byte hByte hOut hTop x hSeen
    obtain ⟨hk, -⟩ := List.getElem?_eq_some_iff.mp hByte
    rw [length_area] at hk
    have hPlace := VirtualMemory.toNat_at (a := addr) (n := k) hTop
    have hLast : addr.toNat + k < 2 ^ 64 - 1 := by
      by_contra hEnd
      rw [peek_last c.mem (by omega)] at hSeen
      cases hSeen
    have hKept := hKeeps (addr + BitVec.ofNat 64 k) x (fun k' hSaved hSame => hOut ?_) hSeen
    · rw [xsave_legacy hWf h hByte hLast] at hKept
      exact (Option.some.inj hKept).symm
    · have hNat := congrArg BitVec.toNat hSame
      have hNear : k' < 832 := by
        unfold Saved ofX87 ofSse ofAvx ofXstateBv at hSaved
        omega
      rw [hPlace, BitVec.toNat_add, BitVec.toNat_ofNat] at hNat
      obtain rfl : k' = k := by omega
      exact hSaved
  · intro hThere b x hOut hSeen
    by_cases hLegacy : ∀ k < 512, addr.toNat + k < 2 ^ 64 → b ≠ addr + BitVec.ofNat 64 k
    · rw [xsave_outside hWf h hOut hLegacy]
      exact hSeen
    · push Not at hLegacy
      obtain ⟨k, hk, hTop, rfl⟩ := hLegacy
      have hPlace := VirtualMemory.toNat_at (a := addr) (n := k) hTop
      have hLast : addr.toNat + k < 2 ^ 64 - 1 := by
        by_contra hEnd
        rw [peek_last c.mem (by omega)] at hSeen
        cases hSeen
      have hByte : (c.cpu.buildFxsaveArea rexw)[k]? = some ((c.cpu.buildFxsaveArea rexw).getD k 0) := by
        rw [List.getD_eq_getElem?_getD, List.getElem?_eq_getElem (by rw [length_area]; exact hk)]
        rfl
      rw [xsave_legacy hWf h hByte hLast, hThere k _ hByte (fun hSaved => hOut k hSaved rfl) hTop x hSeen]

end Changes

/-! ## SSE alone -/

def sseCore : Core := ⟨{ state := CpuState.setReg {} 0 2 }, onePage⟩

/-- The byte at the beginning of the page, where the control word of the x87 unit is saved. -/
def firstByte (out : Option (Except Stop Unit × Core)) : Option (Bool × Option U8) := out.map fun p => (p.1.toOption.isSome, p.2.mem.peek 0x1000)

theorem sseCore_firstByte : firstByte (xsave 0x1000 false sseCore) = some (true, some 0x7F) := by decide +kernel

theorem xsave_overwrites : ∃ c', xsave 0x1000 false sseCore = some (.ok (), c') ∧ ¬KeepsRest sseCore.cpu.xsaveRfbm 0x1000 sseCore.mem c'.mem := by
  obtain ⟨⟨out, c'⟩, hRun, hSeen⟩ := Option.map_eq_some_iff.mp sseCore_firstByte
  obtain ⟨hOk, hByte⟩ := Prod.mk.inj hSeen
  cases out with
  | error e => cases hOk
  | ok u =>
    refine ⟨c', hRun, fun hKeeps => ?_⟩
    have hKept := hKeeps 0x1000 0 (fun k hSaved hSame => ?_) (by decide)
    · rw [hKept] at hByte
      cases hByte
    · have hNat := congrArg BitVec.toNat hSame
      have hMask : sseCore.cpu.xsaveRfbm = 2 := by decide
      rw [hMask] at hSaved
      unfold Saved ofX87 ofSse ofAvx ofXstateBv at hSaved
      rw [BitVec.toNat_add, BitVec.toNat_ofNat] at hNat
      simp at hSaved hNat
      omega

theorem xsave_keeps_iff_of_sse : ∃ c', xsave 0x1000 false sseCore = some (.ok (), c') ∧
    (KeepsRest sseCore.cpu.xsaveRfbm 0x1000 sseCore.mem c'.mem ↔ AlreadyThere sseCore.cpu false 0x1000 sseCore.mem) := by
  obtain ⟨⟨out, c'⟩, hRun, hSeen⟩ := Option.map_eq_some_iff.mp sseCore_firstByte
  cases out with
  | error e => cases (Prod.mk.inj hSeen).1
  | ok u => exact ⟨c', hRun, xsave_keeps_iff onePage_wellFormed hRun⟩

end Interp

end Exemu
