import Exemu.Memory.Packed

/-! # A window of memory

One region of the memory, with what its bytes are: what is written through it, and beside it.
-/
namespace Exemu

namespace VirtualMemory

variable {m m' : VirtualMemory} {g : Region} {f : Nat → U8} {a : U64} {bs bs' : List U8}

structure Window (m : VirtualMemory) (g : Region) (f : Nat → U8) : Prop where
  wellFormed : WellFormed m
  here : g ∈ m.regions.map fun r => r.region
  top : g.base.toNat + g.size.toNat < 2 ^ 64
  bytes : ∀ i, i < g.size.toNat → m.peek (g.base + BitVec.ofNat 64 i) = some (f i)

variable {bytes : Nat → U8}

theorem mem_regions_insert {region : Region} (h : m.insert region bytes = .ok m') (hSize : region.size ≠ 0) {r : Mapped} :
    r ∈ m'.regions ↔ r = ⟨region, bytes, m.nextHost⟩ ∨ r ∈ m.regions := by
  rcases insert_ok h with ⟨hZero, -⟩ | ⟨-, -, rfl⟩
  · exact absurd hZero hSize
  · dsimp only
    rw [List.mem_append, List.mem_cons, or_left_comm, ← List.mem_append, List.take_append_drop]

theorem offset_toNat {i : Nat} (hTop : g.base.toNat + g.size.toNat < 2 ^ 64) (hi : i < g.size.toNat) :
    (g.base + BitVec.ofNat 64 i).toNat = g.base.toNat + i := by
  rw [BitVec.toNat_add, BitVec.toNat_ofNat]
  omega

theorem contains_offset {i : Nat} (hTop : g.base.toNat + g.size.toNat < 2 ^ 64) (hi : i < g.size.toNat) :
    g.contains (g.base + BitVec.ofNat 64 i) = true := by
  rw [Region.contains_iff, offset_toNat hTop hi]
  unfold Region.endAddr
  omega

theorem Window.fresh (hWf : WellFormed m) (h : m.insert g bytes = .ok m') (hSize : g.size ≠ 0) (hTop : g.base.toNat + g.size.toNat < 2 ^ 64) :
    Window m' g bytes where
  wellFormed := hWf.insert h
  here := List.mem_map.mpr ⟨_, (mem_regions_insert h hSize).mpr (.inl rfl), rfl⟩
  top := hTop
  bytes i hi := by
    obtain ⟨k, hGet⟩ := List.mem_iff_getElem?.mp ((mem_regions_insert h hSize).mpr (.inl rfl))
    rw [peek_of_region (hWf.insert h) hGet (contains_offset hTop hi), offset_toNat hTop hi]
    dsimp only
    rw [Nat.add_sub_cancel_left]

theorem write_fits (hWf : WellFormed m) (hg : g ∈ m.regions.map fun r => r.region) (hContains : g.contains a = true)
    (hFits : a.toNat - g.base.toNat + bs.length ≤ g.size.toNat) (hPerm : g.perm.contains Perm.WRITE = true) :
    ∃ m', m.write a bs = .ok m' := by
  obtain ⟨r, hr, rfl⟩ := List.mem_map.mp hg
  obtain ⟨i, hGet⟩ := List.mem_iff_getElem?.mp hr
  unfold VirtualMemory.write
  split
  · exact ⟨m, rfl⟩
  · rw [locate_eq_ok hWf.separated hGet hContains hFits hPerm]
    exact ⟨_, rfl⟩

theorem Window.write (h : Window m g f) {p : Nat} (hFits : p + bs.length ≤ g.size.toNat) (hPerm : g.perm.contains Perm.WRITE = true) :
    ∃ m', m.write (g.base + BitVec.ofNat 64 p) bs = .ok m' ∧ Window m' g (splice f p bs) := by
  have hTop := h.top
  by_cases hNone : bs = []
  · subst hNone
    refine ⟨m, rfl, h.wellFormed, h.here, h.top, fun i hi => ?_⟩
    rw [h.bytes i hi]
    unfold splice
    rw [if_neg]
    rintro ⟨hLow, hHigh⟩
    exact absurd hHigh (Nat.not_lt.mpr hLow)
  · have hLength := List.length_pos_iff.mpr hNone
    have hHere := offset_toNat (i := p) hTop (by omega)
    have hFit : (g.base + BitVec.ofNat 64 p).toNat - g.base.toNat + bs.length ≤ g.size.toNat := by omega
    obtain ⟨m', hWrite⟩ := write_fits h.wellFormed h.here (contains_offset hTop (i := p) (by omega)) hFit hPerm
    refine ⟨m', hWrite, LawfulMemory.sound_write (M := VirtualMemory) h.wellFormed hWrite, write_regions hWrite ▸ h.here, hTop, fun i hi => ?_⟩
    have hThere := offset_toNat hTop hi
    unfold splice
    split
    · rename_i hIn
      have hk : i - p < bs.length := by omega
      have hSum : g.base + BitVec.ofNat 64 p + BitVec.ofNat 64 (i - p) = g.base + BitVec.ofNat 64 i := by
        rw [BitVec.add_assoc, ← BitVec.ofNat_add]
        congr 2
        omega
      rw [← hSum, peek_written h.wellFormed hWrite (List.getElem?_eq_getElem hk) (by omega), List.getD_eq_getElem?_getD,
        List.getElem?_eq_getElem hk]
      rfl
    · rename_i hOut
      rw [peek_apart h.wellFormed hWrite (by omega)]
      exact h.bytes i hi

def Writable (m : VirtualMemory) (p : U64) : Prop := ∃ m', m.write p (toLe 8 0) = .ok m'

theorem writable_iff (hWf : WellFormed m) {p : U64} : Writable m p ↔ ∃ g ∈ m.regions.map (fun r => r.region), g.contains p = true ∧
    p.toNat - g.base.toNat + 8 ≤ g.size.toNat ∧ g.perm.contains Perm.WRITE = true := by
  constructor
  · rintro ⟨m', hWrite⟩
    rcases write_ok hWrite with ⟨hNone, -⟩ | ⟨-, i, r, hGet, hContains, hFits, hPerm, -⟩
    · exact absurd (congrArg List.length hNone) (by rw [length_toLe]; decide)
    · rw [length_toLe] at hFits
      exact ⟨r.region, List.mem_map.mpr ⟨r, List.mem_of_getElem? hGet, rfl⟩, hContains, hFits, hPerm⟩
  · rintro ⟨g, hg, hContains, hFits, hPerm⟩
    exact write_fits hWf hg hContains (by rw [length_toLe]; exact hFits) hPerm

def Beside (m : VirtualMemory) (g : Region) (p : U64) : Prop :=
  ∃ old ∈ m.regions.map (fun r => r.region), old.contains p = true ∧ p.toNat - old.base.toNat + 8 ≤ old.size.toNat ∧
    old.perm.contains Perm.WRITE = true ∧ (p.toNat + 8 ≤ g.base.toNat ∨ g.base.toNat + g.size.toNat ≤ p.toNat)

theorem Beside.congr {p : U64} (h : Beside m g p) (hRegions : (m'.regions.map fun r => r.region) = m.regions.map fun r => r.region) :
    Beside m' g p := by
  unfold Beside
  rw [hRegions]
  exact h

theorem Writable.beside (hWf : WellFormed m) (hInsert : m.insert g bytes = .ok m') (hSize : g.size ≠ 0)
    (hTop : g.base.toNat + g.size.toNat < 2 ^ 64) {p : U64} (hWritable : Writable m p) : Beside m' g p := by
  obtain ⟨old, hOld, hContains, hFits, hPerm⟩ := (writable_iff hWf).mp hWritable
  obtain ⟨r, hr, rfl⟩ := List.mem_map.mp hOld
  refine ⟨r.region, List.mem_map.mpr ⟨r, (mem_regions_insert hInsert hSize).mpr (.inr hr), rfl⟩, hContains, hFits, hPerm, ?_⟩
  have hPos : g.size.toNat ≠ 0 := fun hZero => hSize (BitVec.eq_of_toNat_eq hZero)
  rcases insert_ok hInsert with ⟨hZero, -⟩ | ⟨-, hFree, -⟩
  · exact absurd hZero hSize
  · have hApart := hFree r hr
    obtain ⟨hLow, hHigh⟩ := (Region.contains_iff _ _).mp hContains
    unfold Region.endAddr at hApart hHigh
    omega

theorem Window.writeBeside (h : Window m g f) (hBeside : Beside m g a) (hLength : bs.length = 8) :
    ∃ m', m.write a bs = .ok m' ∧ Window m' g f := by
  obtain ⟨old, hOld, hContains, hFits, hPerm, hApart⟩ := hBeside
  have hTop := h.top
  obtain ⟨m', hWrite⟩ := write_fits h.wellFormed hOld hContains (by rw [hLength]; exact hFits) hPerm
  refine ⟨m', hWrite, LawfulMemory.sound_write (M := VirtualMemory) h.wellFormed hWrite, write_regions hWrite ▸ h.here, hTop, fun i hi => ?_⟩
  rw [peek_apart h.wellFormed hWrite]
  · exact h.bytes i hi
  · have hThere := offset_toNat hTop hi
    omega

/-! ## Staying within bounds -/

/-- Nothing outside of `[lo, hi)` has changed. -/
structure Confined (m m' : VirtualMemory) (lo hi : Nat) : Prop where
  wellFormed : WellFormed m → WellFormed m'
  bytes : WellFormed m → ∀ b : U64, b.toNat < lo ∨ hi ≤ b.toNat → m'.peek b = m.peek b

namespace Confined

variable {m'' : VirtualMemory} {lo hi : Nat}

theorem refl (m : VirtualMemory) (lo hi : Nat) : Confined m m lo hi := ⟨fun h => h, fun _ _ _ => rfl⟩

theorem trans (hFirst : Confined m m' lo hi) (hSecond : Confined m' m'' lo hi) : Confined m m'' lo hi where
  wellFormed hWf := hSecond.wellFormed (hFirst.wellFormed hWf)
  bytes hWf b hOut := (hSecond.bytes (hFirst.wellFormed hWf) b hOut).trans (hFirst.bytes hWf b hOut)

theorem write (h : m.write a bs = .ok m') (hLow : lo ≤ a.toNat) (hHigh : a.toNat + bs.length ≤ hi) : Confined m m' lo hi where
  wellFormed hWf := LawfulMemory.sound_write (M := VirtualMemory) hWf h
  bytes hWf b hOut := peek_apart hWf h (by omega)

end Confined

end VirtualMemory

end Exemu
