import Exemu.Memory.Lawful

/-! # Stores one after another

A structure is written field by field: each store begins where the one before it ended.
-/
namespace Exemu

open List

structure Store where
  addr : U64
  bytes : List U8
  deriving DecidableEq

namespace Store

def u16 (addr : U64) (v : U16) : Store := ⟨addr, toLe 2 (v.setWidth 64)⟩
def u32 (addr : U64) (v : U32) : Store := ⟨addr, toLe 4 (v.setWidth 64)⟩
def u64 (addr v : U64) : Store := ⟨addr, toLe 8 v⟩

/-- No byte of the store is at or beyond `buf + room`. -/
def Within (st : Store) (buf : U64) (room : Nat) : Prop :=
  ∀ k < st.bytes.length, (st.addr + BitVec.ofNat 64 k - buf).toNat < room

end Store

/-- The chunks one after another, from `a` on. -/
def packed (a : U64) : List (List U8) → List Store
  | [] => []
  | c :: cs => ⟨a, c⟩ :: packed (a + BitVec.ofNat 64 c.length) cs

theorem packed_nil (a : U64) : packed a [] = [] := rfl

theorem packed_cons (a : U64) (c : List U8) (cs : List (List U8)) : packed a (c :: cs) = ⟨a, c⟩ :: packed (a + BitVec.ofNat 64 c.length) cs := rfl

/-- The stores put these bytes at `a`. -/
def Packed (a : U64) (stores : List Store) (bytes : List U8) : Prop := ∃ cs, stores = packed a cs ∧ cs.flatten = bytes

section Rows

variable {a : U64} {cs ds : List (List U8)} {room : Nat}

theorem add_ofNat (a : U64) (m n : Nat) : a + BitVec.ofNat 64 m + BitVec.ofNat 64 n = a + BitVec.ofNat 64 (m + n) := by
  rw [BitVec.add_assoc, ← BitVec.ofNat_add]

theorem packed_append : packed a (cs ++ ds) = packed a cs ++ packed (a + BitVec.ofNat 64 cs.flatten.length) ds := by
  induction cs generalizing a with
  | nil => simp [packed]
  | cons c cs ih =>
    rw [cons_append, packed, packed, ih, cons_append, add_ofNat, flatten_cons, length_append]

theorem packed_covers {j : Nat} (hj : j < cs.flatten.length) :
    ∃ st ∈ packed a cs, ∃ k < st.bytes.length, st.addr + BitVec.ofNat 64 k = a + BitVec.ofNat 64 j := by
  induction cs generalizing a j with
  | nil => exact absurd hj (Nat.not_lt_zero j)
  | cons c cs ih =>
    rw [flatten_cons, length_append] at hj
    rcases Nat.lt_or_ge j c.length with hHere | hLater
    · exact ⟨⟨a, c⟩, mem_cons_self, j, hHere, rfl⟩
    · obtain ⟨st, hst, k, hk, hAddr⟩ := @ih (a + BitVec.ofNat 64 c.length) (j - c.length) (by omega)
      refine ⟨st, mem_cons_of_mem _ hst, k, hk, ?_⟩
      rw [hAddr, add_ofNat]
      congr 2
      omega

theorem packed_inside {st : Store} (hst : st ∈ packed a cs) {k : Nat} (hk : k < st.bytes.length) :
    ∃ j < cs.flatten.length, st.addr + BitVec.ofNat 64 k = a + BitVec.ofNat 64 j := by
  induction cs generalizing a with
  | nil => cases hst
  | cons c cs ih =>
    rw [flatten_cons, length_append]
    rcases List.mem_cons.mp hst with rfl | hst
    · exact ⟨k, Nat.lt_add_right _ hk, rfl⟩
    · obtain ⟨j, hj, hAddr⟩ := ih hst
      refine ⟨c.length + j, Nat.add_lt_add_left hj _, ?_⟩
      rw [hAddr, add_ofNat]

theorem toNat_offset (a : U64) {j : Nat} (hj : j < 2 ^ 64) : (a + BitVec.ofNat 64 j - a).toNat = j := by
  rw [BitVec.add_comm, BitVec.add_sub_cancel, BitVec.toNat_ofNat, Nat.mod_eq_of_lt hj]

theorem packed_within (hRoom : cs.flatten.length ≤ room) (hFits : room ≤ 2 ^ 64) {st : Store} (hst : st ∈ packed a cs) :
    st.Within a room := by
  intro k hk
  obtain ⟨j, hj, hAddr⟩ := packed_inside hst hk
  rw [hAddr, toNat_offset a (by omega)]
  omega

theorem length_le_of_within (hFits : room < 2 ^ 64) (hWithin : ∀ st ∈ packed a cs, st.Within a room) :
    cs.flatten.length ≤ room := by
  refine Nat.le_of_not_lt fun hOver => ?_
  obtain ⟨st, hst, k, hk, hAddr⟩ := @packed_covers a cs room hOver
  have hInside := hWithin st hst k hk
  rw [hAddr, toNat_offset a hFits] at hInside
  exact lt_irrefl _ hInside

end Rows

/-! ## As much of a structure as fits -/

/-- The stores put the beginning of these bytes at `a`, no more than `len`, and all of them if there is room. -/
def Fills (a : U64) (len : Nat) (stores : List Store) (bytes : List U8) : Prop :=
  ∃ cs, stores = packed a cs ∧ cs.flatten <+: bytes ∧ cs.flatten.length ≤ len ∧ (bytes.length ≤ len → cs.flatten = bytes)

namespace Fills

variable {a : U64} {len : Nat} {stores stores' : List Store} {bytes bytes' : List U8}

theorem whole {cs : List (List U8)} (hLen : cs.flatten.length ≤ len) : Fills a len (packed a cs) cs.flatten :=
  ⟨cs, rfl, prefix_refl _, hLen, fun _ => rfl⟩

theorem append (h : Fills a len stores bytes) (hAll : bytes.length ≤ len)
    (h' : Fills (a + BitVec.ofNat 64 bytes.length) (len - bytes.length) stores' bytes') :
    Fills a len (stores ++ stores') (bytes ++ bytes') := by
  obtain ⟨cs, rfl, -, -, hWhole⟩ := h
  obtain ⟨ds, rfl, hPre, hLen, hWhole'⟩ := h'
  obtain rfl := hWhole hAll
  rw [← packed_append]
  refine ⟨cs ++ ds, rfl, ?_, ?_, fun hRoom => ?_⟩
  · rw [flatten_append]
    exact (prefix_append_right_inj _).mpr hPre
  · rw [flatten_append, length_append]
    omega
  · rw [length_append] at hRoom
    rw [flatten_append, hWhole' (by omega)]

theorem full (h : Fills a len stores bytes) (hFull : len ≤ bytes.length) : Fills a len stores (bytes ++ bytes') := by
  obtain ⟨cs, rfl, hPre, hLen, hWhole⟩ := h
  refine ⟨cs, rfl, hPre.trans (prefix_append _ _), hLen, fun hRoom => ?_⟩
  rw [length_append] at hRoom
  obtain rfl : bytes' = [] := eq_nil_of_length_eq_zero (by omega)
  rw [hWhole (by omega), append_nil]

theorem within (h : Fills a len stores bytes) (hFits : len ≤ 2 ^ 64) {st : Store} (hst : st ∈ stores) : st.Within a len := by
  obtain ⟨cs, rfl, -, hLen, -⟩ := h
  exact packed_within hLen hFits hst

theorem packed (h : Fills a len stores bytes) (hRoom : bytes.length ≤ len) : Packed a stores bytes := by
  obtain ⟨cs, rfl, -, -, hWhole⟩ := h
  exact ⟨cs, rfl, hWhole hRoom⟩

end Fills

/-! ## In memory -/

namespace VirtualMemory

variable {m m' : VirtualMemory}

def writes (m : VirtualMemory) : List Store → Result VirtualMemory
  | [] => .ok m
  | st :: sts => do
    let m ← m.write st.addr st.bytes
    m.writes sts

/-- One writable region holds all of `[a, a + n)`. -/
def Takes (m : VirtualMemory) (a : U64) (n : Nat) : Prop :=
  ∃ r ∈ m.regions, r.region.base.toNat ≤ a.toNat ∧ a.toNat + n ≤ r.region.base.toNat + r.region.size.toNat ∧
    a.toNat + n < 2 ^ 64 ∧ r.region.perm.contains Perm.WRITE = true

variable {a b : U64}

theorem write_regions {bs : List U8} (h : m.write a bs = .ok m') : (m'.regions.map fun r => r.region) = m.regions.map fun r => r.region := by
  rcases write_ok h with ⟨-, rfl⟩ | ⟨-, i, r, hGet, -, -, -, rfl⟩
  · rfl
  · rw [store_regions, map_set]
    obtain ⟨hi, rfl⟩ := List.getElem?_eq_some_iff.mp hGet
    refine ext_getElem? fun j => ?_
    rw [getElem?_set, length_map]
    split
    · rename_i hij
      subst hij
      simp [hi]
    · rfl

theorem writes_cons {st : Store} {sts : List Store} (h : m.writes (st :: sts) = .ok m') :
    ∃ m₁, m.write st.addr st.bytes = .ok m₁ ∧ m₁.writes sts = .ok m' := by
  rw [writes] at h
  cases hWrite : m.write st.addr st.bytes with
  | error e =>
    rw [hWrite] at h
    cases h
  | ok m₁ =>
    rw [hWrite] at h
    exact ⟨m₁, rfl, h⟩

theorem peek_of_not_stored (hWf : WellFormed m) {st : Store} (hWrite : m.write st.addr st.bytes = .ok m')
    (hOut : ∀ k < st.bytes.length, st.addr + BitVec.ofNat 64 k ≠ b) : m'.peek b = m.peek b := by
  refine peek_apart hWf hWrite ?_
  rcases Nat.lt_or_ge b.toNat st.addr.toNat with hBefore | hAfter
  · exact .inl hBefore
  · refine .inr (Nat.le_of_not_lt fun hIn => hOut (b.toNat - st.addr.toNat) (by omega) ?_)
    apply BitVec.eq_of_toNat_eq
    rw [BitVec.toNat_add, BitVec.toNat_ofNat]
    omega

theorem peek_outside (hWf : WellFormed m) {sts : List Store} (h : m.writes sts = .ok m')
    (hOut : ∀ st ∈ sts, ∀ k < st.bytes.length, st.addr + BitVec.ofNat 64 k ≠ b) : m'.peek b = m.peek b := by
  induction sts generalizing m with
  | nil =>
    cases h
    rfl
  | cons st sts ih =>
    obtain ⟨m₁, hWrite, hRest⟩ := writes_cons h
    have hLater := ih (LawfulMemory.sound_write (M := VirtualMemory) hWf hWrite) hRest
      fun st' hst' => hOut st' (mem_cons_of_mem _ hst')
    rw [hLater, peek_of_not_stored hWf hWrite (hOut st mem_cons_self)]

theorem peek_packed (hWf : WellFormed m) {cs : List (List U8)} (h : m.writes (packed a cs) = .ok m') (hTop : a.toNat + cs.flatten.length < 2 ^ 64)
    {j : Nat} {byte : U8} (hByte : cs.flatten[j]? = some byte) : m'.peek (a + BitVec.ofNat 64 j) = some byte := by
  induction cs generalizing m a j with
  | nil => cases hByte
  | cons c cs ih =>
    obtain ⟨m₁, hWrite, hRest⟩ := writes_cons h
    have hWf₁ := LawfulMemory.sound_write (M := VirtualMemory) hWf hWrite
    rw [flatten_cons, length_append] at hTop
    rw [flatten_cons] at hByte
    rcases Nat.lt_or_ge j c.length with hHere | hLater
    · have hOut : ∀ st ∈ packed (a + BitVec.ofNat 64 c.length) cs, ∀ k < st.bytes.length,
          st.addr + BitVec.ofNat 64 k ≠ a + BitVec.ofNat 64 j := by
        intro st hst k hk hSame
        obtain ⟨i, hi, hAddr⟩ := packed_inside hst hk
        rw [hAddr, add_ofNat, BitVec.add_right_inj] at hSame
        have hEq := congrArg BitVec.toNat hSame
        rw [BitVec.toNat_ofNat, BitVec.toNat_ofNat, Nat.mod_eq_of_lt (by omega), Nat.mod_eq_of_lt (by omega)] at hEq
        omega
      rw [peek_outside hWf₁ hRest hOut]
      rw [getElem?_append_left hHere] at hByte
      exact peek_written hWf hWrite hByte (by dsimp only; omega)
    · rw [getElem?_append_right hLater] at hByte
      have hShift : a + BitVec.ofNat 64 j = a + BitVec.ofNat 64 c.length + BitVec.ofNat 64 (j - c.length) := by
        rw [add_ofNat]
        congr 2
        omega
      have hNext : (a + BitVec.ofNat 64 c.length).toNat = a.toNat + c.length := by
        rw [BitVec.toNat_add, BitVec.toNat_ofNat]
        omega
      rw [hShift]
      exact ih hWf₁ hRest (by omega) hByte

theorem Takes.regions {n : Nat} (h : m.Takes a n) (hRegions : (m'.regions.map fun r => r.region) = m.regions.map fun r => r.region) :
    m'.Takes a n := by
  obtain ⟨r, hr, hBase, hEnd, hTop, hPerm⟩ := h
  obtain ⟨r', hr', hSame⟩ : ∃ r' ∈ m'.regions, r'.region = r.region := by
    rw [← mem_map, hRegions]
    exact mem_map_of_mem hr
  rw [← hSame] at hBase hEnd hPerm
  exact ⟨r', hr', hBase, hEnd, hTop, hPerm⟩

theorem write_of_takes (hWf : WellFormed m) {n : Nat} (hTakes : m.Takes a n) {bs : List U8} (hLow : a.toNat ≤ b.toNat)
    (hHigh : b.toNat + bs.length ≤ a.toNat + n) : ∃ m', m.write b bs = .ok m' := by
  unfold VirtualMemory.write
  cases bs with
  | nil => exact ⟨m, rfl⟩
  | cons x xs =>
    obtain ⟨r, hr, hBase, hEnd, hTop, hPerm⟩ := hTakes
    obtain ⟨i, hGet⟩ := mem_iff_getElem?.mp hr
    rw [length_cons] at hHigh
    have hContains : r.region.contains b = true := by
      rw [Region.contains_iff]
      unfold Region.endAddr
      omega
    rw [locate_eq_ok hWf.separated hGet hContains (by rw [length_cons]; omega) hPerm]
    exact ⟨_, rfl⟩

theorem writes_of_takes (hWf : WellFormed m) {n : Nat} {cs : List (List U8)} (hTakes : m.Takes a n) (hLow : a.toNat ≤ b.toNat)
    (hHigh : b.toNat + cs.flatten.length ≤ a.toNat + n) : ∃ m', m.writes (packed b cs) = .ok m' := by
  induction cs generalizing m b with
  | nil => exact ⟨m, rfl⟩
  | cons c cs ih =>
    rw [flatten_cons, length_append] at hHigh
    have hFits : b.toNat + c.length ≤ a.toNat + n := by omega
    obtain ⟨m₁, hWrite⟩ := write_of_takes hWf hTakes hLow hFits
    have hTop : a.toNat + n < 2 ^ 64 := hTakes.choose_spec.2.2.2.1
    have hNext : (b + BitVec.ofNat 64 c.length).toNat = b.toNat + c.length := by
      rw [BitVec.toNat_add, BitVec.toNat_ofNat]
      omega
    obtain ⟨m', hRest⟩ := ih (b := b + BitVec.ofNat 64 c.length) (LawfulMemory.sound_write (M := VirtualMemory) hWf hWrite)
      (hTakes.regions (write_regions hWrite)) (by omega) (by omega)
    refine ⟨m', ?_⟩
    rw [packed, writes, hWrite]
    exact hRest

end VirtualMemory
end Exemu
