import Exemu.Memory.Packed

/-! # Bytes at a place

What has been written stays where it is until something else is written there.
-/
namespace Exemu

namespace VirtualMemory

variable {m m' : VirtualMemory} {a b : U64} {bs cs : List U8} {n : Nat}

theorem toNat_at (h : a.toNat + n < 2 ^ 64) : (a + BitVec.ofNat 64 n).toNat = a.toNat + n := by
  rw [BitVec.toNat_add, BitVec.toNat_ofNat]
  omega

theorem apart_at (a : U64) {k j l : Nat} (h : k + n ≤ j ∨ j + l ≤ k) (hk : k + n ≤ 2 ^ 63) (hj : j + l ≤ 2 ^ 63) :
    Apart (a + BitVec.ofNat 64 k) n (a + BitVec.ofNat 64 j) l := by
  unfold Apart
  rw [BitVec.toNat_add, BitVec.toNat_add, BitVec.toNat_ofNat, BitVec.toNat_ofNat]
  omega

def Lies (m : VirtualMemory) (a : U64) (bs : List U8) : Prop :=
  ∀ k byte, bs[k]? = some byte → a.toNat + k < 2 ^ 64 - 1 → m.peek (a + BitVec.ofNat 64 k) = some byte

theorem lies_written (hWf : WellFormed m) (h : m.write a bs = .ok m') : Lies m' a bs := fun _ _ hByte hLast => peek_written hWf h hByte hLast

theorem Lies.apart (hLies : Lies m b cs) (hWf : WellFormed m) (h : m.write a bs = .ok m') (hApart : Apart a bs.length b cs.length) : Lies m' b cs := by
  intro k byte hByte hLast
  obtain ⟨hk, -⟩ := List.getElem?_eq_some_iff.mp hByte
  have hSum := toNat_at (a := b) (n := k) (by omega)
  unfold Apart at hApart
  rw [peek_apart hWf h (by omega)]
  exact hLies k byte hByte hLast

theorem WellFormed.write (hWf : WellFormed m) (h : m.write a bs = .ok m') : WellFormed m' := LawfulMemory.sound_write (M := VirtualMemory) hWf h

/-! ## Many writes -/

def writeAll : List (U64 × List U8) → VirtualMemory → Result VirtualMemory
  | [], m => .ok m
  | (a, bs) :: ps, m => (m.write a bs).bind (writeAll ps)

variable {p : U64 × List U8} {ps : List (U64 × List U8)}

theorem writeAll_cons (h : writeAll (p :: ps) m = .ok m') : ∃ mid, m.write p.1 p.2 = .ok mid ∧ writeAll ps mid = .ok m' := by
  obtain ⟨a, bs⟩ := p
  unfold writeAll at h
  cases hWrite : m.write a bs with
  | ok mid =>
    rw [hWrite] at h
    exact ⟨mid, rfl, h⟩
  | error e =>
    rw [hWrite] at h
    cases h

theorem writeAll_of_write {mid : VirtualMemory} (hWrite : m.write p.1 p.2 = .ok mid) : writeAll (p :: ps) m = writeAll ps mid := by
  obtain ⟨a, bs⟩ := p
  change (m.write a bs).bind (writeAll ps) = _
  rw [hWrite]
  rfl

theorem writeAll_append {qs : List (U64 × List U8)} {mid : VirtualMemory} (h : writeAll ps m = .ok mid) (h' : writeAll qs mid = .ok m') :
    writeAll (ps ++ qs) m = .ok m' := by
  induction ps generalizing m with
  | nil =>
    cases h
    exact h'
  | cons p ps ih =>
    obtain ⟨next, hWrite, hRest⟩ := writeAll_cons h
    rw [List.cons_append, writeAll_of_write hWrite]
    exact ih hRest

theorem writeAll_outside (hWf : WellFormed m) (h : writeAll ps m = .ok m') (hOut : ∀ p ∈ ps, b.toNat < p.1.toNat ∨ p.1.toNat + p.2.length ≤ b.toNat) :
    m'.peek b = m.peek b := by
  induction ps generalizing m with
  | nil =>
    cases h
    rfl
  | cons p ps ih =>
    obtain ⟨mid, hWrite, hRest⟩ := writeAll_cons h
    rw [ih (hWf.write hWrite) hRest fun q hq => hOut q (List.mem_cons_of_mem _ hq)]
    exact peek_apart hWf hWrite (hOut p List.mem_cons_self)

theorem Lies.writeAll (hLies : Lies m b cs) (hWf : WellFormed m) (h : VirtualMemory.writeAll ps m = .ok m')
    (hApart : ∀ p ∈ ps, Apart p.1 p.2.length b cs.length) : Lies m' b cs := by
  induction ps generalizing m with
  | nil =>
    cases h
    exact hLies
  | cons p ps ih =>
    obtain ⟨mid, hWrite, hRest⟩ := writeAll_cons h
    exact ih (hLies.apart hWf hWrite (hApart p List.mem_cons_self)) (hWf.write hWrite) hRest fun q hq => hApart q (List.mem_cons_of_mem _ hq)

theorem writeAll_lies (hWf : WellFormed m) (h : VirtualMemory.writeAll ps m = .ok m') (hApart : ps.Pairwise fun p q => Apart q.1 q.2.length p.1 p.2.length) :
    ∀ p ∈ ps, Lies m' p.1 p.2 := by
  induction ps generalizing m with
  | nil => exact fun p hp => absurd hp List.not_mem_nil
  | cons p ps ih =>
    obtain ⟨mid, hWrite, hRest⟩ := writeAll_cons h
    obtain ⟨hHead, hTail⟩ := List.pairwise_cons.mp hApart
    intro q hq
    rcases List.mem_cons.mp hq with rfl | hq
    · exact (lies_written hWf hWrite).writeAll (hWf.write hWrite) hRest hHead
    · exact ih (hWf.write hWrite) hRest hTail q hq

/-! ## Reading back -/

theorem read_of_regions (hWf : WellFormed m) (hSame : (m'.regions.map fun r => r.region) = m.regions.map fun r => r.region)
    (hRead : m'.read b n = .ok cs) : ∃ cs', m.read b n = .ok cs' := by
  by_cases hNone : n = 0
  · subst hNone
    exact ⟨[], rfl⟩
  · obtain ⟨i, r, hGet, hContains, hFits, hPerm, -⟩ := read_ok hRead hNone
    have hHere := congrArg (fun rs => rs[i]?) hSame
    simp only [List.getElem?_map, hGet, Option.map_some] at hHere
    obtain ⟨r', hGet', hRegion⟩ := Option.map_eq_some_iff.mp hHere.symm
    rw [← hRegion] at hContains hFits hPerm
    exact ⟨_, read_eq_ok hWf hNone hGet' hContains hFits hPerm⟩

theorem read_back (hWf : WellFormed m) (h : m.write a bs = .ok m') (hApart : Apart a bs.length b n) (hRead : m'.read b n = .ok cs) :
    m.read b n = .ok cs := by
  obtain ⟨cs', hBefore⟩ := read_of_regions hWf (write_regions h) hRead
  have hAfter := read_apart hWf h hApart hBefore
  rw [hRead] at hAfter
  cases hAfter
  exact hBefore

theorem writeAll_read_back (hWf : WellFormed m) (h : VirtualMemory.writeAll ps m = .ok m') (hApart : ∀ p ∈ ps, Apart p.1 p.2.length b n)
    (hRead : m'.read b n = .ok cs) : m.read b n = .ok cs := by
  induction ps generalizing m with
  | nil =>
    cases h
    exact hRead
  | cons p ps ih =>
    obtain ⟨mid, hWrite, hRest⟩ := writeAll_cons h
    exact read_back hWf hWrite (hApart p List.mem_cons_self) (ih (hWf.write hWrite) hRest fun q hq => hApart q (List.mem_cons_of_mem _ hq))

theorem writeAll_read (hWf : WellFormed m) (h : VirtualMemory.writeAll ps m = .ok m') (hApart : ps.Pairwise fun p q => Apart q.1 q.2.length p.1 p.2.length) :
    ∀ p ∈ ps, m'.read p.1 p.2.length = .ok cs → cs = p.2 := by
  induction ps generalizing m with
  | nil => exact fun p hp => absurd hp List.not_mem_nil
  | cons p ps ih =>
    obtain ⟨mid, hWrite, hRest⟩ := writeAll_cons h
    obtain ⟨hHead, hTail⟩ := List.pairwise_cons.mp hApart
    intro q hq hRead
    rcases List.mem_cons.mp hq with rfl | hq
    · exact read_written hWf hWrite (writeAll_read_back (hWf.write hWrite) hRest hHead hRead)
    · exact ih (hWf.write hWrite) hRest hTail q hq hRead

/-! ## Shorter reads -/

section Shorter

variable {k : Nat}

theorem locate_shorter {needed : Perm} {what : String} {p : Nat × Mapped × Nat} (h : m.locate a n needed what = .ok p) (hLess : k ≤ n) :
    m.locate a k needed what = .ok p := by
  unfold locate at h ⊢
  cases hFind : (m.findIdx a).bind fun i => m.regions[i]?.map fun r => (i, r) with
  | none =>
    rw [hFind] at h
    cases h
  | some q =>
    obtain ⟨i, r⟩ := q
    rw [hFind] at h
    dsimp only at h ⊢
    split at h
    · rename_i hFits
      rw [if_pos (by omega)]
      split at h
      · rename_i hPerm
        rw [if_pos hPerm]
        exact h
      · cases h
    · cases h

theorem slice_take (bytes : Nat → U8) (start : Nat) (hLess : k ≤ n) : (slice bytes start n).take k = slice bytes start k := by
  unfold slice
  rw [← List.map_take, List.take_range, Nat.min_eq_left hLess]

theorem read_shorter (h : m.read a n = .ok bs) (hLess : k ≤ n) : m.read a k = .ok (bs.take k) := by
  rcases Nat.eq_zero_or_pos k with rfl | hPos
  · rfl
  · unfold read at h ⊢
    rw [if_neg (by omega)] at h ⊢
    cases hLocate : m.locate a n Perm.READ "read" with
    | error e =>
      rw [hLocate] at h
      cases h
    | ok p =>
      rw [hLocate] at h
      cases h
      rw [locate_shorter hLocate hLess]
      exact congrArg _ (slice_take _ _ hLess).symm

theorem readUint_of_read (h : m.read a n = .ok bs) (hSize : isUintSize n = true) : m.readUint a n = .ok (fromLe bs) := by
  have hPos : n ≠ 0 := by
    rintro rfl
    cases hSize
  unfold read at h
  unfold readUint
  rw [if_neg hPos] at h
  rw [if_pos hSize]
  cases hLocate : m.locate a n Perm.READ "read" with
  | error e =>
    rw [hLocate] at h
    cases h
  | ok p =>
    rw [hLocate] at h
    cases h
    rfl

theorem readUint_of_error {e : EmuError} (h : m.read a n = .error e) (hSize : isUintSize n = true) : m.readUint a n = .error e := by
  have hPos : n ≠ 0 := by
    rintro rfl
    cases hSize
  unfold read at h
  unfold readUint
  rw [if_neg hPos] at h
  rw [if_pos hSize]
  cases hLocate : m.locate a n Perm.READ "read" with
  | error e' =>
    rw [hLocate] at h
    cases h
    rfl
  | ok p =>
    rw [hLocate] at h
    cases h

end Shorter

end VirtualMemory

end Exemu
