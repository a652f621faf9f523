import Exemu.Loader.RelocDirectory
import Exemu.Os.ApiSet

/-! # The namespace reads back

Every word of the map has a place of its own, and behind the words lie the texts: so what the
builder has put there is what the guest's loader reads.
-/
namespace Exemu.Os

open List

open Path (Text)

namespace ApiSet

/-! ## Texts -/

theorem unitBytes_cons (u : U16) (us : List U16) : unitBytes (u :: us) = toLe 2 (u.setWidth 64) ++ unitBytes us := flatMap_cons

theorem unitsOf_unitBytes (us : List U16) : unitsOf (unitBytes us) = us := by
  induction us with
  | nil => rfl
  | cons u us ih =>
    have hPair : toLe 2 (u.setWidth 64) = [u.setWidth 8, (u >>> 8).setWidth 8] := by
      have hUnfold : toLe 2 (u.setWidth 64) = [(u.setWidth 64 >>> 0).setWidth 8, (u.setWidth 64 >>> 8).setWidth 8] := rfl
      rw [hUnfold]
      congr 1
    have hUnit : (fromLe [u.setWidth 8, (u >>> 8).setWidth 8]).setWidth 16 = u := by
      apply BitVec.eq_of_getLsbD_eq
      intro i hi
      have hUnfold : fromLe [u.setWidth 8, (u >>> 8).setWidth 8] =
          ((((0 : U64) <<< 8) ||| ((u >>> 8).setWidth 8).setWidth 64) <<< 8) ||| (u.setWidth 8).setWidth 64 := rfl
      rw [hUnfold]
      simp only [BitVec.getLsbD_setWidth, BitVec.getLsbD_or, BitVec.getLsbD_shiftLeft, BitVec.getLsbD_ushiftRight]
      by_cases hLow : i < 8
      · simp [hLow, hi, show i < 64 by omega]
      · simp [hLow, hi, show i < 64 by omega, show i - 8 < 8 by omega, show i - 8 < 64 by omega, show 8 + (i - 8) = i by omega]
    rw [unitBytes_cons, hPair]
    show (fromLe [u.setWidth 8, (u >>> 8).setWidth 8]).setWidth 16 :: unitsOf (unitBytes us) = _
    rw [hUnit, ih]

theorem length_unitBytes (us : List U16) : (unitBytes us).length = us.length * 2 := by
  induction us with
  | nil => rfl
  | cons u us ih =>
    rw [unitBytes_cons, length_append, length_toLe, ih, length_cons]
    omega

theorem decode_low {u : U16} {us : List U16} (h : u.toNat < 0xD800 ∨ 0xE000 ≤ u.toNat) :
    decodeUtf16 (u :: us) = (Char.ofNat u.toNat :: ·) <$> decodeUtf16 us := by
  rw [decodeUtf16.eq_def]
  exact if_pos (by simpa using h)

theorem decode_pair {u v : U16} {vs : List U16} (hLow : 0xD800 ≤ u.toNat) (hHigh : u.toNat < 0xDC00) (hLow' : 0xDC00 ≤ v.toNat)
    (hHigh' : v.toNat < 0xE000) : decodeUtf16 (u :: v :: vs) =
      (Char.ofNat (0x10000 + (u.toNat - 0xD800) * 0x400 + (v.toNat - 0xDC00)) :: ·) <$> decodeUtf16 vs := by
  have hNotLow : ¬(decide (u.toNat < 0xD800) || decide (0xE000 ≤ u.toNat)) = true := by
    simp only [Bool.or_eq_true, decide_eq_true_eq]
    omega
  have hPair : (decide (u.toNat < 0xDC00) && (decide (0xDC00 ≤ v.toNat) && decide (v.toNat < 0xE000))) = true := by
    simp only [Bool.and_eq_true, decide_eq_true_eq]
    exact ⟨hHigh, hLow', hHigh'⟩
  rw [decodeUtf16.eq_def]
  exact (if_neg hNotLow).trans (if_pos hPair)

theorem decode_encode (s : Text) : decodeUtf16 (encodeUtf16 s) = some s := by
  induction s with
  | nil => rfl
  | cons c s ih =>
    have hValid : c.toNat < 0xD800 ∨ 0xDFFF < c.toNat ∧ c.toNat < 0x110000 := c.valid
    have hCons : encodeUtf16 (c :: s) =
        (if c.toNat < 0x10000 then [BitVec.ofNat 16 c.toNat]
          else [BitVec.ofNat 16 (0xD800 + (c.toNat - 0x10000) / 0x400), BitVec.ofNat 16 (0xDC00 + (c.toNat - 0x10000) % 0x400)]) ++
        encodeUtf16 s := flatMap_cons
    rw [hCons]
    split
    · rename_i hSmall
      have hUnit : (BitVec.ofNat 16 c.toNat).toNat = c.toNat := by
        rw [BitVec.toNat_ofNat]
        omega
      rw [singleton_append, decode_low (by omega), ih, hUnit, Char.ofNat_toNat]
      rfl
    · have hFirst : (BitVec.ofNat 16 (0xD800 + (c.toNat - 0x10000) / 0x400)).toNat = 0xD800 + (c.toNat - 0x10000) / 0x400 := by
        rw [BitVec.toNat_ofNat]
        omega
      have hSecond : (BitVec.ofNat 16 (0xDC00 + (c.toNat - 0x10000) % 0x400)).toNat = 0xDC00 + (c.toNat - 0x10000) % 0x400 := by
        rw [BitVec.toNat_ofNat]
        omega
      rw [cons_append, singleton_append, decode_pair (by omega) (by omega) (by omega) (by omega), ih, hFirst, hSecond]
      have hChar : 0x10000 + (0xD800 + (c.toNat - 0x10000) / 0x400 - 0xD800) * 0x400 + (0xDC00 + (c.toNat - 0x10000) % 0x400 - 0xDC00) =
          c.toNat := by omega
      rw [hChar, Char.ofNat_toNat]
      rfl

/-! ## Where the texts lie -/

def textBytes (es : List BuiltEntry) : Nat := (es.map fun e => (unitBytes e.name).length + (unitBytes e.value).length).sum

theorem window_append (pre part post : List U8) : Put.window (pre ++ part ++ post) pre.length part.length = some part := by
  rw [Put.window, if_pos (by simp), append_assoc, drop_left, take_left]

structure TextsAt (strings : List U8) (base : U32) (e : BuiltEntry) (nameOff valueOff : U32) : Prop where
  name : ∃ a, nameOff = base + asU32 a ∧ Put.window strings a (unitBytes e.name).length = some (unitBytes e.name)
  value : ∃ a, valueOff = base + asU32 a ∧ Put.window strings a (unitBytes e.value).length = some (unitBytes e.value)

theorem layTexts_spec (base : U32) (es : List BuiltEntry) (strings : List U8) :
    (∃ tail, (layTexts base es strings).1 = strings ++ tail ∧ tail.length = textBytes es) ∧
      (layTexts base es strings).2.length = es.length ∧
      ∀ (i : Nat) (e : BuiltEntry), es[i]? = some e → ∃ nameOff valueOff, (layTexts base es strings).2[i]? = some (e, nameOff, valueOff) ∧
        TextsAt (layTexts base es strings).1 base e nameOff valueOff := by
  induction es generalizing strings with
  | nil => exact ⟨⟨[], (append_nil _).symm, rfl⟩, rfl, fun i e he => by cases he⟩
  | cons e es ih =>
    obtain ⟨⟨tail, hOut, hLen⟩, hCount, hEach⟩ := ih (strings ++ unitBytes e.name ++ unitBytes e.value)
    have hStrings : (layTexts base (e :: es) strings).1 = strings ++ unitBytes e.name ++ unitBytes e.value ++ tail := hOut
    refine ⟨⟨unitBytes e.name ++ (unitBytes e.value ++ tail), ?_, ?_⟩, congrArg (· + 1) hCount, fun i e' he => ?_⟩
    · rw [hStrings, append_assoc, append_assoc]
    · rw [length_append, length_append, hLen, textBytes, textBytes, map_cons, sum_cons]
      omega
    · cases i with
      | zero =>
        cases he
        refine ⟨_, _, rfl, ⟨_, rfl, ?_⟩, ⟨_, rfl, ?_⟩⟩
        · rw [hStrings, append_assoc]
          exact window_append _ _ _
        · rw [hStrings]
          exact window_append _ _ _
      | succ i => exact hEach i e' he

/-! ## Words -/

theorem asU32_add (a b : Nat) : asU32 a + asU32 b = asU32 (a + b) := (BitVec.ofNat_add a b).symm

theorem asU32_mul (a b : Nat) : asU32 a * asU32 b = asU32 (a * b) := (BitVec.ofNat_mul a b).symm

theorem asU32_toNat {n : Nat} (h : n < 2 ^ 32) : (asU32 n).toNat = n := by
  rw [asU32, BitVec.toNat_ofNat]
  exact Nat.mod_eq_of_lt h

/-- The `j`-th of the numbers from `off` on. -/
def word (off : Nat) (j : Nat) (v : U32) : Nat × List U8 := ((asU32 (off + 4 * j)).toNat, toLe 4 (v.setWidth 64))

theorem mem_words_iff {off : Nat} {vs : List U32} {p : Nat × List U8} :
    p ∈ words (asU32 off) vs ↔ ∃ j v, vs[j]? = some v ∧ p = word off j v := by
  induction vs generalizing off with
  | nil => simp [words]
  | cons v vs ih =>
    have hNext : asU32 off + 4 = asU32 (off + 4) := asU32_add off 4
    rw [words, mem_cons, hNext, ih]
    constructor
    · rintro (rfl | ⟨j, w, hw, rfl⟩)
      · exact ⟨0, v, rfl, rfl⟩
      · refine ⟨j + 1, w, hw, ?_⟩
        rw [word, word, show off + 4 + 4 * j = off + 4 * (j + 1) by omega]
    · rintro ⟨j, w, hw, rfl⟩
      cases j with
      | zero =>
        cases hw
        exact .inl rfl
      | succ j =>
        refine .inr ⟨j, w, hw, ?_⟩
        rw [word, word, show off + 4 + 4 * j = off + 4 * (j + 1) by omega]

section Layout

def ENTRIES : Nat := 32
def valuesFrom (n : Nat) : Nat := 32 + 24 * n
def hashesFrom (n : Nat) : Nat := 32 + 44 * n
def textsFrom (n : Nat) : Nat := 32 + 52 * n

theorem offsets_eq (n : Nat) : offsets (asU32 n) = ⟨asU32 ENTRIES, asU32 (valuesFrom n), asU32 (hashesFrom n), asU32 (textsFrom n)⟩ := by
  have hEntries : align8 HEADER_SIZE = asU32 32 := by decide
  have hValues : asU32 32 + asU32 n * ENTRY_SIZE = asU32 (valuesFrom n) := by
    rw [show ENTRY_SIZE = asU32 24 from rfl, asU32_mul, asU32_add, valuesFrom, Nat.mul_comm]
  have hHashes : asU32 (valuesFrom n) + asU32 n * VALUE_SIZE = asU32 (hashesFrom n) := by
    rw [show VALUE_SIZE = asU32 20 from rfl, asU32_mul, asU32_add]
    congr 1
    unfold valuesFrom hashesFrom
    omega
  have hTexts : asU32 (hashesFrom n) + asU32 n * HASH_ENTRY_SIZE = asU32 (textsFrom n) := by
    rw [show HASH_ENTRY_SIZE = asU32 8 from rfl, asU32_mul, asU32_add]
    congr 1
    unfold hashesFrom textsFrom
    omega
  unfold offsets
  dsimp only
  rw [hEntries, hValues, hHashes, hTexts]
  rfl

def entryFields (n i : Nat) (x : BuiltEntry × U32 × U32) : List U32 :=
  [0, x.2.1, x.1.nameBytes, x.1.hashedBytes, asU32 (valuesFrom n + 20 * i), 1]

def valueFields (x : BuiltEntry × U32 × U32) : List U32 := [0, 0, 0, x.2.2, x.1.valueBytes]

theorem entryWords_eq (n i : Nat) (x : BuiltEntry × U32 × U32) : entryWords (offsets (asU32 n)) i x.1 x.2.1 x.2.2 =
    words (asU32 (32 + 24 * i)) (entryFields n i x) ++ words (asU32 (valuesFrom n + 20 * i)) (valueFields x) := by
  have hEntry : asU32 ENTRIES + asU32 i * ENTRY_SIZE = asU32 (32 + 24 * i) := by
    rw [show ENTRY_SIZE = asU32 24 from rfl, asU32_mul, asU32_add, ENTRIES, Nat.mul_comm]
  have hValue : asU32 (valuesFrom n) + asU32 i * VALUE_SIZE = asU32 (valuesFrom n + 20 * i) := by
    rw [show VALUE_SIZE = asU32 20 from rfl, asU32_mul, asU32_add, Nat.mul_comm]
  unfold entryWords
  rw [offsets_eq]
  dsimp only
  rw [hEntry, hValue]
  rfl

theorem hashWords_eq (n i : Nat) (h idx : U32) : hashWords (offsets (asU32 n)) i h idx = words (asU32 (hashesFrom n + 8 * i)) [h, idx] := by
  have hHash : asU32 (hashesFrom n) + asU32 i * HASH_ENTRY_SIZE = asU32 (hashesFrom n + 8 * i) := by
    rw [show HASH_ENTRY_SIZE = asU32 8 from rfl, asU32_mul, asU32_add, Nat.mul_comm]
  unfold hashWords
  rw [offsets_eq]
  dsimp only
  rw [hHash]

variable (contracts : List (Text × Text))

def laid : List U8 × List (BuiltEntry × U32 × U32) :=
  layTexts (offsets (asU32 contracts.length)).stringsBase (contracts.map builtEntry) []

def totalSize : U32 := align8 (asU32 (textsFrom contracts.length) + asU32 (laid contracts).1.length)

def headerFields : List U32 :=
  [API_SET_SCHEMA_VERSION, totalSize contracts, 0, asU32 contracts.length, asU32 ENTRIES, asU32 (hashesFrom contracts.length), HASH_FACTOR]

def allWords : List (Nat × List U8) :=
  let o := offsets (asU32 contracts.length)
  headerWords (totalSize contracts) (asU32 contracts.length) o ++
    ((laid contracts).2.zipIdx.flatMap fun x => entryWords o x.2 x.1.1 x.1.2.1 x.1.2.2) ++
    ((hashIndex (contracts.map builtEntry)).zipIdx.flatMap fun x => hashWords o x.2 x.1.1 x.1.2)

inductive Slot : Nat → U32 → Prop where
  | header {j v} (h : (headerFields contracts)[j]? = some v) : Slot (4 * j) v
  | entry {i x j v} (hx : (laid contracts).2[i]? = some x) (h : (entryFields contracts.length i x)[j]? = some v) : Slot (32 + 24 * i + 4 * j) v
  | value {i x j v} (hx : (laid contracts).2[i]? = some x) (h : (valueFields x)[j]? = some v) :
      Slot (valuesFrom contracts.length + 20 * i + 4 * j) v
  | hash {i x j v} (hx : (hashIndex (contracts.map builtEntry))[i]? = some x) (h : [x.1, x.2][j]? = some v) :
      Slot (hashesFrom contracts.length + 8 * i + 4 * j) v

variable {contracts}

theorem mem_allWords_iff {p : Nat × List U8} :
    p ∈ allWords contracts ↔ ∃ o v, Slot contracts o v ∧ p = ((asU32 o).toNat, toLe 4 (v.setWidth 64)) := by
  have hHeader : headerWords (totalSize contracts) (asU32 contracts.length) (offsets (asU32 contracts.length)) =
      words (asU32 0) (headerFields contracts) := by
    unfold headerWords headerFields
    rw [offsets_eq]
    rfl
  unfold allWords
  dsimp only
  rw [hHeader, mem_append, mem_append, mem_flatMap, mem_flatMap, mem_words_iff]
  constructor
  · rintro ((⟨j, v, hv, rfl⟩ | ⟨x, hx, hp⟩) | ⟨x, hx, hp⟩)
    · exact ⟨_, v, .header hv, by rw [word, Nat.zero_add]⟩
    · have hAt := mem_zipIdx_iff_getElem?.mp hx
      rw [entryWords_eq, mem_append, mem_words_iff, mem_words_iff] at hp
      rcases hp with ⟨j, v, hv, rfl⟩ | ⟨j, v, hv, rfl⟩
      · exact ⟨_, v, .entry hAt hv, rfl⟩
      · exact ⟨_, v, .value hAt hv, rfl⟩
    · have hAt := mem_zipIdx_iff_getElem?.mp hx
      rw [hashWords_eq, mem_words_iff] at hp
      obtain ⟨j, v, hv, rfl⟩ := hp
      exact ⟨_, v, .hash hAt hv, rfl⟩
  · rintro ⟨o, v, hSlot, rfl⟩
    cases hSlot with
    | @header j _ hv => exact .inl (.inl ⟨j, v, hv, by rw [word, Nat.zero_add]⟩)
    | @entry i x j _ hx hv =>
      refine .inl (.inr ⟨(x, i), mem_zipIdx_iff_getElem?.mpr hx, ?_⟩)
      rw [entryWords_eq, mem_append, mem_words_iff]
      exact .inl ⟨j, v, hv, rfl⟩
    | @value i x j _ hx hv =>
      refine .inl (.inr ⟨(x, i), mem_zipIdx_iff_getElem?.mpr hx, ?_⟩)
      rw [entryWords_eq, mem_append, mem_words_iff, mem_words_iff]
      exact .inr ⟨j, v, hv, rfl⟩
    | @hash i x j _ hx hv =>
      refine .inr ⟨(x, i), mem_zipIdx_iff_getElem?.mpr hx, ?_⟩
      rw [hashWords_eq, mem_words_iff]
      exact ⟨j, v, hv, rfl⟩

theorem length_laid : (laid contracts).2.length = contracts.length := by
  have hCount := (layTexts_spec (offsets (asU32 contracts.length)).stringsBase (contracts.map builtEntry) []).2.1
  rwa [length_map] at hCount

theorem length_hashIndex : (hashIndex (contracts.map builtEntry)).length = contracts.length := by
  rw [hashIndex, length_insertionSort, length_map, length_zipIdx, length_map]

theorem lt_of_getElem? {α : Type} {xs : List α} {i : Nat} {x : α} (h : xs[i]? = some x) : i < xs.length :=
  (List.getElem?_eq_some_iff.mp h).1

theorem Slot.place {o : Nat} {v : U32} (h : Slot contracts o v) :
    (∃ j, o = 4 * j ∧ j < 7) ∨ (∃ i j, o = 32 + 24 * i + 4 * j ∧ i < contracts.length ∧ j < 6) ∨
      (∃ i j, o = 32 + 24 * contracts.length + 20 * i + 4 * j ∧ i < contracts.length ∧ j < 5) ∨
      ∃ i j, o = 32 + 44 * contracts.length + 8 * i + 4 * j ∧ i < contracts.length ∧ j < 2 := by
  cases h with
  | header hv => exact .inl ⟨_, rfl, lt_of_getElem? hv⟩
  | entry hx hv =>
    have hRow := lt_of_getElem? hx
    rw [length_laid] at hRow
    exact .inr (.inl ⟨_, _, rfl, hRow, lt_of_getElem? hv⟩)
  | value hx hv =>
    have hRow := lt_of_getElem? hx
    rw [length_laid] at hRow
    exact .inr (.inr (.inl ⟨_, _, rfl, hRow, lt_of_getElem? hv⟩))
  | hash hx hv =>
    have hRow := lt_of_getElem? hx
    rw [length_hashIndex] at hRow
    exact .inr (.inr (.inr ⟨_, _, rfl, hRow, lt_of_getElem? hv⟩))

theorem Slot.bound {o : Nat} {v : U32} (h : Slot contracts o v) : o % 4 = 0 ∧ o + 4 ≤ textsFrom contracts.length := by
  unfold textsFrom
  rcases h.place with ⟨j, rfl, hj⟩ | ⟨i, j, rfl, hi, hj⟩ | ⟨i, j, rfl, hi, hj⟩ | ⟨i, j, rfl, hi, hj⟩ <;> omega

theorem some_of_lt {α : Type} (xs : List α) {i : Nat} (h : i < xs.length) : ∃ x, xs[i]? = some x := ⟨_, getElem?_eq_getElem h⟩

theorem Slot.exists {o : Nat} (hFour : o % 4 = 0) (hLow : 32 ≤ o) (hHigh : o < textsFrom contracts.length) : ∃ v, Slot contracts o v := by
  unfold textsFrom at hHigh
  rcases Nat.lt_or_ge o (32 + 24 * contracts.length) with hEntry | hBehind
  · obtain ⟨x, hx⟩ := some_of_lt (laid contracts).2 (i := (o - 32) / 24) (by rw [length_laid]; omega)
    obtain ⟨v, hv⟩ := some_of_lt (entryFields contracts.length ((o - 32) / 24) x) (i := (o - 32) % 24 / 4) (by
      show _ < 6
      omega)
    refine ⟨v, ?_⟩
    have hSlot := Slot.entry hx hv
    rwa [show 32 + 24 * ((o - 32) / 24) + 4 * ((o - 32) % 24 / 4) = o by omega] at hSlot
  · rcases Nat.lt_or_ge o (hashesFrom contracts.length) with hValue | hHash
    · unfold hashesFrom at hValue
      obtain ⟨k, rfl⟩ := Nat.exists_eq_add_of_le hBehind
      obtain ⟨x, hx⟩ := some_of_lt (laid contracts).2 (i := k / 20) (by rw [length_laid]; omega)
      obtain ⟨v, hv⟩ := some_of_lt (valueFields x) (i := k % 20 / 4) (by
        show _ < 5
        omega)
      refine ⟨v, ?_⟩
      have hSlot := Slot.value hx hv
      rwa [valuesFrom, Nat.add_assoc (32 + 24 * contracts.length), show 20 * (k / 20) + 4 * (k % 20 / 4) = k by omega] at hSlot
    · unfold hashesFrom at hHash
      obtain ⟨k, rfl⟩ := Nat.exists_eq_add_of_le hHash
      obtain ⟨x, hx⟩ := some_of_lt (hashIndex (contracts.map builtEntry)) (i := k / 8) (by rw [length_hashIndex]; omega)
      obtain ⟨v, hv⟩ := some_of_lt [x.1, x.2] (i := k % 8 / 4) (by
        show _ < 2
        omega)
      refine ⟨v, ?_⟩
      have hSlot := Slot.hash hx hv
      rwa [hashesFrom, Nat.add_assoc (32 + 44 * contracts.length), show 8 * (k / 8) + 4 * (k % 8 / 4) = k by omega] at hSlot

theorem Slot.unique {o o' : Nat} {v w : U32} (h : Slot contracts o v) (h' : Slot contracts o' w) (hEq : o' = o) : v = w := by
  cases h with
  | @header j _ hv =>
    have hj : j < 7 := lt_of_getElem? hv
    cases h' with
    | @header j' _ hw =>
      obtain rfl : j' = j := by omega
      exact Option.some.inj (hv.symm.trans hw)
    | entry hx hw => omega
    | value hx hw => unfold valuesFrom at hEq; omega
    | hash hx hw => unfold hashesFrom at hEq; omega
  | @entry i x j _ hx hv =>
    have hj : j < 6 := lt_of_getElem? hv
    have hi := lt_of_getElem? hx
    rw [length_laid] at hi
    cases h' with
    | @header j' _ hw =>
      have hj' : j' < 7 := lt_of_getElem? hw
      omega
    | @entry i' x' j' _ hx' hw =>
      have hj' : j' < 6 := lt_of_getElem? hw
      obtain ⟨rfl, rfl⟩ : i' = i ∧ j' = j := by omega
      cases hx.symm.trans hx'
      exact Option.some.inj (hv.symm.trans hw)
    | value hx' hw => unfold valuesFrom at hEq; omega
    | hash hx' hw => unfold hashesFrom at hEq; omega
  | @value i x j _ hx hv =>
    have hj : j < 5 := lt_of_getElem? hv
    have hi := lt_of_getElem? hx
    rw [length_laid] at hi
    unfold valuesFrom at hEq
    cases h' with
    | @header j' _ hw =>
      have hj' : j' < 7 := lt_of_getElem? hw
      omega
    | @entry i' x' j' _ hx' hw =>
      have hj' : j' < 6 := lt_of_getElem? hw
      have hi' := lt_of_getElem? hx'
      rw [length_laid] at hi'
      omega
    | @value i' x' j' _ hx' hw =>
      have hj' : j' < 5 := lt_of_getElem? hw
      unfold valuesFrom at hEq
      obtain ⟨rfl, rfl⟩ : i' = i ∧ j' = j := by omega
      cases hx.symm.trans hx'
      exact Option.some.inj (hv.symm.trans hw)
    | hash hx' hw => unfold hashesFrom at hEq; omega
  | @hash i x j _ hx hv =>
    have hj : j < 2 := lt_of_getElem? hv
    unfold hashesFrom at hEq
    cases h' with
    | @header j' _ hw =>
      have hj' : j' < 7 := lt_of_getElem? hw
      omega
    | @entry i' x' j' _ hx' hw =>
      have hj' : j' < 6 := lt_of_getElem? hw
      have hi' := lt_of_getElem? hx'
      rw [length_laid] at hi'
      omega
    | @value i' x' j' _ hx' hw =>
      have hj' : j' < 5 := lt_of_getElem? hw
      have hi' := lt_of_getElem? hx'
      rw [length_laid] at hi'
      unfold valuesFrom at hEq
      omega
    | @hash i' x' j' _ hx' hw =>
      have hj' : j' < 2 := lt_of_getElem? hw
      unfold hashesFrom at hEq
      obtain ⟨rfl, rfl⟩ : i' = i ∧ j' = j := by omega
      cases hx.symm.trans hx'
      exact Option.some.inj (hv.symm.trans hw)

/-! ## What is built -/

theorem buildNamespace_eq : buildNamespace contracts =
    if collides (hashIndex (contracts.map builtEntry)) then none
    else do
      let bytes ← Put.putAll (allWords contracts) (List.replicate (totalSize contracts).toNat 0)
      let bytes ← Put.put bytes ((asU32 (textsFrom contracts.length)).toNat, (laid contracts).1)
      return ⟨bytes, asU32 contracts.length, asU32 ENTRIES, asU32 (hashesFrom contracts.length)⟩ := by
  have hTotal : align8 ((offsets (asU32 contracts.length)).stringsBase +
      asU32 (layTexts (offsets (asU32 contracts.length)).stringsBase (contracts.map builtEntry) []).1.length) = totalSize contracts := by
    rw [totalSize, laid, offsets_eq]
  unfold buildNamespace allWords
  dsimp only
  rw [length_map, hTotal, Put.putAll_append, Put.putAll_append]
  split
  · cases Put.putAll (headerWords (totalSize contracts) (asU32 contracts.length) (offsets (asU32 contracts.length)))
      (List.replicate (totalSize contracts).toNat 0) with
    | none => rfl
    | some ys => exact Option.bind_fun_none _
  · simp only [Option.bind_eq_bind, Option.bind_assoc, laid, offsets_eq]

variable (contracts) in
def layoutSize : Nat := textsFrom contracts.length + textBytes (contracts.map builtEntry)

theorem length_strings : (laid contracts).1.length = textBytes (contracts.map builtEntry) := by
  obtain ⟨tail, hOut, hLen⟩ := (layTexts_spec (offsets (asU32 contracts.length)).stringsBase (contracts.map builtEntry) []).1
  rw [laid, hOut, nil_append, hLen]

theorem totalSize_eq (h : layoutSize contracts ≤ 2 ^ 32 - 8) : (totalSize contracts).toNat = (layoutSize contracts + 7) / 8 * 8 := by
  have hSum : (asU32 (layoutSize contracts)).toNat = layoutSize contracts := asU32_toNat (by omega)
  have hMul : asU32 ((layoutSize contracts + 7) / 8) * 8 = asU32 ((layoutSize contracts + 7) / 8 * 8) := asU32_mul _ _
  rw [totalSize, asU32_add, length_strings, align8, ← layoutSize, hSum, hMul]
  exact asU32_toNat (by omega)

theorem totalSize_le : (totalSize contracts).toNat ≤ 2 ^ 32 - 8 := by
  rw [totalSize, align8, BitVec.toNat_mul]
  show _ * 8 % 2 ^ 32 ≤ _
  omega

theorem built_fits {ns : ApiSetNamespace} (h : buildNamespace contracts = some ns) : layoutSize contracts ≤ 2 ^ 32 - 8 := by
  rw [buildNamespace_eq] at h
  split at h
  · cases h
  obtain ⟨ys, hWords, h⟩ := Option.bind_eq_some_iff.mp h
  obtain ⟨zs, hTexts, -⟩ := Option.bind_eq_some_iff.mp h
  have hTotal := @totalSize_le contracts
  -- the counts wrap only where the number in front of 2^32 has a place that the map has not
  have hShort : textsFrom contracts.length < 2 ^ 32 := by
    by_contra hLong
    obtain ⟨v, hSlot⟩ := @Slot.exists contracts (2 ^ 32 - 4) (by decide) (by decide) (by omega)
    have hFits := Put.putAll_fits hWords _ (mem_allWords_iff.mpr ⟨_, v, hSlot, rfl⟩)
    rw [length_toLe, length_replicate, asU32_toNat (by decide)] at hFits
    omega
  have hFits := (Put.put_some hTexts).1
  rw [Put.length_putAll hWords, length_replicate, asU32_toNat hShort, length_strings, ← layoutSize] at hFits
  omega

theorem build_of_fits (hFits : layoutSize contracts ≤ 2 ^ 32 - 8) (hDistinct : collides (hashIndex (contracts.map builtEntry)) = false) :
    (buildNamespace contracts).isSome := by
  have hTotal := totalSize_eq hFits
  have hShort : textsFrom contracts.length ≤ layoutSize contracts := Nat.le_add_right _ _
  obtain ⟨ys, hWords⟩ := @Put.putAll_of_fits _ (List.replicate (totalSize contracts).toNat 0) (allWords contracts) fun p hp => by
    obtain ⟨o, v, hSlot, rfl⟩ := mem_allWords_iff.mp hp
    have hBound := hSlot.bound.2
    rw [length_toLe, length_replicate, asU32_toNat (by omega)]
    omega
  have hTexts : (asU32 (textsFrom contracts.length)).toNat + (laid contracts).1.length ≤ ys.length := by
    rw [Put.length_putAll hWords, length_replicate, asU32_toNat (by omega), length_strings, ← layoutSize, hTotal]
    omega
  rw [buildNamespace_eq, hDistinct, hWords]
  show (do let bytes ← Put.put ys _; pure (ApiSetNamespace.mk bytes _ _ _)).isSome
  rw [Put.put, if_pos hTexts]
  rfl

structure Holding (contracts : List (Text × Text)) (b : List U8) : Prop where
  fits : layoutSize contracts ≤ b.length
  short : b.length < 2 ^ 32
  distinct : collides (hashIndex (contracts.map builtEntry)) = false
  number : ∀ {o v}, Slot contracts o v → u32At b o = some v
  texts : Put.window b (textsFrom contracts.length) (laid contracts).1.length = some (laid contracts).1

theorem built_holding {ns : ApiSetNamespace} (h : buildNamespace contracts = some ns) :
    Holding contracts ns.bytes ∧ ns.bytes.length = (totalSize contracts).toNat ∧
      ns.count = asU32 contracts.length ∧ ns.entryOffset = asU32 ENTRIES ∧ ns.hashOffset = asU32 (hashesFrom contracts.length) := by
  have hFits := built_fits h
  have hTotal := totalSize_eq hFits
  have hShort : textsFrom contracts.length ≤ layoutSize contracts := Nat.le_add_right _ _
  rw [buildNamespace_eq] at h
  split at h
  · cases h
  rename_i hDistinct
  obtain ⟨ys, hWords, h⟩ := Option.bind_eq_some_iff.mp h
  obtain ⟨zs, hTexts, h⟩ := Option.bind_eq_some_iff.mp h
  cases h
  obtain ⟨hRoom, rfl⟩ := Put.put_some hTexts
  rw [asU32_toNat (by omega)] at hRoom ⊢
  dsimp only at hRoom ⊢
  have hLen := Put.length_putAll hWords
  rw [length_replicate] at hLen
  have hLen' := (Put.length_overwrite hRoom).trans hLen
  refine ⟨⟨by omega, by omega, Bool.eq_false_iff.mpr hDistinct, fun {o v} hSlot => ?_, Put.window_overwrite hRoom⟩, hLen', rfl, rfl, rfl⟩
  have hBound := hSlot.bound
  have hApart : ∀ p ∈ allWords contracts, ∀ q ∈ allWords contracts, p = q ∨ Put.Apart p q := by
    intro p hp q hq
    obtain ⟨a, v, hA, rfl⟩ := mem_allWords_iff.mp hp
    obtain ⟨b, w, hB, rfl⟩ := mem_allWords_iff.mp hq
    have hBoundA := hA.bound
    have hBoundB := hB.bound
    by_cases hSame : b = a
    · rw [hSame, hA.unique hB hSame]
      exact .inl rfl
    · refine .inr ?_
      unfold Put.Apart
      rw [length_toLe, length_toLe, asU32_toNat (by omega), asU32_toNat (by omega)]
      omega
  have hRead := Put.putAll_window hWords hApart _ (mem_allWords_iff.mpr ⟨o, v, hSlot, rfl⟩)
  rw [asU32_toNat (by omega), length_toLe] at hRead
  have hKept : Put.window (Put.overwrite ys (textsFrom contracts.length) (laid contracts).1) o 4 = Put.window ys o 4 :=
    Put.window_congr (Put.length_overwrite hRoom) fun k hk hk' => by
      rw [Put.overwrite_get hRoom, if_neg (by omega)]
  rw [u32At, hKept, hRead]
  exact congrArg some (Loader.fromLe_toLe_four v)

end Layout

end ApiSet

end Exemu.Os

/-! # UTF-16, read leniently -/
namespace Exemu.Os

open Path (Text)
open ApiSet (decodeUtf16 decode_encode)

/-- `String::from_utf16_lossy` -/
def fromUtf16Lossy : List U16 → Text
  | [] => []
  | u :: us =>
    if u.toNat < 0xD800 || 0xE000 ≤ u.toNat then Char.ofNat u.toNat :: fromUtf16Lossy us
    else
      match us with
      | v :: vs =>
        if u.toNat < 0xDC00 && (0xDC00 ≤ v.toNat && v.toNat < 0xE000) then
          Char.ofNat (0x10000 + (u.toNat - 0xD800) * 0x400 + (v.toNat - 0xDC00)) :: fromUtf16Lossy vs
        else '\uFFFD' :: fromUtf16Lossy (v :: vs)
      | [] => ['\uFFFD']

/-! ## Reading what was written -/

theorem lossy_of_decode {us : List U16} {s : Text} (h : decodeUtf16 us = some s) : fromUtf16Lossy us = s := by
  fun_induction decodeUtf16 us generalizing s with
  | case1 =>
    cases h
    rfl
  | case2 u us hOne ih =>
    obtain ⟨t, hRest, rfl⟩ := Option.map_eq_some_iff.mp h
    rw [fromUtf16Lossy.eq_def]
    exact (if_pos hOne).trans (congrArg _ (ih hRest))
  | case3 u hOne v vs hPair ih =>
    obtain ⟨t, hRest, rfl⟩ := Option.map_eq_some_iff.mp h
    rw [fromUtf16Lossy.eq_def]
    exact (if_neg hOne).trans ((if_pos hPair).trans (congrArg _ (ih hRest)))
  | case4 => cases h
  | case5 => cases h

theorem lossy_encode (s : Text) : fromUtf16Lossy (encodeUtf16 s) = s := lossy_of_decode (decode_encode s)

theorem unit_zero {n : Nat} (h : (0 : U16) = BitVec.ofNat 16 n) : n % 65536 = 0 := by
  have hNat := congrArg BitVec.toNat h
  rw [BitVec.toNat_ofNat] at hNat
  exact hNat.symm

theorem zero_not_mem_encode {s : Text} (h : Char.ofNat 0 ∉ s) : (0 : U16) ∉ encodeUtf16 s := by
  intro hMem
  obtain ⟨c, hc, hUnit⟩ := List.mem_flatMap.mp hMem
  have hValid : c.toNat < 0xD800 ∨ 0xDFFF < c.toNat ∧ c.toNat < 0x110000 := c.valid
  split at hUnit
  · have hZero := unit_zero (List.mem_singleton.mp hUnit)
    have hNat : c.toNat = 0 := by omega
    exact h (by rwa [← hNat, Char.ofNat_toNat])
  · rcases List.mem_cons.mp hUnit with hFirst | hSecond
    · have hZero := unit_zero hFirst
      omega
    · have hZero := unit_zero (List.mem_singleton.mp hSecond)
      omega

end Exemu.Os
