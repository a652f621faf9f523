import Exemu.Os.Namespace

/-! # Contracts are found

The table of hashes ascends strictly, so the search by halves ends at the entry of the contract
that is looked for, and the entry leads to the texts the contract was given with.
-/
namespace Exemu.Os

open Path (Text)

namespace ApiSet

variable {contracts : List (Text × Text)} {b : List U8} {ns : ApiSetNamespace} {i : Nat} {c : Text × Text}

/-! ## The table of hashes -/

variable {xs : List (U32 × U32)}

theorem distinct_cons {x y : U32 × U32} (h : collides (x :: y :: xs) = false) : x.1 ≠ y.1 ∧ collides (y :: xs) = false := by
  rw [collides, Bool.or_eq_false_iff, decide_eq_false_iff_not] at h
  exact h

theorem ascends_of_distinct (hSorted : xs.Pairwise fun x y => x.1.toNat ≤ y.1.toNat) (hDistinct : collides xs = false) :
    xs.Pairwise fun x y => x.1.toNat < y.1.toNat := by
  induction xs with
  | nil => exact .nil
  | cons x xs ih =>
    obtain ⟨hHead, hTail⟩ := List.pairwise_cons.mp hSorted
    cases xs with
    | nil => exact List.pairwise_singleton _ _
    | cons y xs =>
      obtain ⟨hNext, hRest⟩ := distinct_cons hDistinct
      have hLess : x.1.toNat < y.1.toNat :=
        lt_of_le_of_ne (hHead y List.mem_cons_self) fun hEq => hNext (BitVec.eq_of_toNat_eq hEq)
      refine List.pairwise_cons.mpr ⟨fun z hz => ?_, ih hTail hRest⟩
      rcases List.mem_cons.mp hz with rfl | hz
      · exact hLess
      · exact lt_of_lt_of_le hLess ((List.pairwise_cons.mp hTail).1 z hz)

theorem distinct_of_nodup (h : (xs.map Prod.fst).Nodup) : collides xs = false := by
  induction xs with
  | nil => rfl
  | cons x xs ih =>
    obtain ⟨hHead, hTail⟩ := List.nodup_cons.mp h
    cases xs with
    | nil => rfl
    | cons y xs =>
      rw [collides, Bool.or_eq_false_iff, decide_eq_false_iff_not]
      exact ⟨fun hEq => hHead (hEq ▸ List.mem_cons_self), ih hTail⟩

theorem hashIndex_perm (es : List BuiltEntry) : (hashIndex es).Perm (es.zipIdx.map fun x => (x.1.hash, asU32 x.2)) :=
  List.perm_insertionSort _ _

theorem hashIndex_sorted (es : List BuiltEntry) : (hashIndex es).Pairwise fun x y => x.1.toNat ≤ y.1.toNat :=
  haveI : Std.Total fun x y : U32 × U32 => x.1.toNat ≤ y.1.toNat := ⟨fun _ _ => Nat.le_total _ _⟩
  haveI : IsTrans (U32 × U32) fun x y => x.1.toNat ≤ y.1.toNat := ⟨fun _ _ _ => Nat.le_trans⟩
  List.pairwise_insertionSort _ _

theorem hashes_of_index (contracts : List (Text × Text)) :
    ((hashIndex (contracts.map builtEntry)).map Prod.fst).Perm (contracts.map fun c => apiSetHash c.1 HASH_FACTOR) := by
  have hFst := (hashIndex_perm (contracts.map builtEntry)).map Prod.fst
  have hHashes : ((contracts.map builtEntry).zipIdx.map fun x => (x.1.hash, asU32 x.2)).map Prod.fst =
      contracts.map fun c => apiSetHash c.1 HASH_FACTOR := by
    have hEach : ((contracts.map builtEntry).zipIdx.map fun x => (x.1.hash, asU32 x.2)).map Prod.fst =
        ((contracts.map builtEntry).zipIdx.map Prod.fst).map BuiltEntry.hash := by
      rw [List.map_map, List.map_map]
      rfl
    rw [hEach, List.zipIdx_map_fst, List.map_map]
    rfl
  rwa [hHashes] at hFst

theorem distinct_iff : collides (hashIndex (contracts.map builtEntry)) = false ↔
    (contracts.map fun c => apiSetHash c.1 HASH_FACTOR).Nodup := by
  constructor
  · intro hDistinct
    have hAscends := ascends_of_distinct (hashIndex_sorted _) hDistinct
    refine (hashes_of_index contracts).nodup_iff.mp (List.pairwise_map.mpr (hAscends.imp fun {x y} hLess hEq => ?_))
    rw [hEq] at hLess
    exact Nat.lt_irrefl _ hLess
  · exact fun hNodup => distinct_of_nodup ((hashes_of_index contracts).nodup_iff.mpr hNodup)

theorem row_of_contract (h : contracts[i]? = some c) :
    ∃ k : Nat, (hashIndex (contracts.map builtEntry))[k]? = some (apiSetHash c.1 HASH_FACTOR, asU32 i) := by
  refine List.mem_iff_getElem?.mp ((hashIndex_perm _).mem_iff.mpr (List.mem_map.mpr ⟨(builtEntry c, i), ?_, rfl⟩))
  rw [List.mem_zipIdx_iff_getElem?, List.getElem?_map, h]
  rfl

/-! ## The search -/

theorem middle_between : Bisect.Middle middle := by
  intro lo hi h
  unfold middle
  omega

theorem Holding.count_lt (h : Holding contracts b) : textsFrom contracts.length < 2 ^ 32 :=
  lt_of_le_of_lt ((Nat.le_add_right _ _).trans h.fits) h.short

theorem Holding.rows (h : Holding contracts b) {k : Nat} {x : U32 × U32} (hx : (hashIndex (contracts.map builtEntry))[k]? = some x) :
    u32At b ((asU32 (hashesFrom contracts.length)).toNat + k * 8) = some x.1 ∧
      u32At b ((asU32 (hashesFrom contracts.length)).toNat + k * 8 + 4) = some x.2 := by
  have hShort := h.count_lt
  unfold textsFrom at hShort
  have hHash := h.number (Slot.hash (j := 0) hx rfl)
  have hIndex := h.number (Slot.hash (j := 1) hx rfl)
  rw [asU32_toNat (by unfold hashesFrom; omega), Nat.mul_comm k]
  exact ⟨hHash, hIndex⟩

theorem Holding.ascends (h : Holding contracts b) {j : Nat} (hLess : i < j) (hCount : j < contracts.length) :
    ∃ x y, u32At b ((asU32 (hashesFrom contracts.length)).toNat + i * 8) = some x ∧
      u32At b ((asU32 (hashesFrom contracts.length)).toNat + j * 8) = some y ∧ x.toNat < y.toNat := by
  have hLen := @length_hashIndex contracts
  have hAscends := List.pairwise_iff_getElem.mp (ascends_of_distinct (hashIndex_sorted _) h.distinct) i j (by omega) (by omega) hLess
  exact ⟨_, _, (h.rows (List.getElem?_eq_getElem (by omega))).1, (h.rows (List.getElem?_eq_getElem (by omega))).1, hAscends⟩

theorem Holding.find_contract (h : Holding contracts b) (hc : contracts[i]? = some c) : find b (apiSetHash c.1 HASH_FACTOR) = some i := by
  have hShort := h.count_lt
  unfold textsFrom at hShort
  have hCount : u32At b 0x0C = some (asU32 contracts.length) := h.number (Slot.header (j := 3) rfl)
  have hTable : u32At b 0x14 = some (asU32 (hashesFrom contracts.length)) := h.number (Slot.header (j := 5) rfl)
  obtain ⟨k, hRow⟩ := row_of_contract hc
  obtain ⟨hHash, hIndex⟩ := h.rows hRow
  have hk := lt_of_getElem? hRow
  have hi := lt_of_getElem? hc
  rw [length_hashIndex] at hk
  have hFound : Bisect.search (fun i => ((u32At b ((asU32 (hashesFrom contracts.length)).toNat + i * 8)).getD 0).toNat) middle
      (apiSetHash c.1 HASH_FACTOR).toNat contracts.length 0 contracts.length = some k := by
    refine Bisect.search_finds middle_between (fun i j hij hj => ?_) (by omega) (Nat.zero_le k) hk ?_
    · obtain ⟨x, y, hx, hy, hLess⟩ := h.ascends hij hj
      rw [hx, hy]
      exact hLess
    · rw [hHash]
      rfl
  unfold find
  rw [hCount, hTable]
  show (do
    let i ← Bisect.search _ middle _ (asU32 contracts.length).toNat 0 (asU32 contracts.length).toNat
    return (← u32At b (_ + i * 8 + 4)).toNat) = _
  rw [asU32_toNat (n := contracts.length) (by omega), hFound]
  show (do return (← u32At b (_ + k * 8 + 4)).toNat) = _
  rw [hIndex]
  exact congrArg some (asU32_toNat (by omega))

/-! ## The texts -/

/-- The texts the entry leads to, and all it leads to is inside. -/
structure EntryReads (b : List U8) (e : Entry) (name host : Text) : Prop where
  name : textAt b e.nameOff e.nameBytes = some name
  host : textAt b e.hostOff e.hostBytes = some host
  nameInside : e.nameOff.toNat + e.nameBytes.toNat ≤ b.length
  hashed : e.hashedBytes.toNat ≤ e.nameBytes.toNat
  valueInside : e.valueOff.toNat + VALUE_SIZE.toNat ≤ b.length
  hostInside : e.hostOff.toNat + e.hostBytes.toNat ≤ b.length

theorem Holding.text (h : Holding contracts b) {a : Nat} {s : Text}
    (ha : Put.window (laid contracts).1 a (unitBytes (encodeUtf16 s)).length = some (unitBytes (encodeUtf16 s))) :
    textAt b (asU32 (textsFrom contracts.length) + asU32 a) (asU32 ((encodeUtf16 s).length * 2)) = some s ∧
      (asU32 (textsFrom contracts.length) + asU32 a).toNat + (asU32 ((encodeUtf16 s).length * 2)).toNat ≤ b.length ∧
        (asU32 ((encodeUtf16 s).length * 2)).toNat = (encodeUtf16 s).length * 2 := by
  have hInside := (Put.window_some (Put.window_window h.texts ha)).1
  have hShort := h.short
  rw [length_unitBytes] at hInside
  rw [asU32_add, asU32_toNat (by omega), asU32_toNat (by omega)]
  refine ⟨?_, hInside, rfl⟩
  rw [textAt, asU32_toNat (by omega), asU32_toNat (by omega), ← length_unitBytes, Put.window_window h.texts ha]
  show decodeUtf16 (unitsOf (unitBytes (encodeUtf16 s))) = _
  rw [unitsOf_unitBytes, decode_encode]

theorem Holding.entry (h : Holding contracts b) (hc : contracts[i]? = some c) :
    ∃ e, entryAt b i = some e ∧ EntryReads b e c.1 c.2 := by
  have hShort := h.count_lt
  have hFits := h.fits
  have hi := lt_of_getElem? hc
  unfold layoutSize at hFits
  unfold textsFrom at hShort hFits
  have hTable : u32At b 0x10 = some (asU32 ENTRIES) := h.number (Slot.header (j := 4) rfl)
  have hBuilt : (contracts.map builtEntry)[i]? = some (builtEntry c) := by
    rw [List.getElem?_map, hc]
    rfl
  obtain ⟨nameOff, valueOff, hx, hTexts⟩ :=
    (layTexts_spec (offsets (asU32 contracts.length)).stringsBase (contracts.map builtEntry) []).2.2 i _ hBuilt
  have hRow : (laid contracts).2[i]? = some (builtEntry c, nameOff, valueOff) := hx
  have hName := h.number (Slot.entry (j := 1) hRow rfl)
  have hNameBytes := h.number (Slot.entry (j := 2) hRow rfl)
  have hHashed := h.number (Slot.entry (j := 3) hRow rfl)
  have hValue := h.number (Slot.entry (j := 4) hRow rfl)
  have hHost := h.number (Slot.value (j := 3) hRow rfl)
  have hHostBytes := h.number (Slot.value (j := 4) hRow rfl)
  have hValueOff : (asU32 (valuesFrom contracts.length + 20 * i)).toNat = valuesFrom contracts.length + 20 * i := by
    refine asU32_toNat ?_
    unfold valuesFrom
    omega
  refine ⟨⟨nameOff, (builtEntry c).nameBytes, (builtEntry c).hashedBytes, asU32 (valuesFrom contracts.length + 20 * i), valueOff,
    (builtEntry c).valueBytes⟩, ?_, ?_⟩
  · unfold entryAt
    rw [hTable]
    show (do
      let vo ← u32At b (32 + i * 24 + 0x10)
      return Entry.mk (← u32At b (32 + i * 24 + 0x04)) (← u32At b (32 + i * 24 + 0x08)) (← u32At b (32 + i * 24 + 0x0C)) vo
        (← u32At b (vo.toNat + 0x0C)) (← u32At b (vo.toNat + 0x10))) = _
    rw [Nat.mul_comm i]
    have hValue' : u32At b (32 + 24 * i + 0x10) = some (asU32 (valuesFrom contracts.length + 20 * i)) := hValue
    rw [hValue']
    show (do
      return Entry.mk (← u32At b (32 + 24 * i + 4 * 1)) (← u32At b (32 + 24 * i + 4 * 2)) (← u32At b (32 + 24 * i + 4 * 3)) _
        (← u32At b ((asU32 (valuesFrom contracts.length + 20 * i)).toNat + 4 * 3))
        (← u32At b ((asU32 (valuesFrom contracts.length + 20 * i)).toNat + 4 * 4))) = _
    rw [hValueOff, hName, hNameBytes, hHashed, hHost, hHostBytes]
    rfl
  · obtain ⟨⟨a, rfl, hNameAt⟩, ⟨a', rfl, hHostAt⟩⟩ := hTexts
    obtain ⟨hNameText, hNameIn, hNameLen⟩ := h.text (s := c.1) hNameAt
    obtain ⟨hHostText, hHostIn, -⟩ := h.text (s := c.2) hHostAt
    rw [offsets_eq]
    refine ⟨hNameText, hHostText, hNameIn, ?_, ?_, hHostIn⟩
    · show (asU32 _).toNat ≤ (asU32 ((encodeUtf16 c.1).length * 2)).toNat
      have hPrefix : (hashablePrefix (encodeUtf16 c.1)).length ≤ (encodeUtf16 c.1).length := List.length_take_le' _ _
      have hShort' := h.short
      rw [hNameLen, asU32_toNat (by omega)]
      omega
    · show (asU32 (valuesFrom contracts.length + 20 * i)).toNat + 20 ≤ b.length
      rw [hValueOff, valuesFrom]
      omega

structure Decodes (contracts : List (Text × Text)) (ns : ApiSetNamespace) : Prop where
  size : ns.bytes.length < 2 ^ 32 ∧ u32At ns.bytes 0x04 = some (asU32 ns.bytes.length)
  header : u32At ns.bytes 0x00 = some API_SET_SCHEMA_VERSION ∧ u32At ns.bytes 0x0C = some ns.count ∧
    u32At ns.bytes 0x10 = some ns.entryOffset ∧ u32At ns.bytes 0x14 = some ns.hashOffset ∧ u32At ns.bytes 0x18 = some HASH_FACTOR
  count : ns.count.toNat = contracts.length
  tables : ns.entryOffset.toNat + contracts.length * ENTRY_SIZE.toNat ≤ ns.bytes.length ∧
    ns.hashOffset.toNat + contracts.length * HASH_ENTRY_SIZE.toNat ≤ ns.bytes.length
  sorted : ∀ i j, i < j → j < contracts.length → ∃ x y, u32At ns.bytes (ns.hashOffset.toNat + i * 8) = some x ∧
    u32At ns.bytes (ns.hashOffset.toNat + j * 8) = some y ∧ x.toNat < y.toNat
  found : ∀ i c, contracts[i]? = some c → find ns.bytes (apiSetHash c.1 HASH_FACTOR) = some i
  texts : ∀ i c, contracts[i]? = some c → ∃ e, entryAt ns.bytes i = some e ∧ EntryReads ns.bytes e c.1 c.2

/-- With hashes that differ, a map is built unless it is too large, and it leads from every contract to its host. -/
theorem build_decodes (hDistinct : (contracts.map fun c => apiSetHash c.1 HASH_FACTOR).Nodup) :
    ((buildNamespace contracts).isSome ↔ layoutSize contracts ≤ 2 ^ 32 - 8) ∧
      ∀ ns, buildNamespace contracts = some ns → Decodes contracts ns := by
  constructor
  · constructor
    · intro h
      obtain ⟨ns, hBuilt⟩ := Option.isSome_iff_exists.mp h
      exact built_fits hBuilt
    · exact fun hFits => build_of_fits hFits (distinct_iff.mpr hDistinct)
  · intro ns hBuilt
    obtain ⟨hHolding, hLen, hCount, hEntries, hHashes⟩ := built_holding hBuilt
    have hShort := hHolding.count_lt
    have hFits := hHolding.fits
    unfold layoutSize at hFits
    unfold textsFrom at hShort hFits
    have hSize : asU32 ns.bytes.length = totalSize contracts := by
      rw [hLen, asU32, BitVec.ofNat_toNat, BitVec.setWidth_eq]
    constructor
    · exact ⟨hHolding.short, hSize ▸ hHolding.number (Slot.header (j := 1) rfl)⟩
    · rw [hCount, hEntries, hHashes]
      exact ⟨hHolding.number (Slot.header (j := 0) rfl), hHolding.number (Slot.header (j := 3) rfl),
        hHolding.number (Slot.header (j := 4) rfl), hHolding.number (Slot.header (j := 5) rfl), hHolding.number (Slot.header (j := 6) rfl)⟩
    · rw [hCount]
      exact asU32_toNat (by omega)
    · rw [hEntries, hHashes, asU32_toNat (by decide), asU32_toNat (by unfold hashesFrom; omega), ENTRIES, hashesFrom]
      show 32 + contracts.length * 24 ≤ _ ∧ 32 + 44 * contracts.length + contracts.length * 8 ≤ _
      omega
    · rw [hHashes]
      exact fun i j hLess hj => hHolding.ascends hLess hj
    · exact fun i c hc => hHolding.find_contract hc
    · exact fun i c hc => hHolding.entry hc

def fileAndHeap : List (Text × Text) := [("api-core-file-l1".toList, "kernelbase.dll".toList), ("api-crt-heap-l1".toList, "ucrtbase.dll".toList)]

theorem fileAndHeap_decodes : (buildNamespace fileAndHeap).isSome ∧ ∀ ns, buildNamespace fileAndHeap = some ns → Decodes fileAndHeap ns := by
  have hBoth := @build_decodes fileAndHeap (by decide)
  exact ⟨hBoth.1.mpr (by decide), hBoth.2⟩

end ApiSet

end Exemu.Os
