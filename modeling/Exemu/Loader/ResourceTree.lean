import Exemu.Loader.Resources

/-! # The tree of resources

Where the walk stays in the file and in its budget, and no directory names two directories alike,
the resources are a tree.
-/
namespace Exemu.Loader

open List

open Path (Text)

namespace Resources

variable (bytes : List U8) (root : Root)

/-! ## The tree -/

def readDir (off : Nat) : Option (List DirEntry) := (dirTotal bytes (root.resBase + off)).bind (dirRows bytes (root.resBase + off + 16))

def entriesAt (off : Nat) : List DirEntry := (readDir bytes root off).getD []

def dirsAt (off : Nat) : List DirEntry := (entriesAt bytes root off).filter DirEntry.isDir

def nameOf (e : DirEntry) : ResourceName := fromEntry bytes root.resBase e.name

def NameReadable (e : DirEntry) : Prop := e.name &&& 0x80000000 ≠ 0 → (u16 bytes (root.resBase + (e.name &&& 0x7fffffff).toNat)).isSome = true

structure Walks : Prop where
  top : (readDir bytes root 0).isSome = true
  types : ∀ t ∈ dirsAt bytes root 0, (readDir bytes root t.off).isSome = true ∧ NameReadable bytes root t
  names : ∀ t ∈ dirsAt bytes root 0, ∀ n ∈ dirsAt bytes root t.off, (readDir bytes root n.off).isSome = true

def nameCost (es : List DirEntry) : Nat := ((es.filter DirEntry.isDir).map fun n => (entriesAt bytes root n.off).length).sum

def typeCost (es : List DirEntry) : Nat :=
  ((es.filter DirEntry.isDir).map fun t => (entriesAt bytes root t.off).length + nameCost bytes root (entriesAt bytes root t.off)).sum

def cost : Nat := (entriesAt bytes root 0).length + typeCost bytes root (entriesAt bytes root 0)

structure Distinct : Prop where
  types : ((dirsAt bytes root 0).map (nameOf bytes root)).Nodup
  names : ∀ t ∈ dirsAt bytes root 0, ((dirsAt bytes root t.off).map (nameOf bytes root)).Nodup

structure Leaf where
  type : ResourceName
  name : ResourceName
  lang : U16
  off : Nat
deriving DecidableEq

def ResourceName.number : ResourceName → U32 × Option Text
  | .Id id => (id, none)
  | .Name s => (0, some s)

def Leaf.entry (l : Leaf) : ResourceEntry :=
  let number := ResourceName.number l.type
  ⟨number.1, number.2, l.name, l.lang⟩

def langLeaves (type name : ResourceName) (langs : List DirEntry) : List Leaf :=
  (langs.filter fun e => !e.isDir).map fun e => ⟨type, name, e.name.setWidth 16, e.off⟩

def nameLeaves (type : ResourceName) (es : List DirEntry) : List Leaf :=
  (es.filter DirEntry.isDir).flatMap fun n => langLeaves type (nameOf bytes root n) (entriesAt bytes root n.off)

def typeLeaves (es : List DirEntry) : List Leaf :=
  (es.filter DirEntry.isDir).flatMap fun t => nameLeaves bytes root (nameOf bytes root t) (entriesAt bytes root t.off)

def leaves : List Leaf := typeLeaves bytes root (entriesAt bytes root 0)

/-- The bytes of the file that a data entry names, as far as the file has them, if they start in it. -/
def fileBytes (dataOff : Nat) : Option (List U8) := do
  let rva ← u32 bytes (root.resBase + dataOff)
  let size ← u32 bytes (root.resBase + dataOff + 4)
  let doff ← rva2off root.sections rva
  if doff ≤ bytes.length then some ((bytes.drop doff).take size.toNat) else none

def Leaf.isOf (typeId : U32) (name : ResourceName) (l : Leaf) : Bool := l.type == .Id typeId && l.name == name

structure FindsLeaf (ls : List Leaf) (typeId : U32) (name : ResourceName) (lang : U16) (found : Option (List U8)) : Prop where
  exact : ∀ l, lang ≠ LANG_ANY → ls.find? (fun l => l.isOf typeId name && l.lang == lang) = some l → found = fileBytes bytes root l.off
  other : ∀ l, (lang = LANG_ANY ∨ ∀ l ∈ ls, l.isOf typeId name = true → l.lang ≠ lang) → ls.find? (Leaf.isOf typeId name) = some l →
    found = fileBytes bytes root l.off
  absent : (∀ l ∈ ls, l.isOf typeId name = false) → found = none

/-! ## Directories and names -/

section Reading

variable {bytes : List U8} {root : Root}

theorem length_dirRows {e n : Nat} {es : List DirEntry} (h : dirRows bytes e n = some es) : es.length = n := by
  induction n generalizing e es with
  | zero =>
    cases h
    rfl
  | succ n ih =>
    obtain ⟨name, -, hName⟩ := Option.bind_eq_some_iff.mp h
    obtain ⟨offset, -, hOffset⟩ := Option.bind_eq_some_iff.mp hName
    obtain ⟨rest, hRest, hEq⟩ := Option.bind_eq_some_iff.mp hOffset
    cases hEq
    rw [length_cons, ih hRest]

theorem dirEntries_of_readDir {off b : Nat} (h : (readDir bytes root off).isSome = true) (hCost : (entriesAt bytes root off).length ≤ b) :
    dirEntries bytes (root.resBase + off) b = (some (entriesAt bytes root off), b - (entriesAt bytes root off).length) := by
  obtain ⟨es, hRead⟩ := Option.isSome_iff_exists.mp h
  have hEntries : entriesAt bytes root off = es := by rw [entriesAt, hRead, Option.getD_some]
  obtain ⟨total, hTotal, hRows⟩ := Option.bind_eq_some_iff.mp hRead
  rw [hEntries] at hCost ⊢
  rw [length_dirRows hRows] at hCost ⊢
  rw [dirEntries, hTotal]
  dsimp only
  rw [if_neg (Nat.not_lt.mpr hCost), hRows]

theorem typeOf_name {t : DirEntry} (h : NameReadable bytes root t) : typeOf bytes root t.name = ResourceName.number (nameOf bytes root t) := by
  unfold typeOf nameOf fromEntry
  by_cases hNamed : t.name &&& 0x80000000 ≠ 0
  · obtain ⟨len, hLen⟩ := Option.isSome_iff_exists.mp (h hNamed)
    rw [if_pos hNamed, if_pos hNamed]
    dsimp only
    rw [hLen]
    rfl
  · rw [if_neg hNamed, if_neg hNamed]
    rfl

theorem setWidth_low (raw : U32) : (raw &&& 0xffff).setWidth 16 = raw.setWidth 16 ∧ (raw &&& 0x7fffffff).setWidth 16 = raw.setWidth 16 := by
  have hMask : ∀ i < 16, (0xffff : U32).getLsbD i = true ∧ (0x7fffffff : U32).getLsbD i = true := by decide
  constructor <;>
  · refine BitVec.eq_of_getLsbD_eq fun i hi => ?_
    obtain ⟨hShort, hLong⟩ := hMask i hi
    simp only [BitVec.getLsbD_setWidth, BitVec.getLsbD_and, hShort, hLong, Bool.and_true]

theorem dataAt_eq (off : Nat) : dataAt bytes root off = fileBytes bytes root off := by
  unfold dataAt fileBytes
  congr 1
  funext rva
  congr 1
  funext size
  congr 1
  funext doff
  dsimp only
  have hSame : doff ≤ min (doff + size.toNat) bytes.length ↔ doff ≤ bytes.length := by omega
  rw [drop_take, ite_cond_congr (propext hSame)]
  split
  · congr 1
    rw [take_eq_take_iff, length_drop]
    omega
  · rfl

end Reading

/-! ## The list -/

section Listing

variable {bytes : List U8} {root : Root}

theorem listLangs_eq (type name : ResourceName) (langs : List DirEntry) :
    listLangs (ResourceName.number type) name langs = (langLeaves type name langs).map Leaf.entry := by
  rw [listLangs, langLeaves, map_map]
  refine map_congr_left fun e _ => ?_
  rw [(setWidth_low e.name).1]
  rfl

theorem listNames_eq (type : ResourceName) {es : List DirEntry} (hRead : ∀ n ∈ es.filter DirEntry.isDir, (readDir bytes root n.off).isSome = true) {b : Nat}
    (hCost : nameCost bytes root es ≤ b) :
    listNames bytes root (ResourceName.number type) es b = ((nameLeaves bytes root type es).map Leaf.entry, b - nameCost bytes root es) := by
  induction es generalizing b with
  | nil => rfl
  | cons e es ih =>
    rw [listNames]
    cases hDir : e.isDir with
    | false =>
      have hFilter : (e :: es).filter DirEntry.isDir = es.filter DirEntry.isDir := filter_cons_of_neg (by simp [hDir])
      rw [nameCost, hFilter] at hCost ⊢
      rw [hFilter] at hRead
      rw [nameLeaves, hFilter]
      exact ih hRead hCost
    | true =>
      have hFilter : (e :: es).filter DirEntry.isDir = e :: es.filter DirEntry.isDir := filter_cons_of_pos hDir
      rw [nameCost, hFilter, map_cons, sum_cons] at hCost ⊢
      rw [hFilter] at hRead
      have hRest := ih (fun n hn => hRead n (mem_cons_of_mem e hn)) (b := b - (entriesAt bytes root e.off).length)
        (by rw [nameCost]; omega)
      rw [dirEntries_of_readDir (hRead e mem_cons_self) (by omega), nameLeaves, hFilter, flatMap_cons, map_append]
      dsimp only
      rw [hRest, listLangs_eq, nameCost, Nat.sub_sub]
      rfl

theorem listTypes_eq {es : List DirEntry}
    (hTypes : ∀ t ∈ es.filter DirEntry.isDir, (readDir bytes root t.off).isSome = true ∧ NameReadable bytes root t)
    (hNames : ∀ t ∈ es.filter DirEntry.isDir, ∀ n ∈ dirsAt bytes root t.off, (readDir bytes root n.off).isSome = true) {b : Nat}
    (hCost : typeCost bytes root es ≤ b) :
    listTypes bytes root es b = ((typeLeaves bytes root es).map Leaf.entry, b - typeCost bytes root es) := by
  induction es generalizing b with
  | nil => rfl
  | cons e es ih =>
    rw [listTypes]
    cases hDir : e.isDir with
    | false =>
      have hFilter : (e :: es).filter DirEntry.isDir = es.filter DirEntry.isDir := filter_cons_of_neg (by simp [hDir])
      rw [typeCost, hFilter] at hCost ⊢
      rw [hFilter] at hTypes hNames
      rw [typeLeaves, hFilter]
      exact ih hTypes hNames hCost
    | true =>
      have hFilter : (e :: es).filter DirEntry.isDir = e :: es.filter DirEntry.isDir := filter_cons_of_pos hDir
      rw [typeCost, hFilter, map_cons, sum_cons] at hCost ⊢
      rw [hFilter] at hTypes hNames
      obtain ⟨hRead, hName⟩ := hTypes e mem_cons_self
      have hOwn := listNames_eq (nameOf bytes root e) (hNames e mem_cons_self) (b := b - (entriesAt bytes root e.off).length)
        (by omega)
      have hRest := ih (fun t ht => hTypes t (mem_cons_of_mem e ht)) (fun t ht => hNames t (mem_cons_of_mem e ht))
        (b := b - (entriesAt bytes root e.off).length - nameCost bytes root (entriesAt bytes root e.off)) (by rw [typeCost]; omega)
      rw [dirEntries_of_readDir hRead (by omega), typeOf_name hName, typeLeaves, hFilter, flatMap_cons, map_append]
      dsimp only
      rw [hOwn]
      dsimp only
      rw [hRest, typeCost, Nat.sub_sub, Nat.sub_sub, Nat.add_assoc]
      rfl

end Listing

/-! ## The search -/

section Finding

variable {bytes : List U8} {root : Root} {typeId : U32} {name : ResourceName} {lang : U16}

theorem findName_eq {es : List DirEntry} (hRead : ∀ n ∈ es.filter DirEntry.isDir, (readDir bytes root n.off).isSome = true) {b : Nat}
    (hCost : nameCost bytes root es ≤ b) :
    (findName bytes root name lang es b).1 = ((es.filter DirEntry.isDir).find? fun n => nameOf bytes root n == name).map fun n =>
      findData bytes root lang (entriesAt bytes root n.off) := by
  induction es with
  | nil => rfl
  | cons e es ih =>
    rw [findName]
    cases hDir : e.isDir with
    | false =>
      have hFilter : (e :: es).filter DirEntry.isDir = es.filter DirEntry.isDir := filter_cons_of_neg (by simp [hDir])
      rw [nameCost, hFilter] at hCost
      rw [hFilter] at hRead ⊢
      exact ih hRead hCost
    | true =>
      have hFilter : (e :: es).filter DirEntry.isDir = e :: es.filter DirEntry.isDir := filter_cons_of_pos hDir
      rw [nameCost, hFilter, map_cons, sum_cons] at hCost
      rw [hFilter] at hRead ⊢
      rw [find?_cons]
      by_cases hName : nameOf bytes root e = name
      · rw [dirEntries_of_readDir (hRead e mem_cons_self) (by omega), hName, beq_self_eq_true]
        rw [nameOf] at hName
        rw [hName]
        exact congrArg Prod.fst (if_neg (not_not.mpr rfl))
      · rw [beq_false_of_ne hName]
        refine (congrArg Prod.fst (if_pos hName)).trans (ih (fun n hn => hRead n (mem_cons_of_mem e hn)) ?_)
        rw [nameCost]
        omega

theorem findType_none {es : List DirEntry} (hNone : ∀ t ∈ es.filter DirEntry.isDir, nameOf bytes root t ≠ .Id typeId) (b : Nat) :
    findType bytes root typeId name lang es b = none := by
  induction es generalizing b with
  | nil => rfl
  | cons e es ih =>
    rw [findType]
    cases hDir : e.isDir with
    | false =>
      rw [filter_cons_of_neg (by simp [hDir])] at hNone
      exact ih hNone b
    | true =>
      rw [filter_cons_of_pos hDir] at hNone
      exact (if_pos (hNone e mem_cons_self)).trans (ih (fun t ht => hNone t (mem_cons_of_mem e ht)) b)

theorem findType_eq {es : List DirEntry} (hTypes : ∀ t ∈ es.filter DirEntry.isDir, (readDir bytes root t.off).isSome = true)
    (hNames : ∀ t ∈ es.filter DirEntry.isDir, ∀ n ∈ dirsAt bytes root t.off, (readDir bytes root n.off).isSome = true)
    (hNodup : ((es.filter DirEntry.isDir).map (nameOf bytes root)).Nodup) {b : Nat} (hCost : typeCost bytes root es ≤ b) :
    findType bytes root typeId name lang es b = ((es.filter DirEntry.isDir).find? fun t => nameOf bytes root t == .Id typeId).bind fun t =>
      ((dirsAt bytes root t.off).find? fun n => nameOf bytes root n == name).bind fun n => findData bytes root lang (entriesAt bytes root n.off) := by
  induction es with
  | nil => rfl
  | cons e es ih =>
    cases hDir : e.isDir with
    | false =>
      have hFilter : (e :: es).filter DirEntry.isDir = es.filter DirEntry.isDir := filter_cons_of_neg (by simp [hDir])
      rw [typeCost, hFilter] at hCost
      rw [hFilter] at hTypes hNames hNodup ⊢
      rw [findType, hDir]
      exact ih hTypes hNames hNodup hCost
    | true =>
      have hFilter : (e :: es).filter DirEntry.isDir = e :: es.filter DirEntry.isDir := filter_cons_of_pos hDir
      rw [typeCost, hFilter, map_cons, sum_cons] at hCost
      rw [hFilter] at hTypes hNames hNodup ⊢
      rw [map_cons, nodup_cons] at hNodup
      rw [findType, hDir, find?_cons]
      by_cases hType : nameOf bytes root e = .Id typeId
      · have hOthers : ∀ t ∈ es.filter DirEntry.isDir, nameOf bytes root t ≠ .Id typeId :=
          fun t ht hSame => hNodup.1 (List.mem_map.mpr ⟨t, ht, hSame.trans hType.symm⟩)
        have hInner := @findName_eq bytes root name lang _ (hNames e mem_cons_self) (b - (entriesAt bytes root e.off).length) (by omega)
        rw [dirEntries_of_readDir (hTypes e mem_cons_self) (by omega), hType, beq_self_eq_true]
        refine (if_neg (not_not.mpr hType)).trans ?_
        dsimp only
        rw [Option.bind_some]
        obtain ⟨result, budget, hRun⟩ : ∃ result budget,
            findName bytes root name lang (entriesAt bytes root e.off) (b - (entriesAt bytes root e.off).length) = (result, budget) := ⟨_, _, rfl⟩
        rw [hRun] at hInner ⊢
        rw [dirsAt]
        cases hFound : ((entriesAt bytes root e.off).filter DirEntry.isDir).find? fun n => nameOf bytes root n == name with
        | none =>
          rw [hFound] at hInner
          obtain rfl : result = none := hInner
          exact findType_none hOthers budget
        | some n =>
          rw [hFound] at hInner
          obtain rfl : result = some _ := hInner
          rfl
      · rw [beq_false_of_ne hType]
        refine (if_pos hType).trans (ih (fun t ht => hTypes t (mem_cons_of_mem e ht)) (fun t ht => hNames t (mem_cons_of_mem e ht))
          hNodup.2 ?_)
        rw [typeCost]
        omega

/-! ## The leaf that is found -/

theorem find?_langLeaves (type : ResourceName) (langs : List DirEntry) (q : U16 → Bool) :
    (langLeaves type name langs).find? (fun l => q l.lang) =
      (langs.find? fun e => !e.isDir && q (e.name.setWidth 16)).map fun e => ⟨type, name, e.name.setWidth 16, e.off⟩ := by
  rw [langLeaves, find?_map, find?_filter]
  congr 2
  funext e
  simp

theorem findData_eq (langs : List DirEntry) : findData bytes root lang langs =
    ((if lang = LANG_ANY then langs.find? fun e => !e.isDir
      else (langs.find? fun e => !e.isDir && e.name.setWidth 16 == lang).or (langs.find? fun e => !e.isDir))).bind fun e => fileBytes bytes root e.off := by
  unfold findData
  dsimp only
  simp only [(setWidth_low _).2, dataAt_eq]
  split <;> rfl

theorem head?_langLeaves (type : ResourceName) (langs : List DirEntry) :
    (langLeaves type name langs).head? = (langs.find? fun e => !e.isDir).map fun e => ⟨type, name, e.name.setWidth 16, e.off⟩ := by
  rw [langLeaves, head?_map, head?_filter]

theorem find?_isOf (ls : List Leaf) (typeId : U32) (name : ResourceName) (lang : U16) :
    (ls.find? fun l => l.isOf typeId name && l.lang == lang) = (ls.filter (Leaf.isOf typeId name)).find? fun l => l.lang == lang := by
  rw [find?_filter]
  congr 1
  funext l
  exact Bool.eq_iff_iff.mpr (by simp)

theorem findsLeaf_langs (typeId : U32) (name : ResourceName) (lang : U16) (langs : List DirEntry) :
    FindsLeaf bytes root (langLeaves (.Id typeId) name langs) typeId name lang (findData bytes root lang langs) := by
  have hOf : (langLeaves (.Id typeId) name langs).filter (Leaf.isOf typeId name) = langLeaves (.Id typeId) name langs := by
    refine List.filter_eq_self.mpr fun l hl => ?_
    obtain ⟨e, -, rfl⟩ := List.mem_map.mp hl
    simp [Leaf.isOf]
  have hExact := @find?_langLeaves name (.Id typeId) langs fun v => v == lang
  refine ⟨fun l hLang hFind => ?_, fun l hNone hFind => ?_, fun hNone => ?_⟩
  · rw [find?_isOf, hOf, hExact] at hFind
    obtain ⟨e, hEntry, rfl⟩ := Option.map_eq_some_iff.mp hFind
    rw [findData_eq, if_neg hLang, hEntry]
    rfl
  · rw [← head?_filter, hOf, head?_langLeaves] at hFind
    obtain ⟨e, hEntry, rfl⟩ := Option.map_eq_some_iff.mp hFind
    rw [findData_eq, hEntry]
    by_cases hAny : lang = LANG_ANY
    · rw [if_pos hAny]
      rfl
    · have hNotFound : (langLeaves (.Id typeId) name langs).find? (fun l => l.lang == lang) = none := by
        refine List.find?_eq_none.mpr fun l hl hSame => ?_
        rw [← hOf] at hl
        obtain ⟨hIn, hIs⟩ := List.mem_filter.mp hl
        exact hNone.resolve_left hAny l hIn hIs (eq_of_beq hSame)
      rw [hExact, Option.map_eq_none_iff] at hNotFound
      rw [if_neg hAny, hNotFound]
      rfl
  · have hEmpty : langLeaves (.Id typeId) name langs = [] := by
      rw [← hOf]
      exact List.filter_eq_nil_iff.mpr fun l hl => ne_true_of_eq_false (hNone l hl)
    have hFirst := @head?_langLeaves name (.Id typeId) langs
    rw [hEmpty] at hExact hFirst
    rw [findData_eq, Option.map_eq_none_iff.mp hExact.symm, Option.map_eq_none_iff.mp hFirst.symm]
    split <;> rfl

theorem FindsLeaf.of_filter {ls hits : List Leaf} {found : Option (List U8)} (hHits : ls.filter (Leaf.isOf typeId name) = hits.filter (Leaf.isOf typeId name))
    (h : FindsLeaf bytes root hits typeId name lang found) : FindsLeaf bytes root ls typeId name lang found where
  exact := fun l hLang hFind => by
    rw [find?_isOf, hHits, ← find?_isOf] at hFind
    exact h.exact l hLang hFind
  other := fun l hNone hFind => by
    rw [← head?_filter, hHits, head?_filter] at hFind
    refine h.other l (hNone.imp_right fun hNo l' hl' hIs => ?_) hFind
    have hIn : l' ∈ ls.filter (Leaf.isOf typeId name) := hHits ▸ List.mem_filter.mpr ⟨hl', hIs⟩
    exact hNo l' (List.mem_filter.mp hIn).1 hIs
  absent := fun hNone => by
    have hEmpty : ls.filter (Leaf.isOf typeId name) = [] := List.filter_eq_nil_iff.mpr fun l hl => ne_true_of_eq_false (hNone l hl)
    rw [hHits, filter_eq_nil_iff] at hEmpty
    exact h.absent fun l hl => eq_false_of_ne_true (hEmpty l hl)

theorem findsLeaf_none {ls : List Leaf} (hEmpty : ls.filter (Leaf.isOf typeId name) = []) : FindsLeaf bytes root ls typeId name lang none :=
  .of_filter (show _ = List.filter (Leaf.isOf typeId name) [] from hEmpty) ⟨fun l _ hFind => (by cases hFind), fun l _ hFind => (by cases hFind), fun _ => rfl⟩

end Finding

/-! ## Both walks -/

variable {bytes root}

theorem leaf_type {type : ResourceName} {es : List DirEntry} : ∀ l ∈ nameLeaves bytes root type es, l.type = type := by
  intro l hl
  obtain ⟨n, -, hLeaf⟩ := List.mem_flatMap.mp hl
  obtain ⟨e, -, rfl⟩ := List.mem_map.mp hLeaf
  rfl

theorem filter_leaves (hDistinct : Distinct bytes root) (typeId : U32) (name : ResourceName) : (leaves bytes root).filter (Leaf.isOf typeId name) =
    (((dirsAt bytes root 0).find? fun t => nameOf bytes root t == .Id typeId).elim [] fun t =>
      ((dirsAt bytes root t.off).find? fun n => nameOf bytes root n == name).elim [] fun n =>
        langLeaves (.Id typeId) name (entriesAt bytes root n.off)).filter (Leaf.isOf typeId name) := by
  have hIs : ∀ l : Leaf, l.isOf typeId name = true → l.type = .Id typeId ∧ l.name = name := by
    intro l hl
    obtain ⟨hType, hName⟩ := Bool.and_eq_true_iff.mp hl
    exact ⟨eq_of_beq hType, eq_of_beq hName⟩
  have hTypes : (leaves bytes root).filter (Leaf.isOf typeId name) = _ :=
    Keyed.filter_flatMap (fun t _ => leaf_type) hDistinct.types fun l hl => (hIs l hl).1
  rw [hTypes]
  cases hType : (dirsAt bytes root 0).find? fun t => nameOf bytes root t == .Id typeId with
  | none => rfl
  | some t =>
    have hNames : (nameLeaves bytes root (.Id typeId) (entriesAt bytes root t.off)).filter (Leaf.isOf typeId name) = _ :=
      Keyed.filter_flatMap (fun n _ l hl => by
        obtain ⟨e, -, rfl⟩ := List.mem_map.mp hl
        rfl) (hDistinct.names t (mem_of_find?_eq_some hType)) fun l hl => (hIs l hl).2
    have hSame : nameOf bytes root t = .Id typeId := by simpa using find?_some hType
    rw [Option.elim_some, Option.elim_some, hSame, hNames]
    cases hName : (dirsAt bytes root t.off).find? fun n => nameOf bytes root n == name with
    | none => rfl
    | some n =>
      have hCalled : nameOf bytes root n = name := by simpa using find?_some hName
      rw [Option.elim_some, Option.elim_some, hCalled]

/-- Where the walk stays in the file and in the budget and names are distinct, the list is that of the leaves of the tree, and the
search finds the bytes of the leaf that the list has for a type, a name and a language. -/
theorem find_resource_in_tree (hTree : ∀ root ∈ resourceRoot bytes, Walks bytes root ∧ Distinct bytes root ∧ cost bytes root ≤ MAX_WALKED_DIR_ENTRIES)
    (typeId : U32) (name : ResourceName) (lang : U16) :
    (resourceRoot bytes = none ∧ listResources bytes = [] ∧ findResource bytes typeId name lang = none) ∨ ∃ root, resourceRoot bytes = some root ∧
      listResources bytes = (leaves bytes root).map Leaf.entry ∧
        FindsLeaf bytes root (leaves bytes root) typeId name lang (findResource bytes typeId name lang) := by
  cases hRoot : resourceRoot bytes with
  | none =>
    refine .inl ⟨rfl, ?_, ?_⟩
    · rw [listResources, hRoot]
    · rw [findResource, hRoot]
      rfl
  | some root =>
    obtain ⟨hWalks, hDistinct, hCost⟩ := hTree root hRoot
    have hTop : dirEntries bytes root.resBase MAX_WALKED_DIR_ENTRIES = _ :=
      dirEntries_of_readDir hWalks.top ((Nat.le_add_right _ _).trans hCost)
    have hRest : typeCost bytes root (entriesAt bytes root 0) ≤ MAX_WALKED_DIR_ENTRIES - (entriesAt bytes root 0).length := by
      rw [cost] at hCost
      omega
    refine .inr ⟨root, rfl, ?_, ?_⟩
    · rw [listResources, hRoot]
      dsimp only
      rw [hTop]
      exact congrArg Prod.fst (listTypes_eq hWalks.types hWalks.names hRest)
    · have hFind : findResource bytes typeId name lang = findType bytes root typeId name lang (entriesAt bytes root 0)
          (MAX_WALKED_DIR_ENTRIES - (entriesAt bytes root 0).length) := by
        rw [findResource, hRoot, Option.bind_eq_bind, Option.bind_some, hTop]
        rfl
      have hFilter := filter_leaves hDistinct typeId name
      rw [hFind, findType_eq (fun t ht => (hWalks.types t ht).1) hWalks.names hDistinct.types hRest]
      rw [dirsAt] at hFilter
      cases hType : ((entriesAt bytes root 0).filter DirEntry.isDir).find? fun t => nameOf bytes root t == .Id typeId with
      | none =>
        rw [hType] at hFilter
        exact findsLeaf_none hFilter
      | some t =>
        rw [hType, Option.elim_some] at hFilter
        rw [Option.bind_some]
        cases hName : (dirsAt bytes root t.off).find? fun n => nameOf bytes root n == name with
        | none =>
          rw [hName] at hFilter
          exact findsLeaf_none hFilter
        | some n =>
          rw [hName, Option.elim_some] at hFilter
          exact .of_filter hFilter (findsLeaf_langs typeId name lang _)

/-! ## A file with one resource -/

def oneEntry (name offset : U64) : List U8 := List.replicate 14 0 ++ [1, 0] ++ toLe 4 name ++ toLe 4 offset

def oneDialog (dataRva : U64) : List U8 :=
  List.replicate 10 0 ++ [1, 0] ++ List.replicate 12 0 ++ [0x74, 0, 0, 0, 0x0b, 1] ++ List.replicate 30 0 ++ toLe 4 4 ++ List.replicate 76 0 ++
    toLe 4 0x1000 ++ List.replicate 8 0 ++ toLe 4 0x100000 ++ toLe 4 0x1000 ++ toLe 4 0x58 ++ toLe 4 0xB8 ++ List.replicate 16 0 ++
    oneEntry 5 0x80000018 ++ oneEntry 100 0x80000030 ++ oneEntry 0x409 72 ++ toLe 4 dataRva ++ toLe 4 4 ++ [1, 2, 3, 4]

def dialogRoot : Root := ⟨0xB8, [(0x1000, 0x100000, 0xB8)]⟩

variable {rva : U64}

theorem oneDialog_read (h : rva = 0x1050 ∨ rva = 0x91000) : resourceRoot (oneDialog rva) = some dialogRoot ∧
    (dirsAt (oneDialog rva) dialogRoot 0 = [⟨5, 24, true⟩] ∧ dirsAt (oneDialog rva) dialogRoot 24 = [⟨100, 48, true⟩]) ∧
      (readDir (oneDialog rva) dialogRoot 0).isSome = true ∧ (readDir (oneDialog rva) dialogRoot 24).isSome = true ∧
        (readDir (oneDialog rva) dialogRoot 48).isSome = true ∧ cost (oneDialog rva) dialogRoot ≤ MAX_WALKED_DIR_ENTRIES := by
  rcases h with rfl | rfl <;> decide +kernel

theorem oneDialog_tree (h : rva = 0x1050 ∨ rva = 0x91000) : Walks (oneDialog rva) dialogRoot ∧ Distinct (oneDialog rva) dialogRoot ∧
    cost (oneDialog rva) dialogRoot ≤ MAX_WALKED_DIR_ENTRIES := by
  obtain ⟨-, ⟨hTypes, hNames⟩, hTop, hType, hName, hCost⟩ := oneDialog_read h
  refine ⟨⟨hTop, fun t ht => ?_, fun t ht n hn => ?_⟩, ⟨?_, fun t ht => ?_⟩, hCost⟩
  · rw [hTypes, mem_singleton] at ht
    subst ht
    exact ⟨hType, fun hNamed => absurd hNamed (by decide)⟩
  · rw [hTypes, mem_singleton] at ht
    subst ht
    rw [hNames, mem_singleton] at hn
    subst hn
    exact hName
  · rw [hTypes]
    exact nodup_singleton _
  · rw [hTypes, mem_singleton] at ht
    subst ht
    rw [hNames]
    exact nodup_singleton _

theorem oneDialog_found : findResource (oneDialog 0x1050) 5 (.Id 100) 0x409 = some [1, 2, 3, 4] := by
  have hRoot := (oneDialog_read (.inl rfl)).1
  rcases find_resource_in_tree (fun root hMem => Option.some.inj (hRoot.symm.trans hMem) ▸ oneDialog_tree (.inl rfl)) 5 (.Id 100) 0x409 with
    ⟨hNone, -, -⟩ | ⟨root, hSome, -, hFinds⟩
  · cases hRoot.symm.trans hNone
  · obtain rfl : dialogRoot = root := Option.some.inj (hRoot.symm.trans hSome)
    rw [hFinds.exact ⟨.Id 5, .Id 100, 0x409, 72⟩ (by decide) (by decide +kernel)]
    decide +kernel

/-- The address is in the section, but past the end of the file. -/
theorem past_end_not_found : ¬∀ (bytes : List U8) (typeId : U32) (name : ResourceName) (lang : U16) (root : Root), resourceRoot bytes = some root →
    Walks bytes root ∧ Distinct bytes root ∧ cost bytes root ≤ MAX_WALKED_DIR_ENTRIES → ∀ l ∈ leaves bytes root,
      l.isOf typeId name = true → l.lang = lang → ((u32 bytes (root.resBase + l.off)).bind (rva2off root.sections)).isSome = true →
        (findResource bytes typeId name lang).isSome = true := by
  intro hAll
  have hFound := hAll (oneDialog 0x91000) 5 (.Id 100) 0x409 dialogRoot (oneDialog_read (.inr rfl)).1 (oneDialog_tree (.inr rfl))
    ⟨.Id 5, .Id 100, 0x409, 72⟩ (by decide +kernel) (by decide) rfl (by decide +kernel)
  revert hFound
  decide +kernel

end Resources

end Exemu.Loader
