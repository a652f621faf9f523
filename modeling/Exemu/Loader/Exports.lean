import Exemu.Loader.Parse
import Exemu.Loader.Resolve

/-! # Names and ordinals of exports

The export directory has three tables: the functions, and for each name its text and the index of
its function.
-/
namespace Exemu.Loader

open List

open Path (Text)
open Walk

/-! ## Tables by index -/

section Indexed

variable {α β κ : Type} {f : Nat → Option α} {n : Nat}

theorem find?_filterMap_range {p : α → Bool} {a : α} :
    ((List.range n).filterMap f).find? p = some a ↔
      ∃ j < n, f j = some a ∧ p a = true ∧ ∀ k < j, ∀ b, f k = some b → p b = false := by
  induction n with
  | zero => simp
  | succ n ih =>
    rw [range_succ, filterMap_append, find?_append, Option.or_eq_some_iff, ih]
    constructor
    · rintro (⟨j, hj, hFound⟩ | ⟨hNone, hLast⟩)
      · exact ⟨j, Nat.lt_succ_of_lt hj, hFound⟩
      · have hPass := find?_some hLast
        have hMem := mem_of_find?_eq_some hLast
        obtain ⟨i, hi, hHere⟩ := List.mem_filterMap.mp hMem
        obtain rfl := List.mem_singleton.mp hi
        refine ⟨i, Nat.lt_succ_self i, hHere, hPass, fun k hk b hb => ?_⟩
        have hFails := List.find?_eq_none.mp hNone b (List.mem_filterMap.mpr ⟨k, List.mem_range.mpr hk, hb⟩)
        exact Bool.not_eq_true _ ▸ hFails
    · rintro ⟨j, hj, hGet, hPass, hBefore⟩
      rcases Nat.lt_succ_iff_lt_or_eq.mp hj with hj | rfl
      · exact .inl ⟨j, hj, hGet, hPass, hBefore⟩
      · refine .inr ⟨List.find?_eq_none.mpr fun b hb => ?_, ?_⟩
        · obtain ⟨k, hk, hb⟩ := List.mem_filterMap.mp hb
          rw [hBefore k (List.mem_range.mp hk) b hb]
          exact Bool.false_ne_true
        · rw [filterMap_cons_some hGet, find?_cons_of_pos hPass]

theorem lookup_reverse_range [DecidableEq κ] {f : Nat → Option (κ × α)} {k : κ} {a : α} :
    ((List.range n).filterMap f).reverse.lookup k = some a ↔
      ∃ i < n, f i = some (k, a) ∧ ∀ i', i < i' → i' < n → ∀ b, f i' ≠ some (k, b) := by
  induction n with
  | zero => simp
  | succ n ih =>
    rw [range_succ, filterMap_append, reverse_append]
    cases hLast : f n with
    | none =>
      rw [filterMap_cons_none hLast]
      refine ih.trans ⟨?_, ?_⟩
      · rintro ⟨i, hi, hGet, hAfter⟩
        refine ⟨i, Nat.lt_succ_of_lt hi, hGet, fun i' hi' hEnd b hb => ?_⟩
        rcases Nat.lt_succ_iff_lt_or_eq.mp hEnd with hEnd | rfl
        · exact hAfter i' hi' hEnd b hb
        · exact nomatch hLast.symm.trans hb
      · rintro ⟨i, hi, hGet, hAfter⟩
        have hNe : i ≠ n := by
          rintro rfl
          exact nomatch hLast.symm.trans hGet
        exact ⟨i, by omega, hGet, fun i' hi' hEnd => hAfter i' hi' (Nat.lt_succ_of_lt hEnd)⟩
    | some p =>
      obtain ⟨k', b⟩ := p
      rw [filterMap_cons_some hLast]
      by_cases hKey : k = k'
      · subst hKey
        simp only [filterMap_nil, reverse_cons, reverse_nil, nil_append, cons_append, lookup_cons_self]
        constructor
        · rintro ⟨⟩
          exact ⟨n, Nat.lt_succ_self n, hLast, fun i' hi' hEnd => by omega⟩
        · rintro ⟨i, hi, hGet, hAfter⟩
          rcases Nat.lt_succ_iff_lt_or_eq.mp hi with hi | rfl
          · exact absurd hLast (hAfter n hi (Nat.lt_succ_self n) b)
          · exact congrArg (fun q => q.map Prod.snd) (hLast.symm.trans hGet)
      · have hSkip : ([(k', b)].reverse ++ ((List.range n).filterMap f).reverse).lookup k = ((List.range n).filterMap f).reverse.lookup k := by
          rw [reverse_singleton, singleton_append, lookup_cons, beq_false_of_ne hKey]
        rw [filterMap_nil, hSkip]
        refine ih.trans ⟨?_, ?_⟩
        · rintro ⟨i, hi, hGet, hAfter⟩
          refine ⟨i, Nat.lt_succ_of_lt hi, hGet, fun i' hi' hEnd c hc => ?_⟩
          rcases Nat.lt_succ_iff_lt_or_eq.mp hEnd with hEnd | rfl
          · exact hAfter i' hi' hEnd c hc
          · cases hLast.symm.trans hc
            exact hKey rfl
        · rintro ⟨i, hi, hGet, hAfter⟩
          have hNe : i ≠ n := by
            rintro rfl
            cases hLast.symm.trans hGet
            exact hKey rfl
          exact ⟨i, by omega, hGet, fun i' hi' hEnd => hAfter i' hi' (Nat.lt_succ_of_lt hEnd)⟩

end Indexed

/-! ## The tables of a directory -/

structure ExportDirectory where
  ordinalBase : U32
  numFuncs : U32
  numNames : U32
  funcsRva : U32
  namesRva : U32
  ordsRva : U32
  namePtr : U32
  deriving DecidableEq, Repr

namespace ExportDirectory

def at? (sections : List Section) (dirRva : U32) : Option ExportDirectory := do
  let ordinalBase ← (sliceU32 sections (dirRva + 16)).toOption
  let numFuncs ← (sliceU32 sections (dirRva + 20)).toOption
  let numNames ← (sliceU32 sections (dirRva + 24)).toOption
  let funcsRva ← (sliceU32 sections (dirRva + 28)).toOption
  let namesRva ← (sliceU32 sections (dirRva + 32)).toOption
  let ordsRva ← (sliceU32 sections (dirRva + 36)).toOption
  let namePtr ← (sliceU32 sections (dirRva + 12)).toOption
  return ⟨ordinalBase, numFuncs, numNames, funcsRva, namesRva, ordsRva, namePtr⟩

variable (d : ExportDirectory) (sections : List Section)

def functionAt (j : Nat) : Option U32 :=
  if j < d.numFuncs.toNat then (sliceU32 sections (d.funcsRva + BitVec.ofNat 32 j * 4)).toOption else none

/-- An entry of the name table and of the ordinal table beside it. The name may have no text. -/
def entryAt (i : Nat) : Option (Option (U32 × Text)) := do
  let nameRva ← (sliceU32 sections (d.namesRva + BitVec.ofNat 32 i * 4)).toOption
  let ordIndex ← (sliceU16 sections (d.ordsRva + BitVec.ofNat 32 i * 2)).toOption
  return (cstrAtRva sections nameRva).toOption.map fun nm => (ordIndex.setWidth 32, nm)

def nameAt (i : Nat) : Option (U32 × Text) := if i < d.numNames.toNat then (d.entryAt sections i).join else none

def ordinalAt (j : Nat) : U16 := (d.ordinalBase + BitVec.ofNat 32 j).setWidth 16

def Readable : Prop :=
  (∀ i < d.numNames.toNat, (d.entryAt sections i).isSome = true) ∧ ∀ j < d.numFuncs.toNat, (d.functionAt sections j).isSome = true

def LastName (k : U32) (nm : Text) : Prop :=
  ∃ i, d.nameAt sections i = some (k, nm) ∧ ∀ i', i < i' → ∀ nm', d.nameAt sections i' ≠ some (k, nm')

def exportAt (dirRva dirSize : U32) (names : List (U32 × Text)) (j : Nat) : Option Export :=
  (d.functionAt sections j).bind fun rva =>
    if rva = 0 then none
    else some ⟨names.lookup (BitVec.ofNat 32 j), d.ordinalAt j, rva,
      if dirRva ≤ rva && rva < saturatingAdd32 dirRva dirSize then (cstrAtRva sections rva).toOption else none⟩

def names : List (U32 × Text) := ((List.range d.numNames.toNat).filterMap (d.nameAt sections)).reverse

end ExportDirectory

/-- `parse_exports(..).unwrap_or_default()` -/
def exportsOf (sections : List Section) (dirRva dirSize : U32) : List Export × Option Text :=
  ((parseExports dirRva dirSize).result (fileAnswer sections)).toOption.getD ([], none)

section Parsed

variable {α β : Type} {answer : (q : Read) → q.Answer}

theorem toOption_bind {ε : Type} (x : Except ε α) (f : α → Except ε β) : (x.bind f).toOption = x.toOption.bind fun a => (f a).toOption := by
  cases x with
  | error e => rfl
  | ok a => rfl

theorem toOption_ofResult (x : PeResult α) : (ofResult x).toOption = x.toOption := by
  cases x with
  | error e => rfl
  | ok a => rfl

theorem okOf_ofResult (x : PeResult α) : okOf (ofResult x) = .ok x.toOption := by
  cases x with
  | error e => rfl
  | ok a => rfl

theorem ofNat_succ (k : Nat) : (BitVec.ofNat 32 k + 1 : U32) = BitVec.ofNat 32 (k + 1) := (BitVec.ofNat_add k 1).symm

variable {body : U32 → β → Walk β} {f : Nat → Option α} {g : β → α → β}

theorem forFrom_some (hBody : ∀ k b, ((body (BitVec.ofNat 32 k) b).result answer).toOption = (f k).map (g b)) {n k : Nat} {b : β}
    (hAll : ∀ i < n, (f (k + i)).isSome = true) :
    ((forFrom body n (BitVec.ofNat 32 k) b).result answer).toOption = some (((List.range' k n).filterMap f).foldl g b) := by
  induction n generalizing k b with
  | zero => rfl
  | succ n ih =>
    obtain ⟨a, hHead⟩ := Option.isSome_iff_exists.mp (hAll 0 (Nat.succ_pos n))
    have hTail : ∀ i < n, (f (k + 1 + i)).isSome = true := by
      intro i hi
      have hLater := hAll (i + 1) (Nat.succ_lt_succ hi)
      rwa [show k + (i + 1) = k + 1 + i by omega] at hLater
    rw [Nat.add_zero] at hHead
    rw [forFrom, result_bind, toOption_bind, hBody, hHead, range'_succ, filterMap_cons_some hHead]
    show ((forFrom body n (BitVec.ofNat 32 k + 1) (g b a)).result answer).toOption = _
    rw [ofNat_succ]
    exact ih hTail

theorem forFrom_none (hBody : ∀ k b, ((body (BitVec.ofNat 32 k) b).result answer).toOption = (f k).map (g b)) {n k i : Nat} {b : β}
    (hi : i < n) (hNone : f (k + i) = none) : ((forFrom body n (BitVec.ofNat 32 k) b).result answer).toOption = none := by
  induction n generalizing k b i with
  | zero => omega
  | succ n ih =>
    rw [forFrom, result_bind, toOption_bind, hBody]
    cases hHead : f k with
    | none => rfl
    | some a =>
      cases i with
      | zero => exact nomatch hHead.symm.trans hNone
      | succ i =>
        show ((forFrom body n (BitVec.ofNat 32 k + 1) (g b a)).result answer).toOption = none
        rw [ofNat_succ]
        exact ih (Nat.lt_of_succ_lt_succ hi) (by rwa [show k + 1 + i = k + (i + 1) by omega])

end Parsed

namespace ExportDirectory

variable {d : ExportDirectory} {sections : List Section} {dirRva dirSize : U32}

def prepend (names : List (U32 × Text)) : Option (U32 × Text) → List (U32 × Text)
  | some p => p :: names
  | none => names

theorem foldl_prepend (f : Nat → Option (Option (U32 × Text))) (is : List Nat) (names : List (U32 × Text)) :
    (is.filterMap f).foldl prepend names = (is.filterMap fun i => (f i).join).reverse ++ names := by
  induction is generalizing names with
  | nil => rfl
  | cons i is ih =>
    rcases hGet : f i with _ | _ | p
    · rw [filterMap_cons_none hGet, filterMap_cons_none (by rw [hGet, Option.join_none]), ih]
    · rw [filterMap_cons_some hGet, filterMap_cons_none (by rw [hGet, Option.join_some]), foldl_cons, ih, prepend]
    · rw [filterMap_cons_some hGet, filterMap_cons_some (by rw [hGet, Option.join_some]), foldl_cons, ih, prepend,
        reverse_cons, append_assoc]
      rfl

theorem foldl_append (f : Nat → Option (Option Export)) (is : List Nat) (exports : List Export) :
    (is.filterMap f).foldl (fun es e => es ++ e.toList) exports = exports ++ is.filterMap fun i => (f i).join := by
  induction is generalizing exports with
  | nil => exact (append_nil exports).symm
  | cons i is ih =>
    rcases hGet : f i with _ | _ | e
    · rw [filterMap_cons_none hGet, filterMap_cons_none (by rw [hGet, Option.join_none]), ih]
    · rw [filterMap_cons_some hGet, filterMap_cons_none (by rw [hGet, Option.join_some]), foldl_cons, ih, Option.toList_none,
        append_nil]
    · rw [filterMap_cons_some hGet, filterMap_cons_some (by rw [hGet, Option.join_some]), foldl_cons, ih, Option.toList_some,
        append_assoc]
      rfl

theorem exportName_result (i : Nat) (names : List (U32 × Text)) :
    ((exportName d.namesRva d.ordsRva (BitVec.ofNat 32 i) names).result (fileAnswer sections)).toOption =
      (d.entryAt sections i).map (prepend names) := by
  simp only [exportName, entryAt, result_bind, toOption_bind, result_readU32, result_readU16, fileAnswer, toOption_ofResult,
    Option.bind_eq_bind]
  cases (sliceU32 sections (d.namesRva + BitVec.ofNat 32 i * 4)).toOption with
  | none => rfl
  | some nameRva =>
    cases (sliceU16 sections (d.ordsRva + BitVec.ofNat 32 i * 2)).toOption with
    | none => rfl
    | some ordIndex =>
      simp only [Option.bind_some, result_ok]
      show (okOf (ofResult (cstrAtRva sections nameRva))).toOption.bind _ = _
      rw [okOf_ofResult]
      cases cstrAtRva sections nameRva with
      | error e => rfl
      | ok nm => rfl

def exportStep (d : ExportDirectory) (sections : List Section) (dirRva dirSize : U32) (names : List (U32 × Text)) (j : Nat) :
    Option (Option Export) :=
  (sliceU32 sections (d.funcsRva + BitVec.ofNat 32 j * 4)).toOption.map fun rva =>
    if rva = 0 then none
    else some ⟨names.lookup (BitVec.ofNat 32 j), d.ordinalAt j, rva,
      if dirRva ≤ rva && rva < saturatingAdd32 dirRva dirSize then (cstrAtRva sections rva).toOption else none⟩

theorem exportEntry_result (names : List (U32 × Text)) (j : Nat) (exports : List Export) :
    ((exportEntry dirRva (saturatingAdd32 dirRva dirSize) d.funcsRva d.ordinalBase names (BitVec.ofNat 32 j) exports).result
      (fileAnswer sections)).toOption = (d.exportStep sections dirRva dirSize names j).map fun e => exports ++ e.toList := by
  simp only [exportEntry, exportStep, result_bind, toOption_bind, result_readU32, fileAnswer, toOption_ofResult]
  cases (sliceU32 sections (d.funcsRva + BitVec.ofNat 32 j * 4)).toOption with
  | none => rfl
  | some rva =>
    simp only [Option.bind_some, Option.map_some]
    by_cases hZero : rva = 0
    · rw [if_pos hZero, if_pos hZero, Option.toList_none, append_nil]
      rfl
    · rw [if_neg hZero, if_neg hZero]
      by_cases hForward : (dirRva ≤ rva && rva < saturatingAdd32 dirRva dirSize) = true
      · rw [if_pos hForward, if_pos hForward, result_bind, result_ok]
        show ((okOf (ofResult (cstrAtRva sections rva))).bind _).toOption = _
        rw [okOf_ofResult]
        rfl
      · rw [if_neg hForward, if_neg hForward]
        rfl

theorem parseExports_result (hDir : at? sections dirRva = some d) :
    ((parseExports dirRva dirSize).result (fileAnswer sections)).toOption.map Prod.fst =
      ((forFrom (exportName d.namesRva d.ordsRva) d.numNames.toNat 0 []).result (fileAnswer sections)).toOption.bind fun names =>
        ((forFrom (exportEntry dirRva (saturatingAdd32 dirRva dirSize) d.funcsRva d.ordinalBase names) d.numFuncs.toNat 0 []).result
          (fileAnswer sections)).toOption := by
  simp only [at?, Option.bind_eq_bind, Option.bind_eq_some_iff] at hDir
  obtain ⟨ordinalBase, hBase, numFuncs, hFuncs, numNames, hNames, funcsRva, hFuncsRva, namesRva, hNamesRva, ordsRva, hOrdsRva, namePtr,
    hNamePtr, hDir⟩ := hDir
  cases hDir
  simp only [parseExports, result_bind, toOption_bind, result_readU32, fileAnswer, toOption_ofResult, hBase, hFuncs, hNames, hFuncsRva,
    hNamesRva, hOrdsRva, hNamePtr, Option.bind_some]
  have hRest (dllName : Option Text) :
      (((do
          let names ← forFrom (exportName namesRva ordsRva) numNames.toNat 0 []
          let exports ← forFrom (exportEntry dirRva (saturatingAdd32 dirRva dirSize) funcsRva ordinalBase names) numFuncs.toNat 0 []
          return (exports, dllName)) : Walk (List Export × Option Text)).result (fileAnswer sections)).toOption.map Prod.fst =
        ((forFrom (exportName namesRva ordsRva) numNames.toNat 0 []).result (fileAnswer sections)).toOption.bind fun names =>
          ((forFrom (exportEntry dirRva (saturatingAdd32 dirRva dirSize) funcsRva ordinalBase names) numFuncs.toNat 0 []).result
            (fileAnswer sections)).toOption := by
    rw [result_bind, toOption_bind, Option.map_bind]
    refine congrArg _ (funext fun names => ?_)
    simp only [Function.comp, result_bind, toOption_bind, result_pure, Option.map_bind]
    cases ((forFrom (exportEntry dirRva (saturatingAdd32 dirRva dirSize) funcsRva ordinalBase names) numFuncs.toNat 0 []).result
      (fileAnswer sections)).toOption with
    | none => rfl
    | some exports => rfl
  by_cases hName : namePtr ≠ 0
  · rw [if_pos hName, result_bind, result_ok]
    show Option.map Prod.fst ((okOf (ofResult (cstrAtRva sections namePtr))).bind _).toOption = _
    rw [okOf_ofResult]
    exact hRest _
  · rw [if_neg hName, result_bind, result_pure]
    exact hRest none

variable {j : Nat} {rva : U32}

theorem exportStep_join (names : List (U32 × Text)) (hj : j < d.numFuncs.toNat) :
    (d.exportStep sections dirRva dirSize names j).join = d.exportAt sections dirRva dirSize names j := by
  rw [exportStep, exportAt, functionAt, if_pos hj]
  cases (sliceU32 sections (d.funcsRva + BitVec.ofNat 32 j * 4)).toOption with
  | none => rfl
  | some rva => rfl

theorem exportStep_isSome (names : List (U32 × Text)) (hj : j < d.numFuncs.toNat) :
    (d.exportStep sections dirRva dirSize names j).isSome = (d.functionAt sections j).isSome := by
  rw [exportStep, Option.isSome_map, functionAt, if_pos hj]

theorem names_some (hNames : ∀ i < d.numNames.toNat, (d.entryAt sections i).isSome = true) :
    ((forFrom (exportName d.namesRva d.ordsRva) d.numNames.toNat 0 []).result (fileAnswer sections)).toOption = some (d.names sections) := by
  refine (forFrom_some exportName_result (by simpa using hNames)).trans (congrArg some ?_)
  rw [foldl_prepend, append_nil, names, range_eq_range']
  refine congrArg List.reverse (filterMap_congr fun i hi => ?_)
  rw [nameAt, if_pos (by simpa using hi)]

theorem exportsOf_fst (sections : List Section) (dirRva dirSize : U32) :
    (exportsOf sections dirRva dirSize).1 = (((parseExports dirRva dirSize).result (fileAnswer sections)).toOption.map Prod.fst).getD [] := by
  rw [exportsOf]
  cases ((parseExports dirRva dirSize).result (fileAnswer sections)).toOption with
  | none => rfl
  | some p => rfl

theorem exportsOf_some (hDir : at? sections dirRva = some d) (hAll : d.Readable sections) :
    (exportsOf sections dirRva dirSize).1 =
      (List.range d.numFuncs.toNat).filterMap (d.exportAt sections dirRva dirSize (d.names sections)) := by
  rw [exportsOf_fst, parseExports_result hDir, names_some hAll.1, Option.bind_some]
  have hEach : ∀ j < d.numFuncs.toNat, (d.exportStep sections dirRva dirSize (d.names sections) (0 + j)).isSome = true := by
    intro j hj
    rw [Nat.zero_add, exportStep_isSome _ hj]
    exact hAll.2 j hj
  have hLoop := forFrom_some (exportEntry_result (d.names sections)) hEach (b := ([] : List Export))
  refine (congrArg (·.getD []) hLoop).trans ?_
  rw [Option.getD_some, foldl_append, nil_append, range_eq_range']
  exact filterMap_congr fun j hj => exportStep_join _ (by simpa using hj)

theorem exportsOf_none (hDir : at? sections dirRva = some d) (hNot : ¬d.Readable sections) : (exportsOf sections dirRva dirSize).1 = [] := by
  rw [exportsOf_fst, parseExports_result hDir]
  by_cases hNames : ∀ i < d.numNames.toNat, (d.entryAt sections i).isSome = true
  · have hFuncs : ¬∀ j < d.numFuncs.toNat, (d.functionAt sections j).isSome = true := fun h => hNot ⟨hNames, h⟩
    push Not at hFuncs
    obtain ⟨j, hj, hNone⟩ := hFuncs
    rw [names_some hNames, Option.bind_some]
    have hStep : d.exportStep sections dirRva dirSize (d.names sections) (0 + j) = none := by
      rw [Nat.zero_add, ← Option.not_isSome_iff_eq_none, exportStep_isSome _ hj]
      exact hNone
    exact congrArg (·.getD []) (forFrom_none (exportEntry_result _) hj hStep)
  · push Not at hNames
    obtain ⟨i, hi, hNone⟩ := hNames
    have hEntry : d.entryAt sections (0 + i) = none := by
      rw [Nat.zero_add, ← Option.not_isSome_iff_eq_none]
      exact hNone
    rw [show ((forFrom (exportName d.namesRva d.ordsRva) d.numNames.toNat 0 []).result (fileAnswer sections)).toOption = none from
      forFrom_none exportName_result hi hEntry]
    rfl

/-! ## What a symbol finds -/

theorem lookup_names {k : U32} {nm : Text} : (d.names sections).lookup k = some nm ↔ d.LastName sections k nm := by
  rw [names, lookup_reverse_range]
  have hEnd {i : Nat} {p : U32 × Text} (h : d.nameAt sections i = some p) : i < d.numNames.toNat := by
    by_contra hOut
    rw [nameAt, if_neg hOut] at h
    cases h
  constructor
  · rintro ⟨i, -, hGet, hAfter⟩
    exact ⟨i, hGet, fun i' hi' nm' h => hAfter i' hi' (hEnd h) nm' h⟩
  · rintro ⟨i, hGet, hAfter⟩
    exact ⟨i, hEnd hGet, hGet, fun i' hi' _ => hAfter i' hi'⟩

theorem functionAt_lt (h : d.functionAt sections j = some rva) : j < d.numFuncs.toNat := by
  by_contra hOut
  rw [functionAt, if_neg hOut] at h
  cases h

def Exported (d : ExportDirectory) (sections : List Section) (j : Nat) (rva : U32) : Prop := d.functionAt sections j = some rva ∧ rva ≠ 0

theorem exportAt_some {names : List (U32 × Text)} {e : Export} (h : d.exportAt sections dirRva dirSize names j = some e) :
    d.Exported sections j e.rva ∧ e.name = names.lookup (BitVec.ofNat 32 j) ∧ e.ordinal = d.ordinalAt j := by
  obtain ⟨rva, hFunc, h⟩ := Option.bind_eq_some_iff.mp h
  by_cases hZero : rva = 0
  · rw [if_pos hZero] at h
    cases h
  · rw [if_neg hZero] at h
    cases h
    exact ⟨⟨hFunc, hZero⟩, rfl, rfl⟩

theorem Exported.exportAt (h : d.Exported sections j rva) (dirRva dirSize : U32) (names : List (U32 × Text)) :
    ∃ e, d.exportAt sections dirRva dirSize names j = some e ∧ e.rva = rva := by
  rw [ExportDirectory.exportAt, h.1, Option.bind_some, if_neg h.2]
  exact ⟨_, rfl, rfl⟩

theorem findExport_iff (hDir : at? sections dirRva = some d) (hAll : d.Readable sections) {symbol : ImportSymbol} {e : Export} :
    findExport (exportsOf sections dirRva dirSize).1 symbol = some e ↔
      ∃ j, d.exportAt sections dirRva dirSize (d.names sections) j = some e ∧ e.Is symbol ∧
        ∀ k < j, ∀ e', d.exportAt sections dirRva dirSize (d.names sections) k = some e' → ¬e'.Is symbol := by
  rw [findExport, exportsOf_some hDir hAll, find?_filterMap_range]
  simp only [decide_eq_true_eq, decide_eq_false_iff_not]
  constructor
  · rintro ⟨j, -, h⟩
    exact ⟨j, h⟩
  · rintro ⟨j, hGet, h⟩
    exact ⟨j, functionAt_lt (exportAt_some hGet).1.1, hGet, h⟩

variable (d sections) in
/-- Each name of an exported function leads to it, and so does the ordinal of each. -/
structure Resolves (exports : List Export) : Prop where
  byName : ∀ i k nm rva, d.nameAt sections i = some (k, nm) → d.Exported sections k.toNat rva →
    ∃ e, findExport exports (.named nm) = some e ∧ e.rva = rva
  byOrdinal : ∀ j rva, d.Exported sections j rva → ∃ e, findExport exports (.ordinal (d.ordinalAt j)) = some e ∧ e.rva = rva

variable (d sections) in
/-- The name is the last one of an index with this function, and of no exported index before it. -/
def Keeps (nm : Text) (rva : U32) : Prop :=
  ∃ j, d.Exported sections j rva ∧ d.LastName sections (BitVec.ofNat 32 j) nm ∧
    ∀ k < j, ∀ rva', d.Exported sections k rva' → ¬d.LastName sections (BitVec.ofNat 32 k) nm

variable (d sections) in
def NamesKept : Prop := ∀ i k nm rva, d.nameAt sections i = some (k, nm) → d.Exported sections k.toNat rva → d.Keeps sections nm rva

variable (d sections) in
def OrdinalsApart : Prop :=
  ∀ j k rva rva', d.Exported sections j rva → d.Exported sections k rva' → j % 2 ^ 16 = k % 2 ^ 16 → rva = rva'

theorem ordinalAt_eq_iff {k : Nat} : d.ordinalAt j = d.ordinalAt k ↔ j % 2 ^ 16 = k % 2 ^ 16 := by
  rw [← BitVec.toNat_inj]
  simp only [ordinalAt, BitVec.toNat_setWidth, BitVec.toNat_add, BitVec.toNat_ofNat]
  omega

theorem findExport_named_iff (hDir : at? sections dirRva = some d) (hAll : d.Readable sections) {nm : Text} :
    (∃ e, findExport (exportsOf sections dirRva dirSize).1 (.named nm) = some e ∧ e.rva = rva) ↔ d.Keeps sections nm rva := by
  have hNamed {j : Nat} {e : Export} (h : d.exportAt sections dirRva dirSize (d.names sections) j = some e) :
      e.Is (.named nm) ↔ d.LastName sections (BitVec.ofNat 32 j) nm := by
    rw [← lookup_names, ← (exportAt_some h).2.1]
    rfl
  constructor
  · rintro ⟨e, hFound, rfl⟩
    obtain ⟨j, hGet, hIs, hFirst⟩ := (findExport_iff hDir hAll).mp hFound
    refine ⟨j, (exportAt_some hGet).1, (hNamed hGet).mp hIs, fun k hk rva' hExported hLast => ?_⟩
    obtain ⟨e', hGet', -⟩ := hExported.exportAt dirRva dirSize (d.names sections)
    exact hFirst k hk e' hGet' ((hNamed hGet').mpr hLast)
  · rintro ⟨j, hExported, hLast, hFirst⟩
    obtain ⟨e, hGet, hRva⟩ := hExported.exportAt dirRva dirSize (d.names sections)
    refine ⟨e, (findExport_iff hDir hAll).mpr ⟨j, hGet, (hNamed hGet).mpr hLast, fun k hk e' hGet' hIs => ?_⟩, hRva⟩
    exact hFirst k hk e'.rva (exportAt_some hGet').1 ((hNamed hGet').mp hIs)

theorem findExport_ordinal_iff (hDir : at? sections dirRva = some d) (hAll : d.Readable sections) :
    (∃ e, findExport (exportsOf sections dirRva dirSize).1 (.ordinal (d.ordinalAt j)) = some e ∧ e.rva = rva) ↔
      ∃ k, d.Exported sections k rva ∧ k % 2 ^ 16 = j % 2 ^ 16 ∧ ∀ k' < k, ∀ rva', d.Exported sections k' rva' → k' % 2 ^ 16 ≠ j % 2 ^ 16 := by
  have hOrdinal {k : Nat} {e : Export} (h : d.exportAt sections dirRva dirSize (d.names sections) k = some e) :
      e.Is (.ordinal (d.ordinalAt j)) ↔ k % 2 ^ 16 = j % 2 ^ 16 := by
    rw [← ordinalAt_eq_iff (d := d), ← (exportAt_some h).2.2]
    rfl
  constructor
  · rintro ⟨e, hFound, rfl⟩
    obtain ⟨k, hGet, hIs, hFirst⟩ := (findExport_iff hDir hAll).mp hFound
    refine ⟨k, (exportAt_some hGet).1, (hOrdinal hGet).mp hIs, fun k' hk' rva' hExported hSame => ?_⟩
    obtain ⟨e', hGet', -⟩ := hExported.exportAt dirRva dirSize (d.names sections)
    exact hFirst k' hk' e' hGet' ((hOrdinal hGet').mpr hSame)
  · rintro ⟨k, hExported, hSame, hFirst⟩
    obtain ⟨e, hGet, hRva⟩ := hExported.exportAt dirRva dirSize (d.names sections)
    refine ⟨e, (findExport_iff hDir hAll).mpr ⟨k, hGet, (hOrdinal hGet).mpr hSame, fun k' hk' e' hGet' hIs => ?_⟩, hRva⟩
    exact hFirst k' hk' e'.rva (exportAt_some hGet').1 ((hOrdinal hGet').mp hIs)

theorem byOrdinal_iff (hDir : at? sections dirRva = some d) (hAll : d.Readable sections) :
    (∀ j rva, d.Exported sections j rva →
      ∃ e, findExport (exportsOf sections dirRva dirSize).1 (.ordinal (d.ordinalAt j)) = some e ∧ e.rva = rva) ↔ d.OrdinalsApart sections := by
  simp only [findExport_ordinal_iff hDir hAll]
  constructor
  · intro h j k rva rva' hj hk hSame
    obtain ⟨a, ha, hAj, hAFirst⟩ := h j rva hj
    obtain ⟨b, hb, hBk, hBFirst⟩ := h k rva' hk
    -- Both lead to the first index of the class.
    obtain hLt | rfl | hLt := Nat.lt_trichotomy a b
    · exact absurd (hAj.trans hSame) (hBFirst a hLt rva ha)
    · exact Option.some.inj (ha.1.symm.trans hb.1)
    · exact absurd (hBk.trans hSame.symm) (hAFirst b hLt rva' hb)
  · intro h j rva hj
    classical
    have hSome : ∃ k, ∃ rva', d.Exported sections k rva' ∧ k % 2 ^ 16 = j % 2 ^ 16 := ⟨j, rva, hj, rfl⟩
    obtain ⟨rva', hExported, hSame⟩ := Nat.find_spec hSome
    obtain rfl := h _ j rva' rva hExported hj hSame
    exact ⟨Nat.find hSome, hExported, hSame, fun k' hk' rva'' hEarlier hAlso => Nat.find_min hSome hk' ⟨rva'', hEarlier, hAlso⟩⟩

/-- The list of a directory has each name and each ordinal exactly if all of it can be read, no name of an
exported function is lost to a later one or found at another function first, and no ordinal is met twice. -/
theorem resolves_iff (hDir : at? sections dirRva = some d) :
    d.Resolves sections (exportsOf sections dirRva dirSize).1 ↔
      (d.Readable sections ∨ ∀ j rva, ¬d.Exported sections j rva) ∧ d.NamesKept sections ∧ d.OrdinalsApart sections := by
  by_cases hAll : d.Readable sections
  · constructor
    · intro h
      exact ⟨.inl hAll, fun i k nm rva hName hExported => (findExport_named_iff hDir hAll).mp (h.byName i k nm rva hName hExported),
        (byOrdinal_iff hDir hAll).mp h.byOrdinal⟩
    · rintro ⟨-, hNames, hOrdinals⟩
      exact ⟨fun i k nm rva hName hExported => (findExport_named_iff hDir hAll).mpr (hNames i k nm rva hName hExported),
        (byOrdinal_iff hDir hAll).mpr hOrdinals⟩
  · have hNone : (exportsOf sections dirRva dirSize).1 = [] := exportsOf_none hDir hAll
    constructor
    · intro h
      have hNothing : ∀ j rva, ¬d.Exported sections j rva := by
        intro j rva hExported
        obtain ⟨e, hFound, -⟩ := h.byOrdinal j rva hExported
        rw [hNone] at hFound
        cases hFound
      exact ⟨.inr hNothing, fun i k nm rva _ hExported => absurd hExported (hNothing _ _), fun j k rva rva' hj => absurd hj (hNothing _ _)⟩
    · rintro ⟨hReadable | hNothing, -⟩
      · exact absurd hReadable hAll
      · exact ⟨fun i k nm rva _ hExported => absurd hExported (hNothing _ _), fun j rva hExported => absurd hExported (hNothing _ _)⟩

/-- One function and so many names for it, at `0x1000`. -/
def aliasTables (numNames : Nat) : List Section :=
  [{ name := [], rva := 0x1000, virtualSize := 60, readable := true, writable := false, executable := false
     data := zeros 16 ++ [1, 1, numNames, 0x1028, 0x102C, 0x1034, 0x2000, 0x1038, 0x103A, 0].flatMap le32 ++ [0x61, 0, 0x62, 0] }]

def aliasDirectory (numNames : Nat) : ExportDirectory := ⟨1, 1, BitVec.ofNat 32 numNames, 0x1028, 0x102C, 0x1034, 0⟩

/-- Of two names for one function the first is lost. -/
theorem alias_lost : at? (aliasTables 2) 0x1000 = some (aliasDirectory 2) ∧
    ¬(aliasDirectory 2).Resolves (aliasTables 2) (exportsOf (aliasTables 2) 0x1000 60).1 := by
  have hName : (aliasDirectory 2).nameAt (aliasTables 2) 0 = some (0, ['a']) := by decide
  have hExported : (aliasDirectory 2).Exported (aliasTables 2) (0 : U32).toNat 0x2000 := by
    unfold Exported
    decide
  refine ⟨by decide, fun h => ?_⟩
  obtain ⟨e, hFound, -⟩ := h.byName 0 0 ['a'] 0x2000 hName hExported
  have hNone : findExport (exportsOf (aliasTables 2) 0x1000 60).1 (.named ['a']) = none := by decide
  exact nomatch hNone.symm.trans hFound

theorem resolves_of_one_name : (aliasDirectory 1).Resolves (aliasTables 1) (exportsOf (aliasTables 1) 0x1000 60).1 := by
  have hFirst : (aliasDirectory 1).nameAt (aliasTables 1) 0 = some (0, ['a']) := by decide
  have hOnly {i : Nat} {p : U32 × Text} (h : (aliasDirectory 1).nameAt (aliasTables 1) i = some p) : i = 0 := by
    by_contra hi
    rw [nameAt, if_neg (by rw [aliasDirectory]; simpa using hi)] at h
    cases h
  have hFunction {j : Nat} {rva : U32} (h : (aliasDirectory 1).Exported (aliasTables 1) j rva) : j = 0 := by
    have hj : j < (1 : U32).toNat := functionAt_lt h.1
    exact Nat.lt_one_iff.mp hj
  refine (resolves_iff (by decide)).mpr ⟨.inl ?_, fun i k nm rva hName hExported => ?_, fun j k rva rva' hj hk _ => ?_⟩
  · unfold Readable
    decide
  · obtain rfl := hOnly hName
    cases hFirst.symm.trans hName
    exact ⟨0, hExported, ⟨0, hName, fun i' hi' nm' h => absurd (hOnly h) (Nat.ne_of_gt hi')⟩, fun k hk => absurd hk (Nat.not_lt_zero k)⟩
  · obtain rfl := hFunction hj
    obtain rfl := hFunction hk
    exact Option.some.inj (hj.1.symm.trans hk.1)

end ExportDirectory

end Exemu.Loader
