import Exemu.Core.Debug
import Exemu.Library.Bloom

/-! # Breakpoints and watchpoints

What is armed after a history of calls, and what the two queries find of it.
-/
namespace Exemu

open BitVec List

open Bloom

inductive Arming
  | armBreak (addr : U64)
  | disarmBreak (addr : U64)
  | armWatch (base len : U64) (kind : WatchKind)
  | disarmWatch (base : U64)

namespace Arming

def run (d : DebugControl) : Arming → DebugControl
  | .armBreak addr => d.armBreak addr
  | .disarmBreak addr => d.disarmBreak addr
  | .armWatch base len kind => d.armWatch base len kind
  | .disarmWatch base => d.disarmWatch base

def history (attached : Bool) (calls : List Arming) : DebugControl := calls.foldl run { attached := attached }

/-! ## What is armed -/

def breaks (s : Set U64) : Arming → Set U64
  | .armBreak addr => insert addr s
  | .disarmBreak addr => {a | a ∈ s ∧ a ≠ addr}
  | .armWatch _ _ _ => s
  | .disarmWatch _ => s

def watches (s : Set Watchpoint) : Arming → Set Watchpoint
  | .armBreak _ => s
  | .disarmBreak _ => s
  | .armWatch base len kind => {w | w ∈ s ∨ (len ≠ 0 ∧ w = ⟨base, len, kind⟩)}
  | .disarmWatch base => {w | w ∈ s ∧ w.base ≠ base}

def armedBreaks (attached : Bool) (calls : List Arming) : Set U64 := if attached then calls.foldl breaks ∅ else ∅

def armedWatches (attached : Bool) (calls : List Arming) : Set Watchpoint := if attached then calls.foldl watches ∅ else ∅

end Arming

def InRange (base len byte : U64) : Prop := base.toNat ≤ byte.toNat ∧ byte.toNat < base.toNat + len.toNat

def WatchedAt (armed : Set Watchpoint) (addr len : U64) (kind : WatchKind) (byte : U64) : Prop :=
  ∃ w ∈ armed, w.kind.covers kind = true ∧ InRange w.base w.len byte ∧ InRange addr len byte

/-! ## Pages -/

section Pages

variable {a b base len addr : U64} {w : Watchpoint}

theorem toNat_satAdd (a b : U64) : (satAdd a b).toNat = min (a.toNat + b.toNat) (2 ^ 64 - 1) := by
  rw [satAdd, toNat_ofNat, Nat.mod_eq_of_lt (by omega)]

theorem mem_pagesUpTo {first last p : U64} (h : first.toNat ≤ p.toNat) (h' : p.toNat ≤ last.toNat) : p ∈ pagesUpTo first last := by
  unfold pagesUpTo
  refine List.mem_map.mpr ⟨p.toNat - first.toNat, List.mem_range.mpr (by omega), ?_⟩
  apply eq_of_toNat_eq
  have hLess := p.isLt
  rw [toNat_add, toNat_ofNat, Nat.mod_eq_of_lt (by omega), Nat.mod_eq_of_lt (by omega)]
  omega

def lastByte (base len : U64) : U64 := satAdd base (len - 1)

theorem toNat_lastByte (hLen : len ≠ 0) : (lastByte base len).toNat = min (base.toNat + (len.toNat - 1)) (2 ^ 64 - 1) := by
  have hPos : 1 ≤ len.toNat := Nat.pos_of_ne_zero fun h => hLen (eq_of_toNat_eq h)
  have hLess : (len - 1).toNat = len.toNat - 1 := toNat_sub_of_le (BitVec.le_def.mpr hPos)
  rw [lastByte, toNat_satAdd, hLess]

theorem page_mem (hLen : len ≠ 0) (h : InRange base len b) :
    b >>> WATCH_PAGE_SHIFT ∈ pagesUpTo (base >>> WATCH_PAGE_SHIFT) (lastByte base len >>> WATCH_PAGE_SHIFT) := by
  have hLess := b.isLt
  obtain ⟨hLow, hHigh⟩ := h
  have hPage : ∀ a : U64, (a >>> WATCH_PAGE_SHIFT).toNat = a.toNat / 2 ^ 12 := fun a => by
    rw [toNat_ushiftRight, Nat.shiftRight_eq_div_pow, WATCH_PAGE_SHIFT]
  refine mem_pagesUpTo ?_ ?_
  · rw [hPage, hPage]
    exact Nat.div_le_div_right hLow
  · rw [hPage, hPage, toNat_lastByte hLen]
    exact Nat.div_le_div_right (by omega)

theorem hits_watchBits (hLen : w.len ≠ 0) (h : InRange w.base w.len b) : Hits (watchBits w) (bloomBits (b >>> WATCH_PAGE_SHIFT)) := by
  unfold watchBits
  dsimp only
  split
  · exact hits_allOnes _
  · exact hits_union (page_mem hLen h)

theorem accessMayHit_of_hits {filter : U64} (hLen : len ≠ 0) (h : InRange addr len b) (hHits : Hits filter (bloomBits (b >>> WATCH_PAGE_SHIFT))) :
    accessMayHit filter addr len = true := by
  unfold accessMayHit
  dsimp only
  split
  · rfl
  · exact List.any_eq_true.mpr ⟨_, page_mem hLen h, beq_iff_eq.mpr hHits⟩

theorem bloomBits_ne_zero (key : U64) : bloomBits key ≠ 0 := by
  intro hZero
  have hBit := congrArg (fun v : U64 => v.getLsbD (mix64 key &&& 63).toNat) hZero
  have hPlace : (mix64 key &&& 63).toNat < 64 := by
    rw [toNat_and]
    exact lt_of_le_of_lt Nat.and_le_right (by decide)
  have hSet : (BitVec.ofNat 64 (1 <<< (mix64 key &&& 63).toNat)).getLsbD (mix64 key &&& 63).toNat = true := by
    rw [getLsbD_ofNat, decide_eq_true hPlace, Bool.true_and, Nat.testBit_shiftLeft, Nat.sub_self]
    simp
  unfold bloomBits at hBit
  dsimp only at hBit
  rw [getLsbD_or, natCast_eq_ofNat, hSet, Bool.true_or] at hBit
  cases hBit.trans getLsbD_zero

theorem overlaps_iff (hWatch : w.len ≠ 0) : w.overlaps addr len = true ↔ ∃ b : U64, b ≠ BitVec.allOnes 64 ∧ InRange w.base w.len b ∧ InRange addr len b := by
  have hTop : ∀ b : U64, b ≠ BitVec.allOnes 64 ↔ b.toNat < 2 ^ 64 - 1 := fun b => by
    have hLess := b.isLt
    rw [Ne, ← toNat_inj, toNat_allOnes]
    omega
  have hPos : ∀ v : U64, v ≠ 0 → 0 < v.toNat := fun v h => Nat.pos_of_ne_zero fun hZero => h (eq_of_toNat_eq hZero)
  unfold Watchpoint.overlaps
  split
  · rename_i hLen
    subst hLen
    refine ⟨fun h => (by cases h), ?_⟩
    rintro ⟨b, -, -, hHere⟩
    exact absurd hHere.2 (not_lt.mpr hHere.1)
  · rename_i hLen
    have hAccess := hPos len hLen
    have hRange := hPos w.len hWatch
    rw [Bool.and_eq_true, decide_eq_true_iff, decide_eq_true_iff, lt_def, lt_def, toNat_satAdd, toNat_satAdd, lt_min_iff, lt_min_iff]
    constructor
    · rintro ⟨hFirst, hSecond⟩
      rcases le_total w.base.toNat addr.toNat with hOrder | hOrder
      · exact ⟨addr, (hTop addr).mpr (by omega), ⟨hOrder, by omega⟩, le_refl _, by omega⟩
      · exact ⟨w.base, (hTop w.base).mpr (by omega), ⟨le_refl _, by omega⟩, hOrder, by omega⟩
    · rintro ⟨b, hBelow, ⟨hLow, hHigh⟩, hLow', hHigh'⟩
      have hLess := (hTop b).mp hBelow
      omega

end Pages

namespace DebugControl

variable {d : DebugControl} {addr len a : U64} {kind : WatchKind}

/-- The lists are in order, and the filters are those of the lists. -/
structure Kept (d : DebugControl) : Prop where
  bp : d.bpFilter = union bloomBits d.breakpoints
  wp : d.wpFilter = union watchBits d.watchpoints
  sorted : d.breakpoints.Pairwise (· < ·)
  some : ∀ w ∈ d.watchpoints, w.len ≠ 0

theorem isBreak_iff (hKept : Kept d) (hAttached : d.attached = true) : d.isBreak a = true ↔ a ∈ d.breakpoints := by
  unfold isBreak
  rw [hAttached, Bool.not_true, if_neg Bool.false_ne_true]
  split
  · rename_i hMiss
    refine ⟨fun h => (by cases h), fun hMem => absurd ?_ (bne_iff_ne.mp hMiss)⟩
    rw [hKept.bp]
    exact hits_union hMem
  · exact contains_iff_mem

theorem isWatched_iff (hKept : Kept d) (hAttached : d.attached = true) :
    d.isWatched addr len kind = true ↔ ∃ w ∈ d.watchpoints, w.kind.covers kind = true ∧ w.overlaps addr len = true := by
  have hAny : (d.watchpoints.any fun w => w.kind.covers kind && w.overlaps addr len) = true ↔
      ∃ w ∈ d.watchpoints, w.kind.covers kind = true ∧ w.overlaps addr len = true := by
    simp only [any_eq_true, Bool.and_eq_true]
  -- what overlaps shares a byte, and the page of this byte is in both filters
  have hFilters : (∃ w ∈ d.watchpoints, w.kind.covers kind = true ∧ w.overlaps addr len = true) →
      len ≠ 0 ∧ d.wpFilter ≠ 0 ∧ accessMayHit d.wpFilter addr len = true := by
    rintro ⟨w, hMem, -, hOverlaps⟩
    obtain ⟨b, -, hHere, hThere⟩ := (overlaps_iff (hKept.some w hMem)).mp hOverlaps
    have hLen : len ≠ 0 := by
      rintro rfl
      exact absurd hThere.2 (not_lt.mpr hThere.1)
    have hHits : Hits d.wpFilter (bloomBits (b >>> WATCH_PAGE_SHIFT)) :=
      hits_trans (hKept.wp ▸ hits_union hMem) (hits_watchBits (hKept.some w hMem) hHere)
    exact ⟨hLen, ne_zero_of_hits hHits (bloomBits_ne_zero _), accessMayHit_of_hits hLen hThere hHits⟩
  unfold isWatched
  rw [hAttached]
  split
  · rename_i hEmpty
    refine ⟨fun h => (by cases h), fun hSome => absurd hEmpty ?_⟩
    simpa using (hFilters hSome).1
  split
  · rename_i hMiss
    refine ⟨fun h => (by cases h), fun hSome => absurd hMiss ?_⟩
    obtain ⟨-, hFilter, hMay⟩ := hFilters hSome
    rw [hMay, Bool.not_true, Bool.or_false, beq_iff_eq]
    exact hFilter
  · exact hAny

/-! ## Histories -/

theorem attached_mutate (f : List U64 × List Watchpoint → Option (List U64 × List Watchpoint)) : (d.mutate f).attached = d.attached := by
  unfold mutate
  split
  · rfl
  · split <;> rfl

variable {f : List U64 × List Watchpoint → Option (List U64 × List Watchpoint)} {l : List U64} {bps : Set U64} {wps : Set Watchpoint}

theorem kept_mutate (hKept : Kept d) (hf : ∀ l, f (d.breakpoints, d.watchpoints) = Option.some l → l.1.Pairwise (· < ·) ∧ ∀ w ∈ l.2, w.len ≠ 0) :
    Kept (d.mutate f) := by
  unfold mutate
  split
  · exact hKept
  · split
    · exact hKept
    · rename_i bps wps hChange
      obtain ⟨hSorted, hSome⟩ := hf _ hChange
      exact ⟨rfl, rfl, hSorted, hSome⟩

theorem le_of_mem_dropWhile (hSorted : l.Pairwise (· < ·)) : ∀ x ∈ l.dropWhile (· < a), a ≤ x := by
  induction l with
  | nil => exact fun x hx => absurd hx not_mem_nil
  | cons y l ih =>
    obtain ⟨hHead, hTail⟩ := List.pairwise_cons.mp hSorted
    rw [dropWhile_cons]
    split
    · exact ih hTail
    · rename_i hStop
      have hFirst : a ≤ y := BitVec.not_lt.mp fun h => hStop (decide_eq_true h)
      refine List.forall_mem_cons.mpr ⟨hFirst, fun x hx => ?_⟩
      exact BitVec.le_def.mpr (le_trans (BitVec.le_def.mp hFirst) (le_of_lt (BitVec.lt_def.mp (hHead x hx))))

theorem insert_sorted (hSorted : l.Pairwise (· < ·)) (hNew : a ∉ l) : (l.takeWhile (· < a) ++ a :: l.dropWhile (· < a)).Pairwise (· < ·) := by
  have hBelow : ∀ x ∈ l.takeWhile (· < a), x < a := fun x hx => of_decide_eq_true (List.all_eq_true.mp all_takeWhile x hx)
  have hAbove : ∀ x ∈ l.dropWhile (· < a), a < x := fun x hx => by
    have hFrom := BitVec.le_def.mp (le_of_mem_dropWhile hSorted x hx)
    have hOther : a.toNat ≠ x.toNat := fun h => hNew (eq_of_toNat_eq h ▸ (dropWhile_sublist _).subset hx)
    exact BitVec.lt_def.mpr (lt_of_le_of_ne hFrom hOther)
  refine List.pairwise_append.mpr ⟨hSorted.sublist (takeWhile_sublist _), ?_, fun x hx => ?_⟩
  · exact List.pairwise_cons.mpr ⟨hAbove, hSorted.sublist (dropWhile_sublist _)⟩
  · exact List.forall_mem_cons.mpr ⟨hBelow x hx, fun y hy => BitVec.lt_trans (hBelow x hx) (hAbove y hy)⟩

theorem mem_insert {x : U64} : x ∈ l.takeWhile (· < a) ++ a :: l.dropWhile (· < a) ↔ x = a ∨ x ∈ l := by
  conv_rhs => rw [← takeWhile_append_dropWhile (p := fun x => decide (x < a)) (l := l)]
  rw [mem_append, mem_cons, mem_append]
  exact or_left_comm

theorem kept_run (hKept : Kept d) (call : Arming) : Kept (call.run d) := by
  cases call with
  | armBreak addr =>
    unfold Arming.run armBreak
    refine kept_mutate hKept fun l hChange => ?_
    dsimp only at hChange
    split at hChange
    · cases hChange
    · rename_i hNew
      cases hChange
      exact ⟨insert_sorted hKept.sorted fun h => hNew (List.contains_iff_mem.mpr h), hKept.some⟩
  | disarmBreak addr =>
    unfold Arming.run disarmBreak
    refine kept_mutate hKept fun l hChange => ?_
    dsimp only at hChange
    split at hChange
    · cases hChange
      exact ⟨hKept.sorted.sublist erase_sublist, hKept.some⟩
    · cases hChange
  | armWatch base len kind =>
    unfold Arming.run armWatch
    dsimp only
    split
    · exact hKept
    · rename_i hLen
      refine kept_mutate hKept fun l hChange => ?_
      cases hChange
      exact ⟨hKept.sorted, List.forall_mem_append.mpr ⟨hKept.some, List.forall_mem_singleton.mpr hLen⟩⟩
  | disarmWatch base =>
    unfold Arming.run disarmWatch
    refine kept_mutate hKept fun l hChange => ?_
    dsimp only at hChange
    split at hChange
    · cases hChange
      exact ⟨hKept.sorted, fun w hw => hKept.some w (List.mem_filter.mp hw).1⟩
    · cases hChange

theorem mutate_lists (hAttached : d.attached = true) :
    ((d.mutate f).breakpoints, (d.mutate f).watchpoints) = (f (d.breakpoints, d.watchpoints)).getD (d.breakpoints, d.watchpoints) := by
  unfold mutate
  rw [hAttached, Bool.not_true, if_neg Bool.false_ne_true]
  cases f (d.breakpoints, d.watchpoints) with
  | none => rfl
  | some l => rfl

structure Holds (d : DebugControl) (bps : Set U64) (wps : Set Watchpoint) : Prop where
  bps : ∀ a, a ∈ d.breakpoints ↔ a ∈ bps
  wps : ∀ w, w ∈ d.watchpoints ↔ w ∈ wps

theorem holds_mutate {l : List U64 × List Watchpoint} (hAttached : d.attached = true)
    (hChange : (f (d.breakpoints, d.watchpoints)).getD (d.breakpoints, d.watchpoints) = l) (hBps : ∀ a, a ∈ l.1 ↔ a ∈ bps) (hWps : ∀ w, w ∈ l.2 ↔ w ∈ wps) :
    Holds (d.mutate f) bps wps := by
  have hLists := (mutate_lists hAttached).trans hChange
  refine ⟨fun a => ?_, fun w => ?_⟩
  · rw [← hBps, ← hLists]
  · rw [← hWps, ← hLists]

theorem holds_run (hKept : Kept d) (hAttached : d.attached = true) (hHolds : Holds d bps wps) (call : Arming) :
    Holds (call.run d) (Arming.breaks bps call) (Arming.watches wps call) := by
  cases call with
  | armBreak addr =>
    have hSet : ∀ a, a ∈ Arming.breaks bps (.armBreak addr) ↔ a = addr ∨ a ∈ d.breakpoints := fun a => or_congr_right (hHolds.bps a).symm
    unfold Arming.run armBreak
    by_cases hIn : d.breakpoints.contains addr = true
    · refine holds_mutate hAttached (congrArg (fun o => Option.getD o _) (if_pos hIn)) (fun a => ?_) hHolds.wps
      rw [hSet, Option.getD_none]
      exact ⟨.inr, fun h => h.elim (fun h => h ▸ List.contains_iff_mem.mp hIn) id⟩
    · refine holds_mutate hAttached (congrArg (fun o => Option.getD o _) (if_neg hIn)) (fun a => ?_) hHolds.wps
      rw [hSet]
      exact mem_insert
  | disarmBreak addr =>
    have hSet : ∀ a, a ∈ Arming.breaks bps (.disarmBreak addr) ↔ a ∈ d.breakpoints ∧ a ≠ addr := fun a => and_congr_left' (hHolds.bps a).symm
    unfold Arming.run disarmBreak
    by_cases hIn : d.breakpoints.contains addr = true
    · refine holds_mutate hAttached (congrArg (fun o => Option.getD o _) (if_pos hIn)) (fun a => ?_) hHolds.wps
      have hNodup : d.breakpoints.Nodup := hKept.sorted.imp fun hLess hSame => by
        rw [hSame] at hLess
        exact BitVec.lt_irrefl _ hLess
      rw [hSet, Option.getD_some, hNodup.mem_erase_iff]
      exact and_comm
    · refine holds_mutate hAttached (congrArg (fun o => Option.getD o _) (if_neg hIn)) (fun a => ?_) hHolds.wps
      rw [hSet, Option.getD_none]
      exact ⟨fun h => ⟨h, fun hSame => hIn (List.contains_iff_mem.mpr (hSame ▸ h))⟩, And.left⟩
  | armWatch base len kind =>
    have hSet : ∀ w, w ∈ Arming.watches wps (.armWatch base len kind) ↔ w ∈ d.watchpoints ∨ (len ≠ 0 ∧ w = ⟨base, len, kind⟩) := fun w =>
      or_congr_left (hHolds.wps w).symm
    unfold Arming.run armWatch
    dsimp only
    split
    · rename_i hLen
      exact ⟨hHolds.bps, fun w => by rw [hSet]; exact ⟨.inl, fun h => h.elim id fun hNone => absurd hLen hNone.1⟩⟩
    · rename_i hLen
      refine holds_mutate hAttached rfl hHolds.bps fun w => ?_
      rw [hSet, Option.getD_some, mem_append, mem_singleton]
      exact or_congr_right (and_iff_right hLen).symm
  | disarmWatch base =>
    have hSet : ∀ w, w ∈ Arming.watches wps (.disarmWatch base) ↔ w ∈ d.watchpoints ∧ w.base ≠ base := fun w => and_congr_left' (hHolds.wps w).symm
    unfold Arming.run disarmWatch
    by_cases hFewer : ((d.watchpoints.filter fun w => w.base != base).length != d.watchpoints.length) = true
    · refine holds_mutate hAttached (congrArg (fun o => Option.getD o _) (if_pos hFewer)) hHolds.bps fun w => ?_
      rw [hSet, Option.getD_some, mem_filter, bne_iff_ne]
    · refine holds_mutate hAttached (congrArg (fun o => Option.getD o _) (if_neg hFewer)) hHolds.bps fun w => ?_
      -- nothing has been left out, so no watchpoint begins there
      have hAll := List.length_filter_eq_length_iff.mp (not_not.mp fun h => hFewer (bne_iff_ne.mpr h))
      rw [hSet, Option.getD_none]
      exact ⟨fun h => ⟨h, bne_iff_ne.mp (hAll w h)⟩, And.left⟩

theorem attached_run (call : Arming) : (call.run d).attached = d.attached := by
  cases call with
  | armBreak addr => exact attached_mutate _
  | disarmBreak addr => exact attached_mutate _
  | armWatch base len kind =>
    unfold Arming.run armWatch
    dsimp only
    split
    · rfl
    · exact attached_mutate _
  | disarmWatch base => exact attached_mutate _

theorem history_holds (calls : List Arming) (hKept : Kept d) (hAttached : d.attached = true) (hHolds : Holds d bps wps) :
    Kept (calls.foldl Arming.run d) ∧ (calls.foldl Arming.run d).attached = true ∧
      Holds (calls.foldl Arming.run d) (calls.foldl Arming.breaks bps) (calls.foldl Arming.watches wps) := by
  induction calls generalizing d bps wps with
  | nil => exact ⟨hKept, hAttached, hHolds⟩
  | cons call calls ih => exact ih (kept_run hKept call) ((attached_run call).trans hAttached) (holds_run hKept hAttached hHolds call)

theorem attached_history (attached : Bool) (calls : List Arming) : (Arming.history attached calls).attached = attached := by
  have hAll : ∀ (calls : List Arming) (d : DebugControl), (calls.foldl Arming.run d).attached = d.attached := fun calls => by
    induction calls with
    | nil => exact fun d => rfl
    | cons call calls ih => exact fun d => (ih (call.run d)).trans (attached_run call)
  exact hAll calls _

section Results

variable {calls : List Arming} {attached : Bool}

theorem history_attached (calls : List Arming) : Kept (Arming.history true calls) ∧
    Holds (Arming.history true calls) (calls.foldl Arming.breaks ∅) (calls.foldl Arming.watches ∅) := by
  have hStart : Kept { attached := true } := ⟨rfl, rfl, List.Pairwise.nil, fun w h => absurd h not_mem_nil⟩
  have hEmpty : Holds { attached := true } ∅ ∅ := ⟨fun a => ⟨fun h => absurd h not_mem_nil, fun h => absurd h (Set.notMem_empty a)⟩,
    fun w => ⟨fun h => absurd h not_mem_nil, fun h => absurd h (Set.notMem_empty w)⟩⟩
  obtain ⟨hKept, -, hHolds⟩ := history_holds calls hStart rfl hEmpty
  exact ⟨hKept, hHolds⟩

theorem isBreak_history : (Arming.history attached calls).isBreak a = true ↔ a ∈ Arming.armedBreaks attached calls := by
  cases attached with
  | false =>
    unfold isBreak
    rw [attached_history]
    exact ⟨fun h => (by cases h), fun h => absurd h (Set.notMem_empty a)⟩
  | true =>
    obtain ⟨hKept, hHolds⟩ := history_attached calls
    exact (isBreak_iff hKept (attached_history true calls)).trans (hHolds.bps a)

theorem isWatched_history : (Arming.history attached calls).isWatched addr len kind = true ↔
    ∃ b : U64, b ≠ BitVec.allOnes 64 ∧ WatchedAt (Arming.armedWatches attached calls) addr len kind b := by
  cases attached with
  | false =>
    unfold isWatched
    rw [attached_history]
    refine ⟨fun h => (by cases h), ?_⟩
    rintro ⟨b, -, w, hArmed, -⟩
    exact absurd hArmed (Set.notMem_empty w)
  | true =>
    obtain ⟨hKept, hHolds⟩ := history_attached calls
    rw [isWatched_iff hKept (attached_history true calls)]
    constructor
    · rintro ⟨w, hMem, hKind, hOverlaps⟩
      obtain ⟨b, hBelow, hHere, hThere⟩ := (overlaps_iff (hKept.some w hMem)).mp hOverlaps
      exact ⟨b, hBelow, w, (hHolds.wps w).mp hMem, hKind, hHere, hThere⟩
    · rintro ⟨b, hBelow, w, hArmed, hKind, hHere, hThere⟩
      have hMem := (hHolds.wps w).mpr hArmed
      exact ⟨w, hMem, hKind, (overlaps_iff (hKept.some w hMem)).mpr ⟨b, hBelow, hHere, hThere⟩⟩

/-- An access is watched if it has a byte in common with a watchpoint, and a breakpoint is hit
where one is. -/
def Meets (attached : Bool) (calls : List Arming) (addr len : U64) (kind : WatchKind) (a : U64) : Prop :=
  ((Arming.history attached calls).isWatched addr len kind = true ↔ ∃ b, WatchedAt (Arming.armedWatches attached calls) addr len kind b) ∧
    ((Arming.history attached calls).isBreak a = true ↔ a ∈ Arming.armedBreaks attached calls)

def Fine (attached : Bool) (calls : List Arming) (addr len : U64) (kind : WatchKind) : Prop :=
  WatchedAt (Arming.armedWatches attached calls) addr len kind (BitVec.allOnes 64) →
    ∃ b : U64, b ≠ BitVec.allOnes 64 ∧ WatchedAt (Arming.armedWatches attached calls) addr len kind b

/-- After every history the queries are right, but for accesses that only meet a watchpoint in
the last byte of the address space. -/
theorem queries_meet_iff (attached : Bool) (calls : List Arming) (addr len : U64) (kind : WatchKind) (a : U64) :
    Meets attached calls addr len kind a ↔ Fine attached calls addr len kind := by
  unfold Meets Fine
  rw [and_iff_left isBreak_history, isWatched_history]
  constructor
  · intro hSame hTop
    exact hSame.mpr ⟨_, hTop⟩
  · intro hFine
    refine ⟨fun h => h.imp fun b hb => hb.2, ?_⟩
    rintro ⟨b, hHere⟩
    by_cases hTop : b = BitVec.allOnes 64
    · exact hFine (hTop ▸ hHere)
    · exact ⟨b, hTop, hHere⟩

theorem last_byte_unwatched : ¬Meets true [.armWatch (BitVec.allOnes 64) 1 .ReadWrite] (BitVec.allOnes 64) 1 .Read 0 := by
  rintro ⟨hWatched, -⟩
  have hMiss : (Arming.history true [.armWatch (BitVec.allOnes 64) 1 .ReadWrite]).isWatched (BitVec.allOnes 64) 1 .Read = false := by decide
  rw [hMiss] at hWatched
  have hHere : WatchedAt (Arming.armedWatches true [.armWatch (BitVec.allOnes 64) 1 .ReadWrite]) (BitVec.allOnes 64) 1 .Read (BitVec.allOnes 64) :=
    ⟨⟨BitVec.allOnes 64, 1, .ReadWrite⟩, .inr ⟨by decide, rfl⟩, by decide, ⟨le_refl _, by decide⟩, le_refl _, by decide⟩
  cases hWatched.mpr ⟨_, hHere⟩

end Results

end DebugControl
end Exemu
