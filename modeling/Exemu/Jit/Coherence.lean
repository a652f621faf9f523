import Exemu.Jit.Report
import Exemu.Jit.Tlb

/-! # Blocks and the bytes they were compiled from

A block that passes the check of its page stamps is made of the bytes in memory, and a live link
leads to such a block as long as nobody writes over one from outside.
-/
namespace Exemu.Jit
open VirtualMemory Stamp

def Origin.Matches (o : Origin) (mem : VirtualMemory) : Prop :=
  ∀ a : U64, o.start.toNat ≤ a.toNat → a.toNat < o.start.toNat + o.bytes →
    o.source.fetchByte a = mem.fetchByte a

section Lookup

variable {target : Nat → Option U64} {jit jit' : Jit} {rip : U64} {mode : Mode} {mem : VirtualMemory}
  {P : Block → Prop}

theorem Room.blocks (h : Room jit jit') (hP : ∀ b ∈ jit.blocks, P b) : ∀ b ∈ jit'.blocks, P b := by
  rcases h with hEq | hEq <;> rw [hEq]
  · exact hP
  · rw [Sane.flush_eq]
    exact nofun

variable {idx : Nat}

theorem Finds.blocks (h : Finds rip mode mem jit idx jit') (hP : ∀ b ∈ jit.blocks, P b)
    (hNew : ∀ b, Fresh rip mode mem b → P b) : ∀ b ∈ jit'.blocks, P b := by
  cases h with
  | cached hMap => exact hP
  | lined hMap => exact hP
  | @built jit₁ b hMap hRoom hFresh hFits =>
    rw [(addBlock_get _ _ _ _).1]
    intro b' hb'
    rcases List.mem_append.mp hb' with hOld | hLast
    · exact hRoom.blocks hP b' hOld
    · obtain rfl := List.mem_singleton.mp hLast
      exact hNew b' hFresh

theorem Validates.blocks {ok : Bool} (h : Validates mem jit idx ok jit') (hP : ∀ b ∈ jit.blocks, P b)
    (hStamp : ∀ b, P b → b.Valid mem → P (b.stamp mem.codeGeneration)) : ∀ b ∈ jit'.blocks, P b := by
  cases h with
  | current hGet hCurrent => exact hP
  | @checked b hGet hValid =>
    intro b' hb'
    rcases List.mem_or_eq_of_mem_set hb' with hOld | rfl
    · exact hP b' hOld
    · exact hStamp b (hP b (List.mem_of_getElem? hGet)) hValid
  | missing hGet => exact hP
  | stale hGet hStale => exact hP

theorem Dispatches.blocks (h : Dispatches rip mode mem jit idx jit') (hP : ∀ b ∈ jit.blocks, P b)
    (hNew : ∀ b, Fresh rip mode mem b → P b) (hStamp : ∀ b, P b → b.Valid mem → P (b.stamp mem.codeGeneration)) :
    ∀ b ∈ jit'.blocks, P b := by
  cases h with
  | valid hFinds hVal => exact hVal.blocks (hFinds.blocks hP hNew) hStamp
  | rebuilt hFirst hVal hFinds =>
    refine hFinds.blocks ?_ hNew
    rw [Sane.flush_eq]
    exact nofun

theorem Dispatches.selected (h : Dispatches rip mode mem jit idx jit') (hP : ∀ b ∈ jit.blocks, P b)
    (hNew : ∀ b, Fresh rip mode mem b → P b) (hCurrent : ∀ b, P b → b.globalGen = mem.codeGeneration → b.Valid mem)
    {b : Block} (hb : jit'.blocks[idx]? = some b) : b.Valid mem := by
  cases h with
  | valid hFinds hVal =>
    cases hVal with
    | @current b' hGet hGen =>
      obtain rfl := Option.some.inj (hGet.symm.trans hb)
      exact hCurrent b' (hFinds.blocks hP hNew b' (List.mem_of_getElem? hb)) hGen
    | @checked b' hGet hValid =>
      dsimp only at hb
      rw [List.getElem?_set_self (List.getElem?_eq_some_iff.mp hGet).1] at hb
      obtain rfl := Option.some.inj hb
      exact ⟨hValid.gen0, hValid.gen1⟩
  | @rebuilt first _ jit₁ _ hFirst hVal hFinds =>
    have hMap : jit₁.flush.map rip mode.is64 = none := by rw [Sane.flush_eq]
    cases hFinds with
    | cached hSome =>
      rw [hMap] at hSome
      cases hSome
    | lined hSome =>
      rw [hMap] at hSome
      cases hSome
    | @built jit₂ b' hNone hRoom hFresh hFits =>
      rw [(addBlock_get _ _ _ _).1, List.getElem?_concat_length] at hb
      obtain rfl := Option.some.inj hb
      exact hFresh.valid

end Lookup

section Kept

variable {b : Block} {mem mem' : VirtualMemory}

/-- A block of the cache, and the memory since it was compiled. -/
structure Kept (b : Block) (mem : VirtualMemory) : Prop where
  covers : Covers fetchByte codeStamp b.origin.source mem
  gen0 : b.gen0 = b.origin.source.codePageGeneration b.page0
  gen1 : b.gen1 = b.origin.source.codePageGeneration b.page1
  old : b.globalGen.toNat ≤ mem.codeGen.toNat
  stamped : b.globalGen = mem.codeGen → b.Valid mem

theorem Kept.tracks (h : Kept b mem) (hTracks : Tracks mem mem') : Kept b mem' where
  covers := h.covers.trans hTracks.covers
  gen0 := h.gen0
  gen1 := h.gen1
  old := h.old.trans hTracks.mono
  stamped hEq := by
    have hMono := hTracks.mono
    have hOld := h.old
    rw [hEq] at hOld
    have hSame : mem.codeGen = mem'.codeGen := BitVec.eq_of_toNat_eq (by omega)
    have hValid := h.stamped (hEq.trans hSame.symm)
    have hPage := hTracks.same hSame
    constructor
    · rw [← hValid.gen0]
      unfold codePageGeneration
      rw [hPage]
    · rw [← hValid.gen1]
      unfold codePageGeneration
      rw [hPage]

theorem Kept.stamp (h : Kept b mem) (hValid : b.Valid mem) : Kept (b.stamp mem.codeGeneration) mem :=
  ⟨h.covers, h.gen0, h.gen1, le_rfl, fun _ => ⟨hValid.gen0, hValid.gen1⟩⟩

theorem Fresh.kept {rip : U64} {mode : Mode} (h : Fresh rip mode mem b) : Kept b mem := by
  refine ⟨?_, ?_, ?_, ?_, fun _ => h.valid⟩
  · rw [h.source]
    exact Covers.refl mem
  · rw [h.source, h.valid.gen0]
  · rw [h.source, h.valid.gen1]
  · rw [h.global]
    exact le_rfl

theorem codePage_of_block {start : U64} {bytes : Nat} (hBytes : bytes < 4096) {a : U64}
    (hLow : start.toNat ≤ a.toNat) (hHigh : a.toNat < start.toNat + bytes) :
    codePage a = codePage start ∨ codePage a = codePage (lastByte start bytes) := by
  have ha := a.isLt
  have hs := start.isLt
  rw [codePage_eq_iff, codePage_eq_iff]
  have hLen : (BitVec.ofNat 64 bytes).toNat = bytes := by
    rw [BitVec.toNat_ofNat]
    omega
  have hEnd : (satAdd start (BitVec.ofNat 64 bytes)).toNat = min (start.toNat + bytes) (2 ^ 64 - 1) := by
    unfold satAdd
    rw [hLen, BitVec.toNat_ofNat]
    omega
  have hOne : (1 : U64).toNat = 1 := rfl
  have hLast : (lastByte start bytes).toNat = max start.toNat (min (start.toNat + bytes) (2 ^ 64 - 1) - 1) := by
    unfold lastByte
    dsimp only
    split <;> rename_i hZero
    · have hNat := congrArg BitVec.toNat hZero
      rw [hEnd] at hNat
      change _ = 0 at hNat
      omega
    · have hNe : (satAdd start (BitVec.ofNat 64 bytes)).toNat ≠ 0 := fun h => hZero (BitVec.eq_of_toNat_eq h)
      have hSub : (satAdd start (BitVec.ofNat 64 bytes) - 1).toNat =
          min (start.toNat + bytes) (2 ^ 64 - 1) - 1 := by
        rw [BitVec.toNat_sub, hOne]
        omega
      split <;> rename_i hLess <;> rw [BitVec.lt_def, hSub] at hLess <;> try rw [hSub]
      all_goals omega
  rw [hLast]
  unfold CODE_PAGE_SIZE
  omega

theorem Kept.matches (h : Kept b mem) (hValid : b.Valid mem) (hPage0 : b.page0 = codePage b.origin.start)
    (hPage1 : b.page1 = codePage (lastByte b.origin.start b.origin.bytes)) (hBytes : b.origin.bytes < 4096) :
    b.origin.Matches mem := by
  intro a hLow hHigh
  apply h.covers.view_eq
  have hPages := codePage_of_block hBytes hLow hHigh
  rw [← hPage0, ← hPage1] at hPages
  unfold codeStamp
  have hIdem : ∀ p q : U64, p = codePage q → codePage p = p := by
    rintro _ q rfl
    rw [codePage_eq_iff.mpr]
    rw [codePage_toNat, Nat.mul_div_cancel _ (by decide)]
  have hGen0 := h.gen0.symm.trans hValid.gen0.symm
  have hGen1 := h.gen1.symm.trans hValid.gen1.symm
  unfold codePageGeneration at hGen0 hGen1 ⊢
  rw [hIdem _ _ hPage0] at hGen0
  rw [hIdem _ _ hPage1] at hGen1
  rcases hPages with hPage | hPage <;> rw [hPage]
  · rw [hGen0]
  · rw [hGen1]

end Kept

section Plain

variable {tlb : Nat → TlbEntry} {mem mem' : VirtualMemory} {ctx : BlockCtx}

def Plain (tlb : Nat → TlbEntry) (mem : VirtualMemory) : Prop :=
  ∀ i, (tlb i).writeTag ≠ TLB_EMPTY → ∀ r ∈ mem.regions, r.host = (tlb i).writeBase.alloc →
    r.region.perm.contains Perm.EXEC = false

theorem plain_empty (mem : VirtualMemory) : Plain (fun _ => .EMPTY) mem := fun _ h => absurd rfl h

theorem Plain.sameLayout (h : Plain tlb mem) (hSame : SameLayout mem mem') : Plain tlb mem' := by
  intro i hi r hr hHost
  obtain ⟨old, hOld, hRegion, hAlloc⟩ := hSame.mem hr
  rw [hRegion]
  exact h i hi old hOld (hAlloc.symm.trans hHost)

theorem hostSpanMut_plain {page : U64} {len alloc start : Nat} {needed : Perm}
    (h : mem.hostSpanMut page len needed = some (alloc, start)) :
    ∃ r ∈ mem.regions, r.host = alloc ∧ r.region.perm.contains Perm.EXEC = false := by
  unfold hostSpanMut at h
  split at h
  · cases h
  split at h
  · rename_i i r off hLocate
    split at h
    · cases h
    · rename_i hExec
      obtain ⟨rfl, -⟩ := Prod.mk.inj (Option.some.inj h)
      obtain ⟨hGet, -⟩ := locate_ok hLocate
      exact ⟨r, List.mem_of_getElem? hGet, rfl, by simpa using hExec⟩
  · cases h

theorem Plain.fill (ctx : BlockCtx) (h : Plain ctx.tlb ctx.mem) (hHosted : Hosted ctx.mem) (half : Half) (addr : U64) :
    Plain (ctx.tlbFill half addr).tlb ctx.mem := by
  unfold BlockCtx.tlbFill
  split
  · exact h
  dsimp only
  split
  · exact h
  rename_i alloc start hSpan
  intro i hi r hr hHost
  dsimp only at hi hHost
  split at hi <;> rename_i hSlot
  · rw [if_pos hSlot] at hHost
    cases half with
    | READ => exact h _ hi r hr hHost
    | WRITE =>
      obtain ⟨s, hs, hAlloc, hExec⟩ := hostSpanMut_plain hSpan
      obtain rfl := hHosted.unique hr hs (hHost.trans hAlloc.symm)
      exact hExec
  · rw [if_neg hSlot] at hHost
    exact h i hi r hr hHost

theorem Plain.landed (h : Plain ctx.tlb mem) (hHosted : Hosted mem) (addr : U64) (size : Nat) :
    Plain (ctx.landed mem addr size).tlb mem := by
  rw [landed_tlb]
  split
  · exact Plain.fill { ctx with mem := mem } h hHosted .WRITE addr
  · exact h

theorem Plain.inlineStore (h : Plain ctx.tlb ctx.mem) (hWf : WellFormed ctx.mem) {addr : U64} {size : Nat}
    {p : HostPtr} {v : U64} (hProbe : ctx.tlbProbe .WRITE addr size = some p)
    (hHost : ctx.mem.hostWrite p size v = some mem') :
    SameLayout ctx.mem mem' ∧ WellFormed mem' ∧ (∀ a, ctx.mem.fetchByte a = mem'.fetchByte a) ∧
      Tracks ctx.mem mem' := by
  obtain ⟨hTag, -, rfl⟩ := tlbProbe_some hProbe
  obtain ⟨i, r, hGet, hAlloc, -, hEq⟩ := hostWrite_some hHost
  have hExec := h _ hTag r (List.mem_of_getElem? hGet) hAlloc
  have hFetch : ∀ a, ctx.mem.fetchByte a = mem'.fetchByte a := by
    intro a
    refine fetchByte_set hWf.separated _ hGet ?_ ?_ (congrArg VirtualMemory.regions hEq) fun _ => ⟨rfl, fun hNot => ?_⟩
    · rfl
    · rfl
    · rw [hExec] at hNot
      cases hNot
  refine ⟨?_, hWf.set _ hGet ?_ ?_ (congrArg VirtualMemory.regions hEq), hFetch, ?_⟩
  · rw [hEq]
    exact SameLayout.set hGet _
  · rfl
  · rfl
  · exact .of_silent hFetch (by rw [hEq]) (by rw [hEq])

end Plain

def Event.Counted : Event → Prop
  | .stored addr size mem _ _ => ∀ r, mem.regionAt addr = some r → r.region.perm.contains Perm.EXEC = true →
      mem.Counted addr size
  | _ => True

/-- No report was forgiven wrongly, and no counter came to its end. -/
structure Tame (log : List Event) : Prop where
  calls : ∀ call ∈ calls log, Forgiven call = false
  counted : ∀ e ∈ log, e.Counted

variable {log : List Event}

theorem Tame.before {es : List Event} (h : Tame (log ++ es)) (hHead : ∀ e ∈ es.head?, e.isDispatched = true) :
    Tame log where
  calls call hCall := h.calls call (by
    rw [calls_append log hHead]
    exact List.mem_append_left _ hCall)
  counted e he := h.counted e (List.mem_append_left _ he)

theorem Tame.dispatched (h : Tame log) (o : Origin) (mem : VirtualMemory) : Tame (log ++ [.dispatched o mem]) where
  calls call hCall := by
    rw [calls_append log (by rintro e ⟨⟩; rfl)] at hCall
    rcases List.mem_append.mp hCall with hCall | hCall
    · exact h.calls call hCall
    · obtain rfl := List.mem_singleton.mp hCall
      rfl
  counted e he := by
    rcases List.mem_append.mp he with he | he
    · exact h.counted e he
    · obtain rfl := List.mem_singleton.mp he
      trivial

def Current (log : List Event) : Prop := ∀ linked o mem, .entered linked o mem ∈ log → o.Matches mem

theorem Current.append {es : List Event} (h : Current log)
    (hEs : ∀ linked o mem, .entered linked o mem ∈ es → o.Matches mem) : Current (log ++ es) := by
  intro linked o mem hMem
  rcases List.mem_append.mp hMem with hMem | hMem
  · exact h linked o mem hMem
  · exact hEs linked o mem hMem

section Call

variable {target : Nat → Option U64} {jit : Jit} {o : Origin} {mem mem' : VirtualMemory} {base : List Event}
  {ctx ctx' : BlockCtx}

theorem Placed.matches {longest i : Nat} {live : U64 → Bool} {b : Block} {code : List Inst}
    (h : Placed target longest live i b code) (hMatches : b.origin.Matches mem)
    (hSame : ∀ a, live (codePage a) = true → mem.fetchByte a = mem'.fetchByte a) : b.origin.Matches mem' := by
  intro a hLow hHigh
  refine (hMatches a hLow hHigh).trans (hSame a ?_)
  rcases codePage_of_block h.bytes hLow hHigh with hPage | hPage <;> rw [hPage]
  · rw [← h.page0]
    exact h.noted0
  · rw [← h.page1]
    exact h.noted1

theorem Sane.link_matches (h : Sane target jit) {s : Nat} {b : Block}
    (hLive : (jit.links s).epoch = jit.linkEpoch) (hGet : jit.blocks[(jit.links s).code]? = some b)
    (hMatches : b.origin.Matches mem)
    (hSame : ∀ a, jit.codePageSet (codePage a) = true → mem.fetchByte a = mem'.fetchByte a) :
    b.origin.Matches mem' := by
  obtain ⟨⟨_, b', -, hb', hCode, -⟩, -⟩ := h.linked s hLive
  obtain rfl := Option.some.inj (hGet.symm.trans hb')
  obtain ⟨code, hCode⟩ := Option.isSome_iff_exists.mp hCode
  exact (h.placed _ _ _ hGet hCode).matches hMatches hSame

structure Ready (jit : Jit) (o : Origin) (mem : VirtualMemory) (log : List Event) : Prop where
  current : Current log
  links : LinksTo (·.Matches mem) jit
  block : o.Matches mem

/-- The course of a call that began with `mem`. -/
structure Coheres (jit : Jit) (o : Origin) (mem : VirtualMemory) (base : List Event) (ctx : BlockCtx) : Prop where
  tally : Tally base ctx
  layout : SameLayout mem ctx.mem
  wellFormed : WellFormed ctx.mem
  plain : Plain ctx.tlb ctx.mem
  tracked : (∀ e ∈ ctx.log, e.Counted) → Tracks mem ctx.mem ∧
    (Calm base ctx → ∀ a, jit.codePageSet (codePage a) = true → mem.fetchByte a = ctx.mem.fetchByte a)
  entered : Ready jit o mem base → (∀ e ∈ ctx.log, e.Counted) → Current ctx.log

theorem coheres_enter (jit : Jit) (p : Params) (retired : Nat) (log : List Event) (o : Origin)
    (hWf : WellFormed mem) (hPlain : Plain jit.tlb mem) :
    Coheres jit o mem log ((jit.blockCtx p retired mem log).chain false o) where
  tally := Tally.chain
  layout := .refl mem
  wellFormed := hWf
  plain := hPlain
  tracked _ := ⟨.refl mem, fun _ _ _ => rfl⟩
  entered hReady _ := hReady.current.append fun linked o' mem' hMem => by
    cases List.mem_singleton.mp hMem
    exact hReady.block

theorem Coheres.step (h : Coheres jit o mem base ctx) (hTally : Tally base ctx')
    (hCalm : Calm base ctx' → Calm base ctx) {es : List Event} (hLog : ctx'.log = ctx.log ++ es)
    (hEntered : ∀ e ∈ es, ∀ linked o mem, e ≠ .entered linked o mem) (hLayout : SameLayout ctx.mem ctx'.mem)
    (hWf : WellFormed ctx'.mem) (hPlain : Plain ctx'.tlb ctx'.mem)
    (hTracked : (∀ e ∈ es, e.Counted) → Tracks ctx.mem ctx'.mem ∧ (Calm base ctx' →
      ∀ a, jit.codePageSet (codePage a) = true → ctx.mem.fetchByte a = ctx'.mem.fetchByte a)) :
    Coheres jit o mem base ctx' where
  tally := hTally
  layout := h.layout.trans hLayout
  wellFormed := hWf
  plain := hPlain
  tracked hCounted := by
    rw [hLog] at hCounted
    obtain ⟨hTracks, hSame⟩ := h.tracked fun e he => hCounted e (List.mem_append_left _ he)
    obtain ⟨hTracks', hSame'⟩ := hTracked fun e he => hCounted e (List.mem_append_right _ he)
    exact ⟨hTracks.trans hTracks', fun hAfter a ha => (hSame (hCalm hAfter) a ha).trans (hSame' hAfter a ha)⟩
  entered hReady hCounted := by
    rw [hLog] at hCounted ⊢
    exact (h.entered hReady fun e he => hCounted e (List.mem_append_left _ he)).append
      fun linked o mem he => absurd rfl (hEntered _ he linked o mem)

theorem Coheres.quiet (h : Coheres jit o mem base ctx) (hTally : Tally base ctx')
    (hCalm : Calm base ctx' → Calm base ctx) {es : List Event} (hLog : ctx'.log = ctx.log ++ es)
    (hEntered : ∀ e ∈ es, ∀ linked o mem, e ≠ .entered linked o mem) (hMem : ctx'.mem = ctx.mem)
    (hPlain : Plain ctx'.tlb ctx.mem) : Coheres jit o mem base ctx' :=
  h.step hTally hCalm hLog hEntered (hMem ▸ .refl _) (hMem ▸ h.wellFormed) (hMem ▸ hPlain)
    fun _ => hMem ▸ ⟨.refl _, fun _ _ _ => rfl⟩

theorem stores_spare {live : U64 → Bool} {addr : U64} {size : Nat} {data : List U8} (hData : data.length = size)
    (hSize : isUintSize size = true) (hStores : Stores mem addr data mem') (hWf : WellFormed mem)
    (hCounted : ∀ r, mem.regionAt addr = some r → r.region.perm.contains Perm.EXEC = true →
      mem.Counted addr size) (hFirst : live (codePage addr) = false)
    (hLast : live (codePage (lastAddr addr size)) = false) {a : U64} (ha : live (codePage a) = true) :
    mem.fetchByte a = mem'.fetchByte a := by
  by_cases hExec : ∃ r, mem.regionAt addr = some r ∧ r.region.perm.contains Perm.EXEC = true
  · obtain ⟨r, hAt, hPerm⟩ := hExec
    have hEnd := (hCounted r hAt hPerm).pages.1
    apply hStores.fetchByte_eq hWf
    rintro ⟨hLow, hHigh⟩
    rw [hData] at hHigh
    obtain ⟨hPos, hLe⟩ := uintSize_pos hSize
    have hLastNat := lastAddr_toNat addr hPos hLe
    have hPages : codePage a = codePage addr ∨ codePage a = codePage (lastAddr addr size) := by
      rw [codePage_eq_iff, codePage_eq_iff, hLastNat]
      unfold CODE_PAGE_SIZE
      omega
    rcases hPages with hPage | hPage <;> rw [hPage] at ha
    · rw [hFirst] at ha
      cases ha
    · rw [hLast] at ha
      cases ha
  · refine hStores.fetchByte_plain hWf (fun r hAt => ?_) a
    by_contra hPerm
    exact hExec ⟨r, hAt, by simpa using hPerm⟩

theorem Sane.coheres (h : Sane target jit) (hHosted : Hosted mem) : Carried jit (Coheres jit o mem base) where
  act := by
    intro ctx ctx' hTied hC hAct
    obtain ⟨hTally, hCalm, es, hLog, hEntered, -⟩ := hC.tally.act (h.live_filter hTied) hAct
    cases hAct with
    | begun rip => exact hC.quiet hTally hCalm hLog hEntered rfl hC.plain
    | inlineLoad hSize hProbe hHost => exact hC.quiet hTally hCalm hLog hEntered rfl hC.plain
    | @readFill addr size v hOn hRead =>
      have hPlain := hC.plain.fill _ (hC.layout.hosted hHosted) .READ addr
      refine hC.quiet hTally hCalm hLog hEntered ?_ hPlain
      rw [BlockCtx.tlbFill_eq]
    | inlineStore hSize hProbe hHost =>
      obtain ⟨hLayout, hWf, hFetch, hTracks⟩ := hC.plain.inlineStore hC.wellFormed hProbe hHost
      exact hC.step hTally hCalm hLog hEntered hLayout hWf (hC.plain.sameLayout hLayout)
        fun _ => ⟨hTracks, fun _ a _ => hFetch a⟩
    | @helperStore addr size v mem' hWrite =>
      have hStores := stores_writeUint hWrite
      have hSize := (writeUint_ok hWrite).1
      have hLayout := hStores.sameLayout
      have hLanded := (hC.tally.landed (h.live_filter hTied) mem' addr hSize).2
      have hMem : (ctx.landed mem' addr size).mem = mem' := by rw [landed_eq]
      have hEvent : es = [.stored addr size ctx.mem ctx.live
          (if ctx.pageHit addr size then .Reported else .Silent)] := by
        rw [landed_eq] at hLog
        exact (List.append_cancel_left hLog).symm
      refine hC.step hTally hCalm hLog hEntered ?_ ?_ ?_ ?_
      · rw [hMem]
        exact hLayout
      · rw [hMem]
        exact hStores.wellFormed hC.wellFormed
      · rw [hMem]
        exact (hC.plain.sameLayout hLayout).landed (hLayout.hosted (hC.layout.hosted hHosted)) addr size
      · intro hCounted
        rw [hEvent] at hCounted
        have hCounted := hCounted _ (List.mem_singleton.mpr rfl)
        rw [hMem]
        refine ⟨hStores.tracks hC.wellFormed ?_, fun hAfter a ha => ?_⟩
        · rw [length_toLe]
          exact hCounted
        · obtain ⟨-, hFirst, hLast⟩ := hLanded hAfter
          rw [← hTied.live] at ha
          exact stores_spare (length_toLe _ _) hSize hStores hC.wellFormed hCounted hFirst hLast ha
  stray := by
    intro ctx ctx' _ hC hStray
    have hQuiet : ∀ e : Event, e.isDispatched = false → e.reported = false →
        (∀ linked o mem, e ≠ .entered linked o mem) → Coheres jit o mem base (ctx.record e) := by
      intro e hDispatched hReported hEntered
      obtain ⟨hTally, hCalm⟩ := hC.tally.silent (ctx.record e) [e] rfl
        (by simp [hDispatched, hReported]) rfl rfl rfl rfl
      exact hC.quiet hTally hCalm.mp rfl (by simpa using hEntered) rfl hC.plain
    cases hStray <;> exact hQuiet _ rfl rfl nofun
  tail retired pending hC :=
    ⟨hC.tally.tail retired pending, hC.layout, hC.wellFormed, hC.plain, hC.tracked, hC.entered⟩
  link := by
    intro ctx s b _ hC hEpoch hLive hGet
    have hZero : ctx.smcHits = 0 := by
      by_contra hSome
      have hDead := h.alive
      rw [← hEpoch, hC.tally.dead hSome] at hDead
      exact absurd hDead (by decide)
    obtain ⟨hTally, hCalm⟩ := hC.tally.silent (ctx.chain true b.origin) [.entered true b.origin ctx.mem] rfl
      (by simp [Event.isDispatched, Event.reported]) rfl rfl rfl rfl
    refine ⟨hTally, hC.layout, hC.wellFormed, hC.plain, fun hCounted => ?_, fun hReady hCounted => ?_⟩
    · obtain ⟨hTracks, hSame⟩ := hC.tracked fun e he => hCounted e (List.mem_append_left _ he)
      exact ⟨hTracks, fun hAfter => hSame (hCalm.mp hAfter)⟩
    · have hBefore := fun e he => hCounted e (List.mem_append_left _ he)
      refine (hC.entered hReady hBefore).append fun linked o' mem' hMem => ?_
      cases List.mem_singleton.mp hMem
      exact h.link_matches hLive hGet (hReady.links s b hLive hGet) ((hC.tracked hBefore).2 (.inl hZero))

end Call

section Runs

variable {target : Nat → Option U64} {m : Machine} {p : Params}

structure Coherent (m : Machine) : Prop where
  sane : ∃ target, Sane target m.jit
  wellFormed : WellFormed m.mem
  hosted : Hosted m.mem
  plain : Plain m.jit.tlb m.mem
  kept : Tame m.log → ∀ b ∈ m.jit.blocks, Kept b m.mem
  links : Tame m.log → LinksTo (·.Matches m.mem) m.jit
  current : Tame m.log → Current m.log

theorem Coheres.settle {ctx : BlockCtx} {native : Native} {o : Origin} {log : List Event}
    (hC : Coheres m.jit o m.mem (log ++ [.dispatched o m.mem]) ctx) (hSane : Sane target m.jit)
    (hPending : ∀ s, ctx.pending = some s → Awaits target m.jit.blocks s native.cpu.rip p.mode.is64)
    (hTied : Tied m.jit ctx) (hHosted : Hosted m.mem)
    (hBefore : Tame log → Ready m.jit o m.mem (log ++ [.dispatched o m.mem]) ∧ ∀ b ∈ m.jit.blocks, Kept b m.mem) :
    Coherent (m.harvest p native ctx) := by
  obtain ⟨call, hLog, hDispatched, hCount, hFirst⟩ := hC.tally.log
  have hSplit : ctx.log = log ++ .dispatched o m.mem :: call := by rw [hLog]; simp
  have hHead : ∀ e ∈ (Event.dispatched o m.mem :: call).head?, e.isDispatched = true := by
    rintro e ⟨⟩
    rfl
  have hWas : Tame ctx.log → Tame log := fun hTame => (hSplit ▸ hTame).before hHead
  refine {
    sane := ⟨target, hSane.harvest hPending⟩
    wellFormed := hC.wellFormed
    hosted := hC.layout.hosted hHosted
    plain := by
      have hTlb := SameTlb.settleSmc { m.jit with
        tlb := ctx.tlb, pending := ctx.pending, pendingRip := native.cpu.rip, pendingLong := p.mode.is64 }
        ctx.smc ctx.smcHits
      change Plain (Jit.settleSmc _ _ _).tlb ctx.mem
      rw [hTlb.tlb]
      exact hC.plain
    kept := fun hTame b hb => ?_
    links := fun hTame => ?_
    current := fun hTame => hC.entered (hBefore (hWas hTame)).1 hTame.counted }
  · change b ∈ (Jit.settleSmc _ _ _).blocks at hb
    rw [settleSmc_blocks] at hb
    exact ((hBefore (hWas hTame)).2 b hb).tracks (hC.tracked hTame.counted).1
  · change Tame ctx.log at hTame
    have hNot : Forgiven call = false := hTame.calls call (by
      rw [hSplit, calls_append log hHead]
      exact List.mem_append_right _ (mem_calls hDispatched))
    refine linksTo_harvest hSane hPending hTied (by rwa [hLog, List.drop_left]) fun hCalm s b hs hb => ?_
    exact hSane.link_matches hs hb ((hBefore (hWas hTame)).1.links s b hs hb)
      ((hC.tracked hTame.counted).2 hCalm)

section Dispatch

variable {jit : Jit} {rip : U64} {mode : Mode} {idx : Nat} {b : Block}

theorem Coherent.debugGenerationCheck (h : Coherent m) : Coherent (m.setJit m.jit.debugGenerationCheck) := by
  obtain ⟨target, hSane⟩ := h.sane
  refine ⟨⟨target, hSane.debugGenerationCheck⟩, h.wellFormed, h.hosted, ?_, fun hTame => ?_,
    fun hTame => (h.links hTame).debugGenerationCheck hSane, h.current⟩
  · change Plain m.jit.debugGenerationCheck.tlb m.mem
    rw [(SameTlb.debugGenerationCheck m.jit).tlb]
    exact h.plain
  · change ∀ b ∈ m.jit.debugGenerationCheck.blocks, Kept b m.mem
    unfold Jit.debugGenerationCheck
    split
    · exact h.kept hTame
    split
    · exact h.kept hTame
    · rw [Sane.flush_eq]
      exact nofun

theorem Coherent.dispatched (h : Coherent m) (hDisp : Dispatches rip mode m.mem m.jit idx jit) :
    Coherent (m.setJit jit) := by
  obtain ⟨target, hSane⟩ := h.sane
  obtain ⟨target', hSane', -⟩ := hSane.dispatches hDisp
  refine ⟨⟨target', hSane'⟩, h.wellFormed, h.hosted, ?_, fun hTame => ?_,
    fun hTame => (h.links hTame).dispatches hSane hDisp, h.current⟩
  · change Plain jit.tlb m.mem
    rw [(SameTlb.dispatches hDisp).tlb]
    exact h.plain
  · exact hDisp.blocks (P := (Kept · m.mem)) (h.kept hTame) (fun b hFresh => hFresh.kept)
      fun b hb hValid => hb.stamp hValid

theorem Coherent.selected (h : Coherent m) (hDisp : Dispatches rip mode m.mem m.jit idx jit)
    (hGet : jit.blocks[idx]? = some b) (hCode : b.code.isSome = true) (hTame : Tame m.log) :
    b.origin.Matches m.mem := by
  obtain ⟨target', hSane'⟩ := (h.dispatched hDisp).sane
  obtain ⟨code, hCode⟩ := Option.isSome_iff_exists.mp hCode
  have hPlaced := hSane'.placed idx b code hGet hCode
  have hValid := hDisp.selected (P := (Kept · m.mem)) (h.kept hTame) (fun b hFresh => hFresh.kept)
    (fun b hb hGen => hb.stamped hGen) hGet
  exact ((h.dispatched hDisp).kept hTame b (List.mem_of_getElem? hGet)).matches hValid hPlaced.page0
    hPlaced.page1 hPlaced.bytes

theorem Coherent.filled (h : Coherent m) (hMap : m.jit.map rip mode.is64 = some idx)
    (hGet : m.jit.blocks[idx]? = some b) (hCode : b.code.isSome = true)
    (hMatches : Tame m.log → b.origin.Matches m.mem) :
    Coherent ((m.setJit (m.jit.fillPending rip mode.is64 idx)).record (.dispatched b.origin m.mem)) := by
  obtain ⟨target, hSane⟩ := h.sane
  have hBefore : Tame (m.log ++ [.dispatched b.origin m.mem]) → Tame m.log := fun h =>
    h.before (by
      rintro e ⟨⟩
      rfl)
  refine ⟨⟨target, hSane.fillPending hMap hGet hCode⟩, h.wellFormed, h.hosted, ?_, fun hTame => ?_,
    fun hTame => (h.links (hBefore hTame)).fillPending hGet (hMatches (hBefore hTame)), fun hTame => ?_⟩
  · change Plain (m.jit.fillPending rip mode.is64 idx).tlb m.mem
    rw [(SameTlb.fillPending _ _ _ _).tlb]
    exact h.plain
  · change ∀ b ∈ (m.jit.fillPending rip mode.is64 idx).blocks, Kept b m.mem
    rw [fillPending_eq]
    exact h.kept (hBefore hTame)
  · exact (h.current (hBefore hTame)).append fun linked o mem hMem =>
      Event.noConfusion (List.mem_singleton.mp hMem)

end Dispatch

theorem Coherent.turn (h : Coherent m) (p : Params) (retired : Nat) : Coherent (m.turn p retired).machine := by
  have hCheck := h.debugGenerationCheck
  obtain ⟨target, hSane⟩ := h.sane
  refine turn_rule hSane retired h (fun hDisp => ?_) (fun hDisp hGet hCode => ?_) ?_
  · have hDispatched := hCheck.dispatched hDisp
    obtain ⟨target', hSane'⟩ := hDispatched.sane
    exact ⟨⟨target', hSane'.drop⟩, h.wellFormed, h.hosted, hDispatched.plain, hDispatched.kept,
      fun hTame => (hDispatched.links hTame).drop, h.current⟩
  · obtain ⟨_, -, hMap⟩ := hSane.debugGenerationCheck.dispatches hDisp
    exact (hCheck.dispatched hDisp).filled hMap hGet hCode (hCheck.selected hDisp hGet hCode)
  · intro idx jit jit' b target' hDisp hGet hCode _ hFilled hDispatched
    refine ⟨_, hFilled.coheres (o := b.origin) h.hosted, coheres_enter _ _ _ _ _ h.wellFormed hDispatched.plain, ?_⟩
    intro native ctx hTied hC hPending
    refine Coheres.settle (m := (m.setJit jit').record (.dispatched b.origin m.mem)) hC hFilled hPending hTied
      h.hosted fun hTame => ?_
    have hTame' := hTame.dispatched b.origin m.mem
    exact ⟨⟨hDispatched.current hTame', hDispatched.links hTame', hCheck.selected hDisp hGet hCode hTame⟩,
      hDispatched.kept hTame'⟩

theorem Coherent.setMem {mem : VirtualMemory} (h : Coherent m) (hWf : WellFormed mem) (hHosted : Hosted mem)
    (hPlain : Plain m.jit.tlb mem) (hTracks : Tracks m.mem mem)
    (hLinks : Tame m.log → LinksTo (·.Matches mem) m.jit) : Coherent (m.setMem mem) :=
  ⟨h.sane, hWf, hHosted, hPlain, fun hTame b hb => (h.kept hTame b hb).tracks hTracks, hLinks, h.current⟩

theorem Coherent.emptied {jit : Jit} (h : Coherent m) (hSane : ∃ target, Sane target jit)
    (hPlain : Plain jit.tlb m.mem) (hBlocks : jit.blocks = []) (hLinks : ∀ Q, LinksTo Q jit) :
    Coherent (m.setJit jit) := by
  refine ⟨hSane, h.wellFormed, h.hosted, hPlain, fun _ => ?_, fun _ => hLinks _, h.current⟩
  change ∀ b ∈ jit.blocks, Kept b m.mem
  rw [hBlocks]
  exact nofun

theorem Coherent.setMemDebug (h : Coherent m) (debug : Option DebugControl) :
    Coherent (m.setMem { m.mem with debug := debug }) :=
  h.setMem ⟨h.wellFormed.separated, h.wellFormed.nonempty⟩ ⟨h.hosted.distinct, h.hosted.below⟩ h.plain
    (.of_silent (fun _ => rfl) rfl rfl) h.links

end Runs

def HostOp.isWrite : HostOp → Bool
  | .memory op => op.written.isSome
  | .select _ => false
  | .replace _ => false
  | _ => true

/-- An outside write moves no counter past its end, and changes no byte of a block that a live link leads to. -/
def Undisturbed (m : Machine) : HostOp → Prop
  | .memory op => ∀ addr data, op.written = some (addr, data) →
      (∀ r, m.mem.regionAt addr = some r → r.region.perm.contains Perm.EXEC = true →
        m.mem.Counted addr data.length) ∧
      LinksTo (fun o => ∀ a : U64, o.start.toNat ≤ a.toNat → a.toNat < o.start.toNat + o.bytes →
        m.mem.fetchByte a = (m.mem.apply op).fetchByte a) m.jit
  | _ => True

section History

variable {m : Machine}

theorem Coherent.apply (h : Coherent m) {op : HostOp} (hWrite : op.isWrite = true)
    (hUndisturbed : Undisturbed m op) : Coherent (m.apply op) := by
  have hSane := Sane.apply h.sane op
  obtain ⟨target, hWas⟩ := h.sane
  cases op with
  | memory op =>
    obtain ⟨⟨addr, data⟩, hWritten⟩ := Option.isSome_iff_exists.mp hWrite
    obtain ⟨hCounted, hLinks⟩ := hUndisturbed addr data hWritten
    rcases apply_written hWritten with hSame | hStores
    · change Coherent (m.setMem (m.mem.apply op))
      rw [hSame]
      exact h
    · refine h.setMem (h.wellFormed.apply op) (h.hosted.apply op) (h.plain.sameLayout hStores.sameLayout)
        (hStores.tracks h.wellFormed hCounted) fun hTame s b hs hb a hLow hHigh => ?_
      exact (h.links hTame s b hs hb a hLow hHigh).trans (hLinks s b hs hb a hLow hHigh)
  | select id => cases hWrite
  | replace ops => cases hWrite
  | watch debug => exact h.setMemDebug _
  | rearm debug => exact ⟨hSane, h.wellFormed, h.hosted, h.plain, h.kept, h.links, h.current⟩
  | rearmMemory debug => exact h.setMemDebug _
  | setDebug debug =>
    exact h.emptied hSane (plain_empty _) (setDebug_blocks m.jit debug) fun _ => linksTo_setDebug hWas debug
  | setTlb on => exact ⟨hSane, h.wellFormed, h.hosted, plain_empty _, h.kept, h.links, h.current⟩
  | setMaxInsns n => exact ⟨hSane, h.wellFormed, h.hosted, h.plain, h.kept, h.links, h.current⟩
  | invalidate =>
    exact h.emptied hSane (plain_empty _) (invalidate_blocks m.jit) fun _ => linksTo_invalidate hWas
  | run native mode budget =>
    rw [Machine.apply_run]
    refine run_rule (m := m.setNative native) (J := Coherent) (fun m hm => ?_)
      (fun p m retired hm => hm.turn p retired) ⟨⟨target, hWas⟩, h.wellFormed, h.hosted, h.plain, h.kept, h.links,
        h.current⟩ mode budget
    obtain ⟨target, hSane⟩ := hm.sane
    refine ⟨⟨target, hSane.tlbCheck _ _ _⟩, hm.wellFormed, hm.hosted, ?_, ?_,
      fun hTame => (hm.links hTame).tlbCheck _ _ _, hm.current⟩
    · change Plain (Jit.tlbCheck _ _ _ _).tlb m.mem
      unfold Jit.tlbCheck
      dsimp only
      split
      · exact plain_empty _
      · exact hm.plain
    · change Tame m.log → ∀ b ∈ (Jit.tlbCheck _ _ _ _).blocks, Kept b m.mem
      rw [tlbCheck_blocks]
      exact hm.kept

theorem coherent_start (capacity : Nat) (native : Native) (ops : List MemoryOp) :
    Coherent (Machine.start capacity native (.history .new ops)) where
  sane := sane_start capacity native _
  wellFormed := wellFormed_history wellFormed_new ops
  hosted := hosted_history hosted_new ops
  plain := plain_empty _
  kept _ := nofun
  links _ s b hs _ := by
    change (0 : U64) = 1 at hs
    cases hs
  current _ := nofun

/-- A history of runs and outside writes in which no report is forgiven wrongly, no counter comes to its
end, and no outside write changes a block that a live link leads to: every block is entered with the bytes
it was compiled from in memory. -/
theorem entered_blocks_match (capacity : Nat) (native : Native) (before : List MemoryOp) (ops : List HostOp)
    (hWrites : ∀ op ∈ ops, op.isWrite = true)
    (hUndisturbed : Along Machine.apply Undisturbed (Machine.start capacity native (.history .new before)) ops)
    (hTame : Tame ((Machine.start capacity native (.history .new before)).history ops).log)
    (linked : Bool) (o : Origin) (mem : VirtualMemory)
    (hEntered : .entered linked o mem ∈ ((Machine.start capacity native (.history .new before)).history ops).log) :
    o.Matches mem :=
  (hUndisturbed.keeps (J := Coherent) (fun _ op hOp hm hNot => hm.apply (hWrites op hOp) hNot)
    (coherent_start capacity native before)).current hTame linked o mem hEntered

end History

section Programs

set_option maxRecDepth 100000

def Event.isStored : Event → Bool
  | .stored _ _ _ _ _ => true
  | _ => false

theorem tame_of_no_store {log : List Event} (hCalls : ∀ call ∈ calls log, Forgiven call = false)
    (hNone : (log.all fun e => !e.isStored) = true) : Tame log where
  calls := hCalls
  counted e he := by
    have hNot := List.all_eq_true.mp hNone e he
    cases e with
    | stored addr size mem live note => cases hNot
    | _ => trivial

/-- Two blocks on pages of their own, each jumping to the other: a jump at `0x1000`, `inc rax` at `0x2000`. -/
def twoBlocks : List MemoryOp :=
  [.map true ⟨"image", 0x1000, 0x2000, Perm.RWX⟩, .poke 0x1000 [0xE9, 0xFB, 0x0F, 0, 0],
    .poke 0x2000 [0x48, 0xFF, 0xC0, 0xE9, 0xF8, 0xEF, 0xFF, 0xFF]]

def twoBlocksAfter (ops : List HostOp) : Machine :=
  (Machine.start 65536 (storeAt 0 0 0) (.history .new twoBlocks)).history ops

def linkTwo : HostOp := .run (storeAt 0x1000 0 0) .Long 6

/-- `inc rax` becomes `dec rax`. -/
def patchTwo : HostOp := .memory (.poke 0x2000 [0x48, 0xFF, 0xC8])

def rerunTwo : HostOp := .run (storeAt 0x1000 0 0) .Long 3

theorem patched_undisturbed : Undisturbed (twoBlocksAfter [linkTwo, .invalidate]) patchTwo := by
  have hGlobal : (twoBlocksAfter [linkTwo, .invalidate]).mem.codeGen ≠ BitVec.allOnes 64 := by decide +kernel
  have hPage : (twoBlocksAfter [linkTwo, .invalidate]).mem.codePageGeneration 0x2000 ≠ BitVec.allOnes 64 := by
    decide +kernel
  obtain ⟨target, hSane⟩ := history_rule (J := fun m => ∃ target, Sane target m.jit)
    (fun _ op hm => Sane.apply hm op) [linkTwo] (sane_start 65536 (storeAt 0 0 0) (.history .new twoBlocks))
  have hJit : ∀ m : Machine, (m.history [linkTwo, .invalidate]).jit = (m.history [linkTwo]).jit.invalidate :=
    fun _ => rfl
  have hDead : ∀ Q, LinksTo Q (twoBlocksAfter [linkTwo, .invalidate]).jit := by
    intro Q
    unfold twoBlocksAfter
    rw [hJit]
    exact linksTo_invalidate hSane
  generalize twoBlocksAfter [linkTwo, .invalidate] = m at hGlobal hPage hDead
  intro addr data hWritten
  obtain ⟨rfl, rfl⟩ := Prod.mk.inj (Option.some.inj hWritten)
  refine ⟨fun _ _ _ => ⟨⟨by decide, fun a hLow hHigh => ?_⟩, hGlobal⟩, hDead _⟩
  have hSame : codePage a = codePage 0x2000 := codePage_eq_iff.mpr (Nat.le_antisymm hHigh hLow)
  unfold codePageGeneration at hPage ⊢
  rwa [hSame]

/-- With its blocks dropped before the code is patched, the engine goes on entering what is in memory. -/
theorem entered_blocks_match_patched :
    ((twoBlocksAfter [linkTwo, .invalidate, patchTwo, rerunTwo]).log.any fun e => e.followed.isSome) = true ∧
      ∀ linked o mem, .entered linked o mem ∈ (twoBlocksAfter [linkTwo, .invalidate, patchTwo, rerunTwo]).log →
        o.Matches mem := by
  have hLinked : ((twoBlocksAfter [linkTwo, .invalidate, patchTwo, rerunTwo]).log.any fun e => e.followed.isSome) =
      true := by decide +kernel
  have hTame : Tame (twoBlocksAfter [linkTwo, .invalidate, patchTwo, rerunTwo]).log :=
    tame_of_no_store (by decide +kernel) (by decide +kernel)
  refine ⟨hLinked, entered_blocks_match 65536 (storeAt 0 0 0) twoBlocks
    [linkTwo, .invalidate, patchTwo, rerunTwo] (by decide) ?_ hTame⟩
  exact .cons trivial (.cons trivial (.cons patched_undisturbed (.cons trivial (.nil _))))

/-- The second block is entered over a byte that is no longer the one it was compiled from. -/
def entersStale : Event → Bool
  | .entered _ o mem => decide (o.start = 0x2000 ∧ o.bytes = 8 ∧ o.source.fetchByte 0x2002 ≠ mem.fetchByte 0x2002)
  | _ => false

/-- An outside write leaves the links alone: the first block's link still leads to the second, which was
patched since. -/
theorem patched_block_entered_by_link :
    ¬∀ (capacity : Nat) (native : Native) (before : List MemoryOp) (ops : List HostOp),
      (∀ op ∈ ops, op.isWrite = true) → ∀ (linked : Bool) (o : Origin) (mem : VirtualMemory),
      .entered linked o mem ∈ ((Machine.start capacity native (.history .new before)).history ops).log →
      o.Matches mem := by
  intro h
  have hEntered : ((twoBlocksAfter [linkTwo, patchTwo, rerunTwo]).log[16]?.any entersStale) = true := by decide +kernel
  have hAll : ∀ linked o mem, .entered linked o mem ∈ (twoBlocksAfter [linkTwo, patchTwo, rerunTwo]).log →
      o.Matches mem := h 65536 (storeAt 0 0 0) twoBlocks [linkTwo, patchTwo, rerunTwo] (by decide)
  clear h
  obtain ⟨e, he, hStale⟩ := (Option.any_eq_true _ _).mp hEntered
  have hMem := List.mem_of_getElem? he
  generalize (twoBlocksAfter [linkTwo, patchTwo, rerunTwo]).log = log at hAll hMem
  clear he hEntered
  cases e with
  | entered linked o mem =>
    obtain ⟨hStart, hBytes, hDiffers⟩ := of_decide_eq_true hStale
    refine hDiffers (hAll linked o mem hMem 0x2002 ?_ ?_)
    · rw [hStart]
      decide
    · rw [hStart, hBytes]
      decide
  | _ => cases hStale

end Programs
end Exemu.Jit
