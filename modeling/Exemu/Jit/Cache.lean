import Exemu.Jit.Effect
import Exemu.Jit.Engine

/-! # The block cache and its links

What the engine keeps from call to call, whatever becomes of the guest's memory: the page filter
misses no page with code, a slot of an older epoch is dead, and a live slot leads to the block its
key stands for.
-/
namespace Exemu.Jit

/-- A compiled block in its place: its slots are its own, and its pages are noted. -/
structure Placed (target : Nat → Option U64) (longest : Nat) (live : U64 → Bool) (i : Nat) (b : Block)
    (code : List Inst) : Prop where
  shaped : ∃ slots : Option Nat, (∀ base, slots = some base → base = i * MAX_LINKS) ∧
    Shaped slots target b.insns code
  pos : 0 < b.insns
  longest : b.insns ≤ longest
  page0 : b.page0 = codePage b.origin.start
  page1 : b.page1 = codePage (lastByte b.origin.start b.origin.bytes)
  bytes : b.origin.bytes < 4096
  noted0 : live b.page0 = true
  noted1 : live b.page1 = true

/-- Where a live slot leads: to the block of its key, compiled for the mode of the slot's owner. -/
structure Linked (target : Nat → Option U64) (blocks : List Block) (map : U64 → Bool → Option Nat)
    (s : Nat) (slot : LinkSlot) : Prop where
  owner : ∃ o b, blocks[s / MAX_LINKS]? = some o ∧ blocks[slot.code]? = some b ∧ b.code.isSome = true ∧
    map slot.key o.origin.mode.is64 = some slot.code
  aimed : ∀ t, target s = some t → t = slot.key

structure Awaits (target : Nat → Option U64) (blocks : List Block) (s : Nat) (rip : U64) (long : Bool) :
    Prop where
  owner : ∃ o, blocks[s / MAX_LINKS]? = some o ∧ o.origin.mode.is64 = long
  aimed : ∀ t, target s = some t → t = rip

structure Sane (target : Nat → Option U64) (jit : Jit) : Prop where
  filter : ∀ p, jit.codePageSet p = true → jit.codePages (codePageBit p) = true
  alive : jit.linkEpoch < LINK_EPOCH_DEAD
  epochs : ∀ s, (jit.links s).epoch ≤ jit.linkEpoch
  gens : ∀ i, (jit.lines i).gen ≤ jit.cacheGen
  mapped : ∀ rip long idx, jit.map rip long = some idx →
    ∃ b, jit.blocks[idx]? = some b ∧ b.origin.start = rip ∧ b.origin.mode.is64 = long
  lined : ∀ i, (jit.lines i).gen = jit.cacheGen →
    jit.map (jit.lines i).rip (jit.lines i).long = some (jit.lines i).idx
  placed : ∀ i b code, jit.blocks[i]? = some b → b.code = some code →
    Placed target jit.longest jit.codePageSet i b code
  linked : ∀ s, (jit.links s).epoch = jit.linkEpoch → Linked target jit.blocks jit.map s (jit.links s)
  awaits : ∀ s, jit.pending = some s → Awaits target jit.blocks s jit.pendingRip jit.pendingLong

structure Fits (fresh : Nat → Option U64) (i : Nat) (rip : U64) (long : Bool) (b : Block) : Prop where
  start : b.origin.start = rip
  mode : b.origin.mode.is64 = long
  page0 : b.page0 = codePage b.origin.start
  page1 : b.page1 = codePage (lastByte b.origin.start b.origin.bytes)
  bytes : b.origin.bytes < 4096
  code : ∀ code, b.code = some code → 0 < b.insns ∧
    ∃ slots : Option Nat, (∀ base, slots = some base → base = i * MAX_LINKS) ∧ Shaped slots fresh b.insns code

section Shape

variable {slots : Option Nat} {target target' : Nat → Option U64}

theorem ExitCode.Shape.retarget {n : Nat} {k : Known} {e : ExitCode} (h : e.Shape slots target n k)
    (hSame : ∀ base s, slots = some base → base ≤ s → s < base + MAX_LINKS → target s = target' s) :
    e.Shape slots target' n k where
  pos := h.pos
  sees := h.sees
  rip := h.rip
  flags := h.flags
  retired := h.retired
  slot := h.slot
  direct s hs hDirect := by
    obtain ⟨os, t, hOps, hTarget⟩ := h.direct s hs hDirect
    obtain ⟨base, hBase, hLow, hHigh⟩ := (h.slot s hs).2
    exact ⟨os, t, hOps, (hSame base s hBase hLow hHigh).symm.trans hTarget⟩
  indirect s hs hIndirect := by
    obtain ⟨base, hBase, hLow, hHigh⟩ := (h.slot s hs).2
    exact (hSame base s hBase hLow hHigh).symm.trans (h.indirect s hs hIndirect)

theorem Body.retarget {n : Nat} {k : Known} {is : List Inst} (h : Body slots target n k is)
    (hSame : ∀ base s, slots = some base → base ≤ s → s < base + MAX_LINKS → target s = target' s) :
    Body slots target' n k is := by
  induction is generalizing n k with
  | nil => trivial
  | cons i is ih =>
    cases i with
    | begin rip => exact ih h
    | op o => exact ⟨h.1, ih h.2⟩
    | load dst size fault =>
      obtain ⟨hAddr, hDst, hSize, hFault, hIs, hRest⟩ := h
      exact ⟨hAddr, hDst, hSize, hFault.retarget hSame, hIs, ih hRest⟩
    | store src size push wrote fault =>
      obtain ⟨hAddr, hSrc, hSize, hWrote, hNot, hFault, hIs, hRest⟩ := h
      exact ⟨hAddr, hSrc, hSize, hWrote.retarget hSame, hNot, hFault.retarget hSame, hIs, ih hRest⟩
    | branch t fall =>
      obtain ⟨hTest, hFall, hNot, hRest⟩ := h
      exact ⟨hTest, hFall.retarget hSame, hNot, ih hRest⟩
    | exit e => exact h.elim

theorem Shaped.retarget {insns : Nat} {code : List Inst} (h : Shaped slots target insns code)
    (hSame : ∀ base s, slots = some base → base ≤ s → s < base + MAX_LINKS → target s = target' s) :
    Shaped slots target' insns code := by
  obtain ⟨body, e, hCode, hBegins, hBody, hShape, hFault⟩ := h
  exact ⟨body, e, hCode, hBegins, hBody.retarget hSame, hShape.retarget hSame, hFault⟩

end Shape

section Epochs

theorem epoch_succ {e : U64} (hAlive : e < LINK_EPOCH_DEAD) (hNot : e + 1 ≠ LINK_EPOCH_DEAD) :
    e < e + 1 ∧ e + 1 < LINK_EPOCH_DEAD := by
  have hDead : LINK_EPOCH_DEAD.toNat = 2 ^ 64 - 1 := rfl
  have hOne : (1 : U64).toNat = 1 := rfl
  have hNe : (e + 1).toNat ≠ 2 ^ 64 - 1 := fun h => hNot (BitVec.eq_of_toNat_eq h)
  rw [BitVec.lt_def] at hAlive
  rw [BitVec.toNat_add] at hNe
  constructor <;> rw [BitVec.lt_def, BitVec.toNat_add] <;> omega

theorem gen_succ {g : U32} (hNot : g + 1 ≠ 0) : g < g + 1 := by
  have hOne : (1 : U32).toNat = 1 := rfl
  have hNe : (g + 1).toNat ≠ 0 := fun h => hNot (BitVec.eq_of_toNat_eq h)
  have hLt := g.isLt
  rw [BitVec.toNat_add] at hNe
  rw [BitVec.lt_def, BitVec.toNat_add]
  omega

end Epochs

namespace Sane

variable {target : Nat → Option U64} {jit : Jit}

theorem new (target : Nat → Option U64) (capacity : Nat) : Sane target (Jit.new capacity) where
  filter _ h := by cases h
  alive := by
    change (1 : U64) < LINK_EPOCH_DEAD
    decide
  epochs _ := by
    change (0 : U64) ≤ 1
    decide
  gens _ := by
    change (0 : U32) ≤ 1
    decide
  mapped _ _ _ h := by cases h
  lined _ h := by
    change (0 : U32) = 1 at h
    cases h
  placed _ _ _ h := by cases h
  linked _ h := by
    change (0 : U64) = 1 at h
    cases h
  awaits _ h := by cases h

theorem unlinkAll_dead (h : Sane target jit) (s : Nat) :
    (jit.unlinkAll.links s).epoch < jit.unlinkAll.linkEpoch := by
  unfold Jit.unlinkAll
  dsimp only
  split <;> rename_i hWrap
  · change (0 : U64) < 1
    decide
  · exact BitVec.lt_def.mpr ((BitVec.le_def.mp (h.epochs s)).trans_lt
      (BitVec.lt_def.mp (epoch_succ h.alive hWrap).1))

theorem unlinkAll_alive (h : Sane target jit) : jit.unlinkAll.linkEpoch < LINK_EPOCH_DEAD := by
  unfold Jit.unlinkAll
  dsimp only
  split <;> rename_i hWrap
  · change (1 : U64) < LINK_EPOCH_DEAD
    decide
  · exact (epoch_succ h.alive hWrap).2

theorem unlinkAll_eq (jit : Jit) : jit.unlinkAll =
    { jit with links := jit.unlinkAll.links, linkEpoch := jit.unlinkAll.linkEpoch, pending := none } := by
  unfold Jit.unlinkAll
  dsimp only
  split <;> rfl

theorem unlinkAll (h : Sane target jit) : Sane target jit.unlinkAll := by
  have hDead := h.unlinkAll_dead
  have hAlive := h.unlinkAll_alive
  rw [unlinkAll_eq] at hDead hAlive ⊢
  exact {
    filter := h.filter
    alive := hAlive
    epochs := fun s => BitVec.le_of_lt (hDead s)
    gens := h.gens
    mapped := h.mapped
    lined := h.lined
    placed := h.placed
    linked := fun s hs => absurd hs (BitVec.ne_of_lt (hDead s))
    awaits := nofun }

theorem flush_gens (h : Sane target jit) (i : Nat) : (jit.flush.lines i).gen < jit.flush.cacheGen := by
  unfold Jit.flush
  dsimp only
  rw [unlinkAll_eq]
  split <;> rename_i hWrap
  · change (0 : U32) < 1
    decide
  · exact BitVec.lt_def.mpr ((BitVec.le_def.mp (h.gens i)).trans_lt (BitVec.lt_def.mp (gen_succ hWrap)))

theorem flush_eq (jit : Jit) : jit.flush =
    { jit with
      used := 0
      blocks := []
      map := fun _ _ => none
      longest := 0
      links := jit.unlinkAll.links
      linkEpoch := jit.unlinkAll.linkEpoch
      pending := none
      codePageSet := fun _ => false
      codePages := fun _ => false
      lines := jit.flush.lines
      cacheGen := jit.flush.cacheGen } := by
  have hLinks : ∀ j : Jit, j.links = jit.links → j.linkEpoch = jit.linkEpoch →
      j.unlinkAll.links = jit.unlinkAll.links ∧ j.unlinkAll.linkEpoch = jit.unlinkAll.linkEpoch := by
    intro j hLinks hEpoch
    unfold Jit.unlinkAll
    dsimp only
    rw [hLinks, hEpoch]
    split <;> exact ⟨rfl, rfl⟩
  unfold Jit.flush
  dsimp only
  obtain ⟨hLinks, hEpoch⟩ := hLinks
    { jit with used := 0, blocks := [], map := fun _ _ => none, longest := 0 } rfl rfl
  rw [unlinkAll_eq, hLinks, hEpoch]
  split <;> rfl

theorem flush (h : Sane target jit) (target' : Nat → Option U64) : Sane target' jit.flush := by
  have hDead := h.unlinkAll_dead
  have hAlive := h.unlinkAll_alive
  have hGens := h.flush_gens
  rw [flush_eq]
  exact {
    filter := nofun
    alive := hAlive
    epochs := fun s => BitVec.le_of_lt (hDead s)
    gens := fun i => BitVec.le_of_lt (hGens i)
    mapped := nofun
    lined := fun i hi => absurd hi (BitVec.ne_of_lt (hGens i))
    placed := nofun
    linked := fun s hs => absurd hs (BitVec.ne_of_lt (hDead s))
    awaits := nofun }

theorem flush_dead (h : Sane target jit) (s : Nat) :
    (jit.flush.links s).epoch < jit.flush.linkEpoch := by
  rw [flush_eq]
  exact h.unlinkAll_dead s

variable {rip : U64} {long : Bool}

theorem setLine (h : Sane target jit) {idx : Nat} (hMap : jit.map rip long = some idx) :
    Sane target (jit.setLine rip long idx) where
  filter := h.filter
  alive := h.alive
  epochs := h.epochs
  gens i := by
    change (if i = lineOf rip long then _ else _ : CacheLine).gen ≤ jit.cacheGen
    split
    · exact BitVec.le_refl _
    · exact h.gens i
  mapped := h.mapped
  lined i hi := by
    change (if i = lineOf rip long then _ else _ : CacheLine).gen = jit.cacheGen at hi
    change jit.map (if i = lineOf rip long then _ else _ : CacheLine).rip
      (if i = lineOf rip long then _ else _ : CacheLine).long =
      some (if i = lineOf rip long then _ else _ : CacheLine).idx
    split <;> rename_i hSlot
    · exact hMap
    · rw [if_neg hSlot] at hi
      exact h.lined i hi
  placed := h.placed
  linked := h.linked
  awaits := h.awaits

theorem noteCodePage_set (jit : Jit) (page p : U64) :
    (jit.noteCodePage page).codePageSet p = (p == page || jit.codePageSet p) := by
  unfold Jit.noteCodePage
  split <;> rename_i hHas
  · by_cases hp : p = page
    · subst hp
      simp [hHas]
    · simp [hp]
  · rfl

theorem noteCodePage_eq (jit : Jit) (page : U64) : jit.noteCodePage page =
    { jit with
      codePageSet := (jit.noteCodePage page).codePageSet
      codePages := (jit.noteCodePage page).codePages } := by
  unfold Jit.noteCodePage
  split <;> rfl

theorem noteCodePage (h : Sane target jit) (page : U64) : Sane target (jit.noteCodePage page) := by
  have hSet := noteCodePage_set jit page
  have hFilter : ∀ p, (jit.noteCodePage page).codePageSet p = true →
      (jit.noteCodePage page).codePages (codePageBit p) = true := by
    intro p hp
    unfold Jit.noteCodePage at hp ⊢
    split <;> rename_i hHas
    · rw [if_pos hHas] at hp
      exact h.filter p hp
    · rw [if_neg hHas] at hp
      rcases Bool.or_eq_true_iff.mp hp with hEq | hOld
      · rw [beq_iff_eq] at hEq
        simp [hEq]
      · simp [h.filter p hOld]
  rw [noteCodePage_eq] at hSet hFilter ⊢
  exact {
    filter := hFilter
    alive := h.alive
    epochs := h.epochs
    gens := h.gens
    mapped := h.mapped
    lined := h.lined
    placed := fun i b code hb hCode =>
      have hPlaced := h.placed i b code hb hCode
      { hPlaced with
        noted0 := (hSet _).trans (by simp [hPlaced.noted0])
        noted1 := (hSet _).trans (by simp [hPlaced.noted1]) }
    linked := h.linked
    awaits := h.awaits }

/-- A map of targets that speaks about the slots of block `i` in a new way. -/
def aim (target fresh : Nat → Option U64) (i : Nat) (s : Nat) : Option U64 :=
  if s / MAX_LINKS = i then fresh s else target s

theorem div_maxLinks {base s i : Nat} (hBase : base = i * MAX_LINKS) (hLow : base ≤ s)
    (hHigh : s < base + MAX_LINKS) : s / MAX_LINKS = i := by
  unfold MAX_LINKS at *
  omega

theorem append (h : Sane target jit) {fresh : Nat → Option U64} {b : Block} (hFree : jit.map rip long = none)
    (hStart : b.origin.start = rip) (hMode : b.origin.mode.is64 = long) (hPlaced : ∀ code, b.code = some code →
      Placed fresh jit.longest jit.codePageSet jit.blocks.length b code) :
    Sane (aim target fresh jit.blocks.length)
      { jit with
        blocks := jit.blocks ++ [b]
        map := fun r l => if r = rip ∧ l = long then some jit.blocks.length else jit.map r l } := by
  have hGet : ∀ {i : Nat} {o : Block}, jit.blocks[i]? = some o → (jit.blocks ++ [b])[i]? = some o := by
    intro i o ho
    rw [List.getElem?_append_left (List.getElem?_eq_some_iff.mp ho).1]
    exact ho
  have hLast : (jit.blocks ++ [b])[jit.blocks.length]? = some b := List.getElem?_concat_length
  have hMap : ∀ {r : U64} {l : Bool} {idx : Nat}, jit.map r l = some idx →
      (if r = rip ∧ l = long then some jit.blocks.length else jit.map r l) = some idx := by
    intro r l idx hr
    rw [if_neg, hr]
    rintro ⟨rfl, rfl⟩
    rw [hFree] at hr
    cases hr
  have hOld : ∀ {s : Nat} {o : Block}, jit.blocks[s / MAX_LINKS]? = some o →
      aim target fresh jit.blocks.length s = target s := by
    intro s o ho
    have hLt := (List.getElem?_eq_some_iff.mp ho).1
    exact if_neg (Nat.ne_of_lt hLt)
  exact {
    filter := h.filter
    alive := h.alive
    epochs := h.epochs
    gens := h.gens
    mapped := by
      intro r l idx hr
      dsimp only at hr
      split at hr <;> rename_i hNew
      · obtain ⟨rfl, rfl⟩ := hNew
        obtain rfl := Option.some.inj hr
        exact ⟨b, hLast, hStart, hMode⟩
      · obtain ⟨o, ho, hOrigin⟩ := h.mapped r l idx hr
        exact ⟨o, hGet ho, hOrigin⟩
    lined := fun i hi => hMap (h.lined i hi)
    placed := by
      intro i o code ho hCode
      by_cases hLt : i < jit.blocks.length
      · rw [List.getElem?_append_left hLt] at ho
        have hWas := h.placed i o code ho hCode
        obtain ⟨slots, hSlots, hShaped⟩ := hWas.shaped
        refine { hWas with shaped := ⟨slots, hSlots, hShaped.retarget fun base s hBase hLow hHigh => ?_⟩ }
        have hOwner := div_maxLinks (hSlots base hBase) hLow hHigh
        rw [hOld (hOwner ▸ ho)]
      · have hi : i = jit.blocks.length := by
          have hBound := (List.getElem?_eq_some_iff.mp ho).1
          rw [List.length_append] at hBound
          change i < jit.blocks.length + 1 at hBound
          omega
        subst hi
        obtain rfl := Option.some.inj (hLast.symm.trans ho)
        have hNew := hPlaced code hCode
        obtain ⟨slots, hSlots, hShaped⟩ := hNew.shaped
        refine { hNew with shaped := ⟨slots, hSlots, hShaped.retarget fun base s hBase hLow hHigh => ?_⟩ }
        exact (if_pos (div_maxLinks (hSlots base hBase) hLow hHigh)).symm
    linked := by
      intro s hs
      obtain ⟨⟨o, o', ho, ho', hCode, hKey⟩, hAimed⟩ := h.linked s hs
      refine ⟨⟨o, o', hGet ho, hGet ho', hCode, hMap hKey⟩, ?_⟩
      rw [hOld ho]
      exact hAimed
    awaits := by
      intro s hs
      obtain ⟨⟨o, ho, hLong⟩, hAimed⟩ := h.awaits s hs
      refine ⟨⟨o, hGet ho, hLong⟩, ?_⟩
      rw [hOld ho]
      exact hAimed }

theorem lengthen (h : Sane target jit) (n : Nat) :
    Sane target { jit with longest := max jit.longest n } where
  filter := h.filter
  alive := h.alive
  epochs := h.epochs
  gens := h.gens
  mapped := h.mapped
  lined := h.lined
  placed i b code hb hCode :=
    have hPlaced := h.placed i b code hb hCode
    { hPlaced with longest := hPlaced.longest.trans (le_max_left _ _) }
  linked := h.linked
  awaits := h.awaits

theorem addBlock (h : Sane target jit) {fresh : Nat → Option U64} {b : Block} (hFree : jit.map rip long = none)
    (hFits : Fits fresh jit.blocks.length rip long b) :
    Sane (aim target fresh jit.blocks.length) (jit.addBlock rip long b).2 := by
  unfold Jit.addBlock
  dsimp only
  cases hCode : b.code with
  | none =>
    refine (h.append hFree hFits.start hFits.mode fun code hSome => ?_).setLine (if_pos ⟨rfl, rfl⟩)
    rw [hCode] at hSome
    cases hSome
  | some code =>
    have hNoted := ((h.lengthen b.insns).noteCodePage b.page0).noteCodePage b.page1
    have hSet : ∀ p, ((({ jit with longest := max jit.longest b.insns } : Jit).noteCodePage b.page0).noteCodePage
        b.page1).codePageSet p = (p == b.page1 || (p == b.page0 || jit.codePageSet p)) := by
      intro p
      rw [noteCodePage_set, noteCodePage_set]
    have hBlocks : ((({ jit with longest := max jit.longest b.insns } : Jit).noteCodePage b.page0).noteCodePage
        b.page1).blocks.length = jit.blocks.length := by
      rw [noteCodePage_eq, noteCodePage_eq]
    have hMap : ((({ jit with longest := max jit.longest b.insns } : Jit).noteCodePage b.page0).noteCodePage
        b.page1).map = jit.map := by
      rw [noteCodePage_eq, noteCodePage_eq]
    have hLongest : ((({ jit with longest := max jit.longest b.insns } : Jit).noteCodePage b.page0).noteCodePage
        b.page1).longest = max jit.longest b.insns := by
      rw [noteCodePage_eq, noteCodePage_eq]
    simp only [Option.isSome_some, if_true]
    rw [← hBlocks]
    refine (hNoted.append (by rw [hMap]; exact hFree) hFits.start hFits.mode ?_).setLine (if_pos ⟨rfl, rfl⟩)
    rintro _ hSome
    obtain ⟨hPos, hShaped⟩ := hFits.code _ hSome
    rw [hBlocks]
    exact {
      shaped := hShaped
      pos := hPos
      longest := by
        rw [hLongest]
        exact le_max_right _ _
      page0 := hFits.page0
      page1 := hFits.page1
      bytes := hFits.bytes
      noted0 := by simp [hSet]
      noted1 := by simp [hSet] }

end Sane

section Lookup

variable {target : Nat → Option U64} {jit jit' : Jit} {rip : U64} {mode : Mode} {mem : VirtualMemory}

/-- The stamps of the block's pages are still those of the memory. -/
structure Block.Valid (b : Block) (mem : VirtualMemory) : Prop where
  gen0 : mem.codePageGeneration b.page0 = b.gen0
  gen1 : mem.codePageGeneration b.page1 = b.gen1

structure Fresh (rip : U64) (mode : Mode) (mem : VirtualMemory) (b : Block) : Prop where
  start : b.origin.start = rip
  mode : b.origin.mode = mode
  source : b.origin.source = mem
  valid : b.Valid mem
  global : b.globalGen = mem.codeGeneration

def Room (jit jit' : Jit) : Prop :=
  jit' = { jit with used := jit'.used } ∨ jit' = { jit.flush with used := jit'.used }

theorem mkBlock_fresh {plan : BlockPlan} (hStart : plan.start = rip) (code : Option (List Inst)) (insns : Nat) :
    Fresh rip mode mem (mkBlock mem mode plan code insns) :=
  ⟨hStart, rfl, rfl, ⟨rfl, rfl⟩, rfl⟩

theorem mkBlock_fits {fresh : Nat → Option U64} {i maxInsns : Nat} {slots : Option Nat} {stop : U64}
    {plan : BlockPlan} (hPlan : compile mem mode rip maxInsns slots stop = some plan)
    {code : Option (List Inst)} {insns : Nat}
    (hCode : ∀ c, code = some c → 0 < insns ∧
      ∃ slots : Option Nat, (∀ base, slots = some base → base = i * MAX_LINKS) ∧ Shaped slots fresh insns c) :
    Fits fresh i rip mode.is64 (mkBlock mem mode plan code insns) := by
  obtain ⟨-, hStart, hBytes, -⟩ := compile_shaped hPlan
  exact ⟨hStart, rfl, rfl, rfl, hBytes, hCode⟩

theorem slotsFor_base (jit : Jit) (base : Nat) (h : jit.slotsFor = some base) :
    base = jit.blocks.length * MAX_LINKS := by
  unfold Jit.slotsFor at h
  split at h
  · exact (Option.some.inj h).symm
  · cases h

theorem push_eq {words : Nat} (h : jit.push words = some jit') : jit' = { jit with used := jit'.used } := by
  unfold Jit.push at h
  split at h
  · cases h
  · obtain rfl := Option.some.inj h
    rfl

theorem build_spec {b : Block} (h : jit.build rip mode mem = some (b, jit')) :
    Room jit jit' ∧ Fresh rip mode mem b ∧ ∃ fresh, Fits fresh jit'.blocks.length rip mode.is64 b := by
  unfold Jit.build at h
  simp only [bind, Option.bind, pure] at h
  split at h
  · cases h
  rename_i plan hPlan
  dsimp only at h
  have hStart := (compile_shaped hPlan).2.1
  have hNone : ∀ i, Fits (fun _ => none) i rip mode.is64 (mkBlock mem mode plan none 0) := fun i =>
    mkBlock_fits hPlan nofun
  split at h
  · obtain ⟨rfl, rfl⟩ := Prod.mk.inj (Option.some.inj h)
    exact ⟨.inl rfl, mkBlock_fresh hStart _ _, _, hNone _⟩
  rename_i hSome
  split at h
  · rename_i jit₁ hPush
    obtain ⟨rfl, rfl⟩ := Prod.mk.inj (Option.some.inj h)
    have hEq := push_eq hPush
    have hBlocks : jit₁.blocks = jit.blocks := by rw [hEq]
    obtain ⟨fresh, hShaped⟩ := (compile_shaped hPlan).2.2.2 hSome
    refine ⟨.inl hEq, mkBlock_fresh hStart _ _, fresh, mkBlock_fits hPlan ?_⟩
    rintro _ ⟨⟩
    exact ⟨Nat.pos_of_ne_zero hSome, _, hBlocks ▸ slotsFor_base jit, hShaped⟩
  · split at h
    · cases h
    rename_i again hAgain
    dsimp only at h
    have hInsns : again.insns ≠ 0 := by
      obtain ⟨plan', hPlan', hSame⟩ := compile_slots hPlan jit.flush.slotsFor
      have hMax : jit.flush.maxInsns = jit.maxInsns := by rw [Sane.flush_eq]
      rw [hMax] at hAgain
      obtain rfl := Option.some.inj (hPlan'.symm.trans hAgain)
      rwa [hSame]
    split at h
    · rename_i jit₁ hPush
      obtain ⟨rfl, rfl⟩ := Prod.mk.inj (Option.some.inj h)
      have hEq := push_eq hPush
      have hBlocks : jit₁.blocks = jit.flush.blocks := by rw [hEq]
      obtain ⟨fresh, hShaped⟩ := (compile_shaped hAgain).2.2.2 hInsns
      refine ⟨.inr hEq, mkBlock_fresh hStart _ _, fresh, mkBlock_fits hPlan ?_⟩
      rintro _ ⟨⟩
      exact ⟨Nat.pos_of_ne_zero hInsns, _, hBlocks ▸ slotsFor_base jit.flush, hShaped⟩
    · obtain ⟨rfl, rfl⟩ := Prod.mk.inj (Option.some.inj h)
      exact ⟨.inr rfl, mkBlock_fresh hStart _ _, _, hNone _⟩

theorem Sane.use (h : Sane target jit) (used : Nat) : Sane target { jit with used := used } :=
  ⟨h.filter, h.alive, h.epochs, h.gens, h.mapped, h.lined, h.placed, h.linked, h.awaits⟩

theorem Sane.room (h : Sane target jit) (hRoom : Room jit jit') : Sane target jit' := by
  rcases hRoom with hEq | hEq <;> rw [hEq]
  · exact h.use _
  · exact (h.flush target).use _

/-- How a block is found: it is in the cache, or it is built and added. -/
inductive Finds (rip : U64) (mode : Mode) (mem : VirtualMemory) (jit : Jit) : Nat → Jit → Prop
  | cached {idx : Nat} (hMap : jit.map rip mode.is64 = some idx) : Finds rip mode mem jit idx jit
  | lined {idx : Nat} (hMap : jit.map rip mode.is64 = some idx) :
      Finds rip mode mem jit idx (jit.setLine rip mode.is64 idx)
  | built {jit₁ : Jit} {b : Block} (hMap : jit.map rip mode.is64 = none) (hRoom : Room jit jit₁)
      (hFresh : Fresh rip mode mem b)
      (hFits : ∃ fresh, Fits fresh jit₁.blocks.length rip mode.is64 b) :
      Finds rip mode mem jit jit₁.blocks.length (jit₁.addBlock rip mode.is64 b).2

variable {idx : Nat}

theorem blockAt_finds (h : Sane target jit) (hAt : jit.blockAt rip mode mem = some (idx, jit')) :
    Finds rip mode mem jit idx jit' := by
  unfold Jit.blockAt at hAt
  dsimp only at hAt
  split at hAt
  · rename_i hLine
    obtain ⟨rfl, rfl⟩ := Prod.mk.inj (Option.some.inj hAt)
    have hMap := h.lined _ hLine.1
    rw [hLine.2.1, hLine.2.2] at hMap
    exact .cached hMap
  split at hAt
  · rename_i idx' hMap
    obtain ⟨rfl, rfl⟩ := Prod.mk.inj (Option.some.inj hAt)
    exact .lined hMap
  · rename_i hMap
    split at hAt
    · cases hAt
    · rename_i b jit₁ hBuild
      obtain ⟨rfl, rfl⟩ := Prod.mk.inj (Option.some.inj hAt)
      obtain ⟨hRoom, hFresh, hFits⟩ := build_spec hBuild
      exact .built hMap hRoom hFresh hFits

theorem room_map (hRoom : Room jit jit') (hMap : jit.map rip mode.is64 = none) :
    jit'.map rip mode.is64 = none := by
  rcases hRoom with hEq | hEq <;> rw [hEq]
  · exact hMap
  · rw [Sane.flush_eq]

theorem addBlock_get (jit : Jit) (rip : U64) (long : Bool) (b : Block) :
    (jit.addBlock rip long b).2.blocks = jit.blocks ++ [b] ∧
      (jit.addBlock rip long b).2.map rip long = some jit.blocks.length := by
  unfold Jit.addBlock
  dsimp only
  split
  · rw [Sane.noteCodePage_eq, Sane.noteCodePage_eq]
    exact ⟨rfl, if_pos ⟨rfl, rfl⟩⟩
  · exact ⟨rfl, if_pos ⟨rfl, rfl⟩⟩

theorem Sane.finds (h : Sane target jit) (hFinds : Finds rip mode mem jit idx jit') :
    ∃ target', Sane target' jit' ∧ jit'.map rip mode.is64 = some idx := by
  cases hFinds with
  | cached hMap => exact ⟨target, h, hMap⟩
  | lined hMap => exact ⟨target, h.setLine hMap, hMap⟩
  | built hMap hRoom hFresh hFits =>
    obtain ⟨fresh, hFits⟩ := hFits
    exact ⟨_, (h.room hRoom).addBlock (room_map hRoom hMap) hFits, (addBlock_get _ _ _ _).2⟩

def Block.stamp (b : Block) (gen : U64) : Block := { b with globalGen := gen }

/-- The outcome of a check: nothing changes, or the block found valid is stamped. -/
inductive Validates (mem : VirtualMemory) (jit : Jit) (idx : Nat) : Bool → Jit → Prop
  | current {b : Block} (hGet : jit.blocks[idx]? = some b) (hCurrent : b.globalGen = mem.codeGeneration) :
      Validates mem jit idx true jit
  | checked {b : Block} (hGet : jit.blocks[idx]? = some b) (hValid : b.Valid mem) :
      Validates mem jit idx true { jit with blocks := jit.blocks.set idx (b.stamp mem.codeGeneration) }
  | missing (hGet : jit.blocks[idx]? = none) : Validates mem jit idx false jit
  | stale {b : Block} (hGet : jit.blocks[idx]? = some b) (hStale : ¬b.Valid mem) :
      Validates mem jit idx false jit

theorem validate_validates (jit : Jit) (idx : Nat) (mem : VirtualMemory) :
    Validates mem jit idx (jit.validate idx mem).1 (jit.validate idx mem).2 := by
  unfold Jit.validate
  split
  · rename_i hGet
    exact .missing hGet
  · rename_i b hGet
    dsimp only
    split
    · rename_i hCurrent
      exact .current hGet hCurrent
    split
    · rename_i hValid
      exact .checked hGet ⟨hValid.1, hValid.2⟩
    · rename_i hStale
      exact .stale hGet fun hValid => hStale ⟨hValid.gen0, hValid.gen1⟩

theorem Sane.stamp (h : Sane target jit) {b : Block} (hGet : jit.blocks[idx]? = some b) (gen : U64) :
    Sane target { jit with blocks := jit.blocks.set idx (b.stamp gen) } := by
  have hLt := (List.getElem?_eq_some_iff.mp hGet).1
  -- every block is still there, up to its stamp
  have hSame : ∀ {i : Nat} {o : Block}, jit.blocks[i]? = some o → ∃ g,
      (jit.blocks.set idx (b.stamp gen))[i]? = some (o.stamp g) := by
    intro i o ho
    by_cases hi : idx = i
    · subst hi
      obtain rfl := Option.some.inj (hGet.symm.trans ho)
      exact ⟨gen, List.getElem?_set_self hLt⟩
    · exact ⟨o.globalGen, by rw [List.getElem?_set_ne hi]; exact ho⟩
  have hBack : ∀ {i : Nat} {o : Block}, (jit.blocks.set idx (b.stamp gen))[i]? = some o →
      ∃ o' g, jit.blocks[i]? = some o' ∧ o = o'.stamp g := by
    intro i o ho
    by_cases hi : idx = i
    · subst hi
      rw [List.getElem?_set_self hLt] at ho
      exact ⟨b, gen, hGet, (Option.some.inj ho).symm⟩
    · rw [List.getElem?_set_ne hi] at ho
      exact ⟨o, o.globalGen, ho, rfl⟩
  exact {
    filter := h.filter
    alive := h.alive
    epochs := h.epochs
    gens := h.gens
    mapped := by
      intro r l i hi
      obtain ⟨o, ho, hOrigin⟩ := h.mapped r l i hi
      obtain ⟨g, hg⟩ := hSame ho
      exact ⟨_, hg, hOrigin⟩
    lined := h.lined
    placed := by
      intro i o code ho hCode
      obtain ⟨o', g, ho', rfl⟩ := hBack ho
      have hWas := h.placed i o' code ho' hCode
      exact ⟨hWas.shaped, hWas.pos, hWas.longest, hWas.page0, hWas.page1, hWas.bytes, hWas.noted0,
        hWas.noted1⟩
    linked := by
      intro s hs
      obtain ⟨⟨o, o', ho, ho', hCode, hKey⟩, hAimed⟩ := h.linked s hs
      obtain ⟨g, hg⟩ := hSame ho
      obtain ⟨g', hg'⟩ := hSame ho'
      exact ⟨⟨_, _, hg, hg', hCode, hKey⟩, hAimed⟩
    awaits := by
      intro s hs
      obtain ⟨⟨o, ho, hLong⟩, hAimed⟩ := h.awaits s hs
      obtain ⟨g, hg⟩ := hSame ho
      exact ⟨⟨_, hg, hLong⟩, hAimed⟩ }

theorem Sane.validates (h : Sane target jit) {ok : Bool} (hVal : Validates mem jit idx ok jit') :
    Sane target jit' := by
  cases hVal with
  | current hGet hCurrent => exact h
  | checked hGet hValid => exact h.stamp hGet _
  | missing hGet => exact h
  | stale hGet hStale => exact h

inductive Dispatches (rip : U64) (mode : Mode) (mem : VirtualMemory) (jit : Jit) : Nat → Jit → Prop
  | valid {idx : Nat} {jit₁ jit₂ : Jit} (hFinds : Finds rip mode mem jit idx jit₁)
      (hVal : Validates mem jit₁ idx true jit₂) : Dispatches rip mode mem jit idx jit₂
  | rebuilt {first idx : Nat} {jit₁ jit₂ : Jit} (hFirst : Finds rip mode mem jit first jit₁)
      (hVal : Validates mem jit₁ first false jit₁) (hFinds : Finds rip mode mem jit₁.flush idx jit₂) :
      Dispatches rip mode mem jit idx jit₂

theorem dispatch_dispatches (h : Sane target jit) (hDispatch : jit.dispatch rip mode mem = some (idx, jit')) :
    Dispatches rip mode mem jit idx jit' := by
  unfold Jit.dispatch at hDispatch
  simp only [bind, Option.bind, pure] at hDispatch
  split at hDispatch
  · cases hDispatch
  rename_i found hAt
  obtain ⟨first, jit₁⟩ := found
  have hFinds := blockAt_finds h hAt
  obtain ⟨target₁, hSane, -⟩ := h.finds hFinds
  have hVal := validate_validates jit₁ first mem
  dsimp only at hDispatch
  generalize jit₁.validate first mem = checked at hDispatch hVal
  obtain ⟨ok, jit₂⟩ := checked
  cases ok with
  | true =>
    obtain ⟨rfl, rfl⟩ := Prod.mk.inj (Option.some.inj hDispatch)
    exact .valid hFinds hVal
  | false =>
    have hSame : jit₂ = jit₁ := by
      cases hVal <;> rfl
    subst hSame
    exact .rebuilt hFinds hVal (blockAt_finds (hSane.flush target₁) hDispatch)

theorem Sane.dispatches (h : Sane target jit) (hDisp : Dispatches rip mode mem jit idx jit') :
    ∃ target', Sane target' jit' ∧ jit'.map rip mode.is64 = some idx := by
  cases hDisp with
  | valid hFinds hVal =>
    obtain ⟨target', hSane, hMap⟩ := h.finds hFinds
    refine ⟨target', hSane.validates hVal, ?_⟩
    cases hVal <;> exact hMap
  | rebuilt hFirst hVal hFinds =>
    obtain ⟨target₁, hSane, -⟩ := h.finds hFirst
    exact (hSane.flush target₁).finds hFinds

end Lookup

/-- What finding and linking blocks has no business with: the TLB and the debugger. -/
structure SameTlb (jit jit' : Jit) : Prop where
  tlb : jit'.tlb = jit.tlb
  tlbLive : jit'.tlbLive = jit.tlbLive
  tlbGen : jit'.tlbGen = jit.tlbGen
  tlbWatch : jit'.tlbWatch = jit.tlbWatch
  tlbMem : jit'.tlbMem = jit.tlbMem
  tlbOn : jit'.tlbOn = jit.tlbOn
  debug : jit'.debug = jit.debug

namespace SameTlb

variable {jit jit' jit'' : Jit} {rip : U64} {mode : Mode} {mem : VirtualMemory}

theorem refl (jit : Jit) : SameTlb jit jit := ⟨rfl, rfl, rfl, rfl, rfl, rfl, rfl⟩

theorem trans (h : SameTlb jit jit') (h' : SameTlb jit' jit'') : SameTlb jit jit'' :=
  ⟨h'.tlb.trans h.tlb, h'.tlbLive.trans h.tlbLive, h'.tlbGen.trans h.tlbGen, h'.tlbWatch.trans h.tlbWatch,
    h'.tlbMem.trans h.tlbMem, h'.tlbOn.trans h.tlbOn, h'.debug.trans h.debug⟩

theorem unlinkAll (jit : Jit) : SameTlb jit jit.unlinkAll := by
  rw [Sane.unlinkAll_eq]
  exact ⟨rfl, rfl, rfl, rfl, rfl, rfl, rfl⟩

theorem flush (jit : Jit) : SameTlb jit jit.flush := by
  rw [Sane.flush_eq]
  exact ⟨rfl, rfl, rfl, rfl, rfl, rfl, rfl⟩

theorem addBlock (jit : Jit) (rip : U64) (long : Bool) (b : Block) :
    SameTlb jit (jit.addBlock rip long b).2 := by
  unfold Jit.addBlock
  dsimp only
  split
  · rw [Sane.noteCodePage_eq, Sane.noteCodePage_eq]
    exact ⟨rfl, rfl, rfl, rfl, rfl, rfl, rfl⟩
  · exact ⟨rfl, rfl, rfl, rfl, rfl, rfl, rfl⟩

theorem room (h : Room jit jit') : SameTlb jit jit' := by
  rcases h with hEq | hEq <;> rw [hEq]
  · exact ⟨rfl, rfl, rfl, rfl, rfl, rfl, rfl⟩
  · exact (flush jit).trans ⟨rfl, rfl, rfl, rfl, rfl, rfl, rfl⟩

variable {idx : Nat}

theorem finds (h : Finds rip mode mem jit idx jit') : SameTlb jit jit' := by
  cases h with
  | cached hMap => exact refl jit
  | lined hMap => exact ⟨rfl, rfl, rfl, rfl, rfl, rfl, rfl⟩
  | built hMap hRoom hFresh hFits => exact (room hRoom).trans (addBlock _ _ _ _)

theorem validates {ok : Bool} (h : Validates mem jit idx ok jit') : SameTlb jit jit' := by
  cases h <;> exact ⟨rfl, rfl, rfl, rfl, rfl, rfl, rfl⟩

theorem dispatches (h : Dispatches rip mode mem jit idx jit') : SameTlb jit jit' := by
  cases h with
  | valid hFinds hVal => exact (finds hFinds).trans (validates hVal)
  | rebuilt hFirst hVal hFinds => exact (finds hFirst).trans ((flush _).trans (finds hFinds))

end SameTlb
end Exemu.Jit
