import Exemu.Jit.History
import Exemu.Memory.Store

/-! # The inline TLB

A half of an entry stands for a page that lies inside one region, with the permission the half is
for.
-/
namespace Exemu.Jit
open VirtualMemory

section Host

variable {ctx : BlockCtx} {mem mem' : VirtualMemory} {half : Half} {addr : U64} {size : Nat}

def probedLast (addr : U64) (size : Nat) : U64 :=
  if size = 1 then addr else addr + BitVec.ofNat 64 (size - 1)

theorem probedLast_toNat (addr : U64) (size : Nat) :
    (probedLast addr size).toNat = (addr.toNat + (size - 1)) % 2 ^ 64 := by
  have hLt := addr.isLt
  unfold probedLast
  split
  · omega
  · rw [BitVec.toNat_add, BitVec.toNat_ofNat]
    omega

theorem tlbTag_toNat (addr : U64) : (tlbTag addr).toNat = addr.toNat / 4096 := by
  unfold tlbTag TLB_PAGE_BITS
  rw [BitVec.toNat_ushiftRight, Nat.shiftRight_eq_div_pow]

theorem tlbProbe_some {p : HostPtr} (h : ctx.tlbProbe half addr size = some p) :
    (ctx.tlb (tlbSlot addr)).tag half ≠ TLB_EMPTY ∧
      (ctx.tlb (tlbSlot addr)).tag half = tlbTag (probedLast addr size) ∧
      p = ((ctx.tlb (tlbSlot addr)).base half).add addr := by
  change (if (ctx.tlb (tlbSlot addr)).tag half = tlbTag (probedLast addr size) then
    some (((ctx.tlb (tlbSlot addr)).base half).add addr) else none) = some p at h
  split at h
  · rename_i hTag
    refine ⟨?_, hTag, (Option.some.inj h).symm⟩
    rw [hTag]
    intro hEmpty
    have hNat := congrArg BitVec.toNat hEmpty
    change (tlbTag (probedLast addr size)).toNat = 2 ^ 64 - 1 at hNat
    rw [tlbTag_toNat] at hNat
    have hLast := (probedLast addr size).isLt
    omega
  · cases h

variable {ptr : HostPtr} {len : Nat}

theorem hostRegion_some {i : Nat} {r : Mapped} (h : mem.hostRegion ptr len = some (i, r)) :
    mem.regions[i]? = some r ∧ r.host = ptr.alloc ∧ ptr.off.toNat + len ≤ r.region.size.toNat := by
  unfold hostRegion at h
  split at h
  · cases h
  rename_i j hFind
  split at h
  · rename_i s hGet
    split at h <;> rename_i hFits
    · obtain ⟨rfl, rfl⟩ := Prod.mk.inj (Option.some.inj h)
      obtain ⟨hj, hHost, -⟩ := List.findIdx?_eq_some_iff_getElem.mp hFind
      have hElem := (List.getElem?_eq_some_iff.mp hGet).2
      exact ⟨hGet, by rw [← hElem]; simpa using hHost, hFits⟩
    · cases h
  · cases h

theorem hostWrite_some {v : U64} (h : mem.hostWrite ptr len v = some mem') :
    ∃ i r, mem.regions[i]? = some r ∧ r.host = ptr.alloc ∧ ptr.off.toNat + len ≤ r.region.size.toNat ∧
      mem' = { mem with
        regions := mem.regions.set i { r with bytes := splice r.bytes ptr.off.toNat (toLe len v) } } := by
  obtain ⟨⟨i, r⟩, hRegion, rfl⟩ := Option.map_eq_some_iff.mp h
  obtain ⟨hGet, hHost, hFits⟩ := hostRegion_some hRegion
  exact ⟨i, r, hGet, hHost, hFits, rfl⟩

theorem hostRegion_eq (hHosted : Hosted mem) {i : Nat} {r : Mapped} (hGet : mem.regions[i]? = some r)
    (hHost : r.host = ptr.alloc) (hFits : ptr.off.toNat + len ≤ r.region.size.toNat) :
    mem.hostRegion ptr len = some (i, r) := by
  obtain ⟨hi, hElem⟩ := List.getElem?_eq_some_iff.mp hGet
  have hFind : mem.regions.findIdx? (fun m => m.host == ptr.alloc) = some i := by
    rw [List.findIdx?_eq_some_iff_getElem]
    refine ⟨hi, by rw [hElem]; simpa using hHost, fun j hj => ?_⟩
    have hNe := List.nodup_iff_getElem?_ne_getElem?.mp hHosted.distinct j i hj (by simpa using hi)
    rw [List.getElem?_map, List.getElem?_map, hGet, List.getElem?_eq_getElem (by omega)] at hNe
    simpa [hHost] using hNe
  unfold hostRegion
  rw [hFind]
  dsimp only
  rw [hGet]
  exact if_pos hFits

end Host

namespace Half

def perm : Half → Perm
  | .READ => Perm.READ
  | .WRITE => Perm.WRITE

def what : Half → String
  | .READ => "read"
  | .WRITE => "write"

def kind : Half → WatchKind
  | .READ => .Read
  | .WRITE => .Write

end Half

def Spans (mem : VirtualMemory) (half : Half) (page : U64) (p : HostPtr) : Prop :=
  ∃ (i : Nat) (r : Mapped), mem.regions[i]? = some r ∧ r.region.contains page = true ∧
    page.toNat - r.region.base.toNat + TLB_SPAN ≤ r.region.size.toNat ∧
    r.region.perm.contains half.perm = true ∧ (half = .WRITE → r.region.perm.contains Perm.EXEC = false) ∧
    p = ⟨r.host, BitVec.ofNat 64 (page.toNat - r.region.base.toNat) - page⟩

def Cached (mem : VirtualMemory) (tlb : Nat → TlbEntry) : Prop :=
  ∀ i half, (tlb i).tag half ≠ TLB_EMPTY → ∃ addr, tlbTag addr = (tlb i).tag half ∧ tlbSlot addr = i ∧
    Spans mem half (tlbPageBase addr) ((tlb i).base half)

section Cached

variable {ctx : BlockCtx} {mem mem' : VirtualMemory} {tlb : Nat → TlbEntry} {half : Half} {addr page : U64}
  {size : Nat}

theorem cached_empty (mem : VirtualMemory) : Cached mem fun _ => .EMPTY := by
  intro i half h
  cases half <;> exact absurd rfl h

theorem Spans.sameLayout {p : HostPtr} (h : Spans mem half page p) (hSame : SameLayout mem mem') :
    Spans mem' half page p := by
  obtain ⟨i, old, hOld, hContains, hFits, hPerm, hPlain, hPtr⟩ := h
  obtain ⟨r, hGet, hRegion, hHost⟩ := hSame.symm.get hOld
  rw [hRegion] at hContains hFits hPerm hPlain hPtr
  exact ⟨i, r, hGet, hContains, hFits, hPerm, hPlain, by rw [hPtr, hHost]⟩

theorem Cached.sameLayout (h : Cached mem tlb) (hSame : SameLayout mem mem') : Cached mem' tlb := by
  intro i half hTag
  obtain ⟨addr, hAddr, hSlot, hSpans⟩ := h i half hTag
  exact ⟨addr, hAddr, hSlot, hSpans.sameLayout hSame⟩

theorem tlbSpan_spans {alloc start : Nat} (h : ctx.tlbSpan half page = some (alloc, start)) :
    Spans ctx.mem half page ⟨alloc, BitVec.ofNat 64 start - page⟩ ∧ ctx.mem.watchpointsArmed = false := by
  cases half with
  | READ =>
    unfold BlockCtx.tlbSpan hostSpan at h
    dsimp only at h
    split at h
    · cases h
    rename_i hArmed
    split at h
    · rename_i i r off hLocate
      obtain ⟨rfl, rfl⟩ := Prod.mk.inj (Option.some.inj h)
      obtain ⟨hGet, hContains, rfl, hFits, hPerm⟩ := locate_ok hLocate
      exact ⟨⟨i, r, hGet, hContains, hFits, hPerm, nofun, rfl⟩,
        (Bool.or_eq_false_iff.mp (Bool.eq_false_iff.mpr hArmed)).2⟩
    · cases h
  | WRITE =>
    unfold BlockCtx.tlbSpan hostSpanMut at h
    dsimp only at h
    split at h
    · cases h
    rename_i hArmed
    split at h
    · rename_i i r off hLocate
      split at h <;> rename_i hExec
      · cases h
      obtain ⟨rfl, rfl⟩ := Prod.mk.inj (Option.some.inj h)
      obtain ⟨hGet, hContains, rfl, hFits, hPerm⟩ := locate_ok hLocate
      exact ⟨⟨i, r, hGet, hContains, hFits, hPerm, fun _ => by simpa using hExec, rfl⟩,
        (Bool.or_eq_false_iff.mp (Bool.eq_false_iff.mpr hArmed)).2⟩
    · cases h

theorem Cached.fill (ctx : BlockCtx) (h : Cached ctx.mem ctx.tlb) (half : Half) (addr : U64) :
    Cached ctx.mem (ctx.tlbFill half addr).tlb := by
  unfold BlockCtx.tlbFill
  split
  · exact h
  dsimp only
  split
  · exact h
  rename_i alloc start hSpan
  have hSpans := (tlbSpan_spans hSpan).1
  intro i other hTag
  dsimp only at hTag ⊢
  split at hTag <;> rename_i hSlot
  · rw [if_pos hSlot]
    subst hSlot
    cases half <;> cases other
    · exact ⟨addr, rfl, rfl, hSpans⟩
    · exact h _ .WRITE hTag
    · exact h _ .READ hTag
    · exact ⟨addr, rfl, rfl, hSpans⟩
  · rw [if_neg hSlot]
    exact h i other hTag

theorem Cached.probe (h : Cached ctx.mem ctx.tlb) (hWf : WellFormed ctx.mem) (hHosted : Hosted ctx.mem) {p : HostPtr}
    (hSize : isUintSize size = true) (hProbe : ctx.tlbProbe half addr size = some p)
    (hAddr : addr ≠ BitVec.allOnes 64) : ∃ i r, ctx.mem.locate addr size half.perm half.what = .ok (i, r, p.off.toNat) ∧
      ctx.mem.hostRegion p size = some (i, r) ∧ (half = .WRITE → r.region.perm.contains Perm.EXEC = false) := by
  obtain ⟨hTag, hLast, rfl⟩ := tlbProbe_some hProbe
  obtain ⟨a, hPage, hSlot, i, r, hGet, hContains, hFits, hPerm, hPlain, hBase⟩ := h _ _ hTag
  -- the page of the last byte is that of the first, since they share a slot
  have hPageNat := congrArg BitVec.toNat (hPage.trans hLast)
  rw [tlbTag_toNat, tlbTag_toNat, probedLast_toNat] at hPageNat
  unfold tlbSlot TLB_SLOTS at hSlot
  rw [tlbTag_toNat, tlbTag_toNat] at hSlot
  obtain ⟨hPos, hLe⟩ := uintSize_pos hSize
  have hAddrLt := addr.isLt
  have hALt := a.isLt
  have hMax : addr.toNat ≠ 2 ^ 64 - 1 := fun hEq => hAddr (BitVec.eq_of_toNat_eq hEq)
  have hBaseNat : (tlbPageBase a).toNat = a.toNat / 4096 * 4096 := codePage_toNat a
  obtain ⟨hLow, hHigh⟩ := (Region.contains_iff _ _).mp hContains
  have hEnd : r.region.endAddr = min (r.region.base.toNat + r.region.size.toNat) (2 ^ 64 - 1) := rfl
  have hSame : addr.toNat / 4096 * 4096 = (tlbPageBase a).toNat ∧ addr.toNat % 4096 + size ≤ 4096 := by
    rw [hBaseNat]
    omega
  unfold TLB_SPAN TLB_PAGE_BITS at hFits
  have hOff : (((ctx.tlb (tlbSlot addr)).base half).add addr).off.toNat = addr.toNat - r.region.base.toNat := by
    rw [hBase]
    change (BitVec.ofNat 64 ((tlbPageBase a).toNat - r.region.base.toNat) - tlbPageBase a + addr).toNat = _
    rw [BitVec.toNat_add, BitVec.toNat_sub, BitVec.toNat_ofNat]
    omega
  have hFits' : addr.toNat - r.region.base.toNat + size ≤ r.region.size.toNat := by omega
  have hContains' : r.region.contains addr = true := (Region.contains_iff _ _).mpr (by omega)
  refine ⟨i, r, ?_, hostRegion_eq hHosted hGet ?_ (by rw [hOff]; exact hFits'), hPlain⟩
  · rw [hOff]
    exact locate_eq_ok hWf.separated hGet hContains' hFits' hPerm
  · rw [hBase]
    rfl

end Cached

/-- An access through a cached pointer is the access the memory would have made, and nobody watches it. -/
structure Sound (half : Half) (addr : U64) (size : Nat) (p : HostPtr) (debug : Option DebugControl)
    (mem : VirtualMemory) : Prop where
  place : ∃ i r, mem.locate addr size half.perm half.what = .ok (i, r, p.off.toNat) ∧
    mem.hostRegion p size = some (i, r)
  read : half = .READ → ∃ v, mem.readUint addr size = .ok v ∧ mem.hostRead p size = some v
  write : half = .WRITE → ∀ v, ∃ mem', mem.writeUint addr size v = .ok mem' ∧
    mem.hostWrite p size v = some mem' ∧ mem'.codeGeneration = mem.codeGeneration ∧
    ∀ a, mem'.codePageGeneration a = mem.codePageGeneration a
  unwatched : ∀ d, mem.debug = some d ∨ debug = some d →
    d.isWatched addr (BitVec.ofNat 64 size) half.kind = false

/-- Every inline access of the log was sound, that of the last address of all excepted. -/
def Sounds (log : List Event) : Prop :=
  ∀ half addr size p debug mem, .inlined half addr size p debug mem ∈ log → addr ≠ BitVec.allOnes 64 →
    Sound half addr size p debug mem

section Call

variable {p : Params} {ctx ctx' : BlockCtx} {mem : VirtualMemory} {half : Half} {addr : U64} {size : Nat}
  {log es : List Event}

theorem Sounds.append (h : Sounds log) (es : List Event)
    (hEs : ∀ half addr size p debug mem, .inlined half addr size p debug mem ∈ es → addr ≠ BitVec.allOnes 64 →
      Sound half addr size p debug mem) : Sounds (log ++ es) := by
  intro half addr size p debug mem hMem
  rcases List.mem_append.mp hMem with hMem | hMem
  · exact h half addr size p debug mem hMem
  · exact hEs half addr size p debug mem hMem

def Unwatched (mem : VirtualMemory) (debug : Option DebugControl) : Prop :=
  mem.watchpointsArmed = false ∧ debug.any DebugControl.anyWatchpoints = false

theorem Cached.sound (h : Cached ctx.mem ctx.tlb) (hWf : WellFormed ctx.mem) (hHosted : Hosted ctx.mem) {p : HostPtr}
    (hSize : isUintSize size = true) (hProbe : ctx.tlbProbe half addr size = some p)
    (hUnwatched : Unwatched ctx.mem ctx.debug) (hAddr : addr ≠ BitVec.allOnes 64) :
    Sound half addr size p ctx.debug ctx.mem := by
  obtain ⟨i, r, hLocate, hHost, hPlain⟩ := h.probe hWf hHosted hSize hProbe hAddr
  refine ⟨⟨i, r, hLocate, hHost⟩, ?_, ?_, ?_⟩
  · rintro rfl
    refine ⟨fromLe (slice r.bytes p.off.toNat size), ?_, ?_⟩
    · unfold readUint
      rw [if_pos hSize]
      rw [show ctx.mem.locate addr size Perm.READ "read" = .ok (i, r, p.off.toNat) from hLocate]
      rfl
    · unfold hostRead
      rw [hHost]
      rfl
  · rintro rfl v
    refine ⟨{ ctx.mem with
      regions := ctx.mem.regions.set i { r with bytes := splice r.bytes p.off.toNat (toLe size v) } }, ?_, ?_, rfl,
        fun _ => rfl⟩
    · unfold writeUint
      rw [if_pos hSize]
      rw [show ctx.mem.locate addr size Perm.WRITE "write" = .ok (i, r, p.off.toNat) from hLocate]
      change Except.ok (ctx.mem.store i r addr p.off.toNat (toLe size v)) = _
      unfold store
      dsimp only
      rw [if_neg (by rw [hPlain rfl]; decide)]
    · unfold hostWrite
      rw [hHost]
      rfl
  · intro d hd
    apply DebugControl.not_isWatched_of_not_anyWatchpoints
    rcases hd with hd | hd
    · have hArmed := hUnwatched.1
      unfold watchpointsArmed at hArmed
      rw [hd] at hArmed
      exact hArmed
    · have hArmed := hUnwatched.2
      rw [hd] at hArmed
      exact hArmed

/-- The TLB in the course of a call that began with `mem`. -/
structure Trusted (p : Params) (mem : VirtualMemory) (ctx : BlockCtx) : Prop where
  on : ctx.tlbOn = p.tlbOn
  debug : ctx.debug = p.debug
  layout : SameLayout mem ctx.mem
  wellFormed : WellFormed ctx.mem
  cached : Cached ctx.mem ctx.tlb
  unwatched : (ctx.tlbOn = true ∨ ∃ i half, (ctx.tlb i).tag half ≠ TLB_EMPTY) → Unwatched ctx.mem ctx.debug
  sounds : Sounds ctx.log

theorem Unwatched.sameLayout {mem' : VirtualMemory} {debug : Option DebugControl} (h : Unwatched mem debug)
    (hSame : SameLayout mem mem') : Unwatched mem' debug := by
  unfold Unwatched watchpointsArmed at *
  rwa [hSame.debug]

theorem Trusted.inlined (h : Trusted p mem ctx) (hHosted : Hosted mem) {ptr : HostPtr} (hSize : isUintSize size = true)
    (hProbe : ctx.tlbProbe half addr size = some ptr) :
    Sounds (ctx.log ++ [.inlined half addr size ptr ctx.debug ctx.mem]) := by
  refine h.sounds.append _ fun half' addr' size' p' debug' mem' hMem hAddr => ?_
  cases List.mem_singleton.mp hMem
  exact h.cached.sound h.wellFormed (h.layout.hosted hHosted) hSize hProbe
    (h.unwatched (.inr ⟨_, half, (tlbProbe_some hProbe).1⟩)) hAddr

theorem Trusted.quiet (h : Trusted p mem ctx) (hLog : Sounds ctx'.log) (hMem : ctx'.mem = ctx.mem)
    (hTlb : ctx'.tlb = ctx.tlb) (hOn : ctx'.tlbOn = ctx.tlbOn) (hDebug : ctx'.debug = ctx.debug) : Trusted p mem ctx' :=
  ⟨hOn.trans h.on, hDebug.trans h.debug, hMem ▸ h.layout, hMem ▸ h.wellFormed, by rw [hMem, hTlb]; exact h.cached,
    by rw [hMem, hTlb, hOn, hDebug]; exact h.unwatched, hLog⟩

theorem Trusted.carried (p : Params) (hHosted : Hosted mem) (jit : Jit) : Carried jit (Trusted p mem) where
  act := by
    intro ctx ctx' _ h hAct
    have hQuiet : ∀ {log : List Event} {e : Event}, Sounds log →
        (∀ half addr size p debug mem, e ≠ .inlined half addr size p debug mem) → Sounds (log ++ [e]) :=
      fun hLog hNot => hLog.append _ fun _ _ _ _ _ _ hMem => absurd (List.mem_singleton.mp hMem).symm (hNot _ _ _ _ _ _)
    cases hAct with
    | begun rip => exact h.quiet (hQuiet h.sounds (by simp)) rfl rfl rfl rfl
    | inlineLoad hSize hProbe hHost => exact h.quiet (h.inlined hHosted hSize hProbe) rfl rfl rfl rfl
    | @readFill addr size v hOn hRead =>
      have hCached := h.cached.fill _ .READ addr
      rw [BlockCtx.tlbFill_eq]
      exact ⟨h.on, h.debug, h.layout, h.wellFormed, hCached, fun _ => h.unwatched (.inl hOn), h.sounds⟩
    | @inlineStore addr size p v mem' hSize hProbe hHost =>
      obtain ⟨i, r, hGet, -, -, hEq⟩ := hostWrite_some hHost
      have hLayout : SameLayout ctx.mem mem' := hEq ▸ SameLayout.set hGet _
      refine ⟨h.on, h.debug, h.layout.trans hLayout, h.wellFormed.set _ hGet ?_ ?_ (congrArg VirtualMemory.regions hEq),
        h.cached.sameLayout hLayout, fun hOn => (h.unwatched hOn).sameLayout hLayout,
        hQuiet (h.inlined hHosted hSize hProbe) (by simp)⟩
      · rfl
      · rfl
    | @helperStore addr size v mem' hWrite =>
      have hStores := stores_writeUint hWrite
      have hLayout := hStores.sameLayout
      have hCached := h.cached.sameLayout hLayout
      have hTlb := landed_tlb ctx mem' addr size
      have hSounds : Sounds (ctx.log ++ [.stored addr size ctx.mem ctx.live
          (if ctx.pageHit addr size then .Reported else .Silent)]) := hQuiet h.sounds (by simp)
      rw [landed_eq]
      generalize (ctx.landed mem' addr size).tlb = tlb at hTlb ⊢
      refine ⟨h.on, h.debug, h.layout.trans hLayout, hStores.wellFormed h.wellFormed, ?_, fun hOn => ?_, hSounds⟩
      · change Cached mem' tlb
        rw [hTlb]
        split
        · exact Cached.fill { ctx with mem := mem' } hCached .WRITE addr
        · exact hCached
      · refine (h.unwatched ?_).sameLayout hLayout
        cases hTlbOn : ctx.tlbOn with
        | true => exact .inl rfl
        | false =>
          rw [hTlbOn] at hTlb
          refine hOn.imp (fun hSet => ?_) fun ⟨i, half, hTag⟩ => ⟨i, half, ?_⟩
          · rw [← hTlbOn]
            exact hSet
          · rw [hTlb] at hTag
            exact hTag
  stray := by
    intro ctx ctx' _ h hStray
    cases hStray with
    | load hSize hProbe hHost => exact h.quiet (h.inlined hHosted hSize hProbe) rfl rfl rfl rfl
    | store hSize hProbe hHost => exact h.quiet (h.inlined hHosted hSize hProbe) rfl rfl rfl rfl
  tail retired pending h := h.quiet h.sounds rfl rfl rfl rfl
  link := by
    intro ctx s b _ h _ _ _
    exact h.quiet (h.sounds.append _ fun _ _ _ _ _ _ hMem => Event.noConfusion (List.mem_singleton.mp hMem))
      rfl rfl rfl rfl

end Call

section Runs

variable {m : Machine} {p : Params}

def Machine.object (m : Machine) (id : Nat) : VirtualMemory := if id = m.memId then m.mem else m.others id

structure Running (p : Params) (m : Machine) : Prop where
  sane : ∃ target, Sane target m.jit
  wellFormed : WellFormed m.mem
  hosted : Hosted m.mem
  others : ∀ id, WellFormed (m.others id) ∧ Hosted (m.others id)
  debug : p.debug = m.jit.debug
  live : m.jit.tlbLive = true
  gen : m.jit.tlbGen = m.mem.layoutGen
  home : m.jit.tlbMem = m.memId
  watch : m.jit.tlbWatch = m.jit.watching m.mem
  cached : Cached m.mem m.jit.tlb
  unwatched : (p.tlbOn = true ∨ ∃ i half, (m.jit.tlb i).tag half ≠ TLB_EMPTY) → Unwatched m.mem m.jit.debug
  sounds : Sounds m.log

theorem Running.setJit {jit : Jit} (h : Running p m) (hSane : ∃ target, Sane target jit)
    (hTlb : SameTlb m.jit jit) : Running p (m.setJit jit) where
  sane := hSane
  wellFormed := h.wellFormed
  hosted := h.hosted
  others := h.others
  debug := h.debug.trans hTlb.debug.symm
  live := hTlb.tlbLive.trans h.live
  gen := hTlb.tlbGen.trans h.gen
  home := hTlb.tlbMem.trans h.home
  watch := by
    refine hTlb.tlbWatch.trans (h.watch.trans ?_)
    change m.jit.watching m.mem = jit.watching m.mem
    unfold Jit.watching
    rw [hTlb.debug]
  cached := by
    change Cached m.mem jit.tlb
    rw [hTlb.tlb]
    exact h.cached
  unwatched := by
    change (p.tlbOn = true ∨ ∃ i half, (jit.tlb i).tag half ≠ TLB_EMPTY) → Unwatched m.mem jit.debug
    rw [hTlb.tlb, hTlb.debug]
    exact h.unwatched
  sounds := h.sounds

theorem Running.harvest {native : Native} {ctx : BlockCtx} (h : Running p m) (hTrusted : Trusted p m.mem ctx)
    (hSane : ∃ target, Sane target (m.harvest p native ctx).jit) : Running p (m.harvest p native ctx) := by
  have hTlb := SameTlb.settleSmc { m.jit with
    tlb := ctx.tlb, pending := ctx.pending, pendingRip := native.cpu.rip, pendingLong := p.mode.is64 }
    ctx.smc ctx.smcHits
  refine ⟨hSane, hTrusted.wellFormed, hTrusted.layout.hosted h.hosted, h.others, h.debug.trans hTlb.debug.symm,
    hTlb.tlbLive.trans h.live, hTlb.tlbGen.trans (h.gen.trans hTrusted.layout.layoutGen.symm), hTlb.tlbMem.trans h.home,
    ?_, ?_, ?_, hTrusted.sounds⟩
  · refine hTlb.tlbWatch.trans (h.watch.trans ?_)
    change m.jit.watching m.mem = Jit.watching (Jit.settleSmc _ _ _) ctx.mem
    unfold Jit.watching watchpointsArmed
    rw [hTlb.debug, hTrusted.layout.debug]
  · change Cached ctx.mem (Jit.settleSmc _ _ _).tlb
    rw [hTlb.tlb]
    exact hTrusted.cached
  · intro hOn
    change Unwatched ctx.mem (Jit.settleSmc _ _ _).debug
    change p.tlbOn = true ∨ (∃ i half, ((Jit.settleSmc _ _ _).tlb i).tag half ≠ TLB_EMPTY) at hOn
    rw [hTlb.tlb, ← hTrusted.on] at hOn
    rw [hTlb.debug]
    have hQuiet := hTrusted.unwatched hOn
    rwa [hTrusted.debug, h.debug] at hQuiet

theorem Running.turn (h : Running p m) (retired : Nat) : Running p (m.turn p retired).machine := by
  obtain ⟨target, hSane⟩ := h.sane
  have hDispatched : ∀ {idx : Nat} {jit : Jit},
      Dispatches m.native.cpu.rip p.mode m.mem m.jit.debugGenerationCheck idx jit → SameTlb m.jit jit := fun hDisp =>
    (SameTlb.debugGenerationCheck m.jit).trans (SameTlb.dispatches hDisp)
  refine turn_rule hSane retired h (fun {_ jit} hDisp => ?_) (fun {idx jit b} hDisp hGet hCode => ?_) ?_
  · obtain ⟨target', hSane', -⟩ := hSane.debugGenerationCheck.dispatches hDisp
    have hDrop : SameTlb jit { jit with pending := none } := ⟨rfl, rfl, rfl, rfl, rfl, rfl, rfl⟩
    exact h.setJit ⟨target', hSane'.drop⟩ ((hDispatched hDisp).trans hDrop)
  · obtain ⟨target', hSane', hMap⟩ := hSane.debugGenerationCheck.dispatches hDisp
    have hFilled := h.setJit ⟨target', hSane'.fillPending hMap hGet hCode⟩
      ((hDispatched hDisp).trans (SameTlb.fillPending jit m.native.cpu.rip p.mode.is64 idx))
    exact { hFilled with sounds := h.sounds.append _ fun _ _ _ _ _ _ hMem => Event.noConfusion (List.mem_singleton.mp hMem) }
  · intro idx jit jit' b target' _ _ _ _ hSane' hFilled
    have hEnter := hFilled.sounds.append [.entered false b.origin m.mem]
      fun _ _ _ _ _ _ hMem => Event.noConfusion (List.mem_singleton.mp hMem)
    refine ⟨_, Trusted.carried p hFilled.hosted jit', ⟨rfl, rfl, .refl _, hFilled.wellFormed, hFilled.cached,
      fun hOn => ?_, hEnter⟩, ?_⟩
    · have hQuiet := hFilled.unwatched hOn
      rwa [← hFilled.debug] at hQuiet
    · intro native ctx hTied h' hPending
      exact hFilled.harvest h' ⟨target', hSane'.harvest hPending⟩

structure Secure (m : Machine) : Prop where
  sane : ∃ target, Sane target m.jit
  wellFormed : WellFormed m.mem
  hosted : Hosted m.mem
  others : ∀ id, WellFormed (m.others id) ∧ Hosted (m.others id)
  live : (∃ i half, (m.jit.tlb i).tag half ≠ TLB_EMPTY) → m.jit.tlbLive = true ∧ m.jit.tlbWatch = false
  gen : m.jit.tlbLive = true → m.jit.tlbGen.toNat ≤ (m.object m.jit.tlbMem).layoutGen.toNat
  cached : m.jit.tlbLive = true → m.jit.tlbGen = (m.object m.jit.tlbMem).layoutGen →
    Cached (m.object m.jit.tlbMem) m.jit.tlb
  sounds : Sounds m.log

theorem watching_eq_false_iff {jit : Jit} {mem : VirtualMemory} :
    jit.watching mem = false ↔ Unwatched mem jit.debug := Bool.or_eq_false_iff

theorem object_self (m : Machine) : m.object m.memId = m.mem := if_pos rfl

theorem Running.secure (h : Running p m) : Secure m where
  sane := h.sane
  wellFormed := h.wellFormed
  hosted := h.hosted
  others := h.others
  live hSet := ⟨h.live, h.watch.trans (watching_eq_false_iff.mpr (h.unwatched (.inr hSet)))⟩
  gen _ := by rw [h.home, object_self, h.gen]
  cached _ _ := by
    rw [h.home, object_self]
    exact h.cached
  sounds := h.sounds

theorem not_filled_empty : ¬∃ (i : Nat) (half : Half), ((fun _ => TlbEntry.EMPTY) i).tag half ≠ TLB_EMPTY := by
  rintro ⟨i, half, h⟩
  cases half <;> exact h rfl

theorem Secure.check (h : Secure m) (mode : Mode) (budget : Nat) : Running (m.params mode budget true)
    (m.setJit (m.jit.tlbCheck m.mem m.memId (m.jit.watching m.mem))) := by
  have hSane : ∃ target, Sane target (m.jit.tlbCheck m.mem m.memId (m.jit.watching m.mem)) := by
    obtain ⟨target, hSane⟩ := h.sane
    exact ⟨target, hSane.tlbCheck _ _ _⟩
  have hOn : (m.params mode budget true).tlbOn = true → m.jit.watching m.mem = false := by
    intro hOn
    have hBoth := (Bool.and_eq_true _ _).mp hOn
    simpa using hBoth.2
  revert hSane
  unfold Jit.tlbCheck
  dsimp only
  split <;> rename_i hReset <;> intro hSane
  · exact ⟨hSane, h.wellFormed, h.hosted, h.others, rfl, rfl, rfl, rfl, rfl, cached_empty _,
      fun hSet => watching_eq_false_iff.mp (hOn (hSet.resolve_right not_filled_empty)), h.sounds⟩
  · simp only [Bool.or_eq_true, Bool.not_eq_true', bne_iff_ne, ne_eq, not_or, Bool.not_eq_false, not_not] at hReset
    obtain ⟨⟨⟨hLive, hGen⟩, hWatch⟩, hHome⟩ := hReset
    have hCached := h.cached hLive
    rw [← hHome, object_self] at hCached
    refine ⟨hSane, h.wellFormed, h.hosted, h.others, rfl, hLive, hGen.symm, hHome.symm, hWatch.symm, hCached hGen.symm,
      fun hSet => watching_eq_false_iff.mp ?_, h.sounds⟩
    rcases hSet with hSet | hSet
    · exact hOn hSet
    · exact hWatch.trans (h.live hSet).2

end Runs

/-- A change of the layout moves its generation to a new value, and a new memory object in the place of the
one the TLB was filled from has gone through more changes. -/
def Settled (m : Machine) : HostOp → Prop
  | .memory op => op.written = none → m.mem.layoutGen ≠ BitVec.allOnes 64
  | .replace ops => m.jit.tlbLive = true → m.jit.tlbMem = m.memId →
      m.jit.tlbGen < (VirtualMemory.new.history ops).layoutGen
  | _ => True

section History

variable {m : Machine}

theorem Secure.setMem {mem : VirtualMemory} (h : Secure m) (hWf : WellFormed mem) (hHosted : Hosted mem)
    (hKept : m.jit.tlbLive = true → m.jit.tlbMem = m.memId → m.jit.tlbGen.toNat ≤ mem.layoutGen.toNat ∧
      (m.jit.tlbGen = mem.layoutGen → Cached mem m.jit.tlb)) : Secure (m.setMem mem) := by
  have hObject : ∀ id, (m.setMem mem).object id = if id = m.memId then mem else m.object id := by
    intro id
    unfold Machine.object
    by_cases hHome : id = m.memId
    · rw [if_pos hHome]
      exact if_pos hHome
    · rw [if_neg hHome, if_neg hHome]
      exact if_neg hHome
  refine ⟨h.sane, hWf, hHosted, h.others, h.live, fun hLive => ?_, fun hLive => ?_, h.sounds⟩
  · change m.jit.tlbGen.toNat ≤ ((m.setMem mem).object m.jit.tlbMem).layoutGen.toNat
    rw [hObject]
    split <;> rename_i hHome
    · exact (hKept hLive hHome).1
    · exact h.gen hLive
  · change m.jit.tlbGen = ((m.setMem mem).object m.jit.tlbMem).layoutGen →
      Cached ((m.setMem mem).object m.jit.tlbMem) m.jit.tlb
    rw [hObject]
    split <;> rename_i hHome
    · exact (hKept hLive hHome).2
    · exact h.cached hLive

theorem Secure.home (h : Secure m) (hLive : m.jit.tlbLive = true) (hHome : m.jit.tlbMem = m.memId) :
    m.jit.tlbGen.toNat ≤ m.mem.layoutGen.toNat ∧ (m.jit.tlbGen = m.mem.layoutGen → Cached m.mem m.jit.tlb) := by
  have hGen := h.gen hLive
  have hCached := h.cached hLive
  rw [hHome, object_self] at hGen hCached
  exact ⟨hGen, hCached⟩

theorem Secure.setMemDebug (h : Secure m) (debug : Option DebugControl) :
    Secure (m.setMem { m.mem with debug := debug }) :=
  h.setMem ⟨h.wellFormed.separated, h.wellFormed.nonempty⟩ ⟨h.hosted.distinct, h.hosted.below⟩ h.home

theorem Secure.emptied {jit : Jit} (h : Secure m) (hSane : ∃ target, Sane target jit)
    (hTlb : jit.tlb = fun _ => .EMPTY) (hLive : jit.tlbLive = false) : Secure (m.setJit jit) := by
  refine ⟨hSane, h.wellFormed, h.hosted, h.others, fun hSet => ?_, fun hNot => ?_, fun hNot => ?_, h.sounds⟩
  · change ∃ i half, (jit.tlb i).tag half ≠ TLB_EMPTY at hSet
    rw [hTlb] at hSet
    exact absurd hSet not_filled_empty
  · exact absurd (hLive.symm.trans hNot) Bool.false_ne_true
  · exact absurd (hLive.symm.trans hNot) Bool.false_ne_true

theorem object_select (m : Machine) (id i : Nat) : (m.select id).object i = m.object i := by
  unfold Machine.object Machine.select
  dsimp only
  by_cases hId : i = id
  · rw [if_pos hId, hId]
  · rw [if_neg hId]

theorem Secure.apply (h : Secure m) {op : HostOp} (hSettled : Settled m op) : Secure (m.apply op) := by
  have hSane := Sane.apply h.sane op
  cases op with
  | memory op =>
    refine h.setMem (h.wellFormed.apply op) (h.hosted.apply op) fun hLive hHome => ?_
    obtain ⟨hGen, hCached⟩ := h.home hLive hHome
    rcases apply_layout m.mem op with hSame | ⟨hWritten, hNext⟩
    · rw [hSame.layoutGen]
      exact ⟨hGen, fun hEq => (hCached hEq).sameLayout hSame⟩
    · have hMoved := add_one_toNat_of_ne_allOnes (hSettled hWritten)
      rw [hNext]
      refine ⟨by omega, fun hEq => ?_⟩
      have hNat := congrArg BitVec.toNat hEq
      omega
  | select id =>
    have hObject := object_select m id
    refine ⟨hSane, ?_, ?_, fun i => ?_, h.live, fun hLive => ?_, fun hLive => ?_, h.sounds⟩
    · change WellFormed (if id = m.memId then m.mem else m.others id)
      split
      · exact h.wellFormed
      · exact (h.others id).1
    · change Hosted (if id = m.memId then m.mem else m.others id)
      split
      · exact h.hosted
      · exact (h.others id).2
    · change WellFormed (if i = m.memId then m.mem else m.others i) ∧ Hosted (if i = m.memId then m.mem else m.others i)
      split
      · exact ⟨h.wellFormed, h.hosted⟩
      · exact h.others i
    · change m.jit.tlbGen.toNat ≤ ((m.select id).object m.jit.tlbMem).layoutGen.toNat
      rw [hObject]
      exact h.gen hLive
    · change m.jit.tlbGen = ((m.select id).object m.jit.tlbMem).layoutGen →
        Cached ((m.select id).object m.jit.tlbMem) m.jit.tlb
      rw [hObject]
      exact h.cached hLive
  | replace ops =>
    refine h.setMem (wellFormed_history wellFormed_new ops) (hosted_history hosted_new ops) fun hLive hHome => ?_
    have hLess := BitVec.lt_def.mp (hSettled hLive hHome)
    exact ⟨Nat.le_of_lt hLess, fun hEq => absurd (congrArg BitVec.toNat hEq) (Nat.ne_of_lt hLess)⟩
  | watch debug => exact h.setMemDebug _
  | rearm debug => exact ⟨hSane, h.wellFormed, h.hosted, h.others, h.live, h.gen, h.cached, h.sounds⟩
  | rearmMemory debug => exact h.setMemDebug _
  | setDebug debug => exact h.emptied hSane rfl rfl
  | setTlb on => exact h.emptied hSane rfl rfl
  | setMaxInsns n => exact ⟨hSane, h.wellFormed, h.hosted, h.others, h.live, h.gen, h.cached, h.sounds⟩
  | invalidate => exact h.emptied hSane rfl rfl
  | run native mode budget =>
    have hNative : Secure (m.setNative native) :=
      ⟨h.sane, h.wellFormed, h.hosted, h.others, h.live, h.gen, h.cached, h.sounds⟩
    exact (loop_rule (J := Running _) (fun _ retired hm => hm.turn retired) _ (hNative.check mode budget) 0).secure

theorem secure_start (capacity : Nat) (native : Native) (ops : List MemoryOp) :
    Secure (Machine.start capacity native (.history .new ops)) where
  sane := sane_start capacity native _
  wellFormed := wellFormed_history wellFormed_new ops
  hosted := hosted_history hosted_new ops
  others _ := ⟨wellFormed_new, hosted_new⟩
  live hSet := absurd hSet not_filled_empty
  gen hLive := by cases hLive
  cached hLive := by cases hLive
  sounds := nofun

/-- In a history whose layout generations never come round, and where a new memory object only takes the place of
the TLB's at a later generation: an inline access is the access the memory itself would make, the last address of
all excepted. -/
theorem inline_access_sound (capacity : Nat) (native : Native) (before : List MemoryOp) (ops : List HostOp)
    (hSettled : Stamp.Along Machine.apply Settled (Machine.start capacity native (.history .new before)) ops)
    (half : Half) (addr : U64) (size : Nat) (ptr : HostPtr) (debug : Option DebugControl) (mem : VirtualMemory)
    (hInlined : .inlined half addr size ptr debug mem ∈
      ((Machine.start capacity native (.history .new before)).history ops).log)
    (hAddr : addr ≠ BitVec.allOnes 64) : Sound half addr size ptr debug mem :=
  (hSettled.keeps (J := Secure) (fun _ _ _ hm hNot => hm.apply hNot) (secure_start capacity native before)).sounds
    half addr size ptr debug mem hInlined hAddr

end History

section Programs

set_option maxRecDepth 100000

def Event.inlineLoad : Event → Option (U64 × Result U64)
  | .inlined .READ addr size _ _ mem => some (addr, mem.readUint addr size)
  | _ => none

/-- `mov al, [rdi]`, `mov al, [rsi]`, over a data page at the very end of the address space. -/
def lastPage : List MemoryOp :=
  [.map true ⟨"code", 0x1000, 0x1000, Perm.RX⟩, .map true ⟨"data", 0xFFFFFFFFFFFFF000, 0x1000, Perm.RW⟩,
    .poke 0x1000 [0x8A, 0x07, 0x8A, 0x06, 0xEB, 0xFE]]

def loadAt (rip rdi rsi : U64) : Native :=
  .ofCpu { gpr := fun i => if i = Reg.Rsi then rsi else if i = Reg.Rdi then rdi else 0, rip := rip }

def lastPageLog (rsi : U64) : List Event :=
  ((Machine.start 65536 (loadAt 0 0 0) (.history .new lastPage)).history
    [.run (loadAt 0x1000 0xFFFFFFFFFFFFF000 rsi) .Long 3]).log

theorem inlineLoad_some {e : Event} {addr : U64} {r : Result U64} (h : e.inlineLoad = some (addr, r)) :
    ∃ size p debug mem, e = .inlined .READ addr size p debug mem ∧ r = mem.readUint addr size := by
  unfold Event.inlineLoad at h
  split at h
  · obtain ⟨rfl, rfl⟩ := Prod.mk.inj (Option.some.inj h)
    exact ⟨_, _, _, _, rfl, rfl⟩
  · cases h

/-- The page is filled by the first load; the second goes through the TLB and is sound. -/
theorem inline_access_sound_last_page : ∃ size p debug mem,
    .inlined .READ 0xFFFFFFFFFFFFF010 size p debug mem ∈ lastPageLog 0xFFFFFFFFFFFFF010 ∧
      Sound .READ 0xFFFFFFFFFFFFF010 size p debug mem := by
  have hSome : ((lastPageLog 0xFFFFFFFFFFFFF010)[4]?.bind Event.inlineLoad).any
      (fun l => l.1 == 0xFFFFFFFFFFFFF010) = true := by decide
  obtain ⟨⟨addr, r⟩, hLoad, hAddr⟩ := (Option.any_eq_true _ _).mp hSome
  obtain ⟨e, he, hInline⟩ := Option.bind_eq_some_iff.mp hLoad
  obtain ⟨size, p, debug, mem, rfl, -⟩ := inlineLoad_some hInline
  obtain rfl : addr = 0xFFFFFFFFFFFFF010 := by simpa using hAddr
  have hMem := List.mem_of_getElem? he
  exact ⟨size, p, debug, mem, hMem, inline_access_sound 65536 (loadAt 0 0 0) lastPage
    [.run (loadAt 0x1000 0xFFFFFFFFFFFFF000 0xFFFFFFFFFFFFF010) .Long 3] (.cons trivial (.nil _)) .READ
    0xFFFFFFFFFFFFF010 size p debug mem hMem (by decide)⟩

/-- The last byte of the address space belongs to no region, but to a cached page: the load through the TLB
succeeds where the memory refuses it. -/
theorem last_byte_loaded_inline :
    ¬∀ (capacity : Nat) (native : Native) (before : List MemoryOp) (ops : List HostOp) (half : Half) (addr : U64)
      (size : Nat) (ptr : HostPtr) (debug : Option DebugControl) (mem : VirtualMemory),
      .inlined half addr size ptr debug mem ∈
        ((Machine.start capacity native (.history .new before)).history ops).log →
      Sound half addr size ptr debug mem := by
  intro h
  have hAll : ∀ half addr size ptr debug mem,
      .inlined half addr size ptr debug mem ∈ lastPageLog 0xFFFFFFFFFFFFFFFF → Sound half addr size ptr debug mem :=
    h 65536 (loadAt 0 0 0) lastPage [.run (loadAt 0x1000 0xFFFFFFFFFFFFF000 0xFFFFFFFFFFFFFFFF) .Long 3]
  clear h
  have hSome : ((lastPageLog 0xFFFFFFFFFFFFFFFF)[4]?.bind Event.inlineLoad).any (fun l => !l.2.isOk) = true := by
    decide
  obtain ⟨⟨addr, r⟩, hLoad, hRefused⟩ := (Option.any_eq_true _ _).mp hSome
  obtain ⟨e, he, hInline⟩ := Option.bind_eq_some_iff.mp hLoad
  obtain ⟨size, p, debug, mem, rfl, rfl⟩ := inlineLoad_some hInline
  obtain ⟨v, hRead, -⟩ := (hAll _ _ _ _ _ _ (List.mem_of_getElem? he)).read rfl
  rw [hRead] at hRefused
  cases hRefused

end Programs
end Exemu.Jit
