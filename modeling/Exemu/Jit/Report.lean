import Exemu.Jit.History

/-! # What the reports of a call say

A store of the helper that hits a page with code is reported, and reports kill the links: at once
for the code that is running, and for good when the dispatcher settles them.
-/
namespace Exemu.Jit

namespace Event

def isDispatched : Event → Bool
  | .dispatched _ _ => true
  | _ => false

def reported : Event → Bool
  | .stored _ _ _ _ note => note == .Reported
  | _ => false

def inline : Event → Bool
  | .stored _ _ _ _ note => note == .Inline
  | _ => false

def followed : Event → Option Origin
  | .entered true o _ => some o
  | _ => none

def checked : Event → Option Origin
  | .dispatched o _ => some o
  | _ => none

end Event

/-- The last of `size` bytes at `addr`. -/
def lastAddr (addr : U64) (size : Nat) : U64 := addr + (BitVec.ofNat 64 size - 1)

def Event.hits : Event → Bool
  | .stored addr size _ live _ => live (codePage addr) || live (codePage (lastAddr addr size))
  | _ => false

/-- The one report of the call is of a store that reaches from a page without code into one with code. -/
def Forgiven (call : List Event) : Bool :=
  match call.filter Event.reported with
  | [.stored addr size _ live _] => !live (codePage addr) && live (codePage (lastAddr addr size))
  | _ => false

def calls : List Event → List (List Event)
  | [] => []
  | e :: es =>
    if e.isDispatched then es.takeWhile (fun e => !e.isDispatched) :: calls es else calls es

section Pages

theorem codePage_eq_iff {a b : U64} :
    codePage a = codePage b ↔ a.toNat / CODE_PAGE_SIZE = b.toNat / CODE_PAGE_SIZE := by
  have ha := VirtualMemory.codePage_toNat a
  have hb := VirtualMemory.codePage_toNat b
  constructor
  · intro h
    have hEq := congrArg BitVec.toNat h
    rw [ha, hb] at hEq
    exact Nat.eq_of_mul_eq_mul_right (by decide) hEq
  · intro h
    apply BitVec.eq_of_toNat_eq
    rw [ha, hb, h]

theorem lastAddr_toNat (addr : U64) {size : Nat} (hPos : 0 < size) (hSize : size ≤ 8) :
    (lastAddr addr size).toNat = (addr.toNat + (size - 1)) % 2 ^ 64 := by
  have hOne : (1 : U64).toNat = 1 := rfl
  unfold lastAddr
  rw [BitVec.toNat_add, BitVec.toNat_sub, BitVec.toNat_ofNat, hOne]
  omega

theorem codePage_lastAddr {addr : U64} {size : Nat} (hSize : VirtualMemory.isUintSize size = true)
    (hSpan : spansTwoPages addr size = false) : codePage (lastAddr addr size) = codePage addr := by
  obtain ⟨hPos, hLe⟩ := VirtualMemory.uintSize_pos hSize
  have hLast := lastAddr_toNat addr hPos hLe
  have hLt := addr.isLt
  rw [codePage_eq_iff, hLast]
  simp only [spansTwoPages, decide_eq_false_iff_not, not_lt] at hSpan
  unfold CODE_PAGE_SIZE at *
  omega

theorem codePageBit_codePage (a : U64) : codePageBit (codePage a) = codePageBit a := by
  unfold codePageBit
  rw [VirtualMemory.codePage_toNat, Nat.mul_div_cancel _ (by decide)]

theorem pageHit_of_live {ctx : BlockCtx} (addr : U64) (size : Nat)
    (hFilter : ∀ p, ctx.live p = true → ctx.codePages (codePageBit p) = true)
    (hSize : VirtualMemory.isUintSize size = true)
    (hLive : ctx.live (codePage addr) = true ∨ ctx.live (codePage (lastAddr addr size)) = true) :
    ctx.pageHit addr size = true := by
  unfold BlockCtx.pageHit BlockCtx.codePageHit
  rw [Bool.or_eq_true]
  rcases hLive with hLive | hLive
  · left
    rw [← codePageBit_codePage]
    exact hFilter _ hLive
  · cases hSpan : spansTwoPages addr size with
    | false =>
      left
      rw [codePage_lastAddr hSize hSpan] at hLive
      rw [← codePageBit_codePage]
      exact hFilter _ hLive
    | true =>
      right
      rw [Bool.true_and, ← codePageBit_codePage]
      exact hFilter _ hLive

end Pages

/-- The reports of a call so far, its events being those after `base`. -/
structure Tally (base : List Event) (ctx : BlockCtx) : Prop where
  log : ∃ call, ctx.log = base ++ call ∧ (∀ e ∈ call, e.isDispatched = false) ∧
    (call.filter Event.reported).length = ctx.smcHits ∧
    (ctx.smcHits = 1 → ∃ size mem, call.filter Event.reported = [.stored ctx.smc size mem ctx.live .Reported])
  dead : ctx.smcHits ≠ 0 → ctx.linkEpoch = LINK_EPOCH_DEAD

def Calm (base : List Event) (ctx : BlockCtx) : Prop :=
  ctx.smcHits = 0 ∨ ctx.smcHits = 1 ∧ ctx.live (codePage ctx.smc) = false ∧
    Forgiven (ctx.log.drop base.length) = false

section Call

variable {base : List Event} {ctx ctx' : BlockCtx}

theorem Tally.chain {jit : Jit} {p : Params} {retired : Nat} {mem : VirtualMemory} {log : List Event}
    {origin : Origin} : Tally log ((jit.blockCtx p retired mem log).chain false origin) :=
  ⟨⟨[.entered false origin mem], rfl, by simp [Event.isDispatched], rfl, fun h => by cases h⟩,
    fun h => absurd rfl h⟩

theorem Tally.silent (h : Tally base ctx) (ctx' : BlockCtx) (es : List Event) (hLog : ctx'.log = ctx.log ++ es)
    (hEs : ∀ e ∈ es, e.isDispatched = false ∧ e.reported = false) (hSmc : ctx'.smc = ctx.smc)
    (hHits : ctx'.smcHits = ctx.smcHits) (hLive : ctx'.live = ctx.live) (hEpoch : ctx'.linkEpoch = ctx.linkEpoch) :
    Tally base ctx' ∧ (Calm base ctx' ↔ Calm base ctx) := by
  obtain ⟨⟨call, hCall, hDispatched, hCount, hFirst⟩, hDead⟩ := h
  have hNone : es.filter Event.reported = [] :=
    List.filter_eq_nil_iff.mpr fun e he => by simp [(hEs e he).2]
  have hFilter : (call ++ es).filter Event.reported = call.filter Event.reported := by
    rw [List.filter_append, hNone, List.append_nil]
  have hLog' : ctx'.log = base ++ (call ++ es) := by rw [hLog, hCall, List.append_assoc]
  refine ⟨⟨⟨call ++ es, hLog', ?_, ?_, ?_⟩, ?_⟩, ?_⟩
  · intro e he
    rcases List.mem_append.mp he with he | he
    · exact hDispatched e he
    · exact (hEs e he).1
  · rw [hFilter, hHits]
    exact hCount
  · rw [hFilter, hHits, hSmc, hLive]
    exact hFirst
  · rw [hHits, hEpoch]
    exact hDead
  · unfold Calm Forgiven
    rw [hHits, hSmc, hLive, hLog', hCall, List.drop_left, List.drop_left, hFilter]

theorem Tally.tail (h : Tally base ctx) (retired : Nat) (pending : Option Nat) :
    Tally base { ctx with retired := retired, pending := pending } := ⟨h.log, h.dead⟩

theorem Tally.landed (h : Tally base ctx)
    (hFilter : ∀ p, ctx.live p = true → ctx.codePages (codePageBit p) = true) (mem : VirtualMemory)
    (addr : U64) {size : Nat} (hSize : VirtualMemory.isUintSize size = true) :
    Tally base (ctx.landed mem addr size) ∧ (Calm base (ctx.landed mem addr size) →
      Calm base ctx ∧ ctx.live (codePage addr) = false ∧ ctx.live (codePage (lastAddr addr size)) = false) := by
  have hHit := pageHit_of_live addr size hFilter hSize
  rw [landed_eq]
  cases hPage : ctx.pageHit addr size with
  | false =>
    have hNot : ctx.live (codePage addr) = false ∧ ctx.live (codePage (lastAddr addr size)) = false := by
      constructor <;> by_contra hLive <;> rw [Bool.not_eq_false] at hLive
      · rw [hHit (.inl hLive)] at hPage
        cases hPage
      · rw [hHit (.inr hLive)] at hPage
        cases hPage
    obtain ⟨hTally, hCalm⟩ := h.silent { ctx with
        mem := mem
        log := ctx.log ++ [.stored addr size ctx.mem ctx.live .Silent]
        tlb := (ctx.landed mem addr size).tlb }
      [.stored addr size ctx.mem ctx.live .Silent] rfl (by simp [Event.isDispatched, Event.reported]) rfl rfl rfl rfl
    exact ⟨hTally, fun hQuiet => ⟨hCalm.mp hQuiet, hNot⟩⟩
  | true =>
    obtain ⟨⟨call, hCall, hDispatched, hCount, hFirst⟩, hDead⟩ := h
    have hReports : (call ++ [Event.stored addr size ctx.mem ctx.live .Reported]).filter Event.reported =
        call.filter Event.reported ++ [.stored addr size ctx.mem ctx.live .Reported] := by
      rw [List.filter_append]
      rfl
    have hOne : ctx.smcHits = 0 → (call ++ [Event.stored addr size ctx.mem ctx.live .Reported]).filter Event.reported =
        [.stored addr size ctx.mem ctx.live .Reported] := by
      intro hZero
      rw [hZero] at hCount
      rw [hReports, List.length_eq_zero_iff.mp hCount]
      rfl
    refine ⟨⟨⟨call ++ [Event.stored addr size ctx.mem ctx.live .Reported], ?_, ?_, ?_, ?_⟩, fun _ => rfl⟩, ?_⟩
    · dsimp only
      rw [hCall, List.append_assoc]
      rfl
    · intro e he
      rcases List.mem_append.mp he with he | he
      · exact hDispatched e he
      · obtain rfl := List.mem_singleton.mp he
        rfl
    · rw [hReports, List.length_append, hCount]
      rfl
    · intro hHits
      have hZero : ctx.smcHits = 0 := Nat.succ.inj hHits
      refine ⟨size, ctx.mem, ?_⟩
      rw [hOne hZero]
      simp [hZero]
    · rintro (hHits | ⟨hHits, hSmc, hNot⟩)
      · cases hHits
      · have hZero : ctx.smcHits = 0 := Nat.succ.inj hHits
        have hFirstPage : ctx.live (codePage addr) = false := by simpa [hZero] using hSmc
        refine ⟨.inl hZero, hFirstPage, ?_⟩
        have hDrop : (ctx.log ++ [Event.stored addr size ctx.mem ctx.live .Reported]).drop base.length =
            call ++ [.stored addr size ctx.mem ctx.live .Reported] := by
          rw [hCall, List.append_assoc, List.drop_left]
        simp only [if_true] at hNot
        rw [hDrop] at hNot
        unfold Forgiven at hNot
        rw [hOne hZero] at hNot
        simpa [hFirstPage] using hNot

theorem Tally.act (h : Tally base ctx)
    (hFilter : ∀ p, ctx.live p = true → ctx.codePages (codePageBit p) = true) (hAct : Act ctx ctx') :
    Tally base ctx' ∧ (Calm base ctx' → Calm base ctx) ∧ ∃ es, ctx'.log = ctx.log ++ es ∧
      (∀ e ∈ es, ∀ linked o mem, e ≠ .entered linked o mem) ∧
      (Calm base ctx' → ∀ e ∈ es, e.hits = true → e.inline = true) := by
  have hQuiet : ∀ es, (∀ e ∈ es, e.isDispatched = false ∧ e.reported = false) → ctx'.log = ctx.log ++ es →
      ctx'.smc = ctx.smc → ctx'.smcHits = ctx.smcHits → ctx'.live = ctx.live →
      ctx'.linkEpoch = ctx.linkEpoch → Tally base ctx' ∧ (Calm base ctx' → Calm base ctx) := by
    intro es hEs hLog hSmc hHits hLive hEpoch
    obtain ⟨hTally, hCalm⟩ := h.silent _ _ hLog hEs hSmc hHits hLive hEpoch
    exact ⟨hTally, hCalm.mp⟩
  cases hAct with
  | begun rip =>
    obtain ⟨hTally, hCalm⟩ := hQuiet [.begun rip] (by simp [Event.isDispatched, Event.reported]) rfl rfl rfl rfl rfl
    exact ⟨hTally, hCalm, _, rfl, by simp, by simp [Event.hits]⟩
  | @inlineLoad addr size ptr v hSize hProbe hHost =>
    obtain ⟨hTally, hCalm⟩ := hQuiet [.inlined .READ addr size ptr ctx.debug ctx.mem]
      (by simp [Event.isDispatched, Event.reported]) rfl rfl rfl rfl rfl
    exact ⟨hTally, hCalm, _, rfl, by simp, by simp [Event.hits]⟩
  | readFill hOn hRead =>
    rw [BlockCtx.tlbFill_eq] at hQuiet ⊢
    obtain ⟨hTally, hCalm⟩ := hQuiet [] nofun (List.append_nil _).symm rfl rfl rfl rfl
    exact ⟨hTally, hCalm, [], (List.append_nil _).symm, nofun, fun _ => nofun⟩
  | @inlineStore addr size ptr v mem hSize hProbe hHost =>
    obtain ⟨hTally, hCalm⟩ := hQuiet
      [.inlined .WRITE addr size ptr ctx.debug ctx.mem, .stored addr size ctx.mem ctx.live .Inline]
      (by simp [Event.isDispatched, Event.reported]) (List.append_assoc _ _ _) rfl rfl rfl rfl
    exact ⟨hTally, hCalm, _, List.append_assoc _ _ _, by simp, by simp [Event.hits, Event.inline]⟩
  | @helperStore addr size v mem hWrite =>
    obtain ⟨hTally, hCalm⟩ := h.landed hFilter mem addr (VirtualMemory.writeUint_ok hWrite).1
    refine ⟨hTally, fun hAfter => (hCalm hAfter).1,
      [.stored addr size ctx.mem ctx.live (if ctx.pageHit addr size then .Reported else .Silent)], ?_,
      by simp, ?_⟩
    · rw [landed_eq]
    · intro hAfter
      obtain ⟨-, hFirst, hLast⟩ := hCalm hAfter
      simp [Event.hits, hFirst, hLast]

end Call

/-- Since every store to a page with code, the dispatcher has checked or built `o` again. -/
def Rechecked (log : List Event) (o : Origin) : Prop :=
  ∀ pre e mid, log = pre ++ e :: mid → e.hits = true → ∃ mem, .dispatched o mem ∈ mid

def Guarded (log : List Event) : Prop :=
  ∀ pre o mem post, log = pre ++ .entered true o mem :: post → Rechecked pre o

/-- No call's reports are forgiven wrongly, and no store goes through the TLB to a page with code. -/
structure Spared (log : List Event) : Prop where
  calls : ∀ call ∈ calls log, Forgiven call = false
  inline : ∀ e ∈ log, e.inline = true → e.hits = false

instance (log : List Event) : Decidable (Spared log) :=
  decidable_of_iff ((∀ call ∈ calls log, Forgiven call = false) ∧ ∀ e ∈ log, e.inline = true → e.hits = false)
    ⟨fun h => ⟨h.1, h.2⟩, fun h => ⟨h.calls, h.inline⟩⟩

section Log

variable {log es : List Event} {o : Origin}

theorem append_singleton_eq {α : Type} {xs pre post : List α} {x y : α} (h : xs ++ [x] = pre ++ y :: post) :
    (post = [] ∧ xs = pre ∧ x = y) ∨ ∃ post', post = post' ++ [x] ∧ xs = pre ++ y :: post' := by
  rcases List.eq_nil_or_concat post with rfl | ⟨post', z, rfl⟩
  · left
    obtain ⟨hInit, hLast⟩ := List.append_inj' h rfl
    exact ⟨rfl, hInit, (List.cons.inj hLast).1⟩
  · right
    rw [List.concat_eq_append] at h ⊢
    have h' : xs ++ [x] = (pre ++ y :: post') ++ [z] := by rw [h]; simp
    obtain ⟨hInit, hLast⟩ := List.append_inj' h' rfl
    obtain rfl := (List.cons.inj hLast).1
    exact ⟨post', rfl, hInit⟩

theorem Rechecked.push (h : Rechecked log o) {e : Event} (hHits : e.hits = false) : Rechecked (log ++ [e]) o := by
  intro pre e' mid hLog hHits'
  rcases append_singleton_eq hLog with ⟨-, -, rfl⟩ | ⟨mid', rfl, hInit⟩
  · rw [hHits] at hHits'
    cases hHits'
  · obtain ⟨mem, hMem⟩ := h pre e' mid' hInit hHits'
    exact ⟨mem, List.mem_append_left _ hMem⟩

theorem Rechecked.append (h : Rechecked log o) (hHits : ∀ e ∈ es, e.hits = false) : Rechecked (log ++ es) o := by
  induction es generalizing log with
  | nil => rwa [List.append_nil]
  | cons e es ih =>
    rw [List.append_cons]
    exact ih (h.push (hHits e List.mem_cons_self)) fun e' he' => hHits e' (List.mem_cons_of_mem _ he')

theorem rechecked_dispatched (log : List Event) (o : Origin) (mem : VirtualMemory) :
    Rechecked (log ++ [.dispatched o mem]) o := by
  intro pre e mid hLog hHits
  rcases append_singleton_eq hLog with ⟨-, -, rfl⟩ | ⟨mid', rfl, -⟩
  · cases hHits
  · exact ⟨mem, List.mem_append_right _ List.mem_cons_self⟩

theorem Guarded.push (h : Guarded log) {e : Event} (hEntered : ∀ o mem, e = .entered true o mem → Rechecked log o) :
    Guarded (log ++ [e]) := by
  intro pre o mem post hLog
  rcases append_singleton_eq hLog with ⟨-, rfl, rfl⟩ | ⟨post', -, hInit⟩
  · exact hEntered o mem rfl
  · exact h pre o mem post' hInit

theorem Guarded.append (h : Guarded log) (hEntered : ∀ e ∈ es, ∀ o mem, e ≠ .entered true o mem) :
    Guarded (log ++ es) := by
  induction es generalizing log with
  | nil => rwa [List.append_nil]
  | cons e es ih =>
    rw [List.append_cons]
    exact ih (h.push fun o mem he => absurd he (hEntered e List.mem_cons_self o mem))
      fun e' he' => hEntered e' (List.mem_cons_of_mem _ he')

theorem takeWhile_append_of_head {p : Event → Bool} {xs : List Event} (hHead : ∀ e ∈ es.head?, p e = false) :
    (xs ++ es).takeWhile p = xs.takeWhile p := by
  induction xs with
  | nil =>
    cases es with
    | nil => rfl
    | cons e es => simp [hHead e rfl]
  | cons x xs ih =>
    rw [List.cons_append, List.takeWhile_cons, List.takeWhile_cons, ih]

theorem calls_append (log : List Event) (hHead : ∀ e ∈ es.head?, e.isDispatched = true) :
    calls (log ++ es) = calls log ++ calls es := by
  induction log with
  | nil => rfl
  | cons e log ih =>
    rw [List.cons_append, calls, calls, ih, takeWhile_append_of_head fun e he => by simp [hHead e he]]
    split <;> rfl

theorem mem_calls {mem : VirtualMemory} {call : List Event} (hCall : ∀ e ∈ call, e.isDispatched = false) :
    call ∈ calls (.dispatched o mem :: call) := by
  have hAll : call.takeWhile (fun e => !e.isDispatched) = call := by
    have hTake : (call ++ []).takeWhile (fun e => !e.isDispatched) = call ++ [].takeWhile fun e => !e.isDispatched :=
      List.takeWhile_append_of_pos fun e he => by simp [hCall e he]
    simpa using hTake
  have hIs : (Event.dispatched o mem).isDispatched = true := rfl
  rw [calls, if_pos hIs, hAll]
  exact List.mem_cons_self

theorem Spared.before (h : Spared (log ++ es)) (hHead : ∀ e ∈ es.head?, e.isDispatched = true) : Spared log where
  calls call hCall := h.calls call (by
    rw [calls_append log hHead]
    exact List.mem_append_left _ hCall)
  inline e he := h.inline e (List.mem_append_left _ he)

theorem split_at {α : Type} {xs : List α} {i : Nat} {x : α} (h : xs[i]? = some x) :
    xs = xs.take i ++ x :: xs.drop (i + 1) := by
  obtain ⟨hLt, rfl⟩ := List.getElem?_eq_some_iff.mp h
  rw [List.getElem_cons_drop, List.take_append_drop]

theorem Guarded.between (h : Guarded log) {i j : Nat} (hOrder : i < j) (hStore : (log[i]?).any Event.hits = true)
    (hLink : (log[j]?).bind Event.followed = some o) :
    ∃ k, i < k ∧ k < j ∧ (log[k]?).bind Event.checked = some o := by
  obtain ⟨link, hGetLink, hFollowed⟩ := Option.bind_eq_some_iff.mp hLink
  obtain ⟨store, hGetStore, hHits⟩ := (Option.any_eq_true _ _).mp hStore
  obtain ⟨mem, rfl⟩ : ∃ mem, link = .entered true o mem := by
    unfold Event.followed at hFollowed
    split at hFollowed <;> cases hFollowed
    exact ⟨_, rfl⟩
  have hTake : (log.take j)[i]? = some store := by rw [List.getElem?_take_of_lt hOrder, hGetStore]
  obtain ⟨mem', hMem⟩ := h _ o mem _ (split_at hGetLink) _ store _ (split_at hTake) hHits
  obtain ⟨n, hn⟩ := List.getElem?_of_mem hMem
  rw [List.getElem?_drop] at hn
  have hLt := (List.getElem?_eq_some_iff.mp hn).1
  rw [List.length_take] at hLt
  rw [List.getElem?_take_of_lt (by omega)] at hn
  exact ⟨i + 1 + n, by omega, by omega, by rw [hn]; rfl⟩

theorem LinksTo.mono {jit : Jit} {Q R : Origin → Prop} (hQ : LinksTo Q jit) (h : ∀ o, Q o → R o) :
    LinksTo R jit := fun s b hs hb => h _ (hQ s b hs hb)

end Log

section Guard

variable {target : Nat → Option U64}

structure Watched (jit : Jit) (base : List Event) (ctx : BlockCtx) : Prop where
  tally : Tally base ctx
  guarded : Guarded base → LinksTo (Rechecked base) jit → (∀ e ∈ ctx.log, e.inline = true → e.hits = false) →
    Guarded ctx.log ∧ (Calm base ctx → LinksTo (Rechecked ctx.log) jit)

theorem watched_enter (jit : Jit) (p : Params) (retired : Nat) (mem : VirtualMemory) (log : List Event)
    (origin : Origin) : Watched jit log ((jit.blockCtx p retired mem log).chain false origin) := by
  refine ⟨Tally.chain, fun hBase hTo _ => ?_⟩
  have hLog : ((jit.blockCtx p retired mem log).chain false origin).log =
      log ++ [.entered false origin mem] := rfl
  rw [hLog]
  exact ⟨hBase.push (by simp), fun _ => hTo.mono fun o ho => ho.push rfl⟩

variable {jit : Jit} {ctx : BlockCtx} {m : Machine}

theorem Watched.append {base es : List Event} {ctx' : BlockCtx} (h : Watched jit base ctx) (hTally : Tally base ctx')
    (hCalm : Calm base ctx' → Calm base ctx) (hLog : ctx'.log = ctx.log ++ es)
    (hEntered : ∀ e ∈ es, ∀ linked o mem, e ≠ .entered linked o mem)
    (hHits : Calm base ctx' → ∀ e ∈ es, e.hits = true → e.inline = true) : Watched jit base ctx' := by
  refine ⟨hTally, fun hBase hLinks hPlain => ?_⟩
  rw [hLog] at hPlain ⊢
  obtain ⟨hGuarded, hTo⟩ := h.guarded hBase hLinks fun e he => hPlain e (List.mem_append_left _ he)
  refine ⟨hGuarded.append fun e he => hEntered e he true, fun hAfter => ?_⟩
  refine (hTo (hCalm hAfter)).mono fun o ho => ho.append fun e he => ?_
  by_contra hHit
  rw [Bool.not_eq_false] at hHit
  have hMiss := hPlain e (List.mem_append_right _ he) (hHits hAfter e he hHit)
  rw [hHit] at hMiss
  cases hMiss

theorem Sane.live_filter (h : Sane target jit) (hTied : Tied jit ctx) (p : U64) (hp : ctx.live p = true) :
    ctx.codePages (codePageBit p) = true := by
  rw [hTied.live] at hp
  rw [hTied.codePages]
  exact h.filter p hp

theorem Sane.watched (h : Sane target jit) (base : List Event) : Carried jit (Watched jit base) where
  act hTied hW hAct := by
    obtain ⟨hTally, hCalm, es, hLog, hEntered, hHits⟩ := hW.tally.act (h.live_filter hTied) hAct
    exact hW.append hTally hCalm hLog hEntered hHits
  stray := by
    intro ctx ctx' _ hW hStray
    have hQuiet : ∀ e : Event, e.isDispatched = false → e.reported = false → e.hits = false →
        (∀ linked o mem, e ≠ .entered linked o mem) → Watched jit base (ctx.record e) := by
      intro e hDispatched hReported hHits hEntered
      obtain ⟨hTally, hCalm⟩ := hW.tally.silent (ctx.record e) [e] rfl
        (by simp [hDispatched, hReported]) rfl rfl rfl rfl
      exact hW.append hTally hCalm.mp rfl (by simpa using hEntered) (by simp [hHits])
    cases hStray <;> exact hQuiet _ rfl rfl rfl nofun
  tail retired pending hW := ⟨hW.tally.tail retired pending, hW.guarded⟩
  link := by
    intro ctx s b _ hW hEpoch hLive hGet
    have hZero : ctx.smcHits = 0 := by
      by_contra hSome
      have hDead := h.alive
      rw [← hEpoch, hW.tally.dead hSome] at hDead
      exact absurd hDead (by decide)
    obtain ⟨hTally, -⟩ := hW.tally.silent (ctx.chain true b.origin) [.entered true b.origin ctx.mem] rfl
      (by simp [Event.isDispatched, Event.reported]) rfl rfl rfl rfl
    refine ⟨hTally, fun hBase hLinks hPlain => ?_⟩
    obtain ⟨hGuarded, hTo⟩ := hW.guarded hBase hLinks fun e he => hPlain e (List.mem_append_left _ he)
    have hTo := hTo (.inl hZero)
    refine ⟨hGuarded.push ?_, fun _ => hTo.mono fun o ho => ho.push rfl⟩
    rintro _ _ ⟨⟩
    exact hTo s b hLive hGet

/-- The engine between two turns: so far no link was followed wrongly, and none can be. -/
structure Guards (m : Machine) : Prop where
  sane : ∃ target, Sane target m.jit
  guarded : Spared m.log → Guarded m.log ∧ LinksTo (Rechecked m.log) m.jit

theorem linksTo_harvest {p : Params} {native : Native} {base : List Event} {Q : Origin → Prop}
    (hSane : Sane target m.jit) (hPending : ∀ s, ctx.pending = some s →
      Awaits target m.jit.blocks s native.cpu.rip p.mode.is64) (hTied : Tied m.jit ctx)
    (hNot : Forgiven (ctx.log.drop base.length) = false) (hKeep : Calm base ctx → LinksTo Q m.jit) :
    LinksTo Q (m.harvest p native ctx).jit := by
  change LinksTo Q (Jit.settleSmc _ _ _)
  unfold Jit.settleSmc
  split <;> rename_i hZero
  · exact hKeep (.inl hZero)
  split <;> rename_i hSettle
  · exact linksTo_unlinkAll (hSane.leave hPending ctx.tlb)
  · have hLive : ctx.live (codePage ctx.smc) = false := by
      rw [hTied.live]
      by_contra hSet
      exact hSettle (.inr (by simpa using hSet))
    exact hKeep (.inr ⟨by omega, hLive, hNot⟩)

theorem Watched.settle {p : Params} {native : Native} {origin : Origin} {log : List Event} (hSane : Sane target m.jit)
    (hPending : ∀ s, ctx.pending = some s →
      Awaits target m.jit.blocks s native.cpu.rip p.mode.is64) (hTied : Tied m.jit ctx)
    (hW : Watched m.jit (log ++ [.dispatched origin m.mem]) ctx)
    (hBefore : Spared log → Guarded (log ++ [.dispatched origin m.mem]) ∧
      LinksTo (Rechecked (log ++ [.dispatched origin m.mem])) m.jit) :
    Spared ctx.log → Guarded ctx.log ∧ LinksTo (Rechecked ctx.log) (m.harvest p native ctx).jit := by
  intro hSpared
  obtain ⟨call, hLog, hDispatched, hCount, hFirst⟩ := hW.tally.log
  have hSplit : ctx.log = log ++ .dispatched origin m.mem :: call := by rw [hLog]; simp
  have hHead : ∀ e ∈ (Event.dispatched origin m.mem :: call).head?, e.isDispatched = true := by
    rintro e ⟨⟩
    rfl
  rw [hSplit] at hSpared
  have hWas := hSpared.before hHead
  obtain ⟨hBase, hLinks⟩ := hBefore hWas
  obtain ⟨hGuarded, hTo⟩ := hW.guarded hBase hLinks (hSplit ▸ hSpared.inline)
  have hNot : Forgiven call = false := hSpared.calls call (by
    rw [calls_append log hHead]
    exact List.mem_append_right _ (mem_calls hDispatched))
  exact ⟨hGuarded, linksTo_harvest hSane hPending hTied (by rwa [hLog, List.drop_left]) hTo⟩

theorem Guards.turn (h : Guards m) (p : Params) (retired : Nat) : Guards (m.turn p retired).machine := by
  obtain ⟨⟨target, hSane⟩, hGuarded⟩ := h
  refine ⟨hSane.turn p retired, ?_⟩
  have hLinks : Spared m.log → LinksTo (Rechecked m.log) m.jit.debugGenerationCheck := fun hSpared =>
    (hGuarded hSpared).2.debugGenerationCheck hSane
  have hBefore : ∀ {b : Block}, Spared (m.log ++ [.dispatched b.origin m.mem]) → Spared m.log := fun h =>
    h.before (by
      rintro e ⟨⟩
      rfl)
  -- a block that was dispatched, and the links after its pending slot is filled
  have hDispatched : ∀ {idx : Nat} {jit : Jit} {b : Block},
      Dispatches m.native.cpu.rip p.mode m.mem m.jit.debugGenerationCheck idx jit →
      jit.blocks[idx]? = some b → Spared m.log → Guarded (m.log ++ [.dispatched b.origin m.mem]) ∧
        LinksTo (Rechecked (m.log ++ [.dispatched b.origin m.mem]))
          (jit.fillPending m.native.cpu.rip p.mode.is64 idx) := by
    intro idx jit b hDisp hGet hSpared
    have hTo := ((hLinks hSpared).dispatches hSane.debugGenerationCheck hDisp).mono fun o ho =>
      Rechecked.push (e := .dispatched b.origin m.mem) ho rfl
    exact ⟨(hGuarded hSpared).1.push fun _ _ h => Event.noConfusion h, hTo.fillPending hGet (rechecked_dispatched _ _ _)⟩
  refine turn_rule (J := fun m => Spared m.log → Guarded m.log ∧ LinksTo (Rechecked m.log) m.jit) hSane retired
    hGuarded (fun hDisp hSpared => ?_) (fun hDisp hGet _ hSpared => hDispatched hDisp hGet (hBefore hSpared)) ?_
  · exact ⟨(hGuarded hSpared).1, ((hLinks hSpared).dispatches hSane.debugGenerationCheck hDisp).drop⟩
  · intro idx jit jit' b target' hDisp hGet hCode hEq hFilled _
    refine ⟨_, hFilled.watched (m.log ++ [.dispatched b.origin m.mem]), watched_enter _ _ _ _ _ _, ?_⟩
    intro native ctx hTied hW hPending
    have hTo := hDispatched hDisp hGet
    rw [hEq] at hTo
    exact Watched.settle (m := (m.setJit jit').record (.dispatched b.origin m.mem)) hFilled hPending hTied hW hTo

theorem Guards.apply (h : Guards m) (op : HostOp) : Guards (m.apply op) := by
  refine ⟨Sane.apply h.sane op, ?_⟩
  obtain ⟨⟨target, hSane⟩, hGuarded⟩ := h
  cases op with
  | setDebug debug => exact fun hSpared => ⟨(hGuarded hSpared).1, linksTo_setDebug hSane debug⟩
  | invalidate => exact fun hSpared => ⟨(hGuarded hSpared).1, linksTo_invalidate hSane⟩
  | run native mode budget =>
    rw [Machine.apply_run]
    refine (run_rule (m := m.setNative native) (J := Guards) (fun m hm => ⟨?_, ?_⟩)
      (fun p m retired hm => hm.turn p retired) ⟨⟨target, hSane⟩, hGuarded⟩ mode budget).guarded
    · obtain ⟨target, hm⟩ := hm.sane
      exact ⟨target, hm.tlbCheck _ _ _⟩
    · exact fun hSpared => ⟨(hm.guarded hSpared).1, (hm.guarded hSpared).2.tlbCheck _ _ _⟩
  | _ => exact hGuarded

/-- In a history whose calls forgive no report wrongly, and whose inline stores spare the pages with code:
once a store has touched a page with code, no link is followed to a block before the dispatcher has checked
or built that block again. -/
theorem reported_store_kills_links (capacity : Nat) (native : Native) (mem : VirtualMemory)
    (ops : List HostOp) (hSpared : Spared ((Machine.start capacity native mem).history ops).log)
    (i j : Nat) (o : Origin) (hOrder : i < j)
    (hStore : (((Machine.start capacity native mem).history ops).log[i]?).any Event.hits = true)
    (hLink : (((Machine.start capacity native mem).history ops).log[j]?).bind Event.followed = some o) :
    ∃ k, i < k ∧ k < j ∧
      (((Machine.start capacity native mem).history ops).log[k]?).bind Event.checked = some o := by
  have hGuards := history_rule (J := Guards) (fun _ op hm => hm.apply op) ops
    ⟨sane_start capacity native mem, fun _ => ⟨fun pre o mem post hNil => absurd hNil (by simp [Machine.start]),
      fun s b hs _ => by
        change (0 : U64) = 1 at hs
        cases hs⟩⟩
  exact (hGuards.guarded hSpared).1.between hOrder hStore hLink

end Guard

section Programs

set_option maxRecDepth 100000

/-- `mov [rdi], rax`, then a loop of one instruction. -/
def storeThenLoop : List MemoryOp :=
  [.map true ⟨"image", 0x1000, 0x1000, Perm.RWX⟩, .poke 0x1000 [0x48, 0x89, 0x07, 0xEB, 0x0B],
    .poke 0x1010 [0xEB, 0xFE]]

def storeAt (rip rax rdi : U64) : Native :=
  .ofCpu { gpr := fun i => if i = Reg.Rax then rax else if i = Reg.Rdi then rdi else 0, rip := rip }

def storeThenLoopLog : List Event :=
  ((Machine.start 65536 (storeAt 0 0 0) (.history .new storeThenLoop)).history
    [.run (storeAt 0x1000 0 0x1100) .Long 6]).log

/-- A store to the page of the code kills the links; the loop is linked again once it was looked up. -/
theorem reported_store_kills_links_loop : ∃ o, storeThenLoopLog[11]?.bind Event.followed = some o ∧
    ∃ k, 3 < k ∧ k < 11 ∧ storeThenLoopLog[k]?.bind Event.checked = some o := by
  have hSome : (storeThenLoopLog[11]?.bind Event.followed).isSome = true := by decide +kernel
  obtain ⟨o, ho⟩ := Option.isSome_iff_exists.mp hSome
  exact ⟨o, ho, reported_store_kills_links 65536 (storeAt 0 0 0) (.history .new storeThenLoop)
    [.run (storeAt 0x1000 0 0x1100) .Long 6] (by decide +kernel) 3 11 o (by decide) (by decide +kernel) ho⟩

/-- Three blocks, each jumping to the next: `mov [rdi], rax` at `0x3000`, a jump at `0x3010`, and
`inc rax` on a page of its own. -/
def threeBlocks : List MemoryOp :=
  [.map true ⟨"image", 0x1000, 0x3000, Perm.RWX⟩, .poke 0x2000 [0x48, 0xFF, 0xC0, 0xE9, 0xF8, 0x0F, 0, 0],
    .poke 0x3000 [0x48, 0x89, 0x07, 0xEB, 0x0B], .poke 0x3010 [0xE9, 0xEB, 0xEF, 0xFF, 0xFF]]

def threeBlocksLog : List Event :=
  ((Machine.start 65536 (storeAt 0 0 0) (.history .new threeBlocks)).history
    [.run (storeAt 0x3000 0 0x1000) .Long 5, .run (storeAt 0x3000 0x0FF8E9C8FF480000 0x1FFE) .Long 5]).log

/-- A store that reaches into the page of the third block from the page before is reported by its first
byte, whose page holds no code; the report is forgiven, and the second block's link still leads to the third. -/
theorem straddling_store_keeps_links :
    ¬∀ (capacity : Nat) (native : Native) (mem : VirtualMemory) (ops : List HostOp) (i j : Nat) (o : Origin),
      i < j → (((Machine.start capacity native mem).history ops).log[i]?).any Event.hits = true →
      (((Machine.start capacity native mem).history ops).log[j]?).bind Event.followed = some o →
      ∃ k, i < k ∧ k < j ∧
        (((Machine.start capacity native mem).history ops).log[k]?).bind Event.checked = some o := by
  intro h
  have hSome : ((threeBlocksLog[20]?.bind Event.followed).map Origin.start).isEqSome 0x2000 = true := by
    decide +kernel
  have hNone : (List.range 20).all (fun k => decide (k ≤ 15) ||
      !((threeBlocksLog[k]?.bind Event.checked).map Origin.start).isEqSome 0x2000) = true := by decide +kernel
  cases ho : threeBlocksLog[20]?.bind Event.followed with
  | none =>
    rw [ho] at hSome
    cases hSome
  | some o =>
    rw [ho] at hSome
    obtain ⟨k, hFirst, hLast, hk⟩ := h 65536 (storeAt 0 0 0) (.history .new threeBlocks)
      [.run (storeAt 0x3000 0 0x1000) .Long 5, .run (storeAt 0x3000 0x0FF8E9C8FF480000 0x1FFE) .Long 5]
      15 20 o (by decide) (by decide +kernel) ho
    have hk : threeBlocksLog[k]?.bind Event.checked = some o := hk
    have hNot := List.all_eq_true.mp hNone k (List.mem_range.mpr hLast)
    rw [hk, hSome] at hNot
    simp at hNot
    omega

end Programs
end Exemu.Jit
