import Exemu.Os.HitTest

/-! # What becomes of an event

Every event that is taken is posted, reported, dropped where no window takes it, or still on its
way, and only one of these, as long as a window that is to be asked can be asked.
-/
namespace Exemu.Os

namespace HitTest

open List

open Fallible

variable {s s' : Desk} {guest : Guest} {lp : U64} {ev : InputEvent} {p : PendingHitTest} {id : Nat} {outs : List Nat} {m : PostedMsg} {fate : Fate}

/-! ## The windows under a point -/

theorem childUnder_skip {st : Windows.State} {cur h : U32} {x y : BitVec 32} {skip : List U32} (hFound : childUnder st cur x y skip = some h) : h ∉ skip := by
  obtain ⟨q, hFind, rfl⟩ := Option.map_eq_some_iff.mp hFound
  have hHolds := find?_some hFind
  rw [Bool.and_eq_true, Bool.and_eq_true] at hHolds
  intro hIn
  have hNot := hHolds.1.2
  rw [List.contains_iff_mem.mpr hIn] at hNot
  cases hNot

theorem windowFromPointWithin_skip (st : Windows.State) (x y : BitVec 32) (skip : List U32) (n : Nat) (cur : U32) (h : cur ∉ skip) :
    windowFromPointWithin st x y skip n cur ∉ skip := by
  induction n generalizing cur with
  | zero => exact h
  | succ n ih =>
    unfold windowFromPointWithin
    cases hChild : childUnder st cur x y skip with
    | none => exact h
    | some child => exact ih child (childUnder_skip hChild)

theorem windowUnder_skip {st : Windows.State} {skip : List U32} (h : windowUnder st ev skip ∈ skip) : windowUnder st ev skip = 0 := by
  unfold windowUnder at h ⊢
  cases hRoot : st.inputRoot ev.hwnd with
  | none => rfl
  | some root =>
    rw [hRoot] at h
    dsimp only at h ⊢
    unfold windowFromPointIn at h ⊢
    split at h
    · rename_i hNone
      rw [if_pos hNone]
    · rename_i hRootOpen
      have hOpen : root ∉ skip := fun hIn => hRootOpen (by rw [List.contains_iff_mem.mpr hIn, Bool.true_or])
      exact absurd h (windowFromPointWithin_skip _ _ _ _ _ _ hOpen)

/-! ## What becomes of an event -/

def Nobody (st : Windows.State) (ev : InputEvent) (skipped : List U32) : Prop :=
  if ev.point = none then st.keyboardTarget ev.hwnd = 0 else windowUnder st ev skipped = 0

/-- A message that is made for the event, for the window that the event is for. -/
inductive Carries (ev : InputEvent) : PostedMsg → Prop
  | key (st : Windows.State) (msg : U32) (wparam : U64) (hMessage : ev.message = some (msg, wparam)) (hPoint : ev.point = none)
      (hTarget : st.keyboardTarget ev.hwnd ≠ 0) : Carries ev ⟨(st.keyboardTarget ev.hwnd).setWidth 64, msg, wparam, 0⟩
  | capture (st : Windows.State) (msg : U32) (wparam : U64) (x y : BitVec 32) (hMessage : ev.message = some (msg, wparam)) (hPoint : ev.point = some (x, y))
      (hCapture : st.capture ≠ 0 ∧ (st.window st.capture).isSome) :
      Carries ev ⟨st.capture.setWidth 64, msg, wparam, packPoint (x - (st.clientOrigin st.capture).1) (y - (st.clientOrigin st.capture).2)⟩
  | hit (st found : Windows.State) (msg : U32) (wparam : U64) (skipped : List U32) (code : U64) (hMessage : ev.message = some (msg, wparam))
      (hPoint : ev.point ≠ none) (hTarget : windowUnder found ev skipped ≠ 0) : Carries ev (hitMessage st ev msg wparam (windowUnder found ev skipped) code)

def Right (s : Desk) (id : Nat) : Fate → Prop
  | .posted m => ∃ ev, s.taken[id]? = some ev ∧ Carries ev m
  | .reported m => ∃ ev, s.taken[id]? = some ev ∧ Carries ev m
  | .dropped windows skipped =>
    ∃ ev, s.taken[id]? = some ev ∧ Nobody windows ev skipped ∧ ∀ h ∈ skipped, (id, h, TRANSPARENT) ∈ s.answers

/-- An event on its way: `n` tells whether the window it has come to is asked already. -/
structure Asking (s : Desk) (n : Nat) (p : PendingHitTest) : Prop where
  event : s.taken[p.id]? = some p.ev
  message : p.ev.message = some (p.msg, p.wparam)
  point : p.ev.point ≠ none
  target : p.hwnd ≠ 0
  found : ∃ st, windowUnder st p.ev p.skipped = p.hwnd
  through : ∀ h ∈ p.skipped, (p.id, h, TRANSPARENT) ∈ s.answers
  asked : s.asked.count p.id = p.skipped.length + n

def Desk.pendings (s : Desk) : List PendingHitTest := s.win32kCb.filterMap (·.pending)

/-- Each event that was taken is in one place; `outs` are those in the hands of the call. -/
structure Inv (s : Desk) (outs : List Nat) : Prop where
  once : ∀ i, (s.fates.map Prod.fst).count i + (s.pendings.map (·.id)).count i + (s.inMsg.toList.map Prod.fst).count i + outs.count i =
    if i < s.taken.length then 1 else 0
  pending : ∀ p ∈ s.pendings, Asking s 1 p ∧ p.skipped.length < HIT_TEST_ROUNDS_MAX
  bound : ∀ i, s.asked.count i ≤ HIT_TEST_ROUNDS_MAX
  fresh : ∀ i, s.taken.length ≤ i → s.asked.count i = 0
  clear : InputEvent.Close ∉ s.rawInput
  fates : ∀ x ∈ s.fates, Right s x.1 x.2
  inMsg : ∀ x, s.inMsg = some x → Right s x.1 (.reported x.2)

/-! ## What the parts of a call keep -/

structure Later (s s' : Desk) : Prop where
  taken : ∀ (i : Nat) (ev : InputEvent), s.taken[i]? = some ev → s'.taken[i]? = some ev
  answers : ∀ x ∈ s.answers, x ∈ s'.answers

theorem Later.of_same (hTaken : s'.taken = s.taken) (hAnswers : s'.answers = s.answers) : Later s s' := ⟨fun _ _ hGet => hTaken ▸ hGet, fun _ hx => hAnswers ▸ hx⟩

theorem Right.later (h : Right s id fate) (hLater : Later s s') : Right s' id fate := by
  cases fate with
  | posted m =>
    obtain ⟨ev, hEvent, hCarries⟩ := h
    exact ⟨ev, hLater.taken id ev hEvent, hCarries⟩
  | reported m =>
    obtain ⟨ev, hEvent, hCarries⟩ := h
    exact ⟨ev, hLater.taken id ev hEvent, hCarries⟩
  | dropped windows skipped =>
    obtain ⟨ev, hEvent, hNobody, hThrough⟩ := h
    exact ⟨ev, hLater.taken id ev hEvent, hNobody, fun h hh => hLater.answers _ (hThrough h hh)⟩

theorem Asking.later {n : Nat} (h : Asking s n p) (hLater : Later s s') (hAsked : s'.asked.count p.id = s.asked.count p.id) : Asking s' n p where
  event := hLater.taken _ _ h.event
  message := h.message
  point := h.point
  target := h.target
  found := h.found
  through x hx := hLater.answers _ (h.through x hx)
  asked := hAsked.trans h.asked

structure SameAccount (s s' : Desk) : Prop where
  taken : s'.taken = s.taken
  fates : s'.fates = s.fates
  inMsg : s'.inMsg = s.inMsg
  pendings : s'.pendings = s.pendings
  asked : s'.asked = s.asked
  answers : s'.answers = s.answers

theorem SameAccount.later (h : SameAccount s s') : Later s s' := .of_same h.taken h.answers

theorem Inv.same (h : Inv s outs) (hSame : SameAccount s s') (hClear : InputEvent.Close ∉ s'.rawInput) : Inv s' outs where
  once i := by
    rw [hSame.fates, hSame.pendings, hSame.inMsg, hSame.taken]
    exact h.once i
  pending p hp := by
    rw [hSame.pendings] at hp
    exact ⟨(h.pending p hp).1.later hSame.later (by rw [hSame.asked]), (h.pending p hp).2⟩
  bound := hSame.asked ▸ h.bound
  fresh := by
    rw [hSame.asked, hSame.taken]
    exact h.fresh
  clear := hClear
  fates x hx := (h.fates x (hSame.fates ▸ hx)).later hSame.later
  inMsg x hx := (h.inMsg x (hSame.inMsg ▸ hx)).later hSame.later

theorem Inv.settle (h : Inv s (id :: outs)) (hRight : Right s id fate) : Inv (s.settle id fate) outs where
  once i := by
    have hOnce := h.once i
    have hFates : ((s.settle id fate).fates.map Prod.fst).count i = (s.fates.map Prod.fst).count i + [id].count i := by
      rw [show (s.settle id fate).fates = s.fates ++ [(id, fate)] from rfl, map_append, count_append]
      rfl
    have hHand : (id :: outs).count i = [id].count i + outs.count i := @List.count_append _ _ _ [id] outs
    refine Eq.trans ?_ hOnce
    rw [hFates, hHand]
    change _ + (s.pendings.map (·.id)).count i + (s.inMsg.toList.map Prod.fst).count i + _ = _
    omega
  pending p hp := ⟨(h.pending p hp).1.later (.of_same rfl rfl) rfl, (h.pending p hp).2⟩
  bound := h.bound
  fresh := h.fresh
  clear := h.clear
  fates x hx := by
    rcases List.mem_append.mp hx with hOld | hNew
    · exact h.fates x hOld
    · obtain rfl := List.mem_singleton.mp hNew
      exact hRight
  inMsg := h.inMsg

theorem Inv.post (h : Inv s (id :: outs)) (hEvent : s.taken[id]? = some ev) (hCarries : Carries ev m) : Inv (s.post id m) outs := by
  have hPosted : Inv { s with msgs := s.msgs.postInternal m } (id :: outs) := h.same ⟨rfl, rfl, rfl, rfl, rfl, rfl⟩ h.clear
  exact hPosted.settle ⟨ev, hEvent, hCarries⟩

theorem Inv.fill (h : Inv s [id]) (hNone : s.inMsg = none) (hEvent : s.taken[id]? = some ev) (hCarries : Carries ev m) :
    Inv { s with inMsg := some (id, m) } [] where
  once i := by
    have hOnce := h.once i
    rw [hNone] at hOnce
    exact hOnce
  pending p hp := ⟨(h.pending p hp).1.later (.of_same rfl rfl) rfl, (h.pending p hp).2⟩
  bound := h.bound
  fresh := h.fresh
  clear := h.clear
  fates := h.fates
  inMsg x hx := by
    obtain rfl := Option.some.inj hx
    exact ⟨ev, hEvent, hCarries⟩

theorem Inv.answer {r : U64} (h : Inv s []) (hSeen : s.inMsg = none ∨ r = 1) : Inv (s.answer r) [] ∧ (s.answer r).inMsg = none := by
  refine ⟨⟨fun i => ?_, fun p hp => ⟨(h.pending p hp).1.later (.of_same rfl rfl) rfl, (h.pending p hp).2⟩, h.bound, h.fresh, h.clear, fun x hx => ?_, fun x hx => ?_⟩, rfl⟩
  · have hOnce := h.once i
    have hFates : ((s.answer r).fates.map Prod.fst).count i = (s.fates.map Prod.fst).count i + (s.inMsg.toList.map Prod.fst).count i := by
      change (List.map Prod.fst (s.fates ++ _)).count i = _
      rw [map_append, count_append]
      rcases hSeen with hNone | rfl
      · rw [hNone, Option.toList_none, map_nil, ite_self]
        rfl
      · rw [if_pos rfl, map_map]
        rfl
    refine Eq.trans ?_ hOnce
    rw [hFates]
    change _ + (s.pendings.map (·.id)).count i + 0 + _ = _
    omega
  · rcases List.mem_append.mp hx with hOld | hNew
    · exact h.fates x hOld
    · split at hNew
      · obtain ⟨y, hy, rfl⟩ := List.mem_map.mp hNew
        exact h.inMsg y (Option.mem_toList.mp hy)
      · cases hNew
  · cases hx

theorem Inv.pop {rest : List InputEvent} (h : Inv s []) (hRaw : s.rawInput = ev :: rest) :
    Inv { s with rawInput := rest, taken := s.taken ++ [ev] } [s.taken.length] where
  once i := by
    have hOnce := h.once i
    rw [count_nil, Nat.add_zero] at hOnce
    change _ + _ + _ + [s.taken.length].count i = if i < (s.taken ++ [ev]).length then 1 else 0
    rw [count_singleton, length_append, length_singleton]
    refine Eq.trans (congrArg (· + _) hOnce) ?_
    by_cases hLast : i = s.taken.length
    · subst hLast
      rw [if_neg (Nat.lt_irrefl _), if_pos (beq_self_eq_true _), if_pos (Nat.lt_succ_self _)]
    · rw [if_neg (fun hEq => hLast (beq_iff_eq.mp hEq).symm), Nat.add_zero]
      by_cases hBefore : i < s.taken.length
      · rw [if_pos hBefore, if_pos (Nat.lt_succ_of_lt hBefore)]
      · rw [if_neg hBefore, if_neg (by omega)]
  pending p hp := by
    refine ⟨(h.pending p hp).1.later ⟨fun i e hGet => ?_, fun _ hx => hx⟩ rfl, (h.pending p hp).2⟩
    exact getElem?_append_left (List.getElem?_eq_some_iff.mp hGet).1 ▸ hGet
  bound := h.bound
  fresh i hi := h.fresh i (by
    change (s.taken ++ [ev]).length ≤ i at hi
    rw [length_append] at hi
    omega)
  clear hIn := h.clear (hRaw ▸ mem_cons_of_mem _ hIn)
  fates x hx := (h.fates x hx).later ⟨fun i e hGet => getElem?_append_left (List.getElem?_eq_some_iff.mp hGet).1 ▸ hGet, fun _ hx => hx⟩
  inMsg x hx := (h.inMsg x hx).later ⟨fun i e hGet => getElem?_append_left (List.getElem?_eq_some_iff.mp hGet).1 ▸ hGet, fun _ hx => hx⟩

theorem Inv.alone (h : Inv s (id :: outs)) : ∀ q ∈ s.pendings, q.id ≠ id := by
  rintro q hq rfl
  have hOnce := h.once q.id
  have hThere : 0 < (s.pendings.map (·.id)).count q.id := List.count_pos_iff.mpr (List.mem_map.mpr ⟨q, hq, rfl⟩)
  rw [count_cons_self] at hOnce
  split at hOnce
  · omega
  · omega

theorem Inv.ask (h : Inv s [p.id]) (hAsking : Asking s 0 p) (hFew : p.skipped.length < HIT_TEST_ROUNDS_MAX) :
    Inv (s.ask p.id) [p.id] ∧ Asking (s.ask p.id) 1 p := by
  have hCount (i : Nat) : (s.ask p.id).asked.count i = s.asked.count i + [p.id].count i := count_append
  have hOwn : (s.ask p.id).asked.count p.id = p.skipped.length + 1 := by
    rw [hCount, hAsking.asked, count_singleton_self]
  have hOther {i : Nat} (hNe : i ≠ p.id) : (s.ask p.id).asked.count i = s.asked.count i := by
    rw [hCount, count_singleton, if_neg (fun hEq => hNe (beq_iff_eq.mp hEq).symm), Nat.add_zero]
  have hTaken : p.id < s.taken.length := (List.getElem?_eq_some_iff.mp hAsking.event).1
  refine ⟨⟨h.once, fun q hq => ⟨(h.pending q hq).1.later (.of_same rfl rfl) (hOther (h.alone q hq)), (h.pending q hq).2⟩, fun i => ?_, fun i hi => ?_,
    h.clear, h.fates, h.inMsg⟩, ⟨hAsking.event, hAsking.message, hAsking.point, hAsking.target, hAsking.found, hAsking.through, hOwn⟩⟩
  · by_cases hSame : i = p.id
    · subst hSame
      rw [hOwn]
      exact hFew
    · rw [hOther hSame]
      exact h.bound i
  · rw [hOther (by
      rintro rfl
      exact absurd hTaken (Nat.not_lt.mpr hi))]
    exact h.fresh i hi

theorem Inv.push (h : Inv s [p.id]) (hAsking : Asking s 1 p) (hFew : p.skipped.length < HIT_TEST_ROUNDS_MAX) (frames : List Win32kCbFrame)
    (hFrames : frames.filterMap (·.pending) = p :: s.pendings) : Inv { s with win32kCb := frames } [] where
  once i := by
    have hOnce := h.once i
    change _ + ((frames.filterMap (·.pending)).map (·.id)).count i + _ + _ = _
    have hHere : ((frames.filterMap (·.pending)).map (·.id)).count i = [p.id].count i + (s.pendings.map (·.id)).count i := by
      rw [hFrames]
      exact @List.count_append _ _ _ [p.id] _
    refine Eq.trans ?_ hOnce
    rw [hHere, count_nil]
    change (s.fates.map Prod.fst).count i + _ + (s.inMsg.toList.map Prod.fst).count i + 0 = _
    omega
  pending q hq := by
    change q ∈ frames.filterMap (·.pending) at hq
    rw [hFrames] at hq
    rcases List.mem_cons.mp hq with rfl | hq
    · exact ⟨hAsking.later (.of_same rfl rfl) rfl, hFew⟩
    · exact ⟨(h.pending q hq).1.later (.of_same rfl rfl) rfl, (h.pending q hq).2⟩
  bound := h.bound
  fresh := h.fresh
  clear := h.clear
  fates := h.fates
  inMsg := h.inMsg

theorem Inv.pull (h : Inv s []) (frames : List Win32kCbFrame) (hFrames : s.pendings = p :: frames.filterMap (·.pending)) :
    Inv { s with win32kCb := frames } [p.id] ∧ Asking { s with win32kCb := frames } 1 p ∧ p.skipped.length < HIT_TEST_ROUNDS_MAX := by
  have hHere := h.pending p (hFrames ▸ mem_cons_self)
  refine ⟨⟨fun i => ?_, fun q hq => ?_, h.bound, h.fresh, h.clear, h.fates, h.inMsg⟩, hHere.1.later (.of_same rfl rfl) rfl, hHere.2⟩
  · have hOnce := h.once i
    have hCount : (s.pendings.map (·.id)).count i = [p.id].count i + ((frames.filterMap (·.pending)).map (·.id)).count i := by
      rw [hFrames]
      exact @List.count_append _ _ _ [p.id] _
    refine Eq.trans ?_ hOnce
    rw [hCount, count_nil]
    change (s.fates.map Prod.fst).count i + ((frames.filterMap (·.pending)).map (·.id)).count i + (s.inMsg.toList.map Prod.fst).count i + _ = _
    omega
  · have hThere := h.pending q (hFrames ▸ mem_cons_of_mem _ hq)
    exact ⟨hThere.1.later (.of_same rfl rfl) rfl, hThere.2⟩

/-! ## The parts of a call -/

/-- Between two calls: no `MSG` holds an event that its caller has not been told of. -/
structure Rests (s : Desk) : Prop where
  inv : Inv s []
  unseen : s.inMsg = none

theorem Rests.same (h : Rests s) (hSame : SameAccount s s') (hClear : InputEvent.Close ∉ s'.rawInput) : Rests s' := ⟨h.inv.same hSame hClear, hSame.inMsg.trans h.unseen⟩

section Parts

variable {α β : Type} {x : Act α} {f : α → Act β} {Q : Except Fault β → Desk → Prop}

theorem ends_modify_bind {g : Desk → Desk} {y : Act β} : Ends (modify g >>= fun _ => y) s Q ↔ Ends y (g s) Q := ends_ok rfl

theorem ends_get_bind {f : Desk → Act β} : Ends (Fallible.get >>= f) s Q ↔ Ends (f s) s Q := ends_ok rfl

theorem ends_touch {ok : Bool} {y : Act β} (hOk : ok = true → Ends y s Q) (hFault : Q (.error .guest) s) : Ends (touch ok >>= fun _ => y) s Q := by
  cases ok with
  | true => exact (ends_ok rfl).mpr (hOk rfl)
  | false => exact (ends_error rfl).mpr hFault

def Stays (x : Act α) : Prop := ∀ s, Rests s → Ends x s fun _ s' => Rests s'

theorem stays_pure (a : α) : Stays (pure a : Act α) := fun _ h => (ends_pure a).mpr h

theorem rests_bind (hx : Ends x s fun _ s' => Rests s') (hf : ∀ a, Stays (f a)) : Ends (x >>= f) s fun _ s' => Rests s' := by
  refine ends_bind.mpr (hx.mono fun r s' hRests => ?_)
  cases r with
  | ok a => exact hf a s' hRests
  | error e => exact hRests

theorem stays_bind (hx : Stays x) (hf : ∀ a, Stays (f a)) : Stays (x >>= f) := fun s h => rests_bind (hx s h) hf

theorem stays_modify {g : Desk → Desk} (hSame : ∀ s, SameAccount s (g s)) (hRaw : ∀ s, (g s).rawInput = s.rawInput) : Stays (modify g) :=
  fun s h => (ends_modify g).mpr (h.same (hSame s) (by rw [hRaw]; exact h.inv.clear))

end Parts

theorem stays_returns (r : U64) : Stays (returns r) := by
  intro s h
  unfold returns
  rw [ends_modify_bind]
  obtain ⟨hInv, hNone⟩ := h.inv.answer (r := r) (.inl h.unseen)
  exact (ends_pure _).mpr ⟨hInv, hNone⟩

theorem stays_writeMsgFull (guest : Guest) (lp : U64) (m : PostedMsg) : Stays (writeMsgFull guest lp none m) := by
  intro s h
  unfold writeMsgFull
  split
  · exact (ends_pure _).mpr h
  · refine ends_touch (fun _ => (ends_modify _).mpr ?_) h
    exact h.same ⟨rfl, rfl, h.unseen.symm, rfl, rfl, rfl⟩ h.inv.clear

theorem stays_tellMsg (guest : Guest) (lp : U64) (m : PostedMsg) (r : U64) : Stays (tellMsg guest lp m r) :=
  stays_bind (stays_writeMsgFull guest lp m) fun _ => stays_returns r

theorem stays_msgNext : Stays msgNext := fun _ h => ⟨_, rfl, h.same ⟨rfl, rfl, rfl, rfl, rfl, rfl⟩ h.inv.clear⟩

theorem stays_msgPeek (remove : Bool) : Stays (msgPeek remove) := fun _ h => ⟨_, rfl, h.same ⟨rfl, rfl, rfl, rfl, rfl, rfl⟩ h.inv.clear⟩

theorem stays_peekAgain (guest : Guest) (lp : U64) (remove : Bool) : Stays (peekAgain guest lp remove) := by
  refine stays_bind (stays_msgPeek remove) fun found => ?_
  cases found with
  | none => exact stays_returns 0
  | some f => exact stays_tellMsg guest lp f.msg 1

theorem Rests.prepare (h : Rests s) (l : Look) : Rests (s.prepare l) := by
  refine h.same ⟨rfl, rfl, rfl, rfl, rfl, rfl⟩ fun hIn => ?_
  rcases List.mem_append.mp hIn with hOld | hNew
  · exact h.inv.clear hOld
  · have hNot := (List.mem_filter.mp hNew).2
    rw [decide_eq_true_iff] at hNot
    exact hNot rfl

/-! ## Asking a window -/

theorem Asking.carries {n : Nat} (h : Asking s n p) (st : Windows.State) (code : U64) : Carries p.ev (hitMessage st p.ev p.msg p.wparam p.hwnd code) := by
  obtain ⟨found, hFound⟩ := h.found
  rw [← hFound]
  exact .hit st found p.msg p.wparam p.skipped code h.message h.point (hFound ▸ h.target)

theorem deliverHit_ends {n : Nat} (h : Inv s [p.id]) (hNone : s.inMsg = none) (hAsking : Asking s n p) (code : U64)
    (hFills : p.lp = 0 ∨ guest.fills = true) :
    Ends (deliverHit guest p code) s fun r s' => r = .ok () ∧ Inv s' [] ∧ s'.win32kCb = s.win32kCb ∧ (p.lp = 0 → s'.inMsg = none) := by
  unfold deliverHit
  rw [ends_get_bind]
  dsimp only
  split
  · exact (ends_modify _).mpr ⟨rfl, h.post hAsking.event (hAsking.carries s.windows code), rfl, fun _ => hNone⟩
  · rename_i hSome
    unfold writeMsgFull
    rw [if_neg hSome, hFills.resolve_left hSome, ends_ok (show touch true s = some (.ok (), s) from rfl), ends_modify]
    exact ⟨rfl, h.fill hNone hAsking.event (hAsking.carries s.windows code), rfl, fun hZero => absurd hZero hSome⟩

/-- How the question is put: the window can be asked, or the message is delivered at once. -/
inductive Armed (s : Desk) (p : PendingHitTest) : Except Fault (Option (U64 × List U64)) → Desk → Prop
  | asks (call : U64 × List U64) (s' : Desk) (hInv : Inv s' [p.id]) (hAsking : Asking s' 1 p) (hFew : p.skipped.length < HIT_TEST_ROUNDS_MAX)
      (hNone : s'.inMsg = none) (hSame : s'.win32kCb = s.win32kCb) (hAskable : s.askable p.hwnd = true) : Armed s p (.ok (some call)) s'
  | delivers (s' : Desk) (hInv : Inv s' []) (hSame : s'.win32kCb = s.win32kCb) (hNone : p.lp = 0 → s'.inMsg = none)
      (hDirect : s.askable p.hwnd = false ∨ HIT_TEST_ROUNDS_MAX ≤ p.skipped.length) : Armed s p (.ok none) s'

theorem armHitTest_ends (h : Inv s [p.id]) (hNone : s.inMsg = none) (hAsking : Asking s 0 p)
    (hReady : s.askable p.hwnd = true ∧ p.skipped.length < HIT_TEST_ROUNDS_MAX ∨ p.lp = 0 ∨ guest.fills = true) :
    Ends (armHitTest guest p) s (Armed s p) := by
  unfold armHitTest
  rw [ends_get_bind]
  split
  · rename_i hDirect
    rw [Bool.or_eq_true, decide_eq_true_iff, Bool.not_eq_true'] at hDirect
    have hFills : p.lp = 0 ∨ guest.fills = true := by
      refine hReady.resolve_left ?_
      rintro ⟨hAskable, hFew⟩
      rcases hDirect with hNot | hMany
      · rw [hAskable] at hNot
        cases hNot
      · exact absurd hFew (Nat.not_lt.mpr hMany)
    refine ends_bind.mpr ((deliverHit_ends h hNone hAsking _ hFills).mono fun r s' hDone => ?_)
    obtain ⟨rfl, hInv, hSame, hNone'⟩ := hDone
    exact (ends_pure _).mpr (.delivers s' hInv hSame hNone' hDirect)
  · rename_i hAsks
    rw [Bool.or_eq_true, decide_eq_true_iff, not_or, Bool.not_eq_true', Bool.not_eq_false, Nat.not_le] at hAsks
    rw [ends_modify_bind]
    obtain ⟨hInv, hAsked⟩ := h.ask hAsking hAsks.2
    exact (ends_pure _).mpr (.asks _ _ hInv hAsked hAsks.2 hNone rfl hAsks.1)

/-! ## Routing -/

/-- Where the first window that is to be asked can be asked, the stack takes the callback; where it
cannot, there is no `MSG`. -/
def Routable (s : Desk) (guest : Guest) (lp : U64) (ev : InputEvent) : Prop :=
  ev.point ≠ none → ¬(s.windows.capture ≠ 0 ∧ (s.windows.window s.windows.capture).isSome) → windowUnder s.windows ev [] ≠ 0 →
    if s.askable (windowUnder s.windows ev []) then guest.seats = true else lp = 0

theorem beginHitTest_ends (h : Inv s [p.id]) (hNone : s.inMsg = none) (hAsking : Asking s 0 p) (hFirst : p.skipped = [])
    (hReady : if s.askable p.hwnd then guest.seats = true else p.lp = 0) : Ends (beginHitTest guest p) s fun _ s' => Rests s' := by
  have hFew : p.skipped.length < HIT_TEST_ROUNDS_MAX := by
    rw [hFirst]
    decide
  have hArm : s.askable p.hwnd = true ∧ p.skipped.length < HIT_TEST_ROUNDS_MAX ∨ p.lp = 0 ∨ guest.fills = true := by
    split at hReady
    · rename_i hAskable
      exact .inl ⟨hAskable, hFew⟩
    · exact .inr (.inl hReady)
  unfold beginHitTest
  refine ends_bind.mpr ((armHitTest_ends h hNone hAsking hArm).mono fun r s' hArmed => ?_)
  cases hArmed with
  | asks call _ hInv hAsked hFew hNone hSame hAskable =>
    rw [if_pos hAskable] at hReady
    rw [then_ok]
    unfold callHitTestFromSyscall
    dsimp only
    rw [hReady]
    refine ends_bind.mpr ((ends_ok (show touch true s' = some (.ok (), s') from rfl)).mpr ((ends_modify _).mpr ?_))
    have hRests : Rests { s' with win32kCb := ⟨[], none, some p⟩ :: s'.win32kCb } := ⟨hInv.push hAsked hFew _ rfl, hNone⟩
    exact ⟨_, rfl, hRests⟩
  | delivers _ hInv hSame hNone hDirect =>
    have hNot : s.askable p.hwnd = false := hDirect.resolve_right (Nat.not_le.mpr hFew)
    rw [hNot, if_neg Bool.false_ne_true] at hReady
    have hRests : Rests s' := ⟨hInv, hNone hReady⟩
    exact ⟨_, rfl, hRests⟩

theorem routeRawInput_ends (h : Inv s [id]) (hNone : s.inMsg = none) (hEvent : s.taken[id]? = some ev) (hKind : ev ≠ .Close)
    (hFresh : s.asked.count id = 0) (hRoutable : Routable s guest lp ev) : Ends (routeRawInput guest lp id ev) s fun _ s' => Rests s' := by
  have hAlone {s' : Desk} (hInv : Inv s' []) (hNone : s'.inMsg = none) : Ends (pure none : Act (Option (U64 × List U64))) s' fun _ s' => Rests s' :=
    (ends_pure _).mpr ⟨hInv, hNone⟩
  unfold routeRawInput
  rw [ends_get_bind]
  cases hMessage : ev.message with
  | none =>
    exfalso
    cases ev with
    | Close => exact hKind rfl
    | MouseMove => cases hMessage
    | MouseButton hwnd button => cases button <;> cases hMessage
    | Key => cases hMessage
  | some message =>
    obtain ⟨msg, wparam⟩ := message
    dsimp only
    cases hPoint : ev.point with
    | none =>
      dsimp only
      split
      · rename_i hTarget
        rw [ends_modify_bind]
        exact hAlone (h.post hEvent (.key s.windows msg wparam hMessage hPoint hTarget)) hNone
      · rename_i hTarget
        rw [ends_modify_bind]
        refine hAlone (h.settle ⟨ev, hEvent, ?_, fun _ hIn => absurd hIn not_mem_nil⟩) hNone
        unfold Nobody
        rw [if_pos hPoint]
        exact not_not.mp hTarget
    | some point =>
      obtain ⟨x, y⟩ := point
      dsimp only
      have hSome : ev.point ≠ none := by
        rw [hPoint]
        exact Option.some_ne_none _
      split
      · rename_i hCapture
        rw [ends_modify_bind]
        exact hAlone (h.post hEvent (.capture s.windows msg wparam x y hMessage hPoint hCapture)) hNone
      · rename_i hFree
        split
        · rename_i hNobody
          rw [ends_modify_bind]
          refine hAlone (h.settle ⟨ev, hEvent, ?_, fun _ hIn => absurd hIn not_mem_nil⟩) hNone
          unfold Nobody
          rw [if_neg hSome]
          exact hNobody
        · rename_i hTarget
          have hAsking : Asking s 0 ⟨id, ev, msg, wparam, windowUnder s.windows ev [], lp, []⟩ :=
            ⟨hEvent, hMessage, hSome, hTarget, ⟨s.windows, rfl⟩, fun _ hIn => absurd hIn not_mem_nil, hFresh⟩
          exact beginHitTest_ends h hNone hAsking rfl (hRoutable hSome hFree hTarget)

/-! ## A window procedure that answers -/

def PendingHitTest.next (p : PendingHitTest) (s : Desk) : U32 := windowUnder s.windows p.ev (p.skipped ++ [p.hwnd])

/-- What an answer needs of the guest: the `MSG` to deliver to, or the stack to ask the next window. -/
def Answerable (s : Desk) (guest : Guest) (p : PendingHitTest) (lresult : U64) : Prop :=
  if lresult = TRANSPARENT then
    p.next s ≠ 0 →
      if s.askable (p.next s) = true ∧ p.skipped.length + 1 < HIT_TEST_ROUNDS_MAX then guest.seats = true else p.lp = 0 ∨ guest.fills = true
  else p.lp = 0 ∨ guest.fills = true

/-- The callback of an event whose window has answered: it is over, or the next window is asked. -/
inductive Finished (rest : List Win32kCbFrame) (s : Desk) : Prop
  | closed (hInv : Inv s []) (hFrames : s.win32kCb = ⟨[], some 1, none⟩ :: rest)
  | asks (hRests : Rests s) (call : U64 × List U64) (p : PendingHitTest) (hFrames : s.win32kCb = ⟨[call], some 1, some p⟩ :: rest)

variable {rest : List Win32kCbFrame} {lresult : U64}

theorem lastCb_cons {frame : Win32kCbFrame} (h : s.win32kCb = frame :: rest) (f : Win32kCbFrame → Win32kCbFrame) :
    s.lastCb f = { s with win32kCb := f frame :: rest } := by
  unfold Desk.lastCb
  rw [h]

theorem Inv.answered {r : Option U64} (h : Inv s [p.id]) (hAsking : Asking s 1 p) (hFrames : s.win32kCb = ⟨[], r, none⟩ :: rest) (lresult : U64) :
    Inv { s with answers := s.answers ++ [(p.id, p.hwnd, lresult)], win32kCb := ⟨[], some 1, none⟩ :: rest } [p.id] ∧
      Asking { s with answers := s.answers ++ [(p.id, p.hwnd, lresult)], win32kCb := ⟨[], some 1, none⟩ :: rest } 1 p := by
  have hLater : Later s { s with answers := s.answers ++ [(p.id, p.hwnd, lresult)], win32kCb := ⟨[], some 1, none⟩ :: rest } :=
    ⟨fun _ _ hGet => hGet, fun _ hx => mem_append_left _ hx⟩
  have hPendings : Desk.pendings { s with answers := s.answers ++ [(p.id, p.hwnd, lresult)], win32kCb := ⟨[], some 1, none⟩ :: rest } = s.pendings := by
    unfold Desk.pendings
    rw [hFrames]
    rfl
  refine ⟨⟨fun i => ?_, fun q hq => ?_, h.bound, h.fresh, h.clear, fun x hx => (h.fates x hx).later hLater, fun x hx => (h.inMsg x hx).later hLater⟩,
    hAsking.later hLater rfl⟩
  · rw [hPendings]
    exact h.once i
  · rw [hPendings] at hq
    exact ⟨(h.pending q hq).1.later hLater rfl, (h.pending q hq).2⟩

theorem finishHitTest_ends {r : Option U64} (h : Inv s [p.id]) (hNone : s.inMsg = none) (hAsking : Asking s 1 p) (hFrames : s.win32kCb = ⟨[], r, none⟩ :: rest)
    (hAnswerable : Answerable s guest p lresult) :
    Ends (finishHitTest guest p lresult) s fun r s' => (r = .ok () ∧ Finished rest s') ∨ (∃ e, r = .error e) ∧ Rests s' := by
  obtain ⟨hInv, hAsked⟩ := h.answered hAsking hFrames lresult
  unfold finishHitTest
  rw [ends_modify_bind, ends_modify_bind, lastCb_cons (s := { s with answers := s.answers ++ [(p.id, p.hwnd, lresult)] }) hFrames]
  obtain ⟨now, hNow⟩ : ∃ now : Desk, now = { s with answers := s.answers ++ [(p.id, p.hwnd, lresult)], win32kCb := ⟨[], some 1, none⟩ :: rest } := ⟨_, rfl⟩
  have hHere : now.win32kCb = ⟨[], some 1, none⟩ :: rest := by rw [hNow]
  have hUnseen : now.inMsg = none := by
    rw [hNow]
    exact hNone
  have hNoted : (p.id, p.hwnd, lresult) ∈ now.answers := by
    rw [hNow]
    exact mem_append_right _ (mem_singleton_self _)
  have hSee : now.windows = s.windows ∧ ∀ hwnd, now.askable hwnd = s.askable hwnd := by
    rw [hNow]
    exact ⟨rfl, fun _ => rfl⟩
  rw [← hNow] at hInv hAsked
  rw [← hNow, ends_get_bind]
  clear hNow
  unfold Answerable PendingHitTest.next at hAnswerable
  rw [← hSee.1] at hAnswerable
  split
  · rename_i hThrough
    rw [if_pos hThrough] at hAnswerable
    rw [hThrough] at hNoted
    have hAll : ∀ x ∈ p.skipped ++ [p.hwnd], (p.id, x, TRANSPARENT) ∈ now.answers := by
      intro x hx
      rcases List.mem_append.mp hx with hOld | hNew
      · exact hAsked.through x hOld
      · obtain rfl := List.mem_singleton.mp hNew
        exact hNoted
    dsimp only
    split
    · rename_i hNext
      have hAgain : Asking now 0 { p with hwnd := windowUnder now.windows p.ev (p.skipped ++ [p.hwnd]), skipped := p.skipped ++ [p.hwnd] } :=
        { event := hAsked.event, message := hAsked.message, point := hAsked.point, target := hNext.1, found := ⟨now.windows, rfl⟩
          through := hAll
          asked := by
            rw [hAsked.asked, length_append, length_singleton] }
      refine ends_bind.mpr ((armHitTest_ends (p := { p with hwnd := windowUnder now.windows p.ev (p.skipped ++ [p.hwnd]), skipped := p.skipped ++ [p.hwnd] })
        hInv hUnseen hAgain ?_).mono fun r s' hArmed => ?_)
      · have hReady := hAnswerable hNext.1
        dsimp only
        rw [length_append, length_singleton, hSee.2]
        split at hReady
        · rename_i hCan
          exact .inl hCan
        · exact .inr hReady
      · cases hArmed with
        | asks call _ hInv' hAsked' hFew' hNone' hSame hAskable =>
          rw [then_ok]
          dsimp only
          refine (ends_modify _).mpr (.inl ⟨rfl, ?_⟩)
          rw [lastCb_cons (hSame.trans hHere)]
          have hPendings : s'.pendings = rest.filterMap (·.pending) := by
            unfold Desk.pendings
            rw [hSame, hHere]
            rfl
          refine .asks ⟨hInv'.push hAsked' hFew' _ ?_, hNone'⟩ call _ rfl
          rw [hPendings]
          rfl
        | delivers _ hInv' hSame hNone' hDirect => exact ⟨_, rfl, .inl ⟨rfl, .closed hInv' (hSame.trans hHere)⟩⟩
    · rename_i hNext
      have hNobody : windowUnder now.windows p.ev (p.skipped ++ [p.hwnd]) = 0 := by
        by_contra hSome
        have hOwn : windowUnder now.windows p.ev (p.skipped ++ [p.hwnd]) = p.hwnd := not_not.mp fun hNe => hNext ⟨hSome, hNe⟩
        exact hSome (windowUnder_skip (by
          rw [hOwn]
          exact mem_append_right _ (mem_singleton_self _)))
      rw [ends_modify_bind]
      have hDropped : Inv (now.settle p.id (.dropped now.windows (p.skipped ++ [p.hwnd]))) [] := by
        refine hInv.settle ⟨p.ev, hAsked.event, ?_, hAll⟩
        unfold Nobody
        rw [if_neg hAsked.point]
        exact hNobody
      unfold writeMsgFull
      split
      · exact (ends_pure _).mpr (.inl ⟨rfl, .closed hDropped hHere⟩)
      · refine ends_touch (fun _ => (ends_modify _).mpr (.inl ⟨rfl, .closed ?_ hHere⟩)) (.inr ⟨⟨_, rfl⟩, hDropped, hUnseen⟩)
        exact hDropped.same ⟨rfl, rfl, hUnseen.symm, rfl, rfl, rfl⟩ hDropped.clear
  · rename_i hTakes
    rw [if_neg hTakes] at hAnswerable
    refine (deliverHit_ends hInv hUnseen hAsked lresult hAnswerable).mono fun r s' hDone => ?_
    obtain ⟨rfl, hInv', hSame, -⟩ := hDone
    exact .inl ⟨rfl, .closed hInv' (hSame.trans hHere)⟩

theorem nextCall_ends {frame : Win32kCbFrame} (h : Inv s []) (hFrames : s.win32kCb = frame :: rest)
    (hLast : frame.remaining = [] → frame.pending = none ∧ (s.inMsg = none ∨ frame.result.getD lresult = 1)) (hMore : frame.remaining ≠ [] → s.inMsg = none) :
    Ends (nextCall guest lresult) s fun _ s' => Rests s' := by
  unfold nextCall
  rw [ends_get_bind, hFrames]
  dsimp only
  cases hRemaining : frame.remaining with
  | nil =>
    obtain ⟨hEmpty, hSeen⟩ := hLast hRemaining
    dsimp only
    rw [ends_modify_bind]
    unfold returns
    rw [ends_modify_bind]
    have hPopped : Inv { s with win32kCb := rest } [] := by
      refine h.same ⟨rfl, rfl, rfl, ?_, rfl, rfl⟩ h.clear
      unfold Desk.pendings
      rw [hFrames, filterMap_cons, hEmpty]
    obtain ⟨hInv, hNone⟩ := hPopped.answer (r := frame.result.getD lresult) hSeen
    exact ⟨_, rfl, ⟨hInv, hNone⟩⟩
  | cons call remaining =>
    have hUnseen := hMore (by
      rw [hRemaining]
      exact cons_ne_nil _ _)
    obtain ⟨func, args⟩ := call
    dsimp only
    rw [ends_modify_bind, lastCb_cons hFrames]
    have hRests : Rests { s with win32kCb := { frame with remaining := remaining } :: rest } := by
      refine Rests.same ⟨h, hUnseen⟩ ⟨rfl, rfl, rfl, ?_, rfl, rfl⟩ h.clear
      unfold Desk.pendings
      rw [hFrames]
      rfl
    exact ends_touch (fun _ => ⟨_, rfl, hRests⟩) hRests

theorem Finished.nextCall (h : Finished rest s) (lresult : U64) : Ends (nextCall guest lresult) s fun _ s' => Rests s' := by
  cases h with
  | closed hInv hFrames => exact nextCall_ends hInv hFrames (fun _ => ⟨rfl, .inr rfl⟩) fun hMore => absurd rfl hMore
  | asks hRests call p hFrames => exact nextCall_ends hRests.inv hFrames (fun hLast => absurd hLast (cons_ne_nil _ _)) fun _ => hRests.unseen

def CallbackOrderly (s : Desk) (guest : Guest) (lresult : U64) : Prop :=
  ∀ frame rest p, s.win32kCb = frame :: rest → frame.remaining = [] → frame.pending = some p → Answerable s guest p lresult

theorem win32kCbAdvance_ends (h : Rests s) (hSome : s.win32kCb ≠ []) (hOrderly : CallbackOrderly s guest lresult) :
    Ends (win32kCbAdvance guest lresult) s fun _ s' => Rests s' := by
  obtain ⟨frame, rest, hFrames⟩ := exists_cons_of_ne_nil hSome
  unfold win32kCbAdvance
  rw [ends_get_bind, hFrames]
  dsimp only
  cases hRemaining : frame.remaining with
  | cons call remaining =>
    refine nextCall_ends h.inv hFrames (fun hLast => ?_) fun _ => h.unseen
    rw [hRemaining] at hLast
    cases hLast
  | nil =>
    cases hPending : frame.pending with
    | none =>
      exact nextCall_ends h.inv hFrames (fun _ => ⟨hPending, .inl h.unseen⟩) fun _ => h.unseen
    | some p =>
      have hAnswerable := hOrderly frame rest p hFrames hRemaining hPending
      dsimp only
      rw [ends_modify_bind, lastCb_cons hFrames]
      have hPendings : s.pendings = p :: ({ frame with pending := none } :: rest).filterMap (·.pending) := by
        unfold Desk.pendings
        rw [hFrames, filterMap_cons, hPending]
        rfl
      obtain ⟨hInv, hAsking, -⟩ := h.inv.pull ({ frame with pending := none } :: rest) hPendings
      have hTop : ({ frame with pending := none } : Win32kCbFrame) = ⟨[], frame.result, none⟩ := by rw [← hRemaining]
      rw [hTop] at hInv hAsking ⊢
      refine ends_bind.mpr ((finishHitTest_ends hInv h.unseen hAsking rfl hAnswerable).mono fun r s' hDone => ?_)
      rcases hDone with ⟨rfl, hFinished⟩ | ⟨⟨e, rfl⟩, hRests⟩
      · exact hFinished.nextCall lresult
      · exact hRests

/-! ## The calls -/

def RoundOrderly (s : Desk) (guest : Guest) (lp : U64) (l : Look) : Prop :=
  (s.prepare l).msgs.currentThread.msgs = [] → ∀ ev rest, (s.prepare l).rawInput = ev :: rest → Routable (s.prepare l) guest lp ev

def GetOrderly (guest : Guest) (lp : U64) : List Look → Desk → Prop
  | [], _ => True
  | l :: ls, s => RoundOrderly s guest lp l ∧ ∀ s', getRound guest lp l s = some (.ok none, s') → GetOrderly guest lp ls s'

theorem msgNext_some {ms : MsgState} (h : ms.currentThread.msgs ≠ []) : ∃ f, ms.msgNext.2 = some f := by
  unfold MsgState.msgNext
  cases hMsgs : ms.currentThread.msgs with
  | nil => exact absurd hMsgs h
  | cons m rest => exact ⟨_, rfl⟩

theorem msgPeek_some {ms : MsgState} (h : ms.currentThread.msgs ≠ []) (remove : Bool) : ∃ f, (ms.msgPeek remove).2 = some f := by
  unfold MsgState.msgPeek
  cases hMsgs : ms.currentThread.msgs with
  | nil => exact absurd hMsgs h
  | cons m rest => exact ⟨_, rfl⟩

theorem popFront_route {β : Type} (h : Rests s) {f : Option (Nat × InputEvent) → Act β}
    (hRoute : ∀ ev rest, s.rawInput = ev :: rest → Routable s guest lp ev)
    (hSome : ∀ id ev s', (Ends (routeRawInput guest lp id ev) s' fun _ s'' => Rests s'') → Ends (f (some (id, ev))) s' fun _ s'' => Rests s'')
    (hNone : Ends (f none) s fun _ s' => Rests s') : Ends (popFront >>= f) s fun _ s' => Rests s' := by
  cases hRaw : s.rawInput with
  | nil =>
    have hRun : popFront s = some (.ok none, s) := by rw [popFront, hRaw]
    exact (ends_ok hRun).mpr hNone
  | cons ev rest =>
    have hRun : popFront s = some (.ok (some (s.taken.length, ev)), { s with rawInput := rest, taken := s.taken ++ [ev] }) := by
      rw [popFront, hRaw]
    refine (ends_ok hRun).mpr (hSome _ _ _ ?_)
    refine routeRawInput_ends (h.inv.pop hRaw) h.unseen (getElem?_concat_length ..) ?_ (h.inv.fresh _ le_rfl) (hRoute ev rest hRaw)
    rintro rfl
    exact h.inv.clear (hRaw ▸ mem_cons_self)

theorem getRound_ends (h : Rests s) {l : Look} (hOrderly : RoundOrderly s guest lp l) : Ends (getRound guest lp l) s fun _ s' => Rests s' := by
  have hRests := h.prepare l
  have hTell (f : Found) : Stays (some <$> tellMsg guest lp f.msg (getResult f.msg)) := stays_bind (stays_tellMsg _ _ _ _) fun _ => stays_pure _
  unfold getRound
  rw [ends_modify_bind]
  by_cases hMsgs : (s.prepare l).msgs.currentThread.msgs = []
  · have hNone : nextIfAny (s.prepare l) = some (.ok none, s.prepare l) := if_neg (not_not.mpr hMsgs)
    rw [ends_ok hNone]
    refine popFront_route hRests (hOrderly hMsgs) (fun id ev s' hRoute => rests_bind hRoute fun _ => stays_pure _) ?_
    refine rests_bind (stays_msgNext _ hRests) fun found => ?_
    cases found with
    | some f => exact hTell f
    | none => exact stays_bind (stays_modify (fun _ => ⟨rfl, rfl, rfl, rfl, rfl, rfl⟩) fun _ => rfl) fun _ => stays_pure _
  · obtain ⟨f, hFound⟩ := msgNext_some hMsgs
    have hNext : nextIfAny (s.prepare l) = some (.ok (some f), { s.prepare l with msgs := (s.prepare l).msgs.msgNext.1 }) := by
      unfold nextIfAny msgNext
      rw [if_pos hMsgs, hFound]
    rw [ends_ok hNext]
    exact hTell f _ (hRests.same ⟨rfl, rfl, rfl, rfl, rfl, rfl⟩ hRests.inv.clear)

theorem ntUserGetMessage_ends (h : Rests s) {looks : List Look} (hOrderly : GetOrderly guest lp looks s) :
    Ends (ntUserGetMessage guest lp looks) s fun _ s' => Rests s' := by
  induction looks generalizing s with
  | nil => exact (ends_pure _).mpr h
  | cons l ls ih =>
    obtain ⟨hRound, hRest⟩ := hOrderly
    obtain ⟨⟨r, s₁⟩, hRun, hRests⟩ := getRound_ends h hRound
    unfold ntUserGetMessage
    cases r with
    | error e => exact (ends_error hRun).mpr hRests
    | ok outcome =>
      rw [ends_ok hRun]
      cases outcome with
      | some outcome => exact ⟨_, rfl, hRests⟩
      | none => exact ih hRests (hRest s₁ hRun)

theorem ntUserPeekMessage_ends (h : Rests s) {l : Look} (remove : Bool) (hOrderly : remove = true → RoundOrderly s guest lp l) :
    Ends (ntUserPeekMessage guest lp remove l) s fun _ s' => Rests s' := by
  have hRests := h.prepare l
  unfold ntUserPeekMessage
  rw [ends_modify_bind]
  by_cases hMsgs : (s.prepare l).msgs.currentThread.msgs = []
  · have hNone : peekIfAny remove (s.prepare l) = some (.ok none, s.prepare l) := if_neg (not_not.mpr hMsgs)
    rw [ends_ok hNone]
    cases remove with
    | false =>
      have hPop : popIf false (s.prepare l) = some (.ok none, s.prepare l) := rfl
      rw [ends_ok hPop]
      exact stays_peekAgain guest lp false _ hRests
    | true =>
      refine popFront_route hRests (hOrderly rfl hMsgs) (fun id ev s' hRoute => rests_bind hRoute fun call => ?_) (stays_peekAgain guest lp true _ hRests)
      cases call with
      | some call => exact stays_pure _
      | none =>
        refine stays_bind (stays_msgPeek true) fun found => ?_
        cases found with
        | some f => exact stays_tellMsg guest lp f.msg 1
        | none => exact stays_peekAgain guest lp true
  · obtain ⟨f, hFound⟩ := msgPeek_some hMsgs remove
    have hNext : peekIfAny remove (s.prepare l) = some (.ok (some f), { s.prepare l with msgs := ((s.prepare l).msgs.msgPeek remove).1 }) := by
      unfold peekIfAny msgPeek
      rw [if_pos hMsgs, hFound]
    rw [ends_ok hNext]
    exact stays_tellMsg guest lp f.msg 1 _ (hRests.same ⟨rfl, rfl, rfl, rfl, rfl, rfl⟩ hRests.inv.clear)

theorem callWndprocsFromSyscall_ends (h : Rests s) (calls : List (U64 × List U64)) (result : Option U64) :
    Ends (callWndprocsFromSyscall guest calls result) s fun _ s' => Rests s' := by
  unfold callWndprocsFromSyscall
  rw [ends_get_bind]
  cases calls with
  | nil => exact stays_returns _ s h
  | cons call remaining =>
    obtain ⟨func, args⟩ := call
    dsimp only
    split
    · exact stays_returns _ s h
    · refine ends_touch (fun _ => ?_) h
      rw [ends_modify_bind]
      exact ⟨_, rfl, h.same ⟨rfl, rfl, rfl, rfl, rfl, rfl⟩ h.inv.clear⟩

/-! ## Every run -/

/-- Calls in any order, and whatever else happens to the windows, the queues and the input between them. -/
inductive Call where
  | ntUserGetMessage (lp : U64) (looks : List Look)
  | ntUserPeekMessage (lp : U64) (remove : Bool) (look : Look)
  | win32kCbAdvance (lresult : U64)
  | callWndprocsFromSyscall (calls : List (U64 × List U64)) (result : Option U64)

def Call.run (guest : Guest) : Call → Act Outcome
  | .ntUserGetMessage lp looks => HitTest.ntUserGetMessage guest lp looks
  | .ntUserPeekMessage lp remove look => HitTest.ntUserPeekMessage guest lp remove look
  | .win32kCbAdvance lresult => HitTest.win32kCbAdvance guest lresult
  | .callWndprocsFromSyscall calls result => HitTest.callWndprocsFromSyscall guest calls result

def Orderly (s : Desk) (guest : Guest) : Call → Prop
  | .ntUserGetMessage lp looks => GetOrderly guest lp looks s
  | .ntUserPeekMessage lp remove look => remove = true → RoundOrderly s guest lp look
  | .win32kCbAdvance lresult => CallbackOrderly s guest lresult
  | .callWndprocsFromSyscall _ _ => True

structure Starts (s : Desk) : Prop where
  raw : InputEvent.Close ∉ s.rawInput
  callbacks : s.win32kCb = []
  taken : s.taken = []
  fates : s.fates = []
  unseen : s.inMsg = none
  asked : s.asked = []

inductive Run : Desk → Prop
  | start {s : Desk} (h : Starts s) : Run s
  | other {s : Desk} (h : Run s) (windows : Windows.State) (wndprocs : U32 → U64) (canCallClient : Bool) (msgs : MsgState) :
      Run { s with windows := windows, wndprocs := wndprocs, canCallClient := canCallClient, msgs := msgs }
  | call {s s' : Desk} {r : Except Fault Outcome} (h : Run s) (guest : Guest) (call : Call) (hOrderly : Orderly s guest call)
      (hRun : call.run guest s = some (r, s')) : Run s'

theorem Starts.rests (h : Starts s) : Rests s where
  unseen := h.unseen
  inv :=
    have hPendings : s.pendings = [] := by
      unfold Desk.pendings
      rw [h.callbacks]
      rfl
    { once := fun i => by
        rw [h.fates, hPendings, h.unseen, h.taken]
        rfl
      pending := fun p hp => by
        rw [hPendings] at hp
        cases hp
      bound := fun i => by
        rw [h.asked]
        exact Nat.zero_le _
      fresh := fun i _ => by
        rw [h.asked]
        rfl
      clear := h.raw
      fates := fun x hx => by
        rw [h.fates] at hx
        cases hx
      inMsg := fun x hx => by
        rw [h.unseen] at hx
        cases hx }

theorem call_rests {r : Except Fault Outcome} {call : Call} (h : Rests s) (hOrderly : Orderly s guest call) (hRun : call.run guest s = some (r, s')) : Rests s' := by
  cases call with
  | ntUserGetMessage lp looks => exact (ends_of_run hRun).mp (ntUserGetMessage_ends h hOrderly)
  | ntUserPeekMessage lp remove look => exact (ends_of_run hRun).mp (ntUserPeekMessage_ends h remove hOrderly)
  | win32kCbAdvance lresult =>
    have hSome : s.win32kCb ≠ [] := by
      intro hNone
      change HitTest.win32kCbAdvance guest lresult s = _ at hRun
      unfold HitTest.win32kCbAdvance at hRun
      rw [bind_of_ok (show Fallible.get s = some (.ok s, s) from rfl), hNone] at hRun
      cases hRun
    exact (ends_of_run hRun).mp (win32kCbAdvance_ends h hSome hOrderly)
  | callWndprocsFromSyscall calls result => exact (ends_of_run hRun).mp (callWndprocsFromSyscall_ends h calls result)

theorem Run.rests (h : Run s) : Rests s := by
  induction h with
  | start hStarts => exact hStarts.rests
  | other _ windows wndprocs canCallClient msgs ih => exact ih.same ⟨rfl, rfl, rfl, rfl, rfl, rfl⟩ ih.inv.clear
  | call _ guest call hOrderly hRun ih => exact call_rests ih hOrderly hRun

/-- Every event that was taken has exactly one fate, the right one, or is on its way in exactly one
callback; and no more than so many window procedures are asked about it. -/
structure Accounted (s : Desk) : Prop where
  once : ∀ i, (s.fates.map Prod.fst).count i + (s.pendings.map (·.id)).count i = if i < s.taken.length then 1 else 0
  right : ∀ x ∈ s.fates, Right s x.1 x.2
  unseen : s.inMsg = none
  rounds : ∀ i, s.asked.count i ≤ HIT_TEST_ROUNDS_MAX

def oneWindow : Windows.State := ⟨[(0x10, ⟨⟨0, 0, 100, 100⟩, 0, 0, true, false, 0, false⟩)], 0, 0, 0, 0x14⟩

def deskStart (wndproc : U64) : Desk where
  windows := oneWindow
  wndprocs := fun _ => wndproc
  canCallClient := true
  msgs := ⟨[{ tid := 1 }], 0, fun _ => none, 0, Nat.zero_lt_one⟩
  rawInput := [.MouseMove 0 40 40, .Key 0 0x41 true]
  win32kCb := []
  taken := []
  fates := []
  inMsg := none
  asked := []
  answers := []

def deskLook (wndproc : U64) : Look := ⟨{}, oneWindow, fun _ => wndproc, []⟩

theorem deskStart_starts (wndproc : U64) : Starts (deskStart wndproc) :=
  have hRaw : InputEvent.Close ∉ [InputEvent.MouseMove 0 40 40, .Key 0 0x41 true] := by decide
  ⟨hRaw, rfl, rfl, rfl, rfl, rfl⟩

end HitTest

end Exemu.Os
