import Mathlib.Algebra.Order.Ring.Nat

/-! # Programs with a state that outlives their failure

A program changes a state and gives a result or an error.
-/
namespace Exemu

def Fallible (σ ε α : Type) := σ → Option (Except ε α × σ)

namespace Fallible

variable {σ ε α β : Type}

def pass : σ → Except ε α × σ → (α → Fallible σ ε β) → Option (Except ε β × σ)
  | _, (.ok a, s), f => f a s
  | _, (.error e, s), _ => some (.error e, s)

instance : Monad (Fallible σ ε) where
  pure a := fun s => some (.ok a, s)
  bind x f := fun s => (x s).bind fun r => pass s r f

def exhausted : Fallible σ ε α := fun _ => none

def get : Fallible σ ε σ := fun s => some (.ok s, s)

def modify (f : σ → σ) : Fallible σ ε Unit := fun s => some (.ok (), f s)

def step (f : σ → Except ε (α × σ)) : Fallible σ ε α := fun s =>
  match f s with
  | .ok (a, s') => some (.ok a, s')
  | .error e => some (.error e, s)

def onError (x : Fallible σ ε α) (undo : σ → σ) : Fallible σ ε α := fun s =>
  match x s with
  | some (.error e, s') => some (.error e, undo s')
  | r => r

def each (f : β → Fallible σ ε Unit) : List β → Fallible σ ε Unit
  | [] => pure ()
  | b :: bs => do
    f b
    each f bs

variable {x : Fallible σ ε α} {s : σ}

theorem bind_run {f : α → Fallible σ ε β} {s' : σ} {r : Except ε β} (h : (x >>= f) s = some (r, s')) :
    (∃ a s₁, x s = some (.ok a, s₁) ∧ f a s₁ = some (r, s')) ∨ ∃ e, x s = some (.error e, s') ∧ r = .error e := by
  obtain ⟨p, hx, hf⟩ := Option.bind_eq_some_iff.mp h
  obtain ⟨q, s₁⟩ := p
  cases q with
  | ok a => exact .inl ⟨a, s₁, hx, hf⟩
  | error e =>
    cases hf
    exact .inr ⟨e, hx, rfl⟩

theorem bind_ok_run {f : α → Fallible σ ε β} {s' : σ} {b : β} (h : (x >>= f) s = some (.ok b, s')) :
    ∃ a s₁, x s = some (.ok a, s₁) ∧ f a s₁ = some (.ok b, s') := by
  rcases bind_run h with hDone | ⟨e, -, hErr⟩
  · exact hDone
  · cases hErr

theorem bind_of_ok {x : Fallible σ ε α} {f : α → Fallible σ ε β} {s s₁ : σ} {a : α} (h : x s = some (.ok a, s₁)) : (x >>= f) s = f a s₁ := by
  change (x s).bind _ = _
  rw [h]
  rfl

theorem bind_of_error {f : α → Fallible σ ε β} {s₁ : σ} {e : ε} (h : x s = some (.error e, s₁)) : (x >>= f) s = some (.error e, s₁) := by
  change (x s).bind _ = _
  rw [h]
  rfl

theorem step_of_ok {f : σ → Except ε (α × σ)} {t : σ} {a : α} (h : f s = .ok (a, t)) : step f s = some (.ok a, t) := by
  unfold step
  rw [h]

theorem step_of_error {f : σ → Except ε (α × σ)} {e : ε} (h : f s = .error e) : step f s = some (.error e, s) := by
  unfold step
  rw [h]

theorem step_ok_run {f : σ → Except ε (α × σ)} {s' : σ} {a : α} (h : step f s = some (.ok a, s')) : f s = .ok (a, s') := by
  unfold step at h
  split at h
  · rename_i hOk
    cases h
    exact hOk
  · cases h

def EachAlong (f : β → Fallible σ ε Unit) (p : β → σ → Prop) : List β → σ → Prop
  | [], _ => True
  | b :: bs, s => p b s ∧ ∀ s', f b s = some (.ok (), s') → EachAlong f p bs s'

section EachAlong

variable {f : β → Fallible σ ε Unit} {p q : β → σ → Prop} {bs : List β} {s s' : σ} {r : Except ε Unit}

theorem EachAlong.keeps {R : σ → σ → Prop} (h : EachAlong f p bs s) (hRefl : ∀ s, R s s) (hTrans : ∀ s₁ s₂ s₃, R s₁ s₂ → R s₂ s₃ → R s₁ s₃)
    (hf : ∀ b s r s', p b s → f b s = some (r, s') → R s s') (hRun : each f bs s = some (r, s')) : R s s' := by
  induction bs generalizing s with
  | nil =>
    cases hRun
    exact hRefl _
  | cons b bs ih =>
    obtain ⟨hHere, hRest⟩ := h
    rcases bind_run hRun with ⟨a, s₁, hFirst, hThen⟩ | ⟨e, hFirst, -⟩
    · exact hTrans s s₁ s' (hf b s _ s₁ hHere hFirst) (ih (hRest s₁ hFirst) hThen)
    · exact hf b s _ s' hHere hFirst

theorem EachAlong.imp {J : σ → Prop} (h : EachAlong f p bs s) (hq : ∀ b s, J s → p b s → q b s)
    (hJ : ∀ b s s', J s → p b s → f b s = some (.ok (), s') → J s') (hs : J s) : EachAlong f q bs s := by
  induction bs generalizing s with
  | nil => exact trivial
  | cons b bs ih => exact ⟨hq b s hs h.1, fun s₁ hRun => ih (h.2 s₁ hRun) (hJ b s s₁ hs h.1 hRun)⟩

end EachAlong

/-- However the program ends, it leaves a state that stands in this relation to the one it found. -/
def Keeps (R : σ → σ → Prop) (x : Fallible σ ε α) : Prop := ∀ s r s', x s = some (r, s') → R s s'

namespace Keeps

variable {R : σ → σ → Prop}

theorem pure (hRefl : ∀ s, R s s) (a : α) : Keeps R (Pure.pure a : Fallible σ ε α) := by
  rintro s r s' h
  cases h
  exact hRefl s

theorem get (hRefl : ∀ s, R s s) : Keeps R (Fallible.get : Fallible σ ε σ) := by
  rintro s r s' h
  cases h
  exact hRefl s

theorem exhausted : Keeps R (Fallible.exhausted : Fallible σ ε α) := by
  rintro s r s' h
  cases h

theorem modify {f : σ → σ} (hf : ∀ s, R s (f s)) : Keeps R (Fallible.modify f : Fallible σ ε Unit) := by
  rintro s r s' h
  cases h
  exact hf s

theorem step {f : σ → Except ε (α × σ)} (hRefl : ∀ s, R s s) (hf : ∀ s a s', f s = .ok (a, s') → R s s') : Keeps R (Fallible.step f) := by
  rintro s r s' h
  unfold Fallible.step at h
  split at h
  · rename_i a s₁ hOk
    cases h
    exact hf s a _ hOk
  · cases h
    exact hRefl s

theorem bind (hTrans : ∀ s₁ s₂ s₃, R s₁ s₂ → R s₂ s₃ → R s₁ s₃) {x : Fallible σ ε α} {f : α → Fallible σ ε β} (hx : Keeps R x)
    (hf : ∀ a, Keeps R (f a)) : Keeps R (x >>= f) := by
  rintro s r s' h
  rcases bind_run h with ⟨a, s₁, hFirst, hThen⟩ | ⟨e, hFirst, -⟩
  · exact hTrans s s₁ s' (hx s _ s₁ hFirst) (hf a s₁ r s' hThen)
  · exact hx s _ s' hFirst

theorem each (hRefl : ∀ s, R s s) (hTrans : ∀ s₁ s₂ s₃, R s₁ s₂ → R s₂ s₃ → R s₁ s₃) {f : β → Fallible σ ε Unit}
    (hf : ∀ b, Keeps R (f b)) (bs : List β) : Keeps R (Fallible.each f bs) := by
  induction bs with
  | nil => exact pure hRefl ()
  | cons b bs ih => exact bind hTrans (hf b) fun _ => ih

end Keeps

def Ends (x : Fallible σ ε α) (s : σ) (Q : Except ε α → σ → Prop) : Prop := ∃ p, x s = some p ∧ Q p.1 p.2

def Then (f : α → Fallible σ ε β) (Q : Except ε β → σ → Prop) : Except ε α → σ → Prop
  | .ok a, s => Ends (f a) s Q
  | .error e, s => Q (.error e) s

section Ends

variable {x : Fallible σ ε α} {s : σ}

theorem ends_of_run {p : Except ε α × σ} (h : x s = some p) {Q : Except ε α → σ → Prop} : Ends x s Q ↔ Q p.1 p.2 := by
  constructor
  · rintro ⟨q, hq, hQ⟩
    cases h.symm.trans hq
    exact hQ
  · exact fun hQ => ⟨p, h, hQ⟩

theorem ends_pure {Q : Except ε α → σ → Prop} (a : α) : Ends (Pure.pure a) s Q ↔ Q (.ok a) s := ends_of_run (p := (.ok a, s)) rfl

theorem ends_get {Q : Except ε σ → σ → Prop} : Ends Fallible.get s Q ↔ Q (.ok s) s := ends_of_run (p := (.ok s, s)) rfl

theorem ends_modify {Q : Except ε Unit → σ → Prop} (f : σ → σ) : Ends (Fallible.modify f) s Q ↔ Q (.ok ()) (f s) :=
  ends_of_run (p := (.ok (), f s)) rfl

variable {Q : Except ε β → σ → Prop}

theorem then_ok {f : α → Fallible σ ε β} (a : α) : Then f Q (.ok a) s ↔ Ends (f a) s Q := Iff.rfl

theorem then_error {f : α → Fallible σ ε β} (e : ε) : Then f Q (.error e) s ↔ Q (.error e) s := Iff.rfl

theorem ends_bind {f : α → Fallible σ ε β} : Ends (x >>= f) s Q ↔ Ends x s (Then f Q) := by
  constructor
  · rintro ⟨p, hp, hQ⟩
    obtain ⟨⟨q, s₁⟩, hx, hf⟩ := Option.bind_eq_some_iff.mp hp
    refine ⟨_, hx, ?_⟩
    cases q with
    | ok a => exact ⟨p, hf, hQ⟩
    | error e =>
      cases hf
      exact hQ
  · rintro ⟨⟨q, s₁⟩, hx, hThen⟩
    cases q with
    | ok a =>
      obtain ⟨p, hf, hQ⟩ := hThen
      exact ⟨p, Option.bind_eq_some_iff.mpr ⟨_, hx, hf⟩, hQ⟩
    | error e => exact ⟨_, Option.bind_eq_some_iff.mpr ⟨_, hx, rfl⟩, hThen⟩

theorem ends_ok {f : α → Fallible σ ε β} {a : α} {t : σ} (h : x s = some (.ok a, t)) :
    Ends (x >>= f) s Q ↔ Ends (f a) t Q := ends_bind.trans (ends_of_run h)

theorem ends_error {f : α → Fallible σ ε β} {e : ε} {s₁ : σ} (h : x s = some (.error e, s₁)) :
    Ends (x >>= f) s Q ↔ Q (.error e) s₁ := ends_bind.trans (ends_of_run h)

theorem Ends.mono {Q Q' : Except ε α → σ → Prop} (h : Ends x s Q) (hImp : ∀ r s', Q r s' → Q' r s') : Ends x s Q' := by
  obtain ⟨p, hp, hQ⟩ := h
  exact ⟨p, hp, hImp _ _ hQ⟩

/-- From every state the program ends, in a state that stands in this relation to the first. -/
def Within (R : σ → σ → Prop) (x : Fallible σ ε α) : Prop := ∀ s, Ends x s fun _ s' => R s s'

variable {R : σ → σ → Prop}

theorem within_pure (hRefl : ∀ s, R s s) (a : α) : Within R (Pure.pure a : Fallible σ ε α) := fun s => (ends_pure a).mpr (hRefl s)

theorem within_get (hRefl : ∀ s, R s s) : Within R (Fallible.get : Fallible σ ε σ) := fun s => ends_get.mpr (hRefl s)

theorem within_bind (hTrans : ∀ {s₁ s₂ s₃}, R s₁ s₂ → R s₂ s₃ → R s₁ s₃) {f : α → Fallible σ ε β} (hx : Within R x)
    (hf : ∀ a, Within R (f a)) : Within R (x >>= f) := by
  intro s
  refine ends_bind.mpr ((hx s).mono fun r s₁ hFirst => ?_)
  cases r with
  | ok a => exact (hf a s₁).mono fun _ _ hSecond => hTrans hFirst hSecond
  | error e => exact hFirst

end Ends

end Fallible
end Exemu
