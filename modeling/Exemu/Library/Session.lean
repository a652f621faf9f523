import Mathlib.Algebra.Order.Ring.Nat

/-! # Sessions

Things named by keys are opened, used and closed.
-/
namespace Exemu

namespace Session

inductive Event (κ : Type) where
  | opens (k : κ)
  | closes (k : κ)
  | uses (k : κ)
deriving DecidableEq

namespace Event

variable {κ : Type}

def bracket : Event κ → Option (κ × Bool)
  | .opens k => some (k, true)
  | .closes k => some (k, false)
  | .uses _ => none

end Event

section

variable {κ : Type} [DecidableEq κ] {opened opened' opened'' : κ → Bool} {e : Event κ} {es es' : List (Event κ)}

def after (opened : κ → Bool) : Event κ → κ → Bool
  | .opens k => Function.update opened k true
  | .closes k => Function.update opened k false
  | .uses _ => opened

def Allowed (opened : κ → Bool) : Event κ → Prop
  | .opens k => opened k = false
  | .closes k => opened k = true
  | .uses k => opened k = true

end

end Session

section

variable {κ : Type} [DecidableEq κ] {opened opened' opened'' : κ → Bool} {e : Session.Event κ} {es es' : List (Session.Event κ)}

open Session

inductive Session : (κ → Bool) → List (Session.Event κ) → (κ → Bool) → Prop
  | nil {opened : κ → Bool} : Session opened [] opened
  | cons {opened opened' : κ → Bool} {e : Session.Event κ} {es : List (Session.Event κ)} (allowed : Session.Allowed opened e)
      (rest : Session (Session.after opened e) es opened') : Session opened (e :: es) opened'

namespace Session

theorem one (h : Allowed opened e) : Session opened [e] (after opened e) := .cons h .nil

theorem append (h : Session opened es opened') (h' : Session opened' es' opened'') : Session opened (es ++ es') opened'' := by
  induction h with
  | nil => exact h'
  | cons hAllowed _ ih => exact .cons hAllowed (ih h')

theorem opened_eq (h : Session opened es opened') : opened' = es.foldl after opened := by
  induction h with
  | nil => rfl
  | cons _ _ ih => exact ih

def brackets (k : κ) (es : List (Event κ)) : List Bool :=
  (es.filterMap Event.bracket).filterMap fun p => if p.1 = k then some p.2 else none

theorem brackets_none (h : e.bracket = none) (k : κ) : brackets k (e :: es) = brackets k es := by
  simp only [brackets, List.filterMap_cons, h]

theorem brackets_some {k' : κ} {b : Bool} (h : e.bracket = some (k', b)) (k : κ) :
    brackets k (e :: es) = if k' = k then b :: brackets k es else brackets k es := by
  simp only [brackets, List.filterMap_cons, h]
  split <;> simp_all

theorem after_none (h : e.bracket = none) : after opened e = opened := by
  cases e with
  | uses k => rfl
  | opens k => cases h
  | closes k => cases h

theorem after_some {k : κ} {b : Bool} (h : e.bracket = some (k, b)) : after opened e = Function.update opened k b := by
  cases e <;> cases h <;> rfl

omit [DecidableEq κ] in
theorem allowed_some {k : κ} {b : Bool} (h : e.bracket = some (k, b)) (hAllowed : Allowed opened e) : opened k ≠ b := by
  cases e <;> cases h <;> simp_all [Allowed]

theorem alternates (h : Session opened es opened') (k : κ) : (opened k :: brackets k es).IsChain (· ≠ ·) := by
  induction h with
  | nil => exact .singleton _
  | @cons opened opened' e es hAllowed _ ih =>
    cases hBracket : e.bracket with
    | none =>
      rw [brackets_none hBracket]
      rw [after_none hBracket] at ih
      exact ih
    | some p =>
      obtain ⟨k', b⟩ := p
      rw [brackets_some hBracket]
      rw [after_some hBracket] at ih
      split
      · rename_i hKey
        subst hKey
        rw [Function.update_self] at ih
        exact List.isChain_cons_cons.mpr ⟨allowed_some hBracket hAllowed, ih⟩
      · rename_i hKey
        rw [Function.update_of_ne (Ne.symm hKey)] at ih
        exact ih

theorem allowed (h : Session opened es opened') {before : List (Event κ)} {e : Event κ} {rest : List (Event κ)}
    (hSplit : es = before ++ e :: rest) : Allowed (before.foldl after opened) e := by
  induction h generalizing before with
  | nil => simp at hSplit
  | cons hAllowed _ ih =>
    cases before with
    | nil =>
      obtain ⟨rfl, -⟩ := List.cons.inj hSplit
      exact hAllowed
    | cons f before =>
      obtain ⟨rfl, hTail⟩ := List.cons.inj hSplit
      exact ih hTail

end Session

end

end Exemu
