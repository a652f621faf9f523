import Mathlib.Algebra.Order.Ring.Nat

/-! # Programs that ask

A program whose only contact with its input are questions, as a tree.
-/
namespace Exemu

inductive Ask (Q : Type) (A : Q → Type) (α : Type) where
  | done (a : α)
  | ask (q : Q) (next : A q → Ask Q A α)

namespace Ask

variable {Q : Type} {A : Q → Type} {α β : Type}

def bind : Ask Q A α → (α → Ask Q A β) → Ask Q A β
  | done a, f => f a
  | ask q next, f => ask q fun x => (next x).bind f

instance : Monad (Ask Q A) where
  pure := done
  bind := bind

def run (answer : (q : Q) → A q) : Ask Q A α → α
  | done a => a
  | ask q next => (next (answer q)).run answer

def asked (answer : (q : Q) → A q) : Ask Q A α → List Q
  | done _ => []
  | ask q next => q :: (next (answer q)).asked answer

variable {answer answer' : (q : Q) → A q}

@[simp] theorem run_bind (t : Ask Q A α) (f : α → Ask Q A β) : (t >>= f).run answer = (f (t.run answer)).run answer := by
  induction t with
  | done a => rfl
  | ask q next ih => exact ih (answer q)

theorem run_eq_of_agree (t : Ask Q A α) (hAgree : ∀ q ∈ t.asked answer, answer' q = answer q) :
    t.run answer' = t.run answer := by
  induction t with
  | done a => rfl
  | ask q next ih =>
    rw [run, run, hAgree q List.mem_cons_self]
    exact ih (answer q) fun q' hq' => hAgree q' (List.mem_cons_of_mem _ hq')

end Ask
end Exemu
