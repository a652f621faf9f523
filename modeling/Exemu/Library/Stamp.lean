import Mathlib.Algebra.Order.Ring.Nat
import Mathlib.Order.Monotone.Basic
import Mathlib.Data.List.Basic

/-! # Views guarded by monotone stamps

A state offers, for every key, a view and a stamp.
-/
namespace Exemu.Stamp

universe u v w

variable {S : Type u} {K : Type v} {V : Type w}

structure Covers (view : S → K → V) (stamp : S → K → Nat) (s t : S) : Prop where
  mono : ∀ k, stamp s k ≤ stamp t k
  moves : ∀ k, view s k ≠ view t k → stamp s k < stamp t k

namespace Covers

variable {view : S → K → V} {stamp : S → K → Nat} {r s t : S}

theorem refl (s : S) : Covers view stamp s s where
  mono _ := le_rfl
  moves _ h := absurd rfl h

theorem trans (hFirst : Covers view stamp r s) (hSecond : Covers view stamp s t) :
    Covers view stamp r t where
  mono k := (hFirst.mono k).trans (hSecond.mono k)
  moves k h := by
    by_cases hView : view r k = view s k
    · exact (hFirst.mono k).trans_lt (hSecond.moves k (hView ▸ h))
    · exact (hFirst.moves k hView).trans_le (hSecond.mono k)

theorem view_eq (h : Covers view stamp s t) {k : K} (hStamp : stamp s k = stamp t k) :
    view s k = view t k := by
  by_contra hView
  exact absurd hStamp (h.moves k hView).ne

end Covers

/-- A property of each step of a run, read off the state the step starts from. -/
inductive Along {I : Type u} (next : S → I → S) (P : S → I → Prop) : S → List I → Prop where
  | nil (s : S) : Along next P s []
  | cons {s : S} {i : I} {is : List I} (head : P s i) (tail : Along next P (next s i) is) :
      Along next P s (i :: is)

variable {I : Type u} {next : S → I → S} {P : S → I → Prop} {s : S} {is : List I}

theorem Along.keeps {J : S → Prop} (h : Along next P s is) (hStep : ∀ s, ∀ i ∈ is, J s → P s i → J (next s i)) :
    J s → J (is.foldl next s) := by
  induction h with
  | nil s => exact fun hs => hs
  | @cons s i is hHead _ ih =>
    intro hs
    exact ih (fun s j hj => hStep s j (List.mem_cons_of_mem _ hj)) (hStep s i List.mem_cons_self hs hHead)

theorem Along.iff_of_inv {Q : S → I → Prop} {J : S → Prop} (hSame : ∀ s i, J s → (P s i ↔ Q s i))
    (hKeep : ∀ s i, J s → P s i → J (next s i)) (hs : J s) (is : List I) : Along next P s is ↔ Along next Q s is := by
  induction is generalizing s with
  | nil => exact iff_of_true (.nil s) (.nil s)
  | cons i is ih =>
    constructor
    · intro h
      cases h with
      | cons hHead hTail => exact .cons ((hSame s i hs).mp hHead) ((ih (hKeep s i hs hHead)).mp hTail)
    · intro h
      cases h with
      | cons hHead hTail =>
        have hOwn := (hSame s i hs).mpr hHead
        exact .cons hOwn ((ih (hKeep s i hs hOwn)).mpr hTail)

theorem Along.congr {Q : S → I → Prop} (hSame : ∀ s, ∀ i ∈ is, P s i ↔ Q s i) (s : S) : Along next P s is ↔ Along next Q s is := by
  induction is generalizing s with
  | nil => exact iff_of_true (.nil s) (.nil s)
  | cons i is ih =>
    have hRest := ih fun s j hj => hSame s j (List.mem_cons_of_mem i hj)
    constructor
    · intro h
      cases h with
      | cons hHead hTail => exact .cons ((hSame s i List.mem_cons_self).mp hHead) ((hRest _).mp hTail)
    · intro h
      cases h with
      | cons hHead hTail => exact .cons ((hSame s i List.mem_cons_self).mpr hHead) ((hRest _).mpr hTail)

theorem Along.take (h : Along next P s is) : ∀ n, Along next P s (is.take n) := by
  induction h with
  | nil s =>
    intro n
    rw [List.take_nil]
    exact .nil s
  | cons hHead _ ih =>
    intro n
    cases n with
    | zero => exact .nil _
    | succ n => exact .cons hHead (ih n)

theorem Along.at (h : Along next P s is) : ∀ (n : Nat) (i : I), is[n]? = some i → P ((is.take n).foldl next s) i := by
  induction h with
  | nil s => exact fun n i hGet => by simp at hGet
  | cons hHead _ ih =>
    intro n j hGet
    cases n with
    | zero =>
      obtain rfl := Option.some.inj hGet
      exact hHead
    | succ n => exact ih n j hGet

theorem Along.of_at (h : ∀ (n : Nat) (i : I), is[n]? = some i → P ((is.take n).foldl next s) i) : Along next P s is := by
  induction is generalizing s with
  | nil => exact .nil s
  | cons i is ih => exact .cons (h 0 i rfl) (ih fun n j hGet => h (n + 1) j hGet)

theorem Along.covers {Inv : S → Prop} {view : S → K → V} {stamp : S → K → Nat} (hInv : ∀ s i, Inv s → Inv (next s i))
    (hStep : ∀ s i, Inv s → P s i → Covers view stamp s (next s i)) (h : Along next P s is) :
    Inv s → Covers view stamp s (is.foldl next s) := by
  induction h with
  | nil s => exact fun _ => Covers.refl s
  | cons hHead _ ih =>
    intro hs
    exact (hStep _ _ hs hHead).trans (ih (hInv _ _ hs))

end Exemu.Stamp

/-! # Tallies and streams of a run

What the steps of a run spend stays below what they are granted, if some
reserve of the state makes up the balance of every step. What goes through a
queue comes out in the order in which it went in, if every step takes from the
front and adds at the back.
-/
namespace Exemu.Stamp

universe u

variable {S I : Type u} {next : S → I → S}

def tally (next : S → I → S) (quantity : S → I → Nat) : S → List I → Nat
  | _, [] => 0
  | s, i :: is => quantity s i + tally next quantity (next s i) is

@[simp] theorem tally_cons (quantity : S → I → Nat) (s : S) (i : I) (is : List I) :
    tally next quantity s (i :: is) = quantity s i + tally next quantity (next s i) is := rfl

theorem Along.tally_le {P : S → I → Prop} {spent granted : S → I → Nat} {s : S} {is : List I}
    (h : Along next P s is) (Inv : S → Prop) (reserve : S → Nat) (hInv : ∀ s i, Inv s → Inv (next s i))
    (hStep : ∀ s i, Inv s → P s i → spent s i + reserve (next s i) ≤ granted s i + reserve s) :
    Inv s → tally next spent s is + reserve (is.foldl next s) ≤ tally next granted s is + reserve s := by
  induction h with
  | nil s => exact fun _ => le_rfl
  | @cons s i is hHead _ ih =>
    intro hs
    have hFirst := hStep s i hs hHead
    have hRest := ih (hInv s i hs)
    rw [tally_cons, tally_cons, List.foldl_cons]
    omega

variable {A : Type u}

def stream (next : S → I → S) (emits : S → I → List A) : S → List I → List A
  | _, [] => []
  | s, i :: is => emits s i ++ stream next emits (next s i) is

@[simp] theorem stream_nil (emits : S → I → List A) (s : S) : stream next emits s [] = [] := rfl

@[simp] theorem stream_cons (emits : S → I → List A) (s : S) (i : I) (is : List I) :
    stream next emits s (i :: is) = emits s i ++ stream next emits (next s i) is := rfl

theorem stream_conserves {contents : S → List A} {enters leaves : S → I → List A}
    (hStep : ∀ s i, contents s ++ enters s i = leaves s i ++ contents (next s i)) (s : S) (is : List I) :
    contents s ++ stream next enters s is = stream next leaves s is ++ contents (is.foldl next s) := by
  induction is generalizing s with
  | nil => rw [stream_nil, stream_nil, List.append_nil, List.nil_append, List.foldl_nil]
  | cons i is ih =>
    rw [stream_cons, stream_cons, List.foldl_cons, List.append_assoc, ← ih (next s i), ← List.append_assoc,
      hStep s i, List.append_assoc]

end Exemu.Stamp

/-! # Runs side by side

Two machines take the same steps, and one state is seen through the other's. Their outcomes are
the same all along exactly if each step agrees where it is made.
-/
namespace Exemu.Trace

open Stamp (Along)

universe u v

variable {S T I : Type u} {O : Type v}

def trace (step : S → I → O × S) (view : S → T) : S → List I → List (O × T)
  | _, [] => []
  | s, i :: is => ((step s i).1, view (step s i).2) :: trace step view (step s i).2 is

/-- One step answers what the specification does on the state it is seen as, and leads to what that leads to. -/
def Agrees (step : S → I → O × S) (view : S → T) (spec : T → I → O × T) (s : S) (i : I) : Prop :=
  ((step s i).1, view (step s i).2) = spec (view s) i

variable {step : S → I → O × S} {view : S → T} {spec : T → I → O × T}

theorem trace_eq_iff (s : S) (is : List I) :
    trace step view s is = trace spec id (view s) is ↔ Along (fun s i => (step s i).2) (Agrees step view spec) s is := by
  induction is generalizing s with
  | nil => exact iff_of_true rfl (.nil s)
  | cons i is ih =>
    rw [trace, trace, List.cons.injEq]
    constructor
    · rintro ⟨hHead, hTail⟩
      have hView : view (step s i).2 = (spec (view s) i).2 := congrArg Prod.snd hHead
      rw [← hView, ih] at hTail
      exact .cons hHead hTail
    · intro h
      cases h with
      | cons hHead hTail =>
        have hView : view (step s i).2 = (spec (view s) i).2 := congrArg Prod.snd hHead
        refine ⟨hHead, ?_⟩
        rw [← hView, ih]
        exact hTail

end Exemu.Trace
