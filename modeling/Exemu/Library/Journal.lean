import Mathlib.Algebra.Order.Ring.Nat
import Mathlib.Data.List.Basic

/-! # What was assigned last

Every step of a run assigns values to some of the keys.
-/
namespace Exemu

universe u v

variable {κ : Type u} {ν : Type v}

abbrev Journal (κ : Type u) (ν : Type v) := List (κ → Option ν)

namespace Journal

def latest (log : Journal κ ν) (k : κ) : Option ν := log.findSome? fun assigned => assigned k

theorem latest_cons_of_some {assigned : κ → Option ν} {k : κ} {v : ν} (h : assigned k = some v) (log : Journal κ ν) :
    latest (assigned :: log) k = some v := by
  unfold latest
  rw [List.findSome?_cons, h]

theorem latest_cons_of_none {assigned : κ → Option ν} {k : κ} (h : assigned k = none) (log : Journal κ ν) :
    latest (assigned :: log) k = latest log k := by
  unfold latest
  rw [List.findSome?_cons, h]

def Mirrors (held : κ → ν → Prop) (log : Journal κ ν) : Prop := ∀ k v, held k v → latest log k = some v

variable {held held' : κ → ν → Prop} {log : Journal κ ν} {assigned : κ → Option ν}

theorem Mirrors.push (h : Mirrors held log)
    (hStep : ∀ k v, held' k v → assigned k = some v ∨ assigned k = none ∧ held k v) :
    Mirrors held' (assigned :: log) := by
  intro k v hHeld
  rcases hStep k v hHeld with hNew | ⟨hNone, hOld⟩
  · exact latest_cons_of_some hNew log
  · rw [latest_cons_of_none hNone]
    exact h k v hOld

theorem Mirrors.forget (h : Mirrors held log) (hNone : ∀ k, assigned k = none)
    (hStep : ∀ k v, held' k v → held k v) : Mirrors held' (assigned :: log) :=
  h.push fun k v hHeld => .inr ⟨hNone k, hStep k v hHeld⟩

end Journal
end Exemu
