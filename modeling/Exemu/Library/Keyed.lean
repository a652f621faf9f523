import Mathlib.Algebra.Order.Ring.Nat
import Mathlib.Data.List.Nodup

/-! # Lists under keys

Things are listed node by node, each under the key of its node.
-/
namespace Exemu

namespace Keyed

variable {α β κ : Type} {es : List α} {k : α → κ} {g : α → List β} {key : β → κ}

theorem filter_eq_nil_of_ne {p : β → Bool} {e : α} {k₀ : κ} (hKey : ∀ b ∈ g e, key b = k e) (hp : ∀ b, p b = true → key b = k₀) (hNe : k e ≠ k₀) :
    (g e).filter p = [] :=
  List.filter_eq_nil_iff.mpr fun b hb hpb => hNe ((hKey b hb).symm.trans (hp b hpb))

theorem filter_flatMap [DecidableEq κ] (hKey : ∀ e ∈ es, ∀ b ∈ g e, key b = k e) (hNodup : (es.map k).Nodup) {p : β → Bool} {k₀ : κ}
    (hp : ∀ b, p b = true → key b = k₀) : (es.flatMap g).filter p = ((es.find? fun e => k e == k₀).elim [] g).filter p := by
  induction es with
  | nil => rfl
  | cons e es ih =>
    rw [List.map_cons, List.nodup_cons] at hNodup
    have hRest := ih (fun x hx => hKey x (List.mem_cons_of_mem e hx)) hNodup.2
    rw [List.flatMap_cons, List.filter_append, hRest, List.find?_cons]
    by_cases hHere : k e = k₀
    · have hNone : (es.find? fun x => k x == k₀) = none := by
        refine List.find?_eq_none.mpr fun x hx hEq => hNodup.1 ?_
        rw [hHere, ← eq_of_beq hEq]
        exact List.mem_map_of_mem hx
      rw [hNone, hHere, beq_self_eq_true, Option.elim_none, List.filter_nil, List.append_nil]
      rfl
    · rw [filter_eq_nil_of_ne (hKey e List.mem_cons_self) hp hHere, List.nil_append, beq_false_of_ne hHere]

end Keyed
end Exemu
