/-
What comes before what in a list.

A list without repetition puts its entries in an order. The list respects a
relation when related entries stand in that order; then so do entries that are
related through others, and nothing is related to itself.
-/

import Mathlib.Data.List.Nodup
import Mathlib.Logic.Relation

namespace ListmonkOps.Math

universe u

variable {α : Type u} {order : List α} {r : α → α → Prop} {a b c : α}

/-- The first entry stands in front of the second. -/
def Precedes (order : List α) (a b : α) : Prop :=
  ∃ front rest, order = front ++ b :: rest ∧ a ∈ front

theorem not_precedes_self (distinct : order.Nodup) : ¬ Precedes order a a := by
  rintro ⟨front, rest, rfl, hmem⟩
  exact (List.nodup_append.mp distinct).2.2 a hmem a (List.mem_cons_self ..) rfl

theorem Precedes.trans (distinct : order.Nodup) (hab : Precedes order a b)
    (hbc : Precedes order b c) : Precedes order a c := by
  obtain ⟨front, rest, rfl, ha⟩ := hab
  obtain ⟨front', rest', heq, hb⟩ := hbc
  refine ⟨front', rest', heq, ?_⟩
  -- Both fronts are beginnings of the list, and the second one holds `b`.
  rcases List.append_eq_append_iff.mp heq with ⟨more, rfl, -⟩ | ⟨more, hfront, -⟩
  · exact List.mem_append_left _ ha
  · have hrepeated : b ∈ front := hfront ▸ List.mem_append_left _ hb
    exact absurd rfl ((List.nodup_append.mp distinct).2.2 b hrepeated b (List.mem_cons_self ..))

def Respects (order : List α) (r : α → α → Prop) : Prop := ∀ a b, r a b → Precedes order a b

theorem Respects.transGen (distinct : order.Nodup) (h : Respects order r)
    (hab : Relation.TransGen r a b) : Precedes order a b := by
  induction hab with
  | single hab => exact h _ _ hab
  | tail _ hbc ih => exact ih.trans distinct (h _ _ hbc)

theorem Respects.acyclic (distinct : order.Nodup) (h : Respects order r) :
    ¬ Relation.TransGen r a a := fun hcycle =>
  not_precedes_self distinct (h.transGen distinct hcycle)

end ListmonkOps.Math
