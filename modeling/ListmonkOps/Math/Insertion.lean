/-
One more entry in an ordered list.

A list that is kept in order by sorting it after each new entry changes in one
place only: the entry goes behind everything that is not after it. What was true
of neighbours stays true if it is true of the entry and its two neighbours.
-/

import Mathlib.Data.List.Chain
import Mathlib.Data.List.Sort

namespace ListmonkOps.Math

universe u

variable {α : Type u} {r : α → α → Prop} [DecidableRel r] {xs : List α} {a : α}

/-- The entries that a new one goes behind: those in front that may all stand before it. -/
def upTo (r : α → α → Prop) [DecidableRel r] (a : α) (xs : List α) : List α :=
  xs.takeWhile (r · a)

/-- The entries that a new one goes before. -/
def beyond (r : α → α → Prop) [DecidableRel r] (a : α) (xs : List α) : List α :=
  xs.dropWhile (r · a)

@[simp]
theorem upTo_append_beyond (xs : List α) : upTo r a xs ++ beyond r a xs = xs :=
  List.takeWhile_append_dropWhile

theorem orderedInsert_of_forall (h : ∀ x ∈ xs, r a x) : xs.orderedInsert r a = a :: xs := by
  cases xs with
  | nil => rfl
  | cons x xs => exact List.orderedInsert_cons_of_le r xs (h x (by simp))

/-- Sorting an ordered list with one more entry behind it puts the entry in its place. -/
theorem insertionSort_concat [IsTrans α r] (h : xs.Pairwise r) :
    (xs ++ [a]).insertionSort r = upTo r a xs ++ a :: beyond r a xs := by
  induction xs with
  | nil => rfl
  | cons x xs ih =>
      obtain ⟨hhead, htail⟩ := List.pairwise_cons.mp h
      rw [List.cons_append, List.insertionSort_cons, ih htail]
      by_cases hx : r x a
      · have hfirst : ∀ y ∈ upTo r a xs ++ a :: beyond r a xs, r x y := by
          intro y hy
          rw [List.mem_append, List.mem_cons] at hy
          rcases hy with hy | rfl | hy
          · exact hhead y (List.takeWhile_subset _ hy)
          · exact hx
          · exact hhead y (List.dropWhile_subset _ hy)
        rw [orderedInsert_of_forall hfirst]
        simp [upTo, beyond, hx]
      · -- nothing goes before the entry, for what does not go before it is first
        have hnone : ∀ y ∈ xs, ¬ r y a := fun y hy hya => hx (IsTrans.trans _ _ _ (hhead y hy) hya)
        have hupTo : upTo r a xs = [] := by
          cases xs with
          | nil => rfl
          | cons y ys => simp [upTo, hnone y (by simp)]
        have hbeyond : beyond r a xs = xs := by
          have happend := upTo_append_beyond (r := r) (a := a) xs
          rwa [hupTo, List.nil_append] at happend
        rw [hupTo, hbeyond, List.nil_append, List.orderedInsert_of_not_le r xs hx,
          orderedInsert_of_forall hhead]
        simp [upTo, beyond, hx]

theorem mem_upTo_cons_beyond {x : α} :
    x ∈ upTo r a xs ++ a :: beyond r a xs ↔ x = a ∨ x ∈ xs := by
  conv_rhs => rw [← upTo_append_beyond (r := r) (a := a) xs]
  simp only [List.mem_append, List.mem_cons]
  tauto

/-- A new key keeps the keys of a list apart, wherever its entry goes. -/
theorem nodup_map_upTo_cons_beyond {κ : Type*} {key : α → κ} (h : (xs.map key).Nodup)
    (hnew : ∀ x ∈ xs, key x ≠ key a) :
    ((upTo r a xs ++ a :: beyond r a xs).map key).Nodup := by
  rw [← upTo_append_beyond (r := r) (a := a) xs] at h hnew
  rw [List.map_append, List.map_cons, List.nodup_middle, ← List.map_append, List.nodup_cons]
  refine ⟨?_, h⟩
  simpa using fun x hx => hnew x (by simpa using hx)

/-- A relation between neighbours is kept where the new entry has it with its own two. -/
theorem isChain_upTo_cons_beyond {R : α → α → Prop} (h : xs.IsChain R)
    (hbefore : ∀ x ∈ (upTo r a xs).getLast?, R x a)
    (hafter : ∀ x ∈ (beyond r a xs).head?, R a x) :
    (upTo r a xs ++ a :: beyond r a xs).IsChain R := by
  rw [← upTo_append_beyond (r := r) (a := a) xs, List.isChain_append] at h
  obtain ⟨hfront, hback, -⟩ := h
  refine List.isChain_append.mpr ⟨hfront, List.isChain_cons.mpr ⟨hafter, hback⟩, ?_⟩
  intro x hx y hy
  obtain rfl : a = y := by simpa using hy
  exact hbefore x hx

end ListmonkOps.Math
