/-
What a list keeps of each of its groups.

The items of a list fall into groups by a key, and a selection is made in each
group. The selections together are no more than the list, so that what is
distinct in the list stays distinct, and they hold of every group what was
selected in it.
-/

import Mathlib.Data.List.Nodup
import Mathlib.Data.List.Perm.Subperm

namespace ListmonkOps.Math

variable {α β κ : Type*} [DecidableEq κ] {f : α → κ} {select : κ → List α}
variable {keys : List κ} {xs ys : List α}

theorem flatMap_filter_perm (distinct : keys.Nodup) (hkeys : ∀ x ∈ xs, f x ∈ keys) :
    (keys.flatMap fun k => xs.filter (f · = k)).Perm xs := by
  induction keys generalizing xs with
  | nil => simp [List.eq_nil_iff_forall_not_mem.mpr fun x hx => by simpa using hkeys x hx]
  | cons k keys ih =>
      obtain ⟨hfresh, hrest⟩ := List.nodup_cons.mp distinct
      have hothers := ih hrest fun x (hx : x ∈ xs.filter fun x => !decide (f x = k)) => by
        obtain ⟨hmem, hne⟩ := List.mem_filter.mp hx
        exact (List.mem_cons.mp (hkeys x hmem)).resolve_left (by simpa using hne)
      have hgroups : (keys.flatMap fun k' =>
          (xs.filter fun x => !decide (f x = k)).filter (f · = k')) =
            keys.flatMap fun k' => xs.filter (f · = k') := by
        refine List.flatMap_congr fun k' hk' => ?_
        rw [List.filter_filter]
        refine List.filter_congr fun x _ => ?_
        have hne : k' ≠ k := fun heq => hfresh (heq ▸ hk')
        by_cases hx : f x = k' <;> simp [hx, hne]
      rw [List.flatMap_cons, ← hgroups]
      exact (hothers.append_left _).trans (List.filter_append_perm _ xs)

omit [DecidableEq κ] in
theorem flatMap_subperm_flatMap {select' : κ → List α}
    (h : ∀ k ∈ keys, List.Subperm (select k) (select' k)) :
    List.Subperm (keys.flatMap select) (keys.flatMap select') := by
  induction keys with
  | nil => exact List.nil_subperm
  | cons k keys ih =>
      rw [List.flatMap_cons, List.flatMap_cons]
      exact (h k (by simp)).append (ih fun k' hk' => h k' (List.mem_cons_of_mem _ hk'))

theorem flatMap_groups_subperm (distinct : keys.Nodup) (hkeys : ∀ x ∈ xs, f x ∈ keys)
    (hselect : ∀ k ∈ keys, List.Subperm (select k) (xs.filter (f · = k))) :
    List.Subperm (keys.flatMap select) xs :=
  (flatMap_subperm_flatMap hselect).trans (flatMap_filter_perm distinct hkeys).subperm

theorem filter_flatMap_groups (distinct : keys.Nodup)
    (hselect : ∀ k ∈ keys, ∀ x ∈ select k, f x = k) (k : κ) :
    (keys.flatMap select).filter (f · = k) = if k ∈ keys then select k else [] := by
  induction keys with
  | nil => simp
  | cons k' keys ih =>
      obtain ⟨hfresh, hrest⟩ := List.nodup_cons.mp distinct
      have hothers := ih hrest fun k hk => hselect k (List.mem_cons_of_mem _ hk)
      rw [List.flatMap_cons, List.filter_append, hothers]
      by_cases hk : k' = k
      · subst hk
        have hall : (select k').filter (f · = k') = select k' :=
          List.filter_eq_self.mpr fun x hx => by simpa using hselect k' (by simp) x hx
        simp [hall, hfresh]
      · have hnone : (select k').filter (f · = k) = [] :=
          List.filter_eq_nil_iff.mpr fun x hx => by
            simpa [hselect k' (by simp) x hx] using hk
        simp [hnone, Ne.symm hk]

theorem nodup_filterMap_of_subperm {g : α → Option β} (h : List.Subperm xs ys)
    (distinct : (ys.filterMap g).Nodup) : (xs.filterMap g).Nodup := by
  obtain ⟨zs, hperm, hsublist⟩ := h
  exact (hperm.filterMap g).nodup_iff.mp ((hsublist.filterMap g).nodup distinct)

omit [DecidableEq κ] in
theorem filter_mem_eq_of_sublist [DecidableEq α] (h : xs.Sublist ys) (distinct : ys.Nodup) :
    ys.filter (· ∈ xs) = xs := by
  induction h with
  | slnil => rfl
  | cons y h ih =>
      obtain ⟨hfresh, hrest⟩ := List.nodup_cons.mp distinct
      rw [List.filter_cons_of_neg (by simpa using fun hmem => hfresh (h.subset hmem))]
      exact ih hrest
  | cons_cons y h ih =>
      obtain ⟨hfresh, hrest⟩ := List.nodup_cons.mp distinct
      rw [List.filter_cons_of_pos (by simp)]
      refine congrArg _ (Eq.trans (List.filter_congr fun z hz => ?_) (ih hrest))
      have hne : z ≠ y := fun heq => hfresh (heq ▸ hz)
      simp [hne]

end ListmonkOps.Math
