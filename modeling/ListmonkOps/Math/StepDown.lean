/-
Step-down correction of a family of p-values.

The hypotheses of a family are rejected from the smallest p-value on, each
against a threshold that grows with every rejection, until one is not. Whether a
p-value is rejected depends on the family only through how many of its members
are at least as large, so the procedure has a description without ranks: a
p-value is rejected when every member up to it lies below its own threshold.
-/

import Mathlib.Algebra.Order.Field.Basic
import Mathlib.Data.List.Sort
import Mathlib.Tactic.Linarith
import Mathlib.Tactic.Positivity

namespace ListmonkOps.Math.StepDown

variable {K : Type} [LinearOrder K] {alpha p q x : K} {family family' : List K}

/-! ## Weights -/

/-- The number of members that are at least as large. -/
def weight (family : List K) (q : K) : ℕ := family.countP (q ≤ ·)

theorem weight_pos (h : q ∈ family) : 0 < weight family q :=
  List.countP_pos_iff.mpr ⟨q, h, by simp⟩

theorem weight_perm (h : family.Perm family') : weight family q = weight family' q :=
  h.countP_eq _

theorem weight_le_weight_cons : weight family q ≤ weight (x :: family) q := by
  rw [weight, weight, List.countP_cons]
  omega

/-- In a sorted family the member at a rank weighs at least as much as is left. -/
theorem length_sub_le_weight (hsorted : family.Pairwise (· ≤ ·)) {j : ℕ} (hj : j < family.length) :
    family.length - j ≤ weight family family[j] := by
  have hdrop : weight (family.drop j) family[j] = (family.drop j).length := by
    rw [weight, List.countP_eq_length]
    intro q hq
    obtain ⟨k, hk, rfl⟩ := List.mem_drop_iff_getElem.mp hq
    simp only [decide_eq_true_eq]
    rcases Nat.eq_zero_or_pos k with rfl | hpos
    · exact le_of_eq (by simp)
    · exact hsorted.rel_get_of_lt (a := ⟨j, hj⟩) (b := ⟨j + k, by omega⟩) (by simp; omega)
  rw [← List.length_drop, ← hdrop]
  exact (List.drop_sublist j family).countP_le

/-- The first of the members that are equal weighs exactly as much as is left. -/
theorem exists_rank (hsorted : family.Pairwise (· ≤ ·)) (hq : q ∈ family) :
    ∃ j, ∃ hj : j < family.length, family[j] = q ∧ weight family q = family.length - j ∧
      ∀ r, ∀ hr : r < family.length, q ≤ family[r] → j ≤ r := by
  induction family with
  | nil => cases hq
  | cons head family ih =>
      rw [List.pairwise_cons] at hsorted
      by_cases hhead : head = q
      · subst hhead
        refine ⟨0, by simp, rfl, ?_, fun _ _ _ => Nat.zero_le _⟩
        rw [weight, List.countP_eq_length.mpr]
        · rfl
        · intro r hr
          rcases List.mem_cons.mp hr with rfl | hr
          · simp
          · simpa using hsorted.1 r hr
      · have hq' : q ∈ family := (List.mem_cons.mp hq).resolve_left (Ne.symm hhead)
        obtain ⟨j, hj, hget, hweight, hleast⟩ := ih hsorted.2 hq'
        have hlt : head < q := lt_of_le_of_ne (hsorted.1 q hq') hhead
        refine ⟨j + 1, by simpa using hj, hget, ?_, fun r hr hle => ?_⟩
        · rw [weight, List.countP_cons, ← weight, hweight]
          simp [hlt.not_ge]
        · cases r with
          | zero => exact absurd hle (by simpa using hlt)
          | succ r => exact Nat.succ_le_succ (hleast r (by simpa using hr) (by simpa using hle))

/-! ## Rejection -/

variable [Field K]

/-- The step-down test rejects at `p`: every member up to it is below its own threshold, so that
no smaller one stops the test. -/
def Rejects (alpha : K) (family : List K) (p : K) : Prop :=
  ∀ q ∈ family, q ≤ p → q < alpha / weight family q

/-- The smallest level at which `p` would be rejected, but at most one. -/
def adjusted (family : List K) (p : K) : K :=
  ((family.filter (· ≤ p)).map fun q => min 1 (q * weight family q)).foldr max 0

theorem adjusted_le_iff :
    adjusted family p ≤ x ↔ 0 ≤ x ∧ ∀ q ∈ family, q ≤ p → min 1 (q * weight family q) ≤ x := by
  have hfold : ∀ values : List K, values.foldr max 0 ≤ x ↔ 0 ≤ x ∧ ∀ v ∈ values, v ≤ x := by
    intro values
    induction values with
    | nil => simp
    | cons v values ih =>
        rw [List.foldr_cons, max_le_iff, ih, List.forall_mem_cons]
        tauto
  rw [adjusted, hfold]
  simp only [List.mem_map, List.mem_filter, decide_eq_true_eq, forall_exists_index, and_imp]
  refine and_congr_right fun _ => ⟨fun h q hq hle => h _ q hq hle rfl, ?_⟩
  rintro h _ q hq hle rfl
  exact h q hq hle

theorem adjusted_lt_iff (hx : 0 < x) :
    adjusted family p < x ↔ ∀ q ∈ family, q ≤ p → min 1 (q * weight family q) < x := by
  have hfold : ∀ values : List K, values.foldr max 0 < x ↔ ∀ v ∈ values, v < x := by
    intro values
    induction values with
    | nil => simp [hx]
    | cons v values ih => rw [List.foldr_cons, max_lt_iff, ih, List.forall_mem_cons]
  rw [adjusted, hfold]
  simp only [List.mem_map, List.mem_filter, decide_eq_true_eq, forall_exists_index, and_imp]
  refine ⟨fun h q hq hle => h _ q hq hle rfl, ?_⟩
  rintro h _ q hq hle rfl
  exact h q hq hle

theorem Rejects.mono (h : Rejects alpha family q) (hle : p ≤ q) : Rejects alpha family p :=
  fun r hr hrp => h r hr (hrp.trans hle)

theorem adjusted_mono (h : p ≤ q) : adjusted family p ≤ adjusted family q := by
  obtain ⟨hpos, hbound⟩ := adjusted_le_iff.mp (le_refl (adjusted family q))
  exact adjusted_le_iff.mpr ⟨hpos, fun r hr hle => hbound r hr (hle.trans h)⟩

theorem adjusted_perm (h : family.Perm family') : adjusted family p = adjusted family' p := by
  refine eq_of_forall_ge_iff fun x => ?_
  rw [adjusted_le_iff, adjusted_le_iff]
  simp only [h.mem_iff, weight_perm h]

theorem rejects_perm (h : family.Perm family') :
    Rejects alpha family p ↔ Rejects alpha family' p := by
  simp only [Rejects, h.mem_iff, weight_perm h]

variable [IsStrictOrderedRing K]

theorem rejects_iff_adjusted_lt (hpos : 0 < alpha) (hlt : alpha < 1) :
    Rejects alpha family p ↔ adjusted family p < alpha := by
  rw [adjusted_lt_iff hpos]
  refine forall₂_congr fun q hq => forall_congr' fun _ => ?_
  have hweight : (0 : K) < weight family q := by exact_mod_cast weight_pos hq
  rw [lt_div_iff₀ hweight, min_lt_iff]
  exact ⟨Or.inr, fun h => h.resolve_left hlt.not_gt⟩

theorem adjusted_le_one : adjusted family p ≤ 1 :=
  adjusted_le_iff.mpr ⟨zero_le_one, fun _ _ _ => min_le_left _ _⟩

theorem le_adjusted (hmem : p ∈ family) (hpos : 0 ≤ p) (hle : p ≤ 1) : p ≤ adjusted family p := by
  obtain ⟨-, hbound⟩ := adjusted_le_iff.mp (le_refl (adjusted family p))
  refine le_trans (le_min hle ?_) (hbound p hmem le_rfl)
  have hweight : (1 : K) ≤ weight family p := by exact_mod_cast weight_pos hmem
  calc p = p * 1 := (mul_one p).symm
    _ ≤ p * weight family p := mul_le_mul_of_nonneg_left hweight hpos

/-- What is rejected in a larger family is rejected in the smaller one. -/
theorem Rejects.of_cons (hpos : 0 < alpha) (h : Rejects alpha (x :: family) p) :
    Rejects alpha family p := by
  intro q hq hle
  refine lt_of_lt_of_le (h q (List.mem_cons_of_mem x hq) hle) ?_
  have hweight : (0 : K) < weight family q := by exact_mod_cast weight_pos hq
  have hgrown : (weight family q : K) ≤ weight (x :: family) q := by
    exact_mod_cast weight_le_weight_cons
  exact div_le_div_of_nonneg_left hpos.le hweight hgrown

theorem Rejects.lt (hpos : 0 < alpha) (hmem : p ∈ family) (h : Rejects alpha family p) :
    p < alpha := by
  have hweight : (1 : K) ≤ weight family p := by exact_mod_cast weight_pos hmem
  exact lt_of_lt_of_le (h p hmem le_rfl) (div_le_self hpos.le hweight)

omit [IsStrictOrderedRing K] in
/-- With one more member that is rejected itself, what was rejected still is. -/
theorem Rejects.cons (h : Rejects alpha family p) (hx : Rejects alpha (x :: family) x) :
    Rejects alpha (x :: family) p := by
  intro q hq hle
  by_cases hqx : q ≤ x
  · exact hx q hq hqx
  · have hmem : q ∈ family := (List.mem_cons.mp hq).resolve_left fun heq => hqx heq.le
    have hweight : weight (x :: family) q = weight family q := by
      rw [weight, List.countP_cons_of_neg (by simpa using hqx), weight]
    rw [hweight]
    exact h q hmem hle

/-! ## Ranks -/

/-- The thresholds by rank and the thresholds by weight reject the same. -/
theorem rejects_getElem_iff (hpos : 0 < alpha) (hsorted : family.Pairwise (· ≤ ·)) {r : ℕ}
    (hr : r < family.length) :
    Rejects alpha family family[r] ↔
      ∀ j, ∀ hj : j ≤ r, family[j] < alpha / ((family.length - j : ℕ) : K) := by
  constructor
  · intro h j hj
    have hj' : j < family.length := hj.trans_lt hr
    have hle : family[j] ≤ family[r] := by
      rcases hj.eq_or_lt with rfl | hlt
      · exact le_rfl
      · exact hsorted.rel_get_of_lt (a := ⟨j, hj'⟩) (b := ⟨r, hr⟩) hlt
    refine lt_of_lt_of_le (h _ (List.getElem_mem hj') hle) ?_
    have hleft : (0 : K) < ((family.length - j : ℕ) : K) := by
      exact_mod_cast Nat.sub_pos_of_lt hj'
    exact div_le_div_of_nonneg_left hpos.le hleft (by
      exact_mod_cast length_sub_le_weight hsorted hj')
  · intro h q hq hle
    obtain ⟨j, hj, rfl, hweight, hleast⟩ := exists_rank hsorted hq
    rw [hweight]
    exact h j (hleast r hr hle)

theorem adjusted_getElem_le_iff (hsorted : family.Pairwise (· ≤ ·))
    (hnonneg : ∀ q ∈ family, 0 ≤ q) {r : ℕ} (hr : r < family.length) :
    adjusted family family[r] ≤ x ↔
      0 ≤ x ∧ ∀ j, ∀ hj : j ≤ r, min 1 (family[j] * ((family.length - j : ℕ) : K)) ≤ x := by
  rw [adjusted_le_iff]
  refine and_congr_right fun _ => ⟨fun h j hj => ?_, fun h q hq hle => ?_⟩
  · have hj' : j < family.length := hj.trans_lt hr
    have hle : family[j] ≤ family[r] := by
      rcases hj.eq_or_lt with rfl | hlt
      · exact le_rfl
      · exact hsorted.rel_get_of_lt (a := ⟨j, hj'⟩) (b := ⟨r, hr⟩) hlt
    refine le_trans (min_le_min le_rfl ?_) (h _ (List.getElem_mem hj') hle)
    exact mul_le_mul_of_nonneg_left (by exact_mod_cast length_sub_le_weight hsorted hj')
      (hnonneg _ (List.getElem_mem hj'))
  · obtain ⟨j, hj, rfl, hweight, hleast⟩ := exists_rank hsorted hq
    rw [hweight]
    exact h j (hleast r hr hle)

end ListmonkOps.Math.StepDown
