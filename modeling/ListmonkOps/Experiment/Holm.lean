/-
The Holm correction in exact arithmetic.

The correction sorts the p-values, walks up the sorted list with a running
maximum for what it adjusts and a flag that stops what it rejects, and puts both
back in the order of the input. Over rational numbers the two walks are the two
descriptions of one procedure, and neither depends on the order of the family.
-/

import ListmonkOps.Experiment.Client
import ListmonkOps.Math.Keyed
import ListmonkOps.Math.StepDown
import Mathlib.Data.Rat.Cast.Order
import Mathlib.Tactic.NormNum

namespace ListmonkOps.Experiment.Exact

open ListmonkOps.Math ListmonkOps.Math.StepDown ListmonkOps.Runtime

structure HolmCorrectionResult where
  originalPValues : List ℚ
  adjustedPValues : List ℚ
  significant : List Bool
  alpha : ℚ
  deriving DecidableEq

/-- The walk over the sorted p-values. `previous` is the last adjusted value, and
`stopRejecting` says that one has failed its threshold. -/
def holmSteps (alpha : ℚ) : List ℚ → ℚ → Bool → List (ℚ × Bool)
  | [], _, _ => []
  | p :: ps, previous, stopRejecting =>
      let remaining : ℚ := (ps.length + 1 : ℕ)
      let adjusted := max (min 1 (p * remaining)) previous
      let stops := stopRejecting || alpha / remaining ≤ p
      (adjusted, !stops) :: holmSteps alpha ps adjusted stops

/-- The p-values with their positions, sorted. -/
def ranked (pValues : List ℚ) : List (ℚ × ℕ) :=
  pValues.zipIdx.mergeSort fun a b => a.1 ≤ b.1

def applyHolmCorrection (pValues : List ℚ) (alpha : ℚ) : Except JsValue HolmCorrectionResult :=
  if pValues = [] then .ok ⟨[], [], [], alpha⟩
  else if alpha ≤ 0 ∨ 1 ≤ alpha then
    .error (.ofMessage "alpha must be a finite number in (0, 1)")
  else
    let indexed := ranked pValues
    let steps := (holmSteps alpha (indexed.map Prod.fst) 0 false).zip (indexed.map Prod.snd)
    let mapped (index : ℕ) : ℚ × Bool :=
      ((steps.find? (·.2 = index)).map Prod.fst).getD (1, false)
    .ok
      { originalPValues := pValues
        adjustedPValues := (List.range pValues.length).map fun i => (mapped i).1
        significant := (List.range pValues.length).map fun i => (mapped i).2
        alpha }

/-! ## The walk -/

variable {alpha : ℚ} {pValues : List ℚ}

@[simp]
theorem length_holmSteps {ps : List ℚ} {previous : ℚ} {stopped : Bool} :
    (holmSteps alpha ps previous stopped).length = ps.length := by
  induction ps generalizing previous stopped with
  | nil => rfl
  | cons p ps ih => simp [holmSteps, ih]

theorem forall_rank_succ {ps : List ℚ} {p : ℚ} {r : ℕ} {P : ℚ → ℕ → Prop} :
    (∀ j ≤ r + 1, ∀ q, (p :: ps)[j]? = some q → P q ((p :: ps).length - j)) ↔
      P p (ps.length + 1) ∧ ∀ j ≤ r, ∀ q, ps[j]? = some q → P q (ps.length - j) := by
  constructor
  · intro h
    refine ⟨h 0 (Nat.zero_le _) p rfl, fun j hj q hq => ?_⟩
    have hnext := h (j + 1) (Nat.succ_le_succ hj) q hq
    rwa [List.length_cons, Nat.add_sub_add_right] at hnext
  · rintro ⟨hhead, htail⟩ j hj q hq
    cases j with
    | zero =>
        obtain rfl : p = q := Option.some.inj hq
        exact hhead
    | succ j =>
        rw [List.length_cons, Nat.add_sub_add_right]
        exact htail j (Nat.le_of_succ_le_succ hj) q hq

/-- The step at a rank: a running maximum, and a flag that no threshold has failed. -/
theorem holmSteps_getElem? {ps : List ℚ} {previous : ℚ} {stopped : Bool} {r : ℕ}
    {step : ℚ × Bool} (h : (holmSteps alpha ps previous stopped)[r]? = some step) :
    (∀ x, step.1 ≤ x ↔ previous ≤ x ∧
        ∀ j ≤ r, ∀ p, ps[j]? = some p → min 1 (p * ((ps.length - j : ℕ) : ℚ)) ≤ x) ∧
      (step.2 = true ↔ stopped = false ∧
        ∀ j ≤ r, ∀ p, ps[j]? = some p → p < alpha / ((ps.length - j : ℕ) : ℚ)) := by
  induction ps generalizing previous stopped r with
  | nil => simp [holmSteps] at h
  | cons p ps ih =>
      cases r with
      | zero =>
          obtain rfl := Option.some.inj h
          constructor
          · intro x
            simp [and_comm]
          · simp
      | succ r =>
          obtain ⟨hadjusted, hflag⟩ := ih (show (holmSteps alpha ps _ _)[r]? = some step from h)
          constructor
          · intro x
            rw [hadjusted x, max_le_iff,
              forall_rank_succ (P := fun q n => min 1 (q * (n : ℚ)) ≤ x)]
            tauto
          · rw [hflag, forall_rank_succ (P := fun q n => q < alpha / (n : ℚ))]
            simp only [Bool.or_eq_false_iff, decide_eq_false_iff_not, not_le]
            tauto

/-! ## The order of the input -/

theorem ranked_perm (pValues : List ℚ) : (ranked pValues).Perm pValues.zipIdx := List.mergeSort_perm _ _

theorem ranked_sorted : ((ranked pValues).map Prod.fst).Pairwise (· ≤ ·) := by
  rw [List.pairwise_map]
  have hsorted : (ranked pValues).Pairwise fun a b => decide (a.1 ≤ b.1) := List.pairwise_mergeSort
    (fun a b c hab hbc => by simp only [decide_eq_true_eq] at *; exact hab.trans hbc)
    (fun a b => by simpa using le_total a.1 b.1) pValues.zipIdx
  exact hsorted.imp fun h => of_decide_eq_true h

theorem map_fst_ranked_perm (pValues : List ℚ) : ((ranked pValues).map Prod.fst).Perm pValues := by
  have hperm := (ranked_perm pValues).map Prod.fst
  rwa [List.zipIdx_map_fst] at hperm

/-- What the correction finds for the p-value at a position, in the terms of the step-down test:
its adjusted value and whether the test rejects. -/
structure Corrected (alpha : ℚ) (family : List ℚ) (p adjustedP : ℚ) (flag : Bool) : Prop where
  adjusted : (∀ q ∈ family, 0 ≤ q) → adjustedP = adjusted family p
  flag : flag = true ↔ Rejects alpha family p

theorem corrected_of_rank (hpos : 0 < alpha) {r : ℕ} {p : ℚ} {step : ℚ × Bool}
    (hp : ((ranked pValues).map Prod.fst)[r]? = some p)
    (hstep : (holmSteps alpha ((ranked pValues).map Prod.fst) 0 false)[r]? = some step) :
    Corrected alpha pValues p step.1 step.2 := by
  obtain ⟨hadjusted, hflag⟩ := holmSteps_getElem? hstep
  obtain ⟨hr, rfl⟩ := List.getElem?_eq_some_iff.mp hp
  have hperm := map_fst_ranked_perm pValues
  have hranks : ∀ P : ℚ → ℕ → Prop,
      (∀ j ≤ r, ∀ q, ((ranked pValues).map Prod.fst)[j]? = some q →
        P q (((ranked pValues).map Prod.fst).length - j)) ↔
      ∀ j, ∀ hj : j ≤ r, P ((ranked pValues).map Prod.fst)[j]
        (((ranked pValues).map Prod.fst).length - j) := by
    intro P
    refine forall₂_congr fun j hj => ?_
    rw [List.getElem?_eq_getElem (hj.trans_lt hr)]
    simp
  constructor
  · intro hnonneg
    rw [← adjusted_perm hperm]
    refine eq_of_forall_ge_iff fun x => ?_
    rw [adjusted_getElem_le_iff ranked_sorted (fun q hq => hnonneg q (hperm.mem_iff.mp hq)) hr,
      hadjusted, hranks fun q n => min 1 (q * (n : ℚ)) ≤ x]
  · rw [← rejects_perm hperm, rejects_getElem_iff hpos ranked_sorted hr, hflag,
      hranks fun q n => q < alpha / (n : ℚ)]
    simp

/-- A result of the correction holds what it finds, position by position, and echoes what it was
given. -/
structure Corrects (alpha : ℚ) (pValues : List ℚ) (result : HolmCorrectionResult) : Prop where
  original : result.originalPValues = pValues
  level : result.alpha = alpha
  lengthAdjusted : result.adjustedPValues.length = pValues.length
  lengthSignificant : result.significant.length = pValues.length
  entry : ∀ (i : ℕ) (p : ℚ), pValues[i]? = some p → ∃ adjustedP flag,
    result.adjustedPValues[i]? = some adjustedP ∧ result.significant[i]? = some flag ∧
      Corrected alpha pValues p adjustedP flag

theorem applyHolmCorrection_corrects (hpos : 0 < alpha) (hlt : alpha < 1) (pValues : List ℚ) :
    ∃ result, applyHolmCorrection pValues alpha = .ok result ∧ Corrects alpha pValues result := by
  rw [applyHolmCorrection]
  by_cases hnil : pValues = []
  · subst hnil
    exact ⟨_, if_pos rfl, rfl, rfl, rfl, rfl, by simp⟩
  rw [if_neg hnil, if_neg (by simp [hpos, hlt])]
  refine ⟨_, rfl, rfl, rfl, by simp, by simp, fun i p hp => ?_⟩
  have hi : i < pValues.length := (List.getElem?_eq_some_iff.mp hp).1
  obtain ⟨r, hr⟩ : ∃ r : ℕ, (ranked pValues)[r]? = some (p, i) :=
    List.mem_iff_getElem?.mp ((ranked_perm pValues).mem_iff.mpr (List.mem_zipIdx_iff_getElem?.mpr hp))
  have hlength : r < (holmSteps alpha ((ranked pValues).map Prod.fst) 0 false).length := by
    rw [length_holmSteps, List.length_map]
    exact (List.getElem?_eq_some_iff.mp hr).1
  have hstep := List.getElem?_eq_getElem hlength
  have hindex : ((ranked pValues).map Prod.snd)[r]? = some i := by simp [hr]
  have hdistinct : (((holmSteps alpha ((ranked pValues).map Prod.fst) 0 false).zip
      ((ranked pValues).map Prod.snd)).map Prod.snd).Nodup := by
    rw [List.map_snd_zip (by simp)]
    have hperm := (ranked_perm pValues).map Prod.snd
    rw [List.zipIdx_map_snd] at hperm
    exact hperm.nodup_iff.mpr List.nodup_range'
  have hfound := (find?_key_eq_some_iff hdistinct (k := i)
    (a := ((holmSteps alpha ((ranked pValues).map Prod.fst) 0 false)[r], i))).mpr
      ⟨List.mem_iff_getElem?.mpr ⟨r, by rw [List.getElem?_zip_eq_some]; exact ⟨hstep, hindex⟩⟩, rfl⟩
  refine ⟨_, _, ?_, ?_, corrected_of_rank hpos (by simp [hr]) hstep⟩
  · simp only [List.getElem?_map, List.getElem?_range hi, Option.map_some, hfound, Option.getD_some]
  · simp only [List.getElem?_map, List.getElem?_range hi, Option.map_some, hfound, Option.getD_some]

/-! ## The laws of the correction -/

/-- What a caller relies on: every position has a verdict, the verdict agrees with the adjusted
value, order does not matter, and another comparison makes nothing significant. -/
structure HolmLaws (alpha : ℚ) (pValues : List ℚ) (result : HolmCorrectionResult) : Prop where
  complete : result.adjustedPValues.length = pValues.length ∧
    result.significant.length = pValues.length
  flags : ∀ (i : ℕ) adjustedP flag, result.adjustedPValues[i]? = some adjustedP →
    result.significant[i]? = some flag → (flag = true ↔ adjustedP < alpha)
  bounds : ∀ (i : ℕ) p adjustedP, pValues[i]? = some p →
    result.adjustedPValues[i]? = some adjustedP → p ≤ adjustedP ∧ adjustedP ≤ 1
  monotone : ∀ (i j : ℕ) p q adjustedP adjustedQ, pValues[i]? = some p → pValues[j]? = some q →
    result.adjustedPValues[i]? = some adjustedP → result.adjustedPValues[j]? = some adjustedQ →
      p ≤ q → adjustedP ≤ adjustedQ
  equal : ∀ i j : ℕ, pValues[i]? = pValues[j]? → result.significant[i]? = result.significant[j]?
  /-- The same p-values in another order get the same at their new positions. -/
  permuted : ∀ others : List ℚ, others.Perm pValues → ∃ result',
    applyHolmCorrection others alpha = .ok result' ∧ ∀ i j : ℕ, others[i]? = pValues[j]? →
      result'.adjustedPValues[i]? = result.adjustedPValues[j]? ∧
        result'.significant[i]? = result.significant[j]?
  /-- With one more comparison, wherever it stands, nothing becomes significant. -/
  extended : ∀ before x after, pValues = before ++ after → ∃ result',
    applyHolmCorrection (before ++ x :: after) alpha = .ok result' ∧ ∀ i < pValues.length,
      result'.significant[if i < before.length then i else i + 1]? = some true →
        result.significant[i]? = some true

section Laws

variable {others : List ℚ} {result result' : HolmCorrectionResult} {i j : ℕ} {p adjustedP : ℚ}
  {flag : Bool}

theorem Corrects.exists_pValue (h : Corrects alpha pValues result)
    (hadjusted : result.adjustedPValues[i]? = some adjustedP) : ∃ p, pValues[i]? = some p := by
  have hi := (List.getElem?_eq_some_iff.mp hadjusted).1
  exact ⟨_, List.getElem?_eq_getElem (h.lengthAdjusted ▸ hi)⟩

theorem Corrects.adjusted_eq (h : Corrects alpha pValues result) (hnonneg : ∀ q ∈ pValues, 0 ≤ q)
    (hp : pValues[i]? = some p) (hadjusted : result.adjustedPValues[i]? = some adjustedP) :
    adjustedP = adjusted pValues p := by
  obtain ⟨_, _, hentry, -, hcorrected⟩ := h.entry i p hp
  rw [Option.some.inj (hadjusted.symm.trans hentry)]
  exact hcorrected.adjusted hnonneg

theorem Corrects.flag_iff (h : Corrects alpha pValues result) (hp : pValues[i]? = some p)
    (hflag : result.significant[i]? = some flag) : flag = true ↔ Rejects alpha pValues p := by
  obtain ⟨_, _, -, hentry, hcorrected⟩ := h.entry i p hp
  rw [Option.some.inj (hflag.symm.trans hentry)]
  exact hcorrected.flag

theorem Corrects.beyond (h : Corrects alpha pValues result) (hi : pValues[i]? = none) :
    result.adjustedPValues[i]? = none ∧ result.significant[i]? = none := by
  rw [List.getElem?_eq_none_iff] at hi
  exact ⟨List.getElem?_eq_none_iff.mpr (h.lengthAdjusted ▸ hi),
    List.getElem?_eq_none_iff.mpr (h.lengthSignificant ▸ hi)⟩

/-- What is found for a p-value depends on the family alone, and not on its order. -/
theorem Corrects.perm (h : Corrects alpha pValues result) (h' : Corrects alpha others result')
    (hnonneg : ∀ q ∈ pValues, 0 ≤ q) (hperm : others.Perm pValues)
    (hij : others[i]? = pValues[j]?) :
    result'.adjustedPValues[i]? = result.adjustedPValues[j]? ∧
      result'.significant[i]? = result.significant[j]? := by
  cases hp : others[i]? with
  | none =>
      obtain ⟨hadjusted, hsignificant⟩ := h.beyond (hij ▸ hp)
      obtain ⟨hadjusted', hsignificant'⟩ := h'.beyond hp
      exact ⟨hadjusted'.trans hadjusted.symm, hsignificant'.trans hsignificant.symm⟩
  | some p =>
      obtain ⟨_, flag', hadjusted', hflag', hcorrected'⟩ := h'.entry i p hp
      obtain ⟨_, flag, hadjusted, hflag, hcorrected⟩ := h.entry j p (hij ▸ hp)
      have hsame : flag' = flag := Bool.eq_iff_iff.mpr
        (hcorrected'.flag.trans ((rejects_perm hperm).trans hcorrected.flag.symm))
      rw [hadjusted', hadjusted, hflag', hflag, hsame, hcorrected.adjusted hnonneg,
        hcorrected'.adjusted fun q hq => hnonneg q (hperm.mem_iff.mp hq), adjusted_perm hperm]
      exact ⟨rfl, rfl⟩

/-- Where something is inserted into a list, the rest moves on. -/
theorem getElem?_insert {before after : List ℚ} {x : ℚ} (hp : (before ++ after)[i]? = some p) :
    (before ++ x :: after)[if i < before.length then i else i + 1]? = some p := by
  by_cases hbefore : i < before.length
  · rw [if_pos hbefore, List.getElem?_append_left hbefore]
    rwa [List.getElem?_append_left hbefore] at hp
  · rw [if_neg hbefore, List.getElem?_append_right (by omega)]
    rw [List.getElem?_append_right (by omega)] at hp
    rw [show i + 1 - before.length = (i - before.length) + 1 by omega]
    exact hp

theorem Corrects.insert {before after : List ℚ} {x : ℚ} (hpos : 0 < alpha)
    (h : Corrects alpha (before ++ after) result)
    (h' : Corrects alpha (before ++ x :: after) result') (hi : i < (before ++ after).length)
    (hsignificant : result'.significant[if i < before.length then i else i + 1]? = some true) :
    result.significant[i]? = some true := by
  obtain ⟨p, hp⟩ : ∃ p, (before ++ after)[i]? = some p := ⟨_, List.getElem?_eq_getElem hi⟩
  have hrejects : Rejects alpha (before ++ after) p := Rejects.of_cons hpos
    ((rejects_perm List.perm_middle).mp ((h'.flag_iff (getElem?_insert hp) hsignificant).mp rfl))
  obtain ⟨_, flag, -, hflag, hcorrected⟩ := h.entry i p hp
  rw [hflag, hcorrected.flag.mpr hrejects]

end Laws

/-- For every list of p-values the correction is Holm's: what it adjusts and flags keeps to
the laws of the method, whatever the order of the list. -/
theorem applyHolmCorrection_laws (hpos : 0 < alpha) (hlt : alpha < 1)
    (hunit : ∀ p ∈ pValues, 0 ≤ p ∧ p ≤ 1) :
    ∃ result, applyHolmCorrection pValues alpha = .ok result ∧ HolmLaws alpha pValues result := by
  obtain ⟨result, happly, h⟩ := applyHolmCorrection_corrects hpos hlt pValues
  have hnonneg : ∀ p ∈ pValues, 0 ≤ p := fun p hp => (hunit p hp).1
  refine ⟨result, happly, ⟨h.lengthAdjusted, h.lengthSignificant⟩, ?_, ?_, ?_, ?_, ?_, ?_⟩
  · intro i adjustedP flag hadjusted hflag
    obtain ⟨p, hp⟩ := h.exists_pValue hadjusted
    rw [h.flag_iff hp hflag, h.adjusted_eq hnonneg hp hadjusted, rejects_iff_adjusted_lt hpos hlt]
  · intro i p adjustedP hp hadjusted
    have hmem := List.mem_of_getElem? hp
    rw [h.adjusted_eq hnonneg hp hadjusted]
    exact ⟨le_adjusted hmem (hunit p hmem).1 (hunit p hmem).2, adjusted_le_one⟩
  · intro i j p q adjustedP adjustedQ hp hq hadjustedP hadjustedQ hle
    rw [h.adjusted_eq hnonneg hp hadjustedP, h.adjusted_eq hnonneg hq hadjustedQ]
    exact adjusted_mono hle
  · exact fun i j hij => (h.perm h hnonneg (.refl _) hij).2
  · intro others hperm
    obtain ⟨result', happly', h'⟩ := applyHolmCorrection_corrects hpos hlt others
    exact ⟨result', happly', fun i j hij => h.perm h' hnonneg hperm hij⟩
  · rintro before x after rfl
    obtain ⟨result', happly', h'⟩ :=
      applyHolmCorrection_corrects hpos hlt (before ++ x :: after)
    exact ⟨result', happly', fun i hi => h.insert hpos h' hi⟩

/-- Three p-values at the level 0.05, two of them equal. -/
theorem applyHolmCorrection_laws_sample :
    ∃ result, applyHolmCorrection [1 / 50, 1 / 100, 1 / 50] (1 / 20) = .ok result ∧
      HolmLaws (1 / 20) [1 / 50, 1 / 100, 1 / 50] result :=
  applyHolmCorrection_laws (by norm_num) (by norm_num) (by
    simp only [List.mem_cons, List.not_mem_nil, or_false]
    rintro p (rfl | rfl | rfl)
    all_goals norm_num)

end ListmonkOps.Experiment.Exact
