/-
The comparison of variants in exact arithmetic.

Of three variants the best has to survive two comparisons: against the control
in the Holm correction of the treatments, and against the runner-up, in a larger
family when both are treatments. A p-value is whatever a function of the two
results gives; only whether two samples can be compared at all is computed here,
by the sign of the pooled variance under the square root.
-/

import ListmonkOps.Experiment.Holm
import ListmonkOps.Experiment.Hypothesis
import ListmonkOps.Experiment.Types

namespace ListmonkOps.Experiment.Exact

open ListmonkOps.Math ListmonkOps.Math.StepDown ListmonkOps.Runtime Hypothesis

/-! ## The metric -/

/-- The figures of one variant. -/
structure VariantFigures where
  variantId : Text
  sampleSize : ℕ
  clicks : ℕ
  conversions : ℕ
  clickRate : ℚ
  conversionRate : ℚ
  revenue : Option ℚ := none
  deriving DecidableEq

/-- The metric that variants are compared by. -/
structure MetricRate where
  rate : VariantFigures → ℚ
  type : MetricType
  direction : MetricDirection

/-- The pre-registered metric, or what was measured. -/
def pickMetricRate (results : List VariantFigures) : Option PrimaryMetric → MetricRate
  | some ⟨.conversionRate, direction⟩ => ⟨(·.conversionRate), .conversionRate, direction⟩
  | some ⟨.revenuePerRecipient, direction⟩ =>
      ⟨fun r => match r.revenue with
        | some revenue => if 0 < r.sampleSize then revenue / r.sampleSize else 0
        | none => 0, .revenuePerRecipient, direction⟩
  | some ⟨.clickRate, direction⟩ => ⟨(·.clickRate), .clickRate, direction⟩
  | none =>
      if results.any (0 < ·.conversions) then ⟨(·.conversionRate), .conversionRate, .maximize⟩
      else ⟨(·.clickRate), .clickRate, .maximize⟩

namespace MetricRate

def isBetter (metric : MetricRate) (a b : ℚ) : Bool :=
  match metric.direction with
  | .minimize => a < b
  | .maximize => b < a

/-- The best of the results, the earlier one where two are equally good. -/
def best (metric : MetricRate) (first : VariantFigures) (others : List VariantFigures) :
    VariantFigures :=
  others.foldl (fun best current =>
    if metric.isBetter (metric.rate current) (metric.rate best) then current else best) first

/-- The results from the best on, in their order where two are equally good. -/
def sorted (metric : MetricRate) (results : List VariantFigures) : List VariantFigures :=
  results.insertionSort fun a b => !metric.isBetter (metric.rate b) (metric.rate a)

/-- The successes that the metric counts. -/
def count (metric : MetricRate) (r : VariantFigures) : ℚ :=
  if metric.type = .conversionRate then r.conversions else r.clicks

/-- The square of the standard error; a root of it exists and can be divided by where it
is positive. -/
def variance (metric : MetricRate) (a b : VariantFigures) : ℚ :=
  let pooled := (metric.count a + metric.count b) / (a.sampleSize + b.sampleSize)
  pooled * (1 - pooled) * (1 / a.sampleSize + 1 / b.sampleSize)

end MetricRate

/-! ## Significance -/

structure StatisticalAnalysis where
  pValue : ℚ
  correctedPValue : Option ℚ := none
  isSignificant : Bool
  confidenceLevel : ℚ
  sampleSize : ℚ

/-- The comparison that cannot be made. -/
def incomparable (confidenceThreshold sampleSize : ℚ) : StatisticalAnalysis where
  pValue := 1
  isSignificant := false
  confidenceLevel := confidenceThreshold
  sampleSize

section Significance

variable (pValue : VariantFigures → VariantFigures → ℚ)

/-- The p-value of one variant against the control. -/
def pairwisePValue (metric : MetricRate) (control variant : VariantFigures) : ℚ :=
  if variant.sampleSize = 0 ∨ control.sampleSize = 0 then 1
  else if metric.variance control variant ≤ 0 then 1
  else pValue control variant

/-- Whether the two best results, the control among them, are apart. -/
def isTopTwoSeparated (metric : MetricRate) (control : VariantFigures)
    (results nonControl : List VariantFigures) (pairwise : List ℚ) (holm : HolmCorrectionResult)
    (alpha : ℚ) : Except JsValue Bool :=
  match metric.sorted results with
  | best :: second :: _ =>
      if 0 < best.sampleSize ∧ 0 < second.sampleSize then
        if 0 < metric.variance best second then
          if best.variantId = control.variantId ∨ second.variantId = control.variantId then
            let other := if best.variantId = control.variantId then second else best
            .ok ((holm.significant[nonControl.findIdx (·.variantId = other.variantId)]?).getD false)
          else do
            let all ← applyHolmCorrection (pairwise ++ [pValue best second]) alpha
            pure (all.significant[pairwise.length]?.getD false)
        else .ok (metric.rate best / 100 ≠ metric.rate second / 100)
      else .ok true
  | _ => .ok true

/-- The best variant against the control, which is the first of the results. -/
def analyzeStatisticalSignificance (results : List VariantFigures) (confidenceThreshold : ℚ)
    (hypothesis : Option PrimaryMetric) : Except JsValue StatisticalAnalysis :=
  match results with
  | [] | [_] => .error (.ofMessage "At least 2 variants required for statistical analysis")
  | control :: others => do
      if 3 < results.length then
        throw (.ofMessage "Maximum 3 variants supported for analysis")
      else if confidenceThreshold ≤ 0 ∨ 1 ≤ confidenceThreshold then
        throw (.ofMessage "confidenceThreshold must be a finite number in (0, 1)")
      else
        let alpha := 1 - confidenceThreshold
        let metric := pickMetricRate results hypothesis
        if metric.type = .revenuePerRecipient then
          throw (.ofMessage (("revenue_per_recipient metric is not yet supported by the " : Text) ++
            ("significance test; use click_rate or conversion_rate" : Text)))
        else
          let best := metric.best control others
          let nonControl := results.filter (·.variantId ≠ control.variantId)
          match if best.variantId = control.variantId then nonControl else [best] with
          | [] =>
              throw (.ofMessage
                "Invalid test results data: no non-control variant found for comparison")
          | first :: rest =>
              let testGroup := metric.best first rest
              let n₁ := control.sampleSize
              let n₂ := testGroup.sampleSize
              if n₁ = 0 ∨ n₂ = 0 then pure (incomparable confidenceThreshold (n₁ + n₂))
              else if metric.variance control testGroup ≤ 0 then
                pure (incomparable confidenceThreshold (n₁ + n₂))
              else if results.length ≤ 2 then
                pure { pValue := pValue control testGroup
                       isSignificant := pValue control testGroup < alpha
                       confidenceLevel := confidenceThreshold, sampleSize := n₁ + n₂ }
              else
                let pairwise := nonControl.map (pairwisePValue pValue metric control)
                let holm ← applyHolmCorrection pairwise alpha
                let bestIdx := nonControl.findIdx (·.variantId = testGroup.variantId)
                let separated ←
                  isTopTwoSeparated pValue metric control results nonControl pairwise holm alpha
                pure { pValue := pValue control testGroup
                       correctedPValue := some (holm.adjustedPValues[bestIdx]?.getD 1)
                       isSignificant := holm.significant[bestIdx]?.getD false && separated
                       confidenceLevel := confidenceThreshold, sampleSize := n₁ + n₂ }

end Significance

/-- `Math.min` or `Math.max` of the rates, of which there are some. -/
def bestRate (metric : MetricRate) (rates : List ℚ) : ℚ :=
  match rates with
  | [] => 0
  | rate :: rates => rates.foldl (fun best rate =>
      if metric.isBetter rate best then rate else best) rate

/-- The winner an analysis names, where the gates of the test have passed. -/
def selectWinner (variants : List Variant) (results : List VariantFigures)
    (hypothesis : Option PrimaryMetric) (isSignificant gatesPassed : Bool) : Option Variant :=
  let metric := pickMetricRate results hypothesis
  let best := bestRate metric (results.map metric.rate)
  if isSignificant && gatesPassed then
    variants.find? fun variant =>
      results.any fun r => r.variantId = variant.id && metric.rate r = best
  else none

/-! ## The ranking of three -/

namespace MetricRate

def key (metric : MetricRate) (r : VariantFigures) : ℚ :=
  match metric.direction with
  | .minimize => -metric.rate r
  | .maximize => metric.rate r

variable {metric : MetricRate} {a b c : VariantFigures}

theorem isBetter_eq : metric.isBetter (metric.rate a) (metric.rate b) =
    decide (metric.key b < metric.key a) := by
  unfold isBetter key
  cases metric.direction <;> simp

theorem key_eq_iff : metric.key a = metric.key b ↔ metric.rate a = metric.rate b := by
  unfold key
  cases metric.direction <;> simp

def runnerUp (metric : MetricRate) (results : List VariantFigures) (best : VariantFigures) :
    VariantFigures :=
  match results.filter (·.variantId ≠ best.variantId) with
  | [] => best
  | first :: rest => metric.best first rest

/-- Three results in their ranking, as the analysis sorts them and as it picks the best and the
runner-up. -/
structure Ranked (metric : MetricRate) (a b c best second third : VariantFigures) : Prop where
  sorted_eq : metric.sorted [a, b, c] = [best, second, third]
  best_eq : metric.best a [b, c] = best
  runnerUp_eq : metric.runnerUp [a, b, c] best = second
  perm : [best, second, third].Perm [a, b, c]
  first_le : metric.key second ≤ metric.key best
  second_le : metric.key third ≤ metric.key second

theorem exists_ranked (metric : MetricRate) (hab : a.variantId ≠ b.variantId)
    (hac : a.variantId ≠ c.variantId)
    (hbc : b.variantId ≠ c.variantId) :
    ∃ best second third, Ranked metric a b c best second third := by
  have hsorted : metric.sorted [a, b, c] =
      List.orderedInsert (fun x y => !metric.isBetter (metric.rate y) (metric.rate x)) a
        (if metric.key c ≤ metric.key b then [b, c] else [c, b]) := by
    simp [MetricRate.sorted, isBetter_eq, List.orderedInsert]
  rcases lt_or_ge (metric.key a) (metric.key b) with h₁ | h₁ <;>
    rcases lt_or_ge (metric.key b) (metric.key c) with h₂ | h₂ <;>
    rcases lt_or_ge (metric.key a) (metric.key c) with h₃ | h₃
  · refine ⟨c, b, a, ?_, ?_, ?_, (List.reverse_perm [a, b, c]), h₂.le, h₁.le⟩
    · simp [hsorted, isBetter_eq, h₁.not_ge, h₂.not_ge, h₃.not_ge]
    · simp [MetricRate.best, isBetter_eq, h₁, h₂]
    · simp [MetricRate.runnerUp, MetricRate.best, isBetter_eq, hac, hbc, h₁]
  · exact absurd (h₁.trans h₂) h₃.not_gt
  · refine ⟨b, c, a, ?_, ?_, ?_, ?_, h₂, h₃.le⟩
    · simp [hsorted, isBetter_eq, h₁.not_ge, h₂, h₃.not_ge]
    · simp [MetricRate.best, isBetter_eq, h₁, h₂.not_gt]
    · simp [MetricRate.runnerUp, MetricRate.best, isBetter_eq, hab, hbc.symm, h₃]
    · exact @List.perm_append_comm _ [b, c] [a]
  · refine ⟨b, a, c, ?_, ?_, ?_, List.Perm.swap _ _ _, h₁.le, h₃⟩
    · simp [hsorted, isBetter_eq, h₁.not_ge, h₂, h₃]
    · simp [MetricRate.best, isBetter_eq, h₁, h₂.not_gt]
    · simp [MetricRate.runnerUp, MetricRate.best, isBetter_eq, hab, hbc.symm, h₃.not_gt]
  · refine ⟨c, a, b, ?_, ?_, ?_, ?_, h₃.le, h₁⟩
    · simp [hsorted, isBetter_eq, h₁, h₂.not_ge, h₃.not_ge]
    · simp [MetricRate.best, isBetter_eq, h₁.not_gt, h₃]
    · simp [MetricRate.runnerUp, MetricRate.best, isBetter_eq, hac, hbc, h₁.not_gt]
    · exact @List.perm_append_comm _ [c] [a, b]
  · refine ⟨a, c, b, ?_, ?_, ?_, (List.Perm.swap _ _ _).cons a, h₃, h₂.le⟩
    · simp [hsorted, isBetter_eq, h₂.not_ge, h₃]
    · simp [MetricRate.best, isBetter_eq, h₁.not_gt, h₃.not_gt]
    · simp [MetricRate.runnerUp, MetricRate.best, isBetter_eq, hab.symm, hac.symm, h₂]
  · exact absurd (h₂.trans h₁) h₃.not_ge
  · refine ⟨a, b, c, ?_, ?_, ?_, List.Perm.refl _, h₁, h₂⟩
    · simp [hsorted, isBetter_eq, h₁, h₂]
    · simp [MetricRate.best, isBetter_eq, h₁.not_gt, h₃.not_gt]
    · simp [MetricRate.runnerUp, MetricRate.best, isBetter_eq, hab.symm, hac.symm, h₂.not_gt]

end MetricRate

/-! ## What backs a winner -/

section Backing

variable (pValue : VariantFigures → VariantFigures → ℚ)

/-- The comparisons that decide about a winner: every treatment with the control, and the
two best where both are treatments. -/
def comparisonFamily (metric : MetricRate) (control : VariantFigures)
    (treatments : List VariantFigures) (best second : VariantFigures) : List ℚ :=
  treatments.map (pairwisePValue pValue metric control) ++
    if best.variantId = control.variantId ∨ second.variantId = control.variantId then []
    else [pairwisePValue pValue metric best second]

/-- A variant is the only best, and apart from the control and from the runner-up in the
whole family of comparisons; where the analysis names a winner, it names that variant. -/
structure Backed (alpha : ℚ) (hypothesis : Option PrimaryMetric) (control : VariantFigures)
    (treatments : List VariantFigures) (metric : MetricRate) (best second : VariantFigures) :
    Prop where
  member : best ∈ control :: treatments
  unique : ∀ other ∈ control :: treatments, other.variantId ≠ best.variantId →
    metric.isBetter (metric.rate best) (metric.rate other)
  versusControl : Rejects alpha (comparisonFamily pValue metric control treatments best second)
    (pairwisePValue pValue metric best
      (if best.variantId = control.variantId then second else control))
  versusRunnerUp : Rejects alpha (comparisonFamily pValue metric control treatments best second)
    (pairwisePValue pValue metric best second)
  named : ∀ variants gatesPassed, ∀ winner ∈
    selectWinner variants (control :: treatments) hypothesis true gatesPassed,
      winner.id = best.variantId
  names : ∀ variants : List Variant, (∃ variant ∈ variants, variant.id = best.variantId) →
    (selectWinner variants (control :: treatments) hypothesis true true).isSome

/-- The two are not compared, and yet taken to be apart. -/
def Uncompared (metric : MetricRate) (best second : VariantFigures) : Prop :=
  second.sampleSize = 0 ∨ metric.variance best second ≤ 0 ∧ metric.rate best ≠ metric.rate second

/-- The best treatment is apart from the control, and the runner-up, a treatment as well,
was not compared with it. -/
structure Unseparated (alpha : ℚ) (control : VariantFigures) (treatments : List VariantFigures)
    (metric : MetricRate) (best second : VariantFigures) : Prop where
  tested : metric.type ≠ .revenuePerRecipient
  treatment : best.variantId ≠ control.variantId
  treatment' : second.variantId ≠ control.variantId
  uncompared : Uncompared metric best second
  samples : control.sampleSize ≠ 0 ∧ best.sampleSize ≠ 0
  variance : 0 < metric.variance control best
  significant : Rejects alpha (treatments.map (pairwisePValue pValue metric control))
    (pairwisePValue pValue metric control best)

variable {pValue} {metric : MetricRate} {alpha : ℚ} {a b c : VariantFigures}

theorem MetricRate.variance_comm : metric.variance a b = metric.variance b a := by
  simp only [MetricRate.variance, add_comm (metric.count a), add_comm (a.sampleSize : ℚ),
    add_comm (1 / (a.sampleSize : ℚ))]

theorem pairwisePValue_comm (hsymm : ∀ a b, pValue a b = pValue b a) :
    pairwisePValue pValue metric a b = pairwisePValue pValue metric b a := by
  simp only [pairwisePValue, or_comm (a := b.sampleSize = 0),
    metric.variance_comm (a := a), hsymm a b]

theorem pairwisePValue_of_variance (ha : a.sampleSize ≠ 0) (hb : b.sampleSize ≠ 0)
    (hvariance : 0 < metric.variance a b) : pairwisePValue pValue metric a b = pValue a b := by
  rw [pairwisePValue, if_neg (by simp [ha, hb]), if_neg hvariance.not_ge]

theorem rate_ne_of_rejects (hpos : 0 < alpha) (hlt : alpha < 1)
    (hequal : metric.rate a = metric.rate b → alpha ≤ pValue a b) {family : List ℚ}
    (hmem : pairwisePValue pValue metric a b ∈ family)
    (h : Rejects alpha family (pairwisePValue pValue metric a b)) :
    metric.rate a ≠ metric.rate b := by
  intro hrate
  have hbelow := h.lt hpos hmem
  unfold pairwisePValue at hbelow
  split_ifs at hbelow
  · exact absurd hbelow hlt.not_gt
  · exact absurd hbelow hlt.not_gt
  · exact absurd hbelow (hequal hrate).not_gt

theorem not_rejects_of_uncompared (hpos : 0 < alpha) (hlt : alpha < 1)
    (h : Uncompared metric a b) {family : List ℚ}
    (hmem : pairwisePValue pValue metric a b ∈ family) :
    ¬ Rejects alpha family (pairwisePValue pValue metric a b) := by
  intro hrejects
  have hone : pairwisePValue pValue metric a b = 1 := by
    rcases h with hnone | ⟨hvariance, -⟩
    · rw [pairwisePValue, if_pos (.inl hnone)]
    · rw [pairwisePValue, if_pos hvariance, ite_self]
  exact absurd (hrejects.lt hpos hmem) (by rw [hone]; exact hlt.not_gt)

theorem significant_iff (hpos : 0 < alpha) (hlt : alpha < 1) (family : List ℚ) :
    ∃ holm, applyHolmCorrection family alpha = .ok holm ∧
      ∀ (i : ℕ) p, family[i]? = some p →
        (holm.significant[i]?.getD false = true ↔ Rejects alpha family p) := by
  obtain ⟨holm, happly, hcorrects⟩ := applyHolmCorrection_corrects hpos hlt family
  refine ⟨holm, happly, fun i p hp => ?_⟩
  obtain ⟨_, flag, -, hflag, h⟩ := hcorrects.entry i p hp
  rw [hflag, Option.getD_some]
  exact h.flag

theorem bestRate_eq (others : List VariantFigures) :
    bestRate metric ((a :: others).map metric.rate) = metric.rate (metric.best a others) := by
  rw [List.map_cons, bestRate, MetricRate.best, List.foldl_map]
  refine List.foldl_hom metric.rate fun best current => ?_
  split <;> rfl

/-! ### Three results -/

variable {control best second third : VariantFigures} {confidenceThreshold : ℚ}
variable {hypothesis : Option PrimaryMetric}

/-- What the analysis of three results asks of the two best, beside the comparison with
the control. -/
def Separated (pValue : VariantFigures → VariantFigures → ℚ) (alpha : ℚ)
    (control : VariantFigures) (treatments : List VariantFigures) (metric : MetricRate)
    (best second : VariantFigures) : Prop :=
  ¬ Uncompared metric best second → 0 < metric.variance best second ∧
    Rejects alpha (comparisonFamily pValue metric control treatments best second)
      (pairwisePValue pValue metric best second)

theorem getElem?_findIdx (hbc : b.variantId ≠ c.variantId) {x : VariantFigures} (hx : x ∈ [b, c])
    (f : VariantFigures → ℚ) :
    ([b, c].map f)[[b, c].findIdx (·.variantId = x.variantId)]? = some (f x) := by
  rcases List.mem_pair.mp hx with rfl | rfl
  · simp [List.findIdx_cons]
  · simp [List.findIdx_cons, hbc]

theorem mem_treatments {x : VariantFigures} (hmem : x ∈ [control, b, c])
    (hid : x.variantId ≠ control.variantId) : x ∈ [b, c] := by
  rcases List.mem_cons.mp hmem with rfl | hmem
  · exact absurd rfl hid
  · exact hmem

theorem eq_control (hcb : control.variantId ≠ b.variantId) (hcc : control.variantId ≠ c.variantId)
    {x : VariantFigures} (hmem : x ∈ [control, b, c]) (hid : x.variantId = control.variantId) :
    x = control := by
  simp only [List.mem_cons, List.not_mem_nil, or_false] at hmem
  rcases hmem with rfl | rfl | rfl
  · rfl
  · exact absurd hid.symm hcb
  · exact absurd hid.symm hcc

theorem variantId_ne (hcb : control.variantId ≠ b.variantId)
    (hcc : control.variantId ≠ c.variantId) (hbc : b.variantId ≠ c.variantId)
    (hranked : metric.Ranked control b c best second third) :
    best.variantId ≠ second.variantId := by
  have hdistinct := (hranked.perm.map (·.variantId)).nodup_iff.mpr (by simp [hcb, hcc, hbc])
  simp only [List.map_cons, List.nodup_cons, List.mem_cons, not_or] at hdistinct
  exact hdistinct.1.1

/-- The two best are separated by the comparison that the correction makes of them. -/
theorem isTopTwoSeparated_ok (hsymm : ∀ a b, pValue a b = pValue b a)
    (hpos : 0 < alpha) (hlt : alpha < 1)
    (hcb : control.variantId ≠ b.variantId) (hcc : control.variantId ≠ c.variantId)
    (hbc : b.variantId ≠ c.variantId) (hranked : metric.Ranked control b c best second third)
    (hbest : best.sampleSize ≠ 0) {holm : HolmCorrectionResult}
    (hholm : ∀ (i : ℕ) p, ([b, c].map (pairwisePValue pValue metric control))[i]? = some p →
      (holm.significant[i]?.getD false = true ↔
        Rejects alpha ([b, c].map (pairwisePValue pValue metric control)) p)) :
    ∃ separated, isTopTwoSeparated pValue metric control [control, b, c] [b, c]
        ([b, c].map (pairwisePValue pValue metric control)) holm alpha = .ok separated ∧
      (separated = true ↔ Separated pValue alpha control [b, c] metric best second) := by
  have hmemBest : best ∈ [control, b, c] := hranked.perm.mem_iff.mp (by simp)
  have hmemSecond : second ∈ [control, b, c] := hranked.perm.mem_iff.mp (by simp)
  rw [isTopTwoSeparated, hranked.sorted_eq]
  simp only [Separated, Uncompared]
  by_cases hsecond : second.sampleSize = 0
  · exact ⟨true, if_neg (by simp [hsecond]), by simp [hsecond]⟩
  rw [if_pos ⟨Nat.pos_of_ne_zero hbest, Nat.pos_of_ne_zero hsecond⟩]
  by_cases hvariance : 0 < metric.variance best second
  swap
  · refine ⟨_, if_neg hvariance, ?_⟩
    have hrates : metric.rate best / 100 = metric.rate second / 100 ↔
        metric.rate best = metric.rate second := div_left_inj' (by norm_num)
    simp [hsecond, hvariance, not_lt.mp hvariance, hrates]
  rw [if_pos hvariance]
  have hcompared : pairwisePValue pValue metric best second = pValue best second :=
    pairwisePValue_of_variance hbest hsecond hvariance
  simp only [hsecond, hvariance.not_ge, false_and, or_false, not_false_eq_true, true_implies,
    hvariance, true_and]
  by_cases hinvolves : best.variantId = control.variantId ∨ second.variantId = control.variantId
  · rw [if_pos hinvolves]
    refine ⟨_, rfl, ?_⟩
    rw [comparisonFamily, if_pos hinvolves, List.append_nil]
    by_cases hcontrol : best.variantId = control.variantId
    · obtain rfl := eq_control hcb hcc hmemBest hcontrol
      rw [if_pos rfl]
      exact hholm _ _ (getElem?_findIdx hbc
        (mem_treatments hmemSecond (variantId_ne hcb hcc hbc hranked).symm) _)
    · obtain rfl := eq_control hcb hcc hmemSecond (hinvolves.resolve_left hcontrol)
      rw [if_neg hcontrol, pairwisePValue_comm hsymm]
      exact hholm _ _ (getElem?_findIdx hbc (mem_treatments hmemBest hcontrol) _)
  · rw [if_neg hinvolves, comparisonFamily, if_neg hinvolves, hcompared]
    obtain ⟨all, hall, hflags⟩ := significant_iff hpos hlt
      ([b, c].map (pairwisePValue pValue metric control) ++ [pValue best second])
    rw [hall]
    exact ⟨_, rfl, hflags _ _ (by simp)⟩

/-- The analysis declares significance where the best, or the runner-up of a best control,
is apart from the control, and the two best are not found together. -/
theorem isSignificant_three (pValue : VariantFigures → VariantFigures → ℚ)
    (hsymm : ∀ a b, pValue a b = pValue b a)
    (hmetric : pickMetricRate [control, b, c] hypothesis = metric)
    (htype : metric.type ≠ .revenuePerRecipient)
    (hpos : 0 < confidenceThreshold) (hlt : confidenceThreshold < 1)
    (hcb : control.variantId ≠ b.variantId) (hcc : control.variantId ≠ c.variantId)
    (hbc : b.variantId ≠ c.variantId)
    (hranked : metric.Ranked control b c best second third) :
    ∃ analysis, analyzeStatisticalSignificance pValue [control, b, c] confidenceThreshold
        hypothesis = .ok analysis ∧
      (analysis.isSignificant = true ↔
        let testGroup := if best.variantId = control.variantId then second else best
        control.sampleSize ≠ 0 ∧ testGroup.sampleSize ≠ 0 ∧
          0 < metric.variance control testGroup ∧
          Rejects (1 - confidenceThreshold) ([b, c].map (pairwisePValue pValue metric control))
            (pairwisePValue pValue metric control testGroup) ∧
          Separated pValue (1 - confidenceThreshold) control [b, c] metric best second) := by
  have hmemBest : best ∈ [control, b, c] := hranked.perm.mem_iff.mp (by simp)
  have hmemSecond : second ∈ [control, b, c] := hranked.perm.mem_iff.mp (by simp)
  have htreatments : [control, b, c].filter (·.variantId ≠ control.variantId) = [b, c] := by
    simp [hcb.symm, hcc.symm]
  have hgroup : ∃ first rest, (if best.variantId = control.variantId then [b, c] else [best]) =
      first :: rest ∧ metric.best first rest =
        (if best.variantId = control.variantId then second else best) := by
    by_cases hcontrol : best.variantId = control.variantId
    · obtain rfl := eq_control hcb hcc hmemBest hcontrol
      refine ⟨b, [c], if_pos rfl, ?_⟩
      rw [if_pos rfl, ← hranked.runnerUp_eq, MetricRate.runnerUp, htreatments]
    · exact ⟨best, [], if_neg hcontrol, by rw [if_neg hcontrol]; rfl⟩
  obtain ⟨first, rest, hgroup, htest⟩ := hgroup
  have hmemTest : (if best.variantId = control.variantId then second else best) ∈ [b, c] := by
    by_cases hcontrol : best.variantId = control.variantId
    · rw [if_pos hcontrol]
      refine mem_treatments hmemSecond ?_
      rw [← hcontrol]
      exact (variantId_ne hcb hcc hbc hranked).symm
    · rw [if_neg hcontrol]
      exact mem_treatments hmemBest hcontrol
  have hbestSample : control.sampleSize ≠ 0 →
      (if best.variantId = control.variantId then second else best).sampleSize ≠ 0 →
        best.sampleSize ≠ 0 := by
    intro hsample hsample'
    by_cases hcontrol : best.variantId = control.variantId
    · rwa [eq_control hcb hcc hmemBest hcontrol]
    · rwa [if_neg hcontrol] at hsample'
  simp only [analyzeStatisticalSignificance, List.length_cons, List.length_nil, hmetric,
    hranked.best_eq, htreatments, hgroup, htest]
  rw [if_neg (by norm_num), if_neg (by simp [hpos, hlt]), if_neg htype]
  generalize (if best.variantId = control.variantId then second else best) = testGroup at *
  by_cases hsamples : control.sampleSize = 0 ∨ testGroup.sampleSize = 0
  · rw [if_pos hsamples]
    refine ⟨_, rfl, iff_of_false (by simp [incomparable]) ?_⟩
    rintro ⟨hcontrol, htestGroup, -⟩
    exact hsamples.elim hcontrol htestGroup
  rw [if_neg hsamples]
  rw [not_or] at hsamples
  by_cases hvariance : metric.variance control testGroup ≤ 0
  · rw [if_pos hvariance]
    refine ⟨_, rfl, iff_of_false (by simp [incomparable]) ?_⟩
    rintro ⟨-, -, hpositive, -⟩
    exact absurd hpositive hvariance.not_gt
  rw [if_neg hvariance, if_neg (by norm_num)]
  have halpha : 0 < 1 - confidenceThreshold := by linarith
  have halpha' : 1 - confidenceThreshold < 1 := by linarith
  obtain ⟨holm, hholm, hflags⟩ := significant_iff halpha halpha'
    ([b, c].map (pairwisePValue pValue metric control))
  obtain ⟨separated, hseparated, hiff⟩ := isTopTwoSeparated_ok hsymm halpha halpha' hcb hcc hbc
    hranked (hbestSample hsamples.1 hsamples.2) hflags
  rw [hholm, except_ok_bind, hseparated, except_ok_bind]
  refine ⟨_, rfl, ?_⟩
  rw [Bool.and_eq_true, hiff, hflags _ _ (getElem?_findIdx hbc hmemTest _)]
  simp [hsamples, not_le.mp hvariance]

/-- The variant that a significant analysis names is the only best. -/
theorem selectWinner_of_unique {others : List VariantFigures}
    (hbest : metric.best control others = best) (hmem : best ∈ control :: others)
    (hunique : ∀ other ∈ control :: others, other.variantId ≠ best.variantId →
      metric.isBetter (metric.rate best) (metric.rate other)) (variant : Variant) :
    ((control :: others).any fun r => r.variantId = variant.id &&
        metric.rate r = bestRate metric ((control :: others).map metric.rate)) = true ↔
      variant.id = best.variantId := by
  rw [bestRate_eq, hbest, List.any_eq_true]
  constructor
  · rintro ⟨r, hr, hsame⟩
    simp only [Bool.and_eq_true, decide_eq_true_eq] at hsame
    by_contra hother
    have hbetter := hunique r hr (by rw [hsame.1]; exact hother)
    rw [MetricRate.isBetter_eq, decide_eq_true_eq] at hbetter
    exact absurd (MetricRate.key_eq_iff.mpr hsame.2) hbetter.ne
  · intro hid
    exact ⟨best, hmem, by simp [hid]⟩

/-- A best that differs from the runner-up is better than every other result. -/
theorem unique_of_rate_ne (hranked : metric.Ranked control b c best second third)
    (hne : metric.rate best ≠ metric.rate second) :
    ∀ other ∈ [control, b, c], other.variantId ≠ best.variantId →
      metric.isBetter (metric.rate best) (metric.rate other) = true := by
  have hlt : metric.key second < metric.key best := by
    refine lt_of_le_of_ne hranked.first_le fun heq => hne ?_
    exact (MetricRate.key_eq_iff.mp heq).symm
  intro other hother hid
  rw [MetricRate.isBetter_eq, decide_eq_true_eq]
  have hmem := hranked.perm.mem_iff.mpr hother
  simp only [List.mem_cons, List.not_mem_nil, or_false] at hmem
  rcases hmem with rfl | rfl | rfl
  · exact absurd rfl hid
  · exact hlt
  · exact hranked.second_le.trans_lt hlt

/-- Where a significant best was compared, it is apart from the control and from the
runner-up in the whole family. -/
theorem versus_of_significant (hsymm : ∀ a b, pValue a b = pValue b a)
    (hequal : ∀ a b, metric.rate a = metric.rate b → alpha ≤ pValue a b)
    (hpos : 0 < alpha) (hlt : alpha < 1)
    (hcb : control.variantId ≠ b.variantId) (hcc : control.variantId ≠ c.variantId)
    (hbc : b.variantId ≠ c.variantId) (hranked : metric.Ranked control b c best second third)
    (hseparated : ¬ Unseparated pValue alpha control [b, c] metric best second)
    (htype : metric.type ≠ .revenuePerRecipient)
    (hsample : control.sampleSize ≠ 0)
    (hsample' : (if best.variantId = control.variantId then second else best).sampleSize ≠ 0)
    (hvariance : 0 < metric.variance control
      (if best.variantId = control.variantId then second else best))
    (hrejects : Rejects alpha ([b, c].map (pairwisePValue pValue metric control))
      (pairwisePValue pValue metric control
        (if best.variantId = control.variantId then second else best)))
    (hseparate : Separated pValue alpha control [b, c] metric best second) :
    Rejects alpha (comparisonFamily pValue metric control [b, c] best second)
        (pairwisePValue pValue metric best
          (if best.variantId = control.variantId then second else control)) ∧
      Rejects alpha (comparisonFamily pValue metric control [b, c] best second)
        (pairwisePValue pValue metric best second) ∧
      metric.rate best ≠ metric.rate second := by
  have hmemBest : best ∈ [control, b, c] := hranked.perm.mem_iff.mp (by simp)
  have hmemSecond : second ∈ [control, b, c] := hranked.perm.mem_iff.mp (by simp)
  have hids := variantId_ne hcb hcc hbc hranked
  by_cases hcontrol : best.variantId = control.variantId
  · obtain rfl := eq_control hcb hcc hmemBest hcontrol
    rw [if_pos rfl] at hrejects ⊢
    rw [comparisonFamily, if_pos (.inl rfl), List.append_nil]
    refine ⟨hrejects, hrejects, rate_ne_of_rejects hpos hlt (hequal _ _) ?_ hrejects⟩
    exact List.mem_map_of_mem (mem_treatments hmemSecond hids.symm)
  rw [if_neg hcontrol] at hrejects hsample' hvariance ⊢
  have hmemTest := mem_treatments hmemBest hcontrol
  by_cases hcontrol' : second.variantId = control.variantId
  · obtain rfl := eq_control hcb hcc hmemSecond hcontrol'
    rw [comparisonFamily, if_pos (.inr rfl), List.append_nil, pairwisePValue_comm hsymm]
    refine ⟨hrejects, hrejects, Ne.symm (rate_ne_of_rejects hpos hlt (hequal _ _) ?_ hrejects)⟩
    exact List.mem_map_of_mem hmemTest
  · have hcompared : ¬ Uncompared metric best second := fun huncompared => hseparated
      ⟨htype, hcontrol, hcontrol', huncompared, ⟨hsample, hsample'⟩, hvariance, hrejects⟩
    obtain ⟨-, happart⟩ := hseparate hcompared
    have hfamily : comparisonFamily pValue metric control [b, c] best second =
        [b, c].map (pairwisePValue pValue metric control) ++
          [pairwisePValue pValue metric best second] := by
      rw [comparisonFamily, if_neg (by simp [hcontrol, hcontrol'])]
    refine ⟨?_, happart, rate_ne_of_rejects hpos hlt (hequal _ _) (by simp [hfamily]) happart⟩
    have hperm := List.perm_append_singleton (pairwisePValue pValue metric best second)
      ([b, c].map (pairwisePValue pValue metric control))
    rw [hfamily, rejects_perm hperm] at happart ⊢
    rw [pairwisePValue_comm hsymm (b := control)]
    exact hrejects.cons happart

/-- A best that was not compared with the runner-up is declared all the same. -/
theorem not_backed_of_unseparated (hsymm : ∀ a b, pValue a b = pValue b a)
    (hmetric : pickMetricRate [control, b, c] hypothesis = metric)
    (hpos : 0 < confidenceThreshold) (hlt : confidenceThreshold < 1)
    (hcb : control.variantId ≠ b.variantId) (hcc : control.variantId ≠ c.variantId)
    (hbc : b.variantId ≠ c.variantId) (hranked : metric.Ranked control b c best second third)
    (h : Unseparated pValue (1 - confidenceThreshold) control [b, c] metric best second) :
    ¬ ∀ analysis, analyzeStatisticalSignificance pValue [control, b, c] confidenceThreshold
      hypothesis = .ok analysis → analysis.isSignificant = true →
        Backed pValue (1 - confidenceThreshold) hypothesis control [b, c] metric best second := by
  intro hbacked
  obtain ⟨analysis, hanalysis, hsignificant⟩ := isSignificant_three pValue hsymm
    hmetric h.tested hpos hlt hcb hcc hbc hranked
  have hdeclared : analysis.isSignificant = true := by
    rw [hsignificant, if_neg h.treatment]
    exact ⟨h.samples.1, h.samples.2, h.variance, h.significant,
      fun hcompared => absurd h.uncompared hcompared⟩
  have hfamily : pairwisePValue pValue metric best second ∈
      comparisonFamily pValue metric control [b, c] best second := by
    rw [comparisonFamily, if_neg (by simp [h.treatment, h.treatment'])]
    simp
  exact not_rejects_of_uncompared (by linarith) (by linarith) h.uncompared hfamily
    (hbacked analysis hanalysis hdeclared).versusRunnerUp

/-- Of three results the analysis declares no winner but a backed one, unless the two
best are treatments that were not compared. -/
theorem winner_backed_iff (hsymm : ∀ a b, pValue a b = pValue b a)
    (hmetric : pickMetricRate [control, b, c] hypothesis = metric)
    (hequal : ∀ a b, metric.rate a = metric.rate b → 1 - confidenceThreshold ≤ pValue a b)
    (hpos : 0 < confidenceThreshold) (hlt : confidenceThreshold < 1)
    (hcb : control.variantId ≠ b.variantId) (hcc : control.variantId ≠ c.variantId)
    (hbc : b.variantId ≠ c.variantId)
    (hbest : metric.best control [b, c] = best)
    (hsecond : metric.runnerUp [control, b, c] best = second) :
    (∀ analysis, analyzeStatisticalSignificance pValue [control, b, c] confidenceThreshold
        hypothesis = .ok analysis → analysis.isSignificant = true →
          Backed pValue (1 - confidenceThreshold) hypothesis control [b, c] metric best second) ↔
      ¬ Unseparated pValue (1 - confidenceThreshold) control [b, c] metric best second := by
  have halpha : 0 < 1 - confidenceThreshold := by linarith
  have halpha' : 1 - confidenceThreshold < 1 := by linarith
  obtain ⟨best', second', third, hranked⟩ := MetricRate.exists_ranked metric hcb hcc hbc
  obtain rfl : best' = best := hranked.best_eq.symm.trans hbest
  obtain rfl : second' = second := hranked.runnerUp_eq.symm.trans hsecond
  have hmemBest : best' ∈ [control, b, c] := hranked.perm.mem_iff.mp (by simp)
  constructor
  · exact fun hbacked hunseparated =>
      not_backed_of_unseparated hsymm hmetric hpos hlt hcb hcc hbc hranked hunseparated hbacked
  · intro hseparated analysis hanalysis hsignificant
    have htype : metric.type ≠ .revenuePerRecipient := by
      intro htype
      simp only [analyzeStatisticalSignificance, hmetric, List.length_cons, List.length_nil] at hanalysis
      rw [if_neg (by norm_num), if_neg (by simp [hpos, hlt]), if_pos htype] at hanalysis
      cases hanalysis
    obtain ⟨analysis', hanalysis', hiff⟩ := isSignificant_three pValue hsymm hmetric
      htype hpos hlt hcb hcc hbc hranked
    obtain rfl : analysis = analysis' := Except.ok.inj (hanalysis.symm.trans hanalysis')
    obtain ⟨hsample, hsample', hvariance, hrejects, hseparate⟩ := hiff.mp hsignificant
    obtain ⟨hversus, hrunnerUp, hne⟩ := versus_of_significant hsymm hequal halpha halpha' hcb hcc hbc
      hranked hseparated htype hsample hsample' hvariance hrejects hseparate
    have hunique := unique_of_rate_ne hranked hne
    have hwinner := selectWinner_of_unique hbest hmemBest hunique
    refine ⟨hmemBest, hunique, hversus, hrunnerUp, ?_, ?_⟩
    · intro variants gatesPassed winner hnamed
      simp only [selectWinner, hmetric, Bool.true_and] at hnamed
      cases gatesPassed with
      | false => cases hnamed
      | true =>
          rw [if_pos rfl] at hnamed
          have hfound := List.find?_some hnamed
          exact (hwinner winner).mp hfound
    · rintro variants ⟨variant, hmem, hid⟩
      simp only [selectWinner, hmetric, Bool.and_self, if_true, List.find?_isSome]
      exact ⟨variant, hmem, (hwinner variant).mpr hid⟩

end Backing

/-! ## More clicks than recipients -/

section Sample

/-- A result with the click rate of its clicks. -/
def clicked (variantId : Text) (sampleSize clicks : ℕ) : VariantFigures :=
  { variantId, sampleSize, clicks
    conversions := 0
    clickRate := clicks / sampleSize * 100
    conversionRate := 0 }

/-- Small between the control and the treatments, and one between the treatments. -/
def samplePValue (a b : VariantFigures) : ℚ :=
  if a.clickRate ≠ b.clickRate ∧ (a.variantId = "control" ∨ b.variantId = "control") then 1 / 1000
  else 1

theorem samplePValue_comm (a b : VariantFigures) : samplePValue a b = samplePValue b a := by
  simp only [samplePValue, ne_comm (a := a.clickRate), or_comm (a := a.variantId = "control")]

def clickMetric : MetricRate := ⟨(·.clickRate), .clickRate, .maximize⟩

/-- Two treatments whose recipients clicked more than once: their pooled rate is above one,
and they are not compared. -/
theorem sample_unseparated : Unseparated samplePValue (1 - 19 / 20) (clicked "control" 100 10)
    [clicked "b" 10 20, clicked "c" 10 15] clickMetric (clicked "b" 10 20) (clicked "c" 10 15) := by
  refine ⟨by simp [clickMetric], by simp [clicked], by simp [clicked], .inr ?_, ?_, ?_, ?_⟩
  · decide +kernel
  · decide
  · decide +kernel
  · unfold Rejects
    decide +kernel

/-- The treatment `b` is declared the winner although its comparison with `c` is not
significant. -/
theorem winner_backed_fails : ¬ ∀ analysis, analyzeStatisticalSignificance samplePValue
    [clicked "control" 100 10, clicked "b" 10 20, clicked "c" 10 15] (19 / 20) none =
      .ok analysis → analysis.isSignificant = true →
        Backed samplePValue (1 - 19 / 20) none (clicked "control" 100 10)
          [clicked "b" 10 20, clicked "c" 10 15] clickMetric (clicked "b" 10 20)
          (clicked "c" 10 15) := by
  obtain ⟨best, second, third, hranked⟩ := MetricRate.exists_ranked clickMetric
    (a := clicked "control" 100 10) (b := clicked "b" 10 20) (c := clicked "c" 10 15)
    (by simp [clicked]) (by simp [clicked]) (by simp [clicked])
  obtain rfl : best = clicked "b" 10 20 :=
    hranked.best_eq.symm.trans (by decide +kernel)
  obtain rfl : second = clicked "c" 10 15 :=
    hranked.runnerUp_eq.symm.trans (by decide +kernel)
  exact not_backed_of_unseparated samplePValue_comm rfl (by norm_num) (by norm_num)
    (by simp [clicked]) (by simp [clicked]) (by simp [clicked]) hranked sample_unseparated

/-- With more recipients than clicks the treatments are compared. -/
theorem winner_backed_sample : (∀ analysis, analyzeStatisticalSignificance samplePValue
    [clicked "control" 100 10, clicked "b" 30 20, clicked "c" 30 15] (19 / 20) none =
      .ok analysis → analysis.isSignificant = true →
        Backed samplePValue (1 - 19 / 20) none (clicked "control" 100 10)
          [clicked "b" 30 20, clicked "c" 30 15] clickMetric (clicked "b" 30 20)
          (clicked "c" 30 15)) ↔
    ¬ Unseparated samplePValue (1 - 19 / 20) (clicked "control" 100 10)
      [clicked "b" 30 20, clicked "c" 30 15] clickMetric (clicked "b" 30 20) (clicked "c" 30 15) :=
  winner_backed_iff samplePValue_comm rfl
    (fun a b hrate => by
      rw [samplePValue, if_neg fun hdiffer => hdiffer.1 hrate]
      norm_num)
    (by norm_num) (by norm_num) (by simp [clicked]) (by simp [clicked]) (by simp [clicked])
    (by decide +kernel) (by decide +kernel)

end Sample

end ListmonkOps.Experiment.Exact
