/-
The analysis of a test.

The figures of the variants are read in the order of the campaign mappings, and
the analysis takes the first of them for the control. The expected counts of the
sample-ratio check stand in the order of the variants.

The numbers are those of the platform, double-precision floating point.
-/

import ListmonkOps.Experiment.Cancellation
import ListmonkOps.Experiment.Hypothesis
import ListmonkOps.Experiment.Provisioning

namespace ListmonkOps.Experiment

open ListmonkOps.Math ListmonkOps.Runtime Hypothesis

namespace Analysis

/-! ## Figures -/

/-- The figures of one variant. -/
structure VariantFigures where
  variantId : Text
  sampleSize : Float
  opens : Float
  clicks : Float
  conversions : Float
  openRate : Float
  clickRate : Float
  conversionRate : Float
  revenue : Option Float

/-- A reported count; the client types it as a number. -/
def count : JsValue → Float
  | .number n => Float.ofInt n
  | _ => 0.0 / 0.0

/-- The figures of a campaign. Conversions are not collected yet. -/
def figuresOf (results : TestResults) : VariantFigures :=
  let sampleSize := count results.sampleSize
  let opens := count results.opens
  let clicks := count results.clicks
  { variantId := results.variantId
    sampleSize, opens, clicks
    conversions := 0
    openRate := if 0 < sampleSize then opens / sampleSize * 100 else 0
    clickRate := if 0 < sampleSize then clicks / sampleSize * 100 else 0
    conversionRate := 0
    revenue := none }

/-! ## The metric -/

/-- The metric that variants are compared by. -/
structure MetricRate where
  rate : VariantFigures → Float
  type : MetricType
  direction : MetricDirection

/-- The pre-registered metric, or what was measured. -/
def pickMetricRate (results : List VariantFigures) : Option PrimaryMetric → MetricRate
  | some ⟨.conversionRate, direction⟩ => ⟨(·.conversionRate), .conversionRate, direction⟩
  | some ⟨.revenuePerRecipient, direction⟩ =>
      ⟨fun r => match r.revenue with
        | some revenue => if 0 < r.sampleSize then revenue / r.sampleSize else 0
        | none => 0, .revenuePerRecipient, direction⟩
  | some ⟨.clickRate, direction⟩ => ⟨(·.clickRate), .clickRate, direction⟩
  | none =>
      if results.any (0 < ·.conversions) then ⟨(·.conversionRate), .conversionRate, .maximize⟩
      else ⟨(·.clickRate), .clickRate, .maximize⟩

def MetricRate.isBetter (metric : MetricRate) (a b : Float) : Bool :=
  match metric.direction with
  | .minimize => a < b
  | .maximize => b < a

/-- The best of the results, the earlier one where two are equally good. -/
def MetricRate.best (metric : MetricRate) (first : VariantFigures)
    (others : List VariantFigures) : VariantFigures :=
  others.foldl (fun best current =>
    if metric.isBetter (metric.rate current) (metric.rate best) then current else best) first

/-! ## Significance -/

/-- An approximation of the error function. -/
def erf (x : Float) : Float :=
  let sign : Float := if 0 ≤ x then 1 else -1
  let x := x.abs
  let t := 1.0 / (1.0 + 0.3275911 * x)
  let y := 1.0 - ((((1.061405429 * t + -1.453152027) * t + 1.421413741) * t + -0.284496736) * t +
    0.254829592) * t * Float.exp (-x * x)
  sign * y

def standardNormalCDF (z : Float) : Float := 0.5 * (1 + erf (z / Float.sqrt 2))

/-- The standard error of the difference of two proportions. -/
def pooledError (count₁ count₂ n₁ n₂ : Float) : Float :=
  let pooled := (count₁ + count₂) / (n₁ + n₂)
  Float.sqrt (pooled * (1 - pooled) * (1 / n₁ + 1 / n₂))

/-- A standard error that can be divided by. -/
def isUsable (standardError : Float) : Bool := standardError.isFinite && !(standardError == 0)

structure HolmCorrectionResult where
  adjustedPValues : List Float
  significant : List Bool

/-- The step-down over the sorted p-values: what is adjusted and what stays
significant. `previous` is the last adjusted value, and `stopped` says that one
has failed already. -/
def holmSteps (alpha : Float) : List Float → Float → Bool → List (Float × Bool)
  | [], _, _ => []
  | p :: ps, previous, stopped =>
      let remaining := Float.ofNat (ps.length + 1)
      let raw := if 1 < p * remaining then 1 else p * remaining
      let adjusted := if previous.isNaN || raw < previous then previous else raw
      let fails := stopped || alpha / remaining ≤ p
      (adjusted, !fails) :: holmSteps alpha ps adjusted fails

/-- The Holm correction of a family of p-values, in their order. -/
def applyHolmCorrection (pValues : List Float) (alpha : Float) :
    Except JsValue HolmCorrectionResult :=
  if pValues = [] then .ok ⟨[], []⟩
  else if !alpha.isFinite || alpha ≤ 0 || 1 ≤ alpha then
    .error (.ofMessage "alpha must be a finite number in (0, 1)")
  else
    let indexed := pValues.zipIdx.mergeSort fun a b => !(b.1 < a.1)
    let steps := (holmSteps alpha (indexed.map Prod.fst) 0 false).zip (indexed.map Prod.snd)
    let at_ (index : ℕ) : Float × Bool :=
      ((steps.find? (·.2 = index)).map Prod.fst).getD (1, false)
    let indices := List.range pValues.length
    .ok ⟨indices.map fun i => (at_ i).1, indices.map fun i => (at_ i).2⟩

structure StatisticalAnalysis where
  zScore : Float
  pValue : Float
  correctedPValue : Option Float := none
  isSignificant : Bool
  confidenceLevel : Float
  sampleSize : Float

/-- The comparison that cannot be made. -/
def incomparable (confidenceThreshold sampleSize : Float) : StatisticalAnalysis where
  zScore := 0
  pValue := 1
  isSignificant := false
  confidenceLevel := confidenceThreshold
  sampleSize

/-- The p-value of one variant against the control. -/
def pairwisePValue (metric : MetricRate) (metricCount : VariantFigures → Float)
    (control variant : VariantFigures) : Float :=
  let n₁ := control.sampleSize
  let nv := variant.sampleSize
  if nv == 0 || n₁ == 0 then 1
  else
    let se := pooledError (metricCount control) (metricCount variant) n₁ nv
    if !isUsable se then 1
    else
      2 * (1 - standardNormalCDF
        ((metric.rate control / 100 - metric.rate variant / 100).abs / se))

/-- Whether the two best results, the control among them, are apart. -/
def isTopTwoSeparated (metric : MetricRate) (metricCount : VariantFigures → Float)
    (control : VariantFigures) (results nonControl : List VariantFigures)
    (pairwise : List Float) (holm : HolmCorrectionResult) (alpha : Float) :
    Except JsValue Bool :=
  let sorted := results.mergeSort fun a b =>
    !metric.isBetter (metric.rate b) (metric.rate a)
  match sorted with
  | best :: second :: _ =>
      if 0 < best.sampleSize && 0 < second.sampleSize then
        let se := pooledError (metricCount best) (metricCount second)
          best.sampleSize second.sampleSize
        let pBest := metric.rate best / 100
        let pSecond := metric.rate second / 100
        if se.isFinite && 0 < se then
          let pTwo := 2 * (1 - standardNormalCDF ((pBest - pSecond).abs / se))
          if best.variantId = control.variantId ∨ second.variantId = control.variantId then
            let other := if best.variantId = control.variantId then second else best
            .ok ((holm.significant[nonControl.findIdx (·.variantId = other.variantId)]?).getD false)
          else do
            let all ← applyHolmCorrection (pairwise ++ [pTwo]) alpha
            pure (all.significant[pairwise.length]?.getD false)
        else .ok (!(pBest == pSecond))
      else .ok true
  | _ => .ok true

/-- The variant that the others are compared with: the first of the results. -/
def controlGroup (results : List VariantFigures) : Option VariantFigures := results.head?

/-- The best variant against the control. -/
def analyzeStatisticalSignificance (results : List VariantFigures) (confidenceThreshold : Float)
    (hypothesis : Option PrimaryMetric) : Except JsValue StatisticalAnalysis :=
  match results with
  | [] | [_] => .error (.ofMessage "At least 2 variants required for statistical analysis")
  | head :: others => do
      if 3 < results.length then
        throw (.ofMessage "Maximum 3 variants supported for analysis")
      else if !confidenceThreshold.isFinite || confidenceThreshold ≤ 0 ||
          1 ≤ confidenceThreshold then
        throw (.ofMessage "confidenceThreshold must be a finite number in (0, 1)")
      else
        let control ← (controlGroup results).elim
          (throw (.ofMessage "Invalid test results data: missing control group")) pure
        let alpha := 1 - confidenceThreshold
        let metric := pickMetricRate results hypothesis
        if metric.type = .revenuePerRecipient then
          throw (.ofMessage (("revenue_per_recipient metric is not yet supported by the " : Text) ++
            ("significance test; use click_rate or conversion_rate" : Text)))
        else
          let metricCount (r : VariantFigures) : Float :=
            if metric.type = .conversionRate then r.conversions else r.clicks
          let best := metric.best head others
          let nonControl := results.filter (·.variantId ≠ control.variantId)
          match if best.variantId = control.variantId then nonControl else [best] with
          | [] =>
              throw (.ofMessage
                "Invalid test results data: no non-control variant found for comparison")
          | first :: rest =>
              let testGroup := metric.best first rest
              let n₁ := control.sampleSize
              let n₂ := testGroup.sampleSize
              if n₁ == 0 || n₂ == 0 then pure (incomparable confidenceThreshold (n₁ + n₂))
              else
                let standardError := pooledError (metricCount control) (metricCount testGroup) n₁ n₂
                if !isUsable standardError then pure (incomparable confidenceThreshold (n₁ + n₂))
                else
                  let zScore := (metric.rate control / 100 - metric.rate testGroup / 100).abs /
                    standardError
                  let pValue := 2 * (1 - standardNormalCDF zScore.abs)
                  if results.length ≤ 2 then
                    pure { zScore, pValue, isSignificant := pValue < alpha
                           confidenceLevel := confidenceThreshold, sampleSize := n₁ + n₂ }
                  else
                    let pairwise := nonControl.map (pairwisePValue metric metricCount control)
                    let holm ← applyHolmCorrection pairwise alpha
                    let bestIdx := nonControl.findIdx (·.variantId = testGroup.variantId)
                    let separated ←
                      isTopTwoSeparated metric metricCount control results nonControl pairwise holm alpha
                    pure { zScore, pValue
                           correctedPValue := some (holm.adjustedPValues[bestIdx]?.getD 1)
                           isSignificant := holm.significant[bestIdx]?.getD false && separated
                           confidenceLevel := confidenceThreshold, sampleSize := n₁ + n₂ }

/-! ## Eligibility -/

/-- Why no decision can be made yet. -/
inductive ReasonCode where
  | beforeEndsAt
  | noStartedAt
  | minimumDurationNotMet
  | /-- For the result at a position. -/
    minimumSampleNotMet (index : ℕ)
  | srmInputMismatch
  deriving DecidableEq

/-- The number a fraction of the request stands for. -/
def ofRat (q : ℚ) : Float := Float.ofInt q.num / Float.ofNat q.den

/-- The reasons against a decision; none where the test is ready for one. -/
def fixedHorizonGate (endsAt startedAt : Option DateTime) (now : ℤ) (minimumDurationHours : Float)
    (minimumSamplePerVariant : Float) (sampleSizes : List Float) : List ReasonCode :=
  (if endsAt.any (now < ·.time) then [.beforeEndsAt] else []) ++
  (match startedAt with
    | none => [.noStartedAt]
    | some startedAt =>
        if Float.ofInt (now - startedAt.time) / 3600000 < minimumDurationHours then
          [.minimumDurationNotMet]
        else []) ++
  sampleSizes.zipIdx.filterMap fun (size, index) =>
    if size < minimumSamplePerVariant then some (.minimumSampleNotMet index) else none

/-! ## Sample ratios -/

structure SRMCheckResult where
  passed : Bool
  chiSquare : Float
  pValue : Float

def indeterminate : SRMCheckResult := ⟨false, 0, 1⟩

/-- The critical values at the level 0.001. -/
def chiSquareCritical (df : ℕ) : Float := if df = 2 then 13.816 else 10.828

/-- The chi-square test of the observed counts, at the level 0.001. -/
def checkSRM (expected observed : List Float) : SRMCheckResult :=
  if expected.length ≠ observed.length ∨ expected.length < 2 then indeterminate
  else
    let expectedSum := expected.foldl (· + ·) 0
    let observedSum := observed.foldl (· + ·) 0
    let arms := expected.zip observed
    if expectedSum == 0 || observedSum == 0 then indeterminate
    else if arms.any fun arm => arm.1 == 0 && 0 < arm.2 then ⟨false, 1.0 / 0.0, 0⟩
    else
      let active := arms.filter fun arm => 0 < arm.1 || 0 < arm.2
      if active.length < 2 then indeterminate
      else
        let chiSquare := active.foldl (fun sum arm =>
          let scaledExpected := arm.1 / expectedSum * observedSum
          sum + (arm.2 - scaledExpected) * (arm.2 - scaledExpected) / scaledExpected) 0
        let df := active.length - 1
        let wilsonHilferty := 1 - 2 / (9 * Float.ofNat df)
        let wilsonStd := Float.sqrt (2 / (9 * Float.ofNat df))
        let ratio := chiSquare / Float.ofNat df
        { passed := chiSquare < chiSquareCritical df
          chiSquare
          pValue :=
            if ratio ≤ 0 || !ratio.isFinite then 1
            else 1 - standardNormalCDF ((Float.pow ratio (1 / 3) - wilsonHilferty) / wilsonStd) }

/-! ## The analysis of a test -/

/-- A record with the fields that only its analysis reads. -/
structure AnalyzedTest extends AbTest where
  confidenceThreshold : Float
  hypothesis : Option Members

def primaryMetricOf (hypothesis : Members) : PrimaryMetric :=
  match Value.get hypothesis "primaryMetric" with
  | .object metric =>
      { type :=
          if isOneOf ["conversion_rate"] (Value.get metric "type") then .conversionRate
          else if isOneOf ["revenue_per_recipient"] (Value.get metric "type") then
            .revenuePerRecipient
          else .clickRate
        direction :=
          if isOneOf ["minimize"] (Value.get metric "direction") then .minimize else .maximize }
  | _ => ⟨.clickRate, .maximize⟩

/-- The expected counts, in the order of the variants; none where the record does not
say how the audience was split. -/
def srmExpected (test : AbTest) (results : List VariantFigures) : Option (List Float) :=
  match test.assignmentManifest, test.testingMode with
  | some manifest, _ =>
      some ((manifest.groups.filter (·.kind ≠ .holdout)).map fun group =>
        Float.ofNat group.expectedCount)
  | none, .fullSplit =>
      let totalSample := results.foldl (fun sum r => sum + r.sampleSize) 0
      some (test.variants.map fun variant =>
        Float.round (ofRat variant.percentage / 100 * totalSample))
  | none, .holdout => none

/-- `Math.min` or `Math.max` of the rates. -/
def bestRate (metric : MetricRate) (rates : List Float) : Float :=
  match rates with
  | [] => match metric.direction with
    | .minimize => 1.0 / 0.0
    | .maximize => -1.0 / 0.0
  | rate :: rates => rates.foldl (fun best rate =>
      if rate.isNaN || metric.isBetter rate best then rate else best) rate

structure Report where
  results : List VariantFigures
  analysis : StatisticalAnalysis
  fixedHorizonReasonCodes : List ReasonCode
  srmPassed : Option Bool
  srmPValue : Option Float
  winner : Option Variant

/-- The analysis of the figures that were collected. -/
def report (test : AnalyzedTest) (results : List VariantFigures) (now : ℤ) :
    Except JsValue Report := do
  let primaryMetric := test.hypothesis.map primaryMetricOf
  let analysis ← analyzeStatisticalSignificance results test.confidenceThreshold primaryMetric
  let reasons := fixedHorizonGate test.endsAt (test.launchAt.or test.startedAt) now
    (test.durationHours.elim 24 ofRat) (test.minimumTestSampleSize.elim 100 Float.ofNat)
    (results.map (·.sampleSize))
  let observed := results.map (·.sampleSize)
  let srm := (srmExpected test.toAbTest results).map fun expected =>
    (expected.length = observed.length && 2 ≤ expected.length, checkSRM expected observed)
  let srmPassed := srm.map fun (comparable, result) => comparable && result.passed
  let srmPValue := srm.map fun (comparable, result) => if comparable then result.pValue else 1
  let gatesPassed := reasons.isEmpty && srmPassed != some false
  let metric := pickMetricRate results primaryMetric
  let best := bestRate metric (results.map metric.rate)
  let isSignificant := gatesPassed && analysis.isSignificant
  pure
    { results
      analysis := { analysis with isSignificant }
      fixedHorizonReasonCodes :=
        reasons ++ if srm.any (!·.1) then [.srmInputMismatch] else []
      srmPassed, srmPValue
      winner :=
        if isSignificant then
          test.variants.find? fun variant =>
            results.any fun r => r.variantId = variant.id && metric.rate r == best
        else none }

section Hypothesis

theorem map_ofExcept {α β : Type} (f : α → β) (outcome : Except JsValue α) :
    f <$> ofExcept outcome = ofExcept (outcome.map f) := by
  cases outcome with
  | error error => rfl
  | ok value => rfl

variable [Sha256]

/-- A hypothesis is used only as it was locked. -/
def checkHypothesis (test : AnalyzedTest) : Except JsValue Unit :=
  match test.hypothesis with
  | none => .ok ()
  | some hypothesis =>
      if !isTruthy (Value.get hypothesis "lockedAt") || !isTruthy (Value.get hypothesis "checksum") then
        .error (.ofMessage (("Hypothesis for test " : Text) ++ test.id ++
          (" is not locked; cannot use an unlocked hypothesis for analysis" : Text)))
      else
        match verifyHypothesisChecksum hypothesis with
        | none => .error (.typeError "Cannot read properties of undefined")
        | some false =>
            .error (.ofMessage (("Hypothesis checksum verification failed for test " : Text) ++
              test.id ++ ("; the pre-registered metadata may have been tampered with" : Text)))
        | some true => .ok ()

def analyzeTest (test : AnalyzedTest) (now : ℤ) : Remote Report := do
  ofExcept (checkHypothesis test)
  let results ← collect test.toAbTest
  ofExcept (report test (results.map figuresOf) now)

/-- The statistics of the operations, where `settings` looks up the fields that are left
out of their records. -/
@[reducible]
def statistics (settings : AbTest → Float × Option Members) : Statistics where
  verifyHypothesis test :=
    checkHypothesis
      { test with confidenceThreshold := (settings test).1, hypothesis := (settings test).2 }
  analyze test results now :=
    (report { test with confidenceThreshold := (settings test).1, hypothesis := (settings test).2 }
      (results.map figuresOf) now).map fun report =>
        { isSignificant := report.analysis.isSignificant, winner := report.winner }

theorem analyzeTest_statistics (settings : AbTest → Float × Option Members) (test : AbTest)
    (now : ℤ) :
    @Experiment.analyzeTest (statistics settings) test now =
      (fun report => { isSignificant := report.analysis.isSignificant, winner := report.winner }) <$>
        analyzeTest { test with
          confidenceThreshold := (settings test).1
          hypothesis := (settings test).2 } now := by
  simp only [Experiment.analyzeTest, analyzeTest, map_bind, map_ofExcept]
  rfl

end Hypothesis

end Analysis

end ListmonkOps.Experiment
