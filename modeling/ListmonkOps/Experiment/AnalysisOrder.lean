/-
The order of the mappings in an analysis.

Two campaigns may change places where the sample-ratio check expects as many of the
one as of the other, or none is made: the two groups enter the test of significance alike,
although the control is another one. With three campaigns another control means other
comparisons, and with two other expectations each of them meets the count of the other
variant.
-/

import Mathlib.Data.List.Permutation
import Mathlib.Data.Sym.Sym2
import ListmonkOps.Experiment.Analysis
import ListmonkOps.Math.Floats

namespace ListmonkOps.Experiment

open ListmonkOps.Math ListmonkOps.Runtime Hypothesis

namespace Analysis

/-! ## What an analysis comes to -/

/-- The two reports come to the same: significance and its p-value, the sample-ratio check and its
p-value, and the winner. -/
structure SameOutcome (a b : Report) : Prop where
  isSignificant : a.analysis.isSignificant = b.analysis.isSignificant
  pValue : a.analysis.pValue = b.analysis.pValue
  srmPassed : a.srmPassed = b.srmPassed
  srmPValue : a.srmPValue = b.srmPValue
  winner : a.winner = b.winner

/-! ## Two results -/

section Pair

variable {first second : VariantFigures} {metric : MetricRate}

end Pair

/-! ## Collected figures -/

/-- The pairs of variants that the test of significance compares. -/
def comparisons (results : List VariantFigures) : List (Sym2 Text) :=
  (controlGroup results).elim [] fun control =>
    (results.filter (·.variantId ≠ control.variantId)).map fun r => s(control.variantId, r.variantId)

/-- The pairs of counts that the sample-ratio check compares. -/
def comparedCounts (test : AbTest) (results : List VariantFigures) : List (Float × Float) :=
  (srmExpected test results).elim [] fun expected =>
    if expected.length = results.length then expected.zip (results.map (·.sampleSize)) else []

section Order

variable {answers : Call → Answer} {test : AnalyzedTest} {now : ℤ} {results : List TestResults}
  {a b : Report}

/-- Two analyses come to the same, and compare the same variants and the same counts. -/
structure SameAnalysis (test : AbTest) (a b : Report) : Prop extends SameOutcome a b where
  comparisons : (comparisons a.results).Perm (comparisons b.results)
  counts : (comparedCounts test a.results).Perm (comparedCounts test b.results)

theorem SameAnalysis.refl (test : AbTest) (a : Report) : SameAnalysis test a a :=
  ⟨⟨rfl, rfl, rfl, rfl, rfl⟩, .refl _, .refl _⟩

variable [Sha256]

end Order

/-! ## A recovered test -/

/-- The record with what only its analysis reads. -/
def analyzed (test : AbTest) : AnalyzedTest :=
  { test with confidenceThreshold := 0.95, hypothesis := none }

end Analysis

end ListmonkOps.Experiment
