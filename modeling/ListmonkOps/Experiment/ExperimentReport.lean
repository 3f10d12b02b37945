/-
The report of an experiment.

A report takes the texts of a test as they are: its name, its id, the names of the
variants and the objective of the hypothesis. Of these the Markdown rendering
escapes the objective alone. The others may end the line they stand on, and the
name of a variant may end its cell; then the rendering has lines and cells that the
report does not have.
-/

import ListmonkOps.Experiment.Analysis
import ListmonkOps.Operations.Lifecycle
import ListmonkOps.Runtime.Collation
import ListmonkOps.Runtime.Markdown

namespace ListmonkOps.Experiment

open ListmonkOps.Runtime Hypothesis

/-! ## Reports -/

inductive PreRegistrationStatus where
  | verified
  | notAvailable
  | checksumMismatch
  deriving DecidableEq

/-- An analysis with the fields that only a report reads. A reason that is not there
and no reasons are the same. -/
structure ReportedAnalysis extends Analysis.StatisticalAnalysis where
  holmCorrected : Bool := false
  srmPassed : Option Bool := none
  srmPValue : Option Float := none
  fixedHorizonReasonCodes : List Text := []

structure ReportVariant where
  variantId : Text
  variantName : Text
  sampleSize : Float
  clickRate : Float
  conversionRate : Float
  openRate : Float
  revenue : Option Float
  revenuePerRecipient : Option Float

inductive LiftKind where
  | relative
  | absolute
  deriving DecidableEq

structure ReportedLift where
  kind : LiftKind
  value : Float
  unit : Option LiftUnit

structure ReportedHypothesis where
  objective : Text
  primaryMetricType : Text
  direction : MetricDirection
  expectedLift : ReportedLift

structure ExperimentReport where
  testId : Text
  testName : Text
  status : Status
  confidenceLevel : Float
  primaryMetric : Text
  primaryMetricDirection : Option MetricDirection
  createdAt : DateTime
  updatedAt : DateTime
  startedAt : Option Text
  endsAt : Option Text
  winnerVariantId : Option Text
  analysis : ReportedAnalysis
  variants : List ReportVariant
  revenueCurrency : Option Text
  srmPassed : Option Bool
  srmPValue : Option Float
  fixedHorizonReasonCodes : List Text
  hypothesis : Option ReportedHypothesis
  preRegistration : PreRegistrationStatus

/-! ## Building a report -/

/-- The double that a number of a document is read as. -/
def toFloat : Number → Float
  | .nan => 0 / 0
  | .infinity negative => if negative then -1 / 0 else 1 / 0
  | .finite value =>
      (if value.negative then -1 else 1) *
        Float.ofScientific value.digits (value.exponent < 0) value.exponent.natAbs

def reportedLift (hypothesis : Members) : ReportedLift :=
  match Value.get hypothesis "expectedLift" with
  | .object lift =>
      let isAbsolute := isOneOf ["absolute"] (Value.get lift "kind")
      { kind := if isAbsolute then .absolute else .relative
        value := match Value.get lift "value" with
          | .number value => toFloat value
          | _ => 0 / 0
        unit :=
          if !isAbsolute then none
          else if isOneOf ["percentage_point"] (Value.get lift "unit") then some .percentagePoint
          else if isOneOf ["currency_per_recipient"] (Value.get lift "unit") then
            some .currencyPerRecipient
          else none }
  | _ => ⟨.relative, 0 / 0, none⟩

def reportedHypothesis (hypothesis : Members) : ReportedHypothesis where
  objective := match Value.get hypothesis "objective" with
    | .string objective => objective
    | _ => []
  primaryMetricType := (Analysis.primaryMetricOf hypothesis).type.text
  direction := (Analysis.primaryMetricOf hypothesis).direction
  expectedLift := reportedLift hypothesis

/-- The declared metric, or the one that was measured. -/
def pickPrimaryMetric (hypothesis : Option Members) (results : List Analysis.VariantFigures) :
    Text × MetricDirection :=
  match hypothesis with
  | some hypothesis =>
      ((Analysis.primaryMetricOf hypothesis).type.text,
        (Analysis.primaryMetricOf hypothesis).direction)
  | none =>
      (if results.any (0 < ·.conversions) then "conversion_rate" else "click_rate", .maximize)

def reportVariant (test : AbTest) (r : Analysis.VariantFigures) : ReportVariant where
  variantId := r.variantId
  variantName := ((test.variants.find? (·.id = r.variantId)).map (·.name)).getD r.variantId
  sampleSize := r.sampleSize
  clickRate := r.clickRate
  conversionRate := r.conversionRate
  openRate := r.openRate
  revenue := r.revenue
  revenuePerRecipient := r.revenue.bind fun revenue =>
    if 0 < r.sampleSize then some (revenue / r.sampleSize) else none

section Building

variable [Sha256]

/-- Whether a hypothesis was registered before the test; `none` where reading its
owner throws. -/
def evaluatePreRegistration : Option Members → Option PreRegistrationStatus
  | none => some .notAvailable
  | some hypothesis =>
      if !isTruthy (Value.get hypothesis "lockedAt") || !isTruthy (Value.get hypothesis "checksum") then
        some .notAvailable
      else
        (verifyHypothesisChecksum hypothesis).map fun matched =>
          if matched then .verified else .checksumMismatch

/-- The report of a test; `none` where the owner of the hypothesis or a time of the
record cannot be read. -/
def buildExperimentReport (test : Analysis.AnalyzedTest) (analysis : ReportedAnalysis)
    (results : List Analysis.VariantFigures) : Option ExperimentReport := do
  let preRegistration ← evaluatePreRegistration test.hypothesis
  let createdAt ← toISOString test.createdAt
  let updatedAt ← toISOString test.updatedAt
  let (primaryMetric, direction) := pickPrimaryMetric test.hypothesis results
  return {
    testId := test.id
    testName := test.name
    status := test.status
    confidenceLevel := analysis.confidenceLevel
    primaryMetric
    primaryMetricDirection := some direction
    createdAt
    updatedAt
    startedAt := test.startedAt.map DateTime.text
    endsAt := test.endsAt.map DateTime.text
    winnerVariantId := test.winnerVariantId
    analysis
    variants := results.map (reportVariant test.toAbTest)
    revenueCurrency := none
    srmPassed := analysis.srmPassed
    srmPValue := analysis.srmPValue
    fixedHorizonReasonCodes := analysis.fixedHorizonReasonCodes
    hypothesis := test.hypothesis.map reportedHypothesis
    preRegistration
  }

end Building

/-! ## Rendering -/

def escapeMarkdown (s : Text) : Text :=
  s.flatMap fun unit =>
    if unit = 10 then "\\n"
    else if unit = 13 then "\\r"
    else if unit ∈ ("`*|[]<>\\" : Text) then [92, unit]
    else [unit]

def preRegistrationLabel : PreRegistrationStatus → Text
  | .verified => "Verified"
  | .checksumMismatch => "Checksum Mismatch"
  | .notAvailable => "Not Available"

/-- The texts of numbers. -/
class NumberText extends Operations.FixedNotation where
  /-- `String(value)`. -/
  toText : Float → Text

/-- The line of a text that is there and not empty. -/
def optionalLine (label : Text) : Option Text → List Text
  | none | some [] => []
  | some text => [label ++ text]

section Rendering

variable [NumberText]

open Operations.FixedNotation NumberText

def titleLine (report : ExperimentReport) : Text :=
  ("# A/B Test Report: " : Text) ++ report.testName

def testIdLine (report : ExperimentReport) : Text := ("- **Test ID**: " : Text) ++ report.testId

def metadataLines (report : ExperimentReport) : List Text :=
  [("- **Status**: " : Text) ++ report.status.text,
    ("- **Primary Metric**: " : Text) ++ report.primaryMetric] ++
  (match report.primaryMetricDirection with
    | none => []
    | some .maximize => [("- **Direction**: Maximize" : Text)]
    | some .minimize => [("- **Direction**: Minimize" : Text)]) ++
  [("- **Confidence Level**: " : Text) ++ toFixed (report.confidenceLevel * 100) 1 ++ ("%" : Text),
    ("- **Pre-Registration**: " : Text) ++ preRegistrationLabel report.preRegistration] ++
  optionalLine "- **Started**: " report.startedAt ++ optionalLine "- **Ends**: " report.endsAt ++
  [[]]

def liftLine (lift : ReportedLift) : Text :=
  ("- **Expected Lift**: " : Text) ++
    match lift.kind, lift.unit with
    | .relative, _ => toFixed (lift.value * 100) 1 ++ ("% relative" : Text)
    | .absolute, some unit =>
        toText lift.value ++ (" " : Text) ++ unit.text ++ (" (absolute)" : Text)
    | .absolute, none => toText lift.value ++ (" (absolute)" : Text)

def objectiveLine (hypothesis : ReportedHypothesis) : Text :=
  ("- **Objective**: " : Text) ++ escapeMarkdown hypothesis.objective

def hypothesisLines : Option ReportedHypothesis → List Text
  | none => []
  | some hypothesis =>
      ["## Hypothesis", [], objectiveLine hypothesis,
        ("- **Primary Metric**: " : Text) ++ hypothesis.primaryMetricType,
        ("- **Direction**: " : Text) ++ hypothesis.direction.text,
        liftLine hypothesis.expectedLift, []]

/-- The codes of the issues in one line, if there are any. -/
def issuesLines (codes : List Text) : List Text :=
  if codes = [] then []
  else [("- **Fixed-Horizon Issues**: " : Text) ++ ([44, 32] : Text).intercalate codes]

def analysisLines (report : ExperimentReport) : List Text :=
  let analysis := report.analysis
  [("## Statistical Analysis" : Text), [],
    ("- **Z-Score**: " : Text) ++ toFixed analysis.zScore 4,
    ("- **P-Value**: " : Text) ++ toFixed analysis.pValue 6] ++
  (analysis.correctedPValue.toList.map fun p =>
    ("- **Corrected P-Value (Holm)**: " : Text) ++ toFixed p 6) ++
  [("- **Significant**: " : Text) ++ (if analysis.isSignificant then ("Yes" : Text) else "No")] ++
  (if analysis.holmCorrected then [("- **Holm Corrected**: Yes" : Text)] else []) ++
  (report.srmPassed.toList.map fun passed =>
    ("- **SRM Check**: " : Text) ++ (if passed then ("Passed" : Text) else "Failed")) ++
  (report.srmPValue.toList.map fun p => ("- **SRM P-Value**: " : Text) ++ toFixed p 6) ++
  issuesLines report.fixedHorizonReasonCodes ++ [[]]

def hasRevenue (report : ExperimentReport) : Bool :=
  (report.variants.any fun v => v.revenue.isSome || v.revenuePerRecipient.isSome) ||
    report.primaryMetric = ("revenue_per_recipient" : Text)

def headers (report : ExperimentReport) : List Text :=
  let currencySuffix : Text := match report.revenueCurrency with
    | none | some [] => []
    | some currency => (" (" : Text) ++ currency ++ (")" : Text)
  [("Variant" : Text), "Sample", "Open Rate", "Click Rate", "Conversion Rate"] ++
    if hasRevenue report then
      [("Revenue" : Text) ++ currencySuffix, ("Rev/Recipient" : Text) ++ currencySuffix]
    else []

def tableHead (report : ExperimentReport) : List Text :=
  ["## Variant Results", [],
    ("| " : Text) ++ (" | " : Text).intercalate (headers report) ++ (" |" : Text),
    ("|" : Text) ++ ("|" : Text).intercalate ((headers report).map fun _ => ("---------" : Text)) ++
      ("|" : Text)]

/-- The cells of a variant after its name. -/
def figureCells (withRevenue : Bool) (v : ReportVariant) : List Text :=
  [toText v.sampleSize, toFixed v.openRate 2 ++ ("%" : Text), toFixed v.clickRate 2 ++ ("%" : Text),
    toFixed v.conversionRate 2 ++ ("%" : Text)] ++
  if withRevenue then
    [(v.revenue.map (toFixed · 2)).getD "N/A", (v.revenuePerRecipient.map (toFixed · 4)).getD "N/A"]
  else []

def variantRow (withRevenue : Bool) (v : ReportVariant) : Text :=
  ("| " : Text) ++ (" | " : Text).intercalate (v.variantName :: figureCells withRevenue v) ++
    (" |" : Text)

def winnerLine (winner : ReportVariant) : Text := ("## Winner: " : Text) ++ winner.variantName

def verdictLines (report : ExperimentReport) : List Text :=
  match report.analysis.isSignificant, report.winnerVariantId with
  | true, none | true, some [] => []
  | true, some winnerVariantId =>
      (report.variants.find? (·.variantId = winnerVariantId)).toList.map winnerLine
  | false, _ =>
      [("## No significant winner detected" : Text)] ++
        if report.fixedHorizonReasonCodes = [] then []
        else [[], ("> The test may not be ready for analysis. " : Text) ++
          ("See the fixed-horizon issues above." : Text)]

def mismatchLines (report : ExperimentReport) : List Text :=
  if report.preRegistration = .checksumMismatch then
    [[], ("> ⚠️ Pre-registration checksum mismatch: the hypothesis metadata may have been " : Text) ++
      ("tampered with after locking." : Text)]
  else []

def openingLines (report : ExperimentReport) : List Text :=
  [titleLine report, [], testIdLine report] ++ metadataLines report ++
    hypothesisLines report.hypothesis ++ analysisLines report ++ tableHead report

def variantRows (report : ExperimentReport) : List Text :=
  report.variants.map (variantRow (hasRevenue report))

def closingLines (report : ExperimentReport) : List Text :=
  [[]] ++ verdictLines report ++ mismatchLines report

def reportToMarkdown (report : ExperimentReport) : Text :=
  [10].intercalate (openingLines report ++ variantRows report ++ closingLines report)

end Rendering

/-! ## Free text -/

namespace ExperimentReport

def emptied (report : ExperimentReport) : ExperimentReport :=
  { report with
    testName := []
    testId := []
    variants := report.variants.map fun v => { v with variantName := [] }
    hypothesis := report.hypothesis.map fun hypothesis => { hypothesis with objective := [] } }

/-- The name and the id of the test have no line ending in them, apart from a carriage
return at the end, which the line feed behind it takes in; and no name of a variant
has a line ending or an unescaped separator. -/
structure Plain (report : ExperimentReport) : Prop where
  testName : Unbroken (chomp report.testName)
  testId : Unbroken (chomp report.testId)
  variants : ∀ v ∈ report.variants, Unbroken v.variantName ∧ separators v.variantName = 0

theorem plain_emptied (report : ExperimentReport) : report.emptied.Plain where
  testName := ⟨List.not_mem_nil, List.not_mem_nil⟩
  testId := ⟨List.not_mem_nil, List.not_mem_nil⟩
  variants v hv := by
    obtain ⟨v, -, rfl⟩ := List.mem_map.mp hv
    exact ⟨⟨List.not_mem_nil, List.not_mem_nil⟩, rfl⟩

end ExperimentReport

/-! ## The lines of the emptied report -/

theorem unbroken_nil : Unbroken [] := ⟨List.not_mem_nil, List.not_mem_nil⟩

theorem unbroken_escapeMarkdown (text : Text) : Unbroken (escapeMarkdown text) := by
  have hunit : ∀ unit : UInt16, Unbroken
      (if unit = 10 then ("\\n" : Text)
        else if unit = 13 then ("\\r" : Text)
        else if unit ∈ ("`*|[]<>\\" : Text) then [92, unit]
        else [unit]) := by
    intro unit
    split
    · decide
    · rename_i hfeed
      split
      · decide
      · rename_i hreturn
        split <;> simp [Unbroken, Ne.symm hfeed, Ne.symm hreturn]
  constructor
  · intro hmem
    obtain ⟨unit, -, hunits⟩ := List.mem_flatMap.mp hmem
    exact (hunit unit).1 hunits
  · intro hmem
    obtain ⟨unit, -, hunits⟩ := List.mem_flatMap.mp hmem
    exact (hunit unit).2 hunits

theorem chomp_of_unbroken {text : Text} (h : Unbroken text) : chomp text = text := by
  rw [chomp, if_neg]
  exact fun hlast => h.2 (List.mem_of_getLast? hlast)

theorem lineShape_heading (text : Text) : lineShape (35 :: text) = (.heading, 0) := by
  simp [lineShape, lineKind]

theorem lineShape_listItem (text : Text) : lineShape (45 :: 32 :: text) = (.listItem, 0) := by
  simp [lineShape, lineKind]

/-! The labels of the lines that end with free text. -/

def titleLabel : Text := "# A/B Test Report:"

def testIdLabel : Text := "- **Test ID**:"

def objectiveLabel : Text := "- **Objective**:"

def winnerLabel : Text := "## Winner:"

/-- A label stays on one line, and whatever text comes behind it does not change what kind of line
it is. -/
structure IsLabel (label : Text) : Prop where
  unbroken : Unbroken label
  shape : ∀ text text', lineShape (label ++ 32 :: text) = lineShape (label ++ 32 :: text')

theorem isLabel_title : IsLabel titleLabel where
  unbroken := by decide
  shape text text' := (lineShape_heading _).trans (lineShape_heading _).symm

theorem isLabel_testId : IsLabel testIdLabel where
  unbroken := by decide
  shape text text' := (lineShape_listItem _).trans (lineShape_listItem _).symm

theorem isLabel_objective : IsLabel objectiveLabel where
  unbroken := by decide
  shape text text' := (lineShape_listItem _).trans (lineShape_listItem _).symm

theorem isLabel_winner : IsLabel winnerLabel where
  unbroken := by decide
  shape text text' := (lineShape_heading _).trans (lineShape_heading _).symm

namespace IsLabel

variable {label text : Text}

theorem length_shapeOf (h : IsLabel label) : (shapeOf (label ++ 32 :: [])).length = 1 :=
  (length_shapeOf_trailing h.unbroken).mpr unbroken_nil

/-- Text without a line ending behind a label is not seen in the shape. -/
theorem shapeOf_eq_iff (h : IsLabel label) :
    shapeOf (label ++ 32 :: text) = shapeOf (label ++ 32 :: []) ↔ Unbroken text := by
  constructor
  · intro hshape
    have hlength := congrArg List.length hshape
    rw [h.length_shapeOf] at hlength
    exact (length_shapeOf_trailing h.unbroken).mp hlength
  · intro htext
    rw [shapeOf_trailing h.unbroken htext, shapeOf_trailing h.unbroken unbroken_nil,
      h.shape text []]

theorem shapeOf_chomp_eq_iff (h : IsLabel label) :
    shapeOf (chomp (label ++ 32 :: text)) = shapeOf (chomp (label ++ 32 :: [])) ↔
      Unbroken (chomp text) := by
  rw [chomp_append_blank, chomp_append_blank]
  exact h.shapeOf_eq_iff

theorem length_le (h : IsLabel label) (text : Text) :
    (shapeOf (label ++ 32 :: [])).length ≤ (shapeOf (label ++ 32 :: text)).length :=
  h.length_shapeOf.trans_le (length_shapeOf_pos _)

theorem length_chomp_le (h : IsLabel label) (text : Text) :
    (shapeOf (chomp (label ++ 32 :: []))).length ≤ (shapeOf (chomp (label ++ 32 :: text))).length := by
  rw [chomp_append_blank, chomp_append_blank]
  exact h.length_le (chomp text)

end IsLabel

theorem label_append {spaced label : Text} (h : spaced = label ++ [32]) (text : Text) :
    spaced ++ text = label ++ 32 :: text := by
  rw [h, List.append_assoc, List.singleton_append]

section Emptied

variable (report : ExperimentReport)

theorem titleLine_eq : titleLine report = titleLabel ++ 32 :: report.testName :=
  label_append (by decide +kernel) report.testName

theorem testIdLine_eq : testIdLine report = testIdLabel ++ 32 :: report.testId :=
  label_append (by decide +kernel) report.testId

theorem objectiveLine_eq (hypothesis : ReportedHypothesis) : objectiveLine hypothesis =
    objectiveLabel ++ 32 :: escapeMarkdown hypothesis.objective :=
  label_append (by decide +kernel) _

theorem winnerLine_eq (winner : ReportVariant) :
    winnerLine winner = winnerLabel ++ 32 :: winner.variantName :=
  label_append (by decide +kernel) winner.variantName

/-- The title shows free text in its shape unless that has no line ending. -/
theorem shapeOf_titleLine_eq_iff :
    shapeOf (chomp (titleLine report)) = shapeOf (chomp (titleLine report.emptied)) ↔
      Unbroken (chomp report.testName) := by
  rw [titleLine_eq, titleLine_eq]
  exact isLabel_title.shapeOf_chomp_eq_iff

theorem shapeOf_testIdLine_eq_iff :
    shapeOf (chomp (testIdLine report)) = shapeOf (chomp (testIdLine report.emptied)) ↔
      Unbroken (chomp report.testId) := by
  rw [testIdLine_eq, testIdLine_eq]
  exact isLabel_testId.shapeOf_chomp_eq_iff

theorem length_titleLine_le : (shapeOf (chomp (titleLine report.emptied))).length ≤
    (shapeOf (chomp (titleLine report))).length := by
  rw [titleLine_eq, titleLine_eq]
  exact isLabel_title.length_chomp_le _

theorem length_testIdLine_le : (shapeOf (chomp (testIdLine report.emptied))).length ≤
    (shapeOf (chomp (testIdLine report))).length := by
  rw [testIdLine_eq, testIdLine_eq]
  exact isLabel_testId.length_chomp_le _

theorem hasRevenue_emptied : hasRevenue report.emptied = hasRevenue report := by
  simp only [hasRevenue, ExperimentReport.emptied, List.any_map]
  rfl

theorem tableHead_emptied : tableHead report.emptied = tableHead report := by
  simp only [tableHead, headers, hasRevenue_emptied]
  rfl

theorem verdictLines_cases :
    verdictLines report.emptied = verdictLines report ∨
      ∃ winner ∈ report.variants, verdictLines report = [winnerLine winner] ∧
        verdictLines report.emptied = [winnerLine { winner with variantName := [] }] := by
  have hfind (winnerVariantId : Text) :
      report.emptied.variants.find? (·.variantId = winnerVariantId) =
        (report.variants.find? (·.variantId = winnerVariantId)).map fun v =>
          { v with variantName := [] } := by
    simp only [ExperimentReport.emptied, List.find?_map]
    rfl
  have hsignificant : report.emptied.analysis = report.analysis := rfl
  have hwinner : report.emptied.winnerVariantId = report.winnerVariantId := rfl
  unfold verdictLines
  rw [hsignificant, hwinner]
  cases report.analysis.isSignificant with
  | false => exact .inl rfl
  | true =>
      rcases report.winnerVariantId with _ | _ | ⟨unit, rest⟩
      · exact .inl rfl
      · exact .inl rfl
      · simp only [hfind]
        cases hwinner : report.variants.find? (·.variantId = unit :: rest) with
        | none => exact .inl rfl
        | some winner => exact .inr ⟨winner, List.mem_of_find?_eq_some hwinner, rfl, rfl⟩

/-- Behind the rows only the name of the winner is free text. -/
theorem blocks_closingLines :
    blocks (closingLines report.emptied) = blocks (closingLines report) ∨
      ∃ winner ∈ report.variants, ∃ shape : Text → List (LineKind × ℕ), ∃ rest,
        (shape = shapeOf ∨ shape = fun line => shapeOf (chomp line)) ∧
        blocks (closingLines report) = shapeOf [] :: shape (winnerLine winner) :: rest ∧
        blocks (closingLines report.emptied) =
          shapeOf [] :: shape (winnerLine { winner with variantName := [] }) :: rest := by
  have hmismatch : mismatchLines report.emptied = mismatchLines report := rfl
  unfold closingLines
  rw [hmismatch]
  rcases verdictLines_cases report with hverdict | ⟨winner, hmem, hverdict, hemptied⟩
  · exact .inl (by rw [hverdict])
  · right
    rw [hverdict, hemptied]
    cases mismatchLines report with
    | nil => exact ⟨winner, hmem, shapeOf, [], .inl rfl, rfl, rfl⟩
    | cons line lines =>
        exact ⟨winner, hmem, fun line => shapeOf (chomp line), blocks (line :: lines), .inr rfl,
          rfl, rfl⟩

variable [NumberText]

theorem shapes_hypothesisLines :
    (hypothesisLines report.hypothesis).map (fun line => shapeOf (chomp line)) =
      (hypothesisLines report.emptied.hypothesis).map fun line => shapeOf (chomp line) := by
  cases hhypothesis : report.hypothesis with
  | none => simp [ExperimentReport.emptied, hhypothesis]
  | some hypothesis =>
      have hobjective : shapeOf (chomp (objectiveLine hypothesis)) =
          shapeOf (chomp (objectiveLine { hypothesis with objective := [] })) := by
        have hescaped := unbroken_escapeMarkdown hypothesis.objective
        rw [objectiveLine_eq, objectiveLine_eq]
        exact isLabel_objective.shapeOf_chomp_eq_iff.mpr (by rwa [chomp_of_unbroken hescaped])
      have hemptied : report.emptied.hypothesis = some { hypothesis with objective := [] } := by
        simp [ExperimentReport.emptied, hhypothesis]
      simp only [hemptied, hypothesisLines, List.map_cons, hobjective]

/-- What follows the name of a variant in its row. -/
def rowTail (withRevenue : Bool) (v : ReportVariant) : Text :=
  ("| " : Text) ++ (" | " : Text).intercalate (figureCells withRevenue v) ++ (" |" : Text)

theorem variantRow_eq (withRevenue : Bool) (v : ReportVariant) :
    variantRow withRevenue v = ("| " : Text) ++ (v.variantName ++ 32 :: rowTail withRevenue v) := by
  have hcells : ∃ cell cells, figureCells withRevenue v = cell :: cells := ⟨_, _, rfl⟩
  obtain ⟨cell, cells, hcells⟩ := hcells
  rw [variantRow, rowTail, hcells, List.intercalate_cons_cons]
  simp only [List.append_assoc]
  rfl

theorem chomp_variantRow (withRevenue : Bool) (v : ReportVariant) :
    chomp (variantRow withRevenue v) = variantRow withRevenue v := by
  have hlast : (variantRow withRevenue v).getLast? = some 124 := by
    rw [variantRow, List.getLast?_append]
    rfl
  rw [chomp, hlast, if_neg (by decide)]

/-- The name of a variant is not seen in the shape of its row exactly when it is plain. -/
theorem shapeOf_variantRow_eq_iff (withRevenue : Bool) (v : ReportVariant) :
    shapeOf (chomp (variantRow withRevenue v)) =
        shapeOf (chomp (variantRow withRevenue { v with variantName := [] })) ↔
      Unbroken v.variantName ∧ separators v.variantName = 0 := by
  rw [chomp_variantRow, chomp_variantRow, variantRow_eq, variantRow_eq]
  exact shapeOf_row_eq_iff (rowTail withRevenue v)

theorem length_shapeOf_variantRow (withRevenue : Bool) (v : ReportVariant) :
    (shapeOf (chomp (variantRow withRevenue { v with variantName := [] }))).length ≤
      (shapeOf (chomp (variantRow withRevenue v))).length := by
  rw [chomp_variantRow, chomp_variantRow, variantRow_eq, variantRow_eq]
  change (shapeOf (("| " : Text) ++ ([] ++ 32 :: rowTail withRevenue v))).length ≤ _
  rw [length_shapeOf_row, length_shapeOf_row]
  simp [normalizeBreaks]

/-- What stands between the id of the test and the rows has no free text in its shape. -/
theorem shapes_openingLines :
    ∃ rest, (openingLines report).map (fun line => shapeOf (chomp line)) =
        shapeOf (chomp (titleLine report)) :: shapeOf (chomp []) ::
          shapeOf (chomp (testIdLine report)) :: rest ∧
      (openingLines report.emptied).map (fun line => shapeOf (chomp line)) =
        shapeOf (chomp (titleLine report.emptied)) :: shapeOf (chomp []) ::
          shapeOf (chomp (testIdLine report.emptied)) :: rest := by
  have hmetadata : metadataLines report.emptied = metadataLines report := rfl
  have hanalysis : analysisLines report.emptied = analysisLines report := rfl
  refine ⟨(metadataLines report ++ hypothesisLines report.hypothesis ++ analysisLines report ++
    tableHead report).map fun line => shapeOf (chomp line), ?_, ?_⟩
  · simp only [openingLines, List.map_append, List.append_assoc]
    rfl
  · simp only [openingLines, hmetadata, hanalysis, tableHead_emptied, List.map_append,
      List.append_assoc, ← shapes_hypothesisLines]
    rfl

theorem variantRows_emptied : variantRows report.emptied =
    report.variants.map fun v => variantRow (hasRevenue report) { v with variantName := [] } := by
  rw [variantRows, hasRevenue_emptied]
  simp [ExperimentReport.emptied, Function.comp_def]

theorem shapeOf_reportToMarkdown :
    shapeOf (reportToMarkdown report) =
      ((openingLines report ++ variantRows report).map (fun line => shapeOf (chomp line)) ++
        blocks (closingLines report)).flatten := by
  have hclosing : closingLines report ≠ [] := List.cons_ne_nil _ _
  rw [reportToMarkdown, shapeOf_intercalate, blocks_append _ hclosing]

theorem shapes_variantRows :
    (variantRows report).map (fun line => shapeOf (chomp line)) =
        (report.variants.map fun v => shapeOf (chomp (variantRow (hasRevenue report) v))) ∧
      (variantRows report.emptied).map (fun line => shapeOf (chomp line)) =
        report.variants.map fun v =>
          shapeOf (chomp (variantRow (hasRevenue report) { v with variantName := [] })) := by
  rw [variantRows_emptied, variantRows, List.map_map, List.map_map]
  exact ⟨rfl, rfl⟩

theorem blocks_longer :
    List.Forall₂ (fun part part' => part'.length ≤ part.length)
      ((openingLines report ++ variantRows report).map (fun line => shapeOf (chomp line)) ++
        blocks (closingLines report))
      ((openingLines report.emptied ++ variantRows report.emptied).map
          (fun line => shapeOf (chomp line)) ++ blocks (closingLines report.emptied)) := by
  have hrefl : ∀ parts : List (List (LineKind × ℕ)),
      List.Forall₂ (fun part part' => part'.length ≤ part.length) parts parts :=
    fun parts => List.forall₂_same.mpr fun _ _ => le_rfl
  obtain ⟨rest, hopening, hopening'⟩ := shapes_openingLines report
  rw [List.map_append, List.map_append, hopening, hopening', (shapes_variantRows report).1,
    (shapes_variantRows report).2]
  refine List.rel_append (List.rel_append ?_ ?_) ?_
  · exact .cons (length_titleLine_le report)
      (.cons le_rfl (.cons (length_testIdLine_le report) (hrefl rest)))
  · rw [List.forall₂_map_left_iff, List.forall₂_map_right_iff]
    exact List.forall₂_same.mpr fun v _ => length_shapeOf_variantRow _ v
  · rcases blocks_closingLines report with heq | ⟨winner, -, shape, more, hshape, heq, heq'⟩
    · rw [heq]
      exact hrefl _
    · rw [heq, heq']
      refine .cons le_rfl (.cons ?_ (hrefl more))
      rw [winnerLine_eq, winnerLine_eq]
      rcases hshape with rfl | rfl
      · exact isLabel_winner.length_le winner.variantName
      · exact isLabel_winner.length_chomp_le winner.variantName

/-- Free text is not seen in the shape of the rendering exactly where it is plain. -/
theorem shapeOf_eq_emptied_iff :
    shapeOf (reportToMarkdown report) = shapeOf (reportToMarkdown report.emptied) ↔
      report.Plain := by
  obtain ⟨rest, hopening, hopening'⟩ := shapes_openingLines report
  obtain ⟨hrows, hrows'⟩ := shapes_variantRows report
  have hlonger := blocks_longer report
  rw [shapeOf_reportToMarkdown, shapeOf_reportToMarkdown]
  rw [List.map_append, List.map_append, hopening, hopening', hrows, hrows'] at hlonger ⊢
  constructor
  · intro h
    have hblocks := eq_of_flatten_eq hlonger h
    obtain ⟨hfront, -⟩ := List.append_inj hblocks (by simp)
    obtain ⟨hhead, hvariants⟩ := List.append_inj hfront (by simp)
    obtain ⟨htitle, hhead⟩ := List.cons.inj hhead
    obtain ⟨hid, -⟩ := List.cons.inj (List.cons.inj hhead).2
    exact
      { testName := (shapeOf_titleLine_eq_iff report).mp htitle
        testId := (shapeOf_testIdLine_eq_iff report).mp hid
        variants := fun v hv => (shapeOf_variantRow_eq_iff _ v).mp (List.map_inj_left.mp hvariants v hv) }
  · intro hplain
    have htitle := (shapeOf_titleLine_eq_iff report).mpr hplain.testName
    have hid := (shapeOf_testIdLine_eq_iff report).mpr hplain.testId
    have hvariants : ∀ v ∈ report.variants,
        shapeOf (chomp (variantRow (hasRevenue report) v)) =
          shapeOf (chomp (variantRow (hasRevenue report) { v with variantName := [] })) :=
      fun v hv => (shapeOf_variantRow_eq_iff _ v).mpr (hplain.variants v hv)
    have hclosing : blocks (closingLines report) = blocks (closingLines report.emptied) := by
      rcases blocks_closingLines report with heq | ⟨winner, hmem, shape, more, hshape, heq, heq'⟩
      · exact heq.symm
      · have hname := (hplain.variants winner hmem).1
        have hchomp : Unbroken (chomp winner.variantName) := by rwa [chomp_of_unbroken hname]
        have hwinner : shape (winnerLine winner) =
            shape (winnerLine { winner with variantName := [] }) := by
          rw [winnerLine_eq, winnerLine_eq]
          rcases hshape with rfl | rfl
          · exact isLabel_winner.shapeOf_eq_iff.mpr hname
          · exact isLabel_winner.shapeOf_chomp_eq_iff.mpr hchomp
        rw [heq, heq', hwinner]
    rw [htitle, hid, List.map_congr_left hvariants, hclosing]

end Emptied

/-! ## Main result -/

/-- Two reports are alike but for the name and the id of the test, the names of the
variants and the objective. -/
def DifferInFreeText (report other : ExperimentReport) : Prop := report.emptied = other.emptied

/-- The rendering of a report has the shape of the rendering of every plain report that
differs from it in free text alone, exactly when its own free text is plain. -/
theorem report_shape_iff [NumberText] (report : ExperimentReport) :
    (∀ other, DifferInFreeText report other → other.Plain →
      shapeOf (reportToMarkdown report) = shapeOf (reportToMarkdown other)) ↔ report.Plain := by
  constructor
  · intro h
    exact (shapeOf_eq_emptied_iff report).mp (h report.emptied (by
      simp [DifferInFreeText, ExperimentReport.emptied, Function.comp_def]) report.plain_emptied)
  · intro hplain other hdiffer hother
    rw [(shapeOf_eq_emptied_iff report).mpr hplain, hdiffer,
      ← (shapeOf_eq_emptied_iff other).mpr hother]

/-! ## A name with a line break -/

/-- The texts of the numbers that are not negative, for the digits asked for. -/
@[reducible]
def plainNumberText : NumberText where
  toFixed x digits :=
    let scaled := (Float.round (x * Float.ofNat (10 ^ digits))).toUInt64.toNat
    Text.ofNat (scaled / 10 ^ digits) ++ (if digits = 0 then [] else [46]) ++
      padded digits (scaled % 10 ^ digits)
  toText x := Text.ofNat x.toUInt64.toNat

def declaredHypothesis : Members :=
  [("objective", .string "More clicks"),
    ("primaryMetric", .object [("type", .string "click_rate"), ("direction", .string "maximize")]),
    ("expectedLift", .object [("kind", .string "relative"),
      ("value", .number (.finite ⟨false, 5, -2, by decide⟩))])]

def namedTest (name variantName : Text) : Analysis.AnalyzedTest where
  toAbTest := { sampleTest with
    name
    variants := [⟨"variant_A", variantName, 50, ⟨none, none⟩⟩, ⟨"variant_B", "B", 50, ⟨none, none⟩⟩] }
  confidenceThreshold := 0.95
  hypothesis := some declaredHypothesis

def sampleResult (variantId : Text) (clicks clickRate : Float) : Analysis.VariantFigures where
  variantId := variantId
  sampleSize := 1000
  opens := 300
  clicks := clicks
  conversions := 0
  openRate := 30
  clickRate := clickRate
  conversionRate := 0
  revenue := none

def sampleAnalysis : ReportedAnalysis where
  zScore := 1.5
  pValue := 0.13
  isSignificant := false
  confidenceLevel := 0.95
  sampleSize := 2000

/-- The report of the test under some names. -/
def namedReport (name variantName : Text) : ExperimentReport where
  testId := "test_1"
  testName := name
  status := .running
  confidenceLevel := 0.95
  primaryMetric := "click_rate"
  primaryMetricDirection := some .maximize
  createdAt := { time := 0 }
  updatedAt := { time := 0 }
  startedAt := some "1970-01-01T00:00:00.000Z"
  endsAt := none
  winnerVariantId := none
  analysis := sampleAnalysis
  variants := [⟨"variant_A", variantName, 1000, 10, 0, 30, none, none⟩,
    ⟨"variant_B", "B", 1000, 12, 0, 30, none, none⟩]
  revenueCurrency := none
  srmPassed := none
  srmPValue := none
  fixedHorizonReasonCodes := []
  hypothesis := some (reportedHypothesis declaredHypothesis)
  preRegistration := .notAvailable

theorem differInFreeText_namedReport (name name' variantName variantName' : Text) :
    DifferInFreeText (namedReport name variantName) (namedReport name' variantName') := rfl

theorem plain_namedReport : (namedReport "Spring" "A").Plain where
  testName := by decide
  testId := by decide
  variants := by
    intro v hv
    simp only [namedReport, List.mem_cons, List.not_mem_nil, or_false] at hv
    rcases hv with rfl | rfl <;> decide

theorem shapeOf_namedReport_ne [NumberText] {name variantName : Text}
    (h : ¬ (namedReport name variantName).Plain) :
    shapeOf (reportToMarkdown (namedReport "Spring" "A")) ≠
      shapeOf (reportToMarkdown (namedReport name variantName)) := by
  intro hshape
  rw [(shapeOf_eq_emptied_iff _).mpr plain_namedReport,
    differInFreeText_namedReport "Spring" name "A" variantName] at hshape
  exact h ((shapeOf_eq_emptied_iff _).mp hshape.symm)

/-- A name with a line feed adds a line to the report, and a variant with a separator in
its name adds a cell to its row. -/
theorem report_shape_changes :
    letI := plainNumberText
    let broken : Text := "Spring\n- **Status**: completed"
    let results := [sampleResult "variant_A" 100 10, sampleResult "variant_B" 120 12]
    (∀ [Sha256] (name variantName : Text),
      buildExperimentReport (namedTest name variantName) sampleAnalysis results =
        some (namedReport name variantName)) ∧
    DifferInFreeText (namedReport "Spring" "A") (namedReport broken "A") ∧
    shapeOf (reportToMarkdown (namedReport "Spring" "A")) ≠
      shapeOf (reportToMarkdown (namedReport broken "A")) ∧
    DifferInFreeText (namedReport "Spring" "A") (namedReport "Spring" "A|B") ∧
    shapeOf (reportToMarkdown (namedReport "Spring" "A")) ≠
      shapeOf (reportToMarkdown (namedReport "Spring" "A|B")) := by
  let := plainNumberText
  refine ⟨fun name variantName => ?_, rfl, ?_, rfl, ?_⟩
  · rfl
  · exact shapeOf_namedReport_ne fun hplain => absurd hplain.testName (by decide)
  · exact shapeOf_namedReport_ne fun hplain =>
      absurd (hplain.variants _ List.mem_cons_self).2 (by decide)

end ListmonkOps.Experiment
