/-
Creating and launching a test.

A create request goes through phases, each of which ends with a write of the
record to the store. What a phase did on the server before it threw, or before the
process died, stays there, and a retry of the request resumes from the record that
was written last.
-/

import ListmonkOps.Experiment.Provisioning

namespace ListmonkOps.Experiment

open ListmonkOps.Math ListmonkOps.Runtime
open Fallible (Within within_bind within_lift)

/-! ## Effects -/

/-- What an operation does: it calls the client, and it writes its record to the
store. -/
inductive Effect where
  | remote (call : Call)
  | commit (test : AbTest)
  deriving DecidableEq

/-- An operation on a record of the store. -/
abbrev Stored (α : Type) := Fallible Effect Answer JsValue α

/-- The calls of the client within an operation. -/
def onClient {α : Type} (phase : Remote α) : Stored α := ExceptT.mk (phase.run.embed .remote)

/-- Write the record; a write that fails is thrown on. -/
def commit (test : AbTest) : Stored Unit :=
  ExceptT.mk (Program.call (.commit test) fun
    | .returned _ => .done (.ok ())
    | .thrown error => .done (.error error))

/-- A phase that returns ends with a write of its record. -/
def withStored (phase : Remote AbTest) : Stored AbTest := do
  let test ← onClient phase
  commit test
  return test

/-! ## The request -/

def validationError (message : Text) : JsValue := .error "ValidationError" message []

/-- The shares of the variants add up to the whole, up to a hundredth. -/
def sumsToWhole [AssignmentPlatform] (variants : List VariantRequest) : Bool :=
  let total := AssignmentPlatform.weightSum (variants.map (·.percentage))
  99.99 ≤ total && total ≤ 100.01

def validateInput [AssignmentPlatform] (config : AbTestConfig) : Except JsValue Unit := do
  if Text.trim config.name = [] then throw (validationError "Test name is required")
  if config.variants.length < 2 then
    throw (validationError "At least 2 variants are required for A/B testing")
  if 3 < config.variants.length then
    throw (validationError "Maximum 3 variants supported (A/B/C testing)")
  if !sumsToWhole config.variants then
    -- The message also states the total.
    throw (validationError "Variant percentages must sum to 100%")
  if config.variants.any fun variant => Text.trim variant.name = [] then
    throw (validationError "All variants must have a name")
  if config.variants.any fun variant => variant.percentage ≤ 0 || 100 < variant.percentage then
    throw (validationError "Variant percentages must be between 0 and 100")
  if config.baseConfig.lists = [] then throw (validationError "At least one list is required")

def validateConfig [AssignmentPlatform] (config : AbTestConfig) : Except JsValue Unit := do
  if config.variants.length < 2 then
    throw (.ofMessage "At least 2 variants are required for A/B testing")
  if 3 < config.variants.length then
    throw (.ofMessage "Maximum 3 variants allowed (A/B/C testing)")
  if !sumsToWhole config.variants then
    -- The message also states the total.
    throw (.ofMessage "Variant percentages must sum to 100%")
  if config.testGroupPercentage.any fun percentage => percentage ≤ 0 || 100 < percentage then
    throw (.ofMessage "testGroupPercentage must be a finite number in (0, 100]")
  if config.minimumTestSampleSize.any fun size => size = 0 || maxSafeInteger < size then
    throw (.ofMessage "minimumTestSampleSize must be a positive integer")
  if config.durationHours.any (· ≤ 0) then
    throw (.ofMessage "durationHours must be a positive finite number")

def AbTestConfig.mode (config : AbTestConfig) : TestingMode := config.testingMode.getD .holdout

/-- The share of the audience that is tested. -/
def AbTestConfig.percentage (config : AbTestConfig) : ℚ :=
  config.testGroupPercentage.getD (if config.mode = .holdout then 10 else 100)

/-- The errors of a configuration for an audience. -/
def configurationErrors (totalSubscribers : ℕ) (testPercentage : ℚ) (variantCount : ℕ) :
    List Text :=
  (if totalSubscribers < 1 then ["Total subscribers must be greater than 0"] else []) ++
  (if testPercentage < 1 ∨ 100 < testPercentage then
    ["Test group percentage must be between 1% and 100%"] else []) ++
  if variantCount < 2 ∨ 3 < variantCount then ["Variant count must be between 2 and 3"] else []

def validateTestConfiguration (totalSubscribers : ℕ) (testPercentage : ℚ) (variantCount : ℕ) :
    Except JsValue Unit :=
  match configurationErrors totalSubscribers testPercentage variantCount with
  | [] => .ok ()
  | errors =>
      .error (.ofMessage (("Test configuration invalid: " : Text) ++
        List.intercalate ", " errors))

/-! ## The intent -/

def variantLabels : List Text := ["A", "B", "C"]

def variantIdOf (testId : Text) (index : ℕ) : Text :=
  ("variant_" : Text) ++ (variantLabels[index]?).getD "undefined" ++ (("_" : Text) ++ testId)

/-- The variants of a request with their ids. -/
def labelledVariants (testId : Text) (variants : List VariantRequest) : List Variant :=
  variants.zipIdx.map fun (variant, index) =>
    { id := variantIdOf testId index
      name := variant.name
      percentage := variant.percentage
      contentOverrides := variant.contentOverrides }

/-- The digest of a request. -/
class RequestFingerprint where
  fingerprint : AbTestConfig → Text

/-- The record of a request that nothing has been done for yet. -/
def draftTest [RequestFingerprint] (config : AbTestConfig) (testId : Text) (now : ℤ) : AbTest where
  id := testId
  name := config.name
  idempotencyKey := config.idempotencyKey
  idempotencyFingerprint := some (RequestFingerprint.fingerprint config)
  pendingCreate := some config
  provisionedAt := none
  variants := labelledVariants testId config.variants
  status := .draft
  winnerVariantId := none
  createdAt := now
  updatedAt := now
  baseConfig := config.baseConfig
  testingMode := config.mode
  testGroupPercentage := config.percentage
  testGroupSize := 0
  holdoutGroupSize := 0
  autoDeployWinner := config.autoDeployWinner
  campaignMappings := []
  testListMappings := []
  holdoutListId := none
  winnerCampaignId := none
  assignmentSeed := none
  audienceSnapshot := none
  minimumTestSampleSize := none
  assignmentProvenance := none
  assignmentManifest := none
  durationHours := none
  launchAt := none
  startedAt := none
  endsAt := none

def idempotencyConflict (key : Option Text) : JsValue :=
  .error "AbTestConflictError"
    (("Idempotency key already used by a different create request: " : Text) ++ key.getD []) []

section Create

variable [AssignmentPlatform] [RequestFingerprint]

/-- The record of a request, and whether the request was carried out before: the one
under its key, or a new draft. -/
def recordCreateIntent (existing : Option AbTest) (config : AbTestConfig) (testId : Text)
    (now : ℤ) : Remote (AbTest × Bool) := do
  ofExcept (validateInput config)
  match existing with
  | some test =>
      if test.idempotencyFingerprint.any (· ≠ RequestFingerprint.fingerprint config) then
        throw (idempotencyConflict config.idempotencyKey)
      else return (test, test.provisionedAt.isSome || test.pendingCreate.isNone)
  | none =>
      ofExcept (validateConfig config)
      let totalSubscribers ← getTotalSubscribers config.baseConfig.lists now
      ofExcept (validateTestConfiguration totalSubscribers config.percentage config.variants.length)
      return (draftTest config testId now, false)

/-! ## The operations -/

structure CreateChance extends Randomness where
  testId : Text

/-- The clock at the phases of a create. -/
structure CreateClock where
  intent : ℤ
  segmentation : ℤ
  window : ℤ
  finish : ℤ

/-- The provisioning of a draft; a record that was changed in place is lost where it
throws. -/
def provisionAbTestIntent (test : AbTest) (random : Randomness) (now : ℤ) : Remote AbTest := do
  let (test, outcome) ← ExceptT.lift (provisionTest test random now)
  ofExcept outcome
  return test

def provisionIntent (intent : AbTest) (random : Randomness) (clock : CreateClock) :
    Stored AbTest := do
  let test ← withStored (provisionCampaignsPhase intent)
  if test.pendingCreate.isSome then
    let test ← withStored (ofExcept (.ok (recordSegmentationSeedPhase test random.seed)))
    let test ← withStored (provisionSegmentationPhase test random clock.segmentation)
    let test ← withStored (ofExcept (recordAutoLaunchWindowPhase test clock.window))
    withStored (provisionAbTestIntent test random clock.finish)
  else withStored (provisionAbTestIntent test random clock.finish)

/-- Create a test: the record, and whether it is new. -/
def executeCreateAbTest (existing : Option AbTest) (config : AbTestConfig) (chance : CreateChance)
    (clock : CreateClock) : Stored (AbTest × Bool) := do
  let (intent, replayed) ← onClient (recordCreateIntent existing config chance.testId clock.intent)
  commit intent
  if replayed then return (intent, false)
  else
    let test ← provisionIntent intent chance.toRandomness clock
    return (test, true)

end Create

/-- `z.number().int().positive()`. -/
def positiveIntegerSchema (n : ℤ) : Bool := 0 < n && n ≤ maxSafeInteger

section Within

variable {α : Type} {P : Call → Prop} {E : JsValue → Prop}

theorem within_await {call : Call} {Q : JsValue → Prop} :
    Within P (await call) Q E ↔
      P call ∧ (∀ response, Q response) ∧ ∀ error, E error := by
  constructor
  · exact fun h => ⟨h.1, fun response => h.2 (.returned response), fun error => h.2 (.thrown error)⟩
  · rintro ⟨hcall, hreturns, hthrows⟩
    refine ⟨hcall, fun answer => ?_⟩
    cases answer with
    | returned response => exact hreturns response
    | thrown error => exact hthrows error

theorem within_ofExcept {outcome : Except JsValue α} {Q : α → Prop} :
    Within P (ofExcept outcome) Q E ↔
      (∀ a, outcome = .ok a → Q a) ∧ ∀ error, outcome = .error error → E error := by
  cases outcome with
  | ok a => exact ⟨fun h => ⟨fun b hb => Except.ok.inj hb ▸ h, nofun⟩, fun h => h.1 a rfl⟩
  | error error => exact ⟨fun h => ⟨nofun, fun e he => Except.error.inj he ▸ h⟩, fun h => h.2 error rfl⟩

end Within

end ListmonkOps.Experiment
