/-
The A/B test record.

The record is what the store keeps for one test: its configuration, the status
it is in, and the ids of the campaigns and lists on the server that belong to
it. Hypotheses, metrics and stratification tables are not part of it here, as
nothing that is modelled reads them.
-/

import ListmonkOps.Runtime.Text
import Mathlib.Data.Rat.Defs

namespace ListmonkOps.Experiment

open ListmonkOps.Runtime

inductive Status where
  | draft
  | testing
  | scheduled
  | running
  | analyzing
  | deploying
  | cancelling
  | completed
  | inconclusive
  | cancelled
  | failed
  deriving DecidableEq

/-- The statuses a test does not leave without outside intervention. -/
def terminalStatuses : List Status := [.completed, .cancelled, .inconclusive, .failed]

inductive TestingMode where
  | holdout
  | fullSplit
  deriving DecidableEq

/-- What a variant changes about the base campaign. -/
structure ContentOverrides where
  subject : Option Text
  body : Option Text
  deriving DecidableEq

structure Variant where
  id : Text
  name : Text
  percentage : ℚ
  contentOverrides : ContentOverrides
  deriving DecidableEq

structure BaseConfig where
  subject : Text
  body : Text
  lists : List ℤ
  templateId : Option ℤ
  deriving DecidableEq

structure CampaignMapping where
  variantId : Text
  campaignId : ℤ
  deriving DecidableEq

structure ListMapping where
  variantId : Text
  listId : ℤ
  deriving DecidableEq

/-- A variant as it is requested; it gets its id with the test. -/
structure VariantRequest where
  name : Text
  percentage : ℚ
  contentOverrides : ContentOverrides
  deriving DecidableEq

/-- A create request. A draft keeps it until its provisioning is complete. -/
structure AbTestConfig where
  name : Text
  idempotencyKey : Option Text
  variants : List VariantRequest
  baseConfig : BaseConfig
  testingMode : Option TestingMode
  testGroupPercentage : Option ℚ
  minimumTestSampleSize : Option ℕ
  autoLaunch : Bool
  autoDeployWinner : Bool
  durationHours : Option ℚ
  launchAt : Option DateTime
  deriving DecidableEq

/-- The audience a test was provisioned for. -/
structure AudienceSnapshot where
  capturedAt : DateTime
  sourceListIds : List ℤ
  subscriberCount : ℕ
  subscriberChecksum : Text
  deriving DecidableEq

inductive GroupKind where
  | variant (variantId : Text)
  | holdout
  deriving DecidableEq

structure AssignmentGroup where
  kind : GroupKind
  expectedCount : ℕ
  /-- Over the sorted UUIDs of the group. -/
  subscriberChecksum : Text
  deriving DecidableEq

/-- The split of the audience that a seed stands for. -/
structure AssignmentManifest where
  seed : Text
  audienceChecksum : Text
  groups : List AssignmentGroup
  assignedCount : ℕ
  deriving DecidableEq

inductive AssignmentProvenance where
  | manifestV1
  | legacyUnavailable
  deriving DecidableEq

structure AbTest where
  id : Text
  name : Text
  idempotencyKey : Option Text
  idempotencyFingerprint : Option Text
  pendingCreate : Option AbTestConfig
  provisionedAt : Option DateTime
  variants : List Variant
  status : Status
  winnerVariantId : Option Text
  createdAt : ℤ
  updatedAt : ℤ
  baseConfig : BaseConfig
  testingMode : TestingMode
  testGroupPercentage : ℚ
  testGroupSize : ℕ
  holdoutGroupSize : ℕ
  autoDeployWinner : Bool
  campaignMappings : List CampaignMapping
  testListMappings : List ListMapping
  holdoutListId : Option ℤ
  winnerCampaignId : Option ℤ
  assignmentSeed : Option Text
  audienceSnapshot : Option AudienceSnapshot
  minimumTestSampleSize : Option ℕ
  assignmentProvenance : Option AssignmentProvenance
  assignmentManifest : Option AssignmentManifest
  durationHours : Option ℚ
  launchAt : Option DateTime
  startedAt : Option DateTime
  endsAt : Option DateTime
  deriving DecidableEq

end ListmonkOps.Experiment
