/-
Provisioning a test.

A create request becomes a draft in the store before anything happens on the
server; the campaigns, the split of the audience and the send window are then
provisioned in phases, each of which commits what it has done. A retry finds the
draft by its key and the campaigns and lists by their tags.
-/

import ListmonkOps.Experiment.Deployment
import ListmonkOps.Experiment.Segmentation
import ListmonkOps.Math.Doubles

namespace ListmonkOps.Experiment

open ListmonkOps.Math ListmonkOps.Runtime

/-! ## Campaigns -/

def testCampaignBody (test : AbTest) (baseConfig : BaseConfig) (variant : Variant) :
    CampaignBody where
  name := test.name ++ (" - " : Text) ++ variant.name
  subject := orBase variant.contentOverrides.subject baseConfig.subject
  body := orBase variant.contentOverrides.body baseConfig.body
  lists := baseConfig.lists
  templateId := baseConfig.templateId
  tags := [testTag test.id, variantTag variant.id]

def createCampaign (test : AbTest) (baseConfig : BaseConfig) (variant : Variant) : Remote ℤ := do
  let result ← await (.campaignCreate (testCampaignBody test baseConfig variant))
  let context : Text := ("Failed to create campaign for variant " : Text) ++ variant.name
  ofExcept do
    let created ← unwrapData result context
    requireNumericId (← created.property "id") context

/-- Create one campaign after another; the campaigns so far are returned also where
a creation throws. -/
def createCampaigns (test : AbTest) (baseConfig : BaseConfig) :
    List Variant → Program Call Answer (List CampaignMapping × Except JsValue Unit)
  | [] => return ([], .ok ())
  | variant :: variants => do
      match ← (createCampaign test baseConfig variant).run with
      | .error error => return ([], .error error)
      | .ok campaignId =>
          let (created, outcome) ← createCampaigns test baseConfig variants
          return (⟨variant.id, campaignId⟩ :: created, outcome)

/-- The campaigns of the variants. When one cannot be created, the others of the
attempt are deleted as far as possible. -/
def createTestCampaigns (test : AbTest) (baseConfig : BaseConfig) :
    Remote (List CampaignMapping) := do
  match ← ExceptT.lift (createCampaigns test baseConfig test.variants) with
  | (created, .ok ()) => return created
  | (created, .error error) =>
      let _ ← ExceptT.lift (deleteCampaignsBestEffort (created.map (·.campaignId)))
      throw error

def createTestCampaignsForVariants (test : AbTest) (baseConfig : BaseConfig)
    (variantIds : List Text) : Remote (List CampaignMapping) := do
  let selected := test.variants.filter (·.id ∈ variantIds)
  if selected.length ≠ variantIds.length then
    throw (.ofMessage "Unknown variant ids in campaign provisioning")
  else
    createTestCampaigns { test with variants := selected } baseConfig

/-! ## Launching -/

/-- A response with a member `error` is a failure, whatever it is. -/
def refuseError (response : JsValue) (context : Text) : Except JsValue Unit :=
  if response.members?.isNone then
    .error (.typeError "Cannot use 'in' operator to search for 'error'")
  else
    match response.member? "error" with
    | some error => .error (.ofMessage (context ++ (": " : Text) ++ formatError error))
    | none => .ok ()

/-- Give a campaign its list and its time, and schedule it. -/
def launchCampaign (listMappings : List ListMapping) (sendAt : Option DateTime)
    (campaign : CampaignMapping) : Remote Unit := do
  match listMappings.find? (·.variantId = campaign.variantId) with
  | none =>
      throw (.ofMessage (("No list mapping found for variant " : Text) ++ campaign.variantId))
  | some listMapping =>
      let id := (JsValue.number campaign.campaignId).toText
      let updated ← await (.campaignUpdate campaign.campaignId [listMapping.listId] sendAt)
      ofExcept (refuseError updated (("Failed to update campaign " : Text) ++ id))
      let status : Text := if sendAt.isSome then "scheduled" else "running"
      let moved ← await (.campaignUpdateStatus campaign.campaignId status)
      ofExcept (refuseError moved (("Failed to update status for campaign " : Text) ++ id))

def launchTest (campaignMappings : List CampaignMapping) (listMappings : List ListMapping)
    (sendAt : Option DateTime) : Remote Unit := do
  let _ ← campaignMappings.mapM (launchCampaign listMappings sendAt)

/-- The lead time of a launch without a planned time, in seconds. -/
def safetyLeadSeconds : ℤ := 60

/-- The time value of a number of milliseconds, where it is in range. -/
def timeClip (time : ℚ) : Option ℤ :=
  if -8640000000000000 ≤ time ∧ time ≤ 8640000000000000 then
    some (if 0 ≤ time then time.floor else time.ceil)
  else none

/-- `new Date(time).toISOString()`. -/
def isoDate (time : ℚ) : Except JsValue DateTime :=
  match timeClip time with
  | some time => .ok { time }
  | none => .error (.error "RangeError" "Invalid time value" [])

/-- The planned time, or a time shortly after now. -/
def sendAtOf (launchAt : Option DateTime) (now : ℤ) : Except JsValue DateTime :=
  match launchAt with
  | some launchAt => .ok launchAt
  | none => isoDate (now + safetyLeadSeconds * 1000 : ℤ)

/-- `new Date(date).getTime() + hours * 3600 * 1000`, on doubles. A sum that overflows
them is beyond the dates as well. -/
def addHours (time : ℤ) (hours : ℚ) : ℚ :=
  Double.ofRat (time + Double.ofRat (Double.ofRat (hours * 3600) * 1000))

/-- The end of a test of a given duration. -/
def endsAtOf (sendAt : DateTime) (durationHours : Option ℚ) (endsAt : Option DateTime) :
    Except JsValue (Option DateTime) :=
  match durationHours with
  | none => .ok endsAt
  | some hours => (isoDate (addHours sendAt.time hours)).map some

/-- What the request says about the course of the test. -/
def applyConfig (test : AbTest) (config : AbTestConfig) : AbTest :=
  { test with
    durationHours := config.durationHours.or test.durationHours
    minimumTestSampleSize := config.minimumTestSampleSize.or test.minimumTestSampleSize
    launchAt := config.launchAt.or test.launchAt }

def markProvisioned (test : AbTest) (now : ℤ) : AbTest :=
  { test with provisionedAt := some { time := now }, updatedAt := now, pendingCreate := none }

/-- Schedule the campaigns of a test that launches itself. The record is changed in
place, so it is returned also where something throws. -/
def autoLaunch (test : AbTest) (sendAt : DateTime) (now : ℤ) :
    Program Call Answer (AbTest × Except JsValue Unit) := do
  match ← (launchTest test.campaignMappings test.testListMappings (some sendAt)).run with
  | .error error => return (test, .error error)
  | .ok () =>
      let scheduled := { test with
        status := .scheduled, launchAt := some sendAt, startedAt := some { time := now } }
      match endsAtOf sendAt test.durationHours test.endsAt with
      | .error error => return (scheduled, .error error)
      | .ok endsAt => return ({ scheduled with endsAt }, .ok ())

def finalizeProvisionedTest (test : AbTest) (config : AbTestConfig) (now : ℤ) :
    Program Call Answer (AbTest × Except JsValue Unit) := do
  let test := applyConfig test config
  if config.autoLaunch then
    match sendAtOf (test.launchAt.or config.launchAt) now with
    | .error error => return (test, .error error)
    | .ok sendAt =>
        match ← autoLaunch { test with launchAt := some sendAt } sendAt now with
        | (test, .error error) => return (test, .error error)
        | (test, .ok ()) => return (markProvisioned test now, .ok ())
  else
    return (markProvisioned test now, .ok ())

/-! ## Phases -/

section Phases

variable [AssignmentPlatform]

/-- The campaigns that earlier attempts left for the variants. -/
def reconcileCampaigns (testId : Text) (tagged : List TaggedResource) :
    List Variant → List CampaignMapping → Except JsValue (List CampaignMapping)
  | [], mappings => .ok mappings
  | variant :: variants, mappings =>
      match tagged.filter (variantTag variant.id ∈ ·.tags) with
      | [] => reconcileCampaigns testId tagged variants mappings
      | [campaign] =>
          if mappings.any (·.campaignId = campaign.id) then
            .error (.ofMessage (("Campaign " : Text) ++ (JsValue.number campaign.id).toText ++
              (" is tagged for multiple variants of test " : Text) ++ testId ++
              ("; correct the tags before retrying" : Text)))
          else reconcileCampaigns testId tagged variants (mappings ++ [⟨variant.id, campaign.id⟩])
      | _ =>
          .error (.ofMessage (("Ambiguous campaigns tagged " : Text) ++ variantTag variant.id ++
            (" for test " : Text) ++ testId ++ ("; resolve the duplicates before retrying" : Text)))

/-- The campaigns: adopted by their tags, the missing ones created. -/
def provisionCampaignsPhase (test : AbTest) : Remote AbTest := do
  if test.provisionedAt.isSome ∨ test.campaignMappings ≠ [] then return test
  else
    match test.pendingCreate with
    | none => return test
    | some config =>
        let tagged ← findCampaignsByTestTag test.id
        let mappings ← ofExcept (reconcileCampaigns test.id tagged test.variants [])
        if mappings.length < test.variants.length then
          let missing := (test.variants.filter fun variant =>
            !mappings.any (·.variantId = variant.id)).map (·.id)
          let created ← createTestCampaignsForVariants test config.baseConfig missing
          return { test with campaignMappings := mappings ++ created }
        else return { test with campaignMappings := mappings }

def recordSegmentationSeedPhase (test : AbTest) (seed : Text) : AbTest :=
  if test.provisionedAt.isSome ∨ test.assignmentSeed.isSome ∨ test.testingMode ≠ .holdout then test
  else { test with assignmentSeed := some seed }

/-- The send window of a test that launches itself. -/
def recordAutoLaunchWindowPhase (test : AbTest) (now : ℤ) : Except JsValue AbTest :=
  if test.provisionedAt.isSome then pure test
  else
    match test.pendingCreate with
    | none => pure test
    | some config =>
        if config.autoLaunch then do
          let sendAt ← sendAtOf (test.launchAt.or config.launchAt) now
          pure { test with launchAt := some sendAt }
        else pure test

/-- What a segmentation leaves on the record. -/
def recordSegmentation (test : AbTest) (result : SegmentationResult) : AbTest :=
  { test with
    testListMappings := result.testListMappings
    holdoutListId := some result.holdoutListId
    testGroupSize := result.testGroupSize
    holdoutGroupSize := result.holdoutGroupSize
    assignmentSeed := some result.assignmentSeed
    audienceSnapshot := some result.audienceSnapshot
    assignmentManifest := some result.assignmentManifest
    assignmentProvenance := some .manifestV1 }

/-- The chance of one operation: a fresh seed and a shuffle. -/
structure Randomness where
  seed : Text
  shuffle : List AudienceMember → List AudienceMember

def provisionSegmentationPhase (test : AbTest) (random : Randomness) (now : ℤ) :
    Remote AbTest := do
  if test.provisionedAt.isSome ∨ test.campaignMappings = [] then return test
  else if test.testListMappings ≠ [] then return test
  else
    match test.pendingCreate with
    | none => return test
    | some config =>
        if test.testingMode = .holdout then
          let existingLists ← findListsByTestTag test.id
          let result ← segmentSubscribersForHoldout config.baseConfig.lists test.variants
            test.testGroupPercentage test.id (test.assignmentSeed.getD random.seed) existingLists now
          return recordSegmentation test result
        else
          let testListMappings ← segmentSubscribers config.baseConfig.lists test.variants test.id
            random.shuffle now
          let total ← getTotalSubscribers config.baseConfig.lists now
          return { test with testListMappings, testGroupSize := total, holdoutGroupSize := 0,
                             assignmentProvenance := some .legacyUnavailable }

/-! ## Provisioning in one go -/

/-- The resources that an attempt created itself. -/
structure ProvisionedResources where
  campaignIds : List ℤ := []
  testListIds : List ℤ := []
  holdoutListId : Option ℤ := none

/-- Delete them again as far as possible. -/
def rollbackProvisioning (resources : ProvisionedResources) :
    Program Call Answer (List ℤ × List ℤ) := do
  let deletedCampaignIds ← deleteCampaignsBestEffort resources.campaignIds.reverse
  let deletedListIds ←
    deleteListsBestEffort (resources.testListIds ++ resources.holdoutListId.toList).reverse
  return (deletedCampaignIds, deletedListIds)

/-- Drop the mappings of the resources that were deleted. -/
def dropRolledBack (test : AbTest) (deletedCampaignIds deletedListIds : List ℤ) : AbTest :=
  { test with
    campaignMappings := test.campaignMappings.filter (·.campaignId ∉ deletedCampaignIds)
    testListMappings := test.testListMappings.filter (·.listId ∉ deletedListIds) }

/-- What the body of the provisioning has done when it ends: the record, the
resources of this attempt, and whether it threw. -/
structure ProvisioningAttempt where
  test : AbTest
  resources : ProvisionedResources
  outcome : Except JsValue Unit

/-- Split the audience in a provisioning that does not run in phases. -/
def segmentForProvisioning (test : AbTest) (config : AbTestConfig) (random : Randomness)
    (now : ℤ) : Remote AbTest := do
  if test.testingMode = .holdout then
    let result ← segmentSubscribersForHoldout config.baseConfig.lists test.variants
      test.testGroupPercentage test.id random.seed [] now
    return recordSegmentation test result
  else
    let testListMappings ← segmentSubscribers config.baseConfig.lists test.variants test.id
      random.shuffle now
    let total ← getTotalSubscribers config.baseConfig.lists now
    return { test with testListMappings, holdoutListId := none, testGroupSize := total,
                       holdoutGroupSize := 0, assignmentProvenance := some .legacyUnavailable }

/-- The lists of a record that were not there before. -/
def newLists (before after : AbTest) : ProvisionedResources :=
  let adopted := before.testListMappings.map (·.listId)
  { testListIds := (after.testListMappings.map (·.listId)).filter (· ∉ adopted)
    holdoutListId := after.holdoutListId.filter (· ∉ adopted) }

/-- The part of the provisioning that is rolled back when it throws. -/
def provisionResources (test : AbTest) (config : AbTestConfig) (random : Randomness) (now : ℤ) :
    Program Call Answer ProvisioningAttempt := do
  let adopted := test.campaignMappings.map (·.campaignId)
  match ← (if test.campaignMappings ≠ [] then pure test.campaignMappings
      else createTestCampaigns test config.baseConfig : Remote (List CampaignMapping)).run with
  | .error error => return ⟨test, {}, .error error⟩
  | .ok campaignMappings =>
      let campaignIds := (campaignMappings.map (·.campaignId)).filter (· ∉ adopted)
      if test.testListMappings ≠ [] then
        let draft := { test with campaignMappings, status := .draft }
        let (test, outcome) ← finalizeProvisionedTest draft config now
        return ⟨test, { campaignIds }, outcome⟩
      else
        match ← (segmentForProvisioning test config random now).run with
        | .error error => return ⟨test, { campaignIds }, .error error⟩
        | .ok segmented =>
            let resources := { newLists test segmented with campaignIds }
            let draft := applyConfig { segmented with campaignMappings, status := .draft } config
            if config.autoLaunch then
              match sendAtOf config.launchAt now with
              | .error error => return ⟨draft, resources, .error error⟩
              | .ok sendAt =>
                  let (test, outcome) ← autoLaunch draft sendAt now
                  return ⟨test, resources, outcome⟩
            else return ⟨draft, resources, .ok ()⟩

/-- Provision a draft. The record is changed in place, so it is returned also where
the provisioning throws. -/
def provisionTest (test : AbTest) (random : Randomness) (now : ℤ) :
    Program Call Answer (AbTest × Except JsValue Unit) := do
  if test.provisionedAt.isSome then return (test, .ok ())
  else
    match test.pendingCreate with
    | none => return (test, .ok ())
    | some config =>
        let attempt ← provisionResources test config random now
        match attempt.outcome with
        | .ok () => return (markProvisioned attempt.test now, .ok ())
        | .error error =>
            let (deletedCampaignIds, deletedListIds) ← rollbackProvisioning attempt.resources
            return (dropRolledBack attempt.test deletedCampaignIds deletedListIds, .error error)

end Phases

end ListmonkOps.Experiment
