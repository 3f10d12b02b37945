/-
Lists for the groups of a test.

Each variant gets a list with its slice of the ranked audience, and the rest
goes to the holdout list. Lists that an earlier attempt left on the server are
found by their tags and brought to the expected membership; lists created in an
attempt that fails are deleted again as far as possible.
-/

import ListmonkOps.Experiment.Assignment
import ListmonkOps.Math.Keyed

namespace ListmonkOps.Experiment

open ListmonkOps.Math ListmonkOps.Runtime

/-- A campaign or list found by its tag. -/
structure TaggedResource where
  id : ℤ
  tags : List Text
  deriving DecidableEq

/-! ## Tags -/

def testTag (testId : Text) : Text := ("abtest:" : Text) ++ testId

/-- The tag of a campaign for its variant. -/
def variantTag (variantId : Text) : Text := ("variant:" : Text) ++ variantId

def listVariantTag (variantId : Text) : Text := ("abtest-variant:" : Text) ++ variantId

def holdoutRoleTag : Text := "abtest-role:holdout"

def variantRoleTag : Text := "abtest-role:variant"

def variantOfTag? (tag : Text) : Option Text :=
  if ("abtest-variant:" : Text) <+: tag then some (tag.drop ("abtest-variant:" : Text).length)
  else none

/-- The variants the tags of a list name. -/
def TaggedResource.variants (list : TaggedResource) : List Text := list.tags.filterMap variantOfTag?

/-- The tags of a row, as far as they are texts. -/
def rowTags (row : JsValue) : List Text :=
  match row.property? "tags" with
  | .array items => items.filterMap fun
      | .string tag => some tag
      | _ => none
  | _ => []

/-- The rows of a tag query that carry the tag of the test. The server filters by
the tag; the code checks again. -/
def findByTestTag (call : Text → Call) (kind : Text) (testId : Text) :
    Remote (List TaggedResource) := do
  let response ← await (call (testTag testId))
  ofExcept do
    let data ← unwrapData response (("Failed to list " : Text) ++ kind ++ ("s for test " : Text) ++
      testId ++ (" reconciliation" : Text))
    let rows ← resultRows data
    (rows.filter fun row => testTag testId ∈ rowTags row).mapM fun row => do
      let id ← requireNumericId (← row.property "id")
        (("Failed to resolve " : Text) ++ kind ++ (" id for test " : Text) ++ testId)
      pure ⟨id, rowTags row⟩

def findCampaignsByTestTag (testId : Text) : Remote (List TaggedResource) :=
  findByTestTag .campaignList "campaign" testId

def findListsByTestTag (testId : Text) : Remote (List TaggedResource) :=
  findByTestTag .listList "list" testId

/-! ## Deleting as far as possible -/

/-- Delete one after another; whatever comes back without an exception counts as
deleted. -/
def deleteBestEffort (call : ℤ → Call) (ids : List ℤ) : Program Call Answer (List ℤ) := do
  let attempts ← ids.mapM fun id => do
    match ← Program.perform (call id) with
    | .returned _ => pure (some id)
    | .thrown _ => pure none
  pure (attempts.filterMap id)

def deleteCampaignsBestEffort (campaignIds : List ℤ) : Program Call Answer (List ℤ) :=
  deleteBestEffort .campaignDelete campaignIds

def deleteListsBestEffort (listIds : List ℤ) : Program Call Answer (List ℤ) :=
  deleteBestEffort .listDelete listIds

/-! ## Membership -/

/-- How many subscribers one bulk change takes. -/
def bulkChunkSize : ℕ := 500

/-- Consecutive chunks with their offsets; the last one may be short. -/
def chunks {α : Type} (size : ℕ) (xs : List α) : List (ℕ × List α) :=
  (List.range ((xs.length + size - 1) / size)).map fun i =>
    (i * size, (xs.drop (i * size)).take size)

/-- Add one chunk; only the data `true` counts as success. -/
def addChunk (listId : ℤ) (chunk : ℕ × List ℤ) : Remote Unit := do
  let result ← await (.subscriberManageLists .add chunk.2 [listId])
  let failed : Text := ("Failed to bulk-add subscribers to list " : Text) ++
    (JsValue.number listId).toText ++ (" (chunk at offset " : Text) ++ Text.ofNat chunk.1 ++
    (")" : Text)
  ofExcept (
    if result.members?.isNone then
      .error (.typeError "Cannot use 'in' operator to search for 'error'")
    else
      match envelopeError? result, result.property? "data" with
      | some error, _ => .error (.ofMessage (failed ++ (": " : Text) ++ formatError error))
      | none, .boolean true => .ok ()
      | none, _ => .error (.ofMessage (failed ++ (": received empty or falsy data" : Text))))

def addSubscribersToListBulk (subscriberIds : List ℤ) (listId : ℤ) : Remote Unit := do
  let _ ← (chunks bulkChunkSize subscriberIds).mapM (addChunk listId)

def removeChunk (listId : ℤ) (chunk : ℕ × List ℤ) : Remote Unit := do
  let result ← await (.subscriberManageLists .remove chunk.2 [listId])
  ofExcept (
    if result.members?.isNone then
      .error (.typeError "Cannot use 'in' operator to search for 'error'")
    else if (envelopeError? result).isSome || !(result.property? "data").isTruthy then
      .error (.ofMessage (("Failed to remove stale members from list " : Text) ++
        (JsValue.number listId).toText))
    else .ok ())

def removeSubscribersFromListBulk (subscriberIds : List ℤ) (listId : ℤ) : Remote Unit := do
  let _ ← (chunks bulkChunkSize subscriberIds).mapM (removeChunk listId)

/-- The numeric ids of the rows of a membership query. -/
def memberIds (data : JsValue) : Except JsValue (List ℤ) := do
  let ids ← (← resultRows data).mapM (·.property "id")
  pure (ids.filterMap fun
    | .number id => some id
    | _ => none)

/-- Bring an adopted list to exactly the expected members. -/
def reconcileListMembership (expectedSubscriberIds : List ℤ) (listId : ℤ) : Remote Unit := do
  let response ← await (.subscriberList listId 1 none)
  let currentIds ← ofExcept do
    let page ← unwrapData response (("Failed to list members of list " : Text) ++
      (JsValue.number listId).toText ++ (" for reconciliation" : Text))
    memberIds page
  removeSubscribersFromListBulk (currentIds.filter (· ∉ expectedSubscriberIds)) listId
  addSubscribersToListBulk (expectedSubscriberIds.eraseDups.filter (· ∉ currentIds)) listId

/-! ## Creating lists -/

def createList (body : ListBody) (context : Text) : Remote ℤ := do
  let result ← await (.listCreate body)
  ofExcept do
    let created ← unwrapData result context
    requireNumericId (← created.property "id") context

/-- A list with the given members: an adopted one brought to them, or a new one. The
new lists of the attempt are returned also where it throws. -/
def ensureList (adopted : Option ℤ) (body : ListBody) (context : Text) (members : List ℤ)
    (created : List ℤ) : Program Call Answer (List ℤ × Except JsValue ℤ) := do
  match adopted with
  | some listId =>
      match ← (reconcileListMembership members listId).run with
      | .ok () => return (created, .ok listId)
      | .error error => return (created, .error error)
  | none =>
      match ← (createList body context).run with
      | .error error => return (created, .error error)
      | .ok listId =>
          match ← (addSubscribersToListBulk members listId).run with
          | .ok () => return (created ++ [listId], .ok listId)
          | .error error => return (created ++ [listId], .error error)

/-- The lists of the variants, one after another. -/
def ensureVariantLists (adopted : Text → Option ℤ) (body : Variant → ListBody)
    (context : Variant → Text) :
    List (Variant × List ℤ) → List ℤ →
      Program Call Answer (List ℤ × Except JsValue (List ListMapping))
  | [], created => return (created, .ok [])
  | (variant, members) :: rest, created => do
      match ← ensureList (adopted variant.id) (body variant) (context variant) members created with
      | (created, .error error) => return (created, .error error)
      | (created, .ok listId) =>
          match ← ensureVariantLists adopted body context rest created with
          | (created, .error error) => return (created, .error error)
          | (created, .ok mappings) => return (created, .ok (⟨variant.id, listId⟩ :: mappings))

/-- Delete the new lists of a failed attempt, the last one first, and throw on. -/
def orDeleteLists {α : Type} (attempt : Program Call Answer (List ℤ × Except JsValue α)) :
    Remote α := do
  match ← ExceptT.lift attempt with
  | (_, .ok result) => return result
  | (created, .error error) =>
      let _ ← ExceptT.lift (deleteListsBestEffort created.reverse)
      throw error

/-! ## Holdout segmentation -/

/-- The lists that earlier attempts left for the groups. -/
structure AdoptedLists where
  holdout : Option ℤ
  /-- By variant; the last list wins. -/
  variants : Table (Prod.fst : Text × ℤ → Text)

def AdoptedLists.get (adopted : AdoptedLists) (variantId : Text) : Option ℤ :=
  (adopted.variants.get? variantId).map Prod.snd

/-- Adopt the lists of earlier attempts by their tags, unless the tags are
ambiguous. -/
def adoptLists (testId : Text) (existingLists : List TaggedResource) :
    Except JsValue AdoptedLists := do
  let ofTest := existingLists.filter (testTag testId ∈ ·.tags)
  let holdoutMatches := ofTest.filter (holdoutRoleTag ∈ ·.tags)
  let ofVariants := ofTest.filter (variantRoleTag ∈ ·.tags)
  let forTest : Text := (" for test " : Text) ++ testId ++
    ("; resolve the duplicates before retrying" : Text)
  let ofTestRetry : Text := (" of test " : Text) ++ testId ++
    ("; correct the tags before retrying" : Text)
  if 1 < holdoutMatches.length then
    throw (.ofMessage (("Ambiguous lists tagged abtest-role:holdout" : Text) ++ forTest))
  else
    match existingLists.find? fun list => decide (1 < list.variants.length) with
    | some list =>
        throw (.ofMessage (("List " : Text) ++ (JsValue.number list.id).toText ++
          (" is tagged for multiple variants" : Text) ++ ofTestRetry))
    | none =>
        let variants := Table.ofList Prod.fst
          (ofVariants.flatMap fun list => list.variants.map (·, list.id))
        let variantListIds := variants.entries.map Prod.snd
        let holdout := holdoutMatches.head?.map (·.id)
        if ¬ variantListIds.Nodup then
          throw (.ofMessage (("A list is adopted for multiple variants" : Text) ++ ofTestRetry))
        else
          match holdout.filter (· ∈ variantListIds) with
          | some listId =>
              throw (.ofMessage (("List " : Text) ++ (JsValue.number listId).toText ++
                (" is tagged as both holdout and variant for test " : Text) ++ testId ++
                ("; correct the tags before retrying" : Text)))
          | none =>
              let tagged := (ofVariants.flatMap (·.variants)).eraseDups
              match tagged.find? fun variantId =>
                  decide (1 < (existingLists.filter (listVariantTag variantId ∈ ·.tags)).length) with
              | some variantId =>
                  throw (.ofMessage (("Ambiguous lists tagged " : Text) ++
                    listVariantTag variantId ++ forTest))
              | none => pure { holdout, variants }

structure SegmentationResult where
  testListMappings : List ListMapping
  holdoutListId : ℤ
  testGroupSize : ℕ
  holdoutGroupSize : ℕ
  assignmentSeed : Text
  audienceSnapshot : AudienceSnapshot
  assignmentManifest : AssignmentManifest

/-- The sizes of the groups of the variants. -/
def AssignmentManifest.variantSizes (manifest : AssignmentManifest) : List ℕ :=
  (manifest.groups.filter (·.kind ≠ .holdout)).map (·.expectedCount)

/-- The variants with the subscribers that the ranked audience gives them. -/
def AssignmentManifest.variantSlices (manifest : AssignmentManifest) (variants : List Variant)
    (ranked : List AudienceMember) : List (Variant × List ℤ) :=
  let groups := manifest.groups.filter (·.kind ≠ .holdout)
  (groups.zip (slices manifest.variantSizes ranked)).filterMap fun (group, slice) =>
    (variants.find? fun variant => decide (group.kind = .variant variant.id)).map
      (·, slice.map (·.subscriberId))

/-- The subscribers after the slices of the variants. -/
def AssignmentManifest.holdoutSlice (manifest : AssignmentManifest)
    (ranked : List AudienceMember) : List ℤ :=
  (ranked.drop manifest.variantSizes.sum).map (·.subscriberId)

def holdoutListBody (testId : Text) (now : ℤ) : ListBody where
  name := ("A/B Test Holdout - " : Text) ++ (JsValue.number now).toText
  description := "Holdout group for A/B test - will receive winner variant"
  tags := [testTag testId, holdoutRoleTag]

def testListName (variant : Variant) (now : ℤ) : Text :=
  ("A/B Test - " : Text) ++ variant.name ++ (" - " : Text) ++ (JsValue.number now).toText

def variantListBody (testId : Text) (now : ℤ) (variant : Variant) : ListBody where
  name := testListName variant now
  description := ("Test group for A/B test variant " : Text) ++ variant.name
  tags := [testTag testId, variantRoleTag, listVariantTag variant.id]

/-- Fill the holdout list and the lists of the variants. -/
def fillHoldoutLists (adopted : AdoptedLists) (testId : Text) (now : ℤ) (holdoutIds : List ℤ)
    (variantSlices : List (Variant × List ℤ)) :
    Program Call Answer (List ℤ × Except JsValue (ℤ × List ListMapping)) := do
  match ← ensureList adopted.holdout (holdoutListBody testId now) "Failed to create holdout list"
      holdoutIds [] with
  | (created, .error error) => return (created, .error error)
  | (created, .ok holdoutListId) =>
      match ← ensureVariantLists adopted.get (variantListBody testId now)
          (fun variant => ("Failed to create test list for variant " : Text) ++ variant.name)
          variantSlices created with
      | (created, .error error) => return (created, .error error)
      | (created, .ok mappings) => return (created, .ok (holdoutListId, mappings))

/-- Split the audience into the lists of the variants and the holdout list. -/
def segmentSubscribersForHoldout [AssignmentPlatform] (originalLists : List ℤ)
    (variants : List Variant) (testGroupPercentage : ℚ) (testId seed : Text)
    (existingLists : List TaggedResource) (now : ℤ) : Remote SegmentationResult := do
  let (snapshot, members) ← resolveAudience originalLists now
  let manifest ← ofExcept
    (buildAssignmentManifest testId seed snapshot members variants testGroupPercentage)
  let ranked := rankMembers testId seed members
  let adopted ← ofExcept (adoptLists testId existingLists)
  let (holdoutListId, testListMappings) ← orDeleteLists (fillHoldoutLists adopted testId now
    (manifest.holdoutSlice ranked) (manifest.variantSlices variants ranked))
  return {
    testListMappings
    holdoutListId
    testGroupSize := manifest.variantSizes.sum
    holdoutGroupSize := ((manifest.groups.find? (·.kind = .holdout)).map (·.expectedCount)).getD 0
    assignmentSeed := seed
    audienceSnapshot := snapshot
    assignmentManifest := manifest }

/-! ## Full split -/

def fullSplitListBody (testId : Text) (now : ℤ) (variant : Variant) : ListBody where
  name := testListName variant now
  description := ("Temporary list for A/B test variant " : Text) ++ variant.name
  tags := [testTag testId, listVariantTag variant.id]

/-- Split the whole audience, shuffled, into the lists of the variants. -/
def segmentSubscribers [AssignmentPlatform] (originalLists : List ℤ) (variants : List Variant)
    (testId : Text) (shuffle : List AudienceMember → List AudienceMember) (now : ℤ) :
    Remote (List ListMapping) := do
  let (_, members) ← resolveAudience originalLists now
  let shuffled := shuffle members
  let sizes ← ofExcept
    (allocateByLargestRemainder shuffled.length (variants.map (·.percentage)))
  let variantSlices := variants.zip
    ((slices sizes shuffled).map fun slice => slice.map (·.subscriberId))
  orDeleteLists (ensureVariantLists (fun _ => none) (fullSplitListBody testId now)
    (fun variant => ("Failed to create list for variant " : Text) ++ variant.name)
    variantSlices [])

end ListmonkOps.Experiment
