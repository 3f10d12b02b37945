/-
Who gets which variant.

The audience of a test is read page by page from its source lists, every member
is ranked by a hash of the test, a stored seed and its UUID, and the ranked
audience is cut into one slice for each variant and a rest that is held out.
Group sizes are computed with floating-point numbers, which are not modelled;
what the code checks about the sizes is.
-/

import ListmonkOps.Experiment.Client
import ListmonkOps.Experiment.Types
import ListmonkOps.Math.Keyed

namespace ListmonkOps.Experiment

open ListmonkOps.Math ListmonkOps.Runtime

/-- The hash function and the floating-point operations of the platform. -/
class AssignmentPlatform where
  /-- `createHash("sha256").update(stream, "utf8").digest("hex")`. -/
  sha256 : Text → Text
  /-- The sum of the weights. -/
  weightSum : List ℚ → ℚ
  /-- For a total, a weight and the sum of the weights: the whole seats and the
  fractional remainder of the quota. -/
  quota : ℕ → ℚ → ℚ → ℕ × ℚ
  /-- `100 - percentage`. -/
  complement : ℚ → ℚ
  /-- `String(value)` of a number. -/
  numberText : ℚ → Text

/-! ## Allocation -/

/-- One more seat for the group at a position. -/
def addSeat (counts : List ℕ) (index : ℕ) : List ℕ := counts.modify index (· + 1)

section Allocation

variable [AssignmentPlatform]

/-- The positions of the groups by decreasing remainder, the earlier group first. -/
def remainderRanking (quotas : List (ℕ × ℚ)) : List ℕ :=
  (quotas.zipIdx.mergeSort fun a b =>
    b.1.2 < a.1.2 || (b.1.2 = a.1.2 && a.2 ≤ b.2)).map Prod.snd

/-- What is said of the first weight that is not positive. -/
def weightMessage (weights : List ℚ) : Text :=
  match weights.zipIdx.find? (·.1 ≤ 0) with
  | some (weight, index) =>
      ("weights[" : Text) ++ Text.ofNat index ++
        ("] must be a finite positive number, received " : Text) ++
        AssignmentPlatform.numberText weight
  | none => []

def allocateByLargestRemainder (total : ℕ) (weights : List ℚ) : Except JsValue (List ℕ) :=
  if weights = [] then
    .error (.error "AllocationInputError" "weights must be a non-empty array" [])
  else if weights.any (· ≤ 0) then
    .error (.error "AllocationInputError" (weightMessage weights) [])
  else if total = 0 then .ok (weights.map fun _ => 0)
  else
    let sum := AssignmentPlatform.weightSum weights
    let quotas := weights.map fun weight => AssignmentPlatform.quota total weight sum
    let baseSeats := quotas.map Prod.fst
    let allocated := baseSeats.sum
    if total < allocated then
      .error (.error "AllocationInvariantError"
        (("largest-remainder base allocation exceeded total: allocated=" : Text) ++
          Text.ofNat allocated ++ (" total=" : Text) ++ Text.ofNat total) [])
    else
      let remaining := total - allocated
      let served := (remainderRanking quotas).take remaining
      let counts := served.foldl addSeat baseSeats
      if served.length ≠ remaining then
        .error (.error "AllocationInvariantError"
          (("largest-remainder failed to exhaust seats: remaining=" : Text) ++
            Text.ofNat (remaining - served.length) ++ (" total=" : Text) ++ Text.ofNat total) [])
      else if counts.sum ≠ total then
        .error (.error "AllocationInvariantError"
          (("largest-remainder sum mismatch: result=" : Text) ++ Text.ofNat counts.sum ++
            (" expected=" : Text) ++ Text.ofNat total) [])
      else .ok counts

/-- The sizes of the test group and of the holdout. -/
def allocateTestAndHoldout (audienceSize : ℕ) (testGroupPercentage : ℚ) :
    Except JsValue (ℕ × ℕ) :=
  if testGroupPercentage < 0 ∨ 100 < testGroupPercentage then
    .error (.error "AllocationValueError"
      (("testGroupPercentage must be a finite number in [0, 100], received " : Text) ++
        AssignmentPlatform.numberText testGroupPercentage) [])
  else if audienceSize = 0 then .ok (0, 0)
  else if testGroupPercentage = 0 then .ok (0, audienceSize)
  else if testGroupPercentage = 100 then .ok (audienceSize, 0)
  else do
    let counts ← allocateByLargestRemainder audienceSize
      [testGroupPercentage, AssignmentPlatform.complement testGroupPercentage]
    pure (counts[0]?.getD 0, counts[1]?.getD 0)

end Allocation

/-! ## The audience -/

structure AudienceMember where
  subscriberId : ℤ
  subscriberUuid : Text
  deriving DecidableEq

def audienceResolutionError (message : Text) : JsValue :=
  .error "AudienceResolutionError" message []

/-- The refusal of a subscriber without an id or a UUID. -/
def missingIdentity (id uuid : JsValue) : JsValue :=
  audienceResolutionError (("subscriber is missing id or uuid; id=" : Text) ++ id.stringify ++
    (" uuid=" : Text) ++ uuid.stringify)

/-- Take a subscriber into the audience: it must be enabled, its id and its UUID
must belong together, and it is taken once. -/
def collectSubscriber (collected : List AudienceMember) (subscriber : JsValue) :
    Except JsValue (List AudienceMember) := do
  match ← subscriber.property "status" with
  | .string status =>
      if status ≠ "enabled" then pure collected
      else
        match subscriber.property? "id", subscriber.property? "uuid" with
        | .number id, .string uuid =>
            if uuid = [] then throw (missingIdentity (.number id) (.string uuid))
            else
              match collected.find? fun member =>
                  member.subscriberUuid = uuid && member.subscriberId ≠ id with
              | some previous =>
                  throw (audienceResolutionError (("subscriber uuid " : Text) ++ uuid ++
                    (" maps to two numeric ids: " : Text) ++
                    (JsValue.number previous.subscriberId).toText ++ (" and " : Text) ++
                    (JsValue.number id).toText))
              | none =>
                  match collected.find? fun member =>
                      member.subscriberId = id && member.subscriberUuid ≠ uuid with
                  | some previous =>
                      throw (audienceResolutionError (("subscriber id " : Text) ++
                        (JsValue.number id).toText ++ (" maps to two uuids: " : Text) ++
                        previous.subscriberUuid ++ (" and " : Text) ++ uuid))
                  | none =>
                      if collected.any (·.subscriberUuid = uuid) then pure collected
                      else pure (collected ++ [⟨id, uuid⟩])
        | id, uuid => throw (missingIdentity id uuid)
  | _ => pure collected

/-- The subscribers on a page of a list. -/
def readPage (listId : ℤ) (page : ℕ) (response : JsValue) : Except JsValue (List JsValue) :=
  if response.members?.isNone then
    .error (.typeError "Cannot use 'in' operator to search for 'error'")
  else
    match envelopeError? response with
    | some error =>
        .error (audienceResolutionError (("list " : Text) ++ (JsValue.number listId).toText ++
          (" page " : Text) ++ Text.ofNat page ++ (" query failed: " : Text) ++ error.toText))
    | none =>
        match (response.property? "data").property? "results" with
        | .undefined | .null => .ok []
        | .array items => .ok items
        | _ => .error (.typeError "object is not iterable")

def audiencePageSize : ℕ := 500

/-- Read the pages of a list: up to the first short one, or two empty ones in a
row. -/
def resolvePages (pageSize : ℕ) (listId : ℤ) :
    ℕ → ℕ → ℕ → List AudienceMember → Remote (List AudienceMember)
  | 0, _, _, collected => return collected
  | fuel + 1, page, emptyPages, collected => do
      let response ← await (.subscriberList listId page (some pageSize))
      let subscribers ← ofExcept (readPage listId page response)
      if subscribers.isEmpty then
        if emptyPages + 1 ≥ 2 then return collected
        else resolvePages pageSize listId fuel (page + 1) (emptyPages + 1) collected
      else
        let collected ← ofExcept (subscribers.foldlM collectSubscriber collected)
        if subscribers.length < pageSize then return collected
        else resolvePages pageSize listId fuel (page + 1) 0 collected

/-- The guard against a server that never ends. -/
def maxAudiencePages : ℕ := 10000

def resolveLists (pageSize : ℕ) : List ℤ → List AudienceMember → Remote (List AudienceMember)
  | [], collected => return collected
  | listId :: listIds, collected => do
      let collected ← resolvePages pageSize listId maxAudiencePages 1 0 collected
      resolveLists pageSize listIds collected

/-- The lists that are read: the positive ids, once each, in order. -/
def sourceLists (sourceListIds : List ℤ) : List ℤ :=
  (sourceListIds.eraseDups.filter (0 < ·)).mergeSort (· ≤ ·)

def groupChecksum [AssignmentPlatform] (uuids : List Text) : Text :=
  AssignmentPlatform.sha256 (List.intercalate [10] (uuids.mergeSort (· ≤ ·)))

/-- Resolve the audience of the lists by pages of a given size. -/
def resolveAudienceBy [AssignmentPlatform] (pageSize : ℕ) (sourceListIds : List ℤ) (now : ℤ) :
    Remote (AudienceSnapshot × List AudienceMember) := do
  if sourceLists sourceListIds = [] then
    throw (audienceResolutionError "sourceListIds must contain at least one positive integer")
  else
    let members ← resolveLists pageSize (sourceLists sourceListIds) []
    return ({ capturedAt := { time := now }
              sourceListIds := sourceLists sourceListIds
              subscriberCount := members.length
              subscriberChecksum := groupChecksum (members.map (·.subscriberUuid)) }, members)

def resolveAudience [AssignmentPlatform] (sourceListIds : List ℤ) (now : ℤ) :
    Remote (AudienceSnapshot × List AudienceMember) :=
  resolveAudienceBy audiencePageSize sourceListIds now

def getTotalSubscribers [AssignmentPlatform] (listIds : List ℤ) (now : ℤ) : Remote ℕ := do
  let (_, members) ← resolveAudience listIds now
  return members.length

/-! ## The manifest -/

section Manifest

variable [AssignmentPlatform]

/-- The digest a subscriber is ranked by; the parts are joined by NUL. -/
def assignmentDigest (testId seed subscriberUuid : Text) : Text :=
  AssignmentPlatform.sha256
    (List.intercalate [0] [("abtest-assignment:v1" : Text), testId, seed, subscriberUuid])

/-- The audience by digest, and by UUID where two digests agree. -/
def rankMembers (testId seed : Text) (members : List AudienceMember) : List AudienceMember :=
  members.mergeSort fun a b =>
    let digestA := assignmentDigest testId seed a.subscriberUuid
    let digestB := assignmentDigest testId seed b.subscriberUuid
    digestA < digestB || (digestA = digestB && a.subscriberUuid ≤ b.subscriberUuid)

/-- Consecutive slices of the given sizes. -/
def slices {α : Type} : List ℕ → List α → List (List α)
  | [], _ => []
  | size :: sizes, xs => xs.take size :: slices sizes (xs.drop size)

def assignmentError (message : Text) : JsValue := .error "AssignmentError" message []

def buildAssignmentManifest (testId seed : Text) (audience : AudienceSnapshot)
    (members : List AudienceMember) (variants : List Variant) (testGroupPercentage : ℚ) :
    Except JsValue AssignmentManifest := do
  if members.length ≠ audience.subscriberCount then
    throw (assignmentError (("audience size mismatch: members=" : Text) ++
      Text.ofNat members.length ++ (" snapshot=" : Text) ++ Text.ofNat audience.subscriberCount))
  else if variants = [] then
    throw (assignmentError "at least one variant is required")
  else
    let ranked := rankMembers testId seed members
    let (testGroupSize, holdoutGroupSize) ←
      allocateTestAndHoldout ranked.length testGroupPercentage
    let variantSizes ← allocateByLargestRemainder testGroupSize (variants.map (·.percentage))
    let cut := slices variantSizes ranked
    let checksum (group : List AudienceMember) : Text := groupChecksum (group.map (·.subscriberUuid))
    let variantGroups := variants.zipIdx.map fun (variant, index) =>
      { kind := .variant variant.id
        expectedCount := variantSizes[index]?.getD 0
        subscriberChecksum := checksum (cut[index]?.getD []) : AssignmentGroup }
    let holdoutGroup : AssignmentGroup :=
      { kind := .holdout
        expectedCount := holdoutGroupSize
        subscriberChecksum := checksum (ranked.drop variantSizes.sum) }
    let variantTotal := (variantGroups.map (·.expectedCount)).sum
    if variantTotal ≠ testGroupSize then
      throw (assignmentError (("variant sizes sum " : Text) ++ Text.ofNat variantTotal ++
        (" !== testGroupSize " : Text) ++ Text.ofNat testGroupSize))
    else if variantTotal + holdoutGroupSize ≠ ranked.length then
      throw (assignmentError (("manifest total " : Text) ++
        Text.ofNat (variantTotal + holdoutGroupSize) ++ (" !== audience " : Text) ++
        Text.ofNat ranked.length))
    else
      let recomputedChecksum := groupChecksum (members.map (·.subscriberUuid))
      if audience.subscriberChecksum ≠ [] ∧ recomputedChecksum ≠ audience.subscriberChecksum then
        throw (assignmentError (("audience checksum mismatch: snapshot=" : Text) ++
          audience.subscriberChecksum ++ (" recomputed=" : Text) ++ recomputedChecksum))
      else
        pure
          { seed
            audienceChecksum := recomputedChecksum
            groups := variantGroups ++ [holdoutGroup]
            assignedCount := ranked.length }

/-! ## Looking a subscriber up -/

/-- The members of the audience in the order they are assigned in; none where they are
no longer those the manifest was built for. -/
def rankAndVerifyMembers (testId : Text) (manifest : AssignmentManifest)
    (members : List AudienceMember) : List AudienceMember :=
  if groupChecksum (members.map (·.subscriberUuid)) ≠ manifest.audienceChecksum then []
  else rankMembers testId manifest.seed members

/-- The first of the groups, counted from `index`, that has the subscriber; the first
of them starts at the position `cursor`. -/
def groupIndexFrom (ranked : List AudienceMember) (subscriberUuid : Text) :
    List AssignmentGroup → ℕ → ℕ → ℤ
  | [], _, _ => -1
  | group :: groups, index, cursor =>
      if (List.range' cursor group.expectedCount).any fun position =>
          ranked[position]?.any (·.subscriberUuid = subscriberUuid) then index
      else groupIndexFrom ranked subscriberUuid groups (index + 1) (cursor + group.expectedCount)

def groupIndexOfRanked (ranked : List AudienceMember) (manifest : AssignmentManifest)
    (subscriberUuid : Text) : ℤ :=
  groupIndexFrom ranked subscriberUuid manifest.groups 0 0

def groupIndexForUuid (manifest : AssignmentManifest) (testId : Text)
    (members : List AudienceMember) (subscriberUuid : Text) : ℤ :=
  groupIndexOfRanked (rankAndVerifyMembers testId manifest members) manifest subscriberUuid

/-- The groups of several subscribers, with one ranking. -/
def groupIndexForUuids (manifest : AssignmentManifest) (testId : Text)
    (members : List AudienceMember) (subscriberUuids : List Text) :
    Table (Prod.fst : Text × ℤ → Text) :=
  let ranked := rankAndVerifyMembers testId manifest members
  subscriberUuids.foldl (fun result uuid =>
    result.set (uuid, groupIndexOfRanked ranked manifest uuid)) (Table.empty _)

end Manifest

end ListmonkOps.Experiment
