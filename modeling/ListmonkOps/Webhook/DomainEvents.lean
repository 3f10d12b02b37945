/-
The domain events of successful operations.

Once an operation has succeeded its transport hands the raw input and the
structured output to a projection, which reads off them what happened to which
campaign, subscriber, experiment or sequence. Nothing is typed at this point:
the members are read as they stand.
-/

import ListmonkOps.Runtime.Digest
import ListmonkOps.Runtime.Tables
import ListmonkOps.Webhook.Event

namespace ListmonkOps.Webhook

open ListmonkOps.Runtime

/-! ## Reading values -/

/-- The members of an object, in the order they were added. -/
abbrev Members := List (Text × Value)

/-- `asRecord`; a date is an object without members of its own. -/
def asRecord : Value → Option Members
  | .object members => some members
  | .date _ => some []
  | _ => none

/-- `record?.[property]`. -/
def member (record : Option Members) (property : Text) : Value :=
  record.elim .undefined (Value.get · property)

def asNonBlankString : Value → Option Text
  | .string value => if value.trim = [] then none else some value.trim
  | _ => none

/-- `Number.isInteger(value) && value > 0`. -/
def isPositiveInteger : Number → Bool
  | .finite value => 0 ≤ value.exponent && value.isPositive
  | _ => false

def asResourceKey : Value → Option Text
  | .number value =>
      if isPositiveInteger value then some value.toText else asNonBlankString (.number value)
  | value => asNonBlankString value

/-- `value === expected`, for a boolean. -/
def isBoolean (expected : Bool) : Value → Bool
  | .boolean value => value = expected
  | _ => false

/-- `value ?? fallback`. -/
def nullish (fallback : Value) : Value → Value
  | .undefined | .null => fallback
  | value => value

/-! ## Tables of event types -/

def campaignEventTypes : List (Text × OutboundWebhookEventType) :=
  [("campaigns.schedule", .campaignScheduled), ("campaigns.start", .campaignStarted),
    ("campaigns.pause", .campaignPaused), ("campaigns.cancel", .campaignCancelled)]

def abTestLifecycleEventByStatus : List (Text × OutboundWebhookEventType) :=
  [("analyzing", .abtestReadyForAnalysis), ("inconclusive", .abtestInconclusive),
    ("failed", .abtestFailed)]

/-- How the platform writes the functions that plain objects inherit. -/
class InheritedNaming where
  /-- The text of the function or object of that name. -/
  text : Text → Text

/-- An event type that was read from a table, inside a text. -/
def eventTypeText [InheritedNaming] : TableEntry OutboundWebhookEventType → Text
  | .own type => type.text
  | .inherited name => InheritedNaming.text name

/-! ## Projections -/

structure SuccessfulOperationLifecycleInput where
  executionId : Text
  operationId : Text
  operationInput : Members
  operationOutput : Value := .undefined
  occurredAt : Option Text := none

/-- A datum of an event: a value that was read, or a count. -/
inductive EventDatum where
  | value (value : Value)
  | count (count : ℕ)

structure DomainEventProjection where
  type : TableEntry OutboundWebhookEventType
  source : OutboundWebhookEventSource
  subject : OutboundWebhookSubject
  data : List (Text × EventDatum)

def outputResource (output : Value) (property : Text) : Option Members :=
  asRecord (member (asRecord output) property)

def campaignProjection (input : SuccessfulOperationLifecycleInput) :
    Option DomainEventProjection := do
  let type ← readTable campaignEventTypes input.operationId
  let output := asRecord input.operationOutput
  let campaignId ← asResourceKey (member output "id") <|>
    asResourceKey (Value.get input.operationInput "id")
  return {
    type
    source := .listmonk
    subject := { kind := .campaign, key := campaignId }
    data := [("status", .value (member output "status")),
      ("send_at", .value (Value.get input.operationInput "send_at"))] }

def subscriberIdsFromInput : Value → List Value
  | .array items => items
  | .string value =>
      (((value.splitOn 44).map Text.trim).filter (· ≠ [])).map Value.string
  | _ => []

/-- The branch of `subscriberProjection` for a creation or an update. -/
def subscriberRecordProjection (input : SuccessfulOperationLifecycleInput) (created : Bool) :
    List DomainEventProjection :=
  let output := asRecord input.operationOutput
  let envelope := asRecord (member output "subscriber")
  let subscriberOutput := if created && envelope.isSome then envelope else output
  if created && isBoolean false (member output "created") then []
  else
    match asResourceKey (member subscriberOutput "id") <|>
      (if created then none else asResourceKey (Value.get input.operationInput "id")) with
    | none => []
    | some subscriberId =>
        [{ type := .own (if created then .subscriberCreated else .subscriberUpdated)
           source := .listmonk
           subject := { kind := .subscriber, key := subscriberId }
           data := [("status", .value (member subscriberOutput "status"))] }]

def subscriberProjection [Sha256Platform] (input : SuccessfulOperationLifecycleInput) :
    List DomainEventProjection :=
  if input.operationId = ("subscribers.create" : Text) then subscriberRecordProjection input true
  else if input.operationId = ("subscribers.update" : Text) then
    subscriberRecordProjection input false
  else if input.operationId ≠ ("subscribers.blocklist" : Text) ∨
      isBoolean true (Value.get input.operationInput "dry_run") then []
  else
    let output := asRecord input.operationOutput
    let normalizedIds := ((subscriberIdsFromInput
      (Value.get input.operationInput "subscriber_ids")).filterMap asResourceKey).mergeSort (· ≤ ·)
    if normalizedIds = [] then []
    else
      let batchKey := (hexText (sha256 ([44].intercalate normalizedIds))).take 24
      [{ type := .own .subscriberBlocklisted
         source := .listmonk
         subject := { kind := .subscriber, key := ("batch:" : Text) ++ batchKey }
         data := [("requested_count", .count normalizedIds.length),
           ("processed", .value (member output "processed")),
           ("succeeded", .value (member output "succeeded")),
           ("failed", .value (member output "failed"))] }]

def experimentProjection (type : TableEntry OutboundWebhookEventType) (testId : Text)
    (data : List (Text × EventDatum)) : DomainEventProjection where
  type := type
  source := .abtest
  subject := { kind := .experiment, key := testId }
  data := data

/-- The event that the status of a test stands for. -/
def lifecycleEventOfStatus (status : Option Text) : Option (TableEntry OutboundWebhookEventType) :=
  status.bind (readTable abTestLifecycleEventByStatus)

/-- What `abTestProjection` makes of an entry of a tick's results. -/
def tickResultProjection (value : Value) : Option DomainEventProjection := do
  let result := asRecord value
  let resultTestId ← asResourceKey (member result "test_id")
  let status := asNonBlankString (member result "status")
  let type ← lifecycleEventOfStatus status
  return experimentProjection type resultTestId
    [("status", .value ((status.map Value.string).getD .undefined)),
      ("action", .value (member result "action"))]

def tickResults (output : Value) : List Value :=
  match member (asRecord output) "results" with
  | .array results => results
  | _ => []

def abTestProjection (input : SuccessfulOperationLifecycleInput) : List DomainEventProjection :=
  if input.operationId = ("abtest.tick" : Text) ∧
      isBoolean true (Value.get input.operationInput "dry_run") then []
  else
    let output := asRecord input.operationOutput
    let test := outputResource input.operationOutput "test"
    let testId := asResourceKey (member test "id") <|>
      asResourceKey (Value.get input.operationInput "test_id")
    let analysis := outputResource input.operationOutput "analysis"
    if input.operationId = ("abtest.launch" : Text) then
      testId.toList.map fun testId => experimentProjection (.own .abtestStarted) testId
        [("status", .value (nullish (.string "running") (member test "status")))]
    else if input.operationId = ("abtest.deploy-winner" : Text) then
      if isBoolean true (member output "deployed") then
        testId.toList.map fun testId => experimentProjection (.own .abtestWinnerSelected) testId
          [("deployed", .value (.boolean true))]
      else []
    else if input.operationId = ("abtest.analyze" : Text) then
      match asResourceKey (member analysis "testId") <|> testId,
          asRecord (member analysis "winner") with
      | some analysisTestId, some winner =>
          [experimentProjection (.own .abtestWinnerSelected) analysisTestId
            [("winner_variant_id", .value (Value.get winner "id"))]]
      | _, _ => []
    else if input.operationId = ("abtest.run" : Text) then
      match testId, asNonBlankString (member test "status") with
      | some testId, some status =>
          (readTable abTestLifecycleEventByStatus status).toList.map fun type =>
            experimentProjection type testId [("status", .value (.string status))]
      | _, _ => []
    else if input.operationId = ("abtest.tick" : Text) then
      (tickResults input.operationOutput).filterMap tickResultProjection
    else []

/-- The resource an operation on sequences reports. -/
inductive ReportedResource where
  | sequence
  | enrollment
  deriving DecidableEq

/-- A case of `sequenceProjection`. -/
structure SequenceCase where
  resource : ReportedResource
  type : OutboundWebhookEventType
  /-- The flag of the output that, when false, says that nothing happened. -/
  flag : Option Text := none
  /-- The data of the event, each with the member of the resource it is read from. -/
  data : List (Text × Text)

/-- The cases of `sequenceProjection`, each under its operation. -/
def sequenceCases : List (Text × SequenceCase) :=
  [("sequences.create",
      { resource := .sequence
        type := .sequenceCreated
        data := [("revision", "current_revision")] }),
    ("sequences.update",
      { resource := .sequence
        type := .sequenceRevised
        flag := some "updated"
        data := [("revision", "current_revision")] }),
    ("sequences.enroll",
      { resource := .enrollment
        type := .sequenceEnrolled
        flag := some "created"
        data := [("enrollment_id", "id"), ("revision", "revision"), ("status", "status")] }),
    ("sequences.pause",
      { resource := .sequence
        type := .sequencePaused
        data := [("status", "status")] }),
    ("sequences.resume",
      { resource := .sequence
        type := .sequenceResumed
        data := [("status", "status")] }),
    ("sequences.delete",
      { resource := .sequence
        type := .sequenceDeleted
        data := [("status", "status"), ("current_revision", "current_revision")] }),
    ("sequences.reconcile",
      { resource := .enrollment
        type := .sequenceReconciled
        data := [("enrollment_id", "id"), ("status", "status")] })]

/-- The sequence an operation was about: by its output, else by its input. -/
def reportedSequenceId (input : SuccessfulOperationLifecycleInput) : Option Text :=
  asResourceKey (member (outputResource input.operationOutput "sequence") "id") <|>
    asResourceKey (member (outputResource input.operationOutput "enrollment") "sequence_id") <|>
      asResourceKey (Value.get input.operationInput "id")

def sequenceProjection (input : SuccessfulOperationLifecycleInput) : List DomainEventProjection :=
  match reportedSequenceId input, sequenceCases.lookup input.operationId with
  | some sequenceId, some event =>
      if event.flag.any fun flag =>
          isBoolean false (member (asRecord input.operationOutput) flag) then []
      else
        (outputResource input.operationOutput (match event.resource with
          | .sequence => "sequence"
          | .enrollment => "enrollment")).toList.map fun resource =>
            { type := .own event.type
              source := .sequence
              subject := { kind := .sequence, key := sequenceId }
              data := event.data.map fun (name, read) => (name, .value (Value.get resource read)) }
  | _, _ => []

/-! ## Events -/

/-- `deterministicUuid` of the projection. -/
def lifecycleUuid [Sha256Platform] (seed : Text) : Text :=
  let bytes := (sha256 seed).take 16
  let versioned := bytes.modify 6 fun byte => (byte &&& 0x0f) ||| 0x50
  let hex := hexText (versioned.modify 8 fun byte => (byte &&& 0x3f) ||| 0x80)
  [45].intercalate [hex.take 8, (hex.drop 8).take 4, (hex.drop 12).take 4, (hex.drop 16).take 4,
    hex.drop 20]

def OutboundWebhookSubjectKind.text : OutboundWebhookSubjectKind → Text
  | .operation => "operation"
  | .campaign => "campaign"
  | .subscriber => "subscriber"
  | .message => "message"
  | .experiment => "experiment"
  | .sequence => "sequence"
  | .webhook => "webhook"

/-- `eventId`. -/
def domainEventId [Sha256Platform] [InheritedNaming] (executionId : Text)
    (projection : DomainEventProjection) (index : ℕ) : Text :=
  lifecycleUuid ([58].intercalate ["listmonk-ops", "domain-lifecycle", "v1", executionId,
    eventTypeText projection.type, projection.subject.kind.text, projection.subject.key,
    Text.ofNat index])

/-- What the projection hands to `createOutboundWebhookEvent`. -/
structure DomainEvent where
  id : Text
  type : TableEntry OutboundWebhookEventType
  occurredAt : Option Text
  source : OutboundWebhookEventSource
  correlationId : Text
  subject : OutboundWebhookSubject
  data : List (Text × EventDatum)

/-- The projections of an operation, in the order they are made. -/
def domainProjections [Sha256Platform] (input : SuccessfulOperationLifecycleInput) :
    List DomainEventProjection :=
  (campaignProjection input).toList ++ subscriberProjection input ++ abTestProjection input ++
    sequenceProjection input

def projectSuccessfulOperationLifecycleEvents [Sha256Platform] [InheritedNaming]
    (input : SuccessfulOperationLifecycleInput) : List DomainEvent :=
  (domainProjections input).mapIdx fun index projection =>
    { id := domainEventId input.executionId projection index
      type := projection.type
      occurredAt := input.occurredAt
      source := projection.source
      correlationId := input.executionId
      subject := projection.subject
      data := ("operation_id", .value (.string input.operationId)) :: projection.data }

/-! ## What an operation can announce -/

section Announced

variable {input : SuccessfulOperationLifecycleInput}

/-- An operation announces nothing when no part of the projection does. -/
theorem projected_eq_nil_iff [Sha256Platform] [InheritedNaming] :
    projectSuccessfulOperationLifecycleEvents input = [] ↔
      campaignProjection input = none ∧ subscriberProjection input = [] ∧
        abTestProjection input = [] ∧ sequenceProjection input = [] := by
  simp [projectSuccessfulOperationLifecycleEvents, domainProjections]

/-- Only the four campaign transitions announce something about a campaign. -/
theorem campaignProjection_eq_none (h : readTable campaignEventTypes input.operationId = none) :
    campaignProjection input = none := by
  simp [campaignProjection, h]

theorem subscriberProjection_eq_nil [Sha256Platform] (h : input.operationId ∉
    ([("subscribers.create" : Text), "subscribers.update", "subscribers.blocklist"])) :
    subscriberProjection input = [] := by
  simp only [List.mem_cons, List.not_mem_nil, or_false, not_or] at h
  simp [subscriberProjection, h]

theorem abTestProjection_eq_nil (h : input.operationId ∉ ([("abtest.launch" : Text),
    "abtest.deploy-winner", "abtest.analyze", "abtest.run", "abtest.tick"])) :
    abTestProjection input = [] := by
  simp only [List.mem_cons, List.not_mem_nil, or_false, not_or] at h
  simp [abTestProjection, h]

/-- Only the operations with a case of their own announce something about sequences. -/
theorem sequenceProjection_eq_nil (h : sequenceCases.lookup input.operationId = none) :
    sequenceProjection input = [] := by
  rw [sequenceProjection, h]
  cases reportedSequenceId input <;> rfl

/-- A batch of subscribers is not announced when the raw input asks for a dry run. -/
theorem subscriberProjection_of_dry [Sha256Platform]
    (hid : input.operationId = ("subscribers.blocklist" : Text))
    (hdry : isBoolean true (Value.get input.operationInput "dry_run") = true) :
    subscriberProjection input = [] := by
  simp [subscriberProjection, hid, hdry]

/-- A tick announces the entries of its results, unless the raw input asks for a dry run. -/
theorem abTestProjection_tick (hid : input.operationId = ("abtest.tick" : Text)) :
    abTestProjection input = [] ↔
      isBoolean true (Value.get input.operationInput "dry_run") = true ∨
        ∀ result ∈ tickResults input.operationOutput, tickResultProjection result = none := by
  unfold abTestProjection
  split
  · next h => simp [h.2]
  · next h =>
      have hdry : isBoolean true (Value.get input.operationInput "dry_run") = false := by
        simpa [hid] using h
      simp [hid, hdry, List.filterMap_eq_nil_iff]

theorem sequenceProjection_reconcile (hid : input.operationId = ("sequences.reconcile" : Text)) :
    sequenceProjection input = [] ↔
      outputResource input.operationOutput "enrollment" = none ∨
        reportedSequenceId input = none := by
  have hcase : sequenceCases.lookup input.operationId =
      some { resource := .enrollment, type := .sequenceReconciled,
             data := [("enrollment_id", "id"), ("status", "status")] } := by
    rw [hid]
    rfl
  rw [sequenceProjection, hcase]
  cases reportedSequenceId input with
  | none => simp
  | some sequenceId => simp

end Announced

end ListmonkOps.Webhook
