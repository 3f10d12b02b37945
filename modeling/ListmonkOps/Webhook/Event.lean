/-
Outbound webhook events.

An event names what happened, where and to what, and carries data that is
redacted before anything else sees it. The event that is created is the event
that is stored: creating it again from its own fields changes nothing.
-/

import ListmonkOps.Webhook.Redaction

namespace ListmonkOps.Webhook

open ListmonkOps.Runtime

/-! ## Errors -/

/-- The records that a call can fail to find. -/
inductive RecordKind where
  | endpoint
  | delivery
  deriving DecidableEq

/-- The codes of an `OutboundWebhookConflictError`. -/
inductive ConflictCode where
  | conflict
  | endpointUnavailable
  | deliveryStateConflict
  | leaseConflict
  deriving DecidableEq

/-- What a call on the outbox throws. -/
inductive WebhookError where
  /-- An `OutboundWebhookNotFoundError`. -/
  | notFound (kind : RecordKind) (id : Text)
  /-- An `OutboundWebhookConflictError`. -/
  | conflict (message : Text) (code : ConflictCode)
  /-- A value that fails its schema. -/
  | schema
  /-- A `RangeError`: of an argument, or of `toISOString`. -/
  | range
  /-- The `TypeError` of a URL that is refused. -/
  | url
  /-- The `TypeError` of a document that fails its parser before it is written. -/
  | document
  /-- The `TypeError` of a circuit bypass that names no deliveries. -/
  | circuitBypass
  deriving DecidableEq

def require (condition : Bool) : Except WebhookError Unit :=
  if condition then .ok () else .error .schema

@[simp]
theorem require_bind_eq_ok {α : Type} {condition : Bool} {next : Unit → Except WebhookError α}
    {a : α} : (require condition >>= next) = .ok a ↔ condition = true ∧ next () = .ok a := by
  cases condition <;> simp [require, bind, Except.bind]

/-- `now.toISOString()`. -/
def nowIso (now : ℤ) : Except WebhookError DateTime :=
  match toISOString now with
  | some d => .ok d
  | none => .error .range

theorem nowIso_eq_ok {now : ℤ} {d : DateTime} (h : nowIso now = .ok d) : d = { time := now } := by
  unfold nowIso at h
  split at h
  · next hiso =>
      obtain rfl := Except.ok.inj h
      exact toISOString_eq_some hiso
  · simp at h

/-! ## Event types and filters -/

inductive OutboundWebhookEventType where
  | operationStarted
  | operationBlocked
  | operationSucceeded
  | operationFailed
  | campaignScheduled
  | campaignStarted
  | campaignPaused
  | campaignCancelled
  | campaignFinished
  | subscriberCreated
  | subscriberUpdated
  | subscriberBlocklisted
  | subscriberUnsubscribed
  | deliveryDelivered
  | deliveryBounced
  | deliveryComplained
  | deliveryDelayed
  | deliveryRejected
  | abtestStarted
  | abtestReadyForAnalysis
  | abtestWinnerSelected
  | abtestInconclusive
  | abtestFailed
  | sequenceCreated
  | sequenceRevised
  | sequenceEnrolled
  | sequencePaused
  | sequenceResumed
  | sequenceReconciled
  | sequenceDeleted
  | webhookTest
  deriving DecidableEq

def OutboundWebhookEventType.text : OutboundWebhookEventType → Text
  | .operationStarted => "operation.started"
  | .operationBlocked => "operation.blocked"
  | .operationSucceeded => "operation.succeeded"
  | .operationFailed => "operation.failed"
  | .campaignScheduled => "campaign.scheduled"
  | .campaignStarted => "campaign.started"
  | .campaignPaused => "campaign.paused"
  | .campaignCancelled => "campaign.cancelled"
  | .campaignFinished => "campaign.finished"
  | .subscriberCreated => "subscriber.created"
  | .subscriberUpdated => "subscriber.updated"
  | .subscriberBlocklisted => "subscriber.blocklisted"
  | .subscriberUnsubscribed => "subscriber.unsubscribed"
  | .deliveryDelivered => "delivery.delivered"
  | .deliveryBounced => "delivery.bounced"
  | .deliveryComplained => "delivery.complained"
  | .deliveryDelayed => "delivery.delayed"
  | .deliveryRejected => "delivery.rejected"
  | .abtestStarted => "abtest.started"
  | .abtestReadyForAnalysis => "abtest.ready-for-analysis"
  | .abtestWinnerSelected => "abtest.winner-selected"
  | .abtestInconclusive => "abtest.inconclusive"
  | .abtestFailed => "abtest.failed"
  | .sequenceCreated => "sequence.created"
  | .sequenceRevised => "sequence.revised"
  | .sequenceEnrolled => "sequence.enrolled"
  | .sequencePaused => "sequence.paused"
  | .sequenceResumed => "sequence.resumed"
  | .sequenceReconciled => "sequence.reconciled"
  | .sequenceDeleted => "sequence.deleted"
  | .webhookTest => "webhook.test"

/-- The families of event types that a filter can name. -/
inductive OutboundWebhookEventFamily where
  | operation
  | campaign
  | subscriber
  | delivery
  | abtest
  | sequence
  | webhook
  deriving DecidableEq

/-- The text of a family filter, without its star. -/
def OutboundWebhookEventFamily.text : OutboundWebhookEventFamily → Text
  | .operation => "operation."
  | .campaign => "campaign."
  | .subscriber => "subscriber."
  | .delivery => "delivery."
  | .abtest => "abtest."
  | .sequence => "sequence."
  | .webhook => "webhook."

inductive OutboundWebhookEventFilter where
  | all
  | type (type : OutboundWebhookEventType)
  | family (family : OutboundWebhookEventFamily)
  deriving DecidableEq

def matchesOutboundWebhookEvent (filters : List OutboundWebhookEventFilter)
    (eventType : OutboundWebhookEventType) : Bool :=
  filters.any fun
    | .all => true
    | .family family => family.text.isPrefixOf eventType.text
    | .type type => type = eventType

/-! ## Events -/

inductive OutboundWebhookEventSource where
  | listmonk
  | provider
  | operation
  | abtest
  | sequence
  | webhook
  deriving DecidableEq

inductive OutboundWebhookSubjectKind where
  | operation
  | campaign
  | subscriber
  | message
  | experiment
  | sequence
  | webhook
  deriving DecidableEq

structure OutboundWebhookSubject where
  kind : OutboundWebhookSubjectKind
  key : Text
  deriving DecidableEq

/-- `OutboundWebhookEvent`; its schema version is the only one there is. -/
structure OutboundWebhookEvent where
  id : Text
  type : OutboundWebhookEventType
  occurredAt : DateTime
  source : OutboundWebhookEventSource
  correlationId : Option Text := none
  subject : Option OutboundWebhookSubject := none
  data : List (Text × Json)

/-- `z.string().trim().min(1).max(n)`. -/
def trimmedText (maximum : ℕ) (value : Text) : Except WebhookError Text := do
  let trimmed := value.trim
  require (trimmed ≠ [] && trimmed.length ≤ maximum)
  return trimmed

/-- `z.string().trim().min(1).max(n).optional()`. -/
def optionalTrimmedText (maximum : ℕ) : Option Text → Except WebhookError (Option Text)
  | none => .ok none
  | some value => (trimmedText maximum value).map some

def subjectSchema : Option OutboundWebhookSubject →
    Except WebhookError (Option OutboundWebhookSubject)
  | none => .ok none
  | some subject => (trimmedText 300 subject.key).map fun key => some { subject with key }

def eventSchema (value : OutboundWebhookEvent) : Except WebhookError OutboundWebhookEvent := do
  require (isUuid value.id && isoDateTimeSchema value.occurredAt)
  let correlationId ← optionalTrimmedText 200 value.correlationId
  let subject ← subjectSchema value.subject
  return { value with correlationId, subject }

structure CreateOutboundWebhookEventInput where
  id : Option Text := none
  type : OutboundWebhookEventType
  occurredAt : Option DateTime := none
  source : OutboundWebhookEventSource
  correlationId : Option Text := none
  subject : Option OutboundWebhookSubject := none
  data : Option (List (Text × Json)) := none

/-- `input.correlationId?.trim() || undefined`. -/
def presentText (value : Option Text) : Option Text :=
  match value.map Text.trim with
  | some [] => none
  | trimmed => trimmed

/-- `createOutboundWebhookEvent`, with the UUID it would draw and the time it reads. -/
def createOutboundWebhookEvent (input : CreateOutboundWebhookEventInput) (newId : Text) (now : ℤ) :
    Except WebhookError OutboundWebhookEvent := do
  let occurredAt ← input.occurredAt.elim (nowIso now) Except.ok
  eventSchema
    { id := input.id.getD newId
      type := input.type
      occurredAt
      source := input.source
      correlationId := presentText input.correlationId
      subject := input.subject
      data := redactOutboundWebhookData (input.data.getD []) }

/-- The fields of an event, as the file repository passes them on. -/
def OutboundWebhookEvent.toInput (event : OutboundWebhookEvent) : CreateOutboundWebhookEventInput where
  id := some event.id
  type := event.type
  occurredAt := some event.occurredAt
  source := event.source
  correlationId := event.correlationId
  subject := event.subject
  data := some event.data

/-! ## An event is created once -/

section Created

variable {maximum : ℕ} {event parsed : OutboundWebhookEvent}

theorem trimmedText_eq_ok {value trimmed : Text} (h : trimmedText maximum value = .ok trimmed) :
    trimmed.trim = trimmed ∧ trimmed ≠ [] ∧ trimmedText maximum trimmed = .ok trimmed := by
  obtain ⟨hbounds, h⟩ := require_bind_eq_ok.mp h
  obtain rfl := Except.ok.inj h
  have htrimmed : value.trim.trim = value.trim := Text.trim_trim value
  refine ⟨htrimmed, ?_, ?_⟩
  · intro hempty
    simp [hempty] at hbounds
  · rw [trimmedText, htrimmed]
    exact require_bind_eq_ok.mpr ⟨hbounds, rfl⟩

theorem optionalTrimmedText_eq_ok {value trimmed : Option Text}
    (h : optionalTrimmedText maximum value = .ok trimmed) :
    presentText trimmed = trimmed ∧ optionalTrimmedText maximum trimmed = .ok trimmed := by
  cases value with
  | none =>
      obtain rfl := Except.ok.inj h
      exact ⟨rfl, rfl⟩
  | some value =>
      cases htext : trimmedText maximum value with
      | error error => simp [optionalTrimmedText, htext, Except.map] at h
      | ok text =>
          obtain rfl : some text = trimmed := by simpa [optionalTrimmedText, htext, Except.map] using h
          obtain ⟨htrim, hne, hstable⟩ := trimmedText_eq_ok htext
          constructor
          · cases text with
            | nil => exact absurd rfl hne
            | cons unit rest => simp [presentText, htrim]
          · simp [optionalTrimmedText, hstable, Except.map]

theorem subjectSchema_stable {value subject : Option OutboundWebhookSubject}
    (h : subjectSchema value = .ok subject) : subjectSchema subject = .ok subject := by
  cases value with
  | none =>
      obtain rfl := Except.ok.inj h
      rfl
  | some value =>
      cases htext : trimmedText 300 value.key with
      | error error => simp [subjectSchema, htext, Except.map] at h
      | ok key =>
          obtain rfl : some { value with key } = subject := by
            simpa [subjectSchema, htext, Except.map] using h
          simp [subjectSchema, (trimmedText_eq_ok htext).2.2, Except.map]

theorem eventSchema_eq_ok (h : eventSchema event = .ok parsed) :
    parsed.id = event.id ∧ parsed.type = event.type ∧ parsed.data = event.data ∧
      isUuid parsed.id = true ∧ presentText parsed.correlationId = parsed.correlationId ∧
      eventSchema parsed = .ok parsed := by
  obtain ⟨hid, h⟩ := require_bind_eq_ok.mp h
  obtain ⟨correlationId, hcorrelation, h⟩ := except_bind_eq_ok.mp h
  obtain ⟨subject, hsubject, h⟩ := except_bind_eq_ok.mp h
  obtain rfl := Except.ok.inj h
  obtain ⟨hpresent, hstable⟩ := optionalTrimmedText_eq_ok hcorrelation
  refine ⟨rfl, rfl, rfl, (Bool.and_eq_true_iff.mp hid).1, hpresent, ?_⟩
  exact require_bind_eq_ok.mpr ⟨hid, except_bind_eq_ok.mpr ⟨_, hstable,
    except_bind_eq_ok.mpr ⟨_, subjectSchema_stable hsubject, rfl⟩⟩⟩

/-- An event that was created is created again from its own fields as it is. -/
theorem createOutboundWebhookEvent_toInput {input : CreateOutboundWebhookEventInput}
    {newId : Text} {now : ℤ} (h : createOutboundWebhookEvent input newId now = .ok event)
    (newId' : Text) (now' : ℤ) :
    createOutboundWebhookEvent event.toInput newId' now' = .ok event := by
  obtain ⟨occurredAt, -, h⟩ := except_bind_eq_ok.mp h
  obtain ⟨-, -, hdata, -, hpresent, hstable⟩ := eventSchema_eq_ok h
  have hredacted : redactOutboundWebhookData event.data = event.data := by
    rw [hdata]
    exact redactOutboundWebhookData_idem _
  simpa [createOutboundWebhookEvent, OutboundWebhookEvent.toInput, hpresent, hredacted] using hstable

end Created

end ListmonkOps.Webhook
