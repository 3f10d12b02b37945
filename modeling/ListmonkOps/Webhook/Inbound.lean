/-
Inbound provider events.

A mail provider reports what became of a message, under an identifier of its
own, and may report it again. Each report becomes an event of the outbox whose
identifier is a hash of the provider and of the provider's identifier, so the
outbox drops what it has seen. The two are joined by a separator that either may
contain: which pairs of reports are then taken for one is said here exactly.
-/

import ListmonkOps.Runtime.Digest
import ListmonkOps.Webhook.Capacity
import ListmonkOps.Webhook.Invariant

namespace ListmonkOps.Webhook

open ListmonkOps.Math ListmonkOps.Runtime

/-! ## Reports -/

inductive InboundDeliveryEventKind where
  | delivered
  | bounced
  | complained
  | unsubscribed
  | delayed
  | rejected
  deriving DecidableEq

structure IngestInboundDeliveryEventInput where
  provider : Text
  providerEventId : Text
  kind : InboundDeliveryEventKind
  occurredAt : Option DateTime := none
  messageId : Option Text := none
  subscriberUuid : Option Text := none
  campaignId : Option ℚ := none
  metadata : Option (List (Text × Json)) := none

/-- What `ingestInboundDeliveryEvent` throws. -/
inductive IngestError where
  /-- A `TypeError`. -/
  | type (message : Text)
  /-- A `RangeError`. -/
  | range (message : Text)
  /-- An error of the outbox. -/
  | webhook (error : WebhookError)
  deriving DecidableEq

/-- `if (condition) throw error`. -/
def throwIf (condition : Bool) (error : IngestError) : Except IngestError Unit :=
  if condition then .error error else .ok ()

@[simp]
theorem throwIf_bind_eq_ok {α : Type} {condition : Bool} {error : IngestError}
    {next : Unit → Except IngestError α} {a : α} :
    (throwIf condition error >>= next) = .ok a ↔ condition = false ∧ next () = .ok a := by
  cases condition <;> simp [throwIf, bind, Except.bind]

/-- What the platform writes for metadata. -/
class MetadataPlatform where
  /-- `JSON.stringify(metadata)`; `none` where it throws. -/
  stringify : List (Text × Json) → Option Text

section Ingest

variable [CaseMapping] [Sha256Platform] [MetadataPlatform]

open CaseMapping

omit [CaseMapping] [MetadataPlatform] in
def deterministicUuid (value : Text) : Text :=
  let bytes := (sha256 value).take 16
  let bytes := bytes.modify 6 fun byte => (byte &&& 0x0f) ||| 0x50
  let bytes := bytes.modify 8 fun byte => (byte &&& 0x3f) ||| 0x80
  let hex := hexText bytes
  hex.take 8 ++ 45 :: ((hex.take 12).drop 8 ++ 45 :: ((hex.take 16).drop 12 ++
    45 :: ((hex.take 20).drop 16 ++ 45 :: hex.drop 20)))

omit [CaseMapping] [Sha256Platform] [MetadataPlatform] in
def toEventType : InboundDeliveryEventKind → OutboundWebhookEventType
  | .unsubscribed => .subscriberUnsubscribed
  | .delivered => .deliveryDelivered
  | .bounced => .deliveryBounced
  | .complained => .deliveryComplained
  | .delayed => .deliveryDelayed
  | .rejected => .deliveryRejected

/-- The provider and the provider's identifier, as a report is identified by them. -/
structure EventIdentity where
  provider : Text
  eventId : Text
  deriving DecidableEq

omit [Sha256Platform] [MetadataPlatform] in
/-- `provider` and `providerEventId`, trimmed and in lower case. -/
def identityOf (input : IngestInboundDeliveryEventInput) : EventIdentity where
  provider := toLowerCase input.provider.trim
  eventId := input.providerEventId.trim

omit [CaseMapping] [Sha256Platform] [MetadataPlatform] in
/-- The text that is hashed for a report, under a label. -/
def EventIdentity.text (identity : EventIdentity) (label : Text) : Text :=
  identity.provider ++ label ++ identity.eventId

omit [CaseMapping] [Sha256Platform] in
/-- The metadata that is kept, which has to be writable and short. -/
def keptMetadata (metadata : Option (List (Text × Json))) :
    Except IngestError (List (Text × Json)) :=
  let kept := (metadata.getD []).filter fun member => member.1 ∉
    ([("provider" : Text), "provider_event_id", "campaign_id", "subscriber_uuid"] : List Text)
  match MetadataPlatform.stringify kept with
  | none => .error (.type "metadata must be JSON serializable")
  | some metadataJson =>
      if 16384 < metadataJson.utf8Length then
        .error (.range "metadata must not exceed 16384 bytes")
      else .ok kept

/-- The event that `ingestInboundDeliveryEvent` passes on. -/
def inboundEventInput (input : IngestInboundDeliveryEventInput) :
    Except IngestError CreateOutboundWebhookEventInput := do
  let identity := identityOf input
  throwIf (identity.provider = [] || identity.eventId = [])
    (.type "provider and providerEventId must not be blank")
  throwIf (100 < identity.provider.length) (.range "provider must not exceed 100 characters")
  throwIf (200 < identity.eventId.length) (.range "providerEventId must not exceed 200 characters")
  throwIf (input.occurredAt.any fun at_ => !isoDateTimeSchema at_)
    (.type "occurredAt must be an ISO 8601 date-time with an offset")
  let subscriberUuid := input.subscriberUuid.map Text.trim
  let messageId := input.messageId.map Text.trim
  throwIf (messageId.any fun id => 300 < id.length)
    (.range "messageId must not exceed 300 characters")
  throwIf (input.kind = .unsubscribed && subscriberUuid.all (· = []))
    (.type "subscriberUuid is required for unsubscribed delivery events")
  throwIf (subscriberUuid.any fun uuid => !isUuid uuid)
    (.type "subscriberUuid must be a valid UUID when provided")
  let metadata ← keptMetadata input.metadata
  let subject : OutboundWebhookSubject :=
    if input.kind = .unsubscribed then { kind := .subscriber, key := subscriberUuid.getD [] }
    else
      { kind := .message
        key := (messageId.filter (· ≠ [])).getD (deterministicUuid (identity.text ":message:")) }
  return {
    id := some (deterministicUuid (identity.text ":event:"))
    type := toEventType input.kind
    occurredAt := input.occurredAt
    source := .provider
    correlationId := some identity.eventId
    subject := some subject
    data := some (metadata ++
      [(("provider" : Text), Json.string identity.provider),
        (("provider_event_id" : Text), Json.string identity.eventId)] ++
      (input.campaignId.map fun id => (("campaign_id" : Text), Json.number id)).toList ++
      (subscriberUuid.map fun uuid => (("subscriber_uuid" : Text), Json.string uuid)).toList) }

/-- `ingestInboundDeliveryEvent`, with the two times it reads and the UUIDs of the deliveries
it would draw. -/
def ingestInboundDeliveryEvent (input : IngestInboundDeliveryEventInput) (limit : Option ℕ)
    (clock now : ℤ) (newDeliveryId : ℕ → Text) (store : OutboundWebhookStore) :
    OutboundWebhookStore × Except IngestError EnqueueOutboundWebhookResult :=
  match inboundEventInput input with
  | .error error => (store, .error error)
  | .ok event =>
      match enqueueOutboundWebhookEvent event { limit, now } [] clock newDeliveryId store with
      | (store', .ok result) => (store', .ok result)
      | (store', .error error) => (store', .error (.webhook error))

/-- The event that a report is stored as. -/
def ingestedEvent (input : IngestInboundDeliveryEventInput) (clock : ℤ) :
    Except IngestError OutboundWebhookEvent := do
  let event ← inboundEventInput input
  match createOutboundWebhookEvent event [] clock with
  | .ok event => .ok event
  | .error error => .error (.webhook error)

theorem inboundEventInput_id {input : IngestInboundDeliveryEventInput}
    {event : CreateOutboundWebhookEventInput} (h : inboundEventInput input = .ok event) :
    event.id = some (deterministicUuid ((identityOf input).text ":event:")) := by
  simp only [inboundEventInput, throwIf_bind_eq_ok] at h
  obtain ⟨-, -, -, -, -, -, -, h⟩ := h
  obtain ⟨metadata, -, h⟩ := except_bind_eq_ok.mp h
  obtain rfl := Except.ok.inj h
  rfl

theorem ingestedEvent_eq_ok {input : IngestInboundDeliveryEventInput} {clock : ℤ}
    {event : OutboundWebhookEvent} (h : ingestedEvent input clock = .ok event) :
    ∃ create, inboundEventInput input = .ok create ∧
      createOutboundWebhookEvent create [] clock = .ok event := by
  obtain ⟨create, hcreate, h⟩ := except_bind_eq_ok.mp h
  refine ⟨create, hcreate, ?_⟩
  split at h
  · next hevent => rw [hevent, Except.ok.inj h]
  · simp at h

/-- The identifier of an event is the hash of the identity it was reported under, and a
UUID. -/
theorem ingestedEvent_id {input : IngestInboundDeliveryEventInput} {clock : ℤ}
    {event : OutboundWebhookEvent} (h : ingestedEvent input clock = .ok event) :
    event.id = deterministicUuid ((identityOf input).text ":event:") ∧ isUuid event.id = true := by
  obtain ⟨create, hcreate, h⟩ := ingestedEvent_eq_ok h
  obtain ⟨occurredAt, -, h⟩ := except_bind_eq_ok.mp h
  obtain ⟨hid, -, -, huuid, -⟩ := eventSchema_eq_ok h
  refine ⟨?_, huuid⟩
  rw [hid]
  simp [inboundEventInput_id hcreate]

end Ingest

/-! ## Reports that are taken for one -/

namespace EventIdentity

def toWellFormed (identity : EventIdentity) : EventIdentity where
  provider := identity.provider.toWellFormed
  eventId := identity.eventId.toWellFormed

/-- The provider of the second identity takes in the separator, and what follows it in the
first: by less than a whole separator, or by a whole one and more. -/
def Shifted (first second : EventIdentity) : Prop :=
  (second.provider = first.provider ++ (":event" : Text) ∧
    first.eventId = ("event:" : Text) ++ second.eventId) ∨
  ∃ between : Text, second.provider = first.provider ++ (":event:" : Text) ++ between ∧
    first.eventId = between ++ (":event:" : Text) ++ second.eventId

/-- Two identities that differ, but in nothing that the hash of a joined text can see. -/
def Confusable (first second : EventIdentity) : Prop :=
  first ≠ second ∧
    (first.toWellFormed = second.toWellFormed ∨ Shifted first.toWellFormed second.toWellFormed ∨
      Shifted second.toWellFormed first.toWellFormed)

theorem Confusable.symm {first second : EventIdentity} (h : Confusable first second) :
    Confusable second first := by
  obtain ⟨hne, hsame | hshift | hshift⟩ := h
  · exact ⟨hne.symm, .inl hsame.symm⟩
  · exact ⟨hne.symm, .inr (.inr hshift)⟩
  · exact ⟨hne.symm, .inr (.inl hshift)⟩

theorem separator_eq : (":event:" : Text) = [58, 101, 118, 101, 110, 116, 58] := by decide

theorem toWellFormed_text (identity : EventIdentity) :
    (identity.text ":event:").toWellFormed = identity.toWellFormed.text ":event:" := by
  have hletters : ∀ {t : Text}, Text.toWellFormed ([101, 118, 101, 110, 116] ++ 58 :: t) =
      [101, 118, 101, 110, 116] ++ 58 :: t.toWellFormed := fun {t} => by
    rw [Text.toWellFormed_append_cons (by decide) (by decide)]
    rfl
  have hjoined : identity.text ":event:" =
      identity.provider ++ 58 :: ([101, 118, 101, 110, 116] ++ 58 :: identity.eventId) := by
    simp [text, separator_eq]
  rw [hjoined, Text.toWellFormed_append_cons (by decide) (by decide), hletters]
  simp [text, toWellFormed, separator_eq]

theorem separator_overlap {extra tail first second : Text} (hne : extra ≠ [])
    (hextra : (":event:" : Text) = extra ++ tail)
    (h : (":event:" : Text) ++ second = tail ++ first) :
    (extra = (":event" : Text) ∧ first = ("event:" : Text) ++ second) ∨
      (extra = (":event:" : Text) ∧ first = (":event:" : Text) ++ second) := by
  rw [separator_eq] at hextra h
  match extra with
  | [] => exact absurd rfl hne
  | [_] | [_, _] | [_, _, _] | [_, _, _, _] | [_, _, _, _, _] =>
      simp only [List.cons_append, List.nil_append, List.cons.injEq] at hextra
      simp [← hextra] at h
  | [_, _, _, _, _, _] =>
      obtain ⟨rfl, rfl, rfl, rfl, rfl, rfl, rfl⟩ := by simpa using hextra
      have hsuffix : ("event:" : Text) = [101, 118, 101, 110, 116, 58] := by decide
      exact .inl ⟨by decide, by simpa [hsuffix] using h.symm⟩
  | _ :: _ :: _ :: _ :: _ :: _ :: _ :: rest =>
      obtain ⟨rfl, rfl, rfl, rfl, rfl, rfl, rfl, rfl, rfl⟩ := by simpa using hextra
      exact .inr ⟨by decide, by simpa [separator_eq] using h.symm⟩

/-- Where two joined texts agree and one provider is longer, the identities are shifted. -/
theorem shifted_of_append {first second : EventIdentity} {extra : Text} (hne : extra ≠ [])
    (hprovider : second.provider = first.provider ++ extra)
    (h : (":event:" : Text) ++ first.eventId = extra ++ ((":event:" : Text) ++ second.eventId)) :
    Shifted first second := by
  rcases List.append_eq_append_iff.mp h with ⟨between, hextra, hfirst⟩ | ⟨tail, hextra, hsecond⟩
  · refine .inr ⟨between, ?_, ?_⟩
    · rw [hprovider, hextra, List.append_assoc]
    · rw [hfirst, List.append_assoc]
  · rcases separator_overlap hne hextra hsecond with ⟨rfl, hfirst⟩ | ⟨rfl, hfirst⟩
    · exact .inl ⟨hprovider, hfirst⟩
    · exact .inr ⟨[], by simpa using hprovider, hfirst⟩

theorem Shifted.text_eq {first second : EventIdentity} (h : Shifted first second) :
    first.text ":event:" = second.text ":event:" := by
  rcases h with ⟨hprovider, hfirst⟩ | ⟨between, hprovider, hfirst⟩
  · rw [text, text, hprovider, hfirst]
    simp [show (":event" : Text) = [58, 101, 118, 101, 110, 116] by decide,
      show ("event:" : Text) = [101, 118, 101, 110, 116, 58] by decide, separator_eq]
  · rw [text, text, hprovider, hfirst]
    simp only [List.append_assoc]

/-- Two identities give one text when they are the same, or when one is shifted against the
other. -/
theorem text_eq_iff {first second : EventIdentity} :
    first.text ":event:" = second.text ":event:" ↔
      first = second ∨ Shifted first second ∨ Shifted second first := by
  constructor
  · intro h
    unfold text at h
    rw [List.append_assoc, List.append_assoc] at h
    rcases List.append_eq_append_iff.mp h with ⟨extra, hprovider, hrest⟩ |
      ⟨extra, hprovider, hrest⟩
    · by_cases hne : extra = []
      · left
        subst hne
        have heventId : first.eventId = second.eventId := by simpa using hrest
        cases first
        cases second
        simp_all
      · exact .inr (.inl (shifted_of_append hne hprovider hrest))
    · by_cases hne : extra = []
      · left
        subst hne
        have heventId : second.eventId = first.eventId := by simpa using hrest
        cases first
        cases second
        simp_all
      · exact .inr (.inr (shifted_of_append hne hprovider hrest))
  · rintro (rfl | hshift | hshift)
    · rfl
    · exact hshift.text_eq
    · exact hshift.text_eq.symm

/-- Two identities are confusable exactly when they differ and their joined texts read
alike. -/
theorem confusable_iff {first second : EventIdentity} : Confusable first second ↔
    first ≠ second ∧
      (first.text ":event:").toWellFormed = (second.text ":event:").toWellFormed := by
  rw [toWellFormed_text, toWellFormed_text, text_eq_iff]
  rfl

end EventIdentity

/-! ## Runs -/

/-- The calls on an outbox that takes reports. -/
inductive InboundCall where
  | ingest (input : IngestInboundDeliveryEventInput) (limit : Option ℕ) (clock now : ℤ)
      (newDeliveryId : ℕ → Text)
  | outbox (call : OutboxCall)

/-- An event is not queued for the endpoints for which the outbox holds it. -/
theorem mem_freshEndpoints {event : OutboundWebhookEvent} {options : EnqueueOptions}
    {store : OutboundWebhookStore} {endpoint : OutboundWebhookEndpoint} (hstored : store.Stored)
    (hid : isUuid event.id = true) : endpoint ∈ freshEndpoints event options store ↔
      endpoint ∈ store.endpoints.filter (selectsEndpoint options event) ∧
        ¬ ∃ delivery ∈ store.deliveries, delivery.pair = (event.id, endpoint.id) := by
  have hcolon : (":" : Text) = [58] := by decide
  have hkey : ∀ delivery ∈ store.deliveries,
      deliveryKey delivery.eventId delivery.endpointId = deliveryKey event.id endpoint.id ↔
        delivery.pair = (event.id, endpoint.id) := by
    intro delivery hmem
    obtain ⟨hbounds, -⟩ := deliverySchema_eq_ok (hstored.deliveries delivery hmem)
    have heventId : isUuid delivery.eventId = true := by
      simp only [OutboundWebhookDelivery.inBounds, Bool.and_eq_true] at hbounds
      tauto
    constructor
    · intro h
      obtain ⟨hevent, hendpoint⟩ := append_colon_inj (colon_not_mem_of_isUuid heventId)
        (colon_not_mem_of_isUuid hid) (by simpa [deliveryKey, hcolon] using h)
      rw [OutboundWebhookDelivery.pair, hevent, hendpoint]
    · intro h
      obtain ⟨hevent, hendpoint⟩ := Prod.mk.inj h
      rw [hevent, hendpoint]
  rw [freshEndpoints, List.mem_filter]
  simp only [decide_eq_true_eq, List.mem_map, not_exists, not_and]
  exact and_congr_right fun _ =>
    forall_congr' fun delivery => forall_congr' fun hmem => not_congr (hkey delivery hmem)

section Runs

variable [CaseMapping] [EndpointUrlPolicy] [Sha256Platform] [MetadataPlatform]

/-- The step relation: a report that draws new identifiers for its deliveries, or any other
call. -/
def InboundCall.Step (store : OutboundWebhookStore) (call : InboundCall)
    (store' : OutboundWebhookStore) : Prop :=
  match call with
  | .ingest input limit clock now newDeliveryId =>
      (Function.Injective newDeliveryId ∧
        ∀ delivery ∈ store.deliveries, ∀ i, delivery.id ≠ newDeliveryId i) ∧
      store' = (ingestInboundDeliveryEvent input limit clock now newDeliveryId store).1
  | .outbox call => call.Matched store ∧ OutboxCall.Step store call store'

omit [EndpointUrlPolicy] in
/-- A report among some calls, and the event it is stored as. -/
def Reported (calls : List InboundCall) (input : IngestInboundDeliveryEventInput)
    (event : OutboundWebhookEvent) : Prop :=
  ∃ limit clock now newDeliveryId, .ingest input limit clock now newDeliveryId ∈ calls ∧
    ingestedEvent input clock = .ok event

theorem outboxInvariant_of_inbound {calls : List InboundCall} {store : OutboundWebhookStore}
    (hrun : Run InboundCall.Step {} calls store) : OutboxInvariant store := by
  generalize hstart : ({} : OutboundWebhookStore) = start at hrun
  induction hrun with
  | refl => exact hstart ▸ outboxInvariant_empty
  | snoc before last ih =>
      rename_i t u labels call
      cases call with
      | outbox call => exact ih.step last.1 last.2
      | ingest input limit clock now newDeliveryId =>
          obtain ⟨hfresh, rfl⟩ := last
          unfold ingestInboundDeliveryEvent
          split
          · exact ih
          · next event hevent =>
              have hmatched : OutboxCall.Matched t
                  (.enqueue event { limit, now } [] clock newDeliveryId) := trivial
              have hstep : OutboxCall.Step t (.enqueue event { limit, now } [] clock newDeliveryId)
                  (enqueueOutboundWebhookEvent event { limit, now } [] clock newDeliveryId t).1 :=
                ⟨hfresh, rfl⟩
              have hkept := ih.step hmatched hstep
              split <;> next hresult => rwa [hresult] at hkept

/-- Reports are deduplicated by identity. Those of one identity, and only those, have one
event; an outbox holds at most one delivery of it for each endpoint; and what keeps a report
from being queued for an endpoint that wants it is a retained delivery for that endpoint, of
the report's own event and so of no report of another identity. -/
structure Deduplicated (calls : List InboundCall) (store : OutboundWebhookStore) : Prop where
  ids : ∀ {input input' event event'}, Reported calls input event → Reported calls input' event' →
    (event.id = event'.id ↔ identityOf input = identityOf input')
  once : ∀ {input event}, Reported calls input event → ∀ endpointId,
    (store.deliveries.map OutboundWebhookDelivery.pair).count (event.id, endpointId) ≤ 1
  dropped : ∀ {input event}, Reported calls input event → ∀ options endpoint,
    endpoint ∈ store.endpoints.filter (selectsEndpoint options event) →
      (endpoint ∉ freshEndpoints event options store ↔
        ∃ delivery ∈ store.deliveries, delivery.pair = (event.id, endpoint.id))
  unmixed : ∀ {input input' event event'}, Reported calls input event →
    Reported calls input' event' → ∀ delivery ∈ store.deliveries, ∀ endpointId,
      delivery.pair = (event.id, endpointId) → delivery.pair = (event'.id, endpointId) →
        identityOf input = identityOf input'

omit [EndpointUrlPolicy] in
/-- No two reports among some calls have identities that a joined text confuses. -/
def Unconfused (calls : List InboundCall) : Prop :=
  ∀ {input input' event event'}, Reported calls input event → Reported calls input' event' →
    ¬ (identityOf input).Confusable (identityOf input')

omit [EndpointUrlPolicy] in
/-- The truncated hash tells apart what it reads for the reports among some calls. -/
def HashInjective (calls : List InboundCall) : Prop :=
  ∀ {input input' event event'}, Reported calls input event → Reported calls input' event' →
    deterministicUuid ((identityOf input).text ":event:") =
      deterministicUuid ((identityOf input').text ":event:") →
    ((identityOf input).text ":event:").toWellFormed =
      ((identityOf input').text ":event:").toWellFormed

omit [EndpointUrlPolicy] in
theorem Reported.id {calls : List InboundCall} {input : IngestInboundDeliveryEventInput}
    {event : OutboundWebhookEvent} (h : Reported calls input event) :
    event.id = deterministicUuid ((identityOf input).text ":event:") ∧ isUuid event.id = true := by
  obtain ⟨-, clock, -, -, -, hevent⟩ := h
  exact ingestedEvent_id hevent

omit [EndpointUrlPolicy] in
/-- Two reports have one event when the texts of their identities read alike. -/
theorem Reported.id_eq_iff {calls : List InboundCall}
    {input input' : IngestInboundDeliveryEventInput} {event event' : OutboundWebhookEvent}
    (hhash : HashInjective calls) (h : Reported calls input event)
    (h' : Reported calls input' event') : event.id = event'.id ↔
      ((identityOf input).text ":event:").toWellFormed =
        ((identityOf input').text ":event:").toWellFormed := by
  rw [h.id.1, h'.id.1]
  refine ⟨hhash h h', fun htext => ?_⟩
  rw [deterministicUuid, deterministicUuid, sha256, sha256, htext]

/-- Inbound reports are deduplicated by identity in exactly those runs that have no two
confusable reports. In every run of reports and of other calls on an empty outbox, with a
truncated hash that tells the texts of its reports apart: two reports get one event
identifier exactly when their identities agree, a pair of an event and an endpoint has at
most one delivery, and a retained delivery drops an endpoint of a report exactly when the
report is of the same identity, if and only if no two reports of the run have identities of
which one continues the other across the separator or that differ in half surrogate pairs
only. -/
theorem deduplicated_iff_unconfused {calls : List InboundCall} {store : OutboundWebhookStore}
    (hrun : Run InboundCall.Step {} calls store) (hhash : HashInjective calls) :
    Deduplicated calls store ↔ Unconfused calls := by
  constructor
  · intro h input input' event event' hreported hreported' hconfused
    obtain ⟨hne, htext⟩ := EventIdentity.confusable_iff.mp hconfused
    have hid := (Reported.id_eq_iff hhash hreported hreported').mpr htext
    exact hne ((h.ids hreported hreported').mp hid)
  · intro h
    have hinvariant := outboxInvariant_of_inbound hrun
    have hids : ∀ {input input' event event'}, Reported calls input event →
        Reported calls input' event' →
        (event.id = event'.id ↔ identityOf input = identityOf input') := by
      intro input input' event event' hreported hreported'
      rw [Reported.id_eq_iff hhash hreported hreported']
      constructor
      · intro htext
        by_contra hne
        exact h hreported hreported' (EventIdentity.confusable_iff.mpr ⟨hne, htext⟩)
      · intro hsame
        rw [hsame]
    refine ⟨hids, fun {input event} _ endpointId =>
      List.nodup_iff_count_le_one.mp hinvariant.pairs _, ?_, ?_⟩
    · intro input event hreported options endpoint hselected
      rw [mem_freshEndpoints hinvariant.stored hreported.id.2]
      simp [hselected]
    · intro input input' event event' hreported hreported' delivery _ endpointId hpair hpair'
      exact (hids hreported hreported').mp (Prod.mk.inj (hpair.symm.trans hpair')).1

end Runs

/-! ## Sample reports -/

/-- A platform that writes the empty record. -/
@[reducible]
def plainMetadataPlatform : MetadataPlatform :=
  ⟨fun members => if members.isEmpty then some "{}" else none⟩

/-- The digests of the texts that the sample reports hash. -/
def sampleDigests : List (Text × ℕ) :=
  [("ses:event:a:event:b", 0x7738648df2d8e709253fab7c8d934618dbf3de4ca88fa5f9466b55226ca35144),
    ("ses:message:a:event:b", 0xe66df1e8fa4974a9cdb62bb38bd0f5b9978fa54502f33588a25233093e929c5d),
    ("ses:event:a:message:b", 0x6431c1c5ea654793ba2b67614655c6c5f9f31509b41c84f6ce9466c2c34f5c5b),
    ("ses:event:1", 0x744cfeba922c760959c8452fa5f82e0bc8c3d105a71ae7aac07a507fa7bd8f2a),
    ("ses:message:1", 0xcafacc8ee64e06d97607bf7bb5697dfa7da6f5fe18fccf3b26f098b2eca39c18),
    ("ses:event:2", 0xb5b48b4370a6c1f45cf0a8f989ba716cf94b9d67b544834d37728c32afbf48fd),
    ("ses:message:2", 0x0241b16543eb4efa6bac45353c1fcee5290053754c2a96911af0217a3b844fdf)]

def sampleReport (provider eventId : String) : IngestInboundDeliveryEventInput where
  provider := provider
  providerEventId := eventId
  kind := .bounced

/-- The identifiers of the deliveries of a second report. -/
def laterDeliveryId (n : ℕ) : Text := ("55555555-5555-4555-8555-55555555555" : Text) ++ Text.ofNat n

section Sample

variable [CaseMapping] [EndpointUrlPolicy] [Sha256Platform] [MetadataPlatform]

/-- The outbox with the sample endpoint after two reports, and what the second returned. -/
def afterReports (first second : IngestInboundDeliveryEventInput) :
    OutboundWebhookStore × Except IngestError EnqueueOutboundWebhookResult :=
  ingestInboundDeliveryEvent second none 0 0 laterDeliveryId
    (ingestInboundDeliveryEvent first none 0 0 sampleDeliveryId (createSample.perform {})).1

end Sample

/-- Reports of two events of one provider, on the outbox with the sample endpoint. -/
def sampleReports : List InboundCall :=
  [.outbox createSample, .ingest (sampleReport "ses" "1") none 0 0 sampleDeliveryId,
    .ingest (sampleReport "SES " "2") none 0 0 laterDeliveryId]

theorem deduplicated_sampleReports :
    letI := asciiCaseMapping
    letI := plainUrlPolicy
    letI := knownDigests sampleDigests
    letI := plainMetadataPlatform
    Deduplicated sampleReports
      (afterReports (sampleReport "ses" "1") (sampleReport "SES " "2")).1 := by
  let := asciiCaseMapping
  let := plainUrlPolicy
  let := knownDigests sampleDigests
  let := plainMetadataPlatform
  have hinput : ∀ {input event}, Reported sampleReports input event →
      input = sampleReport "ses" "1" ∨ input = sampleReport "SES " "2" := by
    rintro input event ⟨limit, clock, now, newDeliveryId, hmem, -⟩
    simp only [sampleReports, List.mem_cons, reduceCtorEq, InboundCall.ingest.injEq,
      List.not_mem_nil, or_false, false_or] at hmem
    exact hmem.imp And.left And.left
  have hapart : deterministicUuid ((identityOf (sampleReport "ses" "1")).text ":event:") ≠
      deterministicUuid ((identityOf (sampleReport "SES " "2")).text ":event:") := by
    decide +kernel
  have htexts : ((identityOf (sampleReport "ses" "1")).text ":event:").toWellFormed ≠
      ((identityOf (sampleReport "SES " "2")).text ":event:").toWellFormed := by
    decide +kernel
  have hfirst : ∀ delivery ∈ (ingestInboundDeliveryEvent (sampleReport "ses" "1") none 0 0
      sampleDeliveryId (createSample.perform {})).1.deliveries,
      delivery.id = sampleDeliveryId 0 := by
    decide +kernel
  have hrun : Run InboundCall.Step {} ([] ++ [.outbox createSample] ++
      [.ingest (sampleReport "ses" "1") none 0 0 sampleDeliveryId] ++
        [.ingest (sampleReport "SES " "2") none 0 0 laterDeliveryId])
      (afterReports (sampleReport "ses" "1") (sampleReport "SES " "2")).1 := by
    refine .snoc (.snoc (.snoc (.refl _) ⟨trivial, ?_, rfl⟩) ⟨⟨sampleDeliveryId_injective, ?_⟩, rfl⟩)
      ⟨⟨fun m n h => Text.ofNat_injective (List.append_cancel_left h), ?_⟩, rfl⟩
    · simp [createSample, OutboxCall.Fresh]
    · intro delivery hmem
      rw [createSample_deliveries] at hmem
      cases hmem
    · intro delivery hmem i h
      have hhead := congrArg List.head? ((hfirst delivery hmem).symm.trans h)
      simp [sampleDeliveryId, laterDeliveryId, Text.ofString, Text.unitsOfChar] at hhead
  refine (deduplicated_iff_unconfused hrun ?_).mpr ?_
  · intro input input' event event' hreported hreported' hid
    rcases hinput hreported with rfl | rfl <;> rcases hinput hreported' with rfl | rfl
    · rfl
    · exact absurd hid hapart
    · exact absurd hid.symm hapart
    · rfl
  · intro input input' event event' hreported hreported' hconfused
    obtain ⟨hne, htext⟩ := EventIdentity.confusable_iff.mp hconfused
    rcases hinput hreported with rfl | rfl <;> rcases hinput hreported' with rfl | rfl
    · exact hne rfl
    · exact htexts htext
    · exact htexts htext.symm
    · exact hne rfl

/-- Two providers report two events, and the second event is dropped: both are known as
`ses:event:a:event:b`. -/
theorem report_dropped :
    letI := asciiCaseMapping
    letI := plainUrlPolicy
    letI := knownDigests sampleDigests
    letI := plainMetadataPlatform
    let first := sampleReport "ses" "a:event:b"
    let second := sampleReport "ses:event:a" "b"
    let (store, result) := afterReports first second
    identityOf first ≠ identityOf second ∧
      store.deliveries.map (·.id) = [sampleDeliveryId 0] ∧
      (result.toOption.map fun result =>
        (result.matchedEndpoints, result.queuedDeliveries, result.duplicateDeliveries)) =
          some (1, 0, 1) := by
  decide +kernel

end ListmonkOps.Webhook
