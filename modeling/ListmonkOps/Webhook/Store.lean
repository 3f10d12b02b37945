/-
The document of the webhook outbox.

An outbox holds the endpoints that subscribe to events, one delivery for each
event and endpoint, and the state of the circuit breaker of each endpoint.
Everything in it passes a schema when it is built, and the document as a whole
passes one whenever it is read or written.
-/

import ListmonkOps.Math.Keyed
import ListmonkOps.Webhook.Event

namespace ListmonkOps.Webhook

open ListmonkOps.Math ListmonkOps.Runtime

/-! ## Records -/

structure OutboundWebhookEndpoint where
  id : Text
  name : Text
  url : Text
  secretRef : Text
  eventFilters : List OutboundWebhookEventFilter
  enabled : Bool
  timeoutMs : ℕ
  maxAttempts : ℕ
  circuitFailureThreshold : ℕ
  circuitCooldownMs : ℕ
  createdAt : DateTime
  updatedAt : DateTime
  deriving DecidableEq

/-- The states of a circuit breaker. -/
inductive CircuitState where
  | closed
  | open
  deriving DecidableEq

structure OutboundWebhookEndpointRuntime where
  endpointId : Text
  consecutiveFailures : ℕ
  circuitState : CircuitState
  circuitOpenedAt : Option DateTime := none
  circuitOpenUntil : Option DateTime := none
  lastFailureAt : Option DateTime := none
  lastSuccessAt : Option DateTime := none
  deriving DecidableEq

inductive OutboundWebhookDeliveryStatus where
  | pending
  | delivering
  | retry
  | succeeded
  | exhausted
  deriving DecidableEq

def OutboundWebhookDeliveryStatus.text : OutboundWebhookDeliveryStatus → Text
  | .pending => "pending"
  | .delivering => "delivering"
  | .retry => "retry"
  | .succeeded => "succeeded"
  | .exhausted => "exhausted"

/-- `["succeeded", "exhausted"].includes(status)`. -/
def OutboundWebhookDeliveryStatus.isTerminal (status : OutboundWebhookDeliveryStatus) : Bool :=
  status ∈ [OutboundWebhookDeliveryStatus.succeeded, .exhausted]

structure OutboundWebhookDelivery where
  id : Text
  eventId : Text
  endpointId : Text
  event : OutboundWebhookEvent
  status : OutboundWebhookDeliveryStatus
  attemptCount : ℕ
  manualRetryCount : ℕ
  nextAttemptAt : DateTime
  lastAttemptAt : Option DateTime := none
  completedAt : Option DateTime := none
  statusCode : Option ℕ := none
  lastError : Option Text := none
  leaseToken : Option Text := none
  leaseExpiresAt : Option DateTime := none

/-- `OutboundWebhookStore`, but for its version and the list of workers, which no
operation on deliveries touches. -/
structure OutboundWebhookStore where
  endpoints : List OutboundWebhookEndpoint := []
  deliveries : List OutboundWebhookDelivery := []
  endpointRuntime : List OutboundWebhookEndpointRuntime := []

/-! ## Schemas -/

/-- `OUTBOUND_WEBHOOK_SECRET_REF_PATTERN`. -/
def isSecretRef (value : Text) : Bool :=
  let head : Text := "LISTMONK_OPS_WEBHOOK_SECRET"
  head.isPrefixOf value &&
    match (value.drop head.length).splitOn 95 with
    | [] :: groups => groups.all fun group =>
        group ≠ [] && group.all fun unit => isUpper unit || (48 ≤ unit && unit ≤ 57)
    | _ => false

example : [("LISTMONK_OPS_WEBHOOK_SECRET_A1" : Text), "LISTMONK_OPS_WEBHOOK_SECRET",
    "LISTMONK_OPS_WEBHOOK_SECRET_", "LISTMONK_OPS_WEBHOOK_SECRETS"].map isSecretRef =
    [true, true, false, false] := by decide

/-- The bounds of `endpointSchema`. -/
def OutboundWebhookEndpoint.inBounds (value : OutboundWebhookEndpoint) : Bool :=
  isUuid value.id && value.eventFilters ≠ [] &&
    (100 ≤ value.timeoutMs && value.timeoutMs ≤ 30000) &&
    (1 ≤ value.maxAttempts && value.maxAttempts ≤ 12) &&
    (1 ≤ value.circuitFailureThreshold && value.circuitFailureThreshold ≤ 100) &&
    (1000 ≤ value.circuitCooldownMs && value.circuitCooldownMs ≤ 86400000) &&
    isoDateTimeSchema value.createdAt && isoDateTimeSchema value.updatedAt

def endpointSchema (value : OutboundWebhookEndpoint) :
    Except WebhookError OutboundWebhookEndpoint := do
  require value.inBounds
  let name ← trimmedText 120 value.name
  let url := value.url.trim
  let secretRef := value.secretRef.trim
  require (url ≠ [] && isSecretRef secretRef)
  return { value with name, url, secretRef }

def endpointRuntimeSchema (value : OutboundWebhookEndpointRuntime) :
    Except WebhookError OutboundWebhookEndpointRuntime := do
  require (isUuid value.endpointId && value.consecutiveFailures ≤ maxSafeInteger &&
    value.circuitOpenedAt.all isoDateTimeSchema && value.circuitOpenUntil.all isoDateTimeSchema &&
    value.lastFailureAt.all isoDateTimeSchema && value.lastSuccessAt.all isoDateTimeSchema)
  return value

/-- `deliverySchema`, but for the event. -/
def OutboundWebhookDelivery.inBounds (value : OutboundWebhookDelivery) : Bool :=
  isUuid value.id && isUuid value.eventId && isUuid value.endpointId &&
    value.attemptCount ≤ maxSafeInteger && value.manualRetryCount ≤ maxSafeInteger &&
    isoDateTimeSchema value.nextAttemptAt && value.lastAttemptAt.all isoDateTimeSchema &&
    value.completedAt.all isoDateTimeSchema &&
    value.statusCode.all (fun code => 100 ≤ code && code ≤ 599) &&
    value.lastError.all (·.length ≤ 500) && value.leaseToken.all isUuid &&
    value.leaseExpiresAt.all isoDateTimeSchema

def deliverySchema (value : OutboundWebhookDelivery) :
    Except WebhookError OutboundWebhookDelivery := do
  require value.inBounds
  let event ← eventSchema value.event
  return { value with event }

def parseStore (store : OutboundWebhookStore) : Except WebhookError OutboundWebhookStore := do
  let endpoints ← store.endpoints.mapM endpointSchema
  let deliveries ← store.deliveries.mapM deliverySchema
  let endpointRuntime ← store.endpointRuntime.mapM endpointRuntimeSchema
  return { endpoints, deliveries, endpointRuntime }

def createOutboundWebhookStore : JsonFileStore OutboundWebhookStore WebhookError where
  createDefault := {}
  parse := parseStore
  invalid := .document

/-! ## What has passed a schema passes it again -/

section Schemas

variable {endpoint parsedEndpoint : OutboundWebhookEndpoint}
  {runtime parsedRuntime : OutboundWebhookEndpointRuntime}
  {delivery parsedDelivery : OutboundWebhookDelivery}

theorem endpointSchema_eq_ok (h : endpointSchema endpoint = .ok parsedEndpoint) :
    parsedEndpoint.id = endpoint.id ∧ parsedEndpoint.enabled = endpoint.enabled ∧
      parsedEndpoint.eventFilters = endpoint.eventFilters ∧
      parsedEndpoint.maxAttempts = endpoint.maxAttempts ∧
      parsedEndpoint.createdAt = endpoint.createdAt ∧ parsedEndpoint.inBounds = true ∧
      endpointSchema parsedEndpoint = .ok parsedEndpoint := by
  obtain ⟨hbounds, h⟩ := require_bind_eq_ok.mp h
  obtain ⟨name, hname, h⟩ := except_bind_eq_ok.mp h
  obtain ⟨hrefs, h⟩ := require_bind_eq_ok.mp h
  obtain rfl := Except.ok.inj h
  refine ⟨rfl, rfl, rfl, rfl, rfl, hbounds, ?_⟩
  refine require_bind_eq_ok.mpr ⟨hbounds, except_bind_eq_ok.mpr
    ⟨name, (trimmedText_eq_ok hname).2.2, require_bind_eq_ok.mpr ⟨?_, ?_⟩⟩⟩
  · simpa using hrefs
  · simp [pure, Except.pure]

theorem endpointRuntimeSchema_eq_ok (h : endpointRuntimeSchema runtime = .ok parsedRuntime) :
    parsedRuntime = runtime := by
  obtain ⟨-, h⟩ := require_bind_eq_ok.mp h
  exact (Except.ok.inj h).symm

theorem deliverySchema_eq_ok (h : deliverySchema delivery = .ok parsedDelivery) :
    delivery.inBounds = true ∧
      ∃ event, eventSchema delivery.event = .ok event ∧ parsedDelivery = { delivery with event } := by
  obtain ⟨hbounds, h⟩ := require_bind_eq_ok.mp h
  obtain ⟨event, hevent, h⟩ := except_bind_eq_ok.mp h
  exact ⟨hbounds, event, hevent, (Except.ok.inj h).symm⟩

theorem deliverySchema_stable (h : deliverySchema delivery = .ok parsedDelivery) :
    deliverySchema parsedDelivery = .ok parsedDelivery := by
  obtain ⟨hbounds, event, hevent, rfl⟩ := deliverySchema_eq_ok h
  exact require_bind_eq_ok.mpr
    ⟨hbounds, except_bind_eq_ok.mpr ⟨event, (eventSchema_eq_ok hevent).2.2.2.2.2, rfl⟩⟩

/-- A delivery whose event has passed its schema parses to itself. -/
theorem deliverySchema_of_event (hevent : eventSchema delivery.event = .ok delivery.event)
    (h : deliverySchema delivery = .ok parsedDelivery) : parsedDelivery = delivery := by
  obtain ⟨-, event, hparsed, rfl⟩ := deliverySchema_eq_ok h
  obtain rfl := Except.ok.inj (hevent.symm.trans hparsed)
  rfl

end Schemas

/-- A document that parses to itself, so that every update starts from what the last one wrote. -/
structure OutboundWebhookStore.Stored (store : OutboundWebhookStore) : Prop where
  endpoints : ∀ endpoint ∈ store.endpoints, endpointSchema endpoint = .ok endpoint
  deliveries : ∀ delivery ∈ store.deliveries, deliverySchema delivery = .ok delivery
  runtimes : ∀ runtime ∈ store.endpointRuntime, endpointRuntimeSchema runtime = .ok runtime

section Stored

variable {store store' : OutboundWebhookStore} {ρ : Type}
  {update : OutboundWebhookStore → Except WebhookError (OutboundWebhookStore × ρ)}

theorem OutboundWebhookStore.Stored.parse (h : store.Stored) : parseStore store = .ok store :=
  except_bind_eq_ok.mpr ⟨_, mapM_eq_self_iff.mpr h.endpoints, except_bind_eq_ok.mpr
    ⟨_, mapM_eq_self_iff.mpr h.deliveries, except_bind_eq_ok.mpr
      ⟨_, mapM_eq_self_iff.mpr h.runtimes, rfl⟩⟩⟩

theorem OutboundWebhookStore.Stored.event (h : store.Stored) {delivery : OutboundWebhookDelivery}
    (hmem : delivery ∈ store.deliveries) : eventSchema delivery.event = .ok delivery.event := by
  obtain ⟨-, event, hevent, hsame⟩ := deliverySchema_eq_ok (h.deliveries delivery hmem)
  rwa [show event = delivery.event from (congrArg OutboundWebhookDelivery.event hsame).symm] at hevent

theorem stored_of_parse {parsed : OutboundWebhookStore} (h : parseStore store = .ok parsed) :
    parsed.Stored := by
  obtain ⟨endpoints, hendpoints, h⟩ := except_bind_eq_ok.mp h
  obtain ⟨deliveries, hdeliveries, h⟩ := except_bind_eq_ok.mp h
  obtain ⟨runtimes, hruntimes, h⟩ := except_bind_eq_ok.mp h
  obtain rfl := Except.ok.inj h
  refine ⟨mapM_eq_self_iff.mp (mapM_stable (fun h => (endpointSchema_eq_ok h).2.2.2.2.2.2) hendpoints),
    mapM_eq_self_iff.mp (mapM_stable deliverySchema_stable hdeliveries),
    mapM_eq_self_iff.mp (mapM_stable (fun h => ?_) hruntimes)⟩
  obtain rfl := endpointRuntimeSchema_eq_ok h
  exact h

theorem exec_error {error : WebhookError}
    (h : createOutboundWebhookStore.exec update store = (store', .error error)) :
    store' = store :=
  JsonFileStore.exec_of_error _ h

theorem exec_ok {result : ρ} (hstored : store.Stored)
    (h : createOutboundWebhookStore.exec update store = (store', .ok result)) :
    update store = .ok (store', result) ∧ ∃ parsed, parseStore store' = .ok parsed := by
  obtain ⟨current, hread, hupdate, hwrite⟩ := JsonFileStore.exec_of_ok _ h
  obtain rfl := Except.ok.inj (hstored.parse.symm.trans hread)
  exact ⟨hupdate, hwrite⟩

end Stored

end ListmonkOps.Webhook
