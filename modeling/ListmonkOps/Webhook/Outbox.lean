/-
The file repository of the webhook outbox.

Every operation is one update of the document: it reads and parses the
document, computes the next one and a result, or throws. Deliveries are queued
for each endpoint that subscribes to an event, claimed under a lease, and
completed by the holder of the lease; maintenance takes expired leases back,
replays what is exhausted and removes what is old.
-/

import ListmonkOps.Runtime.Collation
import ListmonkOps.Webhook.Store

namespace ListmonkOps.Webhook

open ListmonkOps.Math ListmonkOps.Runtime

/-- What the platform and the URL policy decide about the URL of an endpoint. -/
class EndpointUrlPolicy where
  /-- `normalizeOutboundWebhookEndpointUrl`; `none` where it throws. -/
  normalizeOutboundWebhookEndpointUrl : Text → Option Text

def endpointUrl [EndpointUrlPolicy] (url : Text) : Except WebhookError Text :=
  match EndpointUrlPolicy.normalizeOutboundWebhookEndpointUrl url with
  | some normalized => .ok normalized
  | none => .error .url

def normalizeEventFilters (filters : List OutboundWebhookEventFilter) :
    Except WebhookError (List OutboundWebhookEventFilter) := do
  require (filters ≠ [])
  return filters.eraseDups

/-! ## Endpoints -/

section Endpoints

variable [CaseMapping] [EndpointUrlPolicy]

open CaseMapping

/-- The conflict of two endpoints with one name. -/
def nameConflict (name : Text) : WebhookError :=
  .conflict (("Outbound webhook endpoint name already exists: " : Text) ++ name) .conflict

omit [EndpointUrlPolicy] in
def persistFileOutboundWebhookEndpoint (endpoint : OutboundWebhookEndpoint) :
    OutboundWebhookStore → OutboundWebhookStore × Except WebhookError OutboundWebhookEndpoint :=
  createOutboundWebhookStore.exec fun current =>
    if current.endpoints.any fun candidate =>
        toLowerCase candidate.name = toLowerCase endpoint.name then
      .error (nameConflict endpoint.name)
    else .ok ({ current with endpoints := current.endpoints ++ [endpoint] }, endpoint)

structure CreateOutboundWebhookEndpointInput where
  name : Text
  url : Text
  secretRef : Text
  eventFilters : List OutboundWebhookEventFilter
  enabled : Option Bool := none
  timeoutMs : Option ℕ := none
  maxAttempts : Option ℕ := none
  circuitFailureThreshold : Option ℕ := none
  circuitCooldownMs : Option ℕ := none

omit [CaseMapping] in
/-- The endpoint that `createOutboundWebhookEndpoint` builds. -/
def newEndpoint (input : CreateOutboundWebhookEndpointInput) (newId : Text) (now : ℤ) :
    Except WebhookError OutboundWebhookEndpoint := do
  let at_ ← nowIso now
  let url ← endpointUrl input.url
  let eventFilters ← normalizeEventFilters input.eventFilters
  endpointSchema
    { id := newId
      name := input.name
      url
      secretRef := input.secretRef
      eventFilters
      enabled := input.enabled.getD true
      timeoutMs := input.timeoutMs.getD 10000
      maxAttempts := input.maxAttempts.getD 6
      circuitFailureThreshold := input.circuitFailureThreshold.getD 5
      circuitCooldownMs := input.circuitCooldownMs.getD 300000
      createdAt := at_
      updatedAt := at_ }

/-- `createOutboundWebhookEndpoint`, with the UUID it would draw. -/
def createOutboundWebhookEndpoint (input : CreateOutboundWebhookEndpointInput) (newId : Text)
    (now : ℤ) (store : OutboundWebhookStore) :
    OutboundWebhookStore × Except WebhookError OutboundWebhookEndpoint :=
  match newEndpoint input newId now with
  | .error error => (store, .error error)
  | .ok endpoint => persistFileOutboundWebhookEndpoint endpoint store

structure UpdateOutboundWebhookEndpointInput where
  name : Option Text := none
  url : Option Text := none
  secretRef : Option Text := none
  eventFilters : Option (List OutboundWebhookEventFilter) := none
  enabled : Option Bool := none
  timeoutMs : Option ℕ := none
  maxAttempts : Option ℕ := none
  circuitFailureThreshold : Option ℕ := none
  circuitCooldownMs : Option ℕ := none

omit [CaseMapping] in
def mergeOutboundWebhookEndpointUpdate (previous : OutboundWebhookEndpoint)
    (input : UpdateOutboundWebhookEndpointInput) (now : ℤ) :
    Except WebhookError OutboundWebhookEndpoint := do
  let url ← input.url.elim (.ok previous.url) endpointUrl
  let eventFilters ← input.eventFilters.elim (.ok previous.eventFilters) normalizeEventFilters
  let updatedAt ← nowIso now
  endpointSchema
    { previous with
      name := input.name.getD previous.name
      url
      secretRef := input.secretRef.getD previous.secretRef
      eventFilters
      enabled := input.enabled.getD previous.enabled
      timeoutMs := input.timeoutMs.getD previous.timeoutMs
      maxAttempts := input.maxAttempts.getD previous.maxAttempts
      circuitFailureThreshold :=
        input.circuitFailureThreshold.getD previous.circuitFailureThreshold
      circuitCooldownMs := input.circuitCooldownMs.getD previous.circuitCooldownMs
      updatedAt }

def updateOutboundWebhookEndpoint (id : Text) (input : UpdateOutboundWebhookEndpointInput)
    (now : ℤ) :
    OutboundWebhookStore → OutboundWebhookStore × Except WebhookError OutboundWebhookEndpoint :=
  createOutboundWebhookStore.exec fun current =>
    match current.endpoints.find? fun endpoint => endpoint.id = id with
    | none => .error (.notFound .endpoint id)
    | some previous => do
        let endpoint ← mergeOutboundWebhookEndpointUpdate previous input now
        if current.endpoints.any fun candidate => candidate.id ≠ id &&
            toLowerCase candidate.name = toLowerCase endpoint.name then
          .error (nameConflict endpoint.name)
        else
          return ({ current with
            endpoints := replaceFirstBy OutboundWebhookEndpoint.id current.endpoints endpoint },
            endpoint)

end Endpoints

/-- A delivery whose endpoint was deleted. -/
def OutboundWebhookDelivery.endpointDeleted (delivery : OutboundWebhookDelivery) (at_ : DateTime) :
    OutboundWebhookDelivery :=
  { delivery with
    status := .exhausted
    completedAt := some at_
    lastError := some "Endpoint deleted before delivery"
    leaseToken := none
    leaseExpiresAt := none }

def deleteOutboundWebhookEndpoint (id : Text) (now : ℤ) :
    OutboundWebhookStore → OutboundWebhookStore × Except WebhookError OutboundWebhookEndpoint :=
  createOutboundWebhookStore.exec fun current =>
    match current.endpoints.find? fun candidate => candidate.id = id with
    | none => .error (.notFound .endpoint id)
    | some endpoint => do
        let at_ ← nowIso now
        return ({
            endpoints := current.endpoints.filter (·.id ≠ id)
            endpointRuntime := current.endpointRuntime.filter (·.endpointId ≠ id)
            deliveries := current.deliveries.map fun delivery =>
              if delivery.endpointId = id ∧ delivery.status.isTerminal = false then
                delivery.endpointDeleted at_
              else delivery }, endpoint)

/-! ## Queueing -/

/-- When a delivery ended, or else when it is due. -/
def endedAt (delivery : OutboundWebhookDelivery) : DateTime :=
  delivery.completedAt.getD delivery.nextAttemptAt

def pruneDeliveries (deliveries : List OutboundWebhookDelivery) (limit : ℕ) :
    Except WebhookError (List OutboundWebhookDelivery) :=
  if deliveries.length ≤ limit then .ok deliveries
  else
    let terminal := (deliveries.filter (·.status.isTerminal)).insertionSort fun left right =>
      (endedAt left).LocaleLE (endedAt right)
    let remove := (terminal.take (deliveries.length - limit)).map (·.id)
    let pruned := deliveries.filter fun delivery => delivery.id ∉ remove
    if limit < pruned.length then
      .error (.conflict "Outbound webhook store is full of active deliveries" .conflict)
    else .ok pruned

/-- The options of `enqueueOutboundWebhookEvent`. -/
structure EnqueueOptions where
  endpointIds : Option (List Text) := none
  bypassEventFilters : Bool := false
  limit : Option ℕ := none
  now : ℤ

structure EnqueueOutboundWebhookResult where
  event : OutboundWebhookEvent
  matchedEndpoints : ℕ
  queuedDeliveries : ℕ
  duplicateDeliveries : ℕ
  deliveryIds : List Text

def resolveStoreLimit (limit : Option ℕ) : Except WebhookError ℕ :=
  let resolved := limit.getD 5000
  if resolved < 100 then .error .range else .ok resolved

/-- The endpoints an event is delivered to. -/
def selectsEndpoint (options : EnqueueOptions) (event : OutboundWebhookEvent)
    (endpoint : OutboundWebhookEndpoint) : Bool :=
  endpoint.enabled && options.endpointIds.all (endpoint.id ∈ ·) &&
    (options.bypassEventFilters || matchesOutboundWebhookEvent endpoint.eventFilters event.type)

/-- The key of a delivery among those of all events and endpoints. -/
def deliveryKey (eventId endpointId : Text) : Text := eventId ++ (":" : Text) ++ endpointId

def queuedDelivery (event : OutboundWebhookEvent) (endpoint : OutboundWebhookEndpoint) (id : Text)
    (now : ℤ) : Except WebhookError OutboundWebhookDelivery := do
  let nextAttemptAt ← nowIso now
  deliverySchema
    { id
      eventId := event.id
      endpointId := endpoint.id
      event
      status := .pending
      attemptCount := 0
      manualRetryCount := 0
      nextAttemptAt }

/-- The locked part of `enqueueOutboundWebhookEvent`, with the UUIDs of the deliveries it
would draw. -/
def enqueueUpdate (event : OutboundWebhookEvent) (options : EnqueueOptions) (limit : ℕ)
    (newDeliveryId : ℕ → Text) (current : OutboundWebhookStore) :
    Except WebhookError (OutboundWebhookStore × EnqueueOutboundWebhookResult) := do
  let endpoints := current.endpoints.filter (selectsEndpoint options event)
  let existingKeys := current.deliveries.map fun delivery =>
    deliveryKey delivery.eventId delivery.endpointId
  let fresh := endpoints.filter fun endpoint => deliveryKey event.id endpoint.id ∉ existingKeys
  let queued ← fresh.zipIdx.mapM fun (endpoint, i) =>
    queuedDelivery event endpoint (newDeliveryId i) options.now
  let deliveries ← pruneDeliveries (current.deliveries ++ queued) limit
  return ({ current with deliveries },
    { event
      matchedEndpoints := endpoints.length
      queuedDeliveries := queued.length
      duplicateDeliveries := endpoints.length - fresh.length
      deliveryIds := queued.map (·.id) })

/-- `enqueueOutboundWebhookEvent`, with the UUIDs it would draw and the clock it reads. -/
def enqueueOutboundWebhookEvent (input : CreateOutboundWebhookEventInput) (options : EnqueueOptions)
    (newEventId : Text) (clock : ℤ) (newDeliveryId : ℕ → Text) (store : OutboundWebhookStore) :
    OutboundWebhookStore × Except WebhookError EnqueueOutboundWebhookResult :=
  match createOutboundWebhookEvent input newEventId clock with
  | .error error => (store, .error error)
  | .ok event =>
      match resolveStoreLimit options.limit with
      | .error error => (store, .error error)
      | .ok limit =>
          createOutboundWebhookStore.exec (enqueueUpdate event options limit newDeliveryId) store

/-- `enqueueOutboundWebhookEvent` with a repository, the one of the file: the event that was
created is passed on field by field, and created again. -/
def enqueueThroughFileRepository (input : CreateOutboundWebhookEventInput) (options : EnqueueOptions)
    (newEventId newEventId' : Text) (clock clock' : ℤ) (newDeliveryId : ℕ → Text)
    (store : OutboundWebhookStore) :
    OutboundWebhookStore × Except WebhookError EnqueueOutboundWebhookResult :=
  match createOutboundWebhookEvent input newEventId clock with
  | .error error => (store, .error error)
  | .ok event =>
      match resolveStoreLimit options.limit with
      | .error error => (store, .error error)
      | .ok limit =>
          enqueueOutboundWebhookEvent event.toInput { options with limit := some limit } newEventId'
            clock' newDeliveryId store

/-! ## What redaction hides -/

section Redacted

variable {input : CreateOutboundWebhookEventInput} {data data' : List (Text × Json)}
  {newEventId : Text} {clock : ℤ}

theorem createOutboundWebhookEvent_eq_of_same (hsame : SameMembers data data') :
    createOutboundWebhookEvent { input with data := some data } newEventId clock =
      createOutboundWebhookEvent { input with data := some data' } newEventId clock := by
  have hdata : redactOutboundWebhookData data = redactOutboundWebhookData data' :=
    redactMembers_eq_of_same data data' 1 hsame
  simp only [createOutboundWebhookEvent, Option.getD_some, hdata]

theorem resolveStoreLimit_eq_ok {limit : Option ℕ} {resolved : ℕ}
    (h : resolveStoreLimit limit = .ok resolved) : resolveStoreLimit (some resolved) = .ok resolved := by
  unfold resolveStoreLimit at h ⊢
  dsimp only at h
  split at h
  · simp at h
  · next hlimit =>
      obtain rfl := Except.ok.inj h
      exact if_neg hlimit

/-- An event that is created a second time on its way is stored as if it had been created
once. -/
theorem enqueueThroughFileRepository_eq (options : EnqueueOptions) (newEventId' : Text) (clock' : ℤ)
    (newDeliveryId : ℕ → Text) (store : OutboundWebhookStore) :
    enqueueThroughFileRepository input options newEventId newEventId' clock clock' newDeliveryId store =
      enqueueOutboundWebhookEvent input options newEventId clock newDeliveryId store := by
  unfold enqueueThroughFileRepository
  cases hevent : createOutboundWebhookEvent input newEventId clock with
  | error error => simp only [enqueueOutboundWebhookEvent, hevent]
  | ok event =>
      cases hlimit : resolveStoreLimit options.limit with
      | error error => simp only [enqueueOutboundWebhookEvent, hevent, hlimit]
      | ok limit =>
          have hagain := createOutboundWebhookEvent_toInput hevent newEventId' clock'
          simp only [enqueueOutboundWebhookEvent, hagain, resolveStoreLimit_eq_ok hlimit, hevent,
            hlimit]
          rfl

/-- Redaction hides what sensitive keys hold, and is stable: two events that differ only
there are enqueued alike, a second redaction changes nothing, and neither does the second
creation of an event that is passed through a repository. -/
theorem enqueue_redacts (hsame : SameMembers data data') (input : CreateOutboundWebhookEventInput)
    (options : EnqueueOptions) (newEventId newEventId' : Text) (clock clock' : ℤ)
    (newDeliveryId : ℕ → Text) (store : OutboundWebhookStore) :
    (createOutboundWebhookEvent { input with data := some data } newEventId clock =
        createOutboundWebhookEvent { input with data := some data' } newEventId clock ∧
      enqueueOutboundWebhookEvent { input with data := some data } options newEventId clock
          newDeliveryId store =
        enqueueOutboundWebhookEvent { input with data := some data' } options newEventId clock
          newDeliveryId store) ∧
    redactOutboundWebhookData (redactOutboundWebhookData data) = redactOutboundWebhookData data ∧
    enqueueThroughFileRepository input options newEventId newEventId' clock clock' newDeliveryId store =
      enqueueOutboundWebhookEvent input options newEventId clock newDeliveryId store := by
  have hevent : createOutboundWebhookEvent { input with data := some data } newEventId clock =
      createOutboundWebhookEvent { input with data := some data' } newEventId clock :=
    createOutboundWebhookEvent_eq_of_same hsame
  refine ⟨⟨hevent, ?_⟩, redactOutboundWebhookData_idem data,
    enqueueThroughFileRepository_eq options newEventId' clock' newDeliveryId store⟩
  unfold enqueueOutboundWebhookEvent
  rw [hevent]

end Redacted

theorem enqueue_redacts_apiToken :
    let data (secret : Text) : List (Text × Json) :=
      [("items", .array [.object [("apiToken", .object [("value", .string secret)])]])]
    ∀ store, enqueueOutboundWebhookEvent
        { type := .webhookTest, source := .webhook, data := some (data "s3cr3t") } { now := 0 }
        "44444444-4444-4444-8444-444444444444" 0 Text.ofNat store =
      enqueueOutboundWebhookEvent
        { type := .webhookTest, source := .webhook, data := some (data "other") } { now := 0 }
        "44444444-4444-4444-8444-444444444444" 0 Text.ofNat store := by
  intro data store
  have hsame : SameMembers (data "s3cr3t") (data "other") := by
    simp only [data, SameMembers, SameOutsideSensitive, SameItems, and_true, true_and]
    exact .inr (.inl (by decide))
  exact (enqueue_redacts hsame { type := .webhookTest, source := .webhook } { now := 0 }
    "44444444-4444-4444-8444-444444444444" [] 0 0 Text.ofNat store).1.2

/-! ## Retries and replays -/

structure RetryOutboundWebhookDeliveryResult where
  delivery : OutboundWebhookDelivery
  retried : Bool

/-- A delivery that is queued once more. -/
def requeued (delivery : OutboundWebhookDelivery) (now : ℤ) :
    Except WebhookError OutboundWebhookDelivery := do
  let nextAttemptAt ← nowIso now
  deliverySchema
    { delivery with
      status := .pending
      attemptCount := 0
      manualRetryCount := delivery.manualRetryCount + 1
      nextAttemptAt
      lastAttemptAt := none
      completedAt := none
      statusCode := none
      lastError := none
      leaseToken := none
      leaseExpiresAt := none }

def retryOutboundWebhookDelivery (id : Text) (now : ℤ) :
    OutboundWebhookStore →
      OutboundWebhookStore × Except WebhookError RetryOutboundWebhookDeliveryResult :=
  createOutboundWebhookStore.exec fun current =>
    match current.deliveries.find? fun delivery => delivery.id = id with
    | none => .error (.notFound .delivery id)
    | some previous =>
        if previous.status = .pending then
          .ok (current, { delivery := previous, retried := false })
        else if previous.status ≠ .retry ∧ previous.status ≠ .exhausted then
          .error (.conflict (("Delivery " : Text) ++ id ++
            (" cannot be retried from status " : Text) ++ previous.status.text)
            .deliveryStateConflict)
        else if current.endpoints.all fun endpoint =>
            !(endpoint.id = previous.endpointId && endpoint.enabled) then
          .error (.conflict (("Delivery " : Text) ++ id ++
            (" endpoint is missing or disabled" : Text)) .endpointUnavailable)
        else do
          let delivery ← requeued previous now
          return ({ current with
            deliveries := replaceFirstBy OutboundWebhookDelivery.id current.deliveries delivery },
            { delivery, retried := true })

def resolveMaintenanceLimit (limit : Option ℕ) : Except WebhookError ℕ :=
  let resolved := limit.getD 100
  if resolved = 0 ∨ 1000 < resolved then .error .range else .ok resolved

/-- `ReplayOutboundWebhookDeadLettersOptions`, with the time it reads. -/
structure ReplayOptions where
  endpointId : Option Text := none
  deliveryIds : Option (List Text) := none
  limit : Option ℕ := none
  dryRun : Option Bool := none
  now : ℤ

/-- `ReplayOutboundWebhookDeadLettersResult`; every error has the code
`endpoint_unavailable`. -/
structure ReplayResult where
  eligible : ℕ
  replayed : ℕ
  failed : ℕ
  dryRun : Bool
  deliveryIds : List Text
  errors : List Text
  deriving DecidableEq

/-- The dead letters of an endpoint, or of all. -/
def isDeadLetter (options : ReplayOptions) (delivery : OutboundWebhookDelivery) : Bool :=
  delivery.status = .exhausted && options.endpointId.all (delivery.endpointId = ·)

/-- The dead letters that a replay is about. -/
def selectDeadLetters (options : ReplayOptions) (limit : ℕ)
    (deliveries : List OutboundWebhookDelivery) : List OutboundWebhookDelivery :=
  match options.deliveryIds with
  | none =>
      ((deliveries.filter (isDeadLetter options)).insertionSort fun left right =>
        right.nextAttemptAt.LocaleLE left.nextAttemptAt).take limit
  | some requested => deliveries.filter fun delivery =>
      delivery.id ∈ requested && isDeadLetter options delivery

/-- Is the endpoint of a delivery there and enabled? -/
def endpointEnabled (endpoints : List OutboundWebhookEndpoint) (delivery : OutboundWebhookDelivery) :
    Bool :=
  endpoints.any fun endpoint => endpoint.enabled && endpoint.id = delivery.endpointId

/-- `replayOutboundWebhookDeadLetters` on the file store. -/
def replayOutboundWebhookDeadLetters (options : ReplayOptions) (store : OutboundWebhookStore) :
    OutboundWebhookStore × Except WebhookError ReplayResult :=
  match resolveMaintenanceLimit options.limit with
  | .error error => (store, .error error)
  | .ok limit =>
      createOutboundWebhookStore.exec (fun current => do
        let deliveries := selectDeadLetters options limit current.deliveries
        if options.dryRun.getD true then
          return (current,
            { eligible := deliveries.length
              replayed := 0
              failed := 0
              dryRun := true
              deliveryIds := deliveries.map (·.id)
              errors := [] })
        else
          let available := deliveries.filter (endpointEnabled current.endpoints)
          let unavailable := deliveries.filter fun delivery =>
            !endpointEnabled current.endpoints delivery
          let news ← available.mapM (requeued · options.now)
          let replacements := Table.ofList OutboundWebhookDelivery.id news
          return ({ current with deliveries := replacements.substitute current.deliveries },
            { eligible := deliveries.length
              replayed := replacements.size
              failed := unavailable.length
              dryRun := false
              deliveryIds := replacements.entries.map (·.id)
              errors := unavailable.map (·.id) })) store

/-! ## Maintenance -/

/-- The options of `reconcileOutboundWebhookDeliveries`, with the time it reads. -/
structure ReconcileOptions where
  now : ℤ
  limit : Option ℕ := none
  dryRun : Bool := false

structure ReconcileOutboundWebhooksResult where
  scanned : ℕ
  recovered : ℕ
  exhausted : ℕ
  unchanged : ℕ
  dryRun : Bool
  deriving DecidableEq

def outboundWebhookLeaseReconciliationError (canRetry endpointEnabled : Bool) : Text :=
  if canRetry then "Recovered expired worker lease"
  else if endpointEnabled then "Maximum delivery attempts reached during lease reconciliation"
  else "Endpoint missing or disabled during lease reconciliation"

/-- The endpoint with an identifier; of two, a map keeps the later one. -/
def endpointById (endpoints : List OutboundWebhookEndpoint) (id : Text) :
    Option OutboundWebhookEndpoint :=
  endpoints.reverse.find? fun endpoint => endpoint.id = id

/-- Can a delivery whose lease has expired be tried again? -/
def canRetry (endpoint : Option OutboundWebhookEndpoint) (delivery : OutboundWebhookDelivery) : Bool :=
  endpoint.any fun endpoint => endpoint.enabled && delivery.attemptCount < endpoint.maxAttempts

/-- A delivery whose lease was taken back. -/
def recoverDelivery (endpoint : Option OutboundWebhookEndpoint) (now : ℤ)
    (delivery : OutboundWebhookDelivery) : Except WebhookError OutboundWebhookDelivery := do
  let retry := canRetry endpoint delivery
  let nextAttemptAt ← nowIso now
  deliverySchema
    { delivery with
      status := if retry then .retry else .exhausted
      nextAttemptAt
      completedAt := if retry then none else some nextAttemptAt
      lastError :=
        some (outboundWebhookLeaseReconciliationError retry (endpoint.any (·.enabled)))
      leaseToken := none
      leaseExpiresAt := none }

/-- `leaseExpiresAt ?? lastAttemptAt ?? nextAttemptAt`. -/
def leaseSortKey (delivery : OutboundWebhookDelivery) : DateTime :=
  delivery.leaseExpiresAt.getD (delivery.lastAttemptAt.getD delivery.nextAttemptAt)

def reconcileOutboundWebhookDeliveries (options : ReconcileOptions) (store : OutboundWebhookStore) :
    OutboundWebhookStore × Except WebhookError ReconcileOutboundWebhooksResult :=
  match resolveMaintenanceLimit options.limit with
  | .error error => (store, .error error)
  | .ok limit =>
      createOutboundWebhookStore.exec (fun current => do
        let candidates := ((current.deliveries.filter (·.status = .delivering)).insertionSort
          fun left right => (leaseSortKey left).LocaleLE (leaseSortKey right)).take limit
        let expired := candidates.filter (·.leaseExpiresAt.all (·.time ≤ options.now))
        let news ← expired.mapM fun delivery =>
          recoverDelivery (endpointById current.endpoints delivery.endpointId) options.now delivery
        let recovered := expired.countP fun delivery =>
          canRetry (endpointById current.endpoints delivery.endpointId) delivery
        let result : ReconcileOutboundWebhooksResult :=
          { scanned := candidates.length
            recovered
            exhausted := expired.length - recovered
            unchanged := candidates.length - expired.length
            dryRun := options.dryRun }
        if options.dryRun then return (current, result)
        else
          return ({ current with
            deliveries := (Table.ofList OutboundWebhookDelivery.id news).substitute
              current.deliveries }, result)) store

/-- `PruneOutboundWebhooksOptions`. -/
structure PruneOptions where
  before : ℤ
  ids : Option (List Text) := none
  limit : Option ℕ := none
  dryRun : Bool := false

structure PruneOutboundWebhooksResult where
  eligible : ℕ
  deleted : ℕ
  dryRun : Bool
  before : DateTime
  ids : List Text
  deriving DecidableEq

/-- Did a delivery end before the cutoff? -/
def matchesCutoff (before : ℤ) (delivery : OutboundWebhookDelivery) : Bool :=
  delivery.status.isTerminal && delivery.completedAt.any (·.time < before)

/-- The deliveries that a prune is about. -/
def selectPrunable (options : PruneOptions) (limit : ℕ) (deliveries : List OutboundWebhookDelivery) :
    List OutboundWebhookDelivery :=
  match options.ids with
  | some requested => deliveries.filter fun delivery =>
      delivery.id ∈ requested && matchesCutoff options.before delivery
  | none =>
      ((deliveries.filter (matchesCutoff options.before)).insertionSort fun left right =>
        (endedAt left).LocaleLE (endedAt right)).take limit

/-- `pruneOutboundWebhookDeliveries`; the cutoff is a valid date. -/
def pruneOutboundWebhookDeliveries (options : PruneOptions) (store : OutboundWebhookStore) :
    OutboundWebhookStore × Except WebhookError PruneOutboundWebhooksResult :=
  match resolveMaintenanceLimit options.limit with
  | .error error => (store, .error error)
  | .ok limit =>
      createOutboundWebhookStore.exec (fun current => do
        let eligibleIds := (selectPrunable options limit current.deliveries).map (·.id)
        let eligible := eligibleIds.eraseDups.length
        let before ← nowIso options.before
        let result : PruneOutboundWebhooksResult :=
          { eligible
            deleted := if options.dryRun then 0 else eligible
            dryRun := options.dryRun
            before
            ids := eligibleIds }
        if options.dryRun then return (current, result)
        else
          return ({ current with
            deliveries := current.deliveries.filter fun delivery => delivery.id ∉ eligibleIds },
            result)) store

/-! ## Claims and completions -/

structure ClaimedOutboundWebhookDelivery where
  delivery : OutboundWebhookDelivery
  endpoint : Option OutboundWebhookEndpoint

/-- The options of `claimOutboundWebhookDeliveries`, with the lease tokens it would draw. -/
structure ClaimOptions where
  limit : ℕ
  now : ℤ
  leaseMs : ℤ
  deliveryIds : Option (List Text) := none
  excludeDeliveryIds : List Text := []
  bypassCircuitBreaker : Bool := false
  newLeaseToken : ℕ → Text

/-- Until when the circuit of an endpoint is open; of two entries, a map keeps the later
one. -/
def circuitOpenUntil (runtimes : List OutboundWebhookEndpointRuntime) (endpointId : Text) :
    Option ℤ := do
  let runtime ← runtimes.reverse.find? fun runtime =>
    runtime.endpointId = endpointId && runtime.circuitState = .open &&
      runtime.circuitOpenUntil.isSome
  runtime.circuitOpenUntil.map (·.time)

/-- Is a delivery due, or its lease expired? -/
def isDue (now : ℤ) (delivery : OutboundWebhookDelivery) : Bool :=
  match delivery.status with
  | .delivering => delivery.leaseExpiresAt.any (·.time ≤ now)
  | .pending | .retry => delivery.nextAttemptAt.time ≤ now
  | .succeeded | .exhausted => false

def isClaimable (options : ClaimOptions) (runtimes : List OutboundWebhookEndpointRuntime)
    (delivery : OutboundWebhookDelivery) : Bool :=
  (options.bypassCircuitBreaker ||
      (circuitOpenUntil runtimes delivery.endpointId).all (· ≤ options.now)) &&
    delivery.id ∉ options.excludeDeliveryIds && options.deliveryIds.all (delivery.id ∈ ·) &&
    isDue options.now delivery

def leaseDelivery (options : ClaimOptions) (delivery : OutboundWebhookDelivery) (token : Text) :
    Except WebhookError OutboundWebhookDelivery := do
  let lastAttemptAt ← nowIso options.now
  let leaseExpiresAt ← nowIso (options.now + options.leaseMs)
  deliverySchema
    { delivery with
      status := .delivering
      attemptCount := delivery.attemptCount + 1
      lastAttemptAt := some lastAttemptAt
      leaseToken := some token
      leaseExpiresAt := some leaseExpiresAt }

def claimOutboundWebhookDeliveries (options : ClaimOptions) :
    OutboundWebhookStore →
      OutboundWebhookStore × Except WebhookError (List ClaimedOutboundWebhookDelivery) :=
  createOutboundWebhookStore.exec fun current => do
    let claimable := ((current.deliveries.filter
      (isClaimable options current.endpointRuntime)).insertionSort fun left right =>
        left.nextAttemptAt.LocaleLE right.nextAttemptAt).take options.limit
    let leased ← claimable.zipIdx.mapM fun (delivery, i) =>
      leaseDelivery options delivery (options.newLeaseToken i)
    let claimedById := Table.ofList OutboundWebhookDelivery.id leased
    return ({ current with deliveries := claimedById.substitute current.deliveries },
      claimedById.entries.map fun delivery =>
        { delivery, endpoint := endpointById current.endpoints delivery.endpointId })

/-- `message.replaceAll(/[\r\n\t]+/gu, " ")`; a run of them leaves one space. -/
def collapseLineBreaks (inRun : Bool) : Text → Text
  | [] => []
  | unit :: rest =>
      if unit = 13 ∨ unit = 10 ∨ unit = 9 then
        if inRun then collapseLineBreaks true rest else 32 :: collapseLineBreaks true rest
      else unit :: collapseLineBreaks false rest

/-- `truncateOutboundWebhookError`, on the message of the error. -/
def truncateOutboundWebhookError (message : Text) : Text :=
  (collapseLineBreaks false message).take 500

def outboundWebhookRetryDelayMs (attemptCount : ℕ) (baseDelayMs : ℤ) : ℤ :=
  min 3600000 (baseDelayMs * 2 ^ (attemptCount - 1))

/-- `CompleteOutboundWebhookDeliveryResult`, with the message of the error. -/
structure CompleteOutboundWebhookDeliveryResult where
  success : Bool
  retryable : Bool
  statusCode : Option ℕ := none
  error : Option Text := none

/-- The options of `completeOutboundWebhookDelivery`. -/
structure CompleteOptions where
  now : ℤ
  baseRetryDelayMs : ℤ

/-- The status of a delivery after an attempt. -/
def statusAfterAttempt (attemptCount : ℕ) (result : CompleteOutboundWebhookDeliveryResult)
    (endpoint : Option OutboundWebhookEndpoint) : OutboundWebhookDeliveryStatus :=
  if result.success then .succeeded
  else if !result.retryable || endpoint.all (·.maxAttempts ≤ attemptCount) then .exhausted
  else .retry

/-- When a delivery is due after an attempt. -/
def nextAttemptAfter (latest : OutboundWebhookDelivery) (status : OutboundWebhookDeliveryStatus)
    (options : CompleteOptions) : Except WebhookError DateTime :=
  if status = .retry then
    nowIso (options.now + outboundWebhookRetryDelayMs latest.attemptCount options.baseRetryDelayMs)
  else .ok latest.nextAttemptAt

/-- `now.toISOString()` where a condition holds, or else nothing. -/
def nowIsoWhen (condition : Bool) (now : ℤ) : Except WebhookError (Option DateTime) :=
  if condition then (nowIso now).map some else .ok none

def completedDelivery (latest : OutboundWebhookDelivery)
    (result : CompleteOutboundWebhookDeliveryResult) (endpoint : Option OutboundWebhookEndpoint)
    (options : CompleteOptions) : Except WebhookError OutboundWebhookDelivery := do
  let status := statusAfterAttempt latest.attemptCount result endpoint
  let nextAttemptAt ← nextAttemptAfter latest status options
  let completedAt ← nowIsoWhen status.isTerminal options.now
  deliverySchema
    { latest with
      status
      nextAttemptAt
      completedAt
      statusCode := result.statusCode
      lastError := result.error.map truncateOutboundWebhookError
      leaseToken := none
      leaseExpiresAt := none }

/-- The circuit of an endpoint after an attempt. -/
def runtimeAfterAttempt (previous : OutboundWebhookEndpointRuntime)
    (endpoint : OutboundWebhookEndpoint) (success : Bool) (now : ℤ) :
    Except WebhookError OutboundWebhookEndpointRuntime := do
  let at_ ← nowIso now
  let consecutiveFailures := if success then 0 else previous.consecutiveFailures + 1
  let shouldOpen := !success && endpoint.circuitFailureThreshold ≤ consecutiveFailures
  let circuitOpenUntil ← nowIsoWhen shouldOpen (now + endpoint.circuitCooldownMs)
  endpointRuntimeSchema
    { previous with
      consecutiveFailures
      circuitState := if shouldOpen then .open else .closed
      circuitOpenedAt := if shouldOpen then some at_ else none
      circuitOpenUntil
      lastFailureAt := if success then previous.lastFailureAt else some at_
      lastSuccessAt := if success then some at_ else previous.lastSuccessAt }

/-- The circuit of an endpoint that has not delivered yet. -/
def closedCircuit (endpointId : Text) : OutboundWebhookEndpointRuntime :=
  { endpointId, consecutiveFailures := 0, circuitState := .closed }

def updateEndpointRuntimeAfterAttempt (runtimes : List OutboundWebhookEndpointRuntime)
    (endpoint : Option OutboundWebhookEndpoint) (success : Bool) (now : ℤ) :
    Except WebhookError (List OutboundWebhookEndpointRuntime) :=
  match endpoint with
  | none => .ok runtimes
  | some endpoint =>
      if !endpoint.enabled && !success then .ok runtimes
      else
        match runtimes.find? fun runtime => runtime.endpointId = endpoint.id with
        | some previous => do
            let next ← runtimeAfterAttempt previous endpoint success now
            return replaceFirstBy OutboundWebhookEndpointRuntime.endpointId runtimes next
        | none => do
            let previous ← endpointRuntimeSchema (closedCircuit endpoint.id)
            let next ← runtimeAfterAttempt previous endpoint success now
            return runtimes ++ [next]

/-- The error of a worker whose lease is gone. -/
def leaseConflict (id : Text) : WebhookError :=
  .conflict (("Delivery " : Text) ++ id ++ (" lease is no longer owned by this worker" : Text))
    .leaseConflict

def completeOutboundWebhookDelivery (claimed : OutboundWebhookDelivery)
    (result : CompleteOutboundWebhookDeliveryResult) (endpoint : Option OutboundWebhookEndpoint)
    (options : CompleteOptions) :
    OutboundWebhookStore → OutboundWebhookStore × Except WebhookError OutboundWebhookDelivery :=
  createOutboundWebhookStore.exec fun current =>
    match current.deliveries.find? fun delivery => delivery.id = claimed.id with
    | none => .error (.notFound .delivery claimed.id)
    | some latest =>
        if latest.status ≠ .delivering ∨ latest.leaseToken ≠ claimed.leaseToken then
          .error (leaseConflict claimed.id)
        else do
          let delivery ← completedDelivery latest result endpoint options
          let endpointRuntime ← updateEndpointRuntimeAfterAttempt current.endpointRuntime endpoint
            result.success options.now
          return ({ current with
            deliveries := replaceFirstBy OutboundWebhookDelivery.id current.deliveries delivery
            endpointRuntime }, delivery)

def resetOutboundWebhookEndpointCircuit (endpointId : Text) :
    OutboundWebhookStore →
      OutboundWebhookStore × Except WebhookError OutboundWebhookEndpointRuntime :=
  createOutboundWebhookStore.exec fun current =>
    if current.endpoints.all (·.id ≠ endpointId) then .error (.notFound .endpoint endpointId)
    else
      match current.endpointRuntime.find? fun candidate => candidate.endpointId = endpointId with
      | none => do
          let runtime ← endpointRuntimeSchema (closedCircuit endpointId)
          return (current, runtime)
      | some existing =>
          if existing.circuitState = .closed ∧ existing.consecutiveFailures = 0 then
            .ok (current, existing)
          else do
            let runtime ← endpointRuntimeSchema
              { existing with
                consecutiveFailures := 0
                circuitState := .closed
                circuitOpenedAt := none
                circuitOpenUntil := none }
            return ({ current with
              endpointRuntime := current.endpointRuntime.filter (·.endpointId ≠ endpointId) ++
                [runtime] }, runtime)

end ListmonkOps.Webhook
