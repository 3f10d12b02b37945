/-
One dispatch of webhook deliveries.

A dispatch claims deliveries in batches, attempts those of a batch side by side,
and completes each one when its attempt is over. Any other actor can use the
outbox between two of these steps. A delivery that someone else has taken over
or finished is reported as skipped; one that someone else has removed ends the
dispatch with an error, because the file outbox cannot find it any more.
-/

import ListmonkOps.Webhook.Invariant

namespace ListmonkOps.Webhook

open ListmonkOps.Math ListmonkOps.Runtime

/-! ## What an attempt brings -/

/-- `OutboundWebhookDispatchErrorCode`, as far as a dispatch reports it. -/
inductive DispatchErrorCode where
  | endpointUnavailable
  | signingSecretUnavailable
  | urlPolicyBlocked
  | httpRejected
  | leaseConflict
  | deliveryFailed
  deriving DecidableEq

/-- What becomes of a request to an endpoint. -/
inductive NetworkOutcome where
  /-- The host was not resolved in time. -/
  | unresolved (error : Text)
  /-- The host resolves to an address that is refused. -/
  | blocked (reason : Text)
  | response (ok : Bool) (status : ℕ)
  | failed (error : Text)

structure Attempt extends CompleteOutboundWebhookDeliveryResult where
  errorCode : Option DispatchErrorCode := none

def failedAttempt (retryable : Bool) (error : Text) (errorCode : DispatchErrorCode) : Attempt where
  success := false
  retryable
  error := some error
  errorCode := some errorCode

/-- The status codes after which a delivery is tried again. -/
def retryableStatus (status : ℕ) : Bool :=
  status ∈ [408, 409, 425, 429] || 500 ≤ status

def deliverClaimedWebhook (claimed : ClaimedOutboundWebhookDelivery)
    (resolveSecret : Text → Option Text) (network : NetworkOutcome) : Attempt :=
  match claimed.endpoint with
  | none => failedAttempt false "Endpoint was deleted before delivery" .endpointUnavailable
  | some endpoint =>
      if !endpoint.enabled then failedAttempt false "Endpoint is disabled" .endpointUnavailable
      else if (resolveSecret endpoint.secretRef).all (·.trim = []) then
        failedAttempt true
          (("Signing secret environment variable is unavailable: " : Text) ++ endpoint.secretRef)
          .signingSecretUnavailable
      else
        match network with
        | .unresolved error => failedAttempt true error .deliveryFailed
        | .blocked reason =>
            failedAttempt false (("Endpoint blocked by URL policy: " : Text) ++ reason)
              .urlPolicyBlocked
        | .response true status => { success := true, retryable := false, statusCode := some status }
        | .response false status =>
            { success := false
              retryable := retryableStatus status
              statusCode := some status
              error := some (("Endpoint returned HTTP " : Text) ++ Text.ofNat status)
              errorCode := some .httpRejected }
        | .failed error => failedAttempt true error .deliveryFailed

/-! ## The dispatch -/

/-- `DispatchOutboundWebhooksOptions`, with their defaults. -/
structure DispatchOptions where
  limit : ℕ := 25
  leaseMs : ℤ := 90000
  baseRetryDelayMs : ℤ := 30000
  concurrency : ℕ := 5
  deliveryIds : Option (List Text) := none
  bypassCircuitBreaker : Bool := false
  now : Option ℤ := none
  resolveSecret : Text → Option Text

/-- What a dispatch checks before its first claim. -/
def DispatchOptions.check (options : DispatchOptions) : Except WebhookError Unit :=
  if options.limit = 0 ∨ 100 < options.limit then .error .range
  else if options.leaseMs < 1000 then .error .range
  else if options.baseRetryDelayMs < 1000 then .error .range
  else if options.concurrency = 0 ∨ 10 < options.concurrency then .error .range
  else if options.bypassCircuitBreaker ∧ (options.deliveryIds.getD []).length = 0 then
    .error .circuitBypass
  else .ok ()

/-- What a dispatch reports of a delivery. -/
inductive DispatchStatus where
  | completed (status : OutboundWebhookDeliveryStatus)
  | skipped
  deriving DecidableEq

/-- `OutboundWebhookDispatchResultEntry`. -/
structure DispatchEntry where
  deliveryId : Text
  endpointId : Text
  status : DispatchStatus
  statusCode : Option ℕ := none
  errorCode : Option DispatchErrorCode := none
  deriving DecidableEq

structure DispatchOutboundWebhooksResult where
  claimed : ℕ
  succeeded : ℕ
  retried : ℕ
  exhausted : ℕ
  skipped : ℕ
  results : List DispatchEntry
  deriving DecidableEq

/-- A claimed delivery of a batch, and its entry when its attempt is over. -/
structure BatchSlot where
  claimed : ClaimedOutboundWebhookDelivery
  entry : Option DispatchEntry := none

inductive DispatchPhase where
  /-- It claims the next batch. -/
  | claiming
  /-- The attempts of a batch are under way. -/
  | delivering (batch : List BatchSlot)
  | returned
  | rejected (error : WebhookError)

/-- The variables of a dispatch. -/
structure DispatchState where
  claimedCount : ℕ := 0
  processedDeliveryIds : List Text := []
  results : List DispatchEntry := []
  phase : DispatchPhase

/-- The document, a dispatch, and the completions the dispatch has committed. -/
structure DispatchWorld where
  store : OutboundWebhookStore
  dispatch : DispatchState
  committed : List OutboundWebhookDelivery := []

def startDispatch (options : DispatchOptions) (store : OutboundWebhookStore) : DispatchWorld where
  store
  dispatch :=
    { phase := match options.check with
        | .ok _ => .claiming
        | .error error => .rejected error }

def DispatchState.result (state : DispatchState) : DispatchOutboundWebhooksResult where
  claimed := state.claimedCount
  succeeded := state.results.countP (·.status = .completed .succeeded)
  retried := state.results.countP (·.status = .completed .retry)
  exhausted := state.results.countP (·.status = .completed .exhausted)
  skipped := state.results.countP (·.status = .skipped)
  results := state.results

def DispatchState.claimOptions (state : DispatchState) (options : DispatchOptions) (now : ℤ)
    (newLeaseToken : ℕ → Text) : ClaimOptions where
  limit := min options.concurrency (options.limit - state.claimedCount)
  now
  leaseMs := options.leaseMs
  deliveryIds := options.deliveryIds
  excludeDeliveryIds := state.processedDeliveryIds
  bypassCircuitBreaker := options.bypassCircuitBreaker
  newLeaseToken

/-- The next batch; a dispatch that finds none returns. -/
def DispatchWorld.claimBatch (options : DispatchOptions) (now : ℤ) (newLeaseToken : ℕ → Text)
    (world : DispatchWorld) : DispatchWorld :=
  match claimOutboundWebhookDeliveries (world.dispatch.claimOptions options now newLeaseToken)
    world.store with
  | (store, .error error) =>
      { world with store, dispatch := { world.dispatch with phase := .rejected error } }
  | (store, .ok []) => { world with store, dispatch := { world.dispatch with phase := .returned } }
  | (store, .ok claimed) =>
      { world with
        store
        dispatch :=
          { world.dispatch with
            claimedCount := world.dispatch.claimedCount + claimed.length
            processedDeliveryIds :=
              world.dispatch.processedDeliveryIds ++ claimed.map (·.delivery.id)
            phase := .delivering (claimed.map fun claimed => { claimed }) } }

/-- An attempt of the batch is over; with the last one, the batch is. -/
def DispatchState.record (state : DispatchState) (options : DispatchOptions)
    (batch : List BatchSlot) (i : ℕ) (slot : BatchSlot) (entry : DispatchEntry) : DispatchState :=
  let batch := batch.set i { slot with entry := some entry }
  if batch.all (·.entry.isSome) then
    { state with
      results := state.results ++ batch.filterMap (·.entry)
      phase := if state.claimedCount < options.limit then .claiming else .returned }
  else { state with phase := .delivering batch }

/-- The completion of an attempt. -/
def DispatchWorld.settle (options : DispatchOptions) (batch : List BatchSlot) (i : ℕ)
    (slot : BatchSlot) (attempt : Attempt) (now : ℤ) (world : DispatchWorld) : DispatchWorld :=
  match completeOutboundWebhookDelivery slot.claimed.delivery
    attempt.toCompleteOutboundWebhookDeliveryResult slot.claimed.endpoint
    { now, baseRetryDelayMs := options.baseRetryDelayMs } world.store with
  | (store, .ok delivery) =>
      { store
        dispatch := world.dispatch.record options batch i slot
          { deliveryId := delivery.id
            endpointId := delivery.endpointId
            status := .completed delivery.status
            statusCode := delivery.statusCode
            errorCode := attempt.errorCode }
        committed := world.committed ++ [delivery] }
  | (store, .error (.conflict _ _)) =>
      { world with
        store
        dispatch := world.dispatch.record options batch i slot
          { deliveryId := slot.claimed.delivery.id
            endpointId := slot.claimed.delivery.endpointId
            status := .skipped
            errorCode := some .leaseConflict } }
  | (store, .error error) =>
      { world with store, dispatch := { world.dispatch with phase := .rejected error } }

/-- One step: of the dispatch, or of any other actor. -/
inductive DispatchEvent where
  | other (call : OutboxCall)
  | claim (now : ℤ) (newLeaseToken : ℕ → Text)
  | complete (i : ℕ) (network : NetworkOutcome) (now : ℤ)

def DispatchEvent.isOwn : DispatchEvent → Bool
  | .other _ => false
  | .claim .. | .complete .. => true

/-- A dispatch that was given a time uses no other. -/
def DispatchOptions.reads (options : DispatchOptions) (now : ℤ) : Prop :=
  ∀ given, options.now = some given → now = given

section Steps

variable [CaseMapping] [EndpointUrlPolicy]

/-- The step relation of a dispatch among other actors. -/
def DispatchWorld.Step (options : DispatchOptions) (world : DispatchWorld) :
    DispatchEvent → DispatchWorld → Prop
  | .other call, world' => world' = { world with store := call.perform world.store }
  | .claim now newLeaseToken, world' => world.dispatch.phase = .claiming ∧ options.reads now ∧
      world' = world.claimBatch options now newLeaseToken
  | .complete i network now, world' => ∃ batch slot, world.dispatch.phase = .delivering batch ∧
      batch[i]? = some slot ∧ slot.entry = none ∧ options.reads now ∧
      world' = world.settle options batch i slot
        (deliverClaimedWebhook slot.claimed options.resolveSecret network) now

end Steps

/-! ## What other actors can cause -/

/-- An error that another actor can cause: a record is gone, or has been taken over. -/
def WebhookError.isTakeover : WebhookError → Bool
  | .notFound .. | .conflict .. => true
  | _ => false

/-- A computation that no other actor can make throw. -/
def Undisturbed {α : Type} (x : Except WebhookError α) : Prop :=
  Yields x (fun _ => True) (fun error => error.isTakeover = false)

section Errors

variable {α β : Type} {x : Except WebhookError α}

theorem Undisturbed.bind {next : α → Except WebhookError β} (h : Undisturbed x)
    (hnext : ∀ a, Undisturbed (next a)) : Undisturbed (x >>= next) :=
  Yields.bind h fun a _ => hnext a

theorem Undisturbed.map {f : α → β} (h : Undisturbed x) : Undisturbed (x.map f) := by
  cases x with
  | ok => trivial
  | error => exact h

theorem undisturbed_ok (a : α) : Undisturbed (.ok a) := trivial

theorem Undisturbed.error {error : WebhookError} (hthrown : x = .error error) (h : Undisturbed x) :
    error.isTakeover = false := by
  rw [hthrown] at h
  exact h

theorem undisturbed_mapM {f : α → Except WebhookError β} (h : ∀ a, Undisturbed (f a)) (xs : List α) :
    Undisturbed (xs.mapM f) := by
  induction xs with
  | nil => trivial
  | cons a xs ih =>
      rw [List.mapM_cons]
      exact (h a).bind fun _ => ih.bind fun _ => undisturbed_ok _

theorem undisturbed_require (condition : Bool) : Undisturbed (require condition) := by
  cases condition with
  | false => exact rfl
  | true => trivial

theorem undisturbed_nowIso (now : ℤ) : Undisturbed (nowIso now) := by
  unfold nowIso
  split
  · trivial
  · exact rfl

theorem undisturbed_nowIsoWhen (condition : Bool) (now : ℤ) :
    Undisturbed (nowIsoWhen condition now) := by
  unfold nowIsoWhen
  split
  · exact (undisturbed_nowIso now).map
  · trivial

theorem undisturbed_trimmedText (maximum : ℕ) (value : Text) :
    Undisturbed (trimmedText maximum value) :=
  (undisturbed_require _).bind fun _ => undisturbed_ok _

theorem undisturbed_eventSchema (event : OutboundWebhookEvent) : Undisturbed (eventSchema event) := by
  refine (undisturbed_require _).bind fun _ => Undisturbed.bind ?_ fun _ =>
    Undisturbed.bind ?_ fun _ => undisturbed_ok _
  · cases event.correlationId with
    | none => trivial
    | some value => exact (undisturbed_trimmedText 200 value).map
  · cases event.subject with
    | none => trivial
    | some subject => exact (undisturbed_trimmedText 300 subject.key).map

theorem undisturbed_endpointSchema (endpoint : OutboundWebhookEndpoint) :
    Undisturbed (endpointSchema endpoint) :=
  (undisturbed_require _).bind fun _ => (undisturbed_trimmedText _ _).bind fun _ =>
    (undisturbed_require _).bind fun _ => undisturbed_ok _

theorem undisturbed_deliverySchema (delivery : OutboundWebhookDelivery) :
    Undisturbed (deliverySchema delivery) :=
  (undisturbed_require _).bind fun _ => (undisturbed_eventSchema _).bind fun _ => undisturbed_ok _

theorem undisturbed_endpointRuntimeSchema (runtime : OutboundWebhookEndpointRuntime) :
    Undisturbed (endpointRuntimeSchema runtime) :=
  (undisturbed_require _).bind fun _ => undisturbed_ok _

theorem undisturbed_parseStore (store : OutboundWebhookStore) : Undisturbed (parseStore store) :=
  (undisturbed_mapM undisturbed_endpointSchema _).bind fun _ =>
    (undisturbed_mapM undisturbed_deliverySchema _).bind fun _ =>
      (undisturbed_mapM undisturbed_endpointRuntimeSchema _).bind fun _ => undisturbed_ok _

theorem undisturbed_leaseDelivery (options : ClaimOptions) (delivery : OutboundWebhookDelivery)
    (token : Text) : Undisturbed (leaseDelivery options delivery token) :=
  (undisturbed_nowIso _).bind fun _ => (undisturbed_nowIso _).bind fun _ =>
    undisturbed_deliverySchema _

theorem undisturbed_completedDelivery (latest : OutboundWebhookDelivery)
    (result : CompleteOutboundWebhookDeliveryResult) (endpoint : Option OutboundWebhookEndpoint)
    (options : CompleteOptions) :
    Undisturbed (completedDelivery latest result endpoint options) := by
  refine Undisturbed.bind ?_ fun _ => (undisturbed_nowIsoWhen _ _).bind fun _ =>
    undisturbed_deliverySchema _
  unfold nextAttemptAfter
  split
  · exact undisturbed_nowIso _
  · trivial

theorem undisturbed_runtimeAfterAttempt (previous : OutboundWebhookEndpointRuntime)
    (endpoint : OutboundWebhookEndpoint) (success : Bool) (now : ℤ) :
    Undisturbed (runtimeAfterAttempt previous endpoint success now) :=
  (undisturbed_nowIso _).bind fun _ => (undisturbed_nowIsoWhen _ _).bind fun _ =>
    undisturbed_endpointRuntimeSchema _

theorem undisturbed_updateEndpointRuntimeAfterAttempt
    (runtimes : List OutboundWebhookEndpointRuntime) (endpoint : Option OutboundWebhookEndpoint)
    (success : Bool) (now : ℤ) :
    Undisturbed (updateEndpointRuntimeAfterAttempt runtimes endpoint success now) := by
  unfold updateEndpointRuntimeAfterAttempt
  split
  · trivial
  · split
    · trivial
    · split
      · exact (undisturbed_runtimeAfterAttempt _ _ _ _).bind fun _ => undisturbed_ok _
      · exact (undisturbed_endpointRuntimeSchema _).bind fun _ =>
          (undisturbed_runtimeAfterAttempt _ _ _ _).bind fun _ => undisturbed_ok _

/-- What a call throws, its update does, if no other actor can make the document unreadable. -/
theorem takeover_of_exec {ρ : Type} {store store' : OutboundWebhookStore} {error : WebhookError}
    {update : OutboundWebhookStore → Except WebhookError (OutboundWebhookStore × ρ)}
    (h : createOutboundWebhookStore.exec update store = (store', .error error))
    (htakeover : error.isTakeover = true) :
    ∃ current, parseStore store = .ok current ∧ update current = .error error := by
  rcases JsonFileStore.exec_error_cases _ (congrArg Prod.snd h) with hread | hupdate | hwrite
  · have hfalse := Undisturbed.error hread (undisturbed_parseStore store)
    rw [hfalse] at htakeover
    simp at htakeover
  · exact hupdate
  · rw [hwrite] at htakeover
    simp [createOutboundWebhookStore, WebhookError.isTakeover] at htakeover

theorem map_id_of_parseStore {store current : OutboundWebhookStore}
    (h : parseStore store = .ok current) :
    current.deliveries.map (·.id) = store.deliveries.map (·.id) := by
  obtain ⟨endpoints, -, h⟩ := except_bind_eq_ok.mp h
  obtain ⟨deliveries, hdeliveries, h⟩ := except_bind_eq_ok.mp h
  obtain ⟨runtimes, -, h⟩ := except_bind_eq_ok.mp h
  obtain rfl := Except.ok.inj h
  rw [eq_comm, ← List.forall₂_eq_eq_eq, List.forall₂_map_left_iff, List.forall₂_map_right_iff]
  refine (mapM_eq_ok_iff.mp hdeliveries).imp fun delivery parsed hschema => ?_
  obtain ⟨-, event, -, rfl⟩ := deliverySchema_eq_ok hschema
  rfl

end Errors

/-! ## What a claim and a completion bring -/

section Calls

variable {store store' : OutboundWebhookStore}

/-- A claim brings distinct deliveries, at most its limit, and none it was to leave out. -/
theorem claim_distinct {options : ClaimOptions} {claimed : List ClaimedOutboundWebhookDelivery}
    (h : claimOutboundWebhookDeliveries options store = (store', .ok claimed)) :
    (claimed.map (·.delivery.id)).Nodup ∧ claimed.length ≤ options.limit ∧
      ∀ claim ∈ claimed, claim.delivery.id ∉ options.excludeDeliveryIds := by
  obtain ⟨current, hread, hupdate, parsed, hwrite⟩ := JsonFileStore.exec_of_ok _ h
  have hstored := stored_of_parse hread
  have hcurrent : claimOutboundWebhookDeliveries options current = (store', .ok claimed) :=
    JsonFileStore.exec_eq_ok _ hstored.parse hupdate hwrite
  obtain ⟨leased, hleased, -, rfl⟩ := claim_eq_ok hstored hcurrent
  have hdistinct := (Table.ofList OutboundWebhookDelivery.id leased).distinct
  refine ⟨by simpa [List.map_map, Function.comp_def] using hdistinct, ?_, ?_⟩
  · rw [List.length_map]
    calc (Table.ofList OutboundWebhookDelivery.id leased).entries.length
        ≤ leased.length :=
          (List.subperm_of_subset (List.Nodup.of_map _ hdistinct)
            fun _ => Table.mem_of_mem_ofList).length_le
      _ = (claimableDeliveries options current).length := hleased.length_eq.symm
      _ ≤ options.limit := List.length_take_le _ _
  · intro claim hclaim
    obtain ⟨next, hnext, rfl⟩ := List.mem_map.mp hclaim
    obtain ⟨i, hi, rfl⟩ := List.mem_iff_getElem.mp (Table.mem_of_mem_ofList hnext)
    have hlength := hleased.length_eq
    obtain ⟨j, hlease⟩ := (List.forall₂_iff_get.mp hleased).2 i (by omega) hi
    obtain ⟨hmem, hclaimable⟩ :=
      mem_claimableDeliveries (List.get_mem (claimableDeliveries options current) ⟨i, by omega⟩)
    have hsame := leaseDelivery_eq_ok (hstored.event hmem) hlease
    change leased[i] = _ at hsame
    rw [hsame]
    simp only [isClaimable, Bool.and_eq_true, decide_eq_true_eq] at hclaimable
    exact hclaimable.1.1.2

variable {claimed : OutboundWebhookDelivery} {result : CompleteOutboundWebhookDeliveryResult}
  {endpoint : Option OutboundWebhookEndpoint} {options : CompleteOptions}

/-- A completion that is committed ends the attempt of its own delivery. -/
theorem complete_committed {delivery : OutboundWebhookDelivery}
    (h : completeOutboundWebhookDelivery claimed result endpoint options store =
      (store', .ok delivery)) :
    delivery.id = claimed.id ∧
      delivery.status ∈ [OutboundWebhookDeliveryStatus.succeeded, .retry, .exhausted] := by
  obtain ⟨current, hread, hupdate, -⟩ := JsonFileStore.exec_of_ok _ h
  have hstored := stored_of_parse hread
  split at hupdate
  · simp at hupdate
  · next latest hfound =>
      split at hupdate
      · simp at hupdate
      · obtain ⟨next, hnext, hupdate⟩ := except_bind_eq_ok.mp hupdate
        obtain ⟨runtimes, -, hupdate⟩ := except_bind_eq_ok.mp hupdate
        obtain ⟨-, rfl⟩ := Prod.mk.inj (Except.ok.inj hupdate)
        obtain ⟨nextAttemptAt, rfl⟩ :=
          completedDelivery_eq_ok (hstored.event (List.mem_of_find?_eq_some hfound)) hnext
        refine ⟨by simpa using List.find?_some hfound, ?_⟩
        dsimp only
        unfold statusAfterAttempt
        split
        · simp
        · split <;> simp

/-- A completion fails for the sake of other actors when the delivery is gone, or its
lease. -/
theorem complete_takeover {error : WebhookError}
    (h : completeOutboundWebhookDelivery claimed result endpoint options store =
      (store', .error error)) (htakeover : error.isTakeover = true) :
    (∀ delivery ∈ store.deliveries, delivery.id ≠ claimed.id) ∨
      ∃ message code, error = .conflict message code := by
  obtain ⟨current, hread, hupdate⟩ := takeover_of_exec h htakeover
  split at hupdate
  · next habsent =>
      refine .inl fun delivery hmem hid => ?_
      have hin : claimed.id ∈ current.deliveries.map (·.id) := by
        rw [map_id_of_parseStore hread, ← hid]
        exact List.mem_map_of_mem hmem
      obtain ⟨other, hother, hsame⟩ := List.mem_map.mp hin
      simpa [hsame] using List.find?_eq_none.mp habsent other hother
  · next latest hfound =>
      split at hupdate
      · exact .inr ⟨_, _, (Except.error.inj hupdate).symm⟩
      · have hfalse := Undisturbed.error hupdate
          ((undisturbed_completedDelivery _ _ _ _).bind fun _ =>
            (undisturbed_updateEndpointRuntimeAfterAttempt _ _ _ _).bind fun _ => undisturbed_ok _)
        rw [hfalse] at htakeover
        simp at htakeover

/-- A claim never fails for the sake of other actors. -/
theorem claim_undisturbed {options : ClaimOptions} {error : WebhookError}
    (h : claimOutboundWebhookDeliveries options store = (store', .error error)) :
    error.isTakeover = false := by
  by_contra htakeover
  obtain ⟨current, -, hupdate⟩ := takeover_of_exec h (by simpa using htakeover)
  exact htakeover (Undisturbed.error hupdate
    ((undisturbed_mapM (fun _ => undisturbed_leaseDelivery _ _ _) _).bind fun _ => undisturbed_ok _))

end Calls

/-! ## The invariant of a dispatch -/

/-- The batch whose attempts are under way. -/
def DispatchPhase.batch : DispatchPhase → List BatchSlot
  | .delivering batch => batch
  | _ => []

def DispatchPhase.isOver : DispatchPhase → Bool
  | .returned | .rejected _ => true
  | _ => false

def DispatchState.entries (state : DispatchState) : List DispatchEntry :=
  state.results ++ state.phase.batch.filterMap (·.entry)

/-- The entries report the completions that were committed, and no others. -/
structure Faithful (entries : List DispatchEntry) (committed : List OutboundWebhookDelivery) :
    Prop where
  reported : ∀ delivery ∈ committed, ∃ entry ∈ entries,
    entry.deliveryId = delivery.id ∧ entry.status = .completed delivery.status
  committed : ∀ entry ∈ entries, ∀ status, entry.status = .completed status →
    status ∈ [OutboundWebhookDeliveryStatus.succeeded, .retry, .exhausted] ∧
      ∃ delivery ∈ committed, delivery.id = entry.deliveryId ∧ delivery.status = status

/-- What holds of a dispatch after each of its steps, `own` of them so far. -/
structure DispatchInvariant (options : DispatchOptions) (own : ℕ) (world : DispatchWorld) : Prop where
  counted : world.dispatch.claimedCount = world.dispatch.processedDeliveryIds.length
  distinct : world.dispatch.processedDeliveryIds.Nodup
  limit : world.dispatch.claimedCount ≤ options.limit
  ids : (∀ error, world.dispatch.phase ≠ .rejected error) →
    world.dispatch.processedDeliveryIds = world.dispatch.results.map (·.deliveryId) ++
      world.dispatch.phase.batch.map (·.claimed.delivery.id)
  slots : ∀ slot ∈ world.dispatch.phase.batch, ∀ entry, slot.entry = some entry →
    entry.deliveryId = slot.claimed.delivery.id
  faithful : (∀ error, world.dispatch.phase ≠ .rejected error) →
    Faithful world.dispatch.entries world.committed
  pending : ∀ batch, world.dispatch.phase = .delivering batch → ∃ slot ∈ batch, slot.entry = none
  steps : own + world.dispatch.phase.batch.countP (·.entry.isNone) ≤
    2 * world.dispatch.claimedCount + world.dispatch.phase.isOver.toNat
  rejected : ∀ error, world.dispatch.phase = .rejected error → error.isTakeover = false

section Invariant

variable {options : DispatchOptions} {world world' : DispatchWorld} {own i : ℕ}
  {batch : List BatchSlot} {slot : BatchSlot} {entry : DispatchEntry}

theorem Faithful.skip {entries entries' : List DispatchEntry}
    {committed : List OutboundWebhookDelivery} (h : Faithful entries committed)
    (hentries : ∀ other, other ∈ entries' ↔ other = entry ∨ other ∈ entries)
    (hskipped : entry.status = .skipped) : Faithful entries' committed where
  reported delivery hmem := by
    obtain ⟨other, hother, hreported⟩ := h.reported delivery hmem
    exact ⟨other, (hentries other).mpr (.inr hother), hreported⟩
  committed other hother status hstatus := by
    rcases (hentries other).mp hother with rfl | hold
    · simp [hskipped] at hstatus
    · exact h.committed other hold status hstatus

theorem Faithful.commit {entries entries' : List DispatchEntry}
    {committed : List OutboundWebhookDelivery} {delivery : OutboundWebhookDelivery}
    (h : Faithful entries committed)
    (hentries : ∀ other, other ∈ entries' ↔ other = entry ∨ other ∈ entries)
    (hid : entry.deliveryId = delivery.id) (hstatus : entry.status = .completed delivery.status)
    (hended : delivery.status ∈ [OutboundWebhookDeliveryStatus.succeeded, .retry, .exhausted]) :
    Faithful entries' (committed ++ [delivery]) where
  reported other hmem := by
    rcases List.mem_append.mp hmem with hold | hnew
    · obtain ⟨reported, hreported, hsame⟩ := h.reported other hold
      exact ⟨reported, (hentries reported).mpr (.inr hreported), hsame⟩
    · obtain rfl := List.mem_singleton.mp hnew
      exact ⟨entry, (hentries entry).mpr (.inl rfl), hid, hstatus⟩
  committed other hother status hsame := by
    rcases (hentries other).mp hother with rfl | hold
    · obtain rfl : delivery.status = status :=
        DispatchStatus.completed.inj (hstatus.symm.trans hsame)
      exact ⟨hended, delivery, by simp, hid.symm, rfl⟩
    · obtain ⟨hin, found, hfound, hsame⟩ := h.committed other hold status hsame
      exact ⟨hin, found, List.mem_append_left _ hfound, hsame⟩

theorem mem_filterMap_entry_set (hslot : batch[i]? = some slot) (hnone : slot.entry = none)
    (other : DispatchEntry) :
    other ∈ (batch.set i { slot with entry := some entry }).filterMap (·.entry) ↔
      other = entry ∨ other ∈ batch.filterMap (·.entry) := by
  have hset := getElem?_set_of_some (a := { slot with entry := some entry }) hslot
  constructor
  · intro h
    obtain ⟨found, hfound, hentry⟩ := List.mem_filterMap.mp h
    obtain ⟨j, hj⟩ := List.mem_iff_getElem?.mp hfound
    rcases getElem?_set_cases hj with ⟨rfl, rfl⟩ | ⟨-, hold⟩
    · exact .inl (Option.some.inj hentry).symm
    · exact .inr (List.mem_filterMap.mpr ⟨found, List.mem_of_getElem? hold, hentry⟩)
  · rintro (rfl | h)
    · exact List.mem_filterMap.mpr ⟨_, List.mem_of_getElem? hset, rfl⟩
    · obtain ⟨found, hfound, hentry⟩ := List.mem_filterMap.mp h
      obtain ⟨j, hj⟩ := List.mem_iff_getElem?.mp hfound
      have hne : i ≠ j := by
        rintro rfl
        obtain rfl := Option.some.inj (hslot.symm.trans hj)
        simp [hnone] at hentry
      refine List.mem_filterMap.mpr ⟨found, List.mem_of_getElem? (i := j) ?_, hentry⟩
      rwa [List.getElem?_set_ne hne]

theorem countP_entry_set (hslot : batch[i]? = some slot) (hnone : slot.entry = none) :
    (batch.set i { slot with entry := some entry }).countP (·.entry.isNone) + 1 =
      batch.countP (·.entry.isNone) := by
  obtain ⟨hlt, rfl⟩ := List.getElem?_eq_some_iff.mp hslot
  have hpos : 0 < batch.countP (·.entry.isNone) :=
    List.countP_pos_iff.mpr ⟨_, List.getElem_mem hlt, by simp [hnone]⟩
  rw [List.countP_set hlt]
  simp only [hnone, Option.isNone_none, if_true, Option.isNone_some, Bool.false_eq_true, if_false]
  omega

theorem map_deliveryId_of_done (hdone : ∀ slot ∈ batch, slot.entry.isSome = true)
    (hslots : ∀ slot ∈ batch, ∀ entry, slot.entry = some entry →
      entry.deliveryId = slot.claimed.delivery.id) :
    (batch.filterMap (·.entry)).map (·.deliveryId) = batch.map (·.claimed.delivery.id) := by
  induction batch with
  | nil => rfl
  | cons slot batch ih =>
      rw [List.forall_mem_cons] at hdone hslots
      obtain ⟨entry, hentry⟩ := Option.isSome_iff_exists.mp hdone.1
      rw [List.filterMap_cons_some hentry, List.map_cons, List.map_cons, ih hdone.2 hslots.2,
        hslots.1 entry hentry]

theorem DispatchInvariant.record (h : DispatchInvariant options own world)
    (hphase : world.dispatch.phase = .delivering batch) (hslot : batch[i]? = some slot)
    (hnone : slot.entry = none) (hid : entry.deliveryId = slot.claimed.delivery.id)
    {store : OutboundWebhookStore} {committed : List OutboundWebhookDelivery}
    (hfaithful : ∀ entries, (∀ other, other ∈ entries ↔ other = entry ∨
      other ∈ world.dispatch.entries) → Faithful entries committed) :
    DispatchInvariant options (own + 1)
      { store, dispatch := world.dispatch.record options batch i slot entry, committed } := by
  have hnot : ∀ error, world.dispatch.phase ≠ .rejected error := by simp [hphase]
  have hids := h.ids hnot
  have hslots := h.slots
  have hsteps := h.steps
  simp only [hphase, DispatchPhase.batch, DispatchPhase.isOver, Bool.toNat_false, add_zero]
    at hids hslots hsteps
  -- the batch with the new entry
  have hentries : ∀ other, other ∈ (batch.set i { slot with entry := some entry }).filterMap
      (·.entry) ↔ _ := mem_filterMap_entry_set hslot hnone
  have hset := getElem?_set_of_some (a := { slot with entry := some entry }) hslot
  have hopen : (batch.set i { slot with entry := some entry }).countP (·.entry.isNone) + 1 = _ :=
    countP_entry_set hslot hnone
  generalize hnext : batch.set i { slot with entry := some entry } = next at hentries hset hopen
  have hnextIds : next.map (·.claimed.delivery.id) = batch.map (·.claimed.delivery.id) := by
    rw [← hnext, List.map_set]
    exact set_of_getElem?_eq (by rw [List.getElem?_map, hslot]; rfl)
  have hnextSlots : ∀ slot ∈ next, ∀ entry, slot.entry = some entry →
      entry.deliveryId = slot.claimed.delivery.id := by
    intro found hfound reported hreported
    obtain ⟨j, hj⟩ := List.mem_iff_getElem?.mp hfound
    rcases getElem?_set_cases (hnext ▸ hj) with ⟨-, rfl⟩ | ⟨-, hold⟩
    · rw [← Option.some.inj hreported, hid]
    · exact hslots found (List.mem_of_getElem? hold) reported hreported
  have hall : ∀ other, other ∈ world.dispatch.results ++ next.filterMap (·.entry) ↔
      other = entry ∨ other ∈ world.dispatch.entries := by
    intro other
    rw [DispatchState.entries, hphase, DispatchPhase.batch, List.mem_append, List.mem_append,
      hentries]
    tauto
  unfold DispatchState.record
  simp only [hnext]
  split
  · next hdone =>
      rw [List.all_eq_true] at hdone
      have hresults : world.dispatch.processedDeliveryIds =
          (world.dispatch.results ++ next.filterMap (·.entry)).map (·.deliveryId) := by
        rw [hids, List.map_append, map_deliveryId_of_done hdone hnextSlots, hnextIds]
      have hbatch : (if world.dispatch.claimedCount < options.limit then DispatchPhase.claiming
          else .returned).batch = [] := by
        split <;> rfl
      have hrejected : ∀ error, (if world.dispatch.claimedCount < options.limit then
          DispatchPhase.claiming else .returned) ≠ .rejected error := by
        intro error
        split <;> simp
      refine ⟨h.counted, h.distinct, h.limit, fun _ => ?_, ?_, fun _ => hfaithful _ fun other => ?_,
        ?_, ?_, fun error herror => absurd herror (hrejected error)⟩
      · simpa only [hbatch, List.map_nil, List.append_nil] using hresults
      · simp only [hbatch]
        simp
      · simpa only [DispatchState.entries, hbatch, List.filterMap_nil, List.append_nil] using hall other
      · intro batch hdelivering
        dsimp only at hdelivering
        split at hdelivering <;> simp at hdelivering
      · simp only [hbatch, List.countP_nil]
        omega
  · next hpending =>
      refine ⟨h.counted, h.distinct, h.limit, fun _ => ?_, hnextSlots, fun _ => hfaithful _ hall,
        ?_, ?_, by simp⟩
      · simpa only [DispatchPhase.batch, hnextIds] using hids
      · intro delivering hdelivering
        obtain rfl := DispatchPhase.delivering.inj hdelivering
        rw [List.all_eq_true, not_forall] at hpending
        obtain ⟨slot, hslot⟩ := hpending
        exact ⟨slot, by simpa using hslot⟩
      · simp only [DispatchPhase.batch, DispatchPhase.isOver]
        omega

theorem DispatchOptions.check_undisturbed (options : DispatchOptions) :
    Undisturbed options.check := by
  unfold DispatchOptions.check
  split_ifs <;> first | exact rfl | trivial

theorem dispatchInvariant_start (options : DispatchOptions) (store : OutboundWebhookStore) :
    DispatchInvariant options 0 (startDispatch options store) := by
  cases hcheck : options.check with
  | ok _ =>
      have hstart : startDispatch options store = { store, dispatch := { phase := .claiming } } := by
        rw [startDispatch, hcheck]
      rw [hstart]
      refine ⟨rfl, List.nodup_nil, Nat.zero_le _, fun _ => rfl, ?_, fun _ => ⟨?_, ?_⟩, ?_, ?_, ?_⟩ <;>
        simp [DispatchState.entries, DispatchPhase.batch]
  | error error =>
      have hstart : startDispatch options store =
          { store, dispatch := { phase := .rejected error } } := by
        rw [startDispatch, hcheck]
      rw [hstart]
      refine ⟨rfl, List.nodup_nil, Nat.zero_le _, fun _ => rfl, ?_, fun _ => ⟨?_, ?_⟩, ?_, ?_,
        fun thrown hthrown => ?_⟩
      · simp [DispatchPhase.batch]
      · simp
      · simp [DispatchState.entries, DispatchPhase.batch]
      · simp
      · simp [DispatchPhase.batch]
      · obtain rfl := DispatchPhase.rejected.inj hthrown
        exact Undisturbed.error hcheck options.check_undisturbed

theorem DispatchInvariant.claimBatch (h : DispatchInvariant options own world)
    (hphase : world.dispatch.phase = .claiming) (now : ℤ) (newLeaseToken : ℕ → Text) :
    DispatchInvariant options (own + 1) (world.claimBatch options now newLeaseToken) := by
  have hnot : ∀ error, world.dispatch.phase ≠ .rejected error := by simp [hphase]
  have hids := h.ids hnot
  have hfaithful := h.faithful hnot
  have hsteps := h.steps
  simp only [hphase, DispatchPhase.batch, DispatchPhase.isOver, Bool.toNat_false, add_zero,
    List.map_nil, List.append_nil, List.countP_nil] at hids hsteps
  simp only [DispatchState.entries, hphase, DispatchPhase.batch, List.filterMap_nil,
    List.append_nil] at hfaithful
  unfold DispatchWorld.claimBatch
  split
  · next store error hclaim =>
      refine ⟨h.counted, h.distinct, h.limit, fun hnone => absurd rfl (hnone error), ?_,
        fun hnone => absurd rfl (hnone error), ?_, ?_, fun _ hsame => ?_⟩
      · simp [DispatchPhase.batch]
      · simp
      · simpa [DispatchPhase.batch, DispatchPhase.isOver] using hsteps
      · obtain rfl := DispatchPhase.rejected.inj hsame
        exact claim_undisturbed hclaim
  · next store hclaim =>
      refine ⟨h.counted, h.distinct, h.limit, fun _ => ?_, ?_, fun _ => ?_, ?_, ?_, ?_⟩
      · simpa [DispatchPhase.batch] using hids
      · simp [DispatchPhase.batch]
      · simpa [DispatchState.entries, DispatchPhase.batch] using hfaithful
      · simp
      · simpa [DispatchPhase.batch, DispatchPhase.isOver] using hsteps
      · simp
  · next store claimed hempty hclaim =>
      obtain ⟨hdistinct, hlength, hexcluded⟩ := claim_distinct hclaim
      have hpos : 0 < claimed.length := List.length_pos_iff.mpr fun hnil => hempty hnil
      have hlimit := h.limit
      change claimed.length ≤ min options.concurrency (options.limit - world.dispatch.claimedCount)
        at hlength
      refine ⟨?_, ?_, ?_, fun _ => ?_, ?_, fun _ => ?_, ?_, ?_, ?_⟩
      · simp [h.counted]
      · refine List.nodup_append.mpr ⟨h.distinct, hdistinct, ?_⟩
        rintro _ hold _ hnew rfl
        obtain ⟨claim, hclaim, hid⟩ := List.mem_map.mp hnew
        exact hexcluded claim hclaim (hid ▸ hold)
      · dsimp only
        omega
      · simpa [DispatchPhase.batch, List.map_map, Function.comp_def] using hids
      · simp [DispatchPhase.batch]
      · have hnone : (claimed.map fun claimed => ({ claimed } : BatchSlot)).filterMap (·.entry) = [] := by
          simp [List.filterMap_map]
        simpa [DispatchState.entries, DispatchPhase.batch, hnone] using hfaithful
      · intro batch hdelivering
        obtain rfl := DispatchPhase.delivering.inj hdelivering
        obtain ⟨claim, hmem⟩ := List.exists_mem_of_length_pos hpos
        exact ⟨{ claimed := claim }, List.mem_map_of_mem hmem, rfl⟩
      · have hopen : (claimed.map fun claimed => ({ claimed } : BatchSlot)).countP (·.entry.isNone) =
            claimed.length := by
          simp [List.countP_map, Function.comp_def]
        simp only [DispatchPhase.batch, DispatchPhase.isOver, hopen, Bool.toNat_false]
        omega
      · simp

/-- The invariant after a completion of a delivery that is still there. -/
theorem DispatchInvariant.settle (h : DispatchInvariant options own world)
    (hphase : world.dispatch.phase = .delivering batch) (hslot : batch[i]? = some slot)
    (hnone : slot.entry = none)
    (hfound : ∃ delivery ∈ world.store.deliveries, delivery.id = slot.claimed.delivery.id)
    (attempt : Attempt) (now : ℤ) :
    DispatchInvariant options (own + 1) (world.settle options batch i slot attempt now) := by
  have hfaithful := h.faithful (by simp [hphase])
  unfold DispatchWorld.settle
  split
  · next store delivery hcomplete =>
      obtain ⟨hid, hended⟩ := complete_committed hcomplete
      exact h.record hphase hslot hnone hid fun entries hentries =>
        hfaithful.commit hentries rfl rfl hended
  · next store message code hcomplete =>
      exact h.record hphase hslot hnone rfl fun entries hentries => hfaithful.skip hentries rfl
  · next store error hconflict hcomplete =>
      have hsteps := h.steps
      have hpos : 0 < batch.countP (·.entry.isNone) :=
        List.countP_pos_iff.mpr ⟨slot, List.mem_of_getElem? hslot, by simp [hnone]⟩
      refine ⟨h.counted, h.distinct, h.limit, fun hnot => absurd rfl (hnot error), ?_,
        fun hnot => absurd rfl (hnot error), ?_, ?_, fun _ hsame => ?_⟩
      · simp [DispatchPhase.batch]
      · simp
      · simp only [hphase, DispatchPhase.batch, DispatchPhase.isOver, Bool.toNat_false] at hsteps
        simp only [DispatchPhase.batch, DispatchPhase.isOver, List.countP_nil, Bool.toNat_true]
        omega
      · obtain rfl := DispatchPhase.rejected.inj hsame
        by_contra htakeover
        rcases complete_takeover hcomplete (by simpa using htakeover) with hgone | ⟨_, _, rfl⟩
        · obtain ⟨delivery, hmem, hid⟩ := hfound
          exact hgone delivery hmem hid
        · exact hconflict _ _ rfl

theorem DispatchInvariant.other (h : DispatchInvariant options own world)
    (store : OutboundWebhookStore) : DispatchInvariant options own { world with store } :=
  ⟨h.counted, h.distinct, h.limit, h.ids, h.slots, h.faithful, h.pending, h.steps, h.rejected⟩

/-- The delivery that a dispatch is about to complete is still in the document. -/
def DispatchEvent.FindsDelivery (world : DispatchWorld) : DispatchEvent → Prop
  | .complete i _ _ => ∀ batch slot, world.dispatch.phase = .delivering batch → batch[i]? = some slot →
      ∃ delivery ∈ world.store.deliveries, delivery.id = slot.claimed.delivery.id
  | _ => True

theorem countP_status {entries : List DispatchEntry}
    (h : ∀ entry ∈ entries, ∀ status, entry.status = .completed status →
      status ∈ [OutboundWebhookDeliveryStatus.succeeded, .retry, .exhausted]) :
    entries.countP (·.status = .completed .succeeded) + entries.countP (·.status = .completed .retry) +
      entries.countP (·.status = .completed .exhausted) + entries.countP (·.status = .skipped) =
        entries.length := by
  induction entries with
  | nil => rfl
  | cons entry entries ih =>
      rw [List.forall_mem_cons] at h
      have hrest := ih h.2
      have hentry := h.1
      simp only [List.countP_cons, List.length_cons]
      cases hstatus : entry.status with
      | skipped =>
          simp only [reduceCtorEq, decide_false, Bool.false_eq_true, if_false, decide_true, if_true]
          omega
      | completed status =>
          have hended := hentry status hstatus
          simp only [List.mem_cons, List.not_mem_nil, or_false] at hended
          rcases hended with rfl | rfl | rfl <;> simp <;> omega

variable [CaseMapping] [EndpointUrlPolicy]

theorem dispatchInvariant_of_run {store : OutboundWebhookStore} {events : List DispatchEvent}
    (hrun : Run (fun world event world' => event.FindsDelivery world ∧
      DispatchWorld.Step options world event world') (startDispatch options store) events world) :
    DispatchInvariant options (events.countP (·.isOwn)) world := by
  generalize hstart : startDispatch options store = start at hrun
  induction hrun with
  | refl => exact hstart ▸ dispatchInvariant_start options store
  | @snoc _ _ labels event before last ih =>
      obtain ⟨hfound, hstep⟩ := last
      rw [List.countP_append]
      cases event with
      | other call =>
          rw [show _ = _ from hstep]
          exact ih.other _
      | claim now newLeaseToken =>
          obtain ⟨hphase, -, rfl⟩ := hstep
          exact ih.claimBatch hphase now newLeaseToken
      | complete i network now =>
          obtain ⟨batch, slot, hphase, hslot, hnone, -, rfl⟩ := hstep
          exact ih.settle hphase hslot hnone (hfound batch slot hphase hslot) _ now

theorem DispatchInvariant.progress (h : DispatchInvariant options own world)
    (hphase : world.dispatch.phase.isOver = false) :
    ∃ event world', event.isOwn = true ∧ DispatchWorld.Step options world event world' := by
  have hreads : options.reads (options.now.getD 0) := by
    intro given hgiven
    rw [hgiven, Option.getD_some]
  cases hcase : world.dispatch.phase with
  | claiming => exact ⟨.claim (options.now.getD 0) fun _ => [], _, rfl, hcase, hreads, rfl⟩
  | delivering batch =>
      obtain ⟨slot, hmem, hnone⟩ := h.pending batch hcase
      obtain ⟨i, hslot⟩ := List.mem_iff_getElem?.mp hmem
      exact ⟨.complete i (.failed []) (options.now.getD 0), _, rfl, batch, slot, hcase, hslot, hnone,
        hreads, rfl⟩
  | returned | rejected => simp [hcase, DispatchPhase.isOver] at hphase

/-- A dispatch reports every claim it made. In every run of a dispatch among other actors
on any document, in which each delivery that the dispatch completes is still in the
document then: the dispatch does not fail for what others did; when it returns, it has
one entry for each delivery it claimed, and an entry reports a completion exactly when
that completion was committed; and it does return or fail after boundedly many steps of
its own. -/
theorem dispatch_reports {store : OutboundWebhookStore} {events : List DispatchEvent}
    (hrun : Run (fun world event world' => event.FindsDelivery world ∧
      DispatchWorld.Step options world event world') (startDispatch options store) events world) :
    (∀ error, world.dispatch.phase = .rejected error → error.isTakeover = false) ∧
    (world.dispatch.phase = .returned →
      let result := world.dispatch.result
      result.results.map (·.deliveryId) = world.dispatch.processedDeliveryIds ∧
        result.claimed = world.dispatch.processedDeliveryIds.length ∧
        world.dispatch.processedDeliveryIds.Nodup ∧
        result.results.length ≤ options.limit ∧
        result.succeeded + result.retried + result.exhausted + result.skipped = result.claimed ∧
        ∀ entry ∈ result.results, ∀ status, entry.status = .completed status ↔
          ∃ delivery ∈ world.committed, delivery.id = entry.deliveryId ∧ delivery.status = status) ∧
    events.countP (·.isOwn) ≤ 2 * options.limit + 1 ∧
    (world.dispatch.phase.isOver = false →
      ∃ event world', event.isOwn = true ∧ DispatchWorld.Step options world event world') := by
  have h := dispatchInvariant_of_run hrun
  refine ⟨h.rejected, fun hphase => ?_, ?_, h.progress⟩
  · have hnot : ∀ error, world.dispatch.phase ≠ .rejected error := by simp [hphase]
    have hids := h.ids hnot
    have hfaithful := h.faithful hnot
    simp only [DispatchState.entries, hphase, DispatchPhase.batch, List.filterMap_nil,
      List.append_nil, List.map_nil] at hids hfaithful
    have hlength : world.dispatch.claimedCount = world.dispatch.results.length := by
      rw [h.counted, hids, List.length_map]
    refine ⟨hids.symm, h.counted, h.distinct, hlength ▸ h.limit, ?_, fun entry hentry status =>
      ⟨fun hstatus => (hfaithful.committed entry hentry status hstatus).2, ?_⟩⟩
    · exact (countP_status fun entry hentry status hstatus =>
        (hfaithful.committed entry hentry status hstatus).1).trans hlength.symm
    · rintro ⟨delivery, hdelivery, hid, rfl⟩
      obtain ⟨reported, hreported, hsame, hstatus⟩ := hfaithful.reported delivery hdelivery
      have hdistinct : (world.dispatch.results.map (·.deliveryId)).Nodup := hids ▸ h.distinct
      rwa [List.inj_on_of_nodup_map hdistinct hentry hreported (hid.symm.trans hsame.symm)]
  · have hsteps := h.steps
    have hlimit := h.limit
    have hover : world.dispatch.phase.isOver.toNat ≤ 1 := Bool.toNat_le _
    omega

end Invariant

/-! ## A delivery that is taken away -/

/-- The options of the sample dispatch. -/
def sampleDispatchOptions : DispatchOptions where
  resolveSecret := fun _ => some "secret"

/-- The completion of an attempt, if it is under way. -/
def DispatchWorld.completeAt (options : DispatchOptions) (i : ℕ) (network : NetworkOutcome) (now : ℤ)
    (world : DispatchWorld) : DispatchWorld :=
  match world.dispatch.phase.batch[i]? with
  | none => world
  | some slot =>
      world.settle options world.dispatch.phase.batch i slot
        (deliverClaimedWebhook slot.claimed options.resolveSecret network) now

def DispatchWorld.awaits (world : DispatchWorld) (i : ℕ) : Bool :=
  (world.dispatch.phase.batch[i]?).any (·.entry.isNone)

theorem step_completeAt [CaseMapping] [EndpointUrlPolicy] {options : DispatchOptions} {i : ℕ}
    {network : NetworkOutcome} {now : ℤ} {world : DispatchWorld} (hreads : options.reads now)
    (hopen : world.awaits i = true) :
    DispatchWorld.Step options world (.complete i network now)
      (world.completeAt options i network now) := by
  obtain ⟨slot, hslot, hnone⟩ := Option.any_eq_true _ _ |>.mp hopen
  refine ⟨world.dispatch.phase.batch, slot, ?_, hslot, by simpa using hnone, hreads, ?_⟩
  · cases hphase : world.dispatch.phase with
    | delivering batch => rfl
    | _ => simp [hphase, DispatchPhase.batch] at hslot
  · rw [DispatchWorld.completeAt, hslot]

/-- The deliveries of the batch are in the document. -/
def DispatchWorld.FindsBatch (world : DispatchWorld) : Prop :=
  ∀ slot ∈ world.dispatch.phase.batch,
    slot.claimed.delivery.id ∈ world.store.deliveries.map (·.id)

instance (world : DispatchWorld) : Decidable world.FindsBatch :=
  inferInstanceAs (Decidable (∀ slot ∈ world.dispatch.phase.batch, _ ∈ _))

theorem DispatchWorld.FindsBatch.completion {world : DispatchWorld} {i : ℕ}
    {network : NetworkOutcome} {now : ℤ} (h : world.FindsBatch) :
    DispatchEvent.FindsDelivery world (.complete i network now) := by
  intro batch slot hphase hslot
  have hmem : slot ∈ world.dispatch.phase.batch := by
    rw [hphase]
    exact List.mem_of_getElem? hslot
  exact List.mem_map.mp (h slot hmem)

/-- The error a dispatch has ended with. -/
def DispatchPhase.error? : DispatchPhase → Option WebhookError
  | .rejected error => some error
  | _ => none

theorem phase_of_error? {phase : DispatchPhase} {error : WebhookError}
    (h : phase.error? = some error) : phase = .rejected error := by
  cases phase with
  | rejected thrown => rw [Option.some.inj h]
  | _ => simp [DispatchPhase.error?] at h

/-- A dispatch that claims a batch next. -/
def DispatchPhase.isClaiming : DispatchPhase → Bool
  | .claiming => true
  | _ => false

theorem step_claimBatch [CaseMapping] [EndpointUrlPolicy] {options : DispatchOptions} {now : ℤ}
    {newLeaseToken : ℕ → Text} {world : DispatchWorld} (hreads : options.reads now)
    (hclaiming : world.dispatch.phase.isClaiming = true) :
    DispatchWorld.Step options world (.claim now newLeaseToken)
      (world.claimBatch options now newLeaseToken) := by
  refine ⟨?_, hreads, rfl⟩
  cases hphase : world.dispatch.phase with
  | claiming => rfl
  | _ => simp [hphase, DispatchPhase.isClaiming] at hclaiming

section Sample

variable [CaseMapping] [EndpointUrlPolicy]

/-- A dispatch that has claimed the sample delivery. -/
def sampleClaimed : DispatchWorld :=
  (startDispatch sampleDispatchOptions (performAll [createSample, enqueueSample])).claimBatch
    sampleDispatchOptions 1000 fun _ => sampleToken

/-- Another actor deletes the endpoint. -/
def sampleDeleted : DispatchWorld :=
  { sampleClaimed with
    store := OutboxCall.perform sampleClaimed.store (.deleteEndpoint sampleEndpointId 1100) }

/-- Another actor prunes the delivery that has ended with the endpoint. -/
def samplePruned : DispatchWorld :=
  { sampleDeleted with
    store := OutboxCall.perform sampleDeleted.store (.prune { before := 1200 }) }

end Sample

theorem sampleOptions_reads (now : ℤ) : sampleDispatchOptions.reads now := by
  simp [DispatchOptions.reads, sampleDispatchOptions]

theorem step_sampleClaimed :
    letI := asciiCaseMapping
    letI := plainUrlPolicy
    DispatchWorld.Step sampleDispatchOptions
      (startDispatch sampleDispatchOptions (performAll [createSample, enqueueSample]))
      (.claim 1000 fun _ => sampleToken) sampleClaimed :=
  letI := asciiCaseMapping
  letI := plainUrlPolicy
  step_claimBatch (sampleOptions_reads _) (by decide +kernel)

/-- Between the claim and the completion, the endpoint is deleted and the delivery, which
has ended with it, is pruned: the dispatch fails. -/
theorem dispatch_rejected :
    letI := asciiCaseMapping
    letI := plainUrlPolicy
    ∃ events world, Run (DispatchWorld.Step sampleDispatchOptions)
        (startDispatch sampleDispatchOptions (performAll [createSample, enqueueSample])) events world ∧
      ∃ error, world.dispatch.phase = .rejected error ∧ error.isTakeover = true := by
  let := asciiCaseMapping
  let := plainUrlPolicy
  have hdeleted : DispatchWorld.Step sampleDispatchOptions sampleClaimed
      (.other (.deleteEndpoint sampleEndpointId 1100)) sampleDeleted := rfl
  have hpruned : DispatchWorld.Step sampleDispatchOptions sampleDeleted
      (.other (.prune { before := 1200 })) samplePruned := rfl
  obtain ⟨hopen, herror⟩ : samplePruned.awaits 0 = true ∧
      (samplePruned.completeAt sampleDispatchOptions 0 (.response true 200)
        2000).dispatch.phase.error? = some (.notFound .delivery (sampleDeliveryId 0)) := by
    decide +kernel
  have hcomplete : DispatchWorld.Step sampleDispatchOptions samplePruned
      (.complete 0 (.response true 200) 2000)
      (samplePruned.completeAt sampleDispatchOptions 0 (.response true 200) 2000) :=
    step_completeAt (sampleOptions_reads _) hopen
  have hrun : Run (DispatchWorld.Step sampleDispatchOptions)
      (startDispatch sampleDispatchOptions (performAll [createSample, enqueueSample]))
      ([] ++ [.claim 1000 fun _ => sampleToken] ++ [.other (.deleteEndpoint sampleEndpointId 1100)] ++
        [.other (.prune { before := 1200 })] ++ [.complete 0 (.response true 200) 2000])
      (samplePruned.completeAt sampleDispatchOptions 0 (.response true 200) 2000) :=
    .snoc (.snoc (.snoc (.snoc (.refl _) step_sampleClaimed) hdeleted) hpruned) hcomplete
  exact ⟨_, _, hrun, _, phase_of_error? herror, rfl⟩

/-! ## A delivery that is taken over -/

/-- The call that queues a second delivery to the sample endpoint. -/
def enqueueOther : OutboxCall :=
  .enqueue { type := .webhookTest, source := .webhook } { now := 0 }
    "55555555-5555-4555-8555-555555555555" 0
    fun n => ("66666666-6666-4666-8666-66666666666" : Text) ++ Text.ofNat n

/-- The call of a second dispatcher, after the lease of that delivery has expired. -/
def takeOver : OutboxCall :=
  .claim
    { limit := 1
      now := 100000
      leaseMs := 90000
      newLeaseToken := fun _ => "77777777-7777-4777-8777-777777777777" }

section Sample

variable [CaseMapping] [EndpointUrlPolicy]

def twoQueued : OutboundWebhookStore := performAll [createSample, enqueueSample, enqueueOther]

/-- A dispatch has claimed both. -/
def bothClaimed : DispatchWorld :=
  (startDispatch sampleDispatchOptions twoQueued).claimBatch sampleDispatchOptions 1000
    fun _ => sampleToken

def firstCompleted : DispatchWorld :=
  bothClaimed.completeAt sampleDispatchOptions 0 (.response true 200) 2000

def secondTaken : DispatchWorld :=
  { firstCompleted with store := takeOver.perform firstCompleted.store }

/-- The dispatch is too late to complete it. -/
def secondSkipped : DispatchWorld :=
  secondTaken.completeAt sampleDispatchOptions 1 (.response true 200) 101000

def sampleReturned : DispatchWorld :=
  secondSkipped.claimBatch sampleDispatchOptions 101000 fun _ => sampleToken

end Sample

/-- A dispatch reports one delivery as succeeded and one, which another dispatcher has
taken over in the meantime, as skipped. -/
theorem dispatch_reports_sample :
    letI := asciiCaseMapping
    letI := plainUrlPolicy
    sampleReturned.dispatch.result.succeeded = 1 ∧ sampleReturned.dispatch.result.skipped = 1 ∧
      ∀ entry ∈ sampleReturned.dispatch.result.results, ∀ status,
        entry.status = .completed status ↔
          ∃ delivery ∈ sampleReturned.committed,
            delivery.id = entry.deliveryId ∧ delivery.status = status := by
  let := asciiCaseMapping
  let := plainUrlPolicy
  -- one evaluation of the sample run
  obtain ⟨hfound, hfound', hstart, hopen, hopen', hclaiming, hover, hnone, hsucceeded, hskipped⟩ :
      bothClaimed.FindsBatch ∧ secondTaken.FindsBatch ∧
      (startDispatch sampleDispatchOptions twoQueued).dispatch.phase.isClaiming = true ∧
      bothClaimed.awaits 0 = true ∧
      secondTaken.awaits 1 = true ∧
      secondSkipped.dispatch.phase.isClaiming = true ∧
      sampleReturned.dispatch.phase.isOver = true ∧
      sampleReturned.dispatch.phase.error? = none ∧
      sampleReturned.dispatch.result.succeeded = 1 ∧
      sampleReturned.dispatch.result.skipped = 1 := by
    decide +kernel
  have hclaim : DispatchWorld.Step sampleDispatchOptions
      (startDispatch sampleDispatchOptions twoQueued) (.claim 1000 fun _ => sampleToken)
      bothClaimed :=
    step_claimBatch (sampleOptions_reads _) hstart
  have hfirst : DispatchWorld.Step sampleDispatchOptions bothClaimed
      (.complete 0 (.response true 200) 2000) firstCompleted :=
    step_completeAt (sampleOptions_reads _) hopen
  have htaken : DispatchWorld.Step sampleDispatchOptions firstCompleted (.other takeOver)
      secondTaken := rfl
  have hsecond : DispatchWorld.Step sampleDispatchOptions secondTaken
      (.complete 1 (.response true 200) 101000) secondSkipped :=
    step_completeAt (sampleOptions_reads _) hopen'
  have hend : DispatchWorld.Step sampleDispatchOptions secondSkipped
      (.claim 101000 fun _ => sampleToken) sampleReturned :=
    step_claimBatch (sampleOptions_reads _) hclaiming
  have hrun : Run (fun world event world' => event.FindsDelivery world ∧
      DispatchWorld.Step sampleDispatchOptions world event world')
      (startDispatch sampleDispatchOptions twoQueued)
      ([] ++ [.claim 1000 fun _ => sampleToken] ++ [.complete 0 (.response true 200) 2000] ++
        [.other takeOver] ++ [.complete 1 (.response true 200) 101000] ++
        [.claim 101000 fun _ => sampleToken]) sampleReturned :=
    .snoc (.snoc (.snoc (.snoc (.snoc (.refl _) ⟨trivial, hclaim⟩) ⟨hfound.completion, hfirst⟩)
      ⟨trivial, htaken⟩) ⟨hfound'.completion, hsecond⟩) ⟨trivial, hend⟩
  have hreturned : sampleReturned.dispatch.phase = .returned := by
    cases hphase : sampleReturned.dispatch.phase with
    | returned => rfl
    | rejected => simp [hphase, DispatchPhase.error?] at hnone
    | claiming | delivering => simp [hphase, DispatchPhase.isOver] at hover
  exact ⟨hsucceeded, hskipped, ((dispatch_reports hrun).2.1 hreturned).2.2.2.2.2⟩

end ListmonkOps.Webhook
