/-
What a call on the outbox can do.

Each operation rewrites some deliveries, and possibly the endpoints or the
circuits. This module says once, for every operation, what becomes of each
delivery and of the rest of the document; the invariants of the outbox are
read off from that.
-/

import ListmonkOps.Math.Run
import ListmonkOps.Webhook.Outbox

namespace ListmonkOps.Webhook

open ListmonkOps.Math ListmonkOps.Runtime

/-! ## Calls -/

/-- A call on the file repository, with what it would draw at random. -/
inductive OutboxCall where
  | createEndpoint (input : CreateOutboundWebhookEndpointInput) (newId : Text) (now : ℤ)
  | updateEndpoint (id : Text) (input : UpdateOutboundWebhookEndpointInput) (now : ℤ)
  | deleteEndpoint (id : Text) (now : ℤ)
  | enqueue (input : CreateOutboundWebhookEventInput) (options : EnqueueOptions)
      (newEventId : Text) (clock : ℤ) (newDeliveryId : ℕ → Text)
  | claim (options : ClaimOptions)
  | complete (claimed : OutboundWebhookDelivery) (result : CompleteOutboundWebhookDeliveryResult)
      (endpoint : Option OutboundWebhookEndpoint) (options : CompleteOptions)
  | retry (id : Text) (now : ℤ)
  | replay (options : ReplayOptions)
  | reconcile (options : ReconcileOptions)
  | prune (options : PruneOptions)
  | resetCircuit (endpointId : Text)

/-- The identifiers that a call draws are new. -/
def OutboxCall.Fresh (store : OutboundWebhookStore) : OutboxCall → Prop
  | .createEndpoint _ newId _ => ∀ endpoint ∈ store.endpoints, endpoint.id ≠ newId
  | .enqueue _ _ _ _ newDeliveryId => Function.Injective newDeliveryId ∧
      ∀ delivery ∈ store.deliveries, ∀ i, delivery.id ≠ newDeliveryId i
  | _ => True

/-- A call may remove deliveries that have ended. -/
def OutboxCall.prunes : OutboxCall → Bool
  | .enqueue .. | .prune _ => true
  | _ => false

section Perform

variable [CaseMapping] [EndpointUrlPolicy]

/-- The document after a call, failed calls included. -/
def OutboxCall.perform (store : OutboundWebhookStore) : OutboxCall → OutboundWebhookStore
  | .createEndpoint input newId now => (createOutboundWebhookEndpoint input newId now store).1
  | .updateEndpoint id input now => (updateOutboundWebhookEndpoint id input now store).1
  | .deleteEndpoint id now => (deleteOutboundWebhookEndpoint id now store).1
  | .enqueue input options newEventId clock newDeliveryId =>
      (enqueueOutboundWebhookEvent input options newEventId clock newDeliveryId store).1
  | .claim options => (claimOutboundWebhookDeliveries options store).1
  | .complete claimed result endpoint options =>
      (completeOutboundWebhookDelivery claimed result endpoint options store).1
  | .retry id now => (retryOutboundWebhookDelivery id now store).1
  | .replay options => (replayOutboundWebhookDeadLetters options store).1
  | .reconcile options => (reconcileOutboundWebhookDeliveries options store).1
  | .prune options => (pruneOutboundWebhookDeliveries options store).1
  | .resetCircuit endpointId => (resetOutboundWebhookEndpointCircuit endpointId store).1

/-- The step relation of the outbox: any call, drawing new identifiers. -/
def OutboxCall.Step (store : OutboundWebhookStore) (call : OutboxCall)
    (store' : OutboundWebhookStore) : Prop :=
  call.Fresh store ∧ store' = call.perform store

end Perform

/-! ## What becomes of one delivery -/

section Deliveries

variable {delivery next : OutboundWebhookDelivery} {now : ℤ}

theorem requeued_eq_ok (hevent : eventSchema delivery.event = .ok delivery.event)
    (h : requeued delivery now = .ok next) :
    next = { delivery with
      status := .pending
      attemptCount := 0
      manualRetryCount := delivery.manualRetryCount + 1
      nextAttemptAt := { time := now }
      lastAttemptAt := none
      completedAt := none
      statusCode := none
      lastError := none
      leaseToken := none
      leaseExpiresAt := none } := by
  obtain ⟨nextAttemptAt, hnext, h⟩ := except_bind_eq_ok.mp h
  obtain rfl := nowIso_eq_ok hnext
  exact deliverySchema_of_event hevent h

theorem leaseDelivery_eq_ok {options : ClaimOptions} {token : Text}
    (hevent : eventSchema delivery.event = .ok delivery.event)
    (h : leaseDelivery options delivery token = .ok next) :
    next = { delivery with
      status := .delivering
      attemptCount := delivery.attemptCount + 1
      lastAttemptAt := some { time := options.now }
      leaseToken := some token
      leaseExpiresAt := some { time := options.now + options.leaseMs } } := by
  obtain ⟨lastAttemptAt, hlast, h⟩ := except_bind_eq_ok.mp h
  obtain ⟨leaseExpiresAt, hexpires, h⟩ := except_bind_eq_ok.mp h
  obtain rfl := nowIso_eq_ok hlast
  obtain rfl := nowIso_eq_ok hexpires
  exact deliverySchema_of_event hevent h

theorem recoverDelivery_eq_ok {endpoint : Option OutboundWebhookEndpoint}
    (hevent : eventSchema delivery.event = .ok delivery.event)
    (h : recoverDelivery endpoint now delivery = .ok next) :
    next = { delivery with
      status := if canRetry endpoint delivery then .retry else .exhausted
      nextAttemptAt := { time := now }
      completedAt := if canRetry endpoint delivery then none else some { time := now }
      lastError := some (outboundWebhookLeaseReconciliationError (canRetry endpoint delivery)
        (endpoint.any (·.enabled)))
      leaseToken := none
      leaseExpiresAt := none } := by
  obtain ⟨nextAttemptAt, hnext, h⟩ := except_bind_eq_ok.mp h
  obtain rfl := nowIso_eq_ok hnext
  exact deliverySchema_of_event hevent h

theorem nowIsoWhen_eq_ok {condition : Bool} {at_ : Option DateTime}
    (h : nowIsoWhen condition now = .ok at_) :
    at_ = if condition then some { time := now } else none := by
  cases condition with
  | false => exact (Except.ok.inj h).symm
  | true =>
      cases hnow : nowIso now with
      | error error => simp [nowIsoWhen, hnow, Except.map] at h
      | ok d =>
          obtain rfl := nowIso_eq_ok hnow
          simpa [nowIsoWhen, hnow, Except.map, eq_comm] using h

theorem completedDelivery_eq_ok {result : CompleteOutboundWebhookDeliveryResult}
    {endpoint : Option OutboundWebhookEndpoint} {options : CompleteOptions}
    (hevent : eventSchema delivery.event = .ok delivery.event)
    (h : completedDelivery delivery result endpoint options = .ok next) :
    ∃ nextAttemptAt, next = { delivery with
      status := statusAfterAttempt delivery.attemptCount result endpoint
      nextAttemptAt
      completedAt := if (statusAfterAttempt delivery.attemptCount result endpoint).isTerminal then
        some { time := options.now } else none
      statusCode := result.statusCode
      lastError := result.error.map truncateOutboundWebhookError
      leaseToken := none
      leaseExpiresAt := none } := by
  obtain ⟨nextAttemptAt, -, h⟩ := except_bind_eq_ok.mp h
  obtain ⟨completedAt, hcompleted, h⟩ := except_bind_eq_ok.mp h
  obtain rfl := nowIsoWhen_eq_ok hcompleted
  exact ⟨nextAttemptAt, deliverySchema_of_event hevent h⟩

end Deliveries

def claimableDeliveries (options : ClaimOptions) (store : OutboundWebhookStore) :
    List OutboundWebhookDelivery :=
  ((store.deliveries.filter (isClaimable options store.endpointRuntime)).insertionSort
    fun left right => left.nextAttemptAt.LocaleLE right.nextAttemptAt).take options.limit

theorem mem_claimableDeliveries {store : OutboundWebhookStore} {options : ClaimOptions}
    {delivery : OutboundWebhookDelivery}
    (h : delivery ∈ claimableDeliveries options store) :
    delivery ∈ store.deliveries ∧ isClaimable options store.endpointRuntime delivery = true :=
  List.mem_filter.mp ((List.mem_insertionSort _).mp (List.mem_of_mem_take h))

/-- What a call can make of one delivery, with what it then knew of it. -/
inductive DeliveryMove (store : OutboundWebhookStore) (call : OutboxCall)
    (delivery : OutboundWebhookDelivery) : OutboundWebhookDelivery → Prop
  | kept : DeliveryMove store call delivery delivery
  | requeued {next : OutboundWebhookDelivery} {now : ℤ}
      (status : delivery.status = .retry ∨ delivery.status = .exhausted)
      (enabled : endpointEnabled store.endpoints delivery = true)
      (result : requeued delivery now = .ok next) : DeliveryMove store call delivery next
  | leased {next : OutboundWebhookDelivery} {options : ClaimOptions} {token : Text}
      (called : call = .claim options)
      (selected : delivery ∈ claimableDeliveries options store)
      (result : leaseDelivery options delivery token = .ok next) :
      DeliveryMove store call delivery next
  | recovered {next : OutboundWebhookDelivery} {options : ReconcileOptions}
      (called : call = .reconcile options) (status : delivery.status = .delivering)
      (expired : delivery.leaseExpiresAt.all (·.time ≤ options.now) = true)
      (result : recoverDelivery (endpointById store.endpoints delivery.endpointId) options.now
        delivery = .ok next) : DeliveryMove store call delivery next
  | completed {claimed next : OutboundWebhookDelivery}
      {result : CompleteOutboundWebhookDeliveryResult} {endpoint : Option OutboundWebhookEndpoint}
      {options : CompleteOptions} (called : call = .complete claimed result endpoint options)
      (same : delivery.id = claimed.id) (status : delivery.status = .delivering)
      (token : delivery.leaseToken = claimed.leaseToken)
      (result : completedDelivery delivery result endpoint options = .ok next) :
      DeliveryMove store call delivery next
  | endpointDeleted {id : Text} {at_ : DateTime} (now : ℤ) (called : call = .deleteEndpoint id now)
      (same : delivery.endpointId = id) (status : delivery.status.isTerminal = false) :
      DeliveryMove store call delivery (delivery.endpointDeleted at_)

/-- What a delivery keeps for life: which event it is of, and for which endpoint. -/
structure SameDelivery (before after : OutboundWebhookDelivery) : Prop where
  id : after.id = before.id
  eventId : after.eventId = before.eventId
  endpointId : after.endpointId = before.endpointId
  event : after.event = before.event

section Moves

variable {store : OutboundWebhookStore} {call : OutboxCall}
  {delivery next : OutboundWebhookDelivery}

theorem DeliveryMove.sameDelivery (h : DeliveryMove store call delivery next)
    (hevent : eventSchema delivery.event = .ok delivery.event) : SameDelivery delivery next := by
  cases h with
  | kept => exact ⟨rfl, rfl, rfl, rfl⟩
  | requeued _ _ result =>
      rw [requeued_eq_ok hevent result]
      exact ⟨rfl, rfl, rfl, rfl⟩
  | leased _ _ result =>
      rw [leaseDelivery_eq_ok hevent result]
      exact ⟨rfl, rfl, rfl, rfl⟩
  | recovered _ _ _ result =>
      rw [recoverDelivery_eq_ok hevent result]
      exact ⟨rfl, rfl, rfl, rfl⟩
  | completed _ _ _ _ result =>
      obtain ⟨nextAttemptAt, rfl⟩ := completedDelivery_eq_ok hevent result
      exact ⟨rfl, rfl, rfl, rfl⟩
  | endpointDeleted => exact ⟨rfl, rfl, rfl, rfl⟩

end Moves

/-! ## What becomes of the document -/

/-- What a call can make of the circuits. -/
inductive RuntimeEffect (store : OutboundWebhookStore) (call : OutboxCall) :
    List OutboundWebhookEndpointRuntime → Prop
  | kept : RuntimeEffect store call store.endpointRuntime
  | replaced {runtime : OutboundWebhookEndpointRuntime}
      (present : ∃ previous ∈ store.endpointRuntime, previous.endpointId = runtime.endpointId) :
      RuntimeEffect store call
        (replaceBy OutboundWebhookEndpointRuntime.endpointId store.endpointRuntime runtime)
  | moved {runtime : OutboundWebhookEndpointRuntime}
      (present : ∃ previous ∈ store.endpointRuntime, previous.endpointId = runtime.endpointId) :
      RuntimeEffect store call
        (store.endpointRuntime.filter (·.endpointId ≠ runtime.endpointId) ++ [runtime])
  | added {claimed delivery : OutboundWebhookDelivery}
      {result : CompleteOutboundWebhookDeliveryResult} {endpoint : OutboundWebhookEndpoint}
      {options : CompleteOptions} {runtime : OutboundWebhookEndpointRuntime}
      (called : call = .complete claimed result (some endpoint) options)
      (found : delivery ∈ store.deliveries) (same : delivery.id = claimed.id)
      (status : delivery.status = .delivering) (owner : runtime.endpointId = endpoint.id)
      (absent : ∀ previous ∈ store.endpointRuntime, previous.endpointId ≠ endpoint.id) :
      RuntimeEffect store call (store.endpointRuntime ++ [runtime])

/-- What a call can make of the document; every invariant is proved from these cases alone. -/
inductive OutboxEffect (store : OutboundWebhookStore) (call : OutboxCall) :
    OutboundWebhookStore → Prop
  | unchanged : OutboxEffect store call store
  | endpointAdded {input : CreateOutboundWebhookEndpointInput} {newId : Text} {now : ℤ}
      {endpoint : OutboundWebhookEndpoint} (called : call = .createEndpoint input newId now)
      (drawn : endpoint.id = newId) (schema : endpointSchema endpoint = .ok endpoint) :
      OutboxEffect store call { store with endpoints := store.endpoints ++ [endpoint] }
  | endpointReplaced {id : Text} {input : UpdateOutboundWebhookEndpointInput} {now : ℤ}
      {previous endpoint : OutboundWebhookEndpoint} (called : call = .updateEndpoint id input now)
      (found : previous ∈ store.endpoints) (named : previous.id = id) (same : endpoint.id = id)
      (attempts : endpoint.maxAttempts = input.maxAttempts.getD previous.maxAttempts)
      (schema : endpointSchema endpoint = .ok endpoint) :
      OutboxEffect store call { store with
        endpoints := replaceBy OutboundWebhookEndpoint.id store.endpoints endpoint }
  | endpointDeleted {id : Text} {now : ℤ} {deliveries : List OutboundWebhookDelivery}
      (called : call = .deleteEndpoint id now)
      (moved : List.Forall₂ (DeliveryMove store call) store.deliveries deliveries)
      (ended : ∀ delivery ∈ deliveries, delivery.endpointId = id → delivery.status.isTerminal = true) :
      OutboxEffect store call
        { endpoints := store.endpoints.filter (·.id ≠ id)
          endpointRuntime := store.endpointRuntime.filter (·.endpointId ≠ id)
          deliveries }
  | queued {input : CreateOutboundWebhookEventInput} {options : EnqueueOptions}
      {newEventId : Text} {clock : ℤ} {newDeliveryId : ℕ → Text} {event : OutboundWebhookEvent}
      {queued : List OutboundWebhookDelivery} {remove : List Text}
      (called : call = .enqueue input options newEventId clock newDeliveryId)
      (schema : eventSchema event = .ok event)
      (parsed : ∀ delivery ∈ queued, deliverySchema delivery = .ok delivery)
      (fresh : ∀ delivery ∈ queued, delivery.eventId = event.id ∧ delivery.event = event ∧
        delivery.status = .pending ∧ delivery.attemptCount = 0 ∧ delivery.leaseToken = none ∧
        delivery.leaseExpiresAt = none ∧ delivery.completedAt = none ∧
        (∃ endpoint ∈ store.endpoints, endpoint.id = delivery.endpointId) ∧
        (∀ other ∈ store.deliveries,
          ¬ (other.eventId = delivery.eventId ∧ other.endpointId = delivery.endpointId)) ∧
        ∃ i, delivery.id = newDeliveryId i)
      (distinct : (store.endpoints.map (·.id)).Nodup → (queued.map (·.endpointId)).Nodup)
      (drawn : Function.Injective newDeliveryId → (queued.map (·.id)).Nodup)
      (terminal : ∀ id ∈ remove, ∃ delivery ∈ store.deliveries ++ queued, delivery.id = id ∧
        delivery.status.isTerminal = true) :
      OutboxEffect store call { store with
        deliveries := (store.deliveries ++ queued).filter fun delivery => delivery.id ∉ remove }
  | pruned {options : PruneOptions} {remove : List Text} (called : call = .prune options)
      (terminal : ∀ id ∈ remove, ∃ delivery ∈ store.deliveries, delivery.id = id ∧
        delivery.status.isTerminal = true) :
      OutboxEffect store call { store with
        deliveries := store.deliveries.filter fun delivery => delivery.id ∉ remove }
  | moved {deliveries : List OutboundWebhookDelivery}
      {endpointRuntime : List OutboundWebhookEndpointRuntime}
      (moves : List.Forall₂ (DeliveryMove store call) store.deliveries deliveries)
      (runtimes : RuntimeEffect store call endpointRuntime) :
      OutboxEffect store call { store with deliveries, endpointRuntime }

/-! ## Every call has one of these effects -/

/-- The records of a document are filed under distinct identifiers. -/
structure OutboundWebhookStore.Distinct (store : OutboundWebhookStore) : Prop where
  endpoints : (store.endpoints.map OutboundWebhookEndpoint.id).Nodup
  deliveries : (store.deliveries.map OutboundWebhookDelivery.id).Nodup
  runtimes : (store.endpointRuntime.map OutboundWebhookEndpointRuntime.endpointId).Nodup

section Effects

variable {store : OutboundWebhookStore} {call : OutboxCall} {ρ : Type}

theorem outboxEffect_of_exec {update : OutboundWebhookStore →
      Except WebhookError (OutboundWebhookStore × ρ)} (hstored : store.Stored)
    (heffect : ∀ store' result, update store = .ok (store', result) → OutboxEffect store call store') :
    OutboxEffect store call (createOutboundWebhookStore.exec update store).1 := by
  rcases hexec : createOutboundWebhookStore.exec update store with ⟨store', error | result⟩
  · rw [exec_error hexec]
    exact .unchanged
  · exact heffect store' result (exec_ok hstored hexec).1

theorem OutboundWebhookStore.Distinct.find?_delivery (h : store.Distinct) {id : Text}
    {delivery : OutboundWebhookDelivery} :
    store.deliveries.find? (fun candidate => candidate.id = id) = some delivery ↔
      delivery ∈ store.deliveries ∧ delivery.id = id :=
  find?_key_eq_some_iff h.deliveries

theorem OutboundWebhookStore.Distinct.find?_endpoint (h : store.Distinct) {id : Text}
    {endpoint : OutboundWebhookEndpoint} :
    store.endpoints.find? (fun candidate => candidate.id = id) = some endpoint ↔
      endpoint ∈ store.endpoints ∧ endpoint.id = id :=
  find?_key_eq_some_iff h.endpoints

theorem deliveryMoves_refl (store : OutboundWebhookStore) (call : OutboxCall) :
    List.Forall₂ (DeliveryMove store call) store.deliveries store.deliveries :=
  List.forall₂_same.mpr fun _ _ => .kept

theorem deliveryMoves_of_replaceFirstBy (hdistinct : store.Distinct)
    {delivery next : OutboundWebhookDelivery} (hmem : delivery ∈ store.deliveries)
    (hid : next.id = delivery.id) (hmove : DeliveryMove store call delivery next) :
    List.Forall₂ (DeliveryMove store call) store.deliveries
      (replaceFirstBy OutboundWebhookDelivery.id store.deliveries next) := by
  rw [replaceFirstBy_eq_replaceBy hdistinct.deliveries, replaceBy, List.forall₂_map_right_iff,
    List.forall₂_same]
  intro other hother
  by_cases hsame : other.id = next.id
  · obtain rfl := List.inj_on_of_nodup_map hdistinct.deliveries hother hmem (hsame.trans hid)
    simpa [hsame] using hmove
  · simpa [hsame] using DeliveryMove.kept

theorem deliveryMoves_of_substitute (hdistinct : store.Distinct)
    (selected : List OutboundWebhookDelivery) {news : List OutboundWebhookDelivery}
    (hselected : ∀ delivery ∈ selected, delivery ∈ store.deliveries)
    (hmoves : List.Forall₂ (fun delivery next => next.id = delivery.id ∧
      DeliveryMove store call delivery next) selected news) :
    List.Forall₂ (DeliveryMove store call) store.deliveries
      ((Table.ofList OutboundWebhookDelivery.id news).substitute store.deliveries) := by
  rw [Table.substitute, List.forall₂_map_right_iff, List.forall₂_same]
  intro delivery hmem
  cases hget : (Table.ofList OutboundWebhookDelivery.id news).get? delivery.id with
  | none => exact .kept
  | some next =>
      obtain ⟨hnext, hid⟩ := Table.get?_eq_some_iff.mp hget
      obtain ⟨i, hi, rfl⟩ := List.mem_iff_getElem.mp (Table.mem_of_mem_ofList hnext)
      have hlength := hmoves.length_eq
      obtain ⟨hsame, hmove⟩ := (List.forall₂_iff_get.mp hmoves).2 i (by omega) hi
      have hold : selected.get ⟨i, by omega⟩ = delivery :=
        List.inj_on_of_nodup_map hdistinct.deliveries (hselected _ (List.get_mem _ _)) hmem
          (hsame.symm.trans hid)
      rwa [hold] at hmove

theorem retry_effect (hstored : store.Stored) (hdistinct : store.Distinct) (id : Text) (now : ℤ) :
    OutboxEffect store (.retry id now) (retryOutboundWebhookDelivery id now store).1 := by
  refine outboxEffect_of_exec hstored fun store' result h => ?_
  split at h
  · simp at h
  · next previous hfound =>
      obtain ⟨hmem, hid⟩ := hdistinct.find?_delivery.mp hfound
      split at h
      · obtain ⟨rfl, -⟩ := Prod.mk.inj (Except.ok.inj h)
        exact .unchanged
      · split at h
        · simp at h
        · next hstatus =>
            split at h
            · simp at h
            · next henabled =>
                obtain ⟨delivery, hdelivery, h⟩ := except_bind_eq_ok.mp h
                obtain ⟨rfl, -⟩ := Prod.mk.inj (Except.ok.inj h)
                have hsame := requeued_eq_ok (hstored.event hmem) hdelivery
                refine .moved (deliveryMoves_of_replaceFirstBy hdistinct hmem (by rw [hsame])
                  (.requeued ?_ ?_ hdelivery)) .kept
                · by_contra hneither
                  exact hstatus (not_or.mp hneither)
                · simpa [endpointEnabled, and_comm] using henabled

theorem replay_effect (hstored : store.Stored) (hdistinct : store.Distinct)
    (options : ReplayOptions) :
    OutboxEffect store (.replay options) (replayOutboundWebhookDeadLetters options store).1 := by
  unfold replayOutboundWebhookDeadLetters
  split
  · exact .unchanged
  · next limit _ =>
      refine outboxEffect_of_exec hstored fun store' result h => ?_
      dsimp only at h
      split at h
      · obtain ⟨rfl, -⟩ := Prod.mk.inj (Except.ok.inj h)
        exact .unchanged
      · obtain ⟨news, hnews, h⟩ := except_bind_eq_ok.mp h
        obtain ⟨rfl, -⟩ := Prod.mk.inj (Except.ok.inj h)
        have hselected : ∀ delivery ∈ selectDeadLetters options limit store.deliveries,
            delivery ∈ store.deliveries ∧ delivery.status = .exhausted := by
          intro delivery hmem
          unfold selectDeadLetters at hmem
          split at hmem
          · have hfiltered := List.mem_filter.mp
              ((List.mem_insertionSort _).mp (List.mem_of_mem_take hmem))
            exact ⟨hfiltered.1, by simpa [isDeadLetter] using (Bool.and_eq_true_iff.mp hfiltered.2).1⟩
          · obtain ⟨hin, hdead⟩ := List.mem_filter.mp hmem
            simp only [isDeadLetter, Bool.and_eq_true, decide_eq_true_eq] at hdead
            exact ⟨hin, hdead.2.1⟩
        refine .moved (deliveryMoves_of_substitute hdistinct
          ((selectDeadLetters options limit store.deliveries).filter
            (endpointEnabled store.endpoints))
          (fun delivery hmem => (hselected delivery (List.mem_filter.mp hmem).1).1) ?_) .kept
        have hforall := (List.forall₂_and_left _ _).mpr
          ⟨fun delivery hmem => hmem, mapM_eq_ok_iff.mp hnews⟩
        refine hforall.imp fun delivery next ⟨hmem, hnext⟩ => ?_
        obtain ⟨hin, henabled⟩ := List.mem_filter.mp hmem
        obtain ⟨hstore, hexhausted⟩ := hselected delivery hin
        exact ⟨by rw [requeued_eq_ok (hstored.event hstore) hnext],
          .requeued (.inr hexhausted) henabled hnext⟩

theorem reconcile_effect (hstored : store.Stored) (hdistinct : store.Distinct)
    (options : ReconcileOptions) :
    OutboxEffect store (.reconcile options) (reconcileOutboundWebhookDeliveries options store).1 := by
  unfold reconcileOutboundWebhookDeliveries
  split
  · exact .unchanged
  · next limit _ =>
      refine outboxEffect_of_exec hstored fun store' result h => ?_
      obtain ⟨news, hnews, h⟩ := except_bind_eq_ok.mp h
      split at h
      · obtain ⟨rfl, -⟩ := Prod.mk.inj (Except.ok.inj h)
        exact .unchanged
      · obtain ⟨rfl, -⟩ := Prod.mk.inj (Except.ok.inj h)
        have hforall := (List.forall₂_and_left _ _).mpr
          ⟨fun delivery hmem => hmem, mapM_eq_ok_iff.mp hnews⟩
        have hselected : ∀ delivery ∈ ((store.deliveries.filter
            (·.status = .delivering)).insertionSort fun left right =>
              (leaseSortKey left).LocaleLE (leaseSortKey right)).take limit,
            delivery ∈ store.deliveries ∧ delivery.status = .delivering := by
          intro delivery hmem
          have hfiltered := List.mem_filter.mp
            ((List.mem_insertionSort _).mp (List.mem_of_mem_take hmem))
          exact ⟨hfiltered.1, by simpa using hfiltered.2⟩
        refine .moved (deliveryMoves_of_substitute hdistinct _
          (fun delivery hmem => (hselected delivery (List.mem_filter.mp hmem).1).1)
          (hforall.imp fun delivery next ⟨hmem, hnext⟩ => ?_)) .kept
        obtain ⟨hin, hexpired⟩ := List.mem_filter.mp hmem
        obtain ⟨hstore, hdelivering⟩ := hselected delivery hin
        exact ⟨by rw [recoverDelivery_eq_ok (hstored.event hstore) hnext],
          .recovered rfl hdelivering hexpired hnext⟩

/-- What a claim that returns has done: every claimable delivery up to the limit was
leased under a token of its own. -/
theorem claim_eq_ok {options : ClaimOptions} {store' : OutboundWebhookStore}
    {claimed : List ClaimedOutboundWebhookDelivery} (hstored : store.Stored)
    (h : claimOutboundWebhookDeliveries options store = (store', .ok claimed)) :
    ∃ leased, List.Forall₂ (fun delivery next => ∃ i,
        leaseDelivery options delivery (options.newLeaseToken i) = .ok next)
          (claimableDeliveries options store) leased ∧
      store' = { store with
        deliveries := (Table.ofList OutboundWebhookDelivery.id leased).substitute store.deliveries } ∧
      claimed = (Table.ofList OutboundWebhookDelivery.id leased).entries.map fun delivery =>
        { delivery, endpoint := endpointById store.endpoints delivery.endpointId } := by
  obtain ⟨hupdate, -⟩ := exec_ok hstored h
  obtain ⟨leased, hleased, hupdate⟩ := except_bind_eq_ok.mp hupdate
  obtain ⟨rfl, rfl⟩ := Prod.mk.inj (Except.ok.inj hupdate)
  refine ⟨leased, ?_, rfl, rfl⟩
  have hforall := mapM_eq_ok_iff.mp hleased
  rw [← List.zipIdx_map_fst 0 (claimableDeliveries options store), List.forall₂_map_left_iff]
  exact hforall.imp fun entry next hnext => ⟨entry.2, hnext⟩

theorem claim_effect (hstored : store.Stored) (hdistinct : store.Distinct) (options : ClaimOptions) :
    OutboxEffect store (.claim options) (claimOutboundWebhookDeliveries options store).1 := by
  rcases hclaim : claimOutboundWebhookDeliveries options store with ⟨store', error | claimed⟩
  · rw [exec_error hclaim]
    exact .unchanged
  · obtain ⟨leased, hleased, rfl, -⟩ := claim_eq_ok hstored hclaim
    have hforall := (List.forall₂_and_left _ _).mpr ⟨fun delivery hmem => hmem, hleased⟩
    refine .moved (deliveryMoves_of_substitute hdistinct _
      (fun delivery hmem => (mem_claimableDeliveries hmem).1)
      (hforall.imp fun delivery next ⟨hmem, i, hnext⟩ => ?_)) .kept
    have hin := (mem_claimableDeliveries hmem).1
    exact ⟨by rw [leaseDelivery_eq_ok (hstored.event hin) hnext], .leased rfl hmem hnext⟩

theorem runtimeAfterAttempt_endpointId {previous next : OutboundWebhookEndpointRuntime}
    {endpoint : OutboundWebhookEndpoint} {success : Bool} {now : ℤ}
    (h : runtimeAfterAttempt previous endpoint success now = .ok next) :
    next.endpointId = previous.endpointId := by
  obtain ⟨at_, -, h⟩ := except_bind_eq_ok.mp h
  obtain ⟨circuitOpenUntil, -, h⟩ := except_bind_eq_ok.mp h
  rw [endpointRuntimeSchema_eq_ok h]

theorem complete_eq_ok {claimed delivery : OutboundWebhookDelivery} {store' : OutboundWebhookStore}
    {result : CompleteOutboundWebhookDeliveryResult} {endpoint : Option OutboundWebhookEndpoint}
    {options : CompleteOptions} (hstored : store.Stored)
    (h : completeOutboundWebhookDelivery claimed result endpoint options store =
      (store', .ok delivery)) :
    ∃ latest endpointRuntime,
      store.deliveries.find? (fun candidate => candidate.id = claimed.id) = some latest ∧
      latest.status = .delivering ∧ latest.leaseToken = claimed.leaseToken ∧
      completedDelivery latest result endpoint options = .ok delivery ∧
      updateEndpointRuntimeAfterAttempt store.endpointRuntime endpoint result.success options.now =
        .ok endpointRuntime ∧
      store' = { store with
        deliveries := replaceFirstBy OutboundWebhookDelivery.id store.deliveries delivery
        endpointRuntime } := by
  obtain ⟨hupdate, -⟩ := exec_ok hstored h
  split at hupdate
  · simp at hupdate
  · next latest hfound =>
      split at hupdate
      · simp at hupdate
      · next howned =>
          push Not at howned
          obtain ⟨next, hnext, hupdate⟩ := except_bind_eq_ok.mp hupdate
          obtain ⟨endpointRuntime, hruntime, hupdate⟩ := except_bind_eq_ok.mp hupdate
          obtain ⟨rfl, rfl⟩ := Prod.mk.inj (Except.ok.inj hupdate)
          exact ⟨latest, endpointRuntime, hfound, howned.1, howned.2, hnext, hruntime, rfl⟩

theorem complete_effect (hstored : store.Stored) (hdistinct : store.Distinct)
    (claimed : OutboundWebhookDelivery) (result : CompleteOutboundWebhookDeliveryResult)
    (endpoint : Option OutboundWebhookEndpoint) (options : CompleteOptions) :
    OutboxEffect store (.complete claimed result endpoint options)
      (completeOutboundWebhookDelivery claimed result endpoint options store).1 := by
  rcases hcomplete : completeOutboundWebhookDelivery claimed result endpoint options store with
    ⟨store', error | delivery⟩
  · rw [exec_error hcomplete]
    exact .unchanged
  · obtain ⟨latest, endpointRuntime, hfound, hdelivering, htoken, hcompleted, hruntime, rfl⟩ :=
      complete_eq_ok hstored hcomplete
    obtain ⟨hmem, hid⟩ := hdistinct.find?_delivery.mp hfound
    refine .moved (deliveryMoves_of_replaceFirstBy hdistinct hmem ?_
      (.completed rfl hid hdelivering htoken hcompleted)) ?_
    · obtain ⟨nextAttemptAt, rfl⟩ := completedDelivery_eq_ok (hstored.event hmem) hcompleted
      rfl
    · unfold updateEndpointRuntimeAfterAttempt at hruntime
      split at hruntime
      · obtain rfl := Except.ok.inj hruntime
        exact .kept
      · next endpoint =>
          split at hruntime
          · obtain rfl := Except.ok.inj hruntime
            exact .kept
          · split at hruntime
            · next previous hprevious =>
                obtain ⟨next, hnext, hruntime⟩ := except_bind_eq_ok.mp hruntime
                obtain rfl := Except.ok.inj hruntime
                rw [replaceFirstBy_eq_replaceBy hdistinct.runtimes]
                exact .replaced ⟨previous, List.mem_of_find?_eq_some hprevious,
                  (runtimeAfterAttempt_endpointId hnext).symm⟩
            · next habsent =>
                obtain ⟨previous, hprevious, hruntime⟩ := except_bind_eq_ok.mp hruntime
                obtain ⟨next, hnext, hruntime⟩ := except_bind_eq_ok.mp hruntime
                obtain rfl := Except.ok.inj hruntime
                refine .added rfl hmem hid hdelivering ?_ (find?_key_eq_none_iff.mp habsent)
                rw [runtimeAfterAttempt_endpointId hnext, endpointRuntimeSchema_eq_ok hprevious]
                rfl

theorem delete_effect (hstored : store.Stored) (id : Text) (now : ℤ) :
    OutboxEffect store (.deleteEndpoint id now) (deleteOutboundWebhookEndpoint id now store).1 := by
  refine outboxEffect_of_exec hstored fun store' result h => ?_
  split at h
  · simp at h
  · obtain ⟨at_, -, h⟩ := except_bind_eq_ok.mp h
    obtain ⟨rfl, -⟩ := Prod.mk.inj (Except.ok.inj h)
    refine .endpointDeleted rfl ?_ ?_
    · rw [List.forall₂_map_right_iff, List.forall₂_same]
      intro delivery _
      split
      · next hcancelled => exact .endpointDeleted now rfl hcancelled.1 hcancelled.2
      · exact .kept
    · intro delivery hmem hendpoint
      obtain ⟨before, -, rfl⟩ := List.mem_map.mp hmem
      by_cases hcancelled : before.endpointId = id ∧ before.status.isTerminal = false
      · rw [if_pos hcancelled]
        rfl
      · rw [if_neg hcancelled] at hendpoint ⊢
        simpa [hendpoint] using hcancelled

theorem reset_effect (hstored : store.Stored) (endpointId : Text) :
    OutboxEffect store (.resetCircuit endpointId)
      (resetOutboundWebhookEndpointCircuit endpointId store).1 := by
  refine outboxEffect_of_exec hstored fun store' result h => ?_
  split at h
  · simp at h
  · split at h
    · obtain ⟨runtime, -, h⟩ := except_bind_eq_ok.mp h
      obtain ⟨rfl, -⟩ := Prod.mk.inj (Except.ok.inj h)
      exact .unchanged
    · next existing hfound =>
        have hid : existing.endpointId = endpointId := by simpa using List.find?_some hfound
        split at h
        · obtain ⟨rfl, -⟩ := Prod.mk.inj (Except.ok.inj h)
          exact .unchanged
        · obtain ⟨runtime, hruntime, h⟩ := except_bind_eq_ok.mp h
          obtain ⟨rfl, -⟩ := Prod.mk.inj (Except.ok.inj h)
          have howner : existing.endpointId = runtime.endpointId := by
            rw [endpointRuntimeSchema_eq_ok hruntime]
          have hsame : endpointId = runtime.endpointId := hid.symm.trans howner
          rw [hsame]
          exact .moved (deliveryMoves_refl store _)
            (.moved ⟨existing, List.mem_of_find?_eq_some hfound, howner⟩)

theorem prune_effect (hstored : store.Stored) (options : PruneOptions) :
    OutboxEffect store (.prune options) (pruneOutboundWebhookDeliveries options store).1 := by
  unfold pruneOutboundWebhookDeliveries
  split
  · exact .unchanged
  · next limit _ =>
      refine outboxEffect_of_exec hstored fun store' result h => ?_
      obtain ⟨before, -, h⟩ := except_bind_eq_ok.mp h
      split at h
      · obtain ⟨rfl, -⟩ := Prod.mk.inj (Except.ok.inj h)
        exact .unchanged
      · obtain ⟨rfl, -⟩ := Prod.mk.inj (Except.ok.inj h)
        refine .pruned rfl fun id hid => ?_
        obtain ⟨delivery, hmem, rfl⟩ := List.mem_map.mp hid
        have hselected : delivery ∈ store.deliveries ∧
            matchesCutoff options.before delivery = true := by
          unfold selectPrunable at hmem
          split at hmem
          · obtain ⟨hin, hmatches⟩ := List.mem_filter.mp hmem
            exact ⟨hin, (Bool.and_eq_true_iff.mp hmatches).2⟩
          · exact List.mem_filter.mp ((List.mem_insertionSort _).mp (List.mem_of_mem_take hmem))
        exact ⟨delivery, hselected.1, rfl, (Bool.and_eq_true_iff.mp hselected.2).1⟩

theorem pruneDeliveries_eq_ok {deliveries kept : List OutboundWebhookDelivery} {limit : ℕ}
    (h : pruneDeliveries deliveries limit = .ok kept) :
    ∃ remove : List Text, kept = deliveries.filter (fun delivery => delivery.id ∉ remove) ∧
      ∀ id ∈ remove, ∃ delivery ∈ deliveries, delivery.id = id ∧
        delivery.status.isTerminal = true := by
  unfold pruneDeliveries at h
  split at h
  · obtain rfl := Except.ok.inj h
    exact ⟨[], by simp, by simp⟩
  · dsimp only at h
    split at h
    · simp at h
    · obtain rfl := Except.ok.inj h
      refine ⟨_, rfl, fun id hid => ?_⟩
      obtain ⟨delivery, hmem, rfl⟩ := List.mem_map.mp hid
      obtain ⟨hin, hterminal⟩ :=
        List.mem_filter.mp ((List.mem_insertionSort _).mp (List.mem_of_mem_take hmem))
      exact ⟨delivery, hin, rfl, hterminal⟩

/-- A new delivery of an event, as it is queued. -/
def pendingDelivery (event : OutboundWebhookEvent) (endpoint : OutboundWebhookEndpoint) (id : Text)
    (now : ℤ) : OutboundWebhookDelivery :=
  { id
    eventId := event.id
    endpointId := endpoint.id
    event
    status := .pending
    attemptCount := 0
    manualRetryCount := 0
    nextAttemptAt := { time := now } }

theorem queuedDelivery_eq_ok {event : OutboundWebhookEvent} {endpoint : OutboundWebhookEndpoint}
    {id : Text} {now : ℤ} {delivery : OutboundWebhookDelivery}
    (hevent : eventSchema event = .ok event) (h : queuedDelivery event endpoint id now = .ok delivery) :
    delivery = pendingDelivery event endpoint id now := by
  obtain ⟨nextAttemptAt, hnext, h⟩ := except_bind_eq_ok.mp h
  obtain rfl := nowIso_eq_ok hnext
  exact deliverySchema_of_event hevent h

/-- The endpoints that get a new delivery of an event. -/
def freshEndpoints (event : OutboundWebhookEvent) (options : EnqueueOptions)
    (store : OutboundWebhookStore) : List OutboundWebhookEndpoint :=
  (store.endpoints.filter (selectsEndpoint options event)).filter fun endpoint =>
    deliveryKey event.id endpoint.id ∉ store.deliveries.map fun delivery =>
      deliveryKey delivery.eventId delivery.endpointId

def newDeliveries (event : OutboundWebhookEvent) (options : EnqueueOptions)
    (newDeliveryId : ℕ → Text) (store : OutboundWebhookStore) : List OutboundWebhookDelivery :=
  (freshEndpoints event options store).zipIdx.map fun (endpoint, i) =>
    pendingDelivery event endpoint (newDeliveryId i) options.now

theorem mem_newDeliveries {event : OutboundWebhookEvent} {options : EnqueueOptions}
    {newDeliveryId : ℕ → Text} {delivery : OutboundWebhookDelivery}
    (h : delivery ∈ newDeliveries event options newDeliveryId store) :
    ∃ endpoint ∈ freshEndpoints event options store, ∃ i,
      delivery = pendingDelivery event endpoint (newDeliveryId i) options.now := by
  obtain ⟨⟨endpoint, i⟩, hmem, rfl⟩ := List.mem_map.mp h
  exact ⟨endpoint, List.fst_mem_of_mem_zipIdx hmem, i, rfl⟩

theorem absent_of_mem_newDeliveries {event : OutboundWebhookEvent} {options : EnqueueOptions}
    {newDeliveryId : ℕ → Text} {delivery other : OutboundWebhookDelivery}
    (h : delivery ∈ newDeliveries event options newDeliveryId store) (hother : other ∈ store.deliveries) :
    ¬ (other.eventId = delivery.eventId ∧ other.endpointId = delivery.endpointId) := by
  obtain ⟨endpoint, hendpoint, i, rfl⟩ := mem_newDeliveries h
  have habsent := (List.mem_filter.mp hendpoint).2
  simp only [decide_eq_true_eq] at habsent
  rintro ⟨heventId, hendpointId⟩
  refine habsent (List.mem_map.mpr ⟨other, hother, ?_⟩)
  rw [heventId, hendpointId]
  rfl

theorem map_endpointId_newDeliveries (event : OutboundWebhookEvent) (options : EnqueueOptions)
    (newDeliveryId : ℕ → Text) (store : OutboundWebhookStore) :
    (newDeliveries event options newDeliveryId store).map OutboundWebhookDelivery.endpointId =
      (freshEndpoints event options store).map OutboundWebhookEndpoint.id := by
  conv_rhs => rw [← List.zipIdx_map_fst 0 (freshEndpoints event options store)]
  rw [newDeliveries, List.map_map, List.map_map]
  rfl

theorem map_id_newDeliveries (event : OutboundWebhookEvent) (options : EnqueueOptions)
    (newDeliveryId : ℕ → Text) (store : OutboundWebhookStore) :
    (newDeliveries event options newDeliveryId store).map OutboundWebhookDelivery.id =
      (List.range (freshEndpoints event options store).length).map newDeliveryId := by
  have hmap : (newDeliveries event options newDeliveryId store).map OutboundWebhookDelivery.id =
      ((freshEndpoints event options store).zipIdx.map Prod.snd).map newDeliveryId := by
    rw [newDeliveries, List.map_map, List.map_map]
    rfl
  rw [hmap, List.zipIdx_map_snd, List.range_eq_range']

theorem nodup_endpointId_newDeliveries {event : OutboundWebhookEvent} {options : EnqueueOptions}
    {newDeliveryId : ℕ → Text} (h : (store.endpoints.map OutboundWebhookEndpoint.id).Nodup) :
    ((newDeliveries event options newDeliveryId store).map
      OutboundWebhookDelivery.endpointId).Nodup := by
  rw [map_endpointId_newDeliveries]
  exact nodup_map_key_filter _ (nodup_map_key_filter _ h)

theorem enqueueUpdate_eq_ok {event : OutboundWebhookEvent} {options : EnqueueOptions} {limit : ℕ}
    {newDeliveryId : ℕ → Text} {store' : OutboundWebhookStore}
    {result : EnqueueOutboundWebhookResult} (hevent : eventSchema event = .ok event)
    (h : enqueueUpdate event options limit newDeliveryId store = .ok (store', result)) :
    ∃ deliveries, pruneDeliveries
        (store.deliveries ++ newDeliveries event options newDeliveryId store) limit =
          .ok deliveries ∧
      store' = { store with deliveries } ∧
      result.deliveryIds = (newDeliveries event options newDeliveryId store).map (·.id) ∧
      ∀ delivery ∈ newDeliveries event options newDeliveryId store,
        deliverySchema delivery = .ok delivery := by
  obtain ⟨queued, hqueued, h⟩ := except_bind_eq_ok.mp h
  obtain ⟨deliveries, hpruned, h⟩ := except_bind_eq_ok.mp h
  obtain ⟨rfl, rfl⟩ := Prod.mk.inj (Except.ok.inj h)
  have hsame : newDeliveries event options newDeliveryId store = queued := by
    rw [newDeliveries, ← List.forall₂_eq_eq_eq, List.forall₂_map_left_iff]
    exact (mapM_eq_ok_iff.mp hqueued).imp fun entry delivery hdelivery =>
      (queuedDelivery_eq_ok hevent hdelivery).symm
  rw [hsame]
  refine ⟨deliveries, hpruned, rfl, rfl, fun delivery hmem => ?_⟩
  obtain ⟨i, hi, rfl⟩ := List.mem_iff_getElem.mp hmem
  have hforall := mapM_eq_ok_iff.mp hqueued
  have hlength := hforall.length_eq
  obtain ⟨nextAttemptAt, -, hschema⟩ :=
    except_bind_eq_ok.mp ((List.forall₂_iff_get.mp hforall).2 i (by omega) hi)
  exact deliverySchema_stable hschema

theorem enqueue_effect (hstored : store.Stored) (input : CreateOutboundWebhookEventInput)
    (options : EnqueueOptions) (newEventId : Text) (clock : ℤ) (newDeliveryId : ℕ → Text) :
    OutboxEffect store (.enqueue input options newEventId clock newDeliveryId)
      (enqueueOutboundWebhookEvent input options newEventId clock newDeliveryId store).1 := by
  unfold enqueueOutboundWebhookEvent
  split
  · exact .unchanged
  · next event hcreated =>
      split
      · exact .unchanged
      · next limit _ =>
          obtain ⟨occurredAt, -, hcreated⟩ := except_bind_eq_ok.mp hcreated
          have hevent := (eventSchema_eq_ok hcreated).2.2.2.2.2
          refine outboxEffect_of_exec hstored fun store' result h => ?_
          obtain ⟨deliveries, hpruned, rfl, -, hparsed⟩ := enqueueUpdate_eq_ok hevent h
          obtain ⟨remove, rfl, hterminal⟩ := pruneDeliveries_eq_ok hpruned
          refine .queued rfl hevent hparsed (fun delivery hmem => ?_) (fun hendpoints => ?_)
            (fun hinjective => ?_) hterminal
          · obtain ⟨endpoint, hendpoint, i, rfl⟩ := mem_newDeliveries hmem
            have hselected := (List.mem_filter.mp hendpoint).1
            exact ⟨rfl, rfl, rfl, rfl, rfl, rfl, rfl,
              ⟨endpoint, (List.mem_filter.mp hselected).1, rfl⟩,
              fun other => absent_of_mem_newDeliveries hmem, i, rfl⟩
          · exact nodup_endpointId_newDeliveries hendpoints
          · show ((newDeliveries event options newDeliveryId store).map
              OutboundWebhookDelivery.id).Nodup
            rw [map_id_newDeliveries]
            exact List.nodup_range.map hinjective

section Endpoints

variable [CaseMapping] [EndpointUrlPolicy]

theorem create_effect (hstored : store.Stored) (input : CreateOutboundWebhookEndpointInput)
    (newId : Text) (now : ℤ) :
    OutboxEffect store (.createEndpoint input newId now)
      (createOutboundWebhookEndpoint input newId now store).1 := by
  unfold createOutboundWebhookEndpoint
  split
  · exact .unchanged
  · next endpoint hnew =>
      refine outboxEffect_of_exec hstored fun store' result h => ?_
      split at h
      · simp at h
      · obtain ⟨rfl, -⟩ := Prod.mk.inj (Except.ok.inj h)
        obtain ⟨at_, -, hnew⟩ := except_bind_eq_ok.mp hnew
        obtain ⟨url, -, hnew⟩ := except_bind_eq_ok.mp hnew
        obtain ⟨eventFilters, -, hnew⟩ := except_bind_eq_ok.mp hnew
        obtain ⟨hid, -, -, -, -, -, hschema⟩ := endpointSchema_eq_ok hnew
        exact .endpointAdded rfl hid hschema

theorem update_effect (hstored : store.Stored) (hdistinct : store.Distinct) (id : Text)
    (input : UpdateOutboundWebhookEndpointInput) (now : ℤ) :
    OutboxEffect store (.updateEndpoint id input now)
      (updateOutboundWebhookEndpoint id input now store).1 := by
  refine outboxEffect_of_exec hstored fun store' result h => ?_
  split at h
  · simp at h
  · next previous hfound =>
      obtain ⟨hmem, hid⟩ := hdistinct.find?_endpoint.mp hfound
      obtain ⟨endpoint, hmerged, h⟩ := except_bind_eq_ok.mp h
      split at h
      · simp at h
      · obtain ⟨rfl, -⟩ := Prod.mk.inj (Except.ok.inj h)
        obtain ⟨url, -, hmerged⟩ := except_bind_eq_ok.mp hmerged
        obtain ⟨eventFilters, -, hmerged⟩ := except_bind_eq_ok.mp hmerged
        obtain ⟨updatedAt, -, hmerged⟩ := except_bind_eq_ok.mp hmerged
        obtain ⟨hsame, -, -, hattempts, -, -, hschema⟩ := endpointSchema_eq_ok hmerged
        rw [replaceFirstBy_eq_replaceBy hdistinct.endpoints]
        exact .endpointReplaced rfl hmem hid (hsame.trans hid) hattempts hschema

theorem outboxEffect_of_perform (hstored : store.Stored) (hdistinct : store.Distinct)
    (call : OutboxCall) : OutboxEffect store call (call.perform store) := by
  cases call with
  | createEndpoint input newId now => exact create_effect hstored input newId now
  | updateEndpoint id input now => exact update_effect hstored hdistinct id input now
  | deleteEndpoint id now => exact delete_effect hstored id now
  | enqueue input options newEventId clock newDeliveryId =>
      exact enqueue_effect hstored input options newEventId clock newDeliveryId
  | claim options => exact claim_effect hstored hdistinct options
  | complete claimed result endpoint options =>
      exact complete_effect hstored hdistinct claimed result endpoint options
  | retry id now => exact retry_effect hstored hdistinct id now
  | replay options => exact replay_effect hstored hdistinct options
  | reconcile options => exact reconcile_effect hstored hdistinct options
  | prune options => exact prune_effect hstored options
  | resetCircuit endpointId => exact reset_effect hstored endpointId

end Endpoints

end Effects

end ListmonkOps.Webhook
