/-
The invariant of the outbox.

One event has at most one delivery for each endpoint; a delivery that is still
to be made belongs to an endpoint that exists; a lease is there exactly while a
delivery is being made, and an end exactly when it has ended; circuits belong
to endpoints. Each kind of change to the document keeps all of that, as long as
a completion names the endpoint of its own delivery.
-/

import ListmonkOps.Webhook.Transitions

namespace ListmonkOps.Webhook

open ListmonkOps.Math ListmonkOps.Runtime

/-- The fields of a delivery agree with its status: it has a lease exactly while it is delivered,
and an end exactly when it has ended. -/
structure WellFormed (delivery : OutboundWebhookDelivery) : Prop where
  token : delivery.leaseToken.isSome ↔ delivery.status = .delivering
  expiry : delivery.leaseExpiresAt.isSome ↔ delivery.status = .delivering
  completed : delivery.completedAt.isSome ↔ delivery.status.isTerminal = true

/-- Does the endpoint of a delivery exist? -/
def Owned (endpoints : List OutboundWebhookEndpoint) (endpointId : Text) : Prop :=
  ∃ endpoint ∈ endpoints, endpoint.id = endpointId

/-- The pair that identifies a delivery. -/
def OutboundWebhookDelivery.pair (delivery : OutboundWebhookDelivery) : Text × Text :=
  (delivery.eventId, delivery.endpointId)

/-- The invariant of the document: one delivery for an event and an endpoint, an endpoint for
whatever is still to be delivered, and circuits of endpoints only. -/
structure OutboxInvariant (store : OutboundWebhookStore) : Prop where
  stored : store.Stored
  distinct : store.Distinct
  pairs : (store.deliveries.map OutboundWebhookDelivery.pair).Nodup
  owned : ∀ delivery ∈ store.deliveries, delivery.status.isTerminal = false →
    Owned store.endpoints delivery.endpointId
  wellFormed : ∀ delivery ∈ store.deliveries, WellFormed delivery
  runtimes : ∀ runtime ∈ store.endpointRuntime, Owned store.endpoints runtime.endpointId

theorem outboxInvariant_empty : OutboxInvariant {} where
  stored := ⟨by simp, by simp, by simp⟩
  distinct := ⟨by simp, by simp, by simp⟩
  pairs := by simp
  owned := by simp
  wellFormed := by simp
  runtimes := by simp

/-! ## One delivery moves -/

section Deliveries

variable {store : OutboundWebhookStore} {call : OutboxCall}
  {delivery next : OutboundWebhookDelivery}

theorem statusAfterAttempt_ne_delivering (attemptCount : ℕ)
    (result : CompleteOutboundWebhookDeliveryResult) (endpoint : Option OutboundWebhookEndpoint) :
    statusAfterAttempt attemptCount result endpoint ≠ .delivering := by
  unfold statusAfterAttempt
  split
  · simp
  · split <;> simp

theorem isTerminal_of_isClaimable {options : ClaimOptions}
    {runtimes : List OutboundWebhookEndpointRuntime}
    (h : isClaimable options runtimes delivery = true) : delivery.status.isTerminal = false := by
  have hdue : isDue options.now delivery = true := (Bool.and_eq_true_iff.mp h).2
  unfold isDue at hdue
  cases hstatus : delivery.status with
  | pending | delivering | retry => rfl
  | succeeded | exhausted => simp [hstatus] at hdue

/-- A move leaves the fields of a delivery in agreement with its status. -/
theorem DeliveryMove.wellFormed (h : DeliveryMove store call delivery next)
    (hevent : eventSchema delivery.event = .ok delivery.event) (hdelivery : WellFormed delivery) :
    WellFormed next := by
  cases h with
  | kept => exact hdelivery
  | requeued _ _ result =>
      rw [requeued_eq_ok hevent result]
      exact ⟨by simp, by simp, by simp [OutboundWebhookDeliveryStatus.isTerminal]⟩
  | @leased _ options _ called selected result =>
      rw [leaseDelivery_eq_ok hevent result]
      refine ⟨by simp, by simp, ?_⟩
      show delivery.completedAt.isSome ↔ _
      rw [hdelivery.completed, isTerminal_of_isClaimable (mem_claimableDeliveries selected).2]
      simp [OutboundWebhookDeliveryStatus.isTerminal]
  | recovered _ _ _ result =>
      rw [recoverDelivery_eq_ok hevent result]
      refine ⟨?_, ?_, ?_⟩ <;>
        split <;> simp [OutboundWebhookDeliveryStatus.isTerminal]
  | @completed claimed _ result endpoint options _ _ _ _ completed =>
      obtain ⟨nextAttemptAt, rfl⟩ := completedDelivery_eq_ok hevent completed
      have hnot := statusAfterAttempt_ne_delivering delivery.attemptCount result endpoint
      refine ⟨by simp [hnot], by simp [hnot], ?_⟩
      dsimp only
      split <;> simp_all
  | endpointDeleted =>
      exact ⟨by simp [OutboundWebhookDelivery.endpointDeleted],
        by simp [OutboundWebhookDelivery.endpointDeleted],
        by simp [OutboundWebhookDelivery.endpointDeleted, OutboundWebhookDeliveryStatus.isTerminal]⟩

/-- A delivery that is to be made after a move was to be made before it, or has been
queued again for an endpoint that is enabled. -/
theorem DeliveryMove.active (h : DeliveryMove store call delivery next)
    (hactive : next.status.isTerminal = false) :
    delivery.status.isTerminal = false ∨ endpointEnabled store.endpoints delivery = true := by
  cases h with
  | kept => exact .inl hactive
  | requeued _ enabled _ => exact .inr enabled
  | leased _ selected _ =>
      exact .inl (isTerminal_of_isClaimable (mem_claimableDeliveries selected).2)
  | recovered _ status _ _ | completed _ _ status _ _ =>
      exact .inl (by simp [status, OutboundWebhookDeliveryStatus.isTerminal])
  | endpointDeleted _ _ _ status => exact .inl status

theorem owned_of_endpointEnabled (h : endpointEnabled store.endpoints delivery = true) :
    Owned store.endpoints delivery.endpointId := by
  obtain ⟨endpoint, hmem, henabled⟩ := List.any_eq_true.mp h
  exact ⟨endpoint, hmem, by simpa using (Bool.and_eq_true_iff.mp henabled).2⟩

end Deliveries

/-! ## The kinds of changes -/

section Changes

variable {store store' : OutboundWebhookStore} {call : OutboxCall}
  {deliveries : List OutboundWebhookDelivery}
  {endpointRuntime : List OutboundWebhookEndpointRuntime}

theorem map_eq_of_moves {β : Type} {R : OutboundWebhookDelivery → OutboundWebhookDelivery → Prop}
    {before after : List OutboundWebhookDelivery} (field : OutboundWebhookDelivery → β)
    (h : List.Forall₂ R before after)
    (hfield : ∀ delivery ∈ before, ∀ next, R delivery next → field next = field delivery) :
    after.map field = before.map field := by
  have hmem := (List.forall₂_and_left _ _).mpr ⟨fun delivery hmem => hmem, h⟩
  refine List.forall₂_eq_eq_eq ▸ ?_
  rw [List.forall₂_map_left_iff, List.forall₂_map_right_iff]
  exact hmem.flip.imp fun next delivery ⟨hin, hmove⟩ => hfield delivery hin next hmove

theorem owned_iff {endpoints : List OutboundWebhookEndpoint} {endpointId : Text} :
    Owned endpoints endpointId ↔ endpointId ∈ endpoints.map OutboundWebhookEndpoint.id :=
  List.mem_map.symm

theorem OutboxInvariant.setDeliveries (h : OutboxInvariant store)
    (hstored : OutboundWebhookStore.Stored { store with deliveries })
    (hids : (deliveries.map OutboundWebhookDelivery.id).Nodup)
    (hpairs : (deliveries.map OutboundWebhookDelivery.pair).Nodup)
    (hdeliveries : ∀ delivery ∈ deliveries, WellFormed delivery ∧
      (delivery.status.isTerminal = false → Owned store.endpoints delivery.endpointId)) :
    OutboxInvariant { store with deliveries } where
  stored := hstored
  distinct := ⟨h.distinct.endpoints, hids, h.distinct.runtimes⟩
  pairs := hpairs
  owned delivery hmem := (hdeliveries delivery hmem).2
  wellFormed delivery hmem := (hdeliveries delivery hmem).1
  runtimes := h.runtimes

theorem OutboxInvariant.moveDeliveries (h : OutboxInvariant store)
    (hmoves : List.Forall₂ (DeliveryMove store call) store.deliveries deliveries)
    (hstored : OutboundWebhookStore.Stored { store with deliveries }) :
    OutboxInvariant { store with deliveries } := by
  have hsame : ∀ delivery ∈ store.deliveries, ∀ next, DeliveryMove store call delivery next →
      SameDelivery delivery next :=
    fun delivery hmem next hmove => hmove.sameDelivery (h.stored.event hmem)
  refine h.setDeliveries hstored ?_ ?_ fun next hmem => ?_
  · rw [map_eq_of_moves _ hmoves fun delivery hmem next hmove => (hsame delivery hmem next hmove).id]
    exact h.distinct.deliveries
  · rw [map_eq_of_moves _ hmoves fun delivery hmem next hmove => ?_]
    · exact h.pairs
    · have hkept := hsame delivery hmem next hmove
      rw [OutboundWebhookDelivery.pair, OutboundWebhookDelivery.pair, hkept.eventId,
        hkept.endpointId]
  · obtain ⟨delivery, hold, hmove⟩ := exists_left_of_forall₂ hmoves hmem
    refine ⟨hmove.wellFormed (h.stored.event hold) (h.wellFormed delivery hold), fun hactive => ?_⟩
    rw [(hsame delivery hold next hmove).endpointId]
    exact (hmove.active hactive).elim (h.owned delivery hold) owned_of_endpointEnabled

theorem OutboxInvariant.filterDeliveries (h : OutboxInvariant store)
    (keep : OutboundWebhookDelivery → Bool) :
    OutboxInvariant { store with deliveries := store.deliveries.filter keep } := by
  have hold : ∀ delivery ∈ store.deliveries.filter keep, delivery ∈ store.deliveries :=
    fun delivery hmem => (List.mem_filter.mp hmem).1
  refine h.setDeliveries ⟨h.stored.endpoints, ?_, h.stored.runtimes⟩
    (nodup_map_key_filter keep h.distinct.deliveries) (nodup_map_key_filter keep h.pairs) ?_
  · exact fun delivery hmem => h.stored.deliveries delivery (hold delivery hmem)
  · exact fun delivery hmem =>
      ⟨h.wellFormed delivery (hold delivery hmem), h.owned delivery (hold delivery hmem)⟩

theorem OutboxInvariant.setRuntimes (h : OutboxInvariant store)
    (hstored : OutboundWebhookStore.Stored { store with endpointRuntime })
    (hids : (endpointRuntime.map OutboundWebhookEndpointRuntime.endpointId).Nodup)
    (howned : ∀ runtime ∈ endpointRuntime, Owned store.endpoints runtime.endpointId) :
    OutboxInvariant { store with endpointRuntime } where
  stored := hstored
  distinct := ⟨h.distinct.endpoints, h.distinct.deliveries, hids⟩
  pairs := h.pairs
  owned := h.owned
  wellFormed := h.wellFormed
  runtimes := howned

theorem OutboxInvariant.setEndpoints {endpoints : List OutboundWebhookEndpoint}
    (h : OutboxInvariant store) (hschema : ∀ endpoint ∈ endpoints, endpointSchema endpoint = .ok endpoint)
    (hids : (endpoints.map OutboundWebhookEndpoint.id).Nodup)
    (hkept : store.endpoints.map OutboundWebhookEndpoint.id ⊆
      endpoints.map OutboundWebhookEndpoint.id) :
    OutboxInvariant { store with endpoints } where
  stored := ⟨hschema, h.stored.deliveries, h.stored.runtimes⟩
  distinct := ⟨hids, h.distinct.deliveries, h.distinct.runtimes⟩
  pairs := h.pairs
  owned delivery hmem hactive := owned_iff.mpr (hkept (owned_iff.mp (h.owned delivery hmem hactive)))
  wellFormed := h.wellFormed
  runtimes runtime hmem := owned_iff.mpr (hkept (owned_iff.mp (h.runtimes runtime hmem)))

/-- An endpoint that goes, with its circuit, when no delivery is to be made to it. -/
theorem OutboxInvariant.removeEndpoint {id : Text} (h : OutboxInvariant store)
    (hended : ∀ delivery ∈ store.deliveries, delivery.endpointId = id →
      delivery.status.isTerminal = true) :
    OutboxInvariant
      { endpoints := store.endpoints.filter (·.id ≠ id)
        endpointRuntime := store.endpointRuntime.filter (·.endpointId ≠ id)
        deliveries := store.deliveries } where
  stored := ⟨fun endpoint hmem => h.stored.endpoints endpoint (List.mem_filter.mp hmem).1,
    h.stored.deliveries, fun runtime hmem => h.stored.runtimes runtime (List.mem_filter.mp hmem).1⟩
  distinct := ⟨nodup_map_key_filter _ h.distinct.endpoints, h.distinct.deliveries,
    nodup_map_key_filter _ h.distinct.runtimes⟩
  pairs := h.pairs
  owned := by
    intro delivery hmem hactive
    obtain ⟨endpoint, hendpoint, hid⟩ := h.owned delivery hmem hactive
    refine ⟨endpoint, List.mem_filter.mpr ⟨hendpoint, ?_⟩, hid⟩
    have hother : delivery.endpointId ≠ id := fun hsame => by
      simp [hended delivery hmem hsame] at hactive
    simpa [hid] using hother
  wellFormed := h.wellFormed
  runtimes := by
    intro runtime hmem
    obtain ⟨hold, hother⟩ := List.mem_filter.mp hmem
    obtain ⟨endpoint, hendpoint, hid⟩ := h.runtimes runtime hold
    exact ⟨endpoint, List.mem_filter.mpr ⟨hendpoint, by simpa [hid] using hother⟩, hid⟩

end Changes

/-! ## Every call keeps the invariant -/

section Steps

variable {store store' : OutboundWebhookStore} {call : OutboxCall}

/-- A completion names the endpoint of its own delivery, if it names one. -/
def OutboxCall.Matched (store : OutboundWebhookStore) : OutboxCall → Prop
  | .complete claimed _ endpoint _ => ∀ named, endpoint = some named →
      ∀ delivery ∈ store.deliveries, delivery.id = claimed.id → named.id = delivery.endpointId
  | _ => True

/-- What is written passes the schema as it is when its events and endpoints do. -/
theorem stored_of_write {parsed : OutboundWebhookStore} (hparse : parseStore store = .ok parsed)
    (hendpoints : ∀ endpoint ∈ store.endpoints, endpointSchema endpoint = .ok endpoint)
    (hevents : ∀ delivery ∈ store.deliveries, eventSchema delivery.event = .ok delivery.event) :
    store.Stored := by
  obtain ⟨endpoints, -, hparse⟩ := except_bind_eq_ok.mp hparse
  obtain ⟨deliveries, hdeliveries, hparse⟩ := except_bind_eq_ok.mp hparse
  obtain ⟨runtimes, hruntimes, hparse⟩ := except_bind_eq_ok.mp hparse
  refine ⟨hendpoints, fun delivery hmem => ?_, fun runtime hmem => ?_⟩
  · obtain ⟨i, hi, rfl⟩ := List.mem_iff_getElem.mp hmem
    have hforall := mapM_eq_ok_iff.mp hdeliveries
    have hlength := hforall.length_eq
    have hschema : deliverySchema store.deliveries[i] = .ok _ :=
      (List.forall₂_iff_get.mp hforall).2 i hi (by omega)
    rwa [deliverySchema_of_event (hevents _ hmem) hschema] at hschema
  · obtain ⟨i, hi, rfl⟩ := List.mem_iff_getElem.mp hmem
    have hforall := mapM_eq_ok_iff.mp hruntimes
    have hlength := hforall.length_eq
    have hschema : endpointRuntimeSchema store.endpointRuntime[i] = .ok _ :=
      (List.forall₂_iff_get.mp hforall).2 i hi (by omega)
    rwa [endpointRuntimeSchema_eq_ok hschema] at hschema

theorem parse_exec {ρ : Type} {update : OutboundWebhookStore →
    Except WebhookError (OutboundWebhookStore × ρ)} (hstored : store.Stored) :
    ∃ parsed, parseStore (createOutboundWebhookStore.exec update store).1 = .ok parsed := by
  rcases hexec : createOutboundWebhookStore.exec update store with ⟨next, error | result⟩
  · rw [exec_error hexec]
    exact ⟨store, hstored.parse⟩
  · exact (exec_ok hstored hexec).2

section Parsing

variable [CaseMapping] [EndpointUrlPolicy]

theorem parse_perform (hstored : store.Stored) (call : OutboxCall) :
    ∃ parsed, parseStore (call.perform store) = .ok parsed := by
  have hsame : ∃ parsed, parseStore store = .ok parsed := ⟨store, hstored.parse⟩
  cases call with
  | createEndpoint input newId now =>
      show ∃ parsed, parseStore (createOutboundWebhookEndpoint input newId now store).1 = _
      unfold createOutboundWebhookEndpoint
      split
      · exact hsame
      · exact parse_exec hstored
  | enqueue input options newEventId clock newDeliveryId =>
      show ∃ parsed, parseStore
        (enqueueOutboundWebhookEvent input options newEventId clock newDeliveryId store).1 = _
      unfold enqueueOutboundWebhookEvent
      split
      · exact hsame
      · split
        · exact hsame
        · exact parse_exec hstored
  | replay options =>
      show ∃ parsed, parseStore (replayOutboundWebhookDeadLetters options store).1 = _
      unfold replayOutboundWebhookDeadLetters
      split
      · exact hsame
      · exact parse_exec hstored
  | reconcile options =>
      show ∃ parsed, parseStore (reconcileOutboundWebhookDeliveries options store).1 = _
      unfold reconcileOutboundWebhookDeliveries
      split
      · exact hsame
      · exact parse_exec hstored
  | prune options =>
      show ∃ parsed, parseStore (pruneOutboundWebhookDeliveries options store).1 = _
      unfold pruneOutboundWebhookDeliveries
      split
      · exact hsame
      · exact parse_exec hstored
  | updateEndpoint | deleteEndpoint | claim | complete | retry | resetCircuit =>
      exact parse_exec hstored

end Parsing

theorem OutboxEffect.stored (h : OutboxEffect store call store') (hstored : store.Stored)
    (hparse : ∃ parsed, parseStore store' = .ok parsed) : store'.Stored := by
  obtain ⟨parsed, hparse⟩ := hparse
  have hmoved : ∀ {deliveries}, List.Forall₂ (DeliveryMove store call) store.deliveries deliveries →
      ∀ delivery ∈ deliveries, eventSchema delivery.event = .ok delivery.event := by
    intro deliveries hmoves delivery hmem
    obtain ⟨before, hold, hmove⟩ := exists_left_of_forall₂ hmoves hmem
    rw [(hmove.sameDelivery (hstored.event hold)).event]
    exact hstored.event hold
  cases h with
  | unchanged => exact hstored
  | endpointAdded called drawn schema =>
      refine stored_of_write hparse (fun endpoint hmem => ?_) fun delivery hmem => hstored.event hmem
      rcases List.mem_append.mp hmem with hold | hnew
      · exact hstored.endpoints endpoint hold
      · rwa [List.mem_singleton.mp hnew]
  | endpointReplaced called found named same attempts schema =>
      refine stored_of_write hparse (fun endpoint hmem => ?_) fun delivery hmem => hstored.event hmem
      rcases mem_replaceBy.mp hmem with ⟨rfl, -⟩ | ⟨hold, -⟩
      · exact schema
      · exact hstored.endpoints endpoint hold
  | endpointDeleted called moved ended =>
      exact stored_of_write hparse
        (fun endpoint hmem => hstored.endpoints endpoint (List.mem_filter.mp hmem).1) (hmoved moved)
  | queued called schema parsed fresh distinct drawn terminal =>
      refine stored_of_write hparse hstored.endpoints fun delivery hmem => ?_
      rcases List.mem_append.mp (List.mem_filter.mp hmem).1 with hold | hnew
      · exact hstored.event hold
      · rw [(fresh delivery hnew).2.1]
        exact schema
  | pruned called terminal =>
      exact stored_of_write hparse hstored.endpoints
        fun delivery hmem => hstored.event (List.mem_filter.mp hmem).1
  | moved moves runtimes => exact stored_of_write hparse hstored.endpoints (hmoved moves)

theorem OutboxInvariant.runtimeEffect (h : OutboxInvariant store) (hmatched : call.Matched store)
    {endpointRuntime : List OutboundWebhookEndpointRuntime}
    (heffect : RuntimeEffect store call endpointRuntime) :
    (endpointRuntime.map OutboundWebhookEndpointRuntime.endpointId).Nodup ∧
      ∀ runtime ∈ endpointRuntime, Owned store.endpoints runtime.endpointId := by
  cases heffect with
  | kept => exact ⟨h.distinct.runtimes, h.runtimes⟩
  | @replaced runtime present =>
      refine ⟨by simpa using h.distinct.runtimes, fun other hmem => ?_⟩
      rcases mem_replaceBy.mp hmem with ⟨rfl, previous, hprevious, hsame⟩ | ⟨hold, -⟩
      · exact hsame ▸ h.runtimes previous hprevious
      · exact h.runtimes other hold
  | @moved runtime present =>
      refine ⟨nodup_map_key_append (nodup_map_key_filter _ h.distinct.runtimes)
        fun other hmem => by simpa using (List.mem_filter.mp hmem).2, fun other hmem => ?_⟩
      rcases List.mem_append.mp hmem with hold | hnew
      · exact h.runtimes other (List.mem_filter.mp hold).1
      · obtain ⟨previous, hprevious, hsame⟩ := present
        rw [List.mem_singleton.mp hnew, ← hsame]
        exact h.runtimes previous hprevious
  | @added claimed delivery result endpoint options runtime called found same status owner absent =>
      subst called
      have hendpoint : endpoint.id = delivery.endpointId := hmatched endpoint rfl delivery found same
      refine ⟨nodup_map_key_append h.distinct.runtimes fun other hmem => owner ▸ absent other hmem,
        fun other hmem => ?_⟩
      rcases List.mem_append.mp hmem with hold | hnew
      · exact h.runtimes other hold
      · rw [List.mem_singleton.mp hnew, owner, hendpoint]
        exact h.owned delivery found
          (by simp [status, OutboundWebhookDeliveryStatus.isTerminal])

theorem OutboxInvariant.addDeliveries {queued : List OutboundWebhookDelivery}
    (h : OutboxInvariant store) (hstored : ∀ delivery ∈ queued, deliverySchema delivery = .ok delivery)
    (hids : (queued.map OutboundWebhookDelivery.id).Nodup)
    (hpairs : (queued.map OutboundWebhookDelivery.pair).Nodup)
    (hfresh : ∀ delivery ∈ queued, ∀ other ∈ store.deliveries,
      other.id ≠ delivery.id ∧ other.pair ≠ delivery.pair)
    (hqueued : ∀ delivery ∈ queued, WellFormed delivery ∧
      Owned store.endpoints delivery.endpointId) :
    OutboxInvariant { store with deliveries := store.deliveries ++ queued } := by
  have hnodup : ∀ {β : Type} (field : OutboundWebhookDelivery → β),
      (store.deliveries.map field).Nodup → (queued.map field).Nodup →
      (∀ delivery ∈ queued, ∀ other ∈ store.deliveries, field other ≠ field delivery) →
      ((store.deliveries ++ queued).map field).Nodup := by
    intro β field hold hnew hne
    rw [List.map_append, List.nodup_append]
    refine ⟨hold, hnew, ?_⟩
    rintro _ hleft _ hright rfl
    obtain ⟨other, hother, hfield⟩ := List.mem_map.mp hleft
    obtain ⟨delivery, hdelivery, rfl⟩ := List.mem_map.mp hright
    exact hne delivery hdelivery other hother hfield
  refine h.setDeliveries ⟨h.stored.endpoints, fun delivery hmem => ?_, h.stored.runtimes⟩
    (hnodup _ h.distinct.deliveries hids fun delivery hmem other hother =>
      (hfresh delivery hmem other hother).1)
    (hnodup _ h.pairs hpairs fun delivery hmem other hother =>
      (hfresh delivery hmem other hother).2) fun delivery hmem => ?_
  · exact (List.mem_append.mp hmem).elim (h.stored.deliveries delivery) (hstored delivery)
  · rcases List.mem_append.mp hmem with hold | hnew
    · exact ⟨h.wellFormed delivery hold, h.owned delivery hold⟩
    · exact ⟨(hqueued delivery hnew).1, fun _ => (hqueued delivery hnew).2⟩

theorem OutboxInvariant.effect (h : OutboxInvariant store) (hfresh : call.Fresh store)
    (hmatched : call.Matched store) (heffect : OutboxEffect store call store')
    (hstored : store'.Stored) : OutboxInvariant store' := by
  cases heffect with
  | unchanged => exact h
  | endpointAdded called drawn schema =>
      subst called
      refine h.setEndpoints hstored.endpoints
        (nodup_map_key_append h.distinct.endpoints fun other hmem => drawn ▸ hfresh other hmem) ?_
      simp
  | endpointReplaced called found named same attempts schema =>
      refine h.setEndpoints hstored.endpoints ?_ ?_ <;> rw [map_key_replaceBy]
      · exact h.distinct.endpoints
      · exact List.Subset.refl _
  | endpointDeleted called moved ended =>
      have hmiddle := h.moveDeliveries moved
        ⟨h.stored.endpoints, hstored.deliveries, h.stored.runtimes⟩
      exact hmiddle.removeEndpoint ended
  | @queued input options newEventId clock newDeliveryId event queued remove called schema parsed fresh
      distinct drawn terminal =>
      subst called
      obtain ⟨hinjective, hnew⟩ := hfresh
      refine (h.addDeliveries parsed (drawn hinjective) ?_ (fun delivery hmem other hother => ?_)
        fun delivery hmem => ?_).filterDeliveries _
      · have hpairs : queued.map OutboundWebhookDelivery.pair =
            (queued.map (·.endpointId)).map fun endpointId => (event.id, endpointId) := by
          rw [List.map_map]
          refine List.map_congr_left fun delivery hmem => ?_
          rw [OutboundWebhookDelivery.pair, (fresh delivery hmem).1]
          rfl
        rw [hpairs]
        exact (distinct h.distinct.endpoints).map fun left right hsame => (Prod.mk.inj hsame).2
      · obtain ⟨-, -, -, -, -, -, -, -, hpair, i, hid⟩ := fresh delivery hmem
        refine ⟨hid ▸ hnew other hother i, fun hsame => hpair other hother ?_⟩
        exact Prod.mk.inj hsame
      · obtain ⟨-, -, hstatus, -, htoken, hexpiry, hcompleted, howned, -⟩ := fresh delivery hmem
        refine ⟨⟨?_, ?_, ?_⟩, howned⟩ <;>
          simp [hstatus, htoken, hexpiry, hcompleted, OutboundWebhookDeliveryStatus.isTerminal]
  | pruned called terminal => exact h.filterDeliveries _
  | @moved deliveries endpointRuntime moves runtimes =>
      obtain ⟨hids, howned⟩ := h.runtimeEffect hmatched runtimes
      exact (h.moveDeliveries moves
        ⟨h.stored.endpoints, hstored.deliveries, h.stored.runtimes⟩).setRuntimes hstored hids howned

/-- A delivery stays, unless it has ended and the call may remove it. -/
theorem OutboxEffect.survives (heffect : OutboxEffect store call store') (h : OutboxInvariant store)
    {delivery : OutboundWebhookDelivery} (hmem : delivery ∈ store.deliveries) :
    (∃ next ∈ store'.deliveries, next.id = delivery.id) ∨
      (call.prunes = true ∧ delivery.status.isTerminal = true) := by
  have hmoved : ∀ {deliveries}, List.Forall₂ (DeliveryMove store call) store.deliveries deliveries →
      ∃ next ∈ deliveries, next.id = delivery.id := by
    intro deliveries hmoves
    have hids := map_eq_of_moves OutboundWebhookDelivery.id hmoves fun before hold next hmove =>
      (hmove.sameDelivery (h.stored.event hold)).id
    exact List.mem_map.mp (hids ▸ List.mem_map_of_mem hmem)
  have hended : ∀ {other : OutboundWebhookDelivery}, other ∈ store.deliveries →
      other.id = delivery.id → other.status.isTerminal = true → delivery.status.isTerminal = true := by
    intro other hother hid hterminal
    rwa [← List.inj_on_of_nodup_map h.distinct.deliveries hother hmem hid]
  cases heffect with
  | unchanged | endpointAdded | endpointReplaced => exact .inl ⟨delivery, hmem, rfl⟩
  | endpointDeleted called moved ended => exact .inl (hmoved moved)
  | moved moves runtimes => exact .inl (hmoved moves)
  | @queued input options newEventId clock newDeliveryId event queued remove called schema parsed fresh
      distinct drawn terminal =>
      by_cases hremoved : delivery.id ∈ remove
      · obtain ⟨other, hother, hid, hterminal⟩ := terminal _ hremoved
        refine .inr ⟨by rw [called]; rfl, ?_⟩
        rcases List.mem_append.mp hother with hold | hnew
        · exact hended hold hid hterminal
        · simp [(fresh other hnew).2.2.1, OutboundWebhookDeliveryStatus.isTerminal] at hterminal
      · exact .inl ⟨delivery, List.mem_filter.mpr
          ⟨List.mem_append_left _ hmem, by simpa using hremoved⟩, rfl⟩
  | @pruned options remove called terminal =>
      by_cases hremoved : delivery.id ∈ remove
      · obtain ⟨other, hother, hid, hterminal⟩ := terminal _ hremoved
        exact .inr ⟨by rw [called]; rfl, hended hother hid hterminal⟩
      · exact .inl ⟨delivery, List.mem_filter.mpr ⟨hmem, by simpa using hremoved⟩, rfl⟩

variable [CaseMapping] [EndpointUrlPolicy]

/-- Every call that draws new identifiers and matches keeps the invariant. -/
theorem OutboxInvariant.step (h : OutboxInvariant store) (hmatched : call.Matched store)
    (hstep : OutboxCall.Step store call store') : OutboxInvariant store' := by
  obtain ⟨hfresh, rfl⟩ := hstep
  have heffect := outboxEffect_of_perform h.stored h.distinct call
  exact h.effect hfresh hmatched heffect (heffect.stored h.stored (parse_perform h.stored call))

theorem outboxInvariant_of_run {calls : List OutboxCall}
    (hrun : Run (fun store call store' => call.Matched store ∧ OutboxCall.Step store call store') {}
      calls store) : OutboxInvariant store := by
  generalize hstart : ({} : OutboundWebhookStore) = start at hrun
  induction hrun with
  | refl => exact hstart ▸ outboxInvariant_empty
  | snoc before last ih => exact ih.step last.1 last.2

/-- The outbox invariant. After every sequence of calls on an empty outbox, with any
arguments and at any times, in which a completion names no other endpoint than that of
its delivery: a pair of an event and an endpoint has one delivery; a delivery still to
be made belongs to an endpoint that exists; leases and ends are there exactly when they
should be; circuits belong to endpoints, at most one to each; and only a prune removes a
delivery, one that has ended. -/
theorem outbox_invariant {calls : List OutboxCall}
    (hrun : Run (fun store call store' => call.Matched store ∧ OutboxCall.Step store call store') {}
      calls store) :
    (store.deliveries.map OutboundWebhookDelivery.pair).Nodup ∧
    (∀ delivery ∈ store.deliveries,
      delivery.status ∈ [OutboundWebhookDeliveryStatus.pending, .delivering, .retry] →
        ∃ endpoint ∈ store.endpoints, endpoint.id = delivery.endpointId) ∧
    (∀ delivery ∈ store.deliveries,
      (delivery.leaseToken.isSome ↔ delivery.status = .delivering) ∧
      (delivery.leaseExpiresAt.isSome ↔ delivery.status = .delivering) ∧
      (delivery.completedAt.isSome ↔
        delivery.status ∈ [OutboundWebhookDeliveryStatus.succeeded, .exhausted])) ∧
    (∀ runtime ∈ store.endpointRuntime,
      ∃ endpoint ∈ store.endpoints, endpoint.id = runtime.endpointId) ∧
    (store.endpointRuntime.map OutboundWebhookEndpointRuntime.endpointId).Nodup ∧
    ∀ call store', OutboxCall.Step store call store' → ∀ delivery ∈ store.deliveries,
      (∃ next ∈ store'.deliveries, next.id = delivery.id) ∨
        (call.prunes = true ∧
          delivery.status ∈ [OutboundWebhookDeliveryStatus.succeeded, .exhausted]) := by
  have h := outboxInvariant_of_run hrun
  refine ⟨h.pairs, fun delivery hmem hstatus => h.owned delivery hmem ?_,
    fun delivery hmem => ?_, h.runtimes, h.distinct.runtimes, ?_⟩
  · simp only [List.mem_cons, List.not_mem_nil, or_false] at hstatus
    rcases hstatus with hstatus | hstatus | hstatus <;>
      simp [hstatus, OutboundWebhookDeliveryStatus.isTerminal]
  · obtain ⟨htoken, hexpiry, hcompleted⟩ := h.wellFormed delivery hmem
    exact ⟨htoken, hexpiry, by rw [hcompleted, OutboundWebhookDeliveryStatus.isTerminal,
      decide_eq_true_eq]⟩
  · rintro call store' ⟨-, rfl⟩ delivery hmem
    have heffect := outboxEffect_of_perform h.stored h.distinct call
    simpa [OutboundWebhookDeliveryStatus.isTerminal] using heffect.survives h hmem

end Steps

/-! ## A sample outbox -/

/-- A policy that takes every URL as it is. -/
@[reducible]
def plainUrlPolicy : EndpointUrlPolicy := ⟨some⟩

/-- The identifier of the sample endpoint. -/
def sampleEndpointId : Text := "11111111-1111-4111-8111-111111111111"

/-- The identifiers of the sample deliveries. -/
def sampleDeliveryId (n : ℕ) : Text := ("22222222-2222-4222-8222-22222222222" : Text) ++ Text.ofNat n

theorem sampleDeliveryId_injective : Function.Injective sampleDeliveryId := by
  intro m n h
  exact Text.ofNat_injective (List.append_cancel_left h)

def sampleToken : Text := "33333333-3333-4333-8333-333333333333"

def sampleEndpoint : OutboundWebhookEndpoint where
  id := sampleEndpointId
  name := "audit"
  url := "https://example.com/hook"
  secretRef := "LISTMONK_OPS_WEBHOOK_SECRET"
  eventFilters := [.all]
  enabled := true
  timeoutMs := 10000
  maxAttempts := 1
  circuitFailureThreshold := 5
  circuitCooldownMs := 300000
  createdAt := { time := 0 }
  updatedAt := { time := 0 }

/-- The call that creates the sample endpoint. -/
def createSample : OutboxCall :=
  .createEndpoint
    { name := sampleEndpoint.name
      url := sampleEndpoint.url
      secretRef := sampleEndpoint.secretRef
      eventFilters := [.all]
      maxAttempts := some 1 } sampleEndpointId 0

/-- The call that queues a delivery to it. -/
def enqueueSample : OutboxCall :=
  .enqueue { type := .webhookTest, source := .webhook } { now := 0 }
    "44444444-4444-4444-8444-444444444444" 0 sampleDeliveryId

def sampleClaimOptions (now : ℤ) (token : Text) : ClaimOptions :=
  { limit := 10, now, leaseMs := 90000, newLeaseToken := fun _ => token }

def claimSample (now : ℤ) (token : Text) : OutboxCall :=
  .claim (sampleClaimOptions now token)

/-- The delivery under its first lease, as far as a completion looks at it. -/
def sampleClaim : OutboundWebhookDelivery where
  id := sampleDeliveryId 0
  eventId := "44444444-4444-4444-8444-444444444444"
  endpointId := sampleEndpointId
  event :=
    { id := "44444444-4444-4444-8444-444444444444"
      type := .webhookTest
      occurredAt := { time := 0 }
      source := .webhook
      data := [] }
  status := .delivering
  attemptCount := 1
  manualRetryCount := 0
  nextAttemptAt := { time := 0 }
  lastAttemptAt := some { time := 1000 }
  leaseToken := some sampleToken
  leaseExpiresAt := some { time := 91000 }

/-- The call that completes it, for an endpoint. -/
def completeSample (endpoint : OutboundWebhookEndpoint) : OutboxCall :=
  .complete sampleClaim { success := true, retryable := false, statusCode := some 200 } (some endpoint)
    { now := 2000, baseRetryDelayMs := 30000 }

section Sample

variable [CaseMapping] [EndpointUrlPolicy]

def performAll (calls : List OutboxCall) : OutboundWebhookStore :=
  calls.foldl (fun store call => call.perform store) {}

end Sample

theorem createSample_deliveries :
    letI := asciiCaseMapping
    letI := plainUrlPolicy
    (createSample.perform {}).deliveries = [] := by
  let := asciiCaseMapping
  let := plainUrlPolicy
  rw [← List.isEmpty_iff]
  decide +kernel

theorem run_claimSample :
    letI := asciiCaseMapping
    letI := plainUrlPolicy
    Run (fun store call store' => call.Matched store ∧ OutboxCall.Step store call store') {}
      ([] ++ [createSample] ++ [enqueueSample] ++ [claimSample 1000 sampleToken])
      (performAll [createSample, enqueueSample, claimSample 1000 sampleToken]) := by
  let := asciiCaseMapping
  let := plainUrlPolicy
  refine .snoc (.snoc (.snoc (.refl _) ⟨trivial, ?_, rfl⟩) ⟨trivial, ?_, rfl⟩)
    ⟨trivial, trivial, rfl⟩
  · simp [createSample, OutboxCall.Fresh]
  · refine ⟨sampleDeliveryId_injective, fun delivery hmem => ?_⟩
    rw [createSample_deliveries] at hmem
    cases hmem

theorem matched_sampleClaim (result : CompleteOutboundWebhookDeliveryResult)
    (options : CompleteOptions) :
    letI := asciiCaseMapping
    letI := plainUrlPolicy
    (OutboxCall.complete sampleClaim result (some sampleEndpoint) options).Matched
      (performAll [createSample, enqueueSample, claimSample 1000 sampleToken]) := by
  let := asciiCaseMapping
  let := plainUrlPolicy
  have hmatched : ∀ delivery ∈ (performAll
      [createSample, enqueueSample, claimSample 1000 sampleToken]).deliveries,
      delivery.id = sampleClaim.id → sampleEndpoint.id = delivery.endpointId := by
    decide +kernel
  intro named hnamed
  cases hnamed
  exact hmatched

theorem outbox_invariant_sample :
    letI := asciiCaseMapping
    letI := plainUrlPolicy
    let store := performAll
      [createSample, enqueueSample, claimSample 1000 sampleToken, completeSample sampleEndpoint]
    store.deliveries.map (·.status) = [.succeeded] ∧
      (store.deliveries.map OutboundWebhookDelivery.pair).Nodup ∧
      ∀ runtime ∈ store.endpointRuntime,
        ∃ endpoint ∈ store.endpoints, endpoint.id = runtime.endpointId := by
  let := asciiCaseMapping
  let := plainUrlPolicy
  have hrun : Run (fun store call store' => call.Matched store ∧ OutboxCall.Step store call store') {}
      ([] ++ [createSample] ++ [enqueueSample] ++ [claimSample 1000 sampleToken] ++
        [completeSample sampleEndpoint])
      (performAll [createSample, enqueueSample, claimSample 1000 sampleToken,
        completeSample sampleEndpoint]) :=
    .snoc run_claimSample ⟨matched_sampleClaim _ _, trivial, rfl⟩
  have h := outbox_invariant hrun
  exact ⟨by decide +kernel, h.1, h.2.2.2.1⟩

/-- A completion that names another endpoint leaves a circuit that belongs to none. -/
theorem outbox_orphanCircuit :
    letI := asciiCaseMapping
    letI := plainUrlPolicy
    let calls := [createSample, enqueueSample, claimSample 1000 sampleToken,
      completeSample { sampleEndpoint with id := "55555555-5555-4555-8555-555555555555" }]
    ∃ store, Run OutboxCall.Step {} calls store ∧
      ∃ runtime ∈ store.endpointRuntime, ∀ endpoint ∈ store.endpoints,
        endpoint.id ≠ runtime.endpointId := by
  let := asciiCaseMapping
  let := plainUrlPolicy
  have hrun : Run OutboxCall.Step {} ([] ++ [createSample] ++ [enqueueSample] ++
      [claimSample 1000 sampleToken] ++
      [completeSample { sampleEndpoint with id := "55555555-5555-4555-8555-555555555555" }])
      (performAll [createSample, enqueueSample, claimSample 1000 sampleToken,
        completeSample { sampleEndpoint with id := "55555555-5555-4555-8555-555555555555" }]) :=
    .snoc (run_claimSample.mono fun h => h.2) ⟨trivial, rfl⟩
  exact ⟨_, hrun, by decide +kernel⟩

end ListmonkOps.Webhook
