/-
The bound on delivery attempts.

An attempt is counted when a delivery is leased. A completion and a reconcile
compare the count with the limit of the endpoint before they let the delivery be
tried again; a claim that takes over an expired lease does not. As long as every
lease that is taken over still had an attempt left, no delivery is counted
beyond its limit. Dispatchers that crash never complete what they were handed.
-/

import ListmonkOps.Webhook.Invariant

namespace ListmonkOps.Webhook

open ListmonkOps.Math ListmonkOps.Runtime

/-! ## Dispatchers -/

/-- The document, and the claims that dispatchers were handed. -/
structure ClaimedOutbox where
  store : OutboundWebhookStore := {}
  granted : List ClaimedOutboundWebhookDelivery := []

def OutboxCall.grants (store : OutboundWebhookStore) : OutboxCall → List ClaimedOutboundWebhookDelivery
  | .claim options =>
      match (claimOutboundWebhookDeliveries options store).2 with
      | .ok claimed => claimed
      | .error _ => []
  | _ => []

/-- The identifiers that a call draws were never drawn before. -/
def OutboxCall.New (outbox : ClaimedOutbox) : OutboxCall → Prop
  | .createEndpoint _ newId _ => (∀ endpoint ∈ outbox.store.endpoints, endpoint.id ≠ newId) ∧
      (∀ delivery ∈ outbox.store.deliveries, delivery.endpointId ≠ newId) ∧
      ∀ claim ∈ outbox.granted, claim.delivery.endpointId ≠ newId
  | .enqueue _ _ _ _ newDeliveryId => Function.Injective newDeliveryId ∧
      (∀ delivery ∈ outbox.store.deliveries, ∀ i, delivery.id ≠ newDeliveryId i) ∧
      ∀ claim ∈ outbox.granted, ∀ i, claim.delivery.id ≠ newDeliveryId i
  | _ => True

/-- A completion is that of a claim, as it was handed out. -/
def OutboxCall.Handed (granted : List ClaimedOutboundWebhookDelivery) : OutboxCall → Prop
  | .complete claimed _ endpoint _ => { delivery := claimed, endpoint } ∈ granted
  | _ => True

/-- A call leaves the limits of the endpoints as they are. -/
def OutboxCall.KeepsMaxAttempts (store : OutboundWebhookStore) : OutboxCall → Prop
  | .updateEndpoint id input _ => ∀ endpoint ∈ store.endpoints, endpoint.id = id →
      input.maxAttempts.getD endpoint.maxAttempts = endpoint.maxAttempts
  | _ => True

/-- A claim that takes over an expired lease finds an attempt left. -/
def OutboxCall.ReclaimsBelowLimit (store : OutboundWebhookStore) : OutboxCall → Prop
  | .claim options => ∀ delivery ∈ claimableDeliveries options store, delivery.status = .delivering →
      ∀ endpoint ∈ store.endpoints, endpoint.id = delivery.endpointId →
        delivery.attemptCount < endpoint.maxAttempts
  | _ => True

section Steps

variable [CaseMapping] [EndpointUrlPolicy]

/-- The document and the claims after a call. -/
def ClaimedOutbox.perform (outbox : ClaimedOutbox) (call : OutboxCall) : ClaimedOutbox where
  store := call.perform outbox.store
  granted := outbox.granted ++ call.grants outbox.store

/-- One call of some actor: a dispatcher completes only what it was handed. -/
def ClaimedOutbox.Step (outbox : ClaimedOutbox) (call : OutboxCall) (outbox' : ClaimedOutbox) : Prop :=
  call.New outbox ∧ call.Handed outbox.granted ∧ outbox' = outbox.perform call

end Steps

/-! ## Where records come from -/

section Origins

variable {store store' : OutboundWebhookStore} {call : OutboxCall}

/-- A delivery is one of those before the call, or it has just been queued. -/
theorem OutboxEffect.delivery_origin (h : OutboxEffect store call store')
    {next : OutboundWebhookDelivery} (hmem : next ∈ store'.deliveries) :
    (∃ delivery ∈ store.deliveries, DeliveryMove store call delivery next) ∨
      next.status = .pending ∧ next.attemptCount = 0 ∧
        ∃ input options newEventId clock newDeliveryId,
          call = .enqueue input options newEventId clock newDeliveryId ∧
            ∃ i, next.id = newDeliveryId i := by
  cases h with
  | unchanged | endpointAdded | endpointReplaced => exact .inl ⟨next, hmem, .kept⟩
  | endpointDeleted called moved ended => exact .inl (exists_left_of_forall₂ moved hmem)
  | moved moves runtimes => exact .inl (exists_left_of_forall₂ moves hmem)
  | pruned called terminal => exact .inl ⟨next, (List.mem_filter.mp hmem).1, .kept⟩
  | queued called schema parsed fresh distinct drawn terminal =>
      rcases List.mem_append.mp (List.mem_filter.mp hmem).1 with hold | hnew
      · exact .inl ⟨next, hold, .kept⟩
      · obtain ⟨-, -, hstatus, hcount, -, -, -, -, -, hid⟩ := fresh next hnew
        exact .inr ⟨hstatus, hcount, _, _, _, _, _, called, hid⟩

/-- An endpoint is one of those before the call, or it has just been created. -/
theorem OutboxEffect.endpoint_origin (h : OutboxEffect store call store')
    (hkeeps : call.KeepsMaxAttempts store) {endpoint : OutboundWebhookEndpoint}
    (hmem : endpoint ∈ store'.endpoints) :
    (∃ previous ∈ store.endpoints, previous.id = endpoint.id ∧
        previous.maxAttempts = endpoint.maxAttempts) ∨
      ∃ input now, call = .createEndpoint input endpoint.id now := by
  cases h with
  | unchanged | pruned | queued | moved => exact .inl ⟨endpoint, hmem, rfl, rfl⟩
  | endpointDeleted called moved ended =>
      exact .inl ⟨endpoint, (List.mem_filter.mp hmem).1, rfl, rfl⟩
  | endpointAdded called drawn schema =>
      rcases List.mem_append.mp hmem with hold | hnew
      · exact .inl ⟨endpoint, hold, rfl, rfl⟩
      · obtain rfl := List.mem_singleton.mp hnew
        exact .inr ⟨_, _, drawn ▸ called⟩
  | @endpointReplaced id input now previous _ called found named same attempts schema =>
      rcases mem_replaceBy.mp hmem with ⟨hsame, _⟩ | ⟨hold, hne⟩
      · subst called hsame
        exact .inl ⟨previous, found, named.trans same.symm,
          (attempts.trans (hkeeps previous found named)).symm⟩
      · exact .inl ⟨endpoint, hold, rfl, rfl⟩

/-- Every claim is that of a delivery of the document, with its endpoint. -/
theorem OutboxCall.grants_origin (hstored : store.Stored) {claim : ClaimedOutboundWebhookDelivery}
    (hmem : claim ∈ call.grants store) :
    ∃ delivery ∈ store.deliveries, claim.delivery.id = delivery.id ∧
      claim.delivery.endpointId = delivery.endpointId ∧
      claim.endpoint = endpointById store.endpoints delivery.endpointId ∧
      delivery.status.isTerminal = false := by
  cases call with
  | claim options =>
      rcases hclaim : claimOutboundWebhookDeliveries options store with ⟨store', error | claimed⟩
      · simp [OutboxCall.grants, hclaim] at hmem
      · simp only [OutboxCall.grants, hclaim] at hmem
        obtain ⟨leased, hleased, -, rfl⟩ := claim_eq_ok hstored hclaim
        obtain ⟨next, hnext, rfl⟩ := List.mem_map.mp hmem
        obtain ⟨delivery, hdelivery, i, hlease⟩ :=
          exists_left_of_forall₂ hleased (Table.mem_of_mem_ofList hnext)
        obtain ⟨hstore, hclaimable⟩ := mem_claimableDeliveries hdelivery
        rw [leaseDelivery_eq_ok (hstored.event hstore) hlease]
        exact ⟨delivery, hstore, rfl, rfl, rfl, isTerminal_of_isClaimable hclaimable⟩
  | _ => simp [OutboxCall.grants] at hmem

theorem mem_of_endpointById {endpoints : List OutboundWebhookEndpoint} {id : Text}
    {endpoint : OutboundWebhookEndpoint} (h : endpointById endpoints id = some endpoint) :
    endpoint ∈ endpoints ∧ endpoint.id = id :=
  ⟨List.mem_reverse.mp (List.mem_of_find?_eq_some h), by simpa using List.find?_some h⟩

end Origins

/-! ## The count of attempts -/

/-- A delivery has been attempted at most as often as its endpoint allows, and less often
when it is to be tried again. -/
structure OutboundWebhookDelivery.WithinLimit (delivery : OutboundWebhookDelivery) (limit : ℕ) :
    Prop where
  bounded : delivery.attemptCount ≤ limit
  left : delivery.status = .pending ∨ delivery.status = .retry → delivery.attemptCount < limit

/-- What holds between the document and the claims that were handed out. -/
structure ClaimedOutbox.Bounded (outbox : ClaimedOutbox) : Prop where
  invariant : OutboxInvariant outbox.store
  sameEndpoint : ∀ claim ∈ outbox.granted, ∀ delivery ∈ outbox.store.deliveries,
    delivery.id = claim.delivery.id → delivery.endpointId = claim.delivery.endpointId
  snapshot : ∀ claim ∈ outbox.granted, ∀ named, claim.endpoint = some named →
    named.id = claim.delivery.endpointId ∧
      ∀ endpoint ∈ outbox.store.endpoints, endpoint.id = named.id →
        endpoint.maxAttempts = named.maxAttempts
  withinLimit : ∀ delivery ∈ outbox.store.deliveries, ∀ endpoint ∈ outbox.store.endpoints,
    endpoint.id = delivery.endpointId → delivery.WithinLimit endpoint.maxAttempts

section Bound

variable {outbox outbox' : ClaimedOutbox} {call : OutboxCall}
  {delivery next : OutboundWebhookDelivery} {endpoint : OutboundWebhookEndpoint}

theorem claimedOutbox_bounded_empty : ClaimedOutbox.Bounded {} where
  invariant := outboxInvariant_empty
  sameEndpoint := by simp
  snapshot := by simp
  withinLimit := by simp

theorem OutboxInvariant.maxAttempts_pos {store : OutboundWebhookStore} (h : OutboxInvariant store)
    (hmem : endpoint ∈ store.endpoints) : 0 < endpoint.maxAttempts := by
  have hbounds := (endpointSchema_eq_ok (h.stored.endpoints endpoint hmem)).2.2.2.2.2.1
  simp only [OutboundWebhookEndpoint.inBounds, Bool.and_eq_true, decide_eq_true_eq] at hbounds
  omega

theorem OutboxCall.New.fresh (h : call.New outbox) : call.Fresh outbox.store := by
  cases call with
  | createEndpoint | enqueue => first | exact h.1 | exact ⟨h.1, h.2.1⟩
  | _ => trivial

/-- The completion of a claim that was handed out names the endpoint of its delivery. -/
theorem ClaimedOutbox.Bounded.matched (h : outbox.Bounded) (hhanded : call.Handed outbox.granted) :
    call.Matched outbox.store := by
  cases call with
  | complete claimed result endpoint options =>
      intro named hnamed delivery hmem hid
      rw [h.sameEndpoint _ hhanded delivery hmem hid]
      exact (h.snapshot _ hhanded named hnamed).1
  | _ => trivial

/-- A completion lets a delivery be tried again only below the limit it was handed. -/
theorem lt_of_statusAfterAttempt {attemptCount : ℕ} {result : CompleteOutboundWebhookDeliveryResult}
    {named : Option OutboundWebhookEndpoint}
    (h : statusAfterAttempt attemptCount result named = .retry) :
    ∃ endpoint, named = some endpoint ∧ attemptCount < endpoint.maxAttempts := by
  unfold statusAfterAttempt at h
  split at h
  · simp at h
  · split at h
    · simp at h
    · next hretry =>
        cases named with
        | none => simp at hretry
        | some endpoint => exact ⟨endpoint, rfl, by simp at hretry; omega⟩

theorem ClaimedOutbox.Bounded.move (h : outbox.Bounded) (hhanded : call.Handed outbox.granted)
    (hreclaims : call.ReclaimsBelowLimit outbox.store) (hmem : delivery ∈ outbox.store.deliveries)
    (hendpoint : endpoint ∈ outbox.store.endpoints) (hid : endpoint.id = delivery.endpointId)
    (hmove : DeliveryMove outbox.store call delivery next) :
    next.WithinLimit endpoint.maxAttempts := by
  have hevent := h.invariant.stored.event hmem
  have hwithin := h.withinLimit delivery hmem endpoint hendpoint hid
  cases hmove with
  | kept => exact hwithin
  | requeued _ _ result =>
      rw [requeued_eq_ok hevent result]
      have hpos := h.invariant.maxAttempts_pos hendpoint
      exact ⟨hpos.le, fun _ => hpos⟩
  | leased called selected result =>
      subst called
      rw [leaseDelivery_eq_ok hevent result]
      refine ⟨Nat.succ_le_of_lt ?_, by simp⟩
      have hactive := isTerminal_of_isClaimable (mem_claimableDeliveries selected).2
      cases hstatus : delivery.status with
      | pending => exact hwithin.left (.inl hstatus)
      | retry => exact hwithin.left (.inr hstatus)
      | delivering => exact hreclaims delivery selected hstatus endpoint hendpoint hid
      | succeeded | exhausted =>
          simp [hstatus, OutboundWebhookDeliveryStatus.isTerminal] at hactive
  | recovered called status expired result =>
      rw [recoverDelivery_eq_ok hevent result]
      refine ⟨hwithin.bounded, ?_⟩
      dsimp only
      split
      · next hretry =>
          intro
          obtain ⟨found, hfound, hretry⟩ := Option.any_eq_true _ _ |>.mp hretry
          obtain ⟨hin, hnamed⟩ := mem_of_endpointById hfound
          obtain rfl := List.inj_on_of_nodup_map h.invariant.distinct.endpoints hin hendpoint
            (hnamed.trans hid.symm)
          simpa using (Bool.and_eq_true_iff.mp hretry).2
      · simp
  | completed called same status token result =>
      subst called
      obtain ⟨nextAttemptAt, rfl⟩ := completedDelivery_eq_ok hevent result
      refine ⟨hwithin.bounded, fun hstatus => ?_⟩
      dsimp only at hstatus ⊢
      rcases hstatus with hpending | hretry
      · unfold statusAfterAttempt at hpending
        split at hpending
        · simp at hpending
        · split at hpending <;> simp at hpending
      · obtain ⟨named, rfl, hlt⟩ := lt_of_statusAfterAttempt hretry
        obtain ⟨hnamed, hsnapshot⟩ := h.snapshot _ hhanded named rfl
        have howner := h.sameEndpoint _ hhanded delivery hmem same
        rwa [hsnapshot endpoint hendpoint (hid.trans (howner.trans hnamed.symm))]
  | endpointDeleted =>
      exact ⟨hwithin.bounded, by simp [OutboundWebhookDelivery.endpointDeleted]⟩

variable [CaseMapping] [EndpointUrlPolicy]

/-- A claim that was handed out and the delivery it is of stay with one endpoint. -/
theorem ClaimedOutbox.sameEndpoint_perform (hinvariant : OutboxInvariant outbox.store)
    (h : ∀ claim ∈ outbox.granted, ∀ delivery ∈ outbox.store.deliveries,
      delivery.id = claim.delivery.id → delivery.endpointId = claim.delivery.endpointId)
    (hnew : call.New outbox) :
    ∀ claim ∈ (outbox.perform call).granted, ∀ delivery ∈ (outbox.perform call).store.deliveries,
      delivery.id = claim.delivery.id → delivery.endpointId = claim.delivery.endpointId := by
  have heffect := outboxEffect_of_perform hinvariant.stored hinvariant.distinct call
  intro claim hclaim next hnext hid
  rcases heffect.delivery_origin hnext with ⟨delivery, hmem, hmove⟩ | ⟨-, -, hqueued⟩
  · have hsame := hmove.sameDelivery (hinvariant.stored.event hmem)
    rw [hsame.endpointId]
    rcases List.mem_append.mp hclaim with hold | hgranted
    · exact h claim hold delivery hmem (hsame.id.symm.trans hid)
    · obtain ⟨leased, hleased, hsameId, hsameEndpoint, -⟩ :=
        OutboxCall.grants_origin hinvariant.stored hgranted
      obtain rfl := List.inj_on_of_nodup_map hinvariant.distinct.deliveries hmem hleased
        (hsame.id.symm.trans (hid.trans hsameId))
      exact hsameEndpoint.symm
  · obtain ⟨input, options, newEventId, clock, newDeliveryId, rfl, i, hdrawn⟩ := hqueued
    rcases List.mem_append.mp hclaim with hold | hgranted
    · exact absurd (hid.symm.trans hdrawn) (hnew.2.2 claim hold i)
    · simp [OutboxCall.grants] at hgranted

/-- Every call keeps the bound, if a lease that it takes over had an attempt left. -/
theorem ClaimedOutbox.Bounded.step (h : outbox.Bounded)
    (hkeeps : call.KeepsMaxAttempts outbox.store) (hreclaims : call.ReclaimsBelowLimit outbox.store)
    (hstep : ClaimedOutbox.Step outbox call outbox') : outbox'.Bounded := by
  obtain ⟨hnew, hhanded, rfl⟩ := hstep
  have heffect := outboxEffect_of_perform h.invariant.stored h.invariant.distinct call
  have hstep : OutboxInvariant (call.perform outbox.store) :=
    h.invariant.step (h.matched hhanded) ⟨hnew.fresh, rfl⟩
  have hendpoints : ∀ endpoint ∈ (call.perform outbox.store).endpoints,
      (∃ previous ∈ outbox.store.endpoints, previous.id = endpoint.id ∧
          previous.maxAttempts = endpoint.maxAttempts) ∨
        ∃ input now, call = .createEndpoint input endpoint.id now :=
    fun endpoint hmem => heffect.endpoint_origin hkeeps hmem
  refine ⟨hstep, ClaimedOutbox.sameEndpoint_perform h.invariant h.sameEndpoint hnew, ?_, ?_⟩
  · intro claim hclaim named hnamed
    rcases List.mem_append.mp hclaim with hold | hgranted
    · obtain ⟨hsame, hsnapshot⟩ := h.snapshot claim hold named hnamed
      refine ⟨hsame, fun endpoint hmem hid => ?_⟩
      rcases hendpoints endpoint hmem with ⟨previous, hprevious, hprevId, hlimit⟩ | hcreated
      · exact hlimit.symm.trans (hsnapshot previous hprevious (hprevId.trans hid))
      · obtain ⟨input, now, rfl⟩ := hcreated
        exact absurd (hsame.symm.trans hid.symm) (hnew.2.2 claim hold)
    · obtain ⟨delivery, hmem, -, hsameEndpoint, hendpoint, -⟩ :=
        OutboxCall.grants_origin h.invariant.stored hgranted
      obtain ⟨hin, hsame⟩ := mem_of_endpointById (hendpoint.symm.trans hnamed)
      refine ⟨hsame.trans hsameEndpoint.symm, fun endpoint hmem hid => ?_⟩
      rcases hendpoints endpoint hmem with ⟨previous, hprevious, hprevId, hlimit⟩ | hcreated
      · obtain rfl := List.inj_on_of_nodup_map h.invariant.distinct.endpoints hprevious hin
          (hprevId.trans hid)
        exact hlimit.symm
      · obtain ⟨input, now, rfl⟩ := hcreated
        simp [OutboxCall.grants] at hgranted
  · intro next hnext endpoint hmem hid
    rcases hendpoints endpoint hmem with ⟨previous, hprevious, hprevId, hlimit⟩ | hcreated
    · rw [← hlimit]
      rcases heffect.delivery_origin hnext with ⟨delivery, hdelivery, hmove⟩ | ⟨hstatus, hcount, -⟩
      · have hsame := hmove.sameDelivery (h.invariant.stored.event hdelivery)
        exact h.move hhanded hreclaims hdelivery hprevious
          (hprevId.trans (hid.trans hsame.endpointId)) hmove
      · have hpos := h.invariant.maxAttempts_pos hprevious
        exact ⟨by omega, fun _ => by omega⟩
    · obtain ⟨input, now, rfl⟩ := hcreated
      rcases heffect.delivery_origin hnext with ⟨delivery, hdelivery, hmove⟩ | ⟨-, -, hqueued⟩
      · have hsame := hmove.sameDelivery (h.invariant.stored.event hdelivery)
        exact absurd (hsame.endpointId.symm.trans hid.symm) (hnew.2.1 delivery hdelivery)
      · obtain ⟨_, _, _, _, _, hcalled, -⟩ := hqueued
        simp at hcalled

/-- The bound on attempts. In every run of any number of dispatchers, operators and
crashes, in which no call changes the limit of an endpoint and no claim takes over an
expired lease of a delivery that has no attempt left, no delivery is counted beyond the
limit of its endpoint. -/
theorem attempts_bounded {calls : List OutboxCall}
    (hrun : Run (fun outbox call outbox' => call.KeepsMaxAttempts outbox.store ∧
      call.ReclaimsBelowLimit outbox.store ∧ ClaimedOutbox.Step outbox call outbox') {} calls outbox) :
    ∀ delivery ∈ outbox.store.deliveries, ∀ endpoint ∈ outbox.store.endpoints,
      endpoint.id = delivery.endpointId → delivery.attemptCount ≤ endpoint.maxAttempts := by
  have hbounded : outbox.Bounded := by
    generalize hstart : ({} : ClaimedOutbox) = start at hrun
    induction hrun with
    | refl => exact hstart ▸ claimedOutbox_bounded_empty
    | snoc before last ih => exact ih.step last.1 last.2.1 last.2.2
  exact fun delivery hmem endpoint hendpoint hid =>
    (hbounded.withinLimit delivery hmem endpoint hendpoint hid).bounded

end Bound

/-! ## A lease that is taken over -/

/-- What is handed out after some calls on an empty outbox. -/
def sampleOutbox [CaseMapping] [EndpointUrlPolicy] (calls : List OutboxCall) : ClaimedOutbox :=
  calls.foldl ClaimedOutbox.perform {}

def otherToken : Text := "66666666-6666-4666-8666-666666666666"

theorem sampleOutbox_queued (input : CreateOutboundWebhookEndpointInput) :
    letI := asciiCaseMapping
    letI := plainUrlPolicy
    let create : OutboxCall := .createEndpoint input sampleEndpointId 0
    (create.perform {}).deliveries = [] →
      Run (fun outbox call outbox' => call.KeepsMaxAttempts outbox.store ∧
        call.ReclaimsBelowLimit outbox.store ∧ ClaimedOutbox.Step outbox call outbox') {}
        ([] ++ [create] ++ [enqueueSample]) (sampleOutbox [create, enqueueSample]) := by
  let := asciiCaseMapping
  let := plainUrlPolicy
  intro create hempty
  refine .snoc (.snoc (.refl _) ⟨trivial, trivial, ?_, trivial, rfl⟩)
    ⟨trivial, trivial, ?_, trivial, rfl⟩
  · simp [create, OutboxCall.New]
  · refine ⟨sampleDeliveryId_injective, fun delivery hmem => ?_, ?_⟩
    · change delivery ∈ (create.perform {}).deliveries at hmem
      rw [hempty] at hmem
      cases hmem
    · simp [ClaimedOutbox.perform, create, OutboxCall.grants]

/-- The call that creates the sample endpoint with three attempts. -/
def createThrice : OutboxCall :=
  .createEndpoint
    { name := sampleEndpoint.name
      url := sampleEndpoint.url
      secretRef := sampleEndpoint.secretRef
      eventFilters := [.all]
      maxAttempts := some 3 } sampleEndpointId 0

/-- Two dispatchers crashed. The lease of the first was taken over, that of the second was
reconciled, and a third has the delivery now. -/
def thirdLease [CaseMapping] [EndpointUrlPolicy] : ClaimedOutbox :=
  sampleOutbox [createThrice, enqueueSample, claimSample 1000 sampleToken,
    claimSample 100000 otherToken, .reconcile { now := 200000 }, claimSample 300000 sampleToken]

/-- A dispatcher reports that the attempt it was handed failed. -/
def failSample (claim : ClaimedOutboundWebhookDelivery) : OutboxCall :=
  .complete claim.delivery { success := false, retryable := true } claim.endpoint
    { now := 301000, baseRetryDelayMs := 30000 }

theorem step_failSample [CaseMapping] [EndpointUrlPolicy] {outbox : ClaimedOutbox}
    {claim : ClaimedOutboundWebhookDelivery} (h : claim ∈ outbox.granted) :
    (failSample claim).KeepsMaxAttempts outbox.store ∧
      (failSample claim).ReclaimsBelowLimit outbox.store ∧
      ClaimedOutbox.Step outbox (failSample claim) (outbox.perform (failSample claim)) :=
  ⟨trivial, trivial, trivial, h, rfl⟩

theorem attempts_bounded_sample :
    letI := asciiCaseMapping
    letI := plainUrlPolicy
    ∃ claim ∈ thirdLease.granted,
      let outbox := thirdLease.perform (failSample claim)
      outbox.store.deliveries.map (fun delivery => (delivery.status, delivery.attemptCount)) =
          [(.exhausted, 3)] ∧
        ∀ delivery ∈ outbox.store.deliveries, ∀ endpoint ∈ outbox.store.endpoints,
          endpoint.id = delivery.endpointId → delivery.attemptCount ≤ endpoint.maxAttempts := by
  let := asciiCaseMapping
  let := plainUrlPolicy
  have hempty : (createThrice.perform {}).deliveries = [] := by
    rw [← List.isEmpty_iff]
    decide +kernel
  have hfirst : (claimSample 1000 sampleToken).ReclaimsBelowLimit
      (sampleOutbox [createThrice, enqueueSample]).store := by
    unfold OutboxCall.ReclaimsBelowLimit claimSample
    decide +kernel
  have hsecond : (claimSample 100000 otherToken).ReclaimsBelowLimit
      (sampleOutbox [createThrice, enqueueSample, claimSample 1000 sampleToken]).store := by
    unfold OutboxCall.ReclaimsBelowLimit claimSample
    decide +kernel
  have hthird : (claimSample 300000 sampleToken).ReclaimsBelowLimit
      (sampleOutbox [createThrice, enqueueSample, claimSample 1000 sampleToken,
        claimSample 100000 otherToken, .reconcile { now := 200000 }]).store := by
    unfold OutboxCall.ReclaimsBelowLimit claimSample
    decide +kernel
  have hrun : Run (fun outbox call outbox' => call.KeepsMaxAttempts outbox.store ∧
      call.ReclaimsBelowLimit outbox.store ∧ ClaimedOutbox.Step outbox call outbox') {}
      ([] ++ [createThrice] ++ [enqueueSample] ++ [claimSample 1000 sampleToken] ++
        [claimSample 100000 otherToken] ++ [.reconcile { now := 200000 }] ++
        [claimSample 300000 sampleToken]) thirdLease :=
    .snoc (.snoc (.snoc (.snoc (sampleOutbox_queued _ hempty)
      ⟨trivial, hfirst, trivial, trivial, rfl⟩) ⟨trivial, hsecond, trivial, trivial, rfl⟩)
      ⟨trivial, trivial, trivial, trivial, rfl⟩) ⟨trivial, hthird, trivial, trivial, rfl⟩
  obtain ⟨hhanded, hended⟩ : ∃ h : 2 < thirdLease.granted.length,
      (thirdLease.perform (failSample thirdLease.granted[2])).store.deliveries.map
        (fun delivery => (delivery.status, delivery.attemptCount)) = [(.exhausted, 3)] := by
    decide +kernel
  have hclaim := List.getElem_mem hhanded
  exact ⟨_, hclaim, hended, attempts_bounded (hrun.snoc (step_failSample hclaim))⟩

/-- The delivery has its only attempt; its dispatcher crashes; a second dispatcher takes
over the lease and counts a second attempt. -/
theorem attempts_exceeded :
    letI := asciiCaseMapping
    letI := plainUrlPolicy
    ∃ calls outbox, Run (fun outbox call outbox' => call.KeepsMaxAttempts outbox.store ∧
        ClaimedOutbox.Step outbox call outbox') {} calls outbox ∧
      ∃ delivery ∈ outbox.store.deliveries, ∃ endpoint ∈ outbox.store.endpoints,
        endpoint.id = delivery.endpointId ∧ endpoint.maxAttempts < delivery.attemptCount := by
  let := asciiCaseMapping
  let := plainUrlPolicy
  have hclaimed : Run (fun outbox call outbox' => call.KeepsMaxAttempts outbox.store ∧
      ClaimedOutbox.Step outbox call outbox') {}
      ([] ++ [createSample] ++ [enqueueSample] ++ [claimSample 1000 sampleToken] ++
        [claimSample 100000 otherToken])
      (sampleOutbox [createSample, enqueueSample, claimSample 1000 sampleToken,
        claimSample 100000 otherToken]) :=
    .snoc (.snoc ((sampleOutbox_queued _ createSample_deliveries).mono fun h => ⟨h.1, h.2.2⟩)
      ⟨trivial, trivial, trivial, rfl⟩) ⟨trivial, trivial, trivial, rfl⟩
  exact ⟨_, _, hclaimed, by decide +kernel⟩

end ListmonkOps.Webhook
