/-
The outbox within its capacity.

A new event may need room. Pruning removes as many deliveries as the limit is
exceeded by, the ones that ended first, and gives up where too many are still
to be made; what it removes is found by identifier.
-/

import ListmonkOps.Webhook.Invariant

namespace ListmonkOps.Webhook

open ListmonkOps.Math ListmonkOps.Runtime

/-! ## Pruning for capacity -/

section Pruning

variable {α κ : Type} {key : α → κ} {xs : List α} {r : α → α → Prop}

/-- The first entries of a sorted list precede those that are left of it. -/
theorem rel_of_mem_take_insertionSort [DecidableRel r] [Std.Total r] [IsTrans α r] {n : ℕ} {a b : α}
    (ha : a ∈ (xs.insertionSort r).take n) (hb : b ∈ xs)
    (hleft : b ∉ (xs.insertionSort r).take n) : r a b := by
  have hsorted := List.pairwise_insertionSort r xs
  rw [← List.take_append_drop n (xs.insertionSort r), List.pairwise_append] at hsorted
  have hin : b ∈ (xs.insertionSort r).take n ++ (xs.insertionSort r).drop n := by
    rw [List.take_append_drop]
    exact (List.mem_insertionSort r).mpr hb
  exact hsorted.2.2 a ha b ((List.mem_append.mp hin).resolve_left hleft)

/-- Entries under distinct keys, without those that carry the key of one of some. -/
theorem filter_append_perm_of_key {dropped : List α} {keep : α → Bool}
    (hkeep : ∀ x, keep x = true ↔ key x ∉ dropped.map key) (hdistinct : (xs.map key).Nodup)
    (hdropped : dropped.Nodup) (hsubset : dropped ⊆ xs) : (xs.filter keep ++ dropped).Perm xs := by
  have hperm : dropped.Perm (xs.filter fun x => !keep x) := by
    refine (List.perm_ext_iff_of_nodup hdropped (hdistinct.of_map.filter _)).mpr fun x => ?_
    rw [List.mem_filter, Bool.not_eq_true', ← Bool.not_eq_true, hkeep, not_not]
    constructor
    · exact fun hmem => ⟨hsubset hmem, List.mem_map_of_mem hmem⟩
    · rintro ⟨hmem, hkey⟩
      obtain ⟨y, hy, hsame⟩ := List.mem_map.mp hkey
      rwa [← List.inj_on_of_nodup_map hdistinct (hsubset hy) hmem hsame]
  exact (hperm.append_left _).trans (List.filter_append_perm keep xs)

end Pruning

/-- Some deliveries make room for the others: as many as are too many, all of them ended, and none
that ended later than one that stays. -/
structure MakesRoom (limit : ℕ) (deliveries kept dropped : List OutboundWebhookDelivery) :
    Prop where
  capacity : kept.length ≤ limit
  count : dropped.length = deliveries.length - limit
  order : kept.Sublist deliveries
  rest : (kept ++ dropped).Perm deliveries
  terminal : ∀ delivery ∈ dropped, delivery.status.isTerminal = true
  oldest : ∀ delivery ∈ dropped, ∀ other ∈ kept, other.status.isTerminal = true →
    (endedAt delivery).LocaleLE (endedAt other)

theorem makesRoom_of_pruneDeliveries {deliveries kept : List OutboundWebhookDelivery} {limit : ℕ}
    (hdistinct : (deliveries.map OutboundWebhookDelivery.id).Nodup)
    (h : pruneDeliveries deliveries limit = .ok kept) :
    ∃ dropped, MakesRoom limit deliveries kept dropped := by
  unfold pruneDeliveries at h
  split at h
  · next hfits =>
      obtain rfl := Except.ok.inj h
      exact ⟨[], hfits, by simp; omega, List.Sublist.refl _, by simp, by simp, by simp⟩
  · next hfull =>
      dsimp only at h
      split at h
      · simp at h
      · next hroom =>
          obtain rfl := Except.ok.inj h
          set terminal := (deliveries.filter (·.status.isTerminal)).insertionSort fun left right =>
            (endedAt left).LocaleLE (endedAt right) with hterminal
          set dropped := terminal.take (deliveries.length - limit) with hdropped
          have hmem : ∀ delivery ∈ dropped,
              delivery ∈ deliveries ∧ delivery.status.isTerminal = true := fun delivery hin =>
            List.mem_filter.mp ((List.mem_insertionSort _).mp (List.mem_of_mem_take hin))
          have hnodup : dropped.Nodup :=
            ((((List.perm_insertionSort _ _).nodup_iff).mpr (hdistinct.of_map.filter _)).sublist
              (List.take_sublist _ _))
          have hrest : (deliveries.filter (fun delivery => decide
              (delivery.id ∉ dropped.map (·.id))) ++ dropped).Perm deliveries :=
            filter_append_perm_of_key (fun _ => decide_eq_true_iff) hdistinct hnodup
              fun delivery hin => (hmem delivery hin).1
          have hlength := hrest.length_eq
          rw [List.length_append] at hlength
          have hatMost : dropped.length ≤ deliveries.length - limit := List.length_take_le _ _
          refine ⟨dropped, not_lt.mp hroom, ?_, List.filter_sublist, hrest,
            fun delivery hin => (hmem delivery hin).2, fun delivery hin other hother hended => ?_⟩
          · have hkept := not_lt.mp hroom
            omega
          · obtain ⟨hin', hkept⟩ := List.mem_filter.mp hother
            have hended' : other ∈ deliveries.filter (·.status.isTerminal) :=
              List.mem_filter.mpr ⟨hin', hended⟩
            refine rel_of_mem_take_insertionSort (r := fun left right =>
              (endedAt left).LocaleLE (endedAt right)) hin hended' fun htaken => ?_
            exact of_decide_eq_true hkept (List.mem_map_of_mem htaken)

/-! ## Queueing an event -/

section Enqueue

variable {store store' : OutboundWebhookStore} {delivery other : OutboundWebhookDelivery}

/-- A text that a schema has accepted, and that is the canonical one, has a four-digit year. -/
theorem localeLE_iff_time_le {left right : DateTime} (hleft : isoDateTimeSchema left = true)
    (hright : isoDateTimeSchema right = true) (hspelling : left.spelling = none)
    (hspelling' : right.spelling = none) : left.LocaleLE right ↔ left.time ≤ right.time := by
  obtain ⟨time, spelling⟩ := left
  obtain ⟨time', spelling'⟩ := right
  subst hspelling hspelling'
  exact localeLE_canonical_iff hleft hright

theorem isoDateTimeSchema_completedAt {at_ : DateTime}
    (h : deliverySchema delivery = .ok delivery) (hat : delivery.completedAt = some at_) :
    isoDateTimeSchema at_ = true := by
  have hbounds := (deliverySchema_eq_ok h).1
  simp only [OutboundWebhookDelivery.inBounds, Bool.and_eq_true, hat, Option.all_some] at hbounds
  tauto

theorem map_id_deliveries_of_parse (h : parseStore store = .ok store') :
    store'.deliveries.map OutboundWebhookDelivery.id =
      store.deliveries.map OutboundWebhookDelivery.id := by
  obtain ⟨endpoints, -, h⟩ := except_bind_eq_ok.mp h
  obtain ⟨deliveries, hdeliveries, h⟩ := except_bind_eq_ok.mp h
  obtain ⟨runtimes, -, h⟩ := except_bind_eq_ok.mp h
  obtain rfl := Except.ok.inj h
  refine map_eq_of_forall₂ (mapM_eq_ok_iff.mp hdeliveries) fun hdelivery => ?_
  obtain ⟨-, event, -, rfl⟩ := deliverySchema_eq_ok hdelivery
  rfl

theorem limit_of_resolveStoreLimit {limit : Option ℕ} {resolved : ℕ}
    (h : resolveStoreLimit limit = .ok resolved) : resolved = limit.getD 5000 := by
  unfold resolveStoreLimit at h
  dsimp only at h
  split at h
  · simp at h
  · exact (Except.ok.inj h).symm

theorem event_of_enqueueUpdate {event : OutboundWebhookEvent} {options : EnqueueOptions} {limit : ℕ}
    {newDeliveryId : ℕ → Text} {result : EnqueueOutboundWebhookResult}
    (h : enqueueUpdate event options limit newDeliveryId store = .ok (store', result)) :
    result.event = event := by
  obtain ⟨queued, -, h⟩ := except_bind_eq_ok.mp h
  obtain ⟨deliveries, -, h⟩ := except_bind_eq_ok.mp h
  obtain ⟨-, rfl⟩ := Prod.mk.inj (Except.ok.inj h)
  rfl

/-- What an enqueue that returned has made of a document: what was queued, what was dropped for
it, and that the rest is as it was. -/
structure Enqueued (event : OutboundWebhookEvent) (limit : ℕ) (before after : OutboundWebhookStore)
    (queued dropped : List OutboundWebhookDelivery) : Prop where
  room : MakesRoom limit (before.deliveries ++ queued) after.deliveries dropped
  ended : ∀ delivery ∈ dropped, ∀ other ∈ after.deliveries, other.status.isTerminal = true →
    ∀ at_ at', delivery.completedAt = some at_ → other.completedAt = some at' →
      at_.spelling = none → at'.spelling = none → at_.time ≤ at'.time
  present : ∀ delivery ∈ queued, delivery ∈ after.deliveries
  pending : ∀ delivery ∈ queued, delivery.status = .pending ∧ delivery.event = event ∧
    delivery.eventId = event.id
  absent : ∀ delivery ∈ queued, ∀ other ∈ before.deliveries, other.pair ≠ delivery.pair
  once : (before.endpoints.map OutboundWebhookEndpoint.id).Nodup →
    (queued.map OutboundWebhookDelivery.pair).Nodup

/-- The update that queues an event, on a document that has been read. -/
theorem enqueued_of_enqueueUpdate {event : OutboundWebhookEvent} {options : EnqueueOptions}
    {limit : ℕ} {newDeliveryId : ℕ → Text} {result : EnqueueOutboundWebhookResult}
    (hevent : eventSchema event = .ok event) (hstored : store.Stored)
    (hdistinct : (store.deliveries.map OutboundWebhookDelivery.id).Nodup)
    (hinjective : Function.Injective newDeliveryId)
    (hfresh : ∀ delivery ∈ store.deliveries, ∀ i, delivery.id ≠ newDeliveryId i)
    (h : enqueueUpdate event options limit newDeliveryId store = .ok (store', result)) :
    ∃ dropped, Enqueued event limit store store'
      (newDeliveries event options newDeliveryId store) dropped := by
  obtain ⟨deliveries, hpruned, rfl, -, hparsed⟩ := enqueueUpdate_eq_ok hevent h
  have hids : ((store.deliveries ++ newDeliveries event options newDeliveryId store).map
      OutboundWebhookDelivery.id).Nodup := by
    rw [List.map_append, map_id_newDeliveries, List.nodup_append]
    refine ⟨hdistinct, List.nodup_range.map hinjective, ?_⟩
    rintro id hold _ hnew rfl
    obtain ⟨delivery, hdelivery, rfl⟩ := List.mem_map.mp hold
    obtain ⟨i, -, hi⟩ := List.mem_map.mp hnew
    exact hfresh delivery hdelivery i hi.symm
  have hschema : ∀ delivery ∈ store.deliveries ++ newDeliveries event options newDeliveryId store,
      deliverySchema delivery = .ok delivery := fun delivery hmem =>
    (List.mem_append.mp hmem).elim (hstored.deliveries delivery) (hparsed delivery)
  obtain ⟨dropped, hroom⟩ := makesRoom_of_pruneDeliveries hids hpruned
  have hpending : ∀ delivery ∈ newDeliveries event options newDeliveryId store,
      delivery.status = .pending ∧ delivery.event = event ∧ delivery.eventId = event.id := by
    intro delivery hmem
    obtain ⟨endpoint, -, i, rfl⟩ := mem_newDeliveries hmem
    exact ⟨rfl, rfl, rfl⟩
  refine ⟨dropped, hroom, ?_, fun delivery hmem => ?_, hpending,
    fun delivery hmem other hother hsame => ?_, fun hendpoints => ?_⟩
  · intro delivery hdropped other hother hended at_ at' hat hat' hspelling hspelling'
    have horder := hroom.oldest delivery hdropped other hother hended
    rw [endedAt, endedAt, hat, hat', Option.getD_some, Option.getD_some] at horder
    have hbefore := hroom.rest.subset (List.mem_append_right _ hdropped)
    have hafter := hroom.order.subset hother
    exact (localeLE_iff_time_le (isoDateTimeSchema_completedAt (hschema _ hbefore) hat)
      (isoDateTimeSchema_completedAt (hschema _ hafter) hat') hspelling hspelling').mp horder
  · refine (List.mem_append.mp (hroom.rest.symm.subset (List.mem_append_right _ hmem))).resolve_right
      fun hdropped => ?_
    -- what is dropped has ended, and a new delivery is pending
    have hended := hroom.terminal delivery hdropped
    simp [(hpending delivery hmem).1, OutboundWebhookDeliveryStatus.isTerminal] at hended
  · exact absent_of_mem_newDeliveries hmem hother (Prod.mk.inj hsame)
  · refine List.Nodup.of_map Prod.snd ?_
    rw [List.map_map]
    exact nodup_endpointId_newDeliveries hendpoints

/-- Queueing an event keeps the outbox within its capacity. It removes as many deliveries as
there are too many, all of them ended and none that ended later than one that stays; every
new delivery is there, for a pair that had none. An event that cannot be queued changes
nothing. -/
theorem enqueue_keeps_capacity (input : CreateOutboundWebhookEventInput) (options : EnqueueOptions)
    (newEventId : Text) (clock : ℤ) (newDeliveryId : ℕ → Text) (store : OutboundWebhookStore)
    (hdistinct : (store.deliveries.map OutboundWebhookDelivery.id).Nodup)
    (hfresh : (OutboxCall.enqueue input options newEventId clock newDeliveryId).Fresh store) :
    match enqueueOutboundWebhookEvent input options newEventId clock newDeliveryId store with
    | (store', .error _) => store' = store
    | (store', .ok result) => ∃ before queued dropped, parseStore store = .ok before ∧
        result.deliveryIds = queued.map OutboundWebhookDelivery.id ∧
        Enqueued result.event (options.limit.getD 5000) before store' queued dropped := by
  rcases henqueue : enqueueOutboundWebhookEvent input options newEventId clock newDeliveryId store
    with ⟨store', error | result⟩
  all_goals unfold enqueueOutboundWebhookEvent at henqueue
  · split at henqueue
    · exact (Prod.mk.inj henqueue).1.symm
    · split at henqueue
      · exact (Prod.mk.inj henqueue).1.symm
      · exact exec_error henqueue
  · split at henqueue
    · simp at henqueue
    · next event hcreated =>
        split at henqueue
        · simp at henqueue
        · next limit hlimit =>
            obtain ⟨occurredAt, -, hcreated⟩ := except_bind_eq_ok.mp hcreated
            have hevent := (eventSchema_eq_ok hcreated).2.2.2.2.2
            obtain ⟨before, hread, hupdate, -⟩ := JsonFileStore.exec_of_ok _ henqueue
            have hids := map_id_deliveries_of_parse hread
            have hnew : ∀ delivery ∈ before.deliveries, ∀ i, delivery.id ≠ newDeliveryId i := by
              intro delivery hmem i
              obtain ⟨other, hother, hid⟩ := List.mem_map.mp (hids ▸ List.mem_map_of_mem hmem)
              exact hid ▸ hfresh.2 other hother i
            obtain ⟨dropped, henqueued⟩ := enqueued_of_enqueueUpdate hevent (stored_of_parse hread)
              (hids ▸ hdistinct) hfresh.1 hnew hupdate
            obtain ⟨-, -, -, hdeliveryIds, -⟩ := enqueueUpdate_eq_ok hevent hupdate
            refine ⟨before, _, dropped, hread, hdeliveryIds, ?_⟩
            rw [event_of_enqueueUpdate hupdate, ← limit_of_resolveStoreLimit hlimit]
            exact henqueued

end Enqueue

/-! ## Samples -/

/-- An event for the sample endpoint, queued under a limit. -/
def enqueueWithin (limit : ℕ) (store : OutboundWebhookStore) :
    OutboundWebhookStore × Except WebhookError EnqueueOutboundWebhookResult :=
  enqueueOutboundWebhookEvent { type := .webhookTest, source := .webhook }
    { limit := some limit, now := 0 } "44444444-4444-4444-8444-444444444444" 0 sampleDeliveryId store

/-- A delivery of another event that has ended. -/
def endedDelivery (id : Text) (at_ : DateTime) : OutboundWebhookDelivery :=
  { sampleClaim with
    id
    eventId := "77777777-7777-4777-8777-777777777777"
    status := .succeeded
    completedAt := some at_
    leaseToken := none
    leaseExpiresAt := none }

def otherEndpoint : OutboundWebhookEndpoint :=
  { sampleEndpoint with id := "55555555-5555-4555-8555-555555555555" }

/-- A delivery of an earlier event that waits. -/
def waitingDelivery (i : ℕ) : OutboundWebhookDelivery :=
  { sampleClaim with
    id := ("88888888-8888-4888-8888-8888888888" : Text) ++ padded 2 i
    eventId := "77777777-7777-4777-8777-777777777777"
    status := .pending
    leaseToken := none
    leaseExpiresAt := none }

/-- A full outbox in which two deliveries have ended, the later one of them of the event
that is queued next. -/
def fullOutbox : OutboundWebhookStore where
  endpoints := [sampleEndpoint, otherEndpoint]
  deliveries :=
    { endedDelivery "99999999-9999-4999-8999-999999999991" { time := 2000 } with
      eventId := "44444444-4444-4444-8444-444444444444" } ::
      endedDelivery "99999999-9999-4999-8999-999999999992" { time := 1000 } ::
      (List.range 98).map waitingDelivery

theorem fresh_fullOutbox : (OutboxCall.enqueue { type := .webhookTest, source := .webhook }
    { limit := some 100, now := 0 } "44444444-4444-4444-8444-444444444444" 0
    sampleDeliveryId).Fresh fullOutbox := by
  have hheads : ∀ delivery ∈ fullOutbox.deliveries,
      delivery.id.head? = some 56 ∨ delivery.id.head? = some 57 := by decide +kernel
  refine ⟨sampleDeliveryId_injective, fun delivery hmem i hid => ?_⟩
  have hhead : (sampleDeliveryId i).head? = some 50 := rfl
  rw [← hid] at hhead
  rcases hheads delivery hmem with h | h
  · rw [h] at hhead
    cases hhead
  · rw [h] at hhead
    cases hhead

/-- The event goes to the endpoint that has no delivery of it yet, and of the two deliveries
that have ended the earlier one makes room. -/
theorem enqueue_keeps_capacity_sample :
    ∃ store' result, enqueueWithin 100 fullOutbox = (store', .ok result) ∧
      (result.queuedDeliveries, result.duplicateDeliveries) = (1, 1) ∧
      (store'.deliveries.filter (·.status.isTerminal)).map (·.completedAt.map (·.time)) =
        [some 2000] ∧
      ∃ before queued dropped, parseStore fullOutbox = .ok before ∧
        result.deliveryIds = queued.map OutboundWebhookDelivery.id ∧
        Enqueued result.event 100 before store' queued dropped := by
  -- The last three characters tell the identifiers apart.
  have hdistinct : (fullOutbox.deliveries.map OutboundWebhookDelivery.id).Nodup := by
    refine List.Nodup.of_map
      (fun id => (id.drop 33).foldl (fun number unit => 10 * number + unit) 0) ?_
    decide +kernel
  have hfresh := fresh_fullOutbox
  have hqueued : (enqueueWithin 100 fullOutbox).2.toOption.map
      (fun result => (result.queuedDeliveries, result.duplicateDeliveries)) = some (1, 1) := by
    decide +kernel
  have hended : ((enqueueWithin 100 fullOutbox).1.deliveries.filter (·.status.isTerminal)).map
      (·.completedAt.map (·.time)) = [some 2000] := by
    decide +kernel
  generalize fullOutbox = store at *
  have hkept := enqueue_keeps_capacity { type := .webhookTest, source := .webhook }
    { limit := some 100, now := 0 } "44444444-4444-4444-8444-444444444444" 0 sampleDeliveryId
    store hdistinct hfresh
  rcases henqueue : enqueueWithin 100 store with ⟨store', error | result⟩
  · rw [henqueue] at hqueued
    cases hqueued
  · rw [henqueue] at hqueued hended
    rw [enqueueWithin] at henqueue
    rw [henqueue] at hkept
    exact ⟨store', result, rfl, Option.some.inj hqueued, hended, hkept⟩

/-- A full outbox whose deliveries all carry one identifier. -/
def repeatedOutbox : OutboundWebhookStore where
  endpoints := [sampleEndpoint]
  deliveries := List.replicate 100 (endedDelivery (sampleDeliveryId 9) { time := 0 })

/-- A full outbox in which two deliveries have ended, one of them by a clock in another zone. -/
def zonedOutbox : OutboundWebhookStore where
  endpoints := [sampleEndpoint]
  deliveries :=
    endedDelivery (sampleDeliveryId 8)
        { time := 10800000, spelling := some "1970-01-01T12:00:00+09:00" } ::
      endedDelivery (sampleDeliveryId 9) { time := 14400000 } ::
      (List.range 98).map waitingDelivery

/-- Where one delivery too many has to go, all that share its identifier go with it; and of two
that ended, the one that goes is the one whose text comes first, not the one that ended first. -/
theorem enqueue_drops_more :
    (repeatedOutbox.deliveries.length = 100 ∧ (enqueueWithin 100 repeatedOutbox).2.isOk = true ∧
      (enqueueWithin 100 repeatedOutbox).1.deliveries.length = 1) ∧
    ((enqueueWithin 100 zonedOutbox).2.isOk = true ∧
      (zonedOutbox.deliveries.filter (·.status.isTerminal)).map (·.completedAt.map (·.time)) =
        [some 10800000, some 14400000] ∧
      ((enqueueWithin 100 zonedOutbox).1.deliveries.filter (·.status.isTerminal)).map
        (·.completedAt.map (·.time)) = [some 10800000]) := by
  decide +kernel

end ListmonkOps.Webhook
