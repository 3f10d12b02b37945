/-
Replays of dead letters and the dry runs that announce them.

A dry run shows the ids of the dead letters it is about, and a caller replays with the
same arguments or with those ids. Between the two selections there is a sort, a limit
and a set of ids; and a dead letter whose endpoint is gone or disabled is shown, but
cannot be queued again. The replay queues all the others, and no more than was shown.
-/

import ListmonkOps.Webhook.Invariant

namespace ListmonkOps.Webhook

open ListmonkOps.Math ListmonkOps.Runtime

/-! ## One replay -/

def OutboundWebhookDelivery.requeuedAt (now : ℤ) (delivery : OutboundWebhookDelivery) :
    OutboundWebhookDelivery :=
  { delivery with
    status := .pending
    attemptCount := 0
    manualRetryCount := delivery.manualRetryCount + 1
    nextAttemptAt := { time := now }
    lastAttemptAt := none
    completedAt := none
    statusCode := none
    lastError := none
    leaseToken := none
    leaseExpiresAt := none }

/-- The dead letters of a selection that can be queued again. -/
def replayable (store : OutboundWebhookStore) (selected : List OutboundWebhookDelivery) :
    List OutboundWebhookDelivery :=
  selected.filter (endpointEnabled store.endpoints)

/-- The dead letters of a selection whose endpoint is gone or disabled. -/
def unreachable (store : OutboundWebhookStore) (selected : List OutboundWebhookDelivery) :
    List OutboundWebhookDelivery :=
  selected.filter fun delivery => !endpointEnabled store.endpoints delivery

/-- The report of a replay of a selection. -/
def replayReport (store : OutboundWebhookStore) (selected : List OutboundWebhookDelivery) :
    ReplayResult where
  eligible := selected.length
  replayed := (replayable store selected).length
  failed := (unreachable store selected).length
  dryRun := false
  deliveryIds := (replayable store selected).map (·.id)
  errors := (unreachable store selected).map (·.id)

/-- The outbox after the deliveries with these ids were queued again. -/
def OutboundWebhookStore.requeue (store : OutboundWebhookStore) (now : ℤ) (ids : List Text) :
    OutboundWebhookStore :=
  { store with
    deliveries := store.deliveries.map fun delivery =>
      if delivery.id ∈ ids then delivery.requeuedAt now else delivery }

section Selection

variable {options : ReplayOptions} {limit : ℕ} {store : OutboundWebhookStore}

theorem mem_selectDeadLetters {delivery : OutboundWebhookDelivery}
    (h : delivery ∈ selectDeadLetters options limit store.deliveries) :
    delivery ∈ store.deliveries ∧ isDeadLetter options delivery = true := by
  unfold selectDeadLetters at h
  split at h
  · exact List.mem_filter.mp ((List.mem_insertionSort _).mp (List.mem_of_mem_take h))
  · obtain ⟨hmem, hdead⟩ := List.mem_filter.mp h
    exact ⟨hmem, (Bool.and_eq_true_iff.mp hdead).2⟩

theorem id_mem_map_iff (hdistinct : store.Distinct) {deliveries : List OutboundWebhookDelivery}
    {delivery : OutboundWebhookDelivery} (hmem : ∀ other ∈ deliveries, other ∈ store.deliveries)
    (hdelivery : delivery ∈ store.deliveries) :
    delivery.id ∈ deliveries.map (·.id) ↔ delivery ∈ deliveries := by
  refine ⟨fun h => ?_, List.mem_map_of_mem⟩
  obtain ⟨other, hother, hid⟩ := List.mem_map.mp h
  exact List.inj_on_of_nodup_map hdistinct.deliveries (hmem other hother) hdelivery hid ▸ hother

/-- No delivery is selected twice. -/
theorem nodup_selectDeadLetters (hdistinct : store.Distinct) :
    ((selectDeadLetters options limit store.deliveries).map OutboundWebhookDelivery.id).Nodup := by
  unfold selectDeadLetters
  split
  · have hfiltered := hdistinct.deliveries.sublist
      (List.Sublist.map OutboundWebhookDelivery.id (List.filter_sublist (p := isDeadLetter options)))
    have hsorted := ((List.perm_insertionSort (fun left right : OutboundWebhookDelivery =>
      right.nextAttemptAt.LocaleLE left.nextAttemptAt)
        (store.deliveries.filter (isDeadLetter options))).map
          OutboundWebhookDelivery.id).nodup_iff.mpr hfiltered
    exact hsorted.sublist ((List.take_sublist _ _).map _)
  · exact hdistinct.deliveries.sublist (List.Sublist.map _ List.filter_sublist)

/-- The ids that were shown select what was shown, whatever the limit was. -/
theorem selectDeadLetters_echo {echoLimit : ℕ} (hdistinct : store.Distinct) (dryRun : Option Bool)
    (requested : Option ℕ) (now : ℤ) :
    (selectDeadLetters { options with
      deliveryIds := some ((selectDeadLetters options limit store.deliveries).map (·.id))
      limit := requested
      dryRun := dryRun
      now := now } echoLimit store.deliveries).Perm
        (selectDeadLetters options limit store.deliveries) := by
  refine (List.perm_ext_iff_of_nodup ?_ ?_).mpr fun delivery => ?_
  · exact List.Nodup.of_map _ (nodup_selectDeadLetters hdistinct)
  · exact List.Nodup.of_map _ (nodup_selectDeadLetters hdistinct)
  · constructor
    · intro h
      obtain ⟨hmem, hshown⟩ := List.mem_filter.mp h
      obtain ⟨shown, hselected, hid⟩ := List.mem_map.mp
        (of_decide_eq_true (Bool.and_eq_true_iff.mp hshown).1)
      have hsame := List.inj_on_of_nodup_map hdistinct.deliveries
        (mem_selectDeadLetters hselected).1 hmem hid
      exact hsame ▸ hselected
    · intro h
      obtain ⟨hmem, hdead⟩ := mem_selectDeadLetters h
      refine List.mem_filter.mpr ⟨hmem, Bool.and_eq_true_iff.mpr ⟨decide_eq_true ?_, hdead⟩⟩
      exact List.mem_map_of_mem h

end Selection

/-! ## What a replay does -/

section Replay

variable {options : ReplayOptions} {store store' : OutboundWebhookStore} {result : ReplayResult}

theorem replay_dry (hstored : store.Stored) (hdry : options.dryRun.getD true = true)
    (h : (replayOutboundWebhookDeadLetters options store).2 = .ok result) :
    (replayOutboundWebhookDeadLetters options store).1 = store ∧
      ∃ limit, resolveMaintenanceLimit options.limit = .ok limit ∧
        result.eligible = (selectDeadLetters options limit store.deliveries).length ∧
        result.deliveryIds = (selectDeadLetters options limit store.deliveries).map (·.id) := by
  rw [replayOutboundWebhookDeadLetters] at h ⊢
  cases hlimit : resolveMaintenanceLimit options.limit with
  | error error =>
      rw [hlimit] at h
      cases h
  | ok limit =>
      simp only [hlimit] at h ⊢
      rcases hexec : createOutboundWebhookStore.exec _ store with ⟨store', outcome⟩
      rw [hexec] at h
      obtain rfl : outcome = .ok result := h
      obtain ⟨hupdate, -⟩ := exec_ok hstored hexec
      rw [if_pos hdry] at hupdate
      obtain ⟨rfl, rfl⟩ := Prod.mk.inj (Except.ok.inj hupdate)
      exact ⟨rfl, limit, rfl, rfl, rfl⟩

theorem requeued_eq_requeuedAt {delivery next : OutboundWebhookDelivery} {now : ℤ}
    (hstored : store.Stored) (hmem : delivery ∈ store.deliveries)
    (h : requeued delivery now = .ok next) : next = delivery.requeuedAt now :=
  requeued_eq_ok (hstored.event hmem) h

theorem map_id_requeuedAt {now : ℤ} {deliveries : List OutboundWebhookDelivery} :
    (deliveries.map (·.requeuedAt now)).map OutboundWebhookDelivery.id =
      deliveries.map OutboundWebhookDelivery.id := by
  rw [List.map_map]
  exact List.map_congr_left fun _ _ => rfl

theorem map_id_requeue (store : OutboundWebhookStore) (now : ℤ) (ids : List Text) :
    (store.requeue now ids).deliveries.map OutboundWebhookDelivery.id =
      store.deliveries.map OutboundWebhookDelivery.id := by
  rw [OutboundWebhookStore.requeue, List.map_map]
  refine List.map_congr_left fun delivery _ => ?_
  by_cases h : delivery.id ∈ ids
  · simp only [Function.comp_apply, if_pos h]
    rfl
  · simp only [Function.comp_apply, if_neg h]

/-- Putting requeued deliveries in the places of the old ones requeues those. -/
theorem substitute_requeuedAt (hdistinct : store.Distinct) {now : ℤ}
    {available : List OutboundWebhookDelivery} (hmem : ∀ delivery ∈ available,
      delivery ∈ store.deliveries) (hnodup : (available.map OutboundWebhookDelivery.id).Nodup) :
    (Table.ofList OutboundWebhookDelivery.id (available.map (·.requeuedAt now))).substitute
        store.deliveries =
      (store.requeue now (available.map (·.id))).deliveries := by
  have hentries : (Table.ofList OutboundWebhookDelivery.id
      (available.map (·.requeuedAt now))).entries = available.map (·.requeuedAt now) :=
    Table.entries_ofList (by rwa [map_id_requeuedAt])
  refine List.map_congr_left fun delivery hdelivery => ?_
  by_cases hid : delivery.id ∈ available.map (·.id)
  · obtain ⟨other, hother, hsame⟩ := List.mem_map.mp hid
    obtain rfl := List.inj_on_of_nodup_map hdistinct.deliveries (hmem other hother) hdelivery hsame
    have hget : (Table.ofList OutboundWebhookDelivery.id (available.map (·.requeuedAt now))).get?
        other.id = some (other.requeuedAt now) := by
      refine Table.get?_eq_some_iff.mpr ⟨?_, rfl⟩
      rw [hentries]
      exact List.mem_map_of_mem hother
    rw [hget, if_pos hid]
    rfl
  · have hget : (Table.ofList OutboundWebhookDelivery.id (available.map (·.requeuedAt now))).get?
        delivery.id = none := by
      refine Table.get?_eq_none_iff.mpr fun next hnext hsame => hid ?_
      rw [hentries] at hnext
      obtain ⟨other, hother, rfl⟩ := List.mem_map.mp hnext
      exact List.mem_map.mpr ⟨other, hother, hsame⟩
    rw [hget, if_neg hid]
    rfl

theorem replay_deliberate (hstored : store.Stored) (hdistinct : store.Distinct)
    (hdry : options.dryRun.getD true = false)
    (h : replayOutboundWebhookDeadLetters options store = (store', .ok result)) :
    ∃ limit, resolveMaintenanceLimit options.limit = .ok limit ∧
      result = replayReport store (selectDeadLetters options limit store.deliveries) ∧
      store' = store.requeue options.now result.deliveryIds := by
  rw [replayOutboundWebhookDeadLetters] at h
  cases hlimit : resolveMaintenanceLimit options.limit with
  | error error =>
      rw [hlimit] at h
      cases congrArg Prod.snd h
  | ok limit =>
      simp only [hlimit] at h
      obtain ⟨hupdate, -⟩ := exec_ok hstored h
      rw [if_neg (by rw [hdry]; exact Bool.false_ne_true)] at hupdate
      obtain ⟨news, hnews, hupdate⟩ := except_bind_eq_ok.mp hupdate
      set selected := selectDeadLetters options limit store.deliveries with hselected
      have hmem : ∀ delivery ∈ replayable store selected, delivery ∈ store.deliveries :=
        fun delivery h => (mem_selectDeadLetters (List.mem_filter.mp h).1).1
      have hnodup : ((replayable store selected).map OutboundWebhookDelivery.id).Nodup :=
        (nodup_selectDeadLetters hdistinct).sublist (List.Sublist.map _ List.filter_sublist)
      obtain rfl : news = (replayable store selected).map (·.requeuedAt options.now) := by
        have hforall := (List.forall₂_and_left _ _).mpr ⟨hmem, mapM_eq_ok_iff.mp hnews⟩
        refine (List.forall₂_eq_eq_eq ▸ (List.forall₂_map_left_iff.mpr ?_) : _ = news).symm
        exact hforall.imp fun delivery next h => (requeued_eq_requeuedAt hstored h.1 h.2).symm
      have hentries : (Table.ofList OutboundWebhookDelivery.id
          ((replayable store selected).map (·.requeuedAt options.now))).entries =
            (replayable store selected).map (·.requeuedAt options.now) :=
        Table.entries_ofList (by rwa [map_id_requeuedAt])
      obtain ⟨rfl, rfl⟩ := Prod.mk.inj (Except.ok.inj hupdate)
      refine ⟨limit, rfl, ?_, ?_⟩
      · simp only [Table.size, hentries, map_id_requeuedAt, List.length_map]
        rfl
      · rw [hentries, map_id_requeuedAt, substitute_requeuedAt hdistinct hmem hnodup]
        rfl

theorem replay_unreachable {limit : ℕ} (hstored : store.Stored)
    (hdry : options.dryRun.getD true = false)
    (hlimit : resolveMaintenanceLimit options.limit = .ok limit)
    (hnone : replayable store (selectDeadLetters options limit store.deliveries) = []) :
    replayOutboundWebhookDeadLetters options store =
      (store, .ok (replayReport store (selectDeadLetters options limit store.deliveries))) := by
  rw [replayOutboundWebhookDeadLetters]
  simp only [hlimit]
  refine JsonFileStore.exec_eq_ok _ hstored.parse ?_ hstored.parse
  have hnone' : (selectDeadLetters options limit store.deliveries).filter
      (endpointEnabled store.endpoints) = [] := hnone
  have hsame : (Table.ofList OutboundWebhookDelivery.id []).substitute store.deliveries =
      store.deliveries := by
    refine (List.map_congr_left fun delivery _ => ?_).trans (List.map_id _)
    rfl
  rw [if_neg (by rw [hdry]; exact Bool.false_ne_true), hnone', List.mapM_nil]
  change Except.ok ({ store with deliveries := _ }, _) = _
  rw [hsame, replayReport, hnone]
  rfl

theorem replay_error {error : WebhookError}
    (h : replayOutboundWebhookDeadLetters options store = (store', .error error)) :
    store' = store := by
  rw [replayOutboundWebhookDeadLetters] at h
  cases hlimit : resolveMaintenanceLimit options.limit with
  | error error' =>
      simp only [hlimit] at h
      exact (Prod.mk.inj h).1.symm
  | ok limit =>
      simp only [hlimit] at h
      exact exec_error h

theorem replayReport_perm {selected : List OutboundWebhookDelivery} :
    ((replayReport store selected).deliveryIds ++ (replayReport store selected).errors).Perm
      (selected.map (·.id)) := by
  rw [replayReport, ← List.map_append]
  exact (List.filter_append_perm _ selected).map _

end Replay

/-! ## Dry runs and replays -/

section Shown

variable {store store' : OutboundWebhookStore}
variable {options deliberate : ReplayOptions} {shown result : ReplayResult}

/-- The replays that a dry run announces: with its own arguments, or with the ids that it
showed. -/
inductive Announced (options : ReplayOptions) (shown : ReplayResult) (now : ℤ) :
    ReplayOptions → Prop
  | repeated : Announced options shown now { options with dryRun := some false, now := now }
  | echoed (limit : Option ℕ) : Announced options shown now { options with
      dryRun := some false
      now := now
      limit := limit
      deliveryIds := some shown.deliveryIds }

theorem Announced.select {now : ℤ} {limit limit' : ℕ}
    (h : Announced options shown now deliberate) (hdistinct : store.Distinct)
    (hlimit : resolveMaintenanceLimit options.limit = .ok limit)
    (hlimit' : resolveMaintenanceLimit deliberate.limit = .ok limit')
    (hshown : shown.deliveryIds = (selectDeadLetters options limit store.deliveries).map (·.id)) :
    (selectDeadLetters deliberate limit' store.deliveries).Perm
      (selectDeadLetters options limit store.deliveries) := by
  cases h with
  | repeated =>
      obtain rfl := Except.ok.inj (hlimit.symm.trans hlimit')
      exact List.Perm.refl _
  | echoed requested =>
      rw [hshown]
      exact selectDeadLetters_echo hdistinct (some false) requested now

/-- Once what was shown has been queued again, the ids that were shown select only what
cannot be. -/
theorem select_after_requeue (options : ReplayOptions) (now now' : ℤ)
    {limit : ℕ} (limit' : ℕ) (requested : Option ℕ)
    {selected : List OutboundWebhookDelivery} (hdistinct : store.Distinct)
    (hselected : selected.Perm (selectDeadLetters options limit store.deliveries)) :
    (selectDeadLetters { options with
      dryRun := some false
      now := now'
      limit := requested
      deliveryIds := some ((selectDeadLetters options limit store.deliveries).map (·.id)) } limit'
        (store.requeue now ((replayable store selected).map (·.id))).deliveries).Perm
          (unreachable store selected) := by
  have hmem : ∀ delivery ∈ selected, delivery ∈ store.deliveries ∧ isDeadLetter options delivery :=
    fun delivery h => mem_selectDeadLetters (hselected.mem_iff.mp h)
  have hshown : ∀ delivery ∈ store.deliveries, delivery.id ∈
      (selectDeadLetters options limit store.deliveries).map (·.id) ↔ delivery ∈ selected := by
    intro delivery hdelivery
    rw [hselected.mem_iff]
    exact id_mem_map_iff hdistinct (fun other h => (mem_selectDeadLetters h).1) hdelivery
  have hnodup : selected.Nodup :=
    hselected.nodup_iff.mpr (List.Nodup.of_map _ (nodup_selectDeadLetters hdistinct))
  have hqueued : ∀ delivery ∈ selected, delivery.id ∈ (replayable store selected).map (·.id) ↔
      endpointEnabled store.endpoints delivery = true := by
    intro delivery hdelivery
    have hin : delivery.id ∈ (replayable store selected).map (·.id) ↔
        delivery ∈ replayable store selected :=
      id_mem_map_iff hdistinct (fun other h => (hmem other (List.mem_filter.mp h).1).1)
        (hmem delivery hdelivery).1
    rw [hin, replayable, List.mem_filter, and_iff_right hdelivery]
  refine (List.perm_ext_iff_of_nodup ?_ (hnodup.filter _)).mpr fun delivery => ?_
  · exact (List.Nodup.of_map _ (map_id_requeue _ _ _ ▸ hdistinct.deliveries)).filter _
  · constructor
    · intro h
      obtain ⟨hdelivery, hchosen⟩ := List.mem_filter.mp h
      obtain ⟨hrequested, hdead⟩ := Bool.and_eq_true_iff.mp hchosen
      obtain ⟨old, hold, rfl⟩ := List.mem_map.mp hdelivery
      by_cases hid : old.id ∈ (replayable store selected).map (·.id)
      · rw [if_pos hid] at hdead
        cases hdead
      · rw [if_neg hid] at hrequested ⊢
        have hin := (hshown old hold).mp (of_decide_eq_true hrequested)
        refine List.mem_filter.mpr ⟨hin, ?_⟩
        simpa using fun henabled => hid ((hqueued old hin).mpr henabled)
    · intro h
      obtain ⟨hin, hdisabled⟩ := List.mem_filter.mp h
      obtain ⟨hdelivery, hdead⟩ := hmem delivery hin
      have hid : delivery.id ∉ (replayable store selected).map (·.id) := by
        intro hid
        rw [(hqueued delivery hin).mp hid] at hdisabled
        cases hdisabled
      refine List.mem_filter.mpr ⟨List.mem_map.mpr ⟨delivery, hdelivery, if_neg hid⟩, ?_⟩
      exact Bool.and_eq_true_iff.mpr ⟨decide_eq_true ((hshown delivery hdelivery).mpr hin), hdead⟩

/-- A replay that selects only what cannot be queued again changes nothing and reports that. -/
theorem replay_of_unreachable {after : OutboundWebhookStore} {limit : ℕ}
    {selected : List OutboundWebhookDelivery} (hstored : after.Stored)
    (hendpoints : after.endpoints = store.endpoints) (hdry : options.dryRun.getD true = false)
    (hlimit : resolveMaintenanceLimit options.limit = .ok limit)
    (hselect : (selectDeadLetters options limit after.deliveries).Perm
      (unreachable store selected)) :
    ∃ again, replayOutboundWebhookDeadLetters options after = (after, .ok again) ∧
      again.deliveryIds = [] ∧ again.errors.Perm ((unreachable store selected).map (·.id)) := by
  have hdisabled : ∀ delivery ∈ selectDeadLetters options limit after.deliveries,
      (!endpointEnabled after.endpoints delivery) = true := by
    intro delivery hdelivery
    rw [hendpoints]
    exact (List.mem_filter.mp (hselect.mem_iff.mp hdelivery)).2
  have hnone : replayable after (selectDeadLetters options limit after.deliveries) = [] :=
    List.filter_eq_nil_iff.mpr fun delivery hdelivery => by simpa using hdisabled delivery hdelivery
  have hall : unreachable after (selectDeadLetters options limit after.deliveries) =
      selectDeadLetters options limit after.deliveries := List.filter_eq_self.mpr hdisabled
  refine ⟨_, replay_unreachable hstored hdry hlimit hnone, ?_, ?_⟩
  · rw [replayReport, hnone]
    rfl
  · rw [replayReport, hall]
    exact hselect.map _

/-- A replay does what its dry run showed, after any run of the outbox. The dry run changes
nothing. The replay, with the same arguments or with the ids that were shown, either fails
and changes nothing, or it queues again exactly the deliveries that were shown and whose
endpoint is enabled, reports the others that were shown, and leaves everything else as it is.
And the ids that were shown queue nothing a second time. -/
theorem replay_as_shown [CaseMapping] [EndpointUrlPolicy] {calls : List OutboxCall} {now : ℤ}
    (hrun : Run (fun store call store' => call.Matched store ∧ OutboxCall.Step store call store') {}
      calls store)
    (hdry : options.dryRun.getD true = true)
    (hshown : (replayOutboundWebhookDeadLetters options store).2 = .ok shown)
    (hannounced : Announced options shown now deliberate) :
    (replayOutboundWebhookDeadLetters options store).1 = store ∧
      ((∃ error, replayOutboundWebhookDeadLetters deliberate store = (store, .error error)) ∨
        ∃ result, replayOutboundWebhookDeadLetters deliberate store =
            (store.requeue now result.deliveryIds, .ok result) ∧
          result.eligible = shown.eligible ∧
          (result.deliveryIds ++ result.errors).Perm shown.deliveryIds ∧
          result.replayed = result.deliveryIds.length ∧ result.failed = result.errors.length ∧
          (∀ delivery ∈ store.deliveries, delivery.id ∈ result.deliveryIds ↔
            delivery.id ∈ shown.deliveryIds ∧ endpointEnabled store.endpoints delivery = true) ∧
          ∀ later limit, (resolveMaintenanceLimit limit).isOk →
            ∃ again, replayOutboundWebhookDeadLetters { options with
                  dryRun := some false
                  now := later
                  limit := limit
                  deliveryIds := some shown.deliveryIds } (store.requeue now result.deliveryIds) =
                (store.requeue now result.deliveryIds, .ok again) ∧
              again.deliveryIds = [] ∧ again.errors.Perm result.errors) := by
  have hinv := outboxInvariant_of_run hrun
  have hdistinct := hinv.distinct
  obtain ⟨hsame, limit, hlimit, heligible, hids⟩ := replay_dry hinv.stored hdry hshown
  refine ⟨hsame, ?_⟩
  rcases hreplayed : replayOutboundWebhookDeadLetters deliberate store with ⟨store', error | result⟩
  · rw [replay_error hreplayed]
    exact .inl ⟨error, rfl⟩
  · refine .inr ⟨result, ?_⟩
    have hdeliberate : deliberate.dryRun.getD true = false ∧ deliberate.now = now := by
      cases hannounced <;> exact ⟨rfl, rfl⟩
    obtain ⟨limit', hlimit', hresult, hstore'⟩ :=
      replay_deliberate hinv.stored hinv.distinct hdeliberate.1 hreplayed
    rw [hdeliberate.2] at hstore'
    subst hstore'
    have hselected := hannounced.select hinv.distinct hlimit hlimit' hids
    set selected := selectDeadLetters deliberate limit' store.deliveries with hdef
    have hmem : ∀ delivery ∈ selected, delivery ∈ store.deliveries :=
      fun delivery h => (mem_selectDeadLetters h).1
    refine ⟨rfl, ?_, ?_, ?_, ?_, ?_, ?_⟩
    · rw [hresult, heligible]
      exact hselected.length_eq
    · rw [hids, hresult]
      exact replayReport_perm.trans (hselected.map _)
    · simp [hresult, replayReport]
    · simp [hresult, replayReport]
    · intro delivery hdelivery
      have hqueued : delivery.id ∈ (replayable store selected).map (·.id) ↔
          delivery ∈ replayable store selected :=
        id_mem_map_iff hdistinct (fun other h => hmem other (List.mem_filter.mp h).1) hdelivery
      have hin : delivery.id ∈ (selectDeadLetters options limit store.deliveries).map (·.id) ↔
          delivery ∈ selectDeadLetters options limit store.deliveries :=
        id_mem_map_iff hdistinct (fun other h => (mem_selectDeadLetters h).1) hdelivery
      rw [hids, hin, ← hselected.mem_iff, hresult]
      exact hqueued.trans List.mem_filter
    · intro later requested hrequested
      obtain ⟨limit'', hlimit''⟩ : ∃ limit'', resolveMaintenanceLimit requested = .ok limit'' := by
        cases hresolved : resolveMaintenanceLimit requested with
        | ok limit'' => exact ⟨limit'', rfl⟩
        | error error =>
            rw [hresolved] at hrequested
            cases hrequested
      have hafter : OutboxInvariant (store.requeue now result.deliveryIds) := by
        have hstep : OutboxCall.Step store (.replay deliberate)
            (store.requeue now result.deliveryIds) :=
          ⟨trivial, (congrArg Prod.fst hreplayed).symm⟩
        have hmatched : OutboxCall.Matched store (.replay deliberate) := trivial
        exact hinv.step hmatched hstep
      have hselect := select_after_requeue options now later limit'' requested hdistinct hselected
      have hqueuedIds : result.deliveryIds = (replayable store selected).map (·.id) := by
        rw [hresult]
        rfl
      rw [← hids, ← hqueuedIds] at hselect
      have herrors : result.errors = (unreachable store selected).map (·.id) := by
        rw [hresult]
        rfl
      rw [herrors]
      exact replay_of_unreachable hafter.stored rfl rfl hlimit'' hselect

def giveUpSample : OutboxCall :=
  .complete sampleClaim { success := false, retryable := false } (some sampleEndpoint)
    { now := 2000, baseRetryDelayMs := 30000 }

/-- After a delivery was given up, a dry run of its replay leaves it as it is, and the
replay queues it again. -/
theorem replay_as_shown_sample :
    letI := asciiCaseMapping
    letI := plainUrlPolicy
    let store := performAll
      [createSample, enqueueSample, claimSample 1000 sampleToken, giveUpSample]
    store.deliveries.map (·.status) = [.exhausted] ∧
      (replayOutboundWebhookDeadLetters { now := 3000 } store).1 = store ∧
      ∃ result, replayOutboundWebhookDeadLetters { dryRun := some false, now := 4000 } store =
          (store.requeue 4000 result.deliveryIds, .ok result) ∧
        result.deliveryIds = [sampleDeliveryId 0] ∧
        (store.requeue 4000 result.deliveryIds).deliveries.map (·.status) = [.pending] := by
  let := asciiCaseMapping
  let := plainUrlPolicy
  have hrun : Run (fun store call store' => call.Matched store ∧ OutboxCall.Step store call store') {}
      ([] ++ [createSample] ++ [enqueueSample] ++ [claimSample 1000 sampleToken] ++ [giveUpSample])
      (performAll [createSample, enqueueSample, claimSample 1000 sampleToken, giveUpSample]) :=
    .snoc run_claimSample ⟨matched_sampleClaim _ _, trivial, rfl⟩
  obtain ⟨hstatus, hok, hids, hpending⟩ : (performAll [createSample, enqueueSample,
        claimSample 1000 sampleToken, giveUpSample]).deliveries.map (·.status) = [.exhausted] ∧
      (replayOutboundWebhookDeadLetters { now := 3000 } (performAll [createSample, enqueueSample,
        claimSample 1000 sampleToken, giveUpSample])).2.isOk = true ∧
      (replayOutboundWebhookDeadLetters { dryRun := some false, now := 4000 } (performAll
        [createSample, enqueueSample, claimSample 1000 sampleToken,
          giveUpSample])).2.toOption.map (·.deliveryIds) = some [sampleDeliveryId 0] ∧
      ((performAll [createSample, enqueueSample, claimSample 1000 sampleToken,
        giveUpSample]).requeue 4000 [sampleDeliveryId 0]).deliveries.map (·.status) =
        [.pending] := by
    decide +kernel
  refine ⟨hstatus, ?_⟩
  cases hshown : (replayOutboundWebhookDeadLetters { now := 3000 } (performAll [createSample,
      enqueueSample, claimSample 1000 sampleToken, giveUpSample])).2 with
  | error error =>
      rw [hshown] at hok
      cases hok
  | ok shown =>
      have hannounced : Announced { now := 3000 } shown 4000 _ := .repeated
      obtain ⟨hsame, ⟨error, hfailed⟩ | ⟨result, hreplayed, -⟩⟩ :=
        replay_as_shown hrun rfl hshown hannounced
      · rw [hfailed] at hids
        cases hids
      · rw [hreplayed] at hids
        have hids : result.deliveryIds = [sampleDeliveryId 0] := Option.some.inj hids
        exact ⟨hsame, result, hreplayed, hids, hids ▸ hpending⟩

end Shown

end ListmonkOps.Webhook
