/-
The law of the circuit breaker.

A circuit follows the completions that were committed for its endpoint: it
counts the failures since the last success or reset, and it is open once there
were as many of them as the endpoint tolerates. Completions work with the
endpoint as it was when the delivery was claimed, so the law needs that the
threshold and the cooldown of an endpoint stay as they are.
-/

import ListmonkOps.Webhook.Attempts

namespace ListmonkOps.Webhook

open ListmonkOps.Math ListmonkOps.Runtime

/-! ## What counts -/

/-- What moves the circuit of an endpoint. -/
inductive CircuitEvent where
  | failure (at_ : ℤ)
  | success
  | reset

def CircuitEvent.count (failures : List ℤ) : CircuitEvent → List ℤ
  | .failure at_ => at_ :: failures
  | .success | .reset => []

/-- The times of the failures since the last success or reset, the latest first. -/
def failuresSince (events : List CircuitEvent) : List ℤ := events.foldl CircuitEvent.count []

/-- The circuit events that a call commits, with the endpoint of each. A failure counts
unless the endpoint was disabled when the delivery was claimed. -/
def OutboxCall.circuitEvents (store : OutboundWebhookStore) :
    OutboxCall → List (Text × CircuitEvent)
  | .complete claimed result endpoint options =>
      match (completeOutboundWebhookDelivery claimed result endpoint options store).2 with
      | .ok delivery =>
          if result.success then [(delivery.endpointId, .success)]
          else if endpoint.all (·.enabled) then [(delivery.endpointId, .failure options.now)]
          else []
      | .error _ => []
  | .resetCircuit endpointId =>
      match (resetOutboundWebhookEndpointCircuit endpointId store).2 with
      | .ok _ => [(endpointId, .reset)]
      | .error _ => []
  | _ => []

def OutboxCall.deletes (store : OutboundWebhookStore) : OutboxCall → List Text
  | .deleteEndpoint id now =>
      match (deleteOutboundWebhookEndpoint id now store).2 with
      | .ok _ => [id]
      | .error _ => []
  | _ => []

/-- A call leaves the threshold and the cooldown of the endpoints as they are. -/
def OutboxCall.KeepsCircuit (store : OutboundWebhookStore) : OutboxCall → Prop
  | .updateEndpoint id input _ => ∀ endpoint ∈ store.endpoints, endpoint.id = id →
      input.circuitFailureThreshold.getD endpoint.circuitFailureThreshold =
        endpoint.circuitFailureThreshold ∧
      input.circuitCooldownMs.getD endpoint.circuitCooldownMs = endpoint.circuitCooldownMs
  | _ => True

/-- An outbox with what has happened to its circuits and endpoints. -/
structure CircuitHistory where
  outbox : ClaimedOutbox := {}
  events : List (Text × CircuitEvent) := []
  deleted : List Text := []

/-- The failures that count for an endpoint. -/
def CircuitHistory.failures (history : CircuitHistory) (endpointId : Text) : List ℤ :=
  failuresSince ((history.events.filter (·.1 = endpointId)).map Prod.snd)

/-- The circuit of an endpoint; one that has not delivered yet has a closed one. -/
def circuitOf (runtimes : List OutboundWebhookEndpointRuntime) (endpointId : Text) :
    OutboundWebhookEndpointRuntime :=
  (runtimes.find? fun runtime => runtime.endpointId = endpointId).getD (closedCircuit endpointId)

/-- A circuit agrees with the failures that count: their number, whether it is open, and until
when. -/
structure Follows (endpoint : OutboundWebhookEndpoint) (failures : List ℤ)
    (runtime : OutboundWebhookEndpointRuntime) : Prop where
  count : runtime.consecutiveFailures = failures.length
  state : runtime.circuitState = .open ↔ endpoint.circuitFailureThreshold ≤ failures.length
  openUntil : runtime.circuitOpenUntil =
    if endpoint.circuitFailureThreshold ≤ failures.length then
      failures.head?.map fun at_ => { time := at_ + endpoint.circuitCooldownMs }
    else none

section Steps

variable [CaseMapping] [EndpointUrlPolicy]

/-- The outbox and its history after a call. -/
def CircuitHistory.perform (history : CircuitHistory) (call : OutboxCall) : CircuitHistory where
  outbox := history.outbox.perform call
  events := history.events ++ call.circuitEvents history.outbox.store
  deleted := history.deleted ++ call.deletes history.outbox.store

/-- One call: identifiers are new, completions are of claims as they were handed out, and
updates keep the threshold and the cooldown. -/
structure CircuitHistory.Step (history : CircuitHistory) (call : OutboxCall)
    (history' : CircuitHistory) : Prop where
  new : call.New history.outbox
  unused : ∀ input newId now, call = .createEndpoint input newId now → newId ∉ history.deleted
  handed : call.Handed history.outbox.granted
  keeps : call.KeepsCircuit history.outbox.store
  next : history' = history.perform call

end Steps

/-! ## One circuit -/

section Circuits

variable {endpoint named : OutboundWebhookEndpoint} {failures : List ℤ}
  {runtime previous next : OutboundWebhookEndpointRuntime}
  {runtimes runtimes' : List OutboundWebhookEndpointRuntime} {endpointId : Text} {success : Bool}
  {now : ℤ}

@[simp]
theorem failuresSince_append (events : List CircuitEvent) (event : CircuitEvent) :
    failuresSince (events ++ [event]) = event.count (failuresSince events) := by
  simp [failuresSince]

theorem follows_nil (hthreshold : 0 < endpoint.circuitFailureThreshold)
    (hcount : runtime.consecutiveFailures = 0) (hstate : runtime.circuitState = .closed)
    (huntil : runtime.circuitOpenUntil = none) : Follows endpoint [] runtime := by
  have hnot : ¬ endpoint.circuitFailureThreshold ≤ ([] : List ℤ).length :=
    not_le.mpr hthreshold
  exact ⟨hcount, by simp [hstate, hthreshold.ne'], by rw [huntil, if_neg hnot]⟩

theorem Follows.attempt (h : Follows endpoint failures previous)
    (hthreshold : named.circuitFailureThreshold = endpoint.circuitFailureThreshold)
    (hcooldown : named.circuitCooldownMs = endpoint.circuitCooldownMs)
    (hpos : 0 < endpoint.circuitFailureThreshold)
    (hnext : runtimeAfterAttempt previous named success now = .ok next) :
    Follows endpoint (if success then [] else now :: failures) next := by
  obtain ⟨at_, -, hnext⟩ := except_bind_eq_ok.mp hnext
  obtain ⟨circuitOpenUntil, huntil, hnext⟩ := except_bind_eq_ok.mp hnext
  obtain rfl := nowIsoWhen_eq_ok huntil
  rw [endpointRuntimeSchema_eq_ok hnext]
  cases success with
  | true => exact follows_nil hpos rfl rfl rfl
  | false =>
      refine ⟨?_, ?_, ?_⟩
      · simp [h.count]
      · simp [h.count, hthreshold]
      · simp [h.count, hthreshold, hcooldown]

theorem circuitOf_of_mem (hdistinct : (runtimes.map OutboundWebhookEndpointRuntime.endpointId).Nodup)
    (hmem : runtime ∈ runtimes) : circuitOf runtimes runtime.endpointId = runtime := by
  rw [circuitOf, (find?_key_eq_some_iff hdistinct).mpr ⟨hmem, rfl⟩, Option.getD_some]

theorem circuitOf_of_absent (habsent : ∀ runtime ∈ runtimes, runtime.endpointId ≠ endpointId) :
    circuitOf runtimes endpointId = closedCircuit endpointId := by
  rw [circuitOf, find?_key_eq_none_iff.mpr habsent, Option.getD_none]

theorem circuitOf_congr (hdistinct : (runtimes.map OutboundWebhookEndpointRuntime.endpointId).Nodup)
    (hdistinct' : (runtimes'.map OutboundWebhookEndpointRuntime.endpointId).Nodup)
    (h : ∀ runtime, runtime.endpointId = endpointId → (runtime ∈ runtimes' ↔ runtime ∈ runtimes)) :
    circuitOf runtimes' endpointId = circuitOf runtimes endpointId := by
  by_cases hpresent : ∃ runtime ∈ runtimes, runtime.endpointId = endpointId
  · obtain ⟨runtime, hmem, rfl⟩ := hpresent
    rw [circuitOf_of_mem hdistinct hmem, circuitOf_of_mem hdistinct' ((h runtime rfl).mpr hmem)]
  · push Not at hpresent
    rw [circuitOf_of_absent hpresent, circuitOf_of_absent fun runtime hmem hid =>
      hpresent runtime ((h runtime hid).mp hmem) hid]

/-- Until when the circuit of an endpoint is open, as a claim looks it up. -/
theorem circuitOpenUntil_of_open {openUntil : DateTime}
    (hdistinct : (runtimes.map OutboundWebhookEndpointRuntime.endpointId).Nodup)
    (hopen : (circuitOf runtimes endpointId).circuitState = .open)
    (huntil : (circuitOf runtimes endpointId).circuitOpenUntil = some openUntil) :
    circuitOpenUntil runtimes endpointId = some openUntil.time := by
  by_cases hpresent : ∃ runtime ∈ runtimes, runtime.endpointId = endpointId
  · obtain ⟨runtime, hmem, rfl⟩ := hpresent
    rw [circuitOf_of_mem hdistinct hmem] at hopen huntil
    have hfound : (runtimes.reverse.find? fun other => other.endpointId = runtime.endpointId &&
        other.circuitState = .open && other.circuitOpenUntil.isSome).isSome :=
      List.find?_isSome.mpr ⟨runtime, List.mem_reverse.mpr hmem, by simp [hopen, huntil]⟩
    obtain ⟨other, hother⟩ := Option.isSome_iff_exists.mp hfound
    have hsame := List.find?_some hother
    simp only [Bool.and_eq_true, decide_eq_true_eq] at hsame
    obtain rfl := List.inj_on_of_nodup_map hdistinct
      (List.mem_reverse.mp (List.mem_of_find?_eq_some hother)) hmem hsame.1.1
    simp [circuitOpenUntil, hother, huntil]
  · push Not at hpresent
    rw [circuitOf_of_absent hpresent] at hopen
    simp [closedCircuit] at hopen

/-- What an attempt makes of the circuits: nothing for a failure at a disabled endpoint, and
else one more attempt for the circuit of that endpoint. -/
theorem circuitOf_updateEndpointRuntimeAfterAttempt
    (hdistinct : (runtimes.map OutboundWebhookEndpointRuntime.endpointId).Nodup)
    (h : updateEndpointRuntimeAfterAttempt runtimes (some named) success now = .ok runtimes') :
    (named.enabled = false ∧ success = false ∧ runtimes' = runtimes) ∨
      ((named.enabled = true ∨ success = true) ∧
        runtimeAfterAttempt (circuitOf runtimes named.id) named success now =
          .ok (circuitOf runtimes' named.id) ∧
        ∀ id, id ≠ named.id → circuitOf runtimes' id = circuitOf runtimes id) := by
  unfold updateEndpointRuntimeAfterAttempt at h
  dsimp only at h
  split at h
  · next hdisabled =>
      obtain rfl := Except.ok.inj h
      simp only [Bool.and_eq_true, Bool.not_eq_true'] at hdisabled
      exact .inl ⟨hdisabled.1, hdisabled.2, rfl⟩
  · next hcounts =>
      refine .inr ⟨by cases hnamed : named.enabled <;> cases success <;> simp_all, ?_⟩
      split at h
      · next previous hprevious =>
          obtain ⟨next, hnext, h⟩ := except_bind_eq_ok.mp h
          obtain rfl := Except.ok.inj h
          obtain ⟨hmem, hid⟩ := (find?_key_eq_some_iff hdistinct).mp hprevious
          have hsame := runtimeAfterAttempt_endpointId hnext
          rw [replaceFirstBy_eq_replaceBy hdistinct]
          have hdistinct' : ((replaceBy OutboundWebhookEndpointRuntime.endpointId runtimes next).map
              OutboundWebhookEndpointRuntime.endpointId).Nodup := by simpa using hdistinct
          rw [← hid, circuitOf_of_mem hdistinct hmem]
          refine ⟨?_, fun id hother => circuitOf_congr hdistinct hdistinct' fun runtime hruntime => ?_⟩
          · rw [← hsame, circuitOf_of_mem hdistinct' (mem_replaceBy_self hmem hsame.symm)]
            exact hnext
          · rw [mem_replaceBy]
            constructor
            · rintro (⟨rfl, -⟩ | ⟨hold, -⟩)
              · exact absurd (hruntime.symm.trans hsame) hother
              · exact hold
            · exact fun hold => .inr ⟨hold, fun hkey => hother (hruntime.symm.trans (hkey.trans hsame))⟩
      · next habsent =>
          obtain ⟨previous, hprevious, h⟩ := except_bind_eq_ok.mp h
          obtain ⟨next, hnext, h⟩ := except_bind_eq_ok.mp h
          obtain rfl := Except.ok.inj h
          obtain rfl := endpointRuntimeSchema_eq_ok hprevious
          have habsent := find?_key_eq_none_iff.mp habsent
          have hsame : next.endpointId = named.id := runtimeAfterAttempt_endpointId hnext
          have hdistinct' := nodup_map_key_append (a := next) hdistinct fun runtime hmem =>
            hsame ▸ habsent runtime hmem
          rw [circuitOf_of_absent habsent]
          refine ⟨?_, fun id hother => circuitOf_congr hdistinct hdistinct' fun runtime hruntime => ?_⟩
          · rw [← hsame, circuitOf_of_mem hdistinct' (List.mem_append_right _ (List.mem_singleton_self next)), hsame]
            exact hnext
          · rw [List.mem_append, List.mem_singleton]
            refine ⟨fun hin => hin.resolve_right ?_, .inl⟩
            rintro rfl
            exact hother (hruntime.symm.trans hsame)

end Circuits

/-! ## The circuits after a call -/

section Calls

variable {store store' : OutboundWebhookStore} {endpoint : OutboundWebhookEndpoint}
  {failures : List ℤ} {endpointId : Text}

/-- A reset closes the circuit of its endpoint, and touches no other. -/
theorem follows_of_reset {result : OutboundWebhookEndpointRuntime} (hstored : store.Stored)
    (hdistinct : store.Distinct) (hpos : 0 < endpoint.circuitFailureThreshold)
    (h : resetOutboundWebhookEndpointCircuit endpointId store = (store', .ok result)) :
    (Follows endpoint failures (circuitOf store.endpointRuntime endpointId) →
      Follows endpoint [] (circuitOf store'.endpointRuntime endpointId)) ∧
    ∀ id, id ≠ endpointId →
      circuitOf store'.endpointRuntime id = circuitOf store.endpointRuntime id := by
  obtain ⟨hupdate, -⟩ := exec_ok hstored h
  split at hupdate
  · simp at hupdate
  · split at hupdate
    · next habsent =>
        obtain ⟨runtime, -, hupdate⟩ := except_bind_eq_ok.mp hupdate
        obtain ⟨rfl, -⟩ := Prod.mk.inj (Except.ok.inj hupdate)
        rw [circuitOf_of_absent (find?_key_eq_none_iff.mp habsent)]
        exact ⟨fun _ => follows_nil hpos rfl rfl rfl, fun _ _ => rfl⟩
    · next existing hexisting =>
        obtain ⟨hmem, rfl⟩ := (find?_key_eq_some_iff hdistinct.runtimes).mp hexisting
        split at hupdate
        · next hclosed =>
            obtain ⟨rfl, -⟩ := Prod.mk.inj (Except.ok.inj hupdate)
            rw [circuitOf_of_mem hdistinct.runtimes hmem]
            refine ⟨fun hfollows => ?_, fun _ _ => rfl⟩
            have hnone : failures = [] :=
              List.eq_nil_of_length_eq_zero (hfollows.count.symm.trans hclosed.2)
            exact hnone ▸ hfollows
        · obtain ⟨runtime, hruntime, hupdate⟩ := except_bind_eq_ok.mp hupdate
          obtain ⟨rfl, -⟩ := Prod.mk.inj (Except.ok.inj hupdate)
          rw [endpointRuntimeSchema_eq_ok hruntime]
          set closed : OutboundWebhookEndpointRuntime :=
            { existing with
              consecutiveFailures := 0
              circuitState := .closed
              circuitOpenedAt := none
              circuitOpenUntil := none } with hclosed
          have hdistinct' := nodup_map_key_append (a := closed)
            (nodup_map_key_filter (·.endpointId ≠ existing.endpointId) hdistinct.runtimes)
            fun runtime hruntime => by simpa using (List.mem_filter.mp hruntime).2
          refine ⟨fun _ => ?_, fun id hother => ?_⟩
          · have hcircuit := circuitOf_of_mem hdistinct'
              (List.mem_append_right _ (List.mem_singleton_self closed))
            rw [show existing.endpointId = closed.endpointId from rfl, hcircuit]
            exact follows_nil hpos rfl rfl rfl
          · refine circuitOf_congr hdistinct.runtimes hdistinct' fun runtime hruntime => ?_
            rw [List.mem_append, List.mem_singleton, List.mem_filter, decide_eq_true_eq]
            constructor
            · rintro (⟨hold, -⟩ | rfl)
              · exact hold
              · exact absurd hruntime.symm hother
            · exact fun hold => .inl ⟨hold, fun hsame => hother (hruntime.symm.trans hsame)⟩

theorem follows_of_complete {claimed delivery : OutboundWebhookDelivery}
    {result : CompleteOutboundWebhookDeliveryResult} {named : OutboundWebhookEndpoint}
    {options : CompleteOptions} (hstored : store.Stored) (hdistinct : store.Distinct)
    (hpos : 0 < endpoint.circuitFailureThreshold)
    (hsame : endpoint.id = named.id →
      named.circuitFailureThreshold = endpoint.circuitFailureThreshold ∧
        named.circuitCooldownMs = endpoint.circuitCooldownMs)
    (hfollows : Follows endpoint failures (circuitOf store.endpointRuntime endpoint.id))
    (h : completeOutboundWebhookDelivery claimed result (some named) options store =
      (store', .ok delivery)) :
    Follows endpoint
      (if endpoint.id = named.id then
        if result.success then [] else if named.enabled then options.now :: failures else failures
      else failures) (circuitOf store'.endpointRuntime endpoint.id) := by
  obtain ⟨latest, endpointRuntime, -, -, -, -, hruntime, rfl⟩ := complete_eq_ok hstored h
  rcases circuitOf_updateEndpointRuntimeAfterAttempt hdistinct.runtimes hruntime with
    ⟨hdisabled, hfailed, rfl⟩ | ⟨hcounts, hattempt, hothers⟩
  · simpa [hdisabled, hfailed] using hfollows
  · by_cases hid : endpoint.id = named.id
    · obtain ⟨hthreshold, hcooldown⟩ := hsame hid
      rw [hid] at hfollows
      have hnext := hfollows.attempt hthreshold hcooldown hpos hattempt
      rw [if_pos hid, hid]
      rcases hcounts with henabled | hsuccess
      · simpa [henabled] using hnext
      · simpa [hsuccess] using hnext
    · rw [if_neg hid, hothers _ hid]
      exact hfollows

/-- An update that keeps the circuits keeps them whether it returns or throws. -/
theorem endpointRuntime_exec {ρ : Type} {update : OutboundWebhookStore →
      Except WebhookError (OutboundWebhookStore × ρ)} (hstored : store.Stored)
    (hkeeps : ∀ store' result, update store = .ok (store', result) →
      store'.endpointRuntime = store.endpointRuntime) :
    (createOutboundWebhookStore.exec update store).1.endpointRuntime = store.endpointRuntime := by
  rcases hexec : createOutboundWebhookStore.exec update store with ⟨store', error | result⟩
  · rw [exec_error hexec]
  · exact hkeeps store' result (exec_ok hstored hexec).1

def OutboxCall.movesCircuits : OutboxCall → Bool
  | .complete .. | .resetCircuit _ | .deleteEndpoint .. => true
  | _ => false

variable [CaseMapping] [EndpointUrlPolicy]

theorem endpointRuntime_perform {call : OutboxCall} (hstored : store.Stored)
    (h : call.movesCircuits = false) :
    (call.perform store).endpointRuntime = store.endpointRuntime := by
  cases call with
  | complete | resetCircuit | deleteEndpoint => simp [OutboxCall.movesCircuits] at h
  | createEndpoint input newId now =>
      show (createOutboundWebhookEndpoint input newId now store).1.endpointRuntime = _
      unfold createOutboundWebhookEndpoint
      split
      · rfl
      · refine endpointRuntime_exec hstored fun store' result hupdate => ?_
        split at hupdate
        · simp at hupdate
        · obtain ⟨rfl, -⟩ := Prod.mk.inj (Except.ok.inj hupdate)
          rfl
  | updateEndpoint id input now =>
      refine endpointRuntime_exec hstored fun store' result hupdate => ?_
      split at hupdate
      · simp at hupdate
      · obtain ⟨endpoint, -, hupdate⟩ := except_bind_eq_ok.mp hupdate
        split at hupdate
        · simp at hupdate
        · obtain ⟨rfl, -⟩ := Prod.mk.inj (Except.ok.inj hupdate)
          rfl
  | enqueue input options newEventId clock newDeliveryId =>
      show (enqueueOutboundWebhookEvent input options newEventId clock newDeliveryId
        store).1.endpointRuntime = _
      unfold enqueueOutboundWebhookEvent
      split
      · rfl
      · split
        · rfl
        · refine endpointRuntime_exec hstored fun store' result hupdate => ?_
          obtain ⟨queued, -, hupdate⟩ := except_bind_eq_ok.mp hupdate
          obtain ⟨deliveries, -, hupdate⟩ := except_bind_eq_ok.mp hupdate
          obtain ⟨rfl, -⟩ := Prod.mk.inj (Except.ok.inj hupdate)
          rfl
  | claim options =>
      refine endpointRuntime_exec hstored fun store' result hupdate => ?_
      obtain ⟨leased, -, hupdate⟩ := except_bind_eq_ok.mp hupdate
      obtain ⟨rfl, -⟩ := Prod.mk.inj (Except.ok.inj hupdate)
      rfl
  | retry id now =>
      refine endpointRuntime_exec hstored fun store' result hupdate => ?_
      split at hupdate
      · simp at hupdate
      · split at hupdate
        · obtain ⟨rfl, -⟩ := Prod.mk.inj (Except.ok.inj hupdate)
          rfl
        · split at hupdate
          · simp at hupdate
          · split at hupdate
            · simp at hupdate
            · obtain ⟨delivery, -, hupdate⟩ := except_bind_eq_ok.mp hupdate
              obtain ⟨rfl, -⟩ := Prod.mk.inj (Except.ok.inj hupdate)
              rfl
  | replay options =>
      show (replayOutboundWebhookDeadLetters options store).1.endpointRuntime = _
      unfold replayOutboundWebhookDeadLetters
      split
      · rfl
      · refine endpointRuntime_exec hstored fun store' result hupdate => ?_
        dsimp only at hupdate
        split at hupdate
        · obtain ⟨rfl, -⟩ := Prod.mk.inj (Except.ok.inj hupdate)
          rfl
        · obtain ⟨news, -, hupdate⟩ := except_bind_eq_ok.mp hupdate
          obtain ⟨rfl, -⟩ := Prod.mk.inj (Except.ok.inj hupdate)
          rfl
  | reconcile options =>
      show (reconcileOutboundWebhookDeliveries options store).1.endpointRuntime = _
      unfold reconcileOutboundWebhookDeliveries
      split
      · rfl
      · refine endpointRuntime_exec hstored fun store' result hupdate => ?_
        obtain ⟨news, -, hupdate⟩ := except_bind_eq_ok.mp hupdate
        split at hupdate
        · obtain ⟨rfl, -⟩ := Prod.mk.inj (Except.ok.inj hupdate)
          rfl
        · obtain ⟨rfl, -⟩ := Prod.mk.inj (Except.ok.inj hupdate)
          rfl
  | prune options =>
      show (pruneOutboundWebhookDeliveries options store).1.endpointRuntime = _
      unfold pruneOutboundWebhookDeliveries
      split
      · rfl
      · refine endpointRuntime_exec hstored fun store' result hupdate => ?_
        obtain ⟨before, -, hupdate⟩ := except_bind_eq_ok.mp hupdate
        split at hupdate
        · obtain ⟨rfl, -⟩ := Prod.mk.inj (Except.ok.inj hupdate)
          rfl
        · obtain ⟨rfl, -⟩ := Prod.mk.inj (Except.ok.inj hupdate)
          rfl

omit [CaseMapping] [EndpointUrlPolicy] in
theorem endpointSchema_circuit {parsed : OutboundWebhookEndpoint}
    (h : endpointSchema endpoint = .ok parsed) :
    parsed.circuitFailureThreshold = endpoint.circuitFailureThreshold ∧
      parsed.circuitCooldownMs = endpoint.circuitCooldownMs := by
  obtain ⟨-, h⟩ := require_bind_eq_ok.mp h
  obtain ⟨name, -, h⟩ := except_bind_eq_ok.mp h
  obtain ⟨-, h⟩ := require_bind_eq_ok.mp h
  obtain rfl := Except.ok.inj h
  exact ⟨rfl, rfl⟩

omit [CaseMapping] in
theorem mergeOutboundWebhookEndpointUpdate_circuit {previous : OutboundWebhookEndpoint}
    {input : UpdateOutboundWebhookEndpointInput} {now : ℤ}
    (h : mergeOutboundWebhookEndpointUpdate previous input now = .ok endpoint)
    (hthreshold : input.circuitFailureThreshold.getD previous.circuitFailureThreshold =
      previous.circuitFailureThreshold)
    (hcooldown : input.circuitCooldownMs.getD previous.circuitCooldownMs =
      previous.circuitCooldownMs) :
    endpoint.circuitFailureThreshold = previous.circuitFailureThreshold ∧
      endpoint.circuitCooldownMs = previous.circuitCooldownMs := by
  obtain ⟨url, -, h⟩ := except_bind_eq_ok.mp h
  obtain ⟨eventFilters, -, h⟩ := except_bind_eq_ok.mp h
  obtain ⟨updatedAt, -, h⟩ := except_bind_eq_ok.mp h
  obtain ⟨hthreshold', hcooldown'⟩ := endpointSchema_circuit h
  exact ⟨hthreshold'.trans hthreshold, hcooldown'.trans hcooldown⟩

/-- Endpoints with one circuit configuration. -/
structure SameCircuit (left right : OutboundWebhookEndpoint) : Prop where
  id : left.id = right.id
  threshold : left.circuitFailureThreshold = right.circuitFailureThreshold
  cooldown : left.circuitCooldownMs = right.circuitCooldownMs

omit [CaseMapping] [EndpointUrlPolicy] in
theorem SameCircuit.trans {left middle right : OutboundWebhookEndpoint}
    (h : SameCircuit left middle) (h' : SameCircuit middle right) : SameCircuit left right :=
  ⟨h.id.trans h'.id, h.threshold.trans h'.threshold, h.cooldown.trans h'.cooldown⟩

omit [CaseMapping] [EndpointUrlPolicy] in
theorem exists_endpointById {endpoints : List OutboundWebhookEndpoint} {id : Text}
    (h : Owned endpoints id) : ∃ endpoint, endpointById endpoints id = some endpoint := by
  obtain ⟨endpoint, hmem, rfl⟩ := h
  refine Option.isSome_iff_exists.mp (List.find?_isSome.mpr ⟨endpoint, ?_, by simp⟩)
  exact List.mem_reverse.mpr hmem

omit [CaseMapping] [EndpointUrlPolicy] in
theorem OutboxEffect.sameCircuit_origin {call : OutboxCall} (h : OutboxEffect store call store')
    (hother : ∀ id input now, call ≠ .updateEndpoint id input now)
    (hmem : endpoint ∈ store'.endpoints) :
    (∃ previous ∈ store.endpoints, SameCircuit previous endpoint) ∨
      ∃ input now, call = .createEndpoint input endpoint.id now := by
  cases h with
  | unchanged | pruned | queued | moved => exact .inl ⟨endpoint, hmem, rfl, rfl, rfl⟩
  | endpointDeleted => exact .inl ⟨endpoint, (List.mem_filter.mp hmem).1, rfl, rfl, rfl⟩
  | endpointAdded called drawn schema =>
      rcases List.mem_append.mp hmem with hold | hnew
      · exact .inl ⟨endpoint, hold, rfl, rfl, rfl⟩
      · obtain rfl := List.mem_singleton.mp hnew
        exact .inr ⟨_, _, drawn ▸ called⟩
  | endpointReplaced called => exact absurd called (hother _ _ _)

/-- An endpoint after a call was there before it, or has just been created. -/
theorem sameCircuit_origin {call : OutboxCall} (hstored : store.Stored) (hdistinct : store.Distinct)
    (hkeeps : call.KeepsCircuit store) (hmem : endpoint ∈ (call.perform store).endpoints) :
    (∃ previous ∈ store.endpoints, SameCircuit previous endpoint) ∨
      ∃ input now, call = .createEndpoint input endpoint.id now := by
  have hsame : endpoint ∈ store.endpoints →
      ∃ previous ∈ store.endpoints, SameCircuit previous endpoint :=
    fun hin => ⟨endpoint, hin, rfl, rfl, rfl⟩
  cases call with
  | updateEndpoint id input now =>
      change endpoint ∈ (updateOutboundWebhookEndpoint id input now store).1.endpoints at hmem
      rcases hupdate : updateOutboundWebhookEndpoint id input now store with ⟨store', error | result⟩
      · rw [hupdate, exec_error hupdate] at hmem
        exact .inl (hsame hmem)
      · rw [hupdate] at hmem
        have hexec := (exec_ok hstored hupdate).1
        split at hexec
        · simp at hexec
        · next previous hfound =>
            obtain ⟨hin, rfl⟩ := hdistinct.find?_endpoint.mp hfound
            obtain ⟨merged, hmerged, hexec⟩ := except_bind_eq_ok.mp hexec
            split at hexec
            · simp at hexec
            · obtain ⟨rfl, -⟩ := Prod.mk.inj (Except.ok.inj hexec)
              rw [replaceFirstBy_eq_replaceBy hdistinct.endpoints] at hmem
              rcases mem_replaceBy.mp hmem with ⟨rfl, -⟩ | ⟨hold, -⟩
              · obtain ⟨hthreshold, hcooldown⟩ := hkeeps previous hin rfl
                obtain ⟨hthreshold', hcooldown'⟩ :=
                  mergeOutboundWebhookEndpointUpdate_circuit hmerged hthreshold hcooldown
                have hid : endpoint.id = previous.id := by
                  obtain ⟨url, -, hmerged⟩ := except_bind_eq_ok.mp hmerged
                  obtain ⟨eventFilters, -, hmerged⟩ := except_bind_eq_ok.mp hmerged
                  obtain ⟨updatedAt, -, hmerged⟩ := except_bind_eq_ok.mp hmerged
                  exact (endpointSchema_eq_ok hmerged).1
                exact .inl ⟨previous, hin, hid.symm, hthreshold'.symm, hcooldown'.symm⟩
              · exact .inl (hsame hold)
  | _ => exact (outboxEffect_of_perform hstored hdistinct _).sameCircuit_origin (by simp) hmem

end Calls

/-! ## The law -/

/-- What holds of the outbox and of what has happened to its circuits. -/
structure CircuitHistory.Lawful (history : CircuitHistory) : Prop where
  invariant : OutboxInvariant history.outbox.store
  sameEndpoint : ∀ claim ∈ history.outbox.granted, ∀ delivery ∈ history.outbox.store.deliveries,
    delivery.id = claim.delivery.id → delivery.endpointId = claim.delivery.endpointId
  snapshot : ∀ claim ∈ history.outbox.granted, ∃ named, claim.endpoint = some named ∧
    named.id = claim.delivery.endpointId ∧ ∀ endpoint ∈ history.outbox.store.endpoints,
      endpoint.id = named.id → SameCircuit named endpoint
  known : ∀ event ∈ history.events,
    Owned history.outbox.store.endpoints event.1 ∨ event.1 ∈ history.deleted
  deleted : ∀ id ∈ history.deleted, ¬ Owned history.outbox.store.endpoints id
  follows : ∀ endpoint ∈ history.outbox.store.endpoints,
    Follows endpoint (history.failures endpoint.id)
      (circuitOf history.outbox.store.endpointRuntime endpoint.id)

section Law

variable {history history' : CircuitHistory} {call : OutboxCall}
  {endpoint : OutboundWebhookEndpoint}

theorem circuitHistory_lawful_empty : CircuitHistory.Lawful {} where
  invariant := outboxInvariant_empty
  sameEndpoint := by simp
  snapshot := by simp
  known := by simp
  deleted := by simp
  follows := by simp

theorem OutboxInvariant.threshold_pos {store : OutboundWebhookStore} (h : OutboxInvariant store)
    (hmem : endpoint ∈ store.endpoints) : 0 < endpoint.circuitFailureThreshold := by
  have hbounds := (endpointSchema_eq_ok (h.stored.endpoints endpoint hmem)).2.2.2.2.2.1
  simp only [OutboundWebhookEndpoint.inBounds, Bool.and_eq_true, decide_eq_true_eq] at hbounds
  omega

/-- The completion of a claim that was handed out names the endpoint of its delivery. -/
theorem CircuitHistory.Lawful.matched (h : history.Lawful)
    (hhanded : call.Handed history.outbox.granted) : call.Matched history.outbox.store := by
  cases call with
  | complete claimed result endpoint options =>
      intro named hnamed delivery hmem hid
      obtain ⟨snapshot, hsnapshot, hendpoint, -⟩ := h.snapshot _ hhanded
      obtain rfl : named = snapshot := Option.some.inj (hnamed.symm.trans hsnapshot)
      rw [h.sameEndpoint _ hhanded delivery hmem hid]
      exact hendpoint
  | _ => trivial

theorem CircuitHistory.Lawful.owned_event (h : history.Lawful)
    {event : Text × CircuitEvent} (hmem : event ∈ call.circuitEvents history.outbox.store) :
    Owned history.outbox.store.endpoints event.1 := by
  cases call with
  | complete claimed result endpoint options =>
      rcases hcomplete : completeOutboundWebhookDelivery claimed result endpoint options
        history.outbox.store with ⟨store', error | delivery⟩
      · simp [OutboxCall.circuitEvents, hcomplete] at hmem
      · obtain ⟨latest, -, hfound, hdelivering, -, hcompleted, -, -⟩ :=
          complete_eq_ok h.invariant.stored hcomplete
        have hlatest := (h.invariant.distinct.find?_delivery.mp hfound).1
        have howned : Owned history.outbox.store.endpoints latest.endpointId :=
          h.invariant.owned latest hlatest
            (by simp [hdelivering, OutboundWebhookDeliveryStatus.isTerminal])
        obtain ⟨nextAttemptAt, rfl⟩ :=
          completedDelivery_eq_ok (h.invariant.stored.event hlatest) hcompleted
        simp only [OutboxCall.circuitEvents, hcomplete] at hmem
        split_ifs at hmem <;> simp_all
  | resetCircuit endpointId =>
      rcases hreset : resetOutboundWebhookEndpointCircuit endpointId history.outbox.store with
        ⟨store', error | runtime⟩
      · simp [OutboxCall.circuitEvents, hreset] at hmem
      · obtain rfl : event = (endpointId, .reset) := by
          simpa [OutboxCall.circuitEvents, hreset] using hmem
        have hupdate := (exec_ok h.invariant.stored hreset).1
        split at hupdate
        · simp at hupdate
        · next hpresent => simpa [Owned] using hpresent
  | _ => simp [OutboxCall.circuitEvents] at hmem

theorem CircuitHistory.Lawful.follows_created (h : history.Lawful) {endpointId : Text}
    (hnew : ∀ endpoint ∈ history.outbox.store.endpoints, endpoint.id ≠ endpointId)
    (hunused : endpointId ∉ history.deleted) (hpos : 0 < endpoint.circuitFailureThreshold) :
    Follows endpoint (history.failures endpointId)
      (circuitOf history.outbox.store.endpointRuntime endpointId) := by
  have hnone : history.failures endpointId = [] := by
    have hfilter : history.events.filter (·.1 = endpointId) = [] := by
      refine List.filter_eq_nil_iff.mpr fun event hmem => ?_
      rw [decide_eq_true_eq]
      rintro rfl
      rcases h.known event hmem with ⟨other, hother, hid⟩ | hdeleted
      · exact hnew other hother hid
      · exact hunused hdeleted
    rw [CircuitHistory.failures, hfilter]
    rfl
  rw [hnone, circuitOf_of_absent fun runtime hmem hid => ?_]
  · exact follows_nil hpos rfl rfl rfl
  · obtain ⟨other, hother, hsame⟩ := h.invariant.runtimes runtime hmem
    exact hnew other hother (hsame.trans hid)

theorem Follows.congr {previous : OutboundWebhookEndpoint} {failures : List ℤ}
    {runtime : OutboundWebhookEndpointRuntime} (hsame : SameCircuit previous endpoint)
    (h : Follows previous failures runtime) : Follows endpoint failures runtime := by
  refine ⟨h.count, ?_, ?_⟩
  · rw [← hsame.threshold]
    exact h.state
  · rw [← hsame.threshold, ← hsame.cooldown]
    exact h.openUntil

variable [CaseMapping] [EndpointUrlPolicy]

/-- An endpoint stays unless the call deletes it. -/
theorem owned_perform {store : OutboundWebhookStore} (h : OutboxInvariant store) {id : Text}
    (howned : Owned store.endpoints id) :
    Owned (call.perform store).endpoints id ∨ id ∈ call.deletes store := by
  have heffect := outboxEffect_of_perform h.stored h.distinct call
  generalize hstore : call.perform store = store' at heffect
  cases heffect with
  | unchanged | pruned | queued | moved => exact .inl howned
  | endpointAdded =>
      obtain ⟨endpoint, hmem, hid⟩ := howned
      exact .inl ⟨endpoint, List.mem_append_left _ hmem, hid⟩
  | endpointReplaced =>
      refine .inl (owned_iff.mpr ?_)
      rw [map_key_replaceBy]
      exact owned_iff.mp howned
  | @endpointDeleted id' now deliveries called =>
      obtain ⟨endpoint, hmem, hid⟩ := howned
      by_cases hsame : id = id'
      · subst called hsame
        rcases hdelete : deleteOutboundWebhookEndpoint id now store with ⟨store', error | deleted⟩
        · have hkept : (OutboxCall.deleteEndpoint id now).perform store = store := by
            show (deleteOutboundWebhookEndpoint id now store).1 = store
            rw [hdelete, exec_error hdelete]
          rw [← hstore, hkept]
          exact .inl ⟨endpoint, hmem, hid⟩
        · exact .inr (by simp [OutboxCall.deletes, hdelete])
      · exact .inl ⟨endpoint, List.mem_filter.mpr ⟨hmem, by simpa [hid] using hsame⟩, hid⟩

theorem not_owned_of_deletes {store : OutboundWebhookStore} (hstored : store.Stored) {id : Text}
    (hdeletes : id ∈ call.deletes store) : ¬ Owned (call.perform store).endpoints id := by
  cases call with
  | deleteEndpoint id' now =>
      rcases hdelete : deleteOutboundWebhookEndpoint id' now store with ⟨store', error | deleted⟩
      · simp [OutboxCall.deletes, hdelete] at hdeletes
      · obtain rfl : id = id' := by simpa [OutboxCall.deletes, hdelete] using hdeletes
        show ¬ Owned (deleteOutboundWebhookEndpoint id now store).1.endpoints id
        rw [hdelete]
        have hupdate := (exec_ok hstored hdelete).1
        split at hupdate
        · simp at hupdate
        · obtain ⟨at_, -, hupdate⟩ := except_bind_eq_ok.mp hupdate
          obtain ⟨rfl, -⟩ := Prod.mk.inj (Except.ok.inj hupdate)
          simp [Owned]
  | _ => simp [OutboxCall.deletes] at hdeletes

theorem failures_of_silent {id : Text} (h : call.circuitEvents history.outbox.store = []) :
    (history.perform call).failures id = history.failures id := by
  simp [CircuitHistory.failures, CircuitHistory.perform, h]

theorem failures_of_event {id : Text} {event : Text × CircuitEvent}
    (h : call.circuitEvents history.outbox.store = [event]) :
    (history.perform call).failures id =
      if id = event.1 then event.2.count (history.failures id) else history.failures id := by
  simp only [CircuitHistory.failures, CircuitHistory.perform, h, List.filter_append]
  by_cases hid : id = event.1
  · simp [hid]
  · simp [hid, Ne.symm hid]

theorem CircuitHistory.Lawful.follows_perform (h : history.Lawful)
    (hhanded : call.Handed history.outbox.granted) (hmem : endpoint ∈ history.outbox.store.endpoints)
    (hstays : endpoint.id ∉ call.deletes history.outbox.store) :
    Follows endpoint ((history.perform call).failures endpoint.id)
      (circuitOf (call.perform history.outbox.store).endpointRuntime endpoint.id) := by
  have hfollows := h.follows endpoint hmem
  have hpos := h.invariant.threshold_pos hmem
  have hstored := h.invariant.stored
  have hdistinct := h.invariant.distinct
  cases call with
  | complete claimed result named options =>
      show Follows _ _ (circuitOf (completeOutboundWebhookDelivery claimed result named options
        history.outbox.store).1.endpointRuntime _)
      rcases hcomplete : completeOutboundWebhookDelivery claimed result named options
        history.outbox.store with ⟨store', error | delivery⟩
      · rw [failures_of_silent (by simp [OutboxCall.circuitEvents, hcomplete]), exec_error hcomplete]
        exact hfollows
      · obtain ⟨snapshot, hsnapshot, hnamed, hsame⟩ := h.snapshot _ hhanded
        obtain rfl : named = some snapshot := hsnapshot
        have howner : delivery.endpointId = snapshot.id := by
          obtain ⟨latest, -, hfound, -, -, hcompleted, -, -⟩ := complete_eq_ok hstored hcomplete
          obtain ⟨hlatest, hid⟩ := hdistinct.find?_delivery.mp hfound
          obtain ⟨nextAttemptAt, rfl⟩ := completedDelivery_eq_ok (hstored.event hlatest) hcompleted
          exact (h.sameEndpoint _ hhanded latest hlatest hid).trans hnamed.symm
        have hnext := follows_of_complete hstored hdistinct hpos
          (fun hid => ⟨(hsame endpoint hmem hid).threshold, (hsame endpoint hmem hid).cooldown⟩)
          hfollows hcomplete
        cases hsuccess : result.success with
        | true =>
            have hevents : (OutboxCall.complete claimed result (some snapshot) options).circuitEvents
                history.outbox.store = [(delivery.endpointId, .success)] := by
              simp [OutboxCall.circuitEvents, hcomplete, hsuccess]
            rw [failures_of_event hevents, howner]
            simpa [hsuccess, CircuitEvent.count] using hnext
        | false =>
            cases henabled : snapshot.enabled with
            | true =>
                have hevents : (OutboxCall.complete claimed result (some snapshot) options).circuitEvents
                    history.outbox.store = [(delivery.endpointId, .failure options.now)] := by
                  simp [OutboxCall.circuitEvents, hcomplete, hsuccess, henabled]
                rw [failures_of_event hevents, howner]
                simpa [hsuccess, henabled, CircuitEvent.count] using hnext
            | false =>
                rw [failures_of_silent
                  (by simp [OutboxCall.circuitEvents, hcomplete, hsuccess, henabled])]
                simpa [hsuccess, henabled] using hnext
  | resetCircuit endpointId =>
      show Follows _ _ (circuitOf (resetOutboundWebhookEndpointCircuit endpointId
        history.outbox.store).1.endpointRuntime _)
      rcases hreset : resetOutboundWebhookEndpointCircuit endpointId history.outbox.store with
        ⟨store', error | runtime⟩
      · rw [failures_of_silent (by simp [OutboxCall.circuitEvents, hreset]), exec_error hreset]
        exact hfollows
      · have hevents : (OutboxCall.resetCircuit endpointId).circuitEvents history.outbox.store =
            [(endpointId, .reset)] := by
          simp [OutboxCall.circuitEvents, hreset]
        rw [failures_of_event hevents]
        obtain ⟨hclosed, hothers⟩ := follows_of_reset hstored hdistinct hpos hreset
        by_cases hid : endpoint.id = endpointId
        · rw [if_pos hid]
          exact hid ▸ hclosed (hid ▸ hfollows)
        · rw [if_neg hid, hothers _ hid]
          exact hfollows
  | deleteEndpoint id now =>
      rw [failures_of_silent rfl]
      show Follows _ _ (circuitOf (deleteOutboundWebhookEndpoint id now
        history.outbox.store).1.endpointRuntime _)
      rcases hdelete : deleteOutboundWebhookEndpoint id now history.outbox.store with
        ⟨store', error | deleted⟩
      · rw [exec_error hdelete]
        exact hfollows
      · have hother : endpoint.id ≠ id := by simpa [OutboxCall.deletes, hdelete] using hstays
        have hupdate := (exec_ok hstored hdelete).1
        split at hupdate
        · simp at hupdate
        · obtain ⟨at_, -, hupdate⟩ := except_bind_eq_ok.mp hupdate
          obtain ⟨rfl, -⟩ := Prod.mk.inj (Except.ok.inj hupdate)
          refine (circuitOf_congr hdistinct.runtimes
            (nodup_map_key_filter _ hdistinct.runtimes) fun runtime hruntime => ?_) ▸ hfollows
          simp [hruntime, hother]
  | _ =>
      rw [failures_of_silent rfl, endpointRuntime_perform hstored rfl]
      exact hfollows

theorem CircuitHistory.Lawful.step (h : history.Lawful) (hstep : history.Step call history') :
    history'.Lawful := by
  obtain ⟨hnew, hunused, hhanded, hkeeps, rfl⟩ := hstep
  have hstored := h.invariant.stored
  have hinvariant : OutboxInvariant (call.perform history.outbox.store) :=
    h.invariant.step (h.matched hhanded) ⟨hnew.fresh, rfl⟩
  have horigin : ∀ endpoint ∈ (call.perform history.outbox.store).endpoints,
      (∃ previous ∈ history.outbox.store.endpoints, SameCircuit previous endpoint) ∨
        ∃ input now, call = .createEndpoint input endpoint.id now :=
    fun endpoint hmem => sameCircuit_origin hstored h.invariant.distinct hkeeps hmem
  refine ⟨hinvariant, ClaimedOutbox.sameEndpoint_perform h.invariant h.sameEndpoint hnew,
    fun claim hclaim => ?_, fun event hmem => ?_, fun id hid => ?_, fun endpoint hmem => ?_⟩
  · rcases List.mem_append.mp hclaim with hold | hgranted
    · obtain ⟨named, hnamed, hid, hsame⟩ := h.snapshot claim hold
      refine ⟨named, hnamed, hid, fun endpoint hmem hendpoint => ?_⟩
      rcases horigin endpoint hmem with ⟨previous, hprevious, hcircuit⟩ | ⟨input, now, rfl⟩
      · exact (hsame previous hprevious (hcircuit.id.trans hendpoint)).trans hcircuit
      · exact absurd (hid.symm.trans hendpoint.symm) (hnew.2.2 claim hold)
    · obtain ⟨delivery, hdelivery, -, hsameEndpoint, hsnapshot, hactive⟩ :=
        OutboxCall.grants_origin hstored hgranted
      obtain ⟨named, hnamed⟩ := exists_endpointById (h.invariant.owned delivery hdelivery hactive)
      obtain ⟨hin, hid⟩ := mem_of_endpointById hnamed
      refine ⟨named, hsnapshot.trans hnamed, hid.trans hsameEndpoint.symm,
        fun endpoint hmem hendpoint => ?_⟩
      rcases horigin endpoint hmem with ⟨previous, hprevious, hcircuit⟩ | ⟨input, now, rfl⟩
      · obtain rfl := List.inj_on_of_nodup_map h.invariant.distinct.endpoints hprevious hin
          (hcircuit.id.trans hendpoint)
        exact hcircuit
      · simp [OutboxCall.grants] at hgranted
  · have hstays : Owned history.outbox.store.endpoints event.1 →
        Owned (call.perform history.outbox.store).endpoints event.1 ∨
          event.1 ∈ (history.perform call).deleted := fun howned =>
      (owned_perform h.invariant howned).imp_right (List.mem_append_right _)
    rcases List.mem_append.mp hmem with hold | hevent
    · exact (h.known event hold).elim hstays fun hdeleted => .inr (List.mem_append_left _ hdeleted)
    · exact hstays (h.owned_event hevent)
  · rcases List.mem_append.mp hid with hold | hdeletes
    · rintro ⟨endpoint, hmem, rfl⟩
      rcases horigin endpoint hmem with ⟨previous, hprevious, hcircuit⟩ | ⟨input, now, hcreated⟩
      · exact h.deleted _ hold ⟨previous, hprevious, hcircuit.id⟩
      · exact hunused input _ now hcreated hold
    · exact not_owned_of_deletes hstored hdeletes
  · have howned : Owned (call.perform history.outbox.store).endpoints endpoint.id :=
      ⟨endpoint, hmem, rfl⟩
    rcases horigin endpoint hmem with ⟨previous, hprevious, hcircuit⟩ | ⟨input, now, rfl⟩
    · have hstays : previous.id ∉ call.deletes history.outbox.store := fun hdeletes =>
        not_owned_of_deletes hstored hdeletes (hcircuit.id ▸ howned)
      have hfollows := h.follows_perform hhanded hprevious hstays
      rw [hcircuit.id] at hfollows
      exact hfollows.congr hcircuit
    · rw [failures_of_silent rfl]
      show Follows _ _ (circuitOf
        ((OutboxCall.createEndpoint input endpoint.id now).perform history.outbox.store).endpointRuntime _)
      rw [endpointRuntime_perform hstored rfl]
      exact h.follows_created hnew.1 (hunused input _ now rfl) (hinvariant.threshold_pos hmem)

theorem circuitHistory_lawful_of_run {calls : List OutboxCall}
    (hrun : Run CircuitHistory.Step {} calls history) : history.Lawful :=
  hrun.invariant (I := CircuitHistory.Lawful) CircuitHistory.Lawful.step circuitHistory_lawful_empty

omit [CaseMapping] [EndpointUrlPolicy] in
/-- A claim that heeds the circuits takes no delivery of an endpoint whose circuit is open. -/
theorem CircuitHistory.Lawful.claim_heeds (h : history.Lawful) {options : ClaimOptions}
    {store' : OutboundWebhookStore} {claimed : List ClaimedOutboundWebhookDelivery}
    (hheeds : options.bypassCircuitBreaker = false)
    (hclaim : claimOutboundWebhookDeliveries options history.outbox.store = (store', .ok claimed)) :
    ∀ claim ∈ claimed, ∀ openUntil,
      (circuitOf history.outbox.store.endpointRuntime claim.delivery.endpointId).circuitOpenUntil =
        some openUntil → openUntil.time ≤ options.now := by
  intro claim hmem openUntil huntil
  have hstored := h.invariant.stored
  obtain ⟨leased, hleased, -, rfl⟩ := claim_eq_ok hstored hclaim
  obtain ⟨next, hnext, rfl⟩ := List.mem_map.mp hmem
  obtain ⟨delivery, hdelivery, i, hlease⟩ :=
    exists_left_of_forall₂ hleased (Table.mem_of_mem_ofList hnext)
  obtain ⟨hstore, hclaimable⟩ := mem_claimableDeliveries hdelivery
  have hsame : next.endpointId = delivery.endpointId := by
    rw [leaseDelivery_eq_ok (hstored.event hstore) hlease]
  dsimp only at huntil
  rw [hsame] at huntil
  obtain ⟨endpoint, hendpoint, hid⟩ :=
    h.invariant.owned delivery hstore (isTerminal_of_isClaimable hclaimable)
  have hfollows := h.follows endpoint hendpoint
  rw [hid] at hfollows
  -- the circuit is open, as it has a time until which it is
  have hopen : (circuitOf history.outbox.store.endpointRuntime delivery.endpointId).circuitState =
      .open := by
    refine hfollows.state.mpr (by_contra fun hbelow => ?_)
    simp [hfollows.openUntil, hbelow] at huntil
  have hlookup := circuitOpenUntil_of_open h.invariant.distinct.runtimes hopen huntil
  have hheeded := (Bool.and_eq_true_iff.mp (Bool.and_eq_true_iff.mp (Bool.and_eq_true_iff.mp
    hclaimable).1).1).1
  simpa [hheeds, hlookup] using hheeded

/-- The law of the circuit breaker. In every run of calls that keep thresholds and cooldowns,
with completions of claims as they were handed out: the circuit of an endpoint counts the
failures that were committed for it since its last success or reset, other than at a time
when it was disabled, and is open from when they reach the threshold, until the cooldown after
the last of them; a claim that heeds the circuits takes nothing from an endpoint before that;
and a deleted endpoint has no circuit. -/
theorem circuit_law {calls : List OutboxCall} (hrun : Run CircuitHistory.Step {} calls history) :
    (∀ endpoint ∈ history.outbox.store.endpoints,
      Follows endpoint (history.failures endpoint.id)
        (circuitOf history.outbox.store.endpointRuntime endpoint.id)) ∧
    (∀ options store' claimed, options.bypassCircuitBreaker = false →
      claimOutboundWebhookDeliveries options history.outbox.store = (store', .ok claimed) →
        ∀ claim ∈ claimed, ∀ openUntil,
          (circuitOf history.outbox.store.endpointRuntime
            claim.delivery.endpointId).circuitOpenUntil = some openUntil →
              openUntil.time ≤ options.now) ∧
    ∀ id ∈ history.deleted, ∀ runtime ∈ history.outbox.store.endpointRuntime,
      runtime.endpointId ≠ id := by
  have h := circuitHistory_lawful_of_run hrun
  refine ⟨h.follows, fun options store' claimed hheeds hclaim => h.claim_heeds hheeds hclaim, ?_⟩
  rintro _ hdeleted runtime hmem rfl
  exact h.deleted _ hdeleted (h.invariant.runtimes runtime hmem)

end Law

/-! ## A sample circuit -/

/-- The history of some calls on an empty outbox. -/
def sampleCircuit [CaseMapping] [EndpointUrlPolicy] (calls : List OutboxCall) : CircuitHistory :=
  calls.foldl CircuitHistory.perform {}

/-- The call that creates an endpoint that tolerates no failure. -/
def createStrict : OutboxCall :=
  .createEndpoint
    { name := sampleEndpoint.name
      url := sampleEndpoint.url
      secretRef := sampleEndpoint.secretRef
      eventFilters := [.all]
      circuitFailureThreshold := some 1 } sampleEndpointId 0

/-- The completion of the first claim that was handed out, as a failure. -/
def failFirst (granted : List ClaimedOutboundWebhookDelivery) : OutboxCall :=
  match granted with
  | claim :: _ => .complete claim.delivery { success := false, retryable := true } claim.endpoint
      { now := 2000, baseRetryDelayMs := 1000 }
  | [] => .resetCircuit sampleEndpointId

theorem failFirst_handed (granted : List ClaimedOutboundWebhookDelivery) :
    (failFirst granted).Handed granted := by
  cases granted with
  | nil => trivial
  | cons claim rest => exact List.mem_cons_self

theorem circuit_law_sample :
    letI := asciiCaseMapping
    letI := plainUrlPolicy
    let before := sampleCircuit [createStrict, enqueueSample, claimSample 1000 sampleToken]
    let history := before.perform (failFirst before.outbox.granted)
    history.failures sampleEndpointId = [2000] ∧
      history.outbox.store.endpointRuntime.map (·.circuitOpenUntil) = [some { time := 302000 }] ∧
      ∀ endpoint ∈ history.outbox.store.endpoints,
        Follows endpoint (history.failures endpoint.id)
          (circuitOf history.outbox.store.endpointRuntime endpoint.id) := by
  let := asciiCaseMapping
  let := plainUrlPolicy
  have hempty : (createStrict.perform {}).deliveries = [] := by
    rw [← List.isEmpty_iff]
    decide +kernel
  have hcreate : CircuitHistory.Step {} createStrict (sampleCircuit [createStrict]) :=
    ⟨by simp [createStrict, OutboxCall.New], by simp, trivial, trivial, rfl⟩
  have hqueue : CircuitHistory.Step (sampleCircuit [createStrict]) enqueueSample
      (sampleCircuit [createStrict, enqueueSample]) := by
    refine ⟨⟨sampleDeliveryId_injective, fun delivery hmem => ?_, ?_⟩, ?_, trivial, trivial, rfl⟩
    · change delivery ∈ (createStrict.perform {}).deliveries at hmem
      rw [hempty] at hmem
      simp at hmem
    · simp [sampleCircuit, CircuitHistory.perform, ClaimedOutbox.perform, createStrict,
        OutboxCall.grants]
    · simp [enqueueSample]
  have hclaim : CircuitHistory.Step (sampleCircuit [createStrict, enqueueSample])
      (claimSample 1000 sampleToken)
      (sampleCircuit [createStrict, enqueueSample, claimSample 1000 sampleToken]) :=
    ⟨trivial, by simp [claimSample], trivial, trivial, rfl⟩
  let before := sampleCircuit [createStrict, enqueueSample, claimSample 1000 sampleToken]
  have hfail : CircuitHistory.Step before (failFirst before.outbox.granted)
      (before.perform (failFirst before.outbox.granted)) := by
    refine ⟨?_, ?_, failFirst_handed _, ?_, rfl⟩ <;> unfold failFirst <;> split <;>
      simp [OutboxCall.New, OutboxCall.KeepsCircuit]
  have hrun : Run CircuitHistory.Step {} ([] ++ [createStrict] ++ [enqueueSample] ++
      [claimSample 1000 sampleToken] ++ [failFirst before.outbox.granted])
      (before.perform (failFirst before.outbox.granted)) :=
    .snoc (.snoc (.snoc (.snoc (.refl _) hcreate) hqueue) hclaim) hfail
  exact ⟨by decide +kernel, by decide +kernel, (circuit_law hrun).1⟩

end ListmonkOps.Webhook
