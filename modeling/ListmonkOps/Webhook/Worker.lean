/-
The worker of the webhook outbox.

The worker runs ticks in a loop while a timer appends heartbeat writes to a chain.
Between two awaited promises nothing else runs, so the loop is described by the
promise that it awaits, and a move of the world settles that promise, lets a
write land in the store, or advances the chain. A write that fails may have
landed or not.
-/

import ListmonkOps.Math.Run
import ListmonkOps.Webhook.Dispatch

namespace ListmonkOps.Webhook

open ListmonkOps.Math ListmonkOps.Runtime

/-! ## Records -/

inductive WorkerStatus where
  | running
  | stopped
  | failed
  deriving DecidableEq

/-- The counts of a dispatch that a worker adds up. -/
structure WorkerTotals where
  claimed : ℕ := 0
  succeeded : ℕ := 0
  retried : ℕ := 0
  exhausted : ℕ := 0
  deriving DecidableEq

/-- The totals with those of one more dispatch. -/
def WorkerTotals.add (totals : WorkerTotals) (dispatch : DispatchOutboundWebhooksResult) :
    WorkerTotals where
  claimed := totals.claimed + dispatch.claimed
  succeeded := totals.succeeded + dispatch.succeeded
  retried := totals.retried + dispatch.retried
  exhausted := totals.exhausted + dispatch.exhausted

/-- `lastTick` of a worker. -/
structure WorkerTick where
  totals : WorkerTotals
  completedAt : ℤ
  deriving DecidableEq

structure OutboundWebhookWorker where
  id : Text
  status : WorkerStatus
  startedAt : ℤ
  heartbeatAt : ℤ
  stoppedAt : Option ℤ := none
  lastError : Option Text := none
  lastTick : Option WorkerTick := none
  deriving DecidableEq

inductive WorkerError where
  | raised (message : Text)
  | /-- An `AggregateError` of two. -/
    aggregate (message : Text) (error persistenceError : WorkerError)
  deriving DecidableEq

def WorkerError.message : WorkerError → Text
  | .raised message => message
  | .aggregate message _ _ => message

/-- `RunOutboundWebhookWorkerOptions`, with the defaults. -/
structure WorkerOptions where
  workerId : Text
  intervalMs : ℤ := 5000
  failureLimit : ℤ := 5
  failureBackoffMs : ℤ := 1000
  heartbeatIntervalMs : ℤ := 30000

/-- What is checked before anything is written. -/
def WorkerOptions.check (options : WorkerOptions) : Except WorkerError Unit :=
  if options.intervalMs < 250 ∨ 90000 < options.intervalMs then
    .error (.raised "Webhook worker interval must be between 250 and 90000ms")
  else if options.failureLimit < 1 ∨ 100 < options.failureLimit then
    .error (.raised "Webhook worker failure limit must be between 1 and 100")
  else if options.failureBackoffMs < 250 ∨ 30000 < options.failureBackoffMs then
    .error (.raised "Webhook worker failure backoff must be between 250 and 30000ms")
  else if options.heartbeatIntervalMs < 250 ∨ 60000 < options.heartbeatIntervalMs then
    .error (.raised "Webhook worker heartbeat interval must be between 250 and 60000ms")
  else .ok ()

/-- `RunOutboundWebhookWorkerResult`. -/
structure WorkerResult where
  workerId : Text
  startedAt : ℤ
  stoppedAt : ℤ
  ticks : ℕ
  totals : WorkerTotals
  deriving DecidableEq

/-! ## States -/

/-- An `upsertOutboundWebhookWorker` under way. -/
structure WorkerWrite where
  worker : OutboundWebhookWorker
  /-- It is in the store. -/
  landed : Bool := false
  deriving DecidableEq

inductive WorkerPoint where
  | starting (write : WorkerWrite)
  | reconciling
  | dispatching
  | recordingTick (write : WorkerWrite)
  | waiting
  | recordingError (write : WorkerWrite) (error : WorkerError) (failedAt : ℤ)
  | backingOff
  | /-- The end of the chain of heartbeats, after the loop was left with an error or without. -/
    draining (failure : Option WorkerError)
  | finishing (write : WorkerWrite) (failure : Option WorkerError)
  | settled (result : Except WorkerError WorkerResult)

/-- The variables of the worker, and its record in the store. -/
structure WorkerState where
  point : WorkerPoint
  startedAt : ℤ
  aborted : Bool := false
  /-- The timer is set. -/
  timer : Bool := false
  /-- The heartbeats on the chain that have not begun. -/
  queued : ℕ := 0
  heartbeat : Option WorkerWrite := none
  heartbeatFailure : Option WorkerError := none
  ticks : ℕ := 0
  totals : WorkerTotals := {}
  consecutiveFailures : ℕ := 0
  lastTick : Option WorkerTick := none
  lastError : Option Text := none
  stored : Option OutboundWebhookWorker := none

/-- What the worker does that others can tell. -/
inductive WorkerEvent where
  | tickStarted
  | /-- A dispatch returned to the loop. -/
    dispatched (dispatch : DispatchOutboundWebhooksResult)
  | tickSucceeded
  | tickFailed
  | /-- `onTickError` is called. -/
    tickError (error : Text) (consecutiveFailures : ℕ) (retryInMs failedAt : ℤ)
  | /-- The signal was read, and is aborted. -/
    sawAbort
  | heartbeatLanded
  | /-- The last write failed. -/
    finalWriteFailed
  | /-- The promise of the worker is settled. -/
    settled
  deriving DecidableEq

/-! ## The loop between two promises -/

/-- A record of the worker while it runs. -/
def WorkerState.runningRecord (options : WorkerOptions) (state : WorkerState) (now : ℤ) :
    OutboundWebhookWorker where
  id := options.workerId
  status := .running
  startedAt := state.startedAt
  heartbeatAt := now
  lastError := state.lastError
  lastTick := state.lastTick

/-- `clearInterval`, and the chain is awaited. -/
def leaveLoop (state : WorkerState) (failure : Option WorkerError) : WorkerState :=
  { state with timer := false, point := .draining failure }

/-- The `catch` of a tick. -/
def catchTick (options : WorkerOptions) (state : WorkerState) (error : WorkerError) (now : ℤ) :
    WorkerState × List WorkerEvent :=
  if state.aborted then (leaveLoop state none, [.tickFailed, .sawAbort])
  else
    let state := { state with
      consecutiveFailures := state.consecutiveFailures + 1
      lastError := some (truncateOutboundWebhookError error.message) }
    if options.failureLimit ≤ state.consecutiveFailures then
      (leaveLoop state (some error), [.tickFailed])
    else
      ({ state with point := .recordingError ⟨state.runningRecord options now, false⟩ error now },
        [.tickFailed])

/-- The condition of the loop, and the start of a tick. -/
def startTick (options : WorkerOptions) (state : WorkerState) (now : ℤ) :
    WorkerState × List WorkerEvent :=
  if state.aborted then (leaveLoop state none, [.sawAbort])
  else
    match state.heartbeatFailure with
    | some error =>
        let (state, events) := catchTick options state error now
        (state, .tickStarted :: events)
    | none => ({ state with point := .reconciling }, [.tickStarted])

/-- How an awaited promise settles, with what the code gets and does next. -/
structure WorkerAnswer where
  /-- It rejects. -/
  error : Option WorkerError := none
  /-- The result of a dispatch. -/
  dispatch : DispatchOutboundWebhooksResult := ⟨0, 0, 0, 0, 0, []⟩
  /-- `onTick` or `onTickError` throws. -/
  callback : Option WorkerError := none
  now : ℤ := 0

/-- The rest of a tick, when its dispatch has returned. -/
def countTick (options : WorkerOptions) (state : WorkerState)
    (dispatch : DispatchOutboundWebhooksResult) (now : ℤ) : WorkerState :=
  let state := { state with
    ticks := state.ticks + 1
    totals := state.totals.add dispatch
    consecutiveFailures := 0
    lastError := none
    lastTick := some ⟨({} : WorkerTotals).add dispatch, now⟩ }
  { state with point := .recordingTick ⟨state.runningRecord options now, false⟩ }

def WorkerState.finalRecord (options : WorkerOptions) (state : WorkerState)
    (failure : Option WorkerError) (now : ℤ) : OutboundWebhookWorker where
  id := options.workerId
  status := if failure.isSome then .failed else .stopped
  startedAt := state.startedAt
  heartbeatAt := now
  stoppedAt := some now
  lastError := failure.map fun error => truncateOutboundWebhookError error.message
  lastTick := state.lastTick

/-- How the promise of the worker is settled when the last write was answered. -/
def finalResult (options : WorkerOptions) (state : WorkerState) (write : WorkerWrite) :
    Option WorkerError → Option WorkerError → Except WorkerError WorkerResult
  | none, none => .ok ⟨options.workerId, state.startedAt, write.worker.heartbeatAt, state.ticks,
      state.totals⟩
  | none, some persistenceError => .error persistenceError
  | some error, none => .error error
  | some error, some persistenceError => .error (.aggregate
      "Webhook worker failed and its final state could not be persisted" error persistenceError)

/-- `Math.min(MAX_BACKOFF, failureBackoffMs * 2 ** (consecutiveFailures - 1))`. -/
def workerRetryInMs (options : WorkerOptions) (consecutiveFailures : ℕ) : ℤ :=
  min 30000 (options.failureBackoffMs * 2 ^ (consecutiveFailures - 1))

/-- The loop goes on with an answer, up to the next promise; a write that succeeds is in the
store. -/
def goOn (options : WorkerOptions) (state : WorkerState) (answer : WorkerAnswer) :
    Option (WorkerState × List WorkerEvent) :=
  match state.point, answer.error with
  | .starting _, some error => some ({ state with point := .settled (.error error) }, [.settled])
  | .starting write, none =>
      if write.landed then some (startTick options { state with timer := true } answer.now)
      else none
  | .reconciling, some error => some (catchTick options state error answer.now)
  | .reconciling, none => some ({ state with point := .dispatching }, [])
  | .dispatching, some error => some (catchTick options state error answer.now)
  | .dispatching, none =>
      match state.heartbeatFailure with
      | some error =>
          let (state, events) := catchTick options state error answer.now
          some (state, .dispatched answer.dispatch :: events)
      | none => some (countTick options state answer.dispatch answer.now,
          [.dispatched answer.dispatch])
  | .recordingTick _, some error => some (catchTick options state error answer.now)
  | .recordingTick write, none =>
      if write.landed then
        let state := { state with heartbeatFailure := none }
        match answer.callback with
        | some error => some (catchTick options state error answer.now)
        | none => some ({ state with point := .waiting }, [.tickSucceeded])
      else none
  | .waiting, _ => some (startTick options state answer.now)
  | .recordingError _ error _, some persistenceError =>
      some (leaveLoop state (some (.aggregate
        "Webhook tick failed and its error heartbeat could not be persisted" error
        persistenceError)), [])
  | .recordingError write error failedAt, none =>
      if write.landed then
        let state := { state with heartbeatFailure := none }
        let events := [.tickError (truncateOutboundWebhookError error.message)
          state.consecutiveFailures (workerRetryInMs options state.consecutiveFailures) failedAt]
        match answer.callback with
        | some error => some (leaveLoop state (some error), events)
        | none => some ({ state with point := .backingOff }, events)
      else none
  | .backingOff, _ => some (startTick options state answer.now)
  | .draining failure, _ =>
      if state.queued = 0 ∧ state.heartbeat = none then
        some ({ state with
          point := .finishing ⟨state.finalRecord options failure answer.now, false⟩ failure }, [])
      else none
  | .finishing write failure, some error =>
      some ({ state with point := .settled (finalResult options state write failure (some error)) },
        [.finalWriteFailed, .settled])
  | .finishing write failure, none =>
      if write.landed then
        some ({ state with point := .settled (finalResult options state write failure none) },
          [.settled])
      else none
  | .settled _, _ => none

/-! ## Moves -/

inductive WorkerMove where
  | /-- The caller aborts. -/
    abort
  | /-- The timer fires and appends a heartbeat to the chain. -/
    timer
  | heartbeatBegins (now : ℤ)
  | heartbeatLands
  | heartbeatEnds (error : Option WorkerError)
  | /-- The write that the loop awaits lands. -/
    writeLands
  | goesOn (answer : WorkerAnswer)

/-- The write that the loop awaits, and the point where it is in the store. -/
def WorkerPoint.write? : WorkerPoint → Option (WorkerWrite × WorkerPoint)
  | .starting write => some (write, .starting { write with landed := true })
  | .recordingTick write => some (write, .recordingTick { write with landed := true })
  | .recordingError write error failedAt =>
      some (write, .recordingError { write with landed := true } error failedAt)
  | .finishing write failure => some (write, .finishing { write with landed := true } failure)
  | _ => none

def WorkerState.step (options : WorkerOptions) (state : WorkerState) :
    WorkerMove → Option (WorkerState × List WorkerEvent)
  | .abort => some ({ state with aborted := true }, [])
  | .timer => if state.timer then some ({ state with queued := state.queued + 1 }, []) else none
  | .heartbeatBegins now =>
      if 0 < state.queued ∧ state.heartbeat = none then
        some ({ state with
          queued := state.queued - 1
          heartbeat := some ⟨state.runningRecord options now, false⟩ }, [])
      else none
  | .heartbeatLands =>
      match state.heartbeat with
      | some ⟨worker, false⟩ =>
          some ({ state with stored := some worker, heartbeat := some ⟨worker, true⟩ },
            [.heartbeatLanded])
      | _ => none
  | .heartbeatEnds error =>
      match state.heartbeat with
      | some write =>
          if error.isSome ∨ write.landed then
            some ({ state with heartbeat := none, heartbeatFailure := error }, [])
          else none
      | none => none
  | .writeLands =>
      match state.point.write? with
      | some (⟨worker, false⟩, point) =>
          some ({ state with stored := some worker, point := point }, [])
      | _ => none
  | .goesOn answer => goOn options state answer

/-- The first state: the record of the start is being written. -/
def startWorker (options : WorkerOptions) (now : ℤ) : Except WorkerError WorkerState :=
  match options.check with
  | .error error => .error error
  | .ok () => .ok {
      point := .starting
        ⟨{ id := options.workerId, status := .running, startedAt := now, heartbeatAt := now }, false⟩
      startedAt := now }

def advance (options : WorkerOptions) (situation : WorkerState × List WorkerEvent)
    (move : WorkerMove) : Option (WorkerState × List WorkerEvent) :=
  (situation.1.step options move).map fun (state, events) => (state, situation.2 ++ events)

/-! ## What the events say -/

/-- The ticks that failed since one succeeded. -/
def failedInRow (events : List WorkerEvent) : ℕ :=
  events.foldl (fun failed event =>
    match event with
    | .tickFailed => failed + 1
    | .tickSucceeded => 0
    | _ => failed) 0

/-- The sums over the dispatches that returned. -/
def dispatchedTotals (events : List WorkerEvent) : WorkerTotals :=
  events.foldl (fun totals event =>
    match event with
    | .dispatched dispatch => totals.add dispatch
    | _ => totals) {}

/-- Fewer ticks failed in a row than the limit when a tick is started. -/
def Limited (limit : ℤ) (events : List WorkerEvent) : Prop :=
  ∀ before after, events = before ++ .tickStarted :: after → (failedInRow before : ℤ) < limit

/-- No tick is started after the abort was seen, and no heartbeat lands after the end. -/
def MayFollow (earlier later : WorkerEvent) : Prop :=
  (earlier = .sawAbort → later ≠ .tickStarted) ∧ (earlier = .settled → later ≠ .heartbeatLanded)

section Events

variable {limit : ℤ} {events : List WorkerEvent} {event : WorkerEvent}

theorem failedInRow_concat : failedInRow (events ++ [event]) =
    match event with
    | .tickFailed => failedInRow events + 1
    | .tickSucceeded => 0
    | _ => failedInRow events := by
  rw [failedInRow, List.foldl_append]
  cases event <;> rfl

theorem dispatchedTotals_concat : dispatchedTotals (events ++ [event]) =
    match event with
    | .dispatched dispatch => (dispatchedTotals events).add dispatch
    | _ => dispatchedTotals events := by
  rw [dispatchedTotals, List.foldl_append]
  cases event <;> rfl

theorem limited_nil : Limited limit [] := fun before after h => by simp at h

theorem Limited.concat (h : Limited limit events)
    (hevent : event = .tickStarted → (failedInRow events : ℤ) < limit) :
    Limited limit (events ++ [event]) := by
  intro before after heq
  rcases List.eq_nil_or_concat after with rfl | ⟨after', last, rfl⟩
  · obtain ⟨rfl, hlast⟩ := List.append_inj' heq rfl
    exact hevent (List.singleton_inj.mp hlast)
  · rw [List.concat_eq_append, ← List.cons_append, ← List.append_assoc] at heq
    exact h before after' (List.append_inj' heq rfl).1

theorem pairwise_concat (h : events.Pairwise MayFollow) (hstart : event = .tickStarted →
    WorkerEvent.sawAbort ∉ events) (hlands : event = .heartbeatLanded →
      WorkerEvent.settled ∉ events) : (events ++ [event]).Pairwise MayFollow := by
  rw [List.pairwise_append]
  refine ⟨h, List.pairwise_singleton _ _, fun earlier hearlier later hlater => ?_⟩
  rw [List.mem_singleton.mp hlater]
  refine ⟨?_, ?_⟩
  · rintro rfl heq
    exact hstart heq hearlier
  · rintro rfl heq
    exact hlands heq hearlier

end Events

/-! ## The invariant -/

/-- Nothing of the chain of heartbeats is left. -/
structure WorkerState.Quiet (state : WorkerState) : Prop where
  timer : state.timer = false
  queued : state.queued = 0
  heartbeat : state.heartbeat = none

/-- While the loop runs no abort was seen, nothing is settled, the totals are those of the ticks,
and the limit of failures is not reached. -/
structure WorkerState.Looping (state : WorkerState) (limit : ℤ) (events : List WorkerEvent) :
    Prop where
  notSeen : WorkerEvent.sawAbort ∉ events
  notSettled : WorkerEvent.settled ∉ events
  totals : state.totals = dispatchedTotals events
  below : (state.consecutiveFailures : ℤ) < limit

def finalStatus (failure : Option WorkerError) : WorkerStatus :=
  if failure.isSome then .failed else .stopped

/-- What holds where the loop awaits a promise. -/
def WorkerState.AtPoint (state : WorkerState) (limit : ℤ) (events : List WorkerEvent) :
    WorkerPoint → Prop
  | .recordingTick _ => state.Looping limit events ∧ state.consecutiveFailures = 0
  | .draining _ => WorkerEvent.settled ∉ events ∧ state.timer = false ∧
      state.totals = dispatchedTotals events
  | .finishing write failure => WorkerEvent.settled ∉ events ∧ state.Quiet ∧
      state.totals = dispatchedTotals events ∧ write.worker.status = finalStatus failure ∧
        (write.landed = true → state.stored = some write.worker)
  | .settled (.ok result) => state.Quiet ∧ result.totals = dispatchedTotals events ∧
      ∃ worker, state.stored = some worker ∧ worker.status = .stopped
  | .settled (.error _) => state.Quiet ∧
      ((∃ worker, state.stored = some worker ∧ worker.status = .failed) ∨
        WorkerEvent.finalWriteFailed ∈ events)
  | _ => state.Looping limit events ∧ failedInRow events = state.consecutiveFailures

/-- The invariant of a run: no tick after too many failures, events in an order that is allowed,
and what holds where the loop stands. -/
structure WorkerInv (options : WorkerOptions) (state : WorkerState) (events : List WorkerEvent) :
    Prop where
  limited : Limited options.failureLimit events
  ordered : events.Pairwise MayFollow
  atPoint : state.AtPoint options.failureLimit events state.point

/-! ## Steps keep the invariant -/

section Steps

variable {options : WorkerOptions} {state : WorkerState} {events : List WorkerEvent}
  {error : WorkerError} {now : ℤ} {after : WorkerState} {new : List WorkerEvent}

theorem catchTick_inv (h : catchTick options state error now = (after, new))
    (limited : Limited options.failureLimit events)
    (ordered : events.Pairwise MayFollow) (looping : state.Looping options.failureLimit events)
    (count : failedInRow events = state.consecutiveFailures) :
    WorkerInv options after (events ++ new) := by
  suffices hinv : WorkerInv options (catchTick options state error now).1
      (events ++ (catchTick options state error now).2) by
    rwa [h] at hinv
  have hlimited : Limited options.failureLimit (events ++ [.tickFailed]) :=
    limited.concat nofun
  have hordered : (events ++ [WorkerEvent.tickFailed]).Pairwise MayFollow :=
    pairwise_concat ordered nofun nofun
  have htotals : state.totals = dispatchedTotals (events ++ [.tickFailed]) := by
    rw [dispatchedTotals_concat]
    exact looping.totals
  have hsettled : WorkerEvent.settled ∉ events ++ [.tickFailed] := by
    simpa using looping.notSettled
  rw [catchTick]
  split_ifs with haborted
  · have hevents : events ++ [.tickFailed, .sawAbort] = events ++ [.tickFailed] ++ [.sawAbort] := by
      simp
    simp only [hevents]
    refine ⟨hlimited.concat nofun, pairwise_concat hordered nofun nofun, ?_, rfl, ?_⟩
    · simpa using looping.notSettled
    · rw [dispatchedTotals_concat]
      exact htotals
  · simp only
    split_ifs with hlimit
    · exact ⟨hlimited, hordered, hsettled, rfl, htotals⟩
    · refine ⟨hlimited, hordered, ⟨?_, hsettled, htotals, not_le.mp hlimit⟩, ?_⟩
      · simpa using looping.notSeen
      · rw [failedInRow_concat]
        exact congrArg (· + 1) count

theorem startTick_inv (h : startTick options state now = (after, new))
    (limited : Limited options.failureLimit events)
    (ordered : events.Pairwise MayFollow) (looping : state.Looping options.failureLimit events)
    (count : failedInRow events = state.consecutiveFailures) :
    WorkerInv options after (events ++ new) := by
  suffices hinv : WorkerInv options (startTick options state now).1
      (events ++ (startTick options state now).2) by
    rwa [h] at hinv
  have hlimited : Limited options.failureLimit (events ++ [.tickStarted]) :=
    limited.concat fun _ => by
      rw [count]
      exact looping.below
  have hordered : (events ++ [WorkerEvent.tickStarted]).Pairwise MayFollow :=
    pairwise_concat ordered (fun _ => looping.notSeen) nofun
  have hlooping : state.Looping options.failureLimit (events ++ [.tickStarted]) := by
    refine ⟨by simpa using looping.notSeen, by simpa using looping.notSettled, ?_, looping.below⟩
    rw [dispatchedTotals_concat]
    exact looping.totals
  have hcount : failedInRow (events ++ [.tickStarted]) = state.consecutiveFailures := by
    rw [failedInRow_concat]
    exact count
  rw [startTick]
  split_ifs with haborted
  · refine ⟨limited.concat nofun, pairwise_concat ordered nofun nofun, ?_, rfl, ?_⟩
    · simpa using looping.notSettled
    · simp only [dispatchedTotals_concat]
      exact looping.totals
  · cases hfailure : state.heartbeatFailure with
    | some error =>
        have hinv : WorkerInv options (catchTick options state error now).1
            (events ++ [.tickStarted] ++ (catchTick options state error now).2) :=
          catchTick_inv rfl hlimited hordered hlooping hcount
        rwa [List.append_assoc] at hinv
    | none =>
        exact ⟨hlimited, hordered, ⟨hlooping.notSeen, hlooping.notSettled, hlooping.totals,
          hlooping.below⟩, hcount⟩

/-- What a move may do: the first write succeeds, nothing fails when a dispatch has returned, and
the write of a worker that stops succeeds. -/
def WorkerState.Meets (state : WorkerState) : WorkerMove → Prop
  | .goesOn answer =>
      match state.point with
      | .starting _ => answer.error = none
      | .dispatching => answer.error = none → state.heartbeatFailure = none
      | .recordingTick _ => answer.error = none ∧ answer.callback = none
      | .finishing _ none => answer.error = none
      | _ => True
  | _ => True

theorem goOn_inv {answer : WorkerAnswer}
    (h : goOn options state answer = some (after, new)) (inv : WorkerInv options state events)
    (meets : state.Meets (.goesOn answer)) : WorkerInv options after (events ++ new) := by
  obtain ⟨limited, ordered, atPoint⟩ := inv
  rw [WorkerState.Meets] at meets
  rw [goOn] at h
  cases hpoint : state.point with
  | starting write =>
      simp only [hpoint] at h meets atPoint
      simp only [meets] at h
      split_ifs at h
      exact startTick_inv (Option.some.inj h) limited ordered ⟨atPoint.1.notSeen,
        atPoint.1.notSettled, atPoint.1.totals, atPoint.1.below⟩ atPoint.2
  | reconciling =>
      simp only [hpoint] at h atPoint
      cases herror : answer.error with
      | none =>
          simp only [herror] at h
          cases h
          rw [List.append_nil]
          exact ⟨limited, ordered, ⟨atPoint.1.notSeen, atPoint.1.notSettled, atPoint.1.totals,
            atPoint.1.below⟩, atPoint.2⟩
      | some error =>
          simp only [herror] at h
          exact catchTick_inv (Option.some.inj h) limited ordered atPoint.1 atPoint.2
  | dispatching =>
      simp only [hpoint] at h meets atPoint
      cases herror : answer.error with
      | none =>
          simp only [herror, meets herror] at h
          cases h
          refine ⟨limited.concat nofun, pairwise_concat ordered nofun nofun,
            ⟨by simpa using atPoint.1.notSeen, by simpa using atPoint.1.notSettled, ?_, ?_⟩, rfl⟩
          · rw [dispatchedTotals_concat]
            exact congrArg (WorkerTotals.add · answer.dispatch) atPoint.1.totals
          · exact lt_of_le_of_lt (Int.natCast_nonneg _) atPoint.1.below
      | some error =>
          simp only [herror] at h
          exact catchTick_inv (Option.some.inj h) limited ordered atPoint.1 atPoint.2
  | recordingTick write =>
      simp only [hpoint] at h meets atPoint
      simp only [meets.1, meets.2] at h
      split_ifs at h
      cases h
      refine ⟨limited.concat nofun, pairwise_concat ordered nofun nofun,
        ⟨by simpa using atPoint.1.notSeen, by simpa using atPoint.1.notSettled, ?_,
          atPoint.1.below⟩, ?_⟩
      · rw [dispatchedTotals_concat]
        exact atPoint.1.totals
      · rw [failedInRow_concat]
        exact atPoint.2.symm
  | waiting =>
      simp only [hpoint] at h atPoint
      exact startTick_inv (Option.some.inj h) limited ordered atPoint.1 atPoint.2
  | recordingError write error failedAt =>
      simp only [hpoint] at h atPoint
      cases herror : answer.error with
      | none =>
          simp only [herror] at h
          split_ifs at h
          cases hcallback : answer.callback with
          | none =>
              simp only [hcallback] at h
              cases h
              refine ⟨limited.concat nofun, pairwise_concat ordered nofun nofun,
                ⟨by simpa using atPoint.1.notSeen, by simpa using atPoint.1.notSettled, ?_,
                  atPoint.1.below⟩, ?_⟩
              · rw [dispatchedTotals_concat]
                exact atPoint.1.totals
              · rw [failedInRow_concat]
                exact atPoint.2
          | some callbackError =>
              simp only [hcallback] at h
              cases h
              refine ⟨limited.concat nofun, pairwise_concat ordered nofun nofun,
                by simpa using atPoint.1.notSettled, rfl, ?_⟩
              rw [dispatchedTotals_concat]
              exact atPoint.1.totals
      | some persistenceError =>
          simp only [herror] at h
          cases h
          rw [List.append_nil]
          exact ⟨limited, ordered, atPoint.1.notSettled, rfl, atPoint.1.totals⟩
  | backingOff =>
      simp only [hpoint] at h atPoint
      exact startTick_inv (Option.some.inj h) limited ordered atPoint.1 atPoint.2
  | draining failure =>
      simp only [hpoint] at h atPoint
      split_ifs at h with hdrained
      cases h
      rw [List.append_nil]
      exact ⟨limited, ordered, atPoint.1, ⟨atPoint.2.1, hdrained.1, hdrained.2⟩, atPoint.2.2, rfl,
        nofun⟩
  | finishing write failure =>
      simp only [hpoint] at h meets atPoint
      obtain ⟨hsettled, hquiet, htotals, hstatus, hlanded⟩ := atPoint
      have hquiet' : ∀ point, ({ state with point := point } : WorkerState).Quiet :=
        fun _ => ⟨hquiet.timer, hquiet.queued, hquiet.heartbeat⟩
      cases failure with
      | none =>
          simp only [meets] at h
          split_ifs at h with hland
          cases h
          refine ⟨limited.concat nofun, pairwise_concat ordered nofun nofun, hquiet' _, ?_,
            write.worker, hlanded hland, hstatus⟩
          rw [dispatchedTotals_concat]
          exact htotals
      | some error =>
          cases herror : answer.error with
          | none =>
              simp only [herror] at h
              split_ifs at h with hland
              cases h
              exact ⟨limited.concat nofun, pairwise_concat ordered nofun nofun, hquiet' _,
                .inl ⟨write.worker, hlanded hland, hstatus⟩⟩
          | some persistenceError =>
              simp only [herror] at h
              cases h
              have hevents : events ++ [.finalWriteFailed, .settled] =
                  events ++ [.finalWriteFailed] ++ [.settled] := by
                simp
              have hlimited : Limited options.failureLimit (events ++ [.finalWriteFailed]) :=
                limited.concat nofun
              have hordered : (events ++ [WorkerEvent.finalWriteFailed]).Pairwise MayFollow :=
                pairwise_concat ordered nofun nofun
              rw [hevents]
              exact ⟨hlimited.concat nofun, pairwise_concat hordered nofun nofun, hquiet' _,
                .inr (by simp)⟩
  | settled result =>
      simp only [hpoint] at h
      cases h

/-- A move beside the loop, which is none where nothing of the chain is left. -/
theorem atPoint_transfer {limit : ℤ} {point : WorkerPoint} (h : state.AtPoint limit events point)
    (totals : after.totals = state.totals)
    (failures : after.consecutiveFailures = state.consecutiveFailures)
    (timer : state.timer = false → after.timer = false)
    (quiet : state.Quiet → after.Quiet ∧ after.stored = state.stored) :
    after.AtPoint limit events point := by
  have hlooping : state.Looping limit events → after.Looping limit events := fun looping =>
    ⟨looping.notSeen, looping.notSettled, totals.trans looping.totals, by
      rw [failures]
      exact looping.below⟩
  cases point with
  | recordingTick write => exact ⟨hlooping h.1, failures.trans h.2⟩
  | draining failure => exact ⟨h.1, timer h.2.1, totals.trans h.2.2⟩
  | finishing write failure =>
      obtain ⟨hsettled, hquiet, htotals, hstatus, hlanded⟩ := h
      exact ⟨hsettled, (quiet hquiet).1, totals.trans htotals, hstatus,
        fun hland => (quiet hquiet).2.trans (hlanded hland)⟩
  | settled result =>
      cases result with
      | ok result =>
          obtain ⟨hquiet, htotals, worker, hstored, hstatus⟩ := h
          exact ⟨(quiet hquiet).1, htotals, worker, (quiet hquiet).2.trans hstored, hstatus⟩
      | error error =>
          obtain ⟨hquiet, ⟨worker, hstored, hstatus⟩ | hfailed⟩ := h
          · exact ⟨(quiet hquiet).1, .inl ⟨worker, (quiet hquiet).2.trans hstored, hstatus⟩⟩
          · exact ⟨(quiet hquiet).1, .inr hfailed⟩
  | _ => exact ⟨hlooping h.1, h.2.trans failures.symm⟩

theorem atPoint_heartbeatLanded {limit : ℤ} {point : WorkerPoint}
    (h : state.AtPoint limit events point) (hheartbeat : ¬ state.Quiet) :
    WorkerEvent.settled ∉ events ∧
      state.AtPoint limit (events ++ [.heartbeatLanded]) point := by
  have htotals : dispatchedTotals (events ++ [.heartbeatLanded]) = dispatchedTotals events :=
    dispatchedTotals_concat
  have hcount : failedInRow (events ++ [.heartbeatLanded]) = failedInRow events :=
    failedInRow_concat
  have hlooping : state.Looping limit events →
      state.Looping limit (events ++ [.heartbeatLanded]) := fun looping =>
    ⟨by simpa using looping.notSeen, by simpa using looping.notSettled,
      looping.totals.trans htotals.symm, looping.below⟩
  cases point with
  | recordingTick write => exact ⟨h.1.notSettled, hlooping h.1, h.2⟩
  | draining failure =>
      exact ⟨h.1, by simpa using h.1, h.2.1, h.2.2.trans htotals.symm⟩
  | finishing write failure => exact absurd h.2.1 hheartbeat
  | settled result =>
      cases result with
      | ok result => exact absurd h.1 hheartbeat
      | error error => exact absurd h.1 hheartbeat
  | _ => exact ⟨h.1.notSettled, hlooping h.1, hcount.trans h.2⟩

theorem atPoint_writeLands {limit : ℤ} {point next : WorkerPoint} {worker : OutboundWebhookWorker}
    (h : state.AtPoint limit events point) (hwrite : point.write? = some (⟨worker, false⟩, next)) :
    ({ state with stored := some worker, point := next } : WorkerState).AtPoint limit events
      next := by
  have hlooping : state.Looping limit events →
      ({ state with stored := some worker, point := next } : WorkerState).Looping limit events :=
    fun looping => ⟨looping.notSeen, looping.notSettled, looping.totals, looping.below⟩
  cases point with
  | starting write => cases hwrite; exact ⟨hlooping h.1, h.2⟩
  | recordingTick write => cases hwrite; exact ⟨hlooping h.1, h.2⟩
  | recordingError write error failedAt => cases hwrite; exact ⟨hlooping h.1, h.2⟩
  | finishing write failure =>
      cases hwrite
      obtain ⟨hsettled, hquiet, htotals, hstatus, -⟩ := h
      exact ⟨hsettled, ⟨hquiet.timer, hquiet.queued, hquiet.heartbeat⟩, htotals, hstatus,
        fun _ => rfl⟩
  | _ => cases hwrite

theorem step_inv {move : WorkerMove} (h : state.step options move = some (after, new))
    (inv : WorkerInv options state events) (meets : state.Meets move) :
    WorkerInv options after (events ++ new) := by
  obtain ⟨limited, ordered, atPoint⟩ := inv
  cases move with
  | abort =>
      cases h
      rw [List.append_nil]
      exact ⟨limited, ordered, atPoint_transfer atPoint rfl rfl id fun hquiet =>
        ⟨⟨hquiet.timer, hquiet.queued, hquiet.heartbeat⟩, rfl⟩⟩
  | timer =>
      rw [WorkerState.step] at h
      split_ifs at h with htimer
      cases h
      rw [List.append_nil]
      exact ⟨limited, ordered, atPoint_transfer atPoint rfl rfl id fun hquiet =>
        absurd (hquiet.timer.symm.trans htimer) nofun⟩
  | heartbeatBegins now =>
      rw [WorkerState.step] at h
      split_ifs at h with hbegins
      cases h
      rw [List.append_nil]
      exact ⟨limited, ordered, atPoint_transfer atPoint rfl rfl id fun hquiet =>
        absurd hquiet.queued hbegins.1.ne'⟩
  | heartbeatLands =>
      rw [WorkerState.step] at h
      split at h
      · rename_i worker hheartbeat
        cases h
        have hbusy : ¬ state.Quiet := fun hquiet =>
          absurd (hquiet.heartbeat.symm.trans hheartbeat) nofun
        obtain ⟨hsettled, hpoint⟩ := atPoint_heartbeatLanded atPoint hbusy
        exact ⟨limited.concat nofun, pairwise_concat ordered nofun fun _ => hsettled,
          atPoint_transfer hpoint rfl rfl id fun hquiet => absurd hquiet hbusy⟩
      · cases h
  | heartbeatEnds error =>
      rw [WorkerState.step] at h
      split at h
      · rename_i write hheartbeat
        split_ifs at h
        cases h
        rw [List.append_nil]
        exact ⟨limited, ordered, atPoint_transfer atPoint rfl rfl id fun hquiet =>
          absurd (hquiet.heartbeat.symm.trans hheartbeat) nofun⟩
      · cases h
  | writeLands =>
      rw [WorkerState.step] at h
      split at h
      · rename_i worker point hwrite
        cases h
        rw [List.append_nil]
        exact ⟨limited, ordered, atPoint_writeLands atPoint hwrite⟩
      · cases h
  | goesOn answer => exact goOn_inv h ⟨limited, ordered, atPoint⟩ meets

end Steps

/-! ## Runs -/

/-- The worker accounts for its ticks and leaves a final state: a run that ends has recorded how,
unless that write failed, and neither ticks nor heartbeats come too late. -/
structure Accounts (options : WorkerOptions) (state : WorkerState) (events : List WorkerEvent) :
    Prop where
  stopped : ∀ result, state.point = .settled (.ok result) →
    ∃ worker, state.stored = some worker ∧ worker.status = .stopped
  failed : ∀ error, state.point = .settled (.error error) →
    (∃ worker, state.stored = some worker ∧ worker.status = .failed) ∨
      WorkerEvent.finalWriteFailed ∈ events
  silent : ∀ before after, events = before ++ .settled :: after →
    WorkerEvent.heartbeatLanded ∉ after
  limited : ∀ before after, events = before ++ .tickStarted :: after →
    (failedInRow before : ℤ) < options.failureLimit
  aborted : ∀ before after, events = before ++ .sawAbort :: after →
    WorkerEvent.tickStarted ∉ after
  totals : ∀ result, state.point = .settled (.ok result) → result.totals = dispatchedTotals events

theorem WorkerInv.accounts {options : WorkerOptions} {state : WorkerState}
    {events : List WorkerEvent} (inv : WorkerInv options state events) :
    Accounts options state events := by
  obtain ⟨limited, ordered, atPoint⟩ := inv
  have hafter : ∀ {event : WorkerEvent} {before after : List WorkerEvent},
      events = before ++ event :: after → ∀ later ∈ after, MayFollow event later := by
    rintro event before after rfl later hlater
    rw [List.pairwise_append, List.pairwise_cons] at ordered
    exact ordered.2.1.1 later hlater
  refine ⟨fun result hpoint => ?_, fun error hpoint => ?_, fun before after heq hmem => ?_,
    limited, fun before after heq hmem => ?_, fun result hpoint => ?_⟩
  · rw [hpoint] at atPoint
    exact atPoint.2.2
  · rw [hpoint] at atPoint
    exact atPoint.2
  · exact (hafter heq _ hmem).2 rfl rfl
  · exact (hafter heq _ hmem).1 rfl rfl
  · rw [hpoint] at atPoint
    exact atPoint.2.1

/-- A run whose moves meet the condition. -/
def GoodMove (options : WorkerOptions) (situation : WorkerState × List WorkerEvent)
    (move : WorkerMove) (next : WorkerState × List WorkerEvent) : Prop :=
  advance options situation move = some next ∧ situation.1.Meets move

/-- In every run whose moves meet the condition the worker accounts for its ticks, in every state
that it reaches. -/
theorem worker_accounts {options : WorkerOptions} {now : ℤ} {start state : WorkerState}
    {moves : List WorkerMove} {events : List WorkerEvent}
    (hstart : startWorker options now = .ok start)
    (hrun : Run (GoodMove options) (start, []) moves (state, events)) :
    Accounts options state events := by
  refine WorkerInv.accounts (hrun.invariant (I := fun situation =>
    WorkerInv options situation.1 situation.2) ?_ ?_)
  · rintro ⟨before, earlier⟩ move ⟨after, later⟩ inv ⟨hadvance, meets⟩
    rw [advance, Option.map_eq_some_iff] at hadvance
    obtain ⟨⟨next, new⟩, hstep, heq⟩ := hadvance
    cases heq
    exact step_inv hstep inv meets
  · rw [startWorker, WorkerOptions.check] at hstart
    split_ifs at hstart with hinterval hlimit
    cases hstart
    exact ⟨limited_nil, .nil, ⟨List.not_mem_nil, List.not_mem_nil, rfl,
      by simp only [Nat.cast_zero]; omega⟩, rfl⟩

/-- A worker that gives up after two ticks. -/
def exampleWorker : WorkerOptions where
  workerId := "88888888-8888-4888-8888-888888888888"
  failureLimit := 2

def exampleStart : WorkerState where
  point := .starting
    ⟨{ id := exampleWorker.workerId, status := .running, startedAt := 0, heartbeatAt := 0 }, false⟩
  startedAt := 0

/-- A tick fails, a heartbeat lands while the worker backs off, a tick delivers, and the worker
is aborted while it waits for the next one. -/
theorem worker_accounts_exampleWorker : ∃ state events,
    (∃ result, state.point = .settled (.ok result) ∧ result.ticks = 1) ∧
      events = [.tickStarted, .tickFailed, .tickError "store" 1 1000 0, .heartbeatLanded,
        .tickStarted, .dispatched ⟨1, 1, 0, 0, 0, []⟩, .tickSucceeded, .sawAbort, .settled] ∧
      Accounts exampleWorker state events := by
  have hfailed : Run (GoodMove exampleWorker) (exampleStart, [])
      [.writeLands, .goesOn {}, .goesOn { error := some (.raised "store") }, .writeLands,
        .goesOn {}] _ :=
    .cons ⟨rfl, trivial⟩ (.cons ⟨rfl, rfl⟩ (.cons ⟨rfl, trivial⟩ (.cons ⟨rfl, trivial⟩
      (.cons ⟨rfl, trivial⟩ (.refl _)))))
  have hbeat := hfailed.trans (show Run (GoodMove exampleWorker) _
      [.timer, .heartbeatBegins 500, .heartbeatLands, .heartbeatEnds none] _ from
    .cons ⟨rfl, trivial⟩ (.cons ⟨rfl, trivial⟩ (.cons ⟨rfl, trivial⟩ (.cons ⟨rfl, trivial⟩
      (.refl _)))))
  have hticked := hbeat.trans (show Run (GoodMove exampleWorker) _
      [.goesOn {}, .goesOn {}, .goesOn { dispatch := ⟨1, 1, 0, 0, 0, []⟩ }, .writeLands,
        .goesOn {}] _ from
    .cons ⟨rfl, trivial⟩ (.cons ⟨rfl, trivial⟩ (.cons ⟨rfl, fun _ => rfl⟩ (.cons ⟨rfl, trivial⟩
      (.cons ⟨rfl, rfl, rfl⟩ (.refl _))))))
  have hstopped := hticked.trans (show Run (GoodMove exampleWorker) _
      [.abort, .goesOn {}, .goesOn {}, .writeLands, .goesOn {}] _ from
    .cons ⟨rfl, trivial⟩ (.cons ⟨rfl, trivial⟩ (.cons ⟨rfl, trivial⟩ (.cons ⟨rfl, trivial⟩
      (.cons ⟨rfl, rfl⟩ (.refl _))))))
  exact ⟨_, _, ⟨_, rfl, rfl⟩, rfl, worker_accounts
    (show startWorker exampleWorker 0 = .ok exampleStart from rfl) hstopped⟩

/-- A tick whose `onTick` throws, up to the start of the next one. -/
def throwingTick : List WorkerMove :=
  [.goesOn {}, .goesOn {}, .writeLands, .goesOn { callback := some (.raised "onTick") },
    .writeLands, .goesOn {}, .goesOn {}]

/-- Two ticks fail in a row, and the worker goes on with a third. -/
theorem not_accounts_throwingTick : ∃ state events,
    startWorker exampleWorker 0 = .ok exampleStart ∧
      (.writeLands :: .goesOn {} :: (throwingTick ++ throwingTick)).foldlM (advance exampleWorker)
        (exampleStart, []) = some (state, events) ∧ ¬ Accounts exampleWorker state events := by
  refine ⟨_, _, rfl, rfl, fun h => ?_⟩
  have hlimited := h.limited
    [.tickStarted, .dispatched ⟨0, 0, 0, 0, 0, []⟩, .tickFailed, .tickError "onTick" 1 1000 0,
      .tickStarted, .dispatched ⟨0, 0, 0, 0, 0, []⟩, .tickFailed, .tickError "onTick" 1 1000 0]
    [] rfl
  exact absurd hlimited (by decide)

end ListmonkOps.Webhook
