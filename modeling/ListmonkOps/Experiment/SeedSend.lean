/-
Seed sends of an A/B test.

Before the preview of a test is approved its variants can be sent to a few seed
recipients. A seed run records how far the send of each variant has come; it is
made for one content and one set of recipients. The caller hands the run it has
to the creation of the next one, and a run that was completed for the same
content and recipients is given back instead of a new one.
-/

import ListmonkOps.Experiment.Preview

namespace ListmonkOps.Experiment

open ListmonkOps.Runtime

/-! ## States of a variant -/

def SeedState.toText : SeedState → Text
  | .pending => "pending"
  | .sending => "sending"
  | .sent => "sent"
  | .ambiguous => "ambiguous"
  | .failed => "failed"

def terminalSeedStates : List SeedState := [.sent, .failed, .ambiguous]

def SeedState.isTerminal (state : SeedState) : Bool := terminalSeedStates.contains state

/-- `Number.isInteger(value) && value > 0`. -/
def isPositiveInteger : Number → Bool
  | .finite value => value.isPositive && 0 ≤ value.exponent
  | _ => false

/-- Check whether all variants of a run are in a terminal state. -/
def isSeedRunComplete (run : SeedSendRun) : Bool := run.variants.all (·.state.isTerminal)

/-- `run.completedAt` is there and not empty. -/
def SeedSendRun.isCompleted (run : SeedSendRun) : Bool := run.completedAt.any (· ≠ [])

section Calls

variable [DateParsing]

/-! ## Creating a run -/

/-- What is asked of a new run. -/
structure SeedRunRequest where
  contentChecksum : Text
  recipientSetChecksum : Text
  variantIds : List Text
  campaignIds : List Number
  startedAt : Text

/-- The checks made before a completed run is looked at. -/
def validateSeedRun (request : SeedRunRequest) : Except Text Unit :=
  if !isCollisionTimestamp request.startedAt then
    .error "startedAt must be a valid ISO 8601 timestamp"
  else if request.variantIds = [] then
    .error "At least one variant is required for a seed send run"
  else if ¬request.variantIds.Nodup then
    .error "Duplicate variant IDs are not allowed in a seed send run"
  else if request.campaignIds.length ≠ request.variantIds.length then
    .error (("campaignIds length (" : Text) ++ Text.ofNat request.campaignIds.length ++
      (") must equal variantIds length (" : Text) ++ Text.ofNat request.variantIds.length ++ [41])
  else
    match request.campaignIds.find? (!isPositiveInteger ·) with
    | some id =>
        .error (("campaignIds must be positive integers, received " : Text) ++
          (Value.number id).stringify)
    | none =>
        if ¬request.campaignIds.Nodup then
          .error "Duplicate campaign IDs are not allowed in a seed send run"
        else .ok ()

/-- The run was completed for the same content and the same recipients. -/
def isReusable (request : SeedRunRequest) (existingRun : SeedSendRun) : Bool :=
  existingRun.isCompleted && existingRun.contentChecksum = request.contentChecksum &&
    existingRun.recipientSetChecksum = request.recipientSetChecksum

/-- A run whose variants are all pending. -/
def newSeedRun (request : SeedRunRequest) (uuid : Text) : SeedSendRun where
  runId := ("seed-" : Text) ++ uuid
  contentChecksum := request.contentChecksum
  recipientSetChecksum := request.recipientSetChecksum
  startedAt := request.startedAt
  variants := (request.variantIds.zip request.campaignIds).map fun (variantId, campaignId) =>
    { variantId, campaignId, state := .pending }

/-- The completed run of the same content and recipients, or a new one. -/
def createSeedSendRun (request : SeedRunRequest) (existingRun : Option SeedSendRun)
    (uuid : Text) : Except Text SeedSendRun := do
  validateSeedRun request
  match existingRun.filter (isReusable request) with
  | some existingRun => return existingRun
  | none => return newSeedRun request uuid

/-! ## Moving a variant on -/

def SeedVariantState.enter (newState : SeedState) (timestamp : Text) (error : Option Text)
    (v : SeedVariantState) : SeedVariantState :=
  { v with
    state := newState
    attemptedAt := some (v.attemptedAt.getD timestamp)
    completedAt := if newState.isTerminal then some timestamp else none
    error := error <|> v.error }

def transitionSeedVariant (run : SeedSendRun) (variantId : Text) (newState : SeedState)
    (timestamp : Text) (error : Option Text) : Except Text SeedSendRun :=
  if !isCollisionTimestamp timestamp then
    .error "timestamp must be a valid ISO 8601 timestamp"
  else
    match run.variants.find? (·.variantId = variantId) with
    | none =>
        .error (("Variant \"" : Text) ++ variantId ++ ("\" not found in seed run " : Text) ++
          run.runId)
    | some current =>
        if current.state = newState then .ok run
        else if current.state.isTerminal then
          .error (("Variant \"" : Text) ++ variantId ++
            ("\" is already in terminal state \"" : Text) ++ current.state.toText ++
            ("\"; cannot transition to \"" : Text) ++ newState.toText ++ [34])
        else
          let variants := run.variants.map fun v =>
            if v.variantId = variantId then v.enter newState timestamp error else v
          .ok { run with
            variants
            completedAt := if variants.all (·.state.isTerminal) then some timestamp else none }

/-! ## Sequences of calls -/

/-- A call; a creation is given the latest run, a transition is made on it. -/
inductive SeedCall where
  | create (request : SeedRunRequest) (uuid : Text)
  | transition (variantId : Text) (newState : SeedState) (timestamp : Text) (error : Option Text)

/-- The runs made so far, the latest last, after one more call. The latest run given
back is no new one. -/
def SeedCall.advance (runs : List SeedSendRun) : SeedCall → List SeedSendRun
  | .create request uuid =>
      match createSeedSendRun request runs.getLast? uuid with
      | .ok run => if runs.getLast?.any (isReusable request) then runs else runs ++ [run]
      | .error _ => runs
  | .transition variantId newState timestamp error =>
      match runs.getLast? with
      | none => runs
      | some run =>
          match transitionSeedVariant run variantId newState timestamp error with
          | .ok run => runs.dropLast ++ [run]
          | .error _ => runs

def seedRunsAfter (calls : List SeedCall) : List SeedSendRun := calls.foldl SeedCall.advance []

/-! ## What is promised -/

/-- A run for the same content and recipients has the variant as sent or ambiguous. -/
def Recorded (runs : List SeedSendRun) (contentChecksum recipientSetChecksum variantId : Text) :
    Prop :=
  ∃ run ∈ runs, run.contentChecksum = contentChecksum ∧
    run.recipientSetChecksum = recipientSetChecksum ∧
    ∃ v ∈ run.variants, v.variantId = variantId ∧ (v.state = .sent ∨ v.state = .ambiguous)

instance (runs : List SeedSendRun) (contentChecksum recipientSetChecksum variantId : Text) :
    Decidable (Recorded runs contentChecksum recipientSetChecksum variantId) :=
  inferInstanceAs (Decidable (∃ run ∈ runs, _ ∧ _ ∧ ∃ v ∈ run.variants, _))

/-- A new run has a variant as pending that is on record for the same content and the same
recipients, and so would be sent once more. -/
def Repeats (runs runs' : List SeedSendRun) : Prop :=
  ∃ run, runs' = runs ++ [run] ∧ ∃ v ∈ run.variants, v.state = .pending ∧
    Recorded runs run.contentChecksum run.recipientSetChecksum v.variantId

/-- A later state of the same run: whatever is terminal stays as it is. -/
structure Continues (run run' : SeedSendRun) : Prop where
  runId : run'.runId = run.runId
  contentChecksum : run'.contentChecksum = run.contentChecksum
  recipientSetChecksum : run'.recipientSetChecksum = run.recipientSetChecksum
  variantIds : run'.variants.map (·.variantId) = run.variants.map (·.variantId)
  terminal : ∀ v ∈ run.variants, v.state.isTerminal = true → v ∈ run'.variants

/-- A variant on record is asked for again, and the latest run is not given back. -/
def StartsOver (runs : List SeedSendRun) (call : SeedCall) : Prop :=
  ∃ request uuid, call = .create request uuid ∧ validateSeedRun request = .ok () ∧
    runs.getLast?.any (isReusable request) = false ∧
    ∃ variantId ∈ request.variantIds,
      Recorded runs request.contentChecksum request.recipientSetChecksum variantId

/-- What holds of every run: it has variants, none of them twice, and it is marked as completed
when all of them have ended. -/
structure SeedSendRun.WellFormed (run : SeedSendRun) : Prop where
  distinct : (run.variants.map (·.variantId)).Nodup
  nonempty : run.variants ≠ []
  completed : run.completedAt.isSome = isSeedRunComplete run

/-! ## What a call does -/

variable {request : SeedRunRequest} {runs : List SeedSendRun} {run run' run'' : SeedSendRun}
  {existingRun : Option SeedSendRun} {variantId uuid timestamp : Text} {newState : SeedState}
  {error : Option Text} {call : SeedCall} {calls : List SeedCall}

theorem validateSeedRun_ok (h : validateSeedRun request = .ok ()) :
    request.variantIds ≠ [] ∧ request.variantIds.Nodup ∧
      request.campaignIds.length = request.variantIds.length := by
  unfold validateSeedRun at h
  split_ifs at h with htime hempty hnodup hlength
  all_goals exact ⟨hempty, hnodup, not_not.mp hlength⟩

/-- The run that is created is the latest one, given back, or a new one. -/
theorem createSeedSendRun_ok (h : createSeedSendRun request existingRun uuid = .ok run) :
    validateSeedRun request = .ok () ∧
      (existingRun = some run ∧ isReusable request run = true ∨
        existingRun.any (isReusable request) = false ∧ run = newSeedRun request uuid) := by
  unfold createSeedSendRun at h
  cases hvalid : validateSeedRun request with
  | error message =>
      rw [hvalid] at h
      cases h
  | ok _ =>
      rw [hvalid] at h
      refine ⟨rfl, ?_⟩
      cases existingRun with
      | none => exact .inr ⟨rfl, (Except.ok.inj h).symm⟩
      | some latest =>
          cases hreusable : isReusable request latest with
          | true =>
              simp only [Option.filter, hreusable] at h
              obtain rfl := Except.ok.inj h
              exact .inl ⟨rfl, hreusable⟩
          | false =>
              simp only [Option.filter, hreusable] at h
              exact .inr ⟨by simpa using hreusable, (Except.ok.inj h).symm⟩

omit [DateParsing] in
theorem variantIds_newSeedRun (uuid : Text)
    (h : request.campaignIds.length = request.variantIds.length) :
    (newSeedRun request uuid).variants.map (·.variantId) = request.variantIds := by
  rw [newSeedRun, List.map_map]
  exact List.map_fst_zip h.ge

omit [DateParsing] in
theorem pending_of_mem_newSeedRun {v : SeedVariantState}
    (h : v ∈ (newSeedRun request uuid).variants) : v.state = .pending := by
  obtain ⟨_, _, rfl⟩ := List.mem_map.mp h
  rfl

theorem wellFormed_newSeedRun (h : validateSeedRun request = .ok ()) :
    (newSeedRun request uuid).WellFormed := by
  obtain ⟨hnonempty, hnodup, hlength⟩ := validateSeedRun_ok h
  have hids := variantIds_newSeedRun uuid hlength
  have hvariants : (newSeedRun request uuid).variants ≠ [] := by
    intro hempty
    rw [hempty] at hids
    exact hnonempty hids.symm
  refine ⟨hids ▸ hnodup, hvariants, ?_⟩
  obtain ⟨v, hv⟩ := List.exists_mem_of_ne_nil _ hvariants
  symm
  rw [isSeedRunComplete]
  refine List.all_eq_false.mpr ⟨v, hv, ?_⟩
  rw [pending_of_mem_newSeedRun hv]
  decide

/-- A transition that returns leaves the run alone, or moves one variant that is not terminal. -/
theorem transitionSeedVariant_ok
    (h : transitionSeedVariant run variantId newState timestamp error = .ok run') :
    run' = run ∨ ∃ current ∈ run.variants, current.variantId = variantId ∧
      current.state.isTerminal = false ∧
      run'.runId = run.runId ∧ run'.contentChecksum = run.contentChecksum ∧
      run'.recipientSetChecksum = run.recipientSetChecksum ∧
      run'.variants = (run.variants.map fun v =>
        if v.variantId = variantId then v.enter newState timestamp error else v) ∧
      run'.completedAt.isSome = isSeedRunComplete run' := by
  unfold transitionSeedVariant at h
  split at h
  · cases h
  split at h
  · cases h
  next current hfind =>
    split_ifs at h with hsame hterminal
    · exact .inl (Except.ok.inj h).symm
    · obtain rfl := Except.ok.inj h
      refine .inr ⟨current, List.mem_of_find?_eq_some hfind, by
        simpa using List.find?_some hfind, by simpa using hterminal, rfl, rfl, rfl, rfl, ?_⟩
      simp only [isSeedRunComplete]
      split_ifs with hall
      · exact hall.symm
      · simpa using hall

/-! ## Later states of a run -/

omit [DateParsing] in
theorem Continues.refl (run : SeedSendRun) : Continues run run :=
  ⟨rfl, rfl, rfl, rfl, fun _ hv _ => hv⟩

omit [DateParsing] in
theorem Continues.trans (h : Continues run run') (h' : Continues run' run'') :
    Continues run run'' where
  runId := h'.runId.trans h.runId
  contentChecksum := h'.contentChecksum.trans h.contentChecksum
  recipientSetChecksum := h'.recipientSetChecksum.trans h.recipientSetChecksum
  variantIds := h'.variantIds.trans h.variantIds
  terminal v hv hterminal := h'.terminal v (h.terminal v hv hterminal) hterminal

omit [DateParsing] in
theorem map_variantId_enter (variants : List SeedVariantState) :
    (variants.map fun v =>
      if v.variantId = variantId then v.enter newState timestamp error else v).map (·.variantId) =
    variants.map (·.variantId) := by
  rw [List.map_map]
  refine List.map_congr_left fun v _ => ?_
  rw [Function.comp_apply]
  split_ifs <;> rfl

theorem continues_of_transition (hrun : run.WellFormed)
    (h : transitionSeedVariant run variantId newState timestamp error = .ok run') :
    Continues run run' ∧ run'.WellFormed := by
  rcases transitionSeedVariant_ok h with rfl |
    ⟨current, hcurrent, hid, hopen, hrunId, hcontent, hrecipients, hvariants, hcompleted⟩
  · exact ⟨Continues.refl _, hrun⟩
  · have hids : run'.variants.map (·.variantId) = run.variants.map (·.variantId) := by
      rw [hvariants, map_variantId_enter]
    refine ⟨⟨hrunId, hcontent, hrecipients, hids, ?_⟩, hids ▸ hrun.distinct, ?_, hcompleted⟩
    · intro v hv hterminal
      -- the variant that moves was not terminal, and no other has its id
      have hother : v.variantId ≠ variantId := by
        intro hsame
        obtain rfl := List.inj_on_of_nodup_map hrun.distinct hv hcurrent (hsame.trans hid.symm)
        rw [hopen] at hterminal
        cases hterminal
      rw [hvariants]
      exact List.mem_map.mpr ⟨v, hv, if_neg hother⟩
    · intro hempty
      rw [hempty] at hids
      exact hrun.nonempty (List.map_eq_nil_iff.mp hids.symm)

/-- A call leaves the runs alone, adds a new one or moves the latest on. -/
theorem advance_cases (hruns : ∀ run ∈ runs, run.WellFormed) (call : SeedCall) :
    call.advance runs = runs ∨
      (∃ request uuid, call = .create request uuid ∧ validateSeedRun request = .ok () ∧
        runs.getLast?.any (isReusable request) = false ∧
        call.advance runs = runs ++ [newSeedRun request uuid]) ∨
      ∃ before run run', runs = before ++ [run] ∧ call.advance runs = before ++ [run'] ∧
        Continues run run' ∧ run'.WellFormed := by
  cases call with
  | create request uuid =>
      simp only [SeedCall.advance]
      cases hcreate : createSeedSendRun request runs.getLast? uuid with
      | error message => exact .inl rfl
      | ok run =>
          obtain ⟨hvalid, ⟨hlast, hreusable⟩ | ⟨hnone, rfl⟩⟩ := createSeedSendRun_ok hcreate
          · left
            rw [hlast, Option.any_some, hreusable]
            rfl
          · right; left
            refine ⟨request, uuid, rfl, hvalid, hnone, ?_⟩
            rw [hnone]
            rfl
  | transition variantId newState timestamp error =>
      simp only [SeedCall.advance]
      cases hlast : runs.getLast? with
      | none => exact .inl rfl
      | some run =>
          obtain ⟨before, rfl⟩ := List.getLast?_eq_some_iff.mp hlast
          dsimp only
          cases htransition : transitionSeedVariant run variantId newState timestamp error with
          | error message => exact .inl rfl
          | ok run' =>
              obtain ⟨hcontinues, hwell⟩ :=
                continues_of_transition (hruns run (by simp)) htransition
              exact .inr (.inr ⟨before, run, run', rfl, by simp, hcontinues, hwell⟩)

theorem seedRunsAfter_concat : seedRunsAfter (calls ++ [call]) =
    call.advance (seedRunsAfter calls) := by
  simp [seedRunsAfter]

theorem wellFormed_after : ∀ run ∈ seedRunsAfter calls, run.WellFormed := by
  induction calls using List.reverseRecOn with
  | nil => simp [seedRunsAfter]
  | append_singleton calls call ih =>
      rw [seedRunsAfter_concat]
      rcases advance_cases ih call with hsame |
        ⟨request, uuid, -, hvalid, -, hnew⟩ | ⟨before, run, run', hruns, hafter, -, hwell⟩
      · rwa [hsame]
      · rw [hnew]
        intro run hrun
        rcases List.mem_append.mp hrun with hold | hlast
        · exact ih run hold
        · rw [List.mem_singleton.mp hlast]
          exact wellFormed_newSeedRun hvalid
      · rw [hafter]
        intro other hother
        rcases List.mem_append.mp hother with hold | hlast
        · exact ih other (hruns ▸ List.mem_append_left _ hold)
        · rwa [List.mem_singleton.mp hlast]

theorem continues_advance (hruns : ∀ run ∈ runs, run.WellFormed) (call : SeedCall) {i : ℕ}
    (hi : runs[i]? = some run) :
    ∃ run', (call.advance runs)[i]? = some run' ∧ Continues run run' := by
  rcases advance_cases hruns call with hsame |
    ⟨request, uuid, -, -, -, hnew⟩ | ⟨before, last, last', rfl, hafter, hcontinues, -⟩
  · exact ⟨run, by rwa [hsame], Continues.refl run⟩
  · refine ⟨run, ?_, Continues.refl run⟩
    rw [hnew, List.getElem?_append_left (List.getElem?_eq_some_iff.mp hi).1, hi]
  · rw [hafter]
    rcases Nat.lt_or_ge i before.length with hlt | hge
    · refine ⟨run, ?_, Continues.refl run⟩
      rwa [List.getElem?_append_left hlt] at hi ⊢
    · rw [List.getElem?_append_right hge] at hi ⊢
      have hzero : i - before.length = 0 := by
        have hlt := (List.getElem?_eq_some_iff.mp hi).1
        simpa using hlt
      rw [hzero] at hi ⊢
      obtain rfl := Option.some.inj hi
      exact ⟨last', rfl, hcontinues⟩

/-! ## Sends that are repeated -/

/-- A call repeats a send exactly when it starts over with a variant on record. -/
theorem repeats_iff (hruns : ∀ run ∈ runs, run.WellFormed) (call : SeedCall) :
    Repeats runs (call.advance runs) ↔ StartsOver runs call := by
  constructor
  · rintro ⟨run, hafter, v, hv, -, hrecorded⟩
    rcases advance_cases hruns call with hsame |
      ⟨request, uuid, rfl, hvalid, hnone, hnew⟩ | ⟨before, last, last', rfl, hmoved, -⟩
    · rw [hsame] at hafter
      exact absurd (congrArg List.length hafter) (by simp)
    · rw [hnew] at hafter
      obtain rfl : newSeedRun request uuid = run := by simpa using hafter
      refine ⟨request, uuid, rfl, hvalid, hnone, v.variantId, ?_, hrecorded⟩
      rw [← variantIds_newSeedRun uuid (validateSeedRun_ok hvalid).2.2]
      exact List.mem_map_of_mem hv
    · rw [hmoved] at hafter
      exact absurd (congrArg List.length hafter) (by simp)
  · rintro ⟨request, uuid, rfl, hvalid, hnone, variantId, hid, hrecorded⟩
    rw [← variantIds_newSeedRun uuid (validateSeedRun_ok hvalid).2.2] at hid
    obtain ⟨v, hv, rfl⟩ := List.mem_map.mp hid
    have hfilter : runs.getLast?.filter (isReusable request) = none := by
      cases hlast : runs.getLast? with
      | none => rfl
      | some latest =>
          rw [hlast, Option.any_some] at hnone
          rw [Option.filter, hnone]
          rfl
    refine ⟨newSeedRun request uuid, ?_, v, hv, pending_of_mem_newSeedRun hv, hrecorded⟩
    simp only [SeedCall.advance, createSeedSendRun, hvalid, hfilter, hnone]
    rfl

/-- What the seed sends of a list of calls are to keep at every moment. -/
structure SeedSendsOnce (calls : List SeedCall) : Prop where
  /-- A run is completed exactly when all its variants are terminal. -/
  completed : ∀ earlier, earlier <+: calls → ∀ run ∈ seedRunsAfter earlier,
    run.completedAt.isSome = true ↔ ∀ v ∈ run.variants, v.state.isTerminal = true
  /-- Within a run a terminal variant never changes. -/
  stable : ∀ earlier later, earlier <+: later → later <+: calls →
    ∀ (i : ℕ) (run : SeedSendRun), (seedRunsAfter earlier)[i]? = some run →
      ∃ run', (seedRunsAfter later)[i]? = some run' ∧ Continues run run'
  /-- No new run has a variant as pending that is on record as sent or ambiguous. -/
  neverRepeated : ∀ earlier call, earlier ++ [call] <+: calls →
    ¬Repeats (seedRunsAfter earlier) (seedRunsAfter (earlier ++ [call]))

/-- Seed sends are never repeated exactly when no call starts over. -/
theorem seedSends_once_iff (calls : List SeedCall) :
    SeedSendsOnce calls ↔ ∀ earlier call, earlier ++ [call] <+: calls →
      ¬StartsOver (seedRunsAfter earlier) call := by
  have hrepeats (earlier : List SeedCall) (call : SeedCall) :
      Repeats (seedRunsAfter earlier) (seedRunsAfter (earlier ++ [call])) ↔
        StartsOver (seedRunsAfter earlier) call := by
    rw [seedRunsAfter_concat]
    exact repeats_iff wellFormed_after call
  constructor
  · intro honce earlier call hprefix hstarts
    exact honce.neverRepeated earlier call hprefix ((hrepeats earlier call).mpr hstarts)
  · intro hfree
    refine ⟨?_, ?_, ?_⟩
    · intro earlier _ run hrun
      rw [(wellFormed_after run hrun).completed, isSeedRunComplete, List.all_eq_true]
    · rintro earlier _ ⟨later, rfl⟩ - i run hi
      induction later using List.reverseRecOn with
      | nil => exact ⟨run, by rwa [List.append_nil], Continues.refl run⟩
      | append_singleton later call ih =>
          obtain ⟨run', hi', hcontinues⟩ := ih
          rw [← List.append_assoc, seedRunsAfter_concat]
          obtain ⟨run'', hi'', hcontinues'⟩ := continues_advance wellFormed_after call hi'
          exact ⟨run'', hi'', hcontinues.trans hcontinues'⟩
    · intro earlier call hprefix hrepeated
      exact hfree earlier call hprefix ((hrepeats earlier call).mp hrepeated)

end Calls

/-! ## An interrupted run -/

/-- Two variants for one content and one set of recipients. -/
def sampleSeedRequest : SeedRunRequest where
  contentChecksum := "cs1"
  recipientSetChecksum := "rcs1"
  variantIds := ["A", "B"]
  campaignIds := [.finite Decimal.one, .finite Decimal.two]
  startedAt := "2026-07-25T10:00:00Z"

/-- The first variant times out, and a run is created again before the second one is sent. -/
def sampleSeedCalls : List SeedCall :=
  [.create sampleSeedRequest "1",
    .transition "A" .ambiguous "2026-07-25T10:01:00Z" (some "Request timeout"),
    .create sampleSeedRequest "2"]

/-- The variant is ambiguous in the first run and pending in the second one. -/
theorem interrupted_run_repeats :
    letI := isoDateParsing
    (seedRunsAfter sampleSeedCalls).map (fun run => run.variants.map (·.state)) =
        [[.ambiguous, .pending], [.pending, .pending]] ∧
      ¬SeedSendsOnce sampleSeedCalls := by
  let := isoDateParsing
  have hruns : Recorded (seedRunsAfter (sampleSeedCalls.take 2)) "cs1" "rcs1" "A" ∧
      (seedRunsAfter (sampleSeedCalls.take 2)).getLast?.any (isReusable sampleSeedRequest) =
        false ∧
      validateSeedRun sampleSeedRequest = .ok () ∧
      (seedRunsAfter sampleSeedCalls).map (fun run => run.variants.map (·.state)) =
        [[.ambiguous, .pending], [.pending, .pending]] := by
    decide +kernel
  obtain ⟨hrecorded, hnone, hvalid, hstates⟩ := hruns
  refine ⟨hstates, fun honce => ?_⟩
  exact (seedSends_once_iff sampleSeedCalls).mp honce (sampleSeedCalls.take 2)
    (.create sampleSeedRequest "2") (List.prefix_refl _)
    ⟨_, _, rfl, hvalid, hnone, "A", List.mem_cons_self, hrecorded⟩

end ListmonkOps.Experiment
