/-
The preview gate of an A/B test.

A test whose gate is required is launched only after its variants were
rendered, checked and approved. Checks, approvals and rejections are separate
calls that each return a new gate, so a run of the gate is a list of calls; a
call that throws leaves the caller with the gate it had.
-/

import Mathlib.Data.List.Induction
import ListmonkOps.Experiment.Collision

namespace ListmonkOps.Experiment

open ListmonkOps.Runtime

/-- What the check of one variant found. -/
structure VariantPreviewCheck where
  variantId : Text
  campaignId : Number
  renderSucceeded : Bool
  renderedChecksum : Option Text := none
  unsubscribeUrlPresent : Bool
  forbiddenPlaceholderCount : Number
  checkedAt : Text
  error : Option Text := none
  deriving DecidableEq

inductive PreviewGateStatus where
  | notStarted
  | pending
  | approved
  | rejected
  deriving DecidableEq

inductive SeedState where
  | pending
  | sending
  | sent
  | ambiguous
  | failed
  deriving DecidableEq

/-- How far the seed send of one variant has come. -/
structure SeedVariantState where
  variantId : Text
  campaignId : Number
  state : SeedState
  attemptedAt : Option Text := none
  completedAt : Option Text := none
  error : Option Text := none
  deriving DecidableEq

structure SeedSendRun where
  runId : Text
  contentChecksum : Text
  recipientSetChecksum : Text
  startedAt : Text
  completedAt : Option Text := none
  variants : List SeedVariantState
  deriving DecidableEq

structure PreviewGate where
  required : Bool
  contentChecksum : Text
  status : PreviewGateStatus
  previews : List VariantPreviewCheck
  seedRun : Option SeedSendRun := none
  approvedBy : Option Text := none
  approvedAt : Option Text := none
  rejectionReason : Option Text := none
  rejectedAt : Option Text := none
  deriving DecidableEq

def createPreviewGate (contentChecksum : Text) (required : Bool) : PreviewGate where
  required
  contentChecksum
  status := .notStarted
  previews := []

/-- The variant was rendered, can be unsubscribed from and shows no placeholder. -/
def VariantPreviewCheck.passed (c : VariantPreviewCheck) : Bool :=
  c.renderSucceeded && c.unsubscribeUrlPresent &&
    c.forbiddenPlaceholderCount = .finite Decimal.zero

/-! ## What a gate promises -/

inductive GateCall where
  | record (checks : List VariantPreviewCheck) (contentChecksum : Text)
      (expectedVariantIds : List Text)
  | approve (contentChecksum approvedBy approvedAt : Text)
  | reject (reason rejectedAt : Text)

/-- The last checks recorded cover the expected variants, all passed, were made
for the content the gate has now, and nothing but approvals came after them. -/
def StandsOnLastChecks (gate : PreviewGate) (returned : List GateCall) : Prop :=
  ∃ before checks expectedVariantIds approvals,
    returned = before ++ .record checks gate.contentChecksum expectedVariantIds :: approvals ∧
      gate.previews = checks ∧
      (∀ id, id ∈ checks.map (·.variantId) ↔ id ∈ expectedVariantIds) ∧
      (∀ c ∈ checks, c.passed = true) ∧
      ∀ call ∈ approvals, ∃ checksum approvedBy approvedAt,
        call = .approve checksum approvedBy approvedAt

/-- The approver and the time of approval are there exactly in an approved gate. -/
def ApproverIsCurrent (gate : PreviewGate) : Prop :=
  (gate.approvedBy.isSome ↔ gate.status = .approved) ∧
    (gate.approvedAt.isSome ↔ gate.status = .approved)

/-- What the gate promises at every moment: it is approved only on the strength of the last
checks, and it names its approver just then. -/
def GateIsSound (state : PreviewGate × List GateCall) : Prop :=
  (state.1.status = .approved → StandsOnLastChecks state.1 state.2) ∧ ApproverIsCurrent state.1

/-- What holds of a required gate whatever calls are made: where it waits or is approved it stands
on the last checks, and an approval has an approver and a time. -/
structure GateInvariant (state : PreviewGate × List GateCall) : Prop where
  required : state.1.required = true
  stands : state.1.status = .pending ∨ state.1.status = .approved →
    StandsOnLastChecks state.1 state.2
  approver : state.1.status = .approved →
    state.1.approvedBy.isSome = true ∧ state.1.approvedAt.isSome = true
  together : state.1.approvedBy.isSome = state.1.approvedAt.isSome

theorem GateInvariant.initial (contentChecksum : Text) :
    GateInvariant (createPreviewGate contentChecksum true, []) where
  required := rfl
  stands := by simp [createPreviewGate]
  approver := by simp [createPreviewGate]
  together := rfl

theorem GateInvariant.current_iff {state : PreviewGate × List GateCall}
    (h : GateInvariant state) :
    ApproverIsCurrent state.1 ↔ (state.1.approvedBy.isSome = true → state.1.status = .approved) := by
  constructor
  · exact fun hcurrent => hcurrent.1.mp
  · intro honly
    refine ⟨⟨honly, fun happroved => (h.approver happroved).1⟩,
      ⟨fun hat => honly (h.together ▸ hat), fun happroved => (h.approver happroved).2⟩⟩

/-! ## Calls on the gate -/

section Calls

variable [DateParsing]

/-- The checks are those of the expected variants and carry valid times; an
error is the message of a `PreviewValidationError`. -/
def validateChecks (checks : List VariantPreviewCheck) (expectedVariantIds : List Text) :
    Except Text Unit :=
  if checks = [] then .error "At least one variant preview check is required"
  else
    match checks.find? fun c => !isCollisionTimestamp c.checkedAt with
    | some c =>
        .error (("Preview check for variant \"" : Text) ++ c.variantId ++
          ("\" has an invalid checkedAt timestamp" : Text))
    | none =>
        match expectedVariantIds.find? (· ∉ checks.map (·.variantId)) with
        | some id => .error (("Missing preview check for variant \"" : Text) ++ id ++ [34])
        | none =>
            match (checks.map (·.variantId)).find? (· ∉ expectedVariantIds) with
            | some id => .error (("Unexpected preview check for variant \"" : Text) ++ id ++ [34])
            | none => .ok ()

def recordPreviewChecks (gate : PreviewGate) (checks : List VariantPreviewCheck)
    (newContentChecksum : Text) (expectedVariantIds : List Text) : Except Text PreviewGate :=
  match validateChecks checks expectedVariantIds with
  | .error message => .error message
  | .ok () =>
      if newContentChecksum ≠ gate.contentChecksum then
        .ok { gate with
          contentChecksum := newContentChecksum
          status := .notStarted
          previews := checks
          approvedBy := none
          approvedAt := none
          rejectionReason := none
          rejectedAt := none
          seedRun := none }
      else
        .ok { gate with
          previews := checks
          status := if checks.all (·.passed) then .pending else .notStarted }

def approvePreviewGate (gate : PreviewGate) (contentChecksum approvedBy approvedAt : Text) :
    Except Text PreviewGate :=
  if approvedBy.trim = [] then .error "approvedBy must be a non-empty string"
  else if !isCollisionTimestamp approvedAt then
    .error "approvedAt must be a valid ISO 8601 timestamp"
  else if !gate.required then .ok gate
  else if contentChecksum ≠ gate.contentChecksum then
    .error (("Content checksum mismatch; the content has changed since the preview. " : Text) ++
      ("Re-preview and try again." : Text))
  else if gate.status = .approved ∧ gate.approvedBy = some approvedBy then .ok gate
  else if gate.status = .rejected then
    .error "Cannot approve a rejected gate; re-preview first"
  else if gate.status = .notStarted then
    .error "Cannot approve a gate that has not been previewed"
  else
    .ok { gate with
      status := .approved
      approvedBy := some approvedBy
      approvedAt := some approvedAt
      rejectionReason := none
      rejectedAt := none }

def rejectPreviewGate (gate : PreviewGate) (reason rejectedAt : Text) : Except Text PreviewGate :=
  if reason.trim = [] then .error "Rejection reason must be a non-empty string"
  else if !isCollisionTimestamp rejectedAt then
    .error "rejectedAt must be a valid ISO 8601 timestamp"
  else
    .ok { gate with
      status := .rejected
      rejectionReason := some reason
      rejectedAt := some rejectedAt
      approvedBy := none
      approvedAt := none }

/-! ## Runs of a gate -/

def GateCall.perform (gate : PreviewGate) : GateCall → Except Text PreviewGate
  | .record checks contentChecksum expectedVariantIds =>
      recordPreviewChecks gate checks contentChecksum expectedVariantIds
  | .approve contentChecksum approvedBy approvedAt =>
      approvePreviewGate gate contentChecksum approvedBy approvedAt
  | .reject reason rejectedAt => rejectPreviewGate gate reason rejectedAt

/-- A gate with the calls that returned so far, oldest first. -/
def GateCall.advance (state : PreviewGate × List GateCall) (call : GateCall) :
    PreviewGate × List GateCall :=
  match call.perform state.1 with
  | .ok gate => (gate, state.2 ++ [call])
  | .error _ => state

/-- The required gate of a test after a list of calls. -/
def gateAfter (contentChecksum : Text) (calls : List GateCall) : PreviewGate × List GateCall :=
  calls.foldl GateCall.advance (createPreviewGate contentChecksum true, [])

/-- The call records checks again for the content that is already approved. -/
def RecordsApprovedContent (gate : PreviewGate) (call : GateCall) : Prop :=
  gate.status = .approved ∧ ∃ checks expectedVariantIds,
    call = .record checks gate.contentChecksum expectedVariantIds ∧
      validateChecks checks expectedVariantIds = .ok ()

/-! ## What a call does -/

variable {gate gate' : PreviewGate} {state : PreviewGate × List GateCall} {call : GateCall}
  {checks : List VariantPreviewCheck} {contentChecksum : Text} {expectedVariantIds : List Text}

theorem validateChecks_ok (h : validateChecks checks expectedVariantIds = .ok ()) (id : Text) :
    id ∈ checks.map (·.variantId) ↔ id ∈ expectedVariantIds := by
  unfold validateChecks at h
  split at h
  · simp at h
  split at h
  · simp at h
  split at h
  · simp at h
  split at h
  · simp at h
  · next hmissing _ hunexpected =>
      simp only [List.find?_eq_none, decide_eq_true_eq, not_not] at hmissing hunexpected
      exact ⟨hunexpected id, hmissing id⟩

/-- Recording checks: for changed content everything is reset, for the same
content only the checks and the status change. -/
theorem recordPreviewChecks_ok
    (h : recordPreviewChecks gate checks contentChecksum expectedVariantIds = .ok gate') :
    validateChecks checks expectedVariantIds = .ok () ∧ gate'.required = gate.required ∧
      gate'.contentChecksum = contentChecksum ∧ gate'.previews = checks ∧
      gate'.status ≠ .approved ∧
      (gate'.status = .pending →
        contentChecksum = gate.contentChecksum ∧ ∀ c ∈ checks, c.passed = true) ∧
      ((contentChecksum ≠ gate.contentChecksum ∧ gate'.approvedBy = none ∧
          gate'.approvedAt = none) ∨
        (contentChecksum = gate.contentChecksum ∧ gate'.approvedBy = gate.approvedBy ∧
          gate'.approvedAt = gate.approvedAt)) := by
  unfold recordPreviewChecks at h
  cases hvalid : validateChecks checks expectedVariantIds with
  | error message => simp [hvalid] at h
  | ok _ =>
      simp only [hvalid] at h
      split at h
      · next hchanged =>
          obtain rfl := Except.ok.inj h
          exact ⟨rfl, rfl, rfl, rfl, by simp, by simp, .inl ⟨hchanged, rfl, rfl⟩⟩
      · next hsame =>
          rw [not_not] at hsame
          obtain rfl := Except.ok.inj h
          refine ⟨rfl, rfl, hsame.symm, rfl, ?_, ?_, .inr ⟨hsame, rfl, rfl⟩⟩
          · dsimp only
            split <;> decide
          · dsimp only
            split
            · next hpassed => exact fun _ => ⟨hsame, by simpa using hpassed⟩
            · simp

/-- Approving a required gate: only one that is pending or approved already. -/
theorem approvePreviewGate_ok {approvedBy approvedAt : Text} (hrequired : gate.required = true)
    (h : approvePreviewGate gate contentChecksum approvedBy approvedAt = .ok gate') :
    gate'.required = true ∧ gate'.contentChecksum = gate.contentChecksum ∧
      gate'.previews = gate.previews ∧ gate'.status = .approved ∧
      ((gate' = gate) ∨ (gate'.approvedBy.isSome ∧ gate'.approvedAt.isSome)) ∧
      (gate.status = .pending ∨ gate.status = .approved) := by
  unfold approvePreviewGate at h
  split at h
  · simp at h
  split at h
  · simp at h
  split at h
  · next hnot => simp [hrequired] at hnot
  split at h
  · simp at h
  split at h
  · next hagain =>
      obtain rfl := Except.ok.inj h
      exact ⟨hrequired, rfl, rfl, hagain.1, .inl rfl, .inr hagain.1⟩
  split at h
  · simp at h
  split at h
  · simp at h
  · next hrejected hnotStarted =>
      obtain rfl := Except.ok.inj h
      refine ⟨hrequired, rfl, rfl, rfl, .inr ⟨rfl, rfl⟩, ?_⟩
      cases hstatus : gate.status <;> simp_all

theorem rejectPreviewGate_ok {reason rejectedAt : Text}
    (h : rejectPreviewGate gate reason rejectedAt = .ok gate') :
    gate'.required = gate.required ∧ gate'.status = .rejected ∧ gate'.approvedBy = none ∧
      gate'.approvedAt = none := by
  unfold rejectPreviewGate at h
  split at h
  · simp at h
  split at h
  · simp at h
  · obtain rfl := Except.ok.inj h
    exact ⟨rfl, rfl, rfl, rfl⟩

/-! ## Approvals are fresh -/

theorem GateInvariant.advance (h : GateInvariant state) (call : GateCall) :
    GateInvariant (call.advance state) := by
  obtain ⟨gate, returned⟩ := state
  unfold GateCall.advance
  cases hperform : call.perform gate with
  | error message => exact h
  | ok gate' =>
      cases call with
      | record checks contentChecksum expectedVariantIds =>
          obtain ⟨hvalid, hrequired, hchecksum, hpreviews, hnot, hpending, happrover⟩ :=
            recordPreviewChecks_ok hperform
          refine ⟨hrequired.trans h.required, fun hstatus => ?_, fun hstatus => ?_, ?_⟩
          · have hstatus' := hstatus.resolve_right hnot
            refine ⟨returned, checks, expectedVariantIds, [], ?_, hpreviews,
              validateChecks_ok hvalid, (hpending hstatus').2, by simp⟩
            rw [hchecksum]
          · exact absurd hstatus hnot
          · rcases happrover with ⟨-, hby, hat⟩ | ⟨-, hby, hat⟩
            · rw [hby, hat]
            · rw [hby, hat]
              exact h.together
      | approve contentChecksum approvedBy approvedAt =>
          obtain ⟨hrequired, hchecksum, hpreviews, happroved, happrover, hbefore⟩ :=
            approvePreviewGate_ok h.required hperform
          have hboth : gate'.approvedBy.isSome = true ∧ gate'.approvedAt.isSome = true := by
            rcases happrover with rfl | hset
            · exact h.approver happroved
            · exact hset
          refine ⟨hrequired, fun _ => ?_, fun _ => hboth, hboth.1.trans hboth.2.symm⟩
          obtain ⟨before, checks, expected, approvals, hreturned, hprev, hcover, hpassed,
            honly⟩ := h.stands hbefore
          refine ⟨before, checks, expected,
            approvals ++ [.approve contentChecksum approvedBy approvedAt], ?_,
            hpreviews.trans hprev, hcover, hpassed, ?_⟩
          · simp only at hreturned
            rw [hreturned, hchecksum, List.append_assoc, List.cons_append]
          · intro call hcall
            rcases List.mem_append.mp hcall with hold | hnew
            · exact honly call hold
            · exact ⟨_, _, _, List.mem_singleton.mp hnew⟩
      | reject reason rejectedAt =>
          obtain ⟨hrequired, hrejected, hby, hat⟩ := rejectPreviewGate_ok hperform
          refine ⟨hrequired.trans h.required, ?_, ?_, ?_⟩
          · intro hstatus
            simp [hrejected] at hstatus
          · intro hstatus
            simp [hrejected] at hstatus
          · rw [hby, hat]

theorem gateAfter_concat (contentChecksum : Text) (calls : List GateCall) (call : GateCall) :
    gateAfter contentChecksum (calls ++ [call]) = call.advance (gateAfter contentChecksum calls) := by
  simp [gateAfter]

theorem gateInvariant_after (contentChecksum : Text) (calls : List GateCall) :
    GateInvariant (gateAfter contentChecksum calls) := by
  induction calls using List.reverseRecOn with
  | nil => exact GateInvariant.initial contentChecksum
  | append_singleton calls call ih =>
      rw [gateAfter_concat]
      exact ih.advance call

/-! ## Approvers that stay behind -/

/-- A call keeps the approver current unless it records approved content again. -/
theorem advance_current_iff (h : GateInvariant state) (hcurrent : ApproverIsCurrent state.1) :
    ApproverIsCurrent (call.advance state).1 ↔ ¬RecordsApprovedContent state.1 call := by
  rw [(h.advance call).current_iff]
  rw [h.current_iff] at hcurrent
  obtain ⟨gate, returned⟩ := state
  unfold GateCall.advance
  cases hperform : call.perform gate with
  | error message =>
      refine ⟨fun _ => ?_, fun _ => hcurrent⟩
      rintro ⟨-, checks, expectedVariantIds, rfl, hvalid⟩
      simp [GateCall.perform, recordPreviewChecks, hvalid] at hperform
  | ok gate' =>
      cases call with
      | record checks contentChecksum expectedVariantIds =>
          obtain ⟨hvalid, -, -, -, hnot, -, happrover⟩ := recordPreviewChecks_ok hperform
          constructor
          · rintro honly ⟨happroved, checks', expected', hcall, -⟩
            simp only [GateCall.record.injEq] at hcall
            obtain ⟨-, hsame, -⟩ := hcall
            rcases happrover with ⟨hchanged, -⟩ | ⟨-, hby, -⟩
            · exact hchanged hsame
            · exact hnot (honly (hby ▸ (h.approver happroved).1))
          · intro hfree hby
            rcases happrover with ⟨-, hnone, -⟩ | ⟨hsame, hkept, -⟩
            · simp [hnone] at hby
            · refine absurd ⟨hcurrent (hkept ▸ hby), checks, expectedVariantIds, ?_, hvalid⟩ hfree
              rw [hsame]
      | approve contentChecksum approvedBy approvedAt =>
          obtain ⟨-, -, -, happroved, -⟩ := approvePreviewGate_ok h.required hperform
          refine ⟨fun _ => ?_, fun _ _ => happroved⟩
          rintro ⟨-, checks, expectedVariantIds, hcall, -⟩
          exact absurd hcall (by simp)
      | reject reason rejectedAt =>
          obtain ⟨-, -, hby, -⟩ := rejectPreviewGate_ok hperform
          refine ⟨fun _ => ?_, fun _ hsome => by simp [hby] at hsome⟩
          rintro ⟨-, checks, expectedVariantIds, hcall, -⟩
          exact absurd hcall (by simp)

/-- A required gate is sound at every moment of a run exactly when no call of the
run records checks again for content that is approved. -/
theorem previewGate_sound (contentChecksum : Text) (calls : List GateCall) :
    (∀ earlier, earlier <+: calls → GateIsSound (gateAfter contentChecksum earlier)) ↔
      ∀ earlier call, earlier ++ [call] <+: calls →
        ¬RecordsApprovedContent (gateAfter contentChecksum earlier).1 call := by
  constructor
  · intro hsound earlier call hprefix
    have hbefore := (hsound earlier ((List.prefix_append _ _).trans hprefix)).2
    have hafter := (hsound _ hprefix).2
    rw [gateAfter_concat] at hafter
    exact (advance_current_iff (gateInvariant_after _ _) hbefore).mp hafter
  · intro hfree earlier
    induction earlier using List.reverseRecOn with
    | nil =>
        intro _
        exact ⟨by simp [gateAfter, createPreviewGate], by
          simp [ApproverIsCurrent, gateAfter, createPreviewGate]⟩
    | append_singleton earlier call ih =>
        intro hprefix
        have hbefore := ih ((List.prefix_append _ _).trans hprefix)
        refine ⟨fun happroved => (gateInvariant_after contentChecksum _).stands (.inr happroved), ?_⟩
        rw [gateAfter_concat, advance_current_iff (gateInvariant_after _ _) hbefore.2]
        exact hfree earlier call hprefix

end Calls

/-! ## Content recorded again after its approval -/

def samplePreviewCheck : VariantPreviewCheck where
  variantId := "A"
  campaignId := .finite ⟨false, 7, 0, by decide⟩
  renderSucceeded := true
  unsubscribeUrlPresent := true
  forbiddenPlaceholderCount := .finite Decimal.zero
  checkedAt := "2026-07-25T09:00:00Z"

/-- Checks, an approval, and the same checks again. -/
def sampleGateCalls : List GateCall :=
  [.record [samplePreviewCheck] "cs1" [("A" : Text)],
    .approve "cs1" "user-1" "2026-07-25T10:00:00Z",
    .record [samplePreviewCheck] "cs1" [("A" : Text)]]

/-- The gate is pending again and still names the approver. -/
theorem previewGate_keeps_approver :
    letI := isoDateParsing
    (gateAfter "cs1" sampleGateCalls).1.status = .pending ∧
      (gateAfter "cs1" sampleGateCalls).1.approvedBy = some "user-1" ∧
      ¬∀ earlier, earlier <+: sampleGateCalls → GateIsSound (gateAfter "cs1" earlier) := by
  let := isoDateParsing
  have hgate : (gateAfter "cs1" sampleGateCalls).1.status = .pending ∧
      (gateAfter "cs1" sampleGateCalls).1.approvedBy = some "user-1" := by decide +kernel
  refine ⟨hgate.1, hgate.2, fun hsound => ?_⟩
  have hcurrent := (hsound sampleGateCalls (List.prefix_refl _)).2.1
  rw [hgate.1, hgate.2] at hcurrent
  simp at hcurrent

end ListmonkOps.Experiment
