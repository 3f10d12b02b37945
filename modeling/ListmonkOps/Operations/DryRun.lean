/-
Dry runs and the events they announce.

Whether an operation runs dry is decided by its input schema, which coerces the
spellings of a boolean and fills in defaults. What it announces is decided by a
projection of the raw input. Both read `dry_run`, each in its own way.
-/

import ListmonkOps.Webhook.DomainEvents

namespace ListmonkOps.Operations

open ListmonkOps.Runtime ListmonkOps.Webhook

/-! ## Fields of the input schemas -/

/-- The coercion of the platform. -/
class NumberCoercion where
  /-- `Number(value)`. -/
  toNumber : Value → Number

/-- `z.number().int().positive().lte(maximum)`. -/
def isPositiveIntegerUpTo (maximum : ℕ) : Number → Bool
  | .finite value =>
      isPositiveInteger (.finite value) && value.digits * 10 ^ value.exponent.toNat ≤ maximum
  | _ => false

def maxSafeInteger : ℕ := 9007199254740991

/-- `schema.default(value)`. -/
def defaulted (default : Value) (schema : Value → Option Value) : Value → Option Value
  | .undefined => some default
  | value => schema value

/-- `schema.optional()`. -/
def optional (schema : Value → Option Value) : Value → Option Value := defaulted .undefined schema

/-- `z.boolean()`. -/
def booleanSchema : Value → Option Value
  | .boolean value => some (.boolean value)
  | _ => none

/-- `z.enum(values)`. -/
def enumSchema (values : List Text) : Value → Option Value
  | .string value => if value ∈ values then some (.string value) else none
  | _ => none

/-- `z.uuid()`. -/
def uuidSchema : Value → Option Value
  | .string value => if isUuid value then some (.string value) else none
  | _ => none

section Coerced

variable [NumberCoercion]

/-- `z.coerce.number().int().positive()`, up to a bound. -/
def coercedPositiveInteger (maximum : ℕ) (value : Value) : Option Value :=
  if isPositiveIntegerUpTo maximum (NumberCoercion.toNumber value) then
    some (.number (NumberCoercion.toNumber value))
  else none

/-- `/^[1-9][0-9]*$/`. -/
def isPositiveDecimal (value : Text) : Bool :=
  value.head?.any (· ≠ 48) && value.all isDigit

def resourceIdSchema : Value → Option Value
  | .number value =>
      if isPositiveIntegerUpTo maxSafeInteger value then some (.number value) else none
  | .string value =>
      if isPositiveDecimal value then coercedPositiveInteger maxSafeInteger (.string value)
      else none
  | _ => none

/-- `positiveIntegerInput` of the sequence operations, up to a bound. -/
def positiveIntegerInput (maximum : ℕ) : Value → Option Value
  | .null | .string [] | .boolean _ => none
  | value => coercedPositiveInteger maximum value

end Coerced

/-- `optionalBooleanSchema` of the experiment operations. -/
def optionalBooleanSchema : Value → Option Value
  | .undefined | .null => some .undefined
  | .string value =>
      if value = ("true" : Text) then some (.boolean true)
      else if value = ("false" : Text) then some (.boolean false)
      else none
  | value => booleanSchema value

/-- `booleanInput` of the sequence operations. -/
def booleanInput [CaseMapping] : Value → Option Value
  | .string value =>
      if CaseMapping.toLowerCase value = ("true" : Text) then some (.boolean true)
      else if CaseMapping.toLowerCase value = ("false" : Text) then some (.boolean false)
      else none
  | value => booleanSchema value

/-! ## Input schemas -/

/-- `z.array(resourceIdSchema).min(1)`. -/
def resourceIdsSchema [NumberCoercion] : Value → Option (List Value)
  | .array [] => none
  | .array ids => ids.mapM resourceIdSchema
  | _ => none

def subscriberBulkBlocklistInputSchema [NumberCoercion] (input : Members) : Option Members := do
  let subscriberIds ← resourceIdsSchema (Value.get input "subscriber_ids")
  let dryRun ← defaulted (.boolean false) booleanSchema (Value.get input "dry_run")
  let maxItems ← defaulted (.number (.finite ⟨false, 1, 4, by decide⟩))
    (coercedPositiveInteger maxSafeInteger) (Value.get input "max_items")
  let continueOnError ← defaulted (.boolean false) booleanSchema
    (Value.get input "continue_on_error")
  return [("subscriber_ids", .array subscriberIds), ("dry_run", dryRun), ("max_items", maxItems),
    ("continue_on_error", continueOnError)]

def tickAbTestsInputSchema (input : Members) : Option Members := do
  let dryRun ← optionalBooleanSchema (Value.get input "dry_run")
  return [("dry_run", dryRun)]

def sequenceReconcileInputSchema [NumberCoercion] [CaseMapping] (input : Members) :
    Option Members := do
  let enrollmentId ← optional uuidSchema (Value.get input "enrollment_id")
  let resolution ← optional (enumSchema ["sent", "not_sent"]) (Value.get input "resolution")
  let limit ← defaulted (.number (.finite Decimal.hundred)) (positiveIntegerInput 1000)
    (Value.get input "limit")
  let dryRun ← defaulted (.boolean true) booleanInput (Value.get input "dry_run")
  if enrollmentId.isUndefined ≠ resolution.isUndefined then none
  else if !enrollmentId.isUndefined && isBoolean true dryRun then none
  else
    return [("enrollment_id", enrollmentId), ("resolution", resolution), ("limit", limit),
      ("dry_run", dryRun)]

/-! ## Operations -/

/-- The operations that announce domain events and take a `dry_run`. -/
inductive DryRunOperation where
  | blocklistSubscribers
  | tickAbTests
  | reconcileSequences
  deriving DecidableEq

namespace DryRunOperation

def id : DryRunOperation → Text
  | .blocklistSubscribers => "subscribers.blocklist"
  | .tickAbTests => "abtest.tick"
  | .reconcileSequences => "sequences.reconcile"

/-- The data that the input schema of an operation makes of an input it accepts. -/
def inputSchema [NumberCoercion] [CaseMapping] : DryRunOperation → Members → Option Members
  | .blocklistSubscribers => subscriberBulkBlocklistInputSchema
  | .tickAbTests => tickAbTestsInputSchema
  | .reconcileSequences => sequenceReconcileInputSchema

end DryRunOperation

def getOperationEffectiveDryRun [NumberCoercion] [CaseMapping] (operation : DryRunOperation)
    (input : Members) : Option Bool := do
  match Value.get (← operation.inputSchema input) "dry_run" with
  | .boolean dryRun => some dryRun
  | _ => none

/-! ## Transports -/

/-- What runs an operation: `callTool` or `executeCliOperation`. -/
inductive Transport where
  | mcp
  | cli
  deriving DecidableEq

def withoutMcpOperationConfirmation (arguments : Members) : Members :=
  arguments.filter (·.1 ≠ ("confirm" : Text))

/-- Give a member of an object a value. -/
def assign (members : Members) (key : Text) (value : Value) : Members :=
  if members.any (·.1 = key) then
    members.map fun member => if member.1 = key then (key, value) else member
  else members ++ [(key, value)]

def fromEntries (entries : Members) : Members :=
  entries.foldl (fun members entry => assign members entry.1 entry.2) []

def normalizeCliOperationInput (input : Members) : Members :=
  fromEntries <|
    (input.filter fun entry => entry.1 ∉ (["confirm", "interactive", "tui"] : List Text)).map
      fun (key, value) => (key.map fun unit => if unit = 45 then 95 else unit, value)

/-- The input that a transport passes to the schema and to the projection. All
the operations here are destructive, so the confirmation is taken out. -/
def Transport.operationInput : Transport → Members → Members
  | .mcp => withoutMcpOperationConfirmation
  | .cli => normalizeCliOperationInput
/-! ## What the schemas read -/

section Effective

variable [NumberCoercion] [CaseMapping] {input : Members}

/-- The effective dry run is the `dry_run` of the parsed input. -/
theorem effectiveDryRun_eq_some_iff {operation : DryRunOperation} {dryRun : Bool} :
    getOperationEffectiveDryRun operation input = some dryRun ↔
      ∃ data, operation.inputSchema input = some data ∧
        Value.get data "dry_run" = .boolean dryRun := by
  simp only [getOperationEffectiveDryRun, Option.bind_eq_bind, Option.bind_eq_some_iff]
  constructor
  · rintro ⟨data, hdata, h⟩
    refine ⟨data, hdata, ?_⟩
    split at h
    · next value hvalue => rw [hvalue, Option.some.inj h]
    · simp at h
  · rintro ⟨data, hdata, h⟩
    exact ⟨data, hdata, by rw [h]⟩

/-- A batch is dry when the raw input says so. -/
theorem dry_blocklistSubscribers
    (h : getOperationEffectiveDryRun .blocklistSubscribers input = some true) :
    isBoolean true (Value.get input "dry_run") = true := by
  obtain ⟨data, hdata, hdry⟩ := effectiveDryRun_eq_some_iff.mp h
  simp only [DryRunOperation.inputSchema, subscriberBulkBlocklistInputSchema,
    Option.bind_eq_bind, Option.bind_eq_some_iff] at hdata
  obtain ⟨ids, -, dryRun, hdryRun, maxItems, -, continueOnError, -, hdata⟩ := hdata
  obtain rfl := Option.some.inj hdata
  obtain rfl : dryRun = .boolean true := hdry
  cases hvalue : Value.get input "dry_run" <;>
    simp_all [defaulted, booleanSchema, isBoolean]

/-- A tick is dry when the raw input says so with a boolean or with a text. -/
theorem dry_tickAbTests_iff :
    getOperationEffectiveDryRun .tickAbTests input = some true ↔
      isBoolean true (Value.get input "dry_run") = true ∨
        Value.get input "dry_run" = .string "true" := by
  rw [effectiveDryRun_eq_some_iff]
  simp only [DryRunOperation.inputSchema, tickAbTestsInputSchema, Option.bind_eq_bind,
    Option.bind_eq_some_iff]
  constructor
  · rintro ⟨data, ⟨dryRun, hdryRun, hdata⟩, hdry⟩
    obtain rfl := Option.some.inj hdata
    obtain rfl : dryRun = .boolean true := hdry
    cases hvalue : Value.get input "dry_run" with
    | string value =>
        rw [hvalue, optionalBooleanSchema] at hdryRun
        split at hdryRun
        · next htrue => exact .inr (by rw [htrue])
        · split at hdryRun <;> simp at hdryRun
    | boolean value => simp_all [optionalBooleanSchema, booleanSchema, isBoolean]
    | _ => simp_all [optionalBooleanSchema, booleanSchema]
  · rintro (h | h)
    · have hvalue : Value.get input "dry_run" = .boolean true := by
        cases hvalue : Value.get input "dry_run" <;> simp_all [isBoolean]
      exact ⟨_, ⟨.boolean true, by rw [hvalue]; rfl, rfl⟩, rfl⟩
    · exact ⟨_, ⟨.boolean true, by rw [h]; rfl, rfl⟩, rfl⟩

/-- How an input spells that a reconciliation is for real. -/
def spellsFalse : Value → Bool
  | .boolean value => !value
  | .string value => CaseMapping.toLowerCase value = ("false" : Text)
  | _ => false

/-- A reconciliation is dry unless the raw input says otherwise. -/
theorem dry_reconcileSequences_iff
    (haccepted : (DryRunOperation.reconcileSequences.inputSchema input).isSome) :
    getOperationEffectiveDryRun .reconcileSequences input = some true ↔
      spellsFalse (Value.get input "dry_run") = false := by
  obtain ⟨data, hdata⟩ := Option.isSome_iff_exists.mp haccepted
  have heffective : getOperationEffectiveDryRun .reconcileSequences input = some true ↔
      Value.get data "dry_run" = .boolean true := by
    rw [effectiveDryRun_eq_some_iff, hdata]
    simp
  rw [heffective]
  simp only [DryRunOperation.inputSchema, sequenceReconcileInputSchema,
    Option.bind_eq_bind, Option.bind_eq_some_iff] at hdata
  obtain ⟨enrollmentId, -, resolution, -, limit, -, dryRun, hdryRun, hdata⟩ := hdata
  have hread : Value.get data "dry_run" = dryRun := by
    split at hdata
    · simp at hdata
    · split at hdata
      · simp at hdata
      · obtain rfl := Option.some.inj hdata
        rfl
  rw [hread]
  cases hvalue : Value.get input "dry_run" with
  | undefined => simp_all [defaulted, spellsFalse]
  | boolean value =>
      rw [hvalue] at hdryRun
      obtain rfl : Value.boolean value = dryRun := Option.some.inj hdryRun
      simp [spellsFalse]
  | string value =>
      rw [hvalue, defaulted, booleanInput] at hdryRun
      · split at hdryRun
        · next htrue =>
            obtain rfl := Option.some.inj hdryRun
            simp [spellsFalse, htrue]
        · split at hdryRun
          · next hfalse =>
              obtain rfl := Option.some.inj hdryRun
              simp [spellsFalse, hfalse]
          · simp at hdryRun
      · simp
  | _ => simp_all [defaulted, booleanInput, booleanSchema]

end Effective

/-! ## What a dry run announces -/

/-- An entry of a tick's results that is announced: it names a test, and a status that the
table of events holds or that every plain object inherits. -/
def Announced (result : Value) : Prop :=
  (asResourceKey (member (asRecord result) "test_id")).isSome ∧
    ∃ status, asNonBlankString (member (asRecord result) "status") = some status ∧
      status ∈ ([("analyzing" : Text), "inconclusive", "failed"] ++ inheritedNames)

theorem readTable_status_isSome_iff (status : Text) :
    (readTable abTestLifecycleEventByStatus status).isSome ↔
      status ∈ ([("analyzing" : Text), "inconclusive", "failed"] ++ inheritedNames) := by
  rw [readTable_isSome_iff, List.mem_append]
  rfl

theorem tickResultProjection_eq_none_iff (result : Value) :
    tickResultProjection result = none ↔ ¬ Announced result := by
  rw [Announced, ← Option.not_isSome_iff_eq_none, not_iff_not]
  simp only [← readTable_status_isSome_iff, tickResultProjection, lifecycleEventOfStatus]
  cases asResourceKey (member (asRecord result) "test_id") with
  | none => simp
  | some testId =>
      cases asNonBlankString (member (asRecord result) "status") with
      | none => simp
      | some status =>
          cases hentry : readTable abTestLifecycleEventByStatus status <;> simp [hentry]

/-- The dry runs of an operation that announce nothing, for a raw input and an output. -/
def AnnouncesNothing [CaseMapping] : DryRunOperation → Members → Value → Prop
  | .blocklistSubscribers, _, _ => True
  | .tickAbTests, input, output =>
      Value.get input "dry_run" ≠ .string "true" ∨
        ∀ result ∈ tickResults output, ¬ Announced result
  | .reconcileSequences, input, output =>
      spellsFalse (Value.get input "dry_run") = true ∨
        outputResource output "enrollment" = none ∨
          asResourceKey (member (outputResource output "sequence") "id") = none ∧
            asResourceKey (member (outputResource output "enrollment") "sequence_id") = none ∧
              asResourceKey (Value.get input "id") = none

section Announcing

variable [Sha256Platform] [InheritedNaming]

def eventsOf (operation : DryRunOperation) (executionId : Text) (input : Members) (output : Value) :
    List DomainEvent :=
  projectSuccessfulOperationLifecycleEvents
    { executionId
      operationId := operation.id
      operationInput := input
      operationOutput := output }

theorem eventsOf_eq_nil_iff (operation : DryRunOperation) (executionId : Text) (input : Members)
    (output : Value) : eventsOf operation executionId input output = [] ↔
      match operation with
      | .blocklistSubscribers => subscriberProjection
          ⟨executionId, operation.id, input, output, none⟩ = []
      | .tickAbTests => abTestProjection ⟨executionId, operation.id, input, output, none⟩ = []
      | .reconcileSequences =>
          sequenceProjection ⟨executionId, operation.id, input, output, none⟩ = [] := by
  have hcampaign : readTable campaignEventTypes operation.id = none := by
    cases operation <;> rfl
  rw [eventsOf, projected_eq_nil_iff, campaignProjection_eq_none hcampaign]
  cases operation with
  | blocklistSubscribers =>
      rw [abTestProjection_eq_nil (by simp [DryRunOperation.id]), sequenceProjection_eq_nil rfl]
      simp
  | tickAbTests =>
      rw [subscriberProjection_eq_nil (by simp [DryRunOperation.id]),
        sequenceProjection_eq_nil rfl]
      simp
  | reconcileSequences =>
      rw [subscriberProjection_eq_nil (by simp [DryRunOperation.id]),
        abTestProjection_eq_nil (by simp [DryRunOperation.id])]
      simp

/-- A dry run is announced by no event exactly when one of the reasons is there that keep it
quiet. The input is the one a transport makes of the arguments; it decides the effective dry
run and is what the projection reads. -/
theorem dryRun_quiet_iff [NumberCoercion] [CaseMapping] (operation : DryRunOperation)
    (transport : Transport) (executionId : Text) (arguments : Members) (output : Value)
    (haccepted : (operation.inputSchema (transport.operationInput arguments)).isSome) :
    (getOperationEffectiveDryRun operation (transport.operationInput arguments) = some true →
        eventsOf operation executionId (transport.operationInput arguments) output = []) ↔
      AnnouncesNothing operation (transport.operationInput arguments) output := by
  generalize transport.operationInput arguments = input at haccepted ⊢
  rw [eventsOf_eq_nil_iff]
  cases operation with
  | blocklistSubscribers =>
      simp only [AnnouncesNothing, iff_true]
      exact fun hdry => subscriberProjection_of_dry rfl (dry_blocklistSubscribers hdry)
  | tickAbTests =>
      rw [abTestProjection_tick rfl, dry_tickAbTests_iff]
      simp only [AnnouncesNothing, tickResultProjection_eq_none_iff]
      have hapart : isBoolean true (Value.get input "dry_run") = true →
          Value.get input "dry_run" ≠ .string "true" := by
        intro hboolean htext
        simp [htext, isBoolean] at hboolean
      tauto
  | reconcileSequences =>
      rw [sequenceProjection_reconcile rfl, dry_reconcileSequences_iff haccepted]
      simp only [AnnouncesNothing, reportedSequenceId]
      cases spellsFalse (Value.get input "dry_run") <;> simp

/-- What `executeSequenceReconcileOperation` returns when no send is resolved. -/
def reconcileReport (scanned recovered unchanged : Number) (dryRun : Bool) : Value :=
  .object [("scanned", .number scanned), ("recovered", .number recovered),
    ("unchanged", .number unchanged), ("dry_run", .boolean dryRun)]

/-- The report of a reconciliation that resolves no send is not announced. -/
theorem reconcileReport_quiet (executionId : Text) (input : Members)
    (scanned recovered unchanged : Number) (dryRun : Bool) :
    eventsOf .reconcileSequences executionId input
      (reconcileReport scanned recovered unchanged dryRun) = [] := by
  rw [eventsOf_eq_nil_iff]
  exact (sequenceProjection_reconcile rfl).mpr (.inl rfl)

end Announcing

/-! ## A tick asked for with a text -/

section Platform

/-- A platform that coerces nothing; nothing in a tick is coerced to a number. -/
@[reducible]
def noCoercion : NumberCoercion := ⟨fun _ => .nan⟩

/-- A platform that writes an inherited function as its name. -/
@[reducible]
def plainNaming : InheritedNaming := ⟨id⟩

attribute [local instance] noCoercion plainNaming asciiCaseMapping

local instance : Sha256Platform := knownDigests []

/-- No dry run is announced by an event, whatever the operation, the transport, the arguments and
the output. -/
def QuietDryRuns : Prop :=
  ∀ (operation : DryRunOperation) (transport : Transport) (executionId : Text)
    (arguments : Members) (output : Value),
    (operation.inputSchema (transport.operationInput arguments)).isSome →
      getOperationEffectiveDryRun operation (transport.operationInput arguments) = some true →
        eventsOf operation executionId (transport.operationInput arguments) output = []

/-- The arguments of a tick, as a client that writes booleans as texts gives them. -/
def textualTick : Members := [("dry_run", .string "true")]

/-- What a dry tick reports when one test is being analyzed. -/
def previewOfTick : Value :=
  .object [("results", .array [.object [("test_id", .string "t-1"),
    ("status", .string "analyzing"), ("action", .string "would-progress")]])]

/-- A dry tick asked for with a text announces the tests that are being analyzed. -/
theorem not_quietDryRuns : ¬ QuietDryRuns := by
  intro hquiet
  have hevents := hquiet .tickAbTests .mcp [] textualTick previewOfTick rfl rfl
  have hprojected := (eventsOf_eq_nil_iff _ _ _ _).mp hevents
  rcases (abTestProjection_tick rfl).mp hprojected with hboolean | hresults
  · exact absurd hboolean (by decide)
  · have hresult := hresults _ (List.mem_singleton.mpr rfl)
    rw [tickResultProjection_eq_none_iff] at hresult
    exact hresult ⟨rfl, "analyzing", rfl, by simp⟩

/-- With a boolean the same tick is quiet. -/
theorem dryRun_quiet_booleanTick :
    AnnouncesNothing .tickAbTests [("dry_run", .boolean true)] previewOfTick ∧
      eventsOf .tickAbTests [] [("dry_run", .boolean true)] previewOfTick = [] := by
  have hreason : AnnouncesNothing .tickAbTests [("dry_run", .boolean true)] previewOfTick :=
    .inl (by simp [Value.get])
  exact ⟨hreason, (dryRun_quiet_iff .tickAbTests .mcp [] [("dry_run", .boolean true)] previewOfTick
    rfl).mpr hreason rfl⟩

end Platform

end ListmonkOps.Operations
