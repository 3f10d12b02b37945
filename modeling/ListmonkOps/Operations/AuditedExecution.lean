/-
Executions of operations and their audit trail.

A command and a tool call run an operation in the same order: a `started` entry is
stored, the request is checked, the handler runs, and a last entry says how it went.
Each surface spells that order out with handlers of its own, around stores that can
fail at every write. A failed last entry must not replace what the handler did, and
a failed first entry must keep the handler from running.

Every execution is judged here by what it leaves behind in the order it happened:
entries, the run of the handler, and announced events. There are few such courses,
and an execution that stops short has gone along one of them.
-/

import ListmonkOps.Math.Executions
import ListmonkOps.Operations.DryRun
import ListmonkOps.Specs.Operation

namespace ListmonkOps.Operations

open ListmonkOps.Math ListmonkOps.Math.Program ListmonkOps.Runtime ListmonkOps.Specs
open ListmonkOps.Webhook (Members SuccessfulOperationLifecycleInput isBoolean)

/-! ## Entries -/

inductive OperationAuditSurface where
  | cli
  | mcp
  deriving DecidableEq

inductive OperationAuditEvent where
  | started
  | blocked
  | succeeded
  | failed
  deriving DecidableEq

def OperationAuditEvent.text : OperationAuditEvent → Text
  | .started => "started"
  | .blocked => "blocked"
  | .succeeded => "succeeded"
  | .failed => "failed"

/-- `RecordOperationAuditInput`, as both surfaces fill it in. -/
structure RecordOperationAuditInput where
  executionId : Text
  surface : OperationAuditSurface
  operationId : Text
  event : OperationAuditEvent
  confirmationRequired : Bool
  confirmed : Bool
  dryRun : Bool
  deriving DecidableEq

/-- `OperationAuditEntry`; its time is called `at`. -/
structure OperationAuditEntry where
  input : RecordOperationAuditInput
  recordedAt : Text
  deriving DecidableEq

/-! ## Calls -/

structure CallToolRequest where
  name : Text
  arguments : Option Members

structure CallToolResult where
  content : List Text
  isError : Bool := false
  structuredContent : Value := .undefined

def createErrorResult (error : Text) : CallToolResult where
  content := [("Error: " : Text) ++ error]
  isError := true

/-- What an execution does outside of itself. -/
inductive ExecutionCall where
  | recordOperationAudit (input : RecordOperationAuditInput)
  | /-- The recorder that a command was given in place of the store. -/
    recordAudit (input : RecordOperationAuditInput)
  | enqueueOperationLifecycleEvent (entry : OperationAuditEntry)
  | /-- The handler of a command. -/
    invoke
  | /-- The handler of a tool. -/
    handleTool (request : CallToolRequest)
  | enqueueSuccessfulOperationLifecycleEvents (input : SuccessfulOperationLifecycleInput)
  | /-- A message for whoever watches the process. -/
    reportError (message : Text)

/-- An answer for each kind of call, which reads the one that is meant for it. -/
structure ExecutionAnswer (ε : Type) where
  /-- The time of what was stored, or why it was not. -/
  written : Except ε Text
  invoked : Except ε Value
  handled : Except ε CallToolResult

/-- What is thrown has a text. -/
class ThrownMessages (ε : Type) where
  /-- `toErrorMessage`. -/
  toErrorMessage : ε → Text

open ThrownMessages (toErrorMessage)

/-! ## Operations -/

/-- What an execution reads of an `OperationCatalogItem`. -/
structure OperationCatalogItem where
  id : Text
  mcpName : Text
  safety : OperationSafety
  inputJsonSchema : List (Text × Value)
  /-- The data of an input that `inputSchema` accepts. -/
  inputSchema : Members → Option Members

namespace OperationCatalogItem

/-- `getOperationExecutionPolicy`. -/
def policy (operation : OperationCatalogItem) : OperationExecutionPolicy :=
  getOperationExecutionPolicy operation.safety operation.inputJsonSchema

/-- `getOperationEffectiveDryRun`. -/
def effectiveDryRun (operation : OperationCatalogItem) (input : Members) : Option Bool := do
  match Value.get (← operation.inputSchema input) "dry_run" with
  | .boolean dryRun => some dryRun
  | _ => none

end OperationCatalogItem

/-- The message of an `OperationConfirmationRequiredError`. -/
def confirmationRequiredMessage (operationId : Text) : Text :=
  ("Operation " : Text) ++ operationId ++ (" requires explicit confirmation" : Text)

/-- The message of an `McpOperationDryRunUnsupportedError`. -/
def dryRunUnsupportedMessage (operationId : Text) : Text :=
  ("Operation " : Text) ++ operationId ++ (" does not support dry_run" : Text)

variable {ε : Type} [ThrownMessages ε]

abbrev Execution (ε α : Type) := Program ExecutionCall (ExecutionAnswer ε) α

/-- `if (executionId) { ... }`. -/
def ifAudited {m : Type → Type} [Monad m] (executionId : Option Text) (act : Text → m Unit) :
    m Unit :=
  executionId.elim (pure ()) act

/-- A call that is made for its effect alone. -/
def report (message : Text) : Execution ε Unit := do
  let _ ← perform (.reportError message)

/-- Carry something out, and report what it throws. -/
def reportingFailure (attempted : Fallible ExecutionCall (ExecutionAnswer ε) ε Unit)
    (message : ε → Text) : Execution ε Unit := do
  match ← attempted.run with
  | .ok () => pure ()
  | .error error => report (message error)

/-- `recordOperationAuditWithLifecycle`: an event that cannot be queued is reported. -/
def recordOperationAuditWithLifecycle (input : RecordOperationAuditInput)
    (onLifecycleError : ε → Text) : Fallible ExecutionCall (ExecutionAnswer ε) ε Unit := do
  let recordedAt ← Fallible.ask (.recordOperationAudit input) (·.written)
  ExceptT.lift <| reportingFailure
    (Fallible.ask (.enqueueOperationLifecycleEvent ⟨input, recordedAt⟩)
      fun answer => answer.written.map fun _ => ())
    onLifecycleError

/-! ## Commands -/

structure CliOperationExecution where
  operation : OperationCatalogItem
  operationInput : Members
  confirmed : Bool
  dryRun : Bool

namespace CliOperationExecution

def policy (execution : CliOperationExecution) : OperationExecutionPolicy :=
  execution.operation.policy

/-- What the audit is told about a command. -/
def auditInput (execution : CliOperationExecution) (executionId : Text)
    (event : OperationAuditEvent) : RecordOperationAuditInput where
  executionId := executionId
  surface := .cli
  operationId := execution.operation.id
  event := event
  confirmationRequired := execution.policy.confirmationRequired
  confirmed := execution.confirmed
  dryRun := execution.dryRun

end CliOperationExecution

/-- The parameter of `executeCliOperation`. -/
structure CliOperationConfig where
  operationId : Text
  input : Members
  confirmed : Option Bool := none
  /-- Whether there is a `recordAudit`. -/
  ownRecorder : Bool := false

/-- What `executeCliOperation` rejects with. -/
inductive CliOperationError (ε : Type) where
  | /-- An `UnknownCliOperationError`. -/
    unknownOperation (operationId : Text)
  | /-- A `CliOperationAuditStartError`. -/
    auditStart (operationId : Text) (cause : ε)
  | /-- An `OperationConfirmationRequiredError`. -/
    confirmationRequired (operationId : Text)
  | /-- What the handler threw. -/
    thrown (error : ε)

def CliOperationError.message : CliOperationError ε → Text
  | .unknownOperation operationId => ("Unknown CLI operation: " : Text) ++ operationId
  | .auditStart operationId cause =>
      ("Unable to start audit for operation " : Text) ++ operationId ++ (": " : Text) ++
        toErrorMessage cause
  | .confirmationRequired operationId => confirmationRequiredMessage operationId
  | .thrown error => toErrorMessage error

/-- `getCliOperationExecution`: nothing where that throws, for an operation that is not
in the catalog. -/
def getCliOperationExecution (catalog : List OperationCatalogItem) (config : CliOperationConfig) :
    Option CliOperationExecution :=
  (catalog.find? fun operation => operation.id = config.operationId).map fun operation =>
    let operationInput := normalizeCliOperationInput config.input
    { operation
      operationInput
      confirmed := config.confirmed.getD (isBoolean true (Value.get config.input "confirm"))
      dryRun := operation.policy.dryRunSupported &&
        (operation.effectiveDryRun operationInput).getD
          (isBoolean true (Value.get operationInput "dry_run")) }

def recordCliOperationAudit (execution : CliOperationExecution) (executionId : Text)
    (event : OperationAuditEvent) (ownRecorder : Bool) :
    Fallible ExecutionCall (ExecutionAnswer ε) ε Unit :=
  let input := execution.auditInput executionId event
  if ownRecorder then Fallible.ask (.recordAudit input) fun answer => answer.written.map fun _ => ()
  else
    recordOperationAuditWithLifecycle input fun error =>
      ("Unable to enqueue CLI operation lifecycle event for " : Text) ++ execution.operation.id ++
        (": " : Text) ++ toErrorMessage error

def completeCliOperationExecution (execution : CliOperationExecution) (executionId : Option Text)
    (event : OperationAuditEvent) (ownRecorder : Bool) : Execution ε Unit :=
  ifAudited executionId fun executionId =>
    reportingFailure (recordCliOperationAudit execution executionId event ownRecorder)
      fun error => ("Unable to record CLI operation audit " : Text) ++ event.text ++
        (" for " : Text) ++ execution.operation.id ++ (": " : Text) ++ toErrorMessage error

/-- The first entry of a command, where there is one. -/
def startCliOperationExecution (execution : CliOperationExecution) (executionId : Option Text)
    (ownRecorder : Bool) : Fallible ExecutionCall (ExecutionAnswer ε) ε Unit :=
  ifAudited executionId fun executionId =>
    recordCliOperationAudit execution executionId .started ownRecorder

/-- The last entry of a command that was not confirmed, where there is one. -/
def blockCliOperationExecution (execution : CliOperationExecution) (executionId : Option Text)
    (ownRecorder : Bool) : Execution ε Unit :=
  ifAudited executionId fun executionId =>
    reportingFailure (recordCliOperationAudit execution executionId .blocked ownRecorder)
      fun error => ("Unable to record blocked CLI operation audit for " : Text) ++
        execution.operation.id ++ (": " : Text) ++ toErrorMessage error

/-- The domain events of a command that succeeded, where it is audited. -/
def announceCliOperation (execution : CliOperationExecution) (executionId : Option Text)
    (result : Value) : Execution ε Unit :=
  ifAudited executionId fun executionId =>
    reportingFailure
      (Fallible.ask (.enqueueSuccessfulOperationLifecycleEvents {
        executionId
        operationId := execution.operation.id
        operationInput := execution.operationInput
        operationOutput := result }) fun answer => answer.written.map fun _ => ())
      fun error => ("Unable to enqueue CLI domain lifecycle event for " : Text) ++
        execution.operation.id ++ (": " : Text) ++ toErrorMessage error

/-- `executeCliOperation` of an operation in the catalog. -/
def runCliOperation (execution : CliOperationExecution) (executionId : Option Text)
    (ownRecorder : Bool) : Execution ε (Except (CliOperationError ε) Value) := do
  match ← (startCliOperationExecution execution executionId ownRecorder).run with
  | .error cause => pure (.error (.auditStart execution.operation.id cause))
  | .ok () =>
      if execution.policy.confirmationRequired && !execution.confirmed then
        blockCliOperationExecution execution executionId ownRecorder
        pure (.error (.confirmationRequired execution.operation.id))
      else
        let answer ← perform .invoke
        match answer.invoked with
        | .ok result =>
            completeCliOperationExecution execution executionId .succeeded ownRecorder
            announceCliOperation execution executionId result
            pure (.ok result)
        | .error error =>
            completeCliOperationExecution execution executionId .failed ownRecorder
            pure (.error (.thrown error))

/-- `executeCliOperation`, with the id it would make. -/
def executeCliOperation (catalog : List OperationCatalogItem) (freshId : Text)
    (config : CliOperationConfig) : Execution ε (Except (CliOperationError ε) Value) :=
  match getCliOperationExecution catalog config with
  | none => pure (.error (.unknownOperation config.operationId))
  | some execution =>
      runCliOperation execution (if execution.policy.auditRequired then some freshId else none)
        config.ownRecorder

/-! ## Tools -/

structure McpOperationExecution where
  operation : OperationCatalogItem
  confirmed : Bool
  dryRunProvided : Bool
  dryRun : Bool
  request : CallToolRequest

namespace McpOperationExecution

def policy (execution : McpOperationExecution) : OperationExecutionPolicy :=
  execution.operation.policy

/-- What the audit is told about a tool call. -/
def auditInput (execution : McpOperationExecution) (executionId : Text)
    (event : OperationAuditEvent) : RecordOperationAuditInput where
  executionId := executionId
  surface := .mcp
  operationId := execution.operation.id
  event := event
  confirmationRequired := execution.policy.confirmationRequired
  confirmed := execution.confirmed
  dryRun := execution.dryRun

end McpOperationExecution

/-- `getMcpOperationExecution`: nothing for a tool that is not in the catalog. -/
def getMcpOperationExecution (catalog : List OperationCatalogItem) (request : CallToolRequest) :
    Option McpOperationExecution :=
  (catalog.find? fun operation => operation.mcpName = request.name).map fun operation =>
    let arguments := request.arguments.getD []
    let operationRequest : CallToolRequest :=
      if operation.policy.confirmationRequired then
        { request with arguments := some (withoutMcpOperationConfirmation arguments) }
      else request
    let dryRunRequested := isBoolean true (Value.get arguments "dry_run")
    { operation
      confirmed := isBoolean true (Value.get arguments "confirm")
      dryRunProvided := arguments.any fun argument => argument.1 = ("dry_run" : Text)
      dryRun := operation.policy.dryRunSupported &&
        (operation.effectiveDryRun (operationRequest.arguments.getD [])).getD dryRunRequested
      request := operationRequest }

/-- `assertMcpOperationDryRun` and `assertOperationConfirmation`: why a call is refused. -/
def McpOperationExecution.refusal? (execution : McpOperationExecution) : Option Text :=
  if execution.dryRunProvided && !execution.policy.dryRunSupported then
    some (dryRunUnsupportedMessage execution.operation.id)
  else if execution.policy.confirmationRequired && !execution.confirmed then
    some (confirmationRequiredMessage execution.operation.id)
  else none

def recordMcpOperationAudit (execution : McpOperationExecution) (executionId : Text)
    (event : OperationAuditEvent) : Fallible ExecutionCall (ExecutionAnswer ε) ε Unit :=
  recordOperationAuditWithLifecycle (execution.auditInput executionId event) fun error =>
    ("Unable to enqueue MCP operation lifecycle event for " : Text) ++ execution.operation.id ++
      (": " : Text) ++ toErrorMessage error

/-- The last entry of a call whose handler ran. -/
def recordMcpOutcome (execution : McpOperationExecution) (executionId : Text)
    (event : OperationAuditEvent) : Execution ε Unit :=
  reportingFailure (recordMcpOperationAudit execution executionId event) fun error =>
    ("Unable to record MCP operation audit " : Text) ++ event.text ++ (" for " : Text) ++
      execution.operation.id ++ (": " : Text) ++ toErrorMessage error

/-- The domain events of a call that succeeded. -/
def announceMcpOperation (execution : McpOperationExecution) (executionId : Text)
    (result : CallToolResult) : Execution ε Unit :=
  reportingFailure
    (Fallible.ask (.enqueueSuccessfulOperationLifecycleEvents {
      executionId
      operationId := execution.operation.id
      operationInput := execution.request.arguments.getD []
      operationOutput := result.structuredContent }) fun answer => answer.written.map fun _ => ())
    fun error => ("Unable to enqueue MCP domain lifecycle event for " : Text) ++
      execution.operation.id ++ (": " : Text) ++ toErrorMessage error

def completeMcpOperationExecution (execution : McpOperationExecution) (executionId : Option Text)
    (result : CallToolResult) : Execution ε CallToolResult := do
  ifAudited executionId fun executionId => do
    recordMcpOutcome execution executionId (if result.isError then .failed else .succeeded)
    if result.isError then pure () else announceMcpOperation execution executionId result
  pure result

/-- What a handler that threw is answered with. -/
def thrownResult (name : Text) (error : ε) : CallToolResult :=
  createErrorResult (("Error calling tool " : Text) ++ name ++ (": " : Text) ++
    toErrorMessage error)

/-- The result of a tool whose handler was run. -/
def toolResult (name : Text) : Except ε CallToolResult → CallToolResult
  | .ok result => result
  | .error error => thrownResult name error

/-- The first entry of a call, where there is one. -/
def startMcpOperationExecution (execution : McpOperationExecution) (executionId : Option Text) :
    Fallible ExecutionCall (ExecutionAnswer ε) ε Unit :=
  ifAudited executionId fun executionId => recordMcpOperationAudit execution executionId .started

/-- The answer to a call that is refused, after its last entry where there is one. -/
def blockMcpOperationExecution (execution : McpOperationExecution) (executionId : Option Text)
    (refusal : Text) : Execution ε CallToolResult :=
  match executionId with
  | none => pure (createErrorResult refusal)
  | some executionId => do
      match ← (recordMcpOperationAudit execution executionId .blocked).run with
      | .ok () => pure (createErrorResult refusal)
      | .error auditError =>
          pure (createErrorResult (refusal ++
            ("; unable to record blocked audit event: " : Text) ++ toErrorMessage auditError))

/-- `callTool` of an operation in the catalog. -/
def runMcpOperation (execution : McpOperationExecution) (executionId : Option Text)
    (name : Text) : Execution ε CallToolResult := do
  match ← (startMcpOperationExecution execution executionId).run with
  | .error error =>
      pure (createErrorResult (("Unable to start audit for operation " : Text) ++
        execution.operation.id ++ (": " : Text) ++ toErrorMessage error))
  | .ok () =>
      match execution.refusal? with
      | some refusal => blockMcpOperationExecution execution executionId refusal
      | none =>
          let answer ← perform (.handleTool execution.request)
          completeMcpOperationExecution execution executionId (toolResult name answer.handled)

/-- `callTool`, with the id it would make. -/
def callTool (tools : List Text) (catalog : List OperationCatalogItem) (freshId : Text)
    (request : CallToolRequest) : Execution ε CallToolResult :=
  if request.name ∉ tools then pure (createErrorResult (("Unknown tool: " : Text) ++ request.name))
  else
    match getMcpOperationExecution catalog request with
    | none => do
        let answer ← perform (.handleTool request)
        pure (toolResult request.name answer.handled)
    | some execution =>
        runMcpOperation execution (if execution.policy.auditRequired then some freshId else none)
          request.name

/-! ## Requests -/

/-- What the two surfaces know of the operations there are. -/
structure Surfaces where
  /-- `cliOperationCatalog`. -/
  commands : List OperationCatalogItem
  /-- The names of the tools of the server. -/
  tools : List Text
  /-- `mcpOperationCatalog`. -/
  operations : List OperationCatalogItem

/-- What asks for an operation. -/
inductive ExecutionRequest where
  | command (config : CliOperationConfig)
  | tool (request : CallToolRequest)

inductive Ended (ε : Type) where
  | command (outcome : Except (CliOperationError ε) Value)
  | tool (result : CallToolResult)

/-- The request was answered with an error. -/
def Ended.isError : Ended ε → Bool
  | .command (.ok _) => false
  | .command (.error _) => true
  | .tool result => result.isError

/-- Run a request; `freshId` is the id that is made where one is needed. -/
def ExecutionRequest.run (surfaces : Surfaces) (freshId : Text) :
    ExecutionRequest → Execution ε (Ended ε)
  | .command config => do
      let outcome ← executeCliOperation surfaces.commands freshId config
      pure (.command outcome)
  | .tool request => do
      let result ← callTool surfaces.tools surfaces.operations freshId request
      pure (.tool result)

/-! ## Courses -/

inductive HandlerOutcome (ε : Type) where
  | command (outcome : Except ε Value)
  | tool (outcome : Except ε CallToolResult)

namespace HandlerOutcome

variable {ε : Type}

/-- The handler returned, and not with an error result. -/
def succeeded : HandlerOutcome ε → Bool
  | .command (.ok _) => true
  | .tool (.ok result) => !result.isError
  | .command (.error _) | .tool (.error _) => false

/-- What a success hands to the projection of domain events. -/
def output : HandlerOutcome ε → Value
  | .command (.ok result) => result
  | .tool (.ok result) => result.structuredContent
  | .command (.error _) | .tool (.error _) => .undefined

/-- What the last entry says of an outcome. -/
def event (outcome : HandlerOutcome ε) : OperationAuditEvent :=
  if outcome.succeeded then .succeeded else .failed

end HandlerOutcome

/-- The ending passes on what the handler did, as it was: a command returns or throws it, a tool
answers with it. -/
inductive Relays : ExecutionRequest → HandlerOutcome ε → Ended ε → Prop
  | returned (config : CliOperationConfig) (result : Value) :
      Relays (.command config) (.command (.ok result)) (.command (.ok result))
  | thrown (config : CliOperationConfig) (error : ε) :
      Relays (.command config) (.command (.error error)) (.command (.error (.thrown error)))
  | answered (request : CallToolRequest) (outcome : Except ε CallToolResult) :
      Relays (.tool request) (.tool outcome) (.tool (toolResult request.name outcome))

/-- What an execution leaves behind. -/
inductive Milestone (ε : Type) where
  | /-- An entry was to be recorded, by the recorder of the caller or in the store. -/
    recorded (input : RecordOperationAuditInput) (own stored : Bool)
  | /-- A stored entry was to be sent out as an event. -/
    projected (entry : OperationAuditEntry)
  | /-- The handler ran, on this request in the case of a tool. -/
    ran (request : Option CallToolRequest) (outcome : HandlerOutcome ε)
  | /-- The domain events of a success were to be queued. -/
    announced (input : SuccessfulOperationLifecycleInput)

def milestone? {ε : Type} : ExecutionCall × ExecutionAnswer ε → Option (Milestone ε)
  | (.recordOperationAudit input, answer) => some (.recorded input false answer.written.isOk)
  | (.recordAudit input, answer) => some (.recorded input true answer.written.isOk)
  | (.enqueueOperationLifecycleEvent entry, _) => some (.projected entry)
  | (.invoke, answer) => some (.ran none (.command answer.invoked))
  | (.handleTool request, answer) => some (.ran (some request) (.tool answer.handled))
  | (.enqueueSuccessfulOperationLifecycleEvents input, _) => some (.announced input)
  | (.reportError _, _) => none

abbrev ExecutionLog (ε : Type) := List (ExecutionCall × ExecutionAnswer ε)

/-- What an execution has left behind so far. -/
def milestones {ε : Type} (log : ExecutionLog ε) : List (Milestone ε) := log.filterMap milestone?

/-- How an execution is audited. -/
structure Audited where
  executionId : Text
  entry : OperationAuditEvent → RecordOperationAuditInput
  executionId_entry : ∀ event, (entry event).executionId = executionId
  event_entry : ∀ event, (entry event).event = event
  /-- The entries go to a recorder of the caller. -/
  ownRecorder : Bool
  /-- What is announced of a success with this output. -/
  announcement : Value → SuccessfulOperationLifecycleInput

/-- An entry that is to be recorded, and the event of the one that was stored. -/
def Audited.recording {ε : Type} (audited : Audited) (event : OperationAuditEvent)
    (stored : Option Text) : List (Milestone ε) :=
  .recorded (audited.entry event) audited.ownRecorder stored.isSome ::
    if audited.ownRecorder then []
    else stored.toList.map fun recordedAt => .projected ⟨audited.entry event, recordedAt⟩

/-- What is settled about an execution before it starts. -/
structure Attempt where
  audited : Option Audited
  /-- The execution must not get to the handler. -/
  refused : Bool
  /-- What the handler would be given. -/
  request : Option CallToolRequest

namespace Attempt

/-- The entries of one event, where the execution is audited. -/
def recording (attempt : Attempt) (event : OperationAuditEvent) (stored : Option Text) :
    List (Milestone ε) :=
  attempt.audited.toList.flatMap (·.recording event stored)

/-- What is announced where the execution is audited and its handler succeeded. -/
def announcements (attempt : Attempt) (outcome : HandlerOutcome ε) : List (Milestone ε) :=
  if outcome.succeeded then
    attempt.audited.toList.map fun audited => .announced (audited.announcement outcome.output)
  else []

/-- The ways an execution can go, and how it ends. Only where its first entry was stored
is there more to come; the handler is run once or not at all, and what it did is what the
request ends with. -/
inductive Course (attempt : Attempt) (request : ExecutionRequest) :
    List (Milestone ε) → Ended ε → Prop
  | unstarted {audited : Audited} {ended : Ended ε} (h : attempt.audited = some audited)
      (hended : ended.isError = true) :
      Course attempt request (audited.recording .started none) ended
  | refused (startedAt : Text) (stored : Option Text) {ended : Ended ε}
      (h : attempt.refused = true) (hended : ended.isError = true) :
      Course attempt request (attempt.recording .started (some startedAt) ++
        attempt.recording .blocked stored) ended
  | handled (startedAt : Text) (outcome : HandlerOutcome ε) (stored : Option Text)
      {ended : Ended ε} (h : attempt.refused = false) (hended : Relays request outcome ended) :
      Course attempt request (attempt.recording .started (some startedAt) ++
        .ran attempt.request outcome :: (attempt.recording outcome.event stored ++
          attempt.announcements outcome)) ended

end Attempt

/-- What the audit is told about a command, and what is announced of it. -/
def CliOperationExecution.audited (execution : CliOperationExecution) (executionId : Text)
    (ownRecorder : Bool) : Audited where
  executionId := executionId
  entry := execution.auditInput executionId
  executionId_entry _ := rfl
  event_entry _ := rfl
  ownRecorder := ownRecorder
  announcement result := {
    executionId
    operationId := execution.operation.id
    operationInput := execution.operationInput
    operationOutput := result }

/-- What the audit is told about a tool call, and what is announced of it. -/
def McpOperationExecution.audited (execution : McpOperationExecution) (executionId : Text) :
    Audited where
  executionId := executionId
  entry := execution.auditInput executionId
  executionId_entry _ := rfl
  event_entry _ := rfl
  ownRecorder := false
  announcement result := {
    executionId
    operationId := execution.operation.id
    operationInput := execution.request.arguments.getD []
    operationOutput := result }

/-- A command that is not there is refused before anything else; its operation is
audited when it writes, and refused when it is destructive and not confirmed. -/
def CliOperationConfig.attempt (config : CliOperationConfig) (catalog : List OperationCatalogItem)
    (freshId : Text) : Attempt :=
  match getCliOperationExecution catalog config with
  | none => ⟨none, true, none⟩
  | some execution => {
      audited :=
        if execution.policy.auditRequired then some (execution.audited freshId config.ownRecorder)
        else none
      refused := execution.policy.confirmationRequired && !execution.confirmed
      request := none }

/-- A tool that is not there is refused, and one that is not in the catalog is run as it
is; an operation is refused also for a dry run that it does not have. -/
def CallToolRequest.attempt (request : CallToolRequest) (tools : List Text)
    (catalog : List OperationCatalogItem) (freshId : Text) : Attempt :=
  if request.name ∉ tools then ⟨none, true, none⟩
  else
    match getMcpOperationExecution catalog request with
    | none => ⟨none, false, some request⟩
    | some execution => {
        audited :=
          if execution.policy.auditRequired then some (execution.audited freshId) else none
        refused := execution.refusal?.isSome
        request := some execution.request }

/-- What is settled about a request before it is run. -/
def ExecutionRequest.attempt (surfaces : Surfaces) (freshId : Text) : ExecutionRequest → Attempt
  | .command config => config.attempt surfaces.commands freshId
  | .tool request => request.attempt surfaces.tools surfaces.operations freshId

/-! ## The parts of an execution -/

section Parts

variable {ε : Type} {log : ExecutionLog ε}

instance : Inhabited (ExecutionAnswer ε) :=
  ⟨{ written := .ok [], invoked := .ok .undefined, handled := .ok { content := [] } }⟩

@[simp]
theorem milestones_append {first second : ExecutionLog ε} :
    milestones (first ++ second) = milestones first ++ milestones second :=
  List.filterMap_append

@[simp]
theorem milestones_nil : milestones ([] : ExecutionLog ε) = [] := rfl

theorem milestones_singleton {call : ExecutionCall} {answer : ExecutionAnswer ε} :
    milestones [(call, answer)] = (milestone? (call, answer)).toList := by
  cases h : milestone? (call, answer) <;> simp [milestones, h]

theorem milestones_invoke {answer : ExecutionAnswer ε} :
    milestones ((.invoke, answer) :: log) = .ran none (.command answer.invoked) :: milestones log :=
  rfl

theorem milestones_handleTool {request : CallToolRequest} {answer : ExecutionAnswer ε} :
    milestones ((.handleTool request, answer) :: log) =
      .ran (some request) (.tool answer.handled) :: milestones log :=
  rfl

/-- Reporting leaves nothing behind, whatever was attempted before. -/
theorem ran_reportingFailure {attempted : Fallible ExecutionCall (ExecutionAnswer ε) ε Unit}
    {message : ε → Text} {done : Unit} (h : (reportingFailure attempted message).Ran log done) :
    ∃ first outcome, Program.Ran attempted.run first outcome ∧ milestones log = milestones first := by
  obtain ⟨first, outcome, second, rfl, hfirst, hsecond⟩ := ran_bind.mp h
  refine ⟨first, outcome, hfirst, ?_⟩
  cases outcome with
  | ok value =>
      obtain ⟨rfl, -⟩ := ran_pure.mp hsecond
      simp
  | error error =>
      obtain ⟨reported, answer, rest, rfl, hreported, hrest⟩ := ran_bind.mp hsecond
      obtain ⟨rfl, -⟩ := ran_pure.mp hrest
      obtain ⟨answer, rest, rfl, hdone⟩ := ran_call.mp hreported
      obtain ⟨rfl, -⟩ := ran_pure.mp hdone
      simp [milestones, milestone?]

/-- Recording an entry says whether it was stored, and sends out what was. -/
theorem ran_recordOperationAuditWithLifecycle {input : RecordOperationAuditInput}
    {message : ε → Text} {outcome : Except ε Unit}
    (h : Program.Ran (recordOperationAuditWithLifecycle input message).run log outcome) :
    ∃ stored : Option Text, outcome.isOk = stored.isSome ∧
      milestones log = .recorded input false stored.isSome ::
        stored.toList.map fun recordedAt => .projected ⟨input, recordedAt⟩ := by
  obtain ⟨error, rfl, hfirst⟩ | ⟨first, recordedAt, second, rfl, hfirst, hsecond⟩ :=
    Fallible.ran_bind.mp h
  · obtain ⟨answer, rfl, hread⟩ := Fallible.ran_ask.mp hfirst
    refine ⟨none, rfl, ?_⟩
    simp [milestones, milestone?, ← hread, Except.isOk, Except.toBool]
  · obtain ⟨answer, rfl, hread⟩ := Fallible.ran_ask.mp hfirst
    obtain ⟨done, rfl, hsent⟩ := Fallible.ran_lift.mp hsecond
    obtain ⟨asked, sent, hasked, hsame⟩ := ran_reportingFailure hsent
    obtain ⟨answer', rfl, -⟩ := Fallible.ran_ask.mp hasked
    refine ⟨some recordedAt, rfl, ?_⟩
    rw [milestones_append, hsame]
    simp [milestones, milestone?, ← hread, Except.isOk, Except.toBool]

/-- The program records an entry of an audited execution, and says whether it was stored. -/
def Records (audited : Audited) (event : OperationAuditEvent)
    (record : Fallible ExecutionCall (ExecutionAnswer ε) ε Unit) : Prop :=
  ∀ ⦃log outcome⦄, Program.Ran record.run log outcome →
    ∃ stored : Option Text, outcome.isOk = stored.isSome ∧
      milestones log = audited.recording event stored

theorem records_recordCliOperationAudit [ThrownMessages ε] {execution : CliOperationExecution}
    {executionId : Text} {event : OperationAuditEvent} {ownRecorder : Bool} :
    Records (ε := ε) (execution.audited executionId ownRecorder) event
      (recordCliOperationAudit execution executionId event ownRecorder) := by
  intro log outcome h
  cases ownRecorder with
  | false => exact ran_recordOperationAuditWithLifecycle h
  | true =>
      obtain ⟨answer, rfl, rfl⟩ := Fallible.ran_ask.mp h
      cases hwritten : answer.written with
      | ok recordedAt =>
          refine ⟨some recordedAt, rfl, ?_⟩
          simp [milestones, milestone?, hwritten, Audited.recording, CliOperationExecution.audited,
            Except.isOk, Except.toBool]
      | error error =>
          refine ⟨none, rfl, ?_⟩
          simp [milestones, milestone?, hwritten, Audited.recording, CliOperationExecution.audited,
            Except.isOk, Except.toBool]

theorem records_recordMcpOperationAudit [ThrownMessages ε] {execution : McpOperationExecution}
    {executionId : Text} {event : OperationAuditEvent} :
    Records (ε := ε) (execution.audited executionId) event
      (recordMcpOperationAudit execution executionId event) :=
  fun _ _ => ran_recordOperationAuditWithLifecycle

/-- Only an audited execution records its start, and stops where it cannot. -/
theorem ran_start {audited : Text → Audited} {executionId : Option Text} {attempt : Attempt}
    {record : Text → Fallible ExecutionCall (ExecutionAnswer ε) ε Unit} {outcome : Except ε Unit}
    (hrecords : ∀ executionId, Records (audited executionId) .started (record executionId))
    (hattempt : attempt.audited = executionId.map audited)
    (h : Program.Ran (ifAudited executionId record).run log outcome) :
    (∃ startedAt, outcome = .ok () ∧
        milestones log = attempt.recording .started (some startedAt)) ∨
      ∃ entries error, attempt.audited = some entries ∧ outcome = .error error ∧
        milestones log = entries.recording .started none := by
  cases executionId with
  | none =>
      obtain ⟨rfl, rfl⟩ := ran_pure.mp h
      refine .inl ⟨[], rfl, ?_⟩
      rw [Attempt.recording, hattempt]
      rfl
  | some executionId =>
      obtain ⟨stored, hok, hmilestones⟩ := hrecords executionId h
      cases outcome with
      | ok value =>
          obtain ⟨startedAt, rfl⟩ := Option.isSome_iff_exists.mp hok.symm
          refine .inl ⟨startedAt, rfl, ?_⟩
          rw [hmilestones, Attempt.recording, hattempt]
          simp
      | error error =>
          obtain rfl : stored = none := by simpa [Except.isOk, Except.toBool] using hok.symm
          exact .inr ⟨audited executionId, error, hattempt, rfl, hmilestones⟩

/-- A last entry whose failure is only reported. -/
theorem ran_ifAudited_reportingFailure {audited : Text → Audited} {executionId : Option Text}
    {attempt : Attempt} {event : OperationAuditEvent} {message : Text → ε → Text} {done : Unit}
    {record : Text → Fallible ExecutionCall (ExecutionAnswer ε) ε Unit}
    (hrecords : ∀ executionId, Records (audited executionId) event (record executionId))
    (hattempt : attempt.audited = executionId.map audited)
    (h : (ifAudited executionId fun executionId =>
      reportingFailure (record executionId) (message executionId)).Ran log done) :
    ∃ stored, milestones log = attempt.recording event stored := by
  simp only [Attempt.recording, hattempt]
  cases executionId with
  | none =>
      obtain ⟨rfl, -⟩ := ran_pure.mp h
      exact ⟨none, rfl⟩
  | some executionId =>
      obtain ⟨first, outcome, hfirst, hsame⟩ := ran_reportingFailure h
      obtain ⟨stored, -, hmilestones⟩ := hrecords executionId hfirst
      refine ⟨stored, ?_⟩
      rw [hsame, hmilestones]
      simp

/-- A question whose failure is only reported. -/
theorem ran_reportingFailure_ask {call : ExecutionCall} {message : ε → Text} {done : Unit}
    {read : ExecutionAnswer ε → Except ε Unit}
    (h : (reportingFailure (Fallible.ask call read) message).Ran log done) :
    ∃ answer, milestones log = (milestone? (call, answer)).toList := by
  obtain ⟨first, outcome, hfirst, hsame⟩ := ran_reportingFailure h
  obtain ⟨answer, rfl, -⟩ := Fallible.ran_ask.mp hfirst
  exact ⟨answer, by rw [hsame, milestones_singleton]⟩

theorem ran_announce {audited : Text → Audited} {executionId : Option Text} {attempt : Attempt}
    {message : Text → ε → Text} {read : ExecutionAnswer ε → Except ε Unit} {output : Value}
    {done : Unit} (hattempt : attempt.audited = executionId.map audited)
    (h : (ifAudited executionId fun executionId => reportingFailure (Fallible.ask
      (.enqueueSuccessfulOperationLifecycleEvents ((audited executionId).announcement output)) read)
        (message executionId)).Ran log done) :
    milestones log =
      attempt.audited.toList.map fun audited => .announced (audited.announcement output) := by
  rw [hattempt]
  cases executionId with
  | none =>
      obtain ⟨rfl, -⟩ := ran_pure.mp h
      rfl
  | some executionId =>
      obtain ⟨answer, hasked⟩ := ran_reportingFailure_ask h
      exact hasked

end Parts

/-! ## Whole executions -/

section Whole

variable {log : ExecutionLog ε}

/-- A command leaves one of the courses behind, and ends as that says. -/
theorem course_runCliOperation {execution : CliOperationExecution} {executionId : Option Text}
    {ownRecorder : Bool} {config : CliOperationConfig} {attempt : Attempt}
    {outcome : Except (CliOperationError ε) Value}
    (haudited : attempt.audited = executionId.map (execution.audited · ownRecorder))
    (hrefused : attempt.refused = (execution.policy.confirmationRequired && !execution.confirmed))
    (hrequest : attempt.request = none)
    (h : (runCliOperation execution executionId ownRecorder).Ran log outcome) :
    attempt.Course (.command config) (milestones log) (.command outcome) := by
  have hrecords : ∀ event executionId,
      Records (ε := ε) (execution.audited executionId ownRecorder) event
        (recordCliOperationAudit execution executionId event ownRecorder) :=
    fun _ _ => records_recordCliOperationAudit
  obtain ⟨first, started, second, rfl, hfirst, hsecond⟩ := ran_bind.mp h
  obtain ⟨startedAt, rfl, hstarted⟩ | ⟨entries, error, hentries, rfl, hunstarted⟩ :=
    ran_start (hrecords .started) haudited hfirst
  · rw [milestones_append, hstarted]
    by_cases hblocked : (execution.policy.confirmationRequired && !execution.confirmed) = true
    · simp only [hblocked, if_true] at hsecond
      obtain ⟨blocked, done, rest, rfl, hblock, hrest⟩ := ran_bind.mp hsecond
      obtain ⟨rfl, rfl⟩ := ran_pure.mp hrest
      obtain ⟨stored, hstored⟩ := ran_ifAudited_reportingFailure (hrecords .blocked) haudited hblock
      rw [milestones_append, hstored, milestones_nil, List.append_nil]
      exact .refused startedAt stored (hrefused.trans hblocked) rfl
    · have hallowed : attempt.refused = false := hrefused.trans (by simpa using hblocked)
      simp only [hblocked] at hsecond
      obtain ⟨asked, answer, rest, rfl, hasked, hrest⟩ := ran_bind.mp hsecond
      obtain ⟨answer, called, rfl, hcalled⟩ := ran_call.mp hasked
      obtain ⟨rfl, rfl⟩ := ran_pure.mp hcalled
      cases hinvoked : answer.invoked with
      | ok result =>
          simp only [hinvoked] at hrest
          obtain ⟨completed, done, last, rfl, hcompleted, hlast⟩ := ran_bind.mp hrest
          obtain ⟨announced, done', returned, rfl, hannounced, hreturned⟩ := ran_bind.mp hlast
          obtain ⟨rfl, rfl⟩ := ran_pure.mp hreturned
          obtain ⟨stored, hstored⟩ :=
            ran_ifAudited_reportingFailure (hrecords .succeeded) haudited hcompleted
          have hevents := ran_announce haudited hannounced
          rw [List.singleton_append, milestones_invoke, milestones_append, milestones_append,
            hstored, hevents, milestones_nil, List.append_nil, hinvoked, ← hrequest]
          exact .handled startedAt (.command (.ok result)) stored hallowed (.returned config result)
      | error error =>
          simp only [hinvoked] at hrest
          obtain ⟨completed, done, returned, rfl, hcompleted, hreturned⟩ := ran_bind.mp hrest
          obtain ⟨rfl, rfl⟩ := ran_pure.mp hreturned
          obtain ⟨stored, hstored⟩ :=
            ran_ifAudited_reportingFailure (hrecords .failed) haudited hcompleted
          have hcourse := Attempt.Course.handled startedAt
            (.command (.error error)) stored hallowed (.thrown config error)
          rw [List.singleton_append, milestones_invoke, milestones_append, hstored, milestones_nil,
            hinvoked, ← hrequest]
          exact hcourse
  · obtain ⟨rfl, rfl⟩ := ran_pure.mp hsecond
    rw [List.append_nil, hunstarted]
    exact .unstarted hentries rfl

theorem isError_toolResult {name : Text} {handled : Except ε CallToolResult} :
    (toolResult name handled).isError = !(HandlerOutcome.tool handled).succeeded := by
  cases handled with
  | ok result => simp [toolResult, HandlerOutcome.succeeded]
  | error error => rfl

theorem ran_completeMcpOperationExecution {execution : McpOperationExecution}
    {executionId : Option Text} {attempt : Attempt} {name : Text}
    {handled : Except ε CallToolResult} {result : CallToolResult}
    (haudited : attempt.audited = executionId.map execution.audited)
    (h : (completeMcpOperationExecution execution executionId (toolResult name handled)).Ran log
      result) :
    result = toolResult name handled ∧ ∃ stored, milestones log =
      attempt.recording (HandlerOutcome.tool handled).event stored ++
        attempt.announcements (.tool handled) := by
  obtain ⟨completed, done, returned, rfl, hcompleted, hreturned⟩ := ran_bind.mp h
  obtain ⟨rfl, rfl⟩ := ran_pure.mp hreturned
  refine ⟨rfl, ?_⟩
  rw [List.append_nil]
  cases executionId with
  | none =>
      obtain ⟨rfl, -⟩ := ran_pure.mp hcompleted
      exact ⟨none, by simp [Attempt.recording, Attempt.announcements, haudited]⟩
  | some executionId =>
      obtain ⟨recorded, done', rest, rfl, hrecorded, hrest⟩ := ran_bind.mp hcompleted
      obtain ⟨first, outcome, hfirst, hsame⟩ := ran_reportingFailure hrecorded
      obtain ⟨stored, -, hstored⟩ := records_recordMcpOperationAudit hfirst
      refine ⟨stored, ?_⟩
      have hevent : (if (toolResult name handled).isError then OperationAuditEvent.failed
          else .succeeded) = (HandlerOutcome.tool handled).event := by
        rw [isError_toolResult, HandlerOutcome.event]
        cases (HandlerOutcome.tool handled).succeeded <;> rfl
      have hannounced : milestones rest = attempt.announcements (.tool handled) := by
        rw [Attempt.announcements, haudited]
        cases handled with
        | error error =>
            obtain ⟨rfl, -⟩ := ran_pure.mp hrest
            rfl
        | ok result =>
            cases hfailed : result.isError with
            | true =>
                simp only [toolResult, hfailed, if_true] at hrest
                obtain ⟨rfl, -⟩ := ran_pure.mp hrest
                simp [HandlerOutcome.succeeded, hfailed]
            | false =>
                simp only [toolResult, hfailed] at hrest
                obtain ⟨answer, hasked⟩ := ran_reportingFailure_ask hrest
                rw [hasked]
                simp [HandlerOutcome.succeeded, hfailed, HandlerOutcome.output, milestone?,
                  McpOperationExecution.audited]
      rw [milestones_append, hsame, hstored, hevent, hannounced, Attempt.recording, haudited]
      simp

/-- A tool call leaves one of the courses behind, and ends as that says. -/
theorem course_runMcpOperation {execution : McpOperationExecution} {executionId : Option Text}
    {request : CallToolRequest} {attempt : Attempt} {result : CallToolResult}
    (haudited : attempt.audited = executionId.map execution.audited)
    (hrefused : attempt.refused = execution.refusal?.isSome)
    (hrequest : attempt.request = some execution.request)
    (h : (runMcpOperation execution executionId request.name).Ran log result) :
    attempt.Course (ε := ε) (.tool request) (milestones log) (.tool result) := by
  have hrecords : ∀ event executionId, Records (ε := ε) (execution.audited executionId) event
      (recordMcpOperationAudit execution executionId event) :=
    fun _ _ => records_recordMcpOperationAudit
  obtain ⟨first, started, second, rfl, hfirst, hsecond⟩ := ran_bind.mp h
  obtain ⟨startedAt, rfl, hstarted⟩ | ⟨entries, error, hentries, rfl, hunstarted⟩ :=
    ran_start (hrecords .started) haudited hfirst
  · rw [milestones_append, hstarted]
    cases hrefusal : execution.refusal? with
    | some refusal =>
        simp only [hrefusal] at hsecond
        have hblocked : attempt.refused = true := by rw [hrefused, hrefusal]; rfl
        cases executionId with
        | none =>
            obtain ⟨rfl, rfl⟩ := ran_pure.mp hsecond
            have hnone : ∀ stored, attempt.recording (ε := ε) .blocked stored = [] := by
              intro stored
              rw [Attempt.recording, haudited]
              rfl
            rw [milestones_nil, ← hnone none]
            exact .refused startedAt none hblocked rfl
        | some executionId =>
            obtain ⟨recorded, outcome, rest, rfl, hrecorded, hrest⟩ := ran_bind.mp hsecond
            obtain ⟨stored, -, hstored⟩ := hrecords .blocked executionId hrecorded
            have hblocking : milestones recorded = attempt.recording .blocked stored := by
              rw [hstored, Attempt.recording, haudited]
              simp
            cases outcome with
            | ok value =>
                obtain ⟨rfl, rfl⟩ := ran_pure.mp hrest
                rw [List.append_nil, hblocking]
                exact .refused startedAt stored hblocked rfl
            | error error =>
                obtain ⟨rfl, rfl⟩ := ran_pure.mp hrest
                rw [List.append_nil, hblocking]
                exact .refused startedAt stored hblocked rfl
    | none =>
        simp only [hrefusal] at hsecond
        have hallowed : attempt.refused = false := by rw [hrefused, hrefusal]; rfl
        obtain ⟨asked, answer, rest, rfl, hasked, hrest⟩ := ran_bind.mp hsecond
        obtain ⟨answer, called, rfl, hcalled⟩ := ran_call.mp hasked
        obtain ⟨rfl, rfl⟩ := ran_pure.mp hcalled
        obtain ⟨rfl, stored, hstored⟩ := ran_completeMcpOperationExecution haudited hrest
        rw [List.singleton_append, milestones_handleTool, hstored, ← hrequest]
        exact .handled startedAt (.tool answer.handled) stored hallowed
          (.answered request answer.handled)
  · obtain ⟨rfl, rfl⟩ := ran_pure.mp hsecond
    rw [List.append_nil, hunstarted]
    exact .unstarted hentries rfl

/-- Every execution that returned has gone one of the courses to its end. -/
theorem course_of_ran {surfaces : Surfaces} {freshId : Text} {request : ExecutionRequest}
    {ended : Ended ε} (h : (request.run surfaces freshId).Ran log ended) :
    (request.attempt surfaces freshId).Course request (milestones log) ended := by
  cases request with
  | command config =>
      obtain ⟨calls, outcome, rest, rfl, hcalls, hrest⟩ := ran_bind.mp h
      obtain ⟨rfl, rfl⟩ := ran_pure.mp hrest
      rw [List.append_nil]
      rw [executeCliOperation] at hcalls
      rw [ExecutionRequest.attempt, CliOperationConfig.attempt]
      cases hfound : getCliOperationExecution surfaces.commands config with
      | none =>
          simp only [hfound] at hcalls
          obtain ⟨rfl, rfl⟩ := ran_pure.mp hcalls
          exact .refused [] none rfl rfl
      | some execution =>
          simp only [hfound] at hcalls
          refine course_runCliOperation ?_ rfl rfl hcalls
          by_cases haudit : execution.policy.auditRequired = true <;> simp [haudit]
  | tool request =>
      obtain ⟨calls, result, rest, rfl, hcalls, hrest⟩ := ran_bind.mp h
      obtain ⟨rfl, rfl⟩ := ran_pure.mp hrest
      rw [List.append_nil]
      rw [callTool] at hcalls
      rw [ExecutionRequest.attempt, CallToolRequest.attempt]
      by_cases hunknown : request.name ∉ surfaces.tools
      · rw [if_pos hunknown] at hcalls ⊢
        obtain ⟨rfl, rfl⟩ := ran_pure.mp hcalls
        exact .refused [] none rfl rfl
      · rw [if_neg hunknown] at hcalls ⊢
        cases hfound : getMcpOperationExecution surfaces.operations request with
        | none =>
            simp only [hfound] at hcalls
            obtain ⟨asked, answer, last, rfl, hasked, hlast⟩ := ran_bind.mp hcalls
            obtain ⟨answer, called, rfl, hcalled⟩ := ran_call.mp hasked
            obtain ⟨rfl, rfl⟩ := ran_pure.mp hcalled
            obtain ⟨rfl, rfl⟩ := ran_pure.mp hlast
            have hcourse : (⟨none, false, some request⟩ : Attempt).Course _ _ _ :=
              .handled [] (.tool answer.handled) none rfl (.answered request answer.handled)
            simpa [Attempt.recording, Attempt.announcements, milestones, milestone?] using hcourse
        | some execution =>
            simp only [hfound] at hcalls
            refine course_runMcpOperation ?_ rfl rfl hcalls
            by_cases haudit : execution.policy.auditRequired = true <;> simp [haudit]

/-- At every moment of every execution, what it has left behind is the beginning of one
of the courses; and it is the whole of it where the execution returned. -/
theorem course_of_reached {surfaces : Surfaces} {freshId : Text} {request : ExecutionRequest}
    {rest : Execution ε (Ended ε)} (h : (request.run surfaces freshId).Reached log rest) :
    ∃ more ended, (request.attempt surfaces freshId).Course request (milestones log ++ more) ended ∧
      ∀ result, rest = .done result → more = [] ∧ ended = result := by
  obtain ⟨calls, ended, hran⟩ := exists_ran rest
  refine ⟨milestones calls, ended, ?_, ?_⟩
  · rw [← milestones_append]
    exact course_of_ran (h.ran hran)
  · rintro result rfl
    obtain ⟨rfl, rfl⟩ := ran_pure.mp hran
    exact ⟨rfl, rfl⟩

end Whole

/-! ## What comes before what -/

section Order

variable {attempt : Attempt} {before after ms : List (Milestone ε)}

/-- The first entry of the execution was stored. -/
def Opened {ε : Type} (audited : Audited) (before : List (Milestone ε)) : Prop :=
  .recorded (audited.entry .started) audited.ownRecorder true ∈ before

/-- No entry but the first was to be recorded yet. -/
def Unsettled {ε : Type} (before : List (Milestone ε)) : Prop :=
  ∀ input own stored, .recorded input own stored ∈ before → input.event = .started

/-- The handler has not run yet. -/
def Untouched {ε : Type} (before : List (Milestone ε)) : Prop :=
  ∀ given outcome, .ran given outcome ∉ before

/-- What an event says is so: nothing came before a start, the handler did not run where an
execution was blocked, and it came out as the other two say. -/
def Truthful {ε : Type} (attempt : Attempt) (before : List (Milestone ε)) :
    OperationAuditEvent → Prop
  | .started => before = []
  | .blocked => attempt.refused = true ∧ Untouched before
  | .succeeded => ∃ given outcome, .ran given outcome ∈ before ∧ outcome.succeeded = true
  | .failed => ∃ given outcome, .ran given outcome ∈ before ∧ outcome.succeeded = false

/-- What has to be there before something may be left behind: an entry has to be true, the handler
needs the first entry, and an announcement needs a success. -/
def Allowed {ε : Type} (attempt : Attempt) (before : List (Milestone ε)) : Milestone ε → Prop
  | .recorded input own _ => ∃ audited event, attempt.audited = some audited ∧
      input = audited.entry event ∧ own = audited.ownRecorder ∧ Truthful attempt before event ∧
        (event ≠ .started → Opened audited before ∧ Unsettled before)
  | .projected entry => .recorded entry.input false true ∈ before
  | .ran given _ => given = attempt.request ∧ attempt.refused = false ∧ Untouched before ∧
      ∀ audited, attempt.audited = some audited → Opened audited before
  | .announced input => ∃ audited given outcome, attempt.audited = some audited ∧
      .ran given outcome ∈ before ∧ outcome.succeeded = true ∧
        input = audited.announcement outcome.output

/-- Everything that is left behind after `before` is allowed where it comes. -/
def InOrder {ε : Type} (attempt : Attempt) :
    List (Milestone ε) → List (Milestone ε) → Prop
  | _, [] => True
  | before, m :: ms => Allowed attempt before m ∧ InOrder attempt (before ++ [m]) ms

theorem inOrder_append {ε : Type} {attempt : Attempt} {before first second : List (Milestone ε)} :
    InOrder attempt before (first ++ second) ↔
      InOrder attempt before first ∧ InOrder attempt (before ++ first) second := by
  induction first generalizing before with
  | nil => simp [InOrder]
  | cons m first ih => simp [InOrder, ih, and_assoc]

section Recording

variable {ε : Type} {attempt : Attempt} {before : List (Milestone ε)} {audited : Audited}
variable {event : OperationAuditEvent} {stored : Option Text}

theorem inOrder_recording (haudited : attempt.audited = some audited)
    (htruthful : Truthful attempt before event)
    (hlast : event ≠ .started → Opened audited before ∧ Unsettled before) :
    InOrder attempt before (audited.recording event stored) := by
  refine ⟨⟨audited, event, haudited, rfl, rfl, htruthful, hlast⟩, ?_⟩
  cases audited.ownRecorder <;> cases stored <;> simp [InOrder, Allowed]

theorem mem_recording {m : Milestone ε} (h : m ∈ audited.recording event stored) :
    m = .recorded (audited.entry event) audited.ownRecorder stored.isSome ∨
      ∃ recordedAt, m = .projected ⟨audited.entry event, recordedAt⟩ := by
  rcases List.mem_cons.mp h with rfl | h
  · exact .inl rfl
  · cases hown : audited.ownRecorder with
    | true => simp [hown] at h
    | false =>
        obtain ⟨recordedAt, -, rfl⟩ : ∃ recordedAt, stored = some recordedAt ∧
            Milestone.projected ⟨audited.entry event, recordedAt⟩ = m := by simpa [hown] using h
        exact .inr ⟨recordedAt, rfl⟩

theorem untouched_recording : Untouched (audited.recording (ε := ε) event stored) := by
  intro given outcome h
  rcases mem_recording h with h | ⟨recordedAt, h⟩ <;> cases h

theorem untouched_attempt_recording : Untouched (attempt.recording (ε := ε) event stored) := by
  intro given outcome h
  obtain ⟨audited, -, hmem⟩ := List.mem_flatMap.mp h
  exact untouched_recording given outcome hmem

theorem untouched_announcements {outcome : HandlerOutcome ε} :
    Untouched (attempt.announcements outcome) := by
  intro given outcome' h
  rw [Attempt.announcements] at h
  split_ifs at h
  · obtain ⟨audited, -, hmem⟩ := List.mem_map.mp h
    cases hmem
  · cases h

theorem unsettled_recording_started :
    Unsettled (audited.recording (ε := ε) .started stored) := by
  intro input own kept h
  rcases mem_recording h with h | ⟨recordedAt, h⟩
  · obtain ⟨rfl, -⟩ := Milestone.recorded.inj h
    exact audited.event_entry .started
  · cases h

theorem Unsettled.append_ran {given : Option CallToolRequest} {outcome : HandlerOutcome ε}
    (h : Unsettled before) : Unsettled (before ++ [.ran given outcome]) := by
  intro input own kept hmem
  refine h input own kept ?_
  simpa using hmem

theorem opened_recording {recordedAt : Text} :
    Opened audited (audited.recording (ε := ε) .started (some recordedAt)) :=
  List.mem_cons_self

theorem Opened.append (h : Opened audited before) (more : List (Milestone ε)) :
    Opened audited (before ++ more) :=
  List.mem_append_left _ h

end Recording

theorem Attempt.Course.inOrder {request : ExecutionRequest} {ended : Ended ε}
    (h : attempt.Course request ms ended) : InOrder attempt [] ms := by
  cases h with
  | unstarted haudited hended => exact inOrder_recording haudited rfl fun h => absurd rfl h
  | refused startedAt stored hrefused hended =>
      cases haudited : attempt.audited with
      | none => simp [Attempt.recording, haudited, InOrder]
      | some audited =>
          simp only [Attempt.recording, haudited, Option.toList_some, List.flatMap_cons,
            List.flatMap_nil, List.append_nil]
          refine inOrder_append.mpr ⟨inOrder_recording haudited rfl fun h => absurd rfl h, ?_⟩
          refine inOrder_recording haudited ⟨hrefused, untouched_recording⟩ fun _ => ?_
          exact ⟨opened_recording, unsettled_recording_started⟩
  | handled startedAt outcome stored hallowed hended =>
      cases haudited : attempt.audited with
      | none =>
          simp [Attempt.recording, Attempt.announcements, haudited, InOrder, Allowed, hallowed,
            Untouched]
      | some audited =>
          simp only [Attempt.recording, Attempt.announcements, haudited, Option.toList_some,
            List.flatMap_cons, List.flatMap_nil, List.append_nil]
          have hopened : Opened audited (audited.recording (ε := ε) .started (some startedAt)) :=
            opened_recording
          refine inOrder_append.mpr ⟨inOrder_recording haudited rfl fun h => absurd rfl h, ?_,
            inOrder_append.mpr ⟨?_, ?_⟩⟩
          · refine ⟨rfl, hallowed, untouched_recording, fun other hother => ?_⟩
            obtain rfl := Option.some.inj (haudited.symm.trans hother)
            exact hopened
          · refine inOrder_recording haudited ?_ fun _ =>
              ⟨hopened.append _, unsettled_recording_started.append_ran⟩
            cases hsucceeded : outcome.succeeded with
            | true =>
                rw [HandlerOutcome.event, hsucceeded]
                exact ⟨attempt.request, outcome, by simp, hsucceeded⟩
            | false =>
                rw [HandlerOutcome.event, hsucceeded]
                exact ⟨attempt.request, outcome, by simp, hsucceeded⟩
          · cases hsucceeded : outcome.succeeded with
            | true =>
                refine ⟨⟨audited, attempt.request, outcome, haudited, ?_, hsucceeded, rfl⟩, trivial⟩
                simp
            | false => trivial

theorem InOrder.allowed {ε : Type} {attempt : Attempt} {before after : List (Milestone ε)}
    {m : Milestone ε} (h : InOrder attempt [] (before ++ m :: after)) :
    Allowed attempt before m := by
  simpa using (inOrder_append.mp h).2.1

/-- A course ends with what the handler did, or with an error where it did not run. -/
theorem Attempt.Course.ending {request : ExecutionRequest} {ended : Ended ε}
    (h : attempt.Course request ms ended) :
    (∀ given outcome, .ran given outcome ∈ ms → Relays request outcome ended) ∧
      (Untouched ms → ended.isError = true) := by
  cases h with
  | unstarted haudited hended =>
      exact ⟨fun given outcome h => absurd h (untouched_recording given outcome), fun _ => hended⟩
  | refused startedAt stored hrefused hended =>
      refine ⟨fun given outcome h => ?_, fun _ => hended⟩
      rcases List.mem_append.mp h with h | h
      · exact absurd h (untouched_attempt_recording given outcome)
      · exact absurd h (untouched_attempt_recording given outcome)
  | handled startedAt outcome stored hallowed hended =>
      refine ⟨fun given outcome' h => ?_, fun huntouched => ?_⟩
      · rcases List.mem_append.mp h with h | h
        · exact absurd h (untouched_attempt_recording given outcome')
        · rcases List.mem_cons.mp h with h | h
          · obtain ⟨-, rfl⟩ := Milestone.ran.inj h
            exact hended
          · rcases List.mem_append.mp h with h | h
            · exact absurd h (untouched_attempt_recording given outcome')
            · exact absurd h (untouched_announcements given outcome')
      · exact absurd (by simp) (huntouched attempt.request outcome)

end Order

/-- An execution is bracketed by its audit, at every moment of it: whatever it has left
behind was allowed when it was. The handler of an audited operation runs after the first
entry was stored, and not at all where the request is refused; what the other entries say
is so, and there is at most one of them; events are announced of a success alone. And
what the request ends with is what the handler did, whether or not anything else could be
written, or else an error. -/
theorem execution_bracketed {surfaces : Surfaces} {freshId : Text} {request : ExecutionRequest}
    {log : ExecutionLog ε} {rest : Execution ε (Ended ε)}
    (h : (request.run surfaces freshId).Reached log rest) :
    (∀ before m after, milestones log = before ++ m :: after →
        Allowed (request.attempt surfaces freshId) before m) ∧
      ∀ ended, rest = .done ended →
        (∀ given outcome, .ran given outcome ∈ milestones log → Relays request outcome ended) ∧
          (Untouched (milestones log) → ended.isError = true) := by
  obtain ⟨more, ended, hcourse, hdone⟩ := course_of_reached h
  constructor
  · intro before m after hsplit
    have hwhole : InOrder (request.attempt surfaces freshId) [] (before ++ m :: (after ++ more)) := by
      rw [← List.cons_append, ← List.append_assoc, ← hsplit]
      exact hcourse.inOrder
    exact hwhole.allowed
  · intro ended' hrest
    obtain ⟨rfl, rfl⟩ := hdone ended' hrest
    rw [List.append_nil] at hcourse
    exact hcourse.ending

/-! ## A command whose last entry is lost -/

/-- A text that is thrown is its own message. -/
instance : ThrownMessages Text := ⟨id⟩

namespace LostEntry

/-- An operation that writes and needs a confirmation. -/
def deletion : OperationCatalogItem where
  id := "media.delete"
  mcpName := "listmonk_delete_media"
  safety := ⟨false, true, false, true⟩
  inputJsonSchema := []
  inputSchema := some

def surfaces : Surfaces := ⟨[deletion], [], []⟩

def request : ExecutionRequest :=
  .command { operationId := "media.delete", input := [("confirm", .boolean true)] }

/-- Every write fails but the first, and the handler returns. -/
def answers : List (ExecutionAnswer Text) :=
  let succeeds : ExecutionAnswer Text := ⟨.ok "t", .ok (.boolean true), .ok { content := [] }⟩
  let fails : ExecutionAnswer Text := { succeeds with written := .error "disk full" }
  [succeeds, fails, fails, succeeds, fails, fails, fails, fails]

end LostEntry

/-- The command returns what its handler did, although no write after the first went
through. -/
theorem execution_bracketed_lostEntry :
    Relays LostEntry.request (.command (.ok (.boolean true)) : HandlerOutcome Text)
      (.command (.ok (.boolean true))) := by
  have hrecorded : (LostEntry.request.run LostEntry.surfaces ("e" : Text)).run recorded []
      LostEntry.answers = _ := rfl
  obtain ⟨log, hlog, hran⟩ := ran_of_run_recorded hrecorded
  refine ((execution_bracketed hran.reached).2 _ rfl).1 none _ ?_
  rw [List.nil_append] at hlog
  rw [← hlog]
  simp [milestones, milestone?, recorded]

end ListmonkOps.Operations
