/-
`sendTransactionalMessage` as a sequence of steps.

A keyed send claims its idempotency record, dispatches to Listmonk only when
the claim is new, settles the record by a commit or a release whose failure it
ignores, and then returns or throws. Between two of these steps anything can
happen, so a send in progress is a value of `SendPhase` and each step a
function of what its environment answered.
-/

import ListmonkOps.Transactional.Store

namespace ListmonkOps.Transactional

open ListmonkOps.Math ListmonkOps.Runtime

/-! ## The request -/

/-- The content types of a message. -/
inductive ContentType where
  | html
  | markdown
  | plain
  deriving DecidableEq

/-- The payload sent to Listmonk. -/
structure DispatchPayload where
  templateId : ℕ
  subscriberEmail : Option Text := none
  subscriberId : Option ℕ := none
  fromEmail : Option Text := none
  data : Option (List (Text × Json)) := none
  headers : Option (List (List (Text × Text))) := none
  contentType : Option ContentType := none
  messenger : Option Text := none
  subject : Option Text := none
  altbody : Option Text := none

/-- One pass of `fnv1a32`, rendered in hexadecimal. -/
def fnv1a32 (input : Text) (seed : UInt32) : Text :=
  let hash := input.foldl (fun hash unit => (hash ^^^ unit.toUInt32) * 0x01000193) seed
  (Nat.toDigits 16 hash.toNat).flatMap Text.unitsOfChar

/-- `padStart(8, "0")`. -/
def padStart8 (t : Text) : Text := List.replicate (8 - t.length) 48 ++ t

def computeTransactionalTargetHash (baseUrl username : Option Text) : Text :=
  let normalized := Text.trim (baseUrl.getD []) ++ 0 :: Text.trim (username.getD [])
  padStart8 (fnv1a32 normalized 0x811c9dc5) ++ padStart8 (fnv1a32 normalized 0x84222325)

/-- What a caller of the sender is configured with. -/
structure TransactionalContext where
  /-- The injected `hashPayload` of the serialized payload. -/
  hashPayload : DispatchPayload → Text
  /-- The Listmonk target. -/
  baseUrl : Option Text := none
  username : Option Text := none

def sendClaimOptions (context : TransactionalContext) (payload : DispatchPayload)
    (idempotencyKey : Text) : ClaimOptions where
  key := idempotencyKey
  payloadHash := context.hashPayload payload
  targetHash := computeTransactionalTargetHash context.baseUrl context.username

/-! ## The answer of Listmonk -/

/-- The `data` member of a response: a boolean, or anything else with its JSON
rendering. -/
inductive ResponseData where
  | bool (value : Bool)
  | other (rendering : Text)
  deriving DecidableEq

/-- The `error` member of a response: its message, and the error itself when it
is an `Error`. -/
structure ResponseError where
  message : Text
  cause : Option Thrown := none
  deriving DecidableEq

/-- What the client call yields: a response envelope or a rejection. -/
inductive ClientReply where
  | rejected (error : Thrown)
  | responded (data : Option ResponseData) (error : Option ResponseError) (status : Option ℤ)
  deriving DecidableEq

/-- The `TransactionalDispatchError` of a response. -/
def transactionalDispatchError (message : Text) (httpStatus : Option ℤ := none)
    (cause : Option Thrown := none) : Thrown where
  message := message
  httpStatus := httpStatus
  causeCode := cause.bind (·.code)
  nestedCauseCode := cause.bind (·.causeCode)

/-- `dispatchToListmonk`, as a function of the client's reply. -/
def dispatchToListmonk : ClientReply → Except Thrown Bool
  | .rejected error => .error error
  | .responded _ (some error) status =>
      .error (transactionalDispatchError
        (("Failed to send transactional message: " : Text) ++ error.message) status error.cause)
  | .responded none none _ =>
      .error (transactionalDispatchError
        "Failed to send transactional message: received empty data")
  | .responded (some (.bool sent)) none _ => .ok sent
  | .responded (some (.other rendering)) none status =>
      .error (transactionalDispatchError
        (("Failed to send transactional message: Listmonk returned a non-boolean " : Text) ++
          ("acknowledgement (" : Text) ++ rendering ++ (")" : Text)) status)

/-! ## The result -/

/-- The status reported to the caller. -/
inductive SendTransactionalStatus where
  | accepted
  | replayed
  | failed
  deriving DecidableEq

structure SendTransactionalOutput where
  sent : Bool
  status : SendTransactionalStatus
  duplicate : Option Bool := none
  idempotencyKey : Option Text := none
  expiresAt : Option DateTime := none
  deriving DecidableEq

/-- `sent ? "accepted" : "failed"`. -/
def statusOfSent (sent : Bool) : SendTransactionalStatus :=
  if sent then .accepted else .failed

/-- A send without an idempotency key: dispatch and report. -/
def sendWithoutKey (reply : ClientReply) : Except Thrown SendTransactionalOutput :=
  match dispatchToListmonk reply with
  | .ok sent => .ok { sent, status := statusOfSent sent }
  | .error error => .error error

/-- Without a key, too, nothing but the answer `true` is reported as accepted. -/
theorem sendWithoutKey_accepted_iff {reply : ClientReply} :
    (∃ output, sendWithoutKey reply = .ok output ∧ output.status = .accepted) ↔
      ∃ status, reply = .responded (some (.bool true)) none status := by
  constructor
  · rintro ⟨output, houtput, haccepted⟩
    rcases reply with error | ⟨_ | ⟨sent⟩ | ⟨rendering⟩, _ | error, status⟩
    case responded.some.bool.none =>
      obtain rfl := Except.ok.inj houtput
      cases sent with
      | true => exact ⟨status, rfl⟩
      | false => cases haccepted
    all_goals cases houtput
  · rintro ⟨status, rfl⟩
    exact ⟨_, rfl, rfl⟩

def recordToOutput (record : TransactionalSendRecord) (status : SendTransactionalStatus) :
    SendTransactionalOutput where
  sent := record.sent.getD false
  status := status
  duplicate := some (status = .replayed)
  idempotencyKey := some record.key
  expiresAt := some record.expiresAt

/-- `reconcileReason`: why a record cannot be retried automatically. -/
def reconcileReason (record : TransactionalSendRecord) : Text :=
  match record.status, record.errorMessage with
  | .pending, _ =>
      ("A previous request is still in flight or crashed before committing. " : Text) ++
        ("Wait for it to settle or inspect the store." : Text)
  | .unknown, some (unit :: message) =>
      ("Previous dispatch failed ambiguously: " : Text) ++ unit :: message
  | .unknown, _ => "Previous dispatch failed ambiguously."
  | .failed, some (unit :: message) =>
      ("Previous dispatch was rejected by Listmonk: " : Text) ++ unit :: message
  | .failed, _ => "Previous dispatch was rejected by Listmonk."
  | .accepted, _ =>
      ("The previous dispatch was accepted; " : Text) ++
        ("replay the original result instead of reconciling." : Text)

/-- The error of a key that belongs to another payload or target. -/
def keyConflictError (key : Text) : Thrown :=
  operationInputError (("Idempotency key '" : Text) ++ key ++
    ("' is already associated with a different payload or Listmonk target. " : Text) ++
    ("Use a new key or remove idempotency_key to force a fresh send." : Text))

/-- The error of a record that is pending or unknown. -/
def replayReconcileError (record : TransactionalSendRecord) : Thrown :=
  transactionalReconcileError record.key record.status
    (("Idempotency key '" : Text) ++ record.key ++ ("' is in '" : Text) ++ record.status.text ++
      ("' state and cannot be safely retried automatically. " : Text) ++ reconcileReason record)

/-- The error of a dispatch with an unknown outcome. -/
def ambiguousDispatchError (key errorMessage : Text) : Thrown :=
  transactionalReconcileError key .unknown
    (("Transactional dispatch failed ambiguously ('" : Text) ++ errorMessage ++
      ("'). The message may or may not have been sent. Automatic retry is blocked; " : Text) ++
      ("inspect Listmonk and the idempotency record before reconciling." : Text))

/-! ## The steps -/

/-- How a dispatch leaves its record. -/
inductive Settlement where
  | release
  | commit (status : CommitStatus) (sent : Option Bool) (errorMessage : Option Text)
  deriving DecidableEq

inductive SendPhase where
  /-- About to claim the record. -/
  | claiming
  /-- The claim was new: about to dispatch. -/
  | dispatching (record : TransactionalSendRecord)
  /-- Dispatched: about to commit or release, then to return or throw. -/
  | settling (record : TransactionalSendRecord) (settlement : Settlement)
      (result : Except Thrown SendTransactionalOutput)
  /-- Returned or thrown. -/
  | finished (result : Except Thrown SendTransactionalOutput)

def afterClaim (key : Text) : Except Thrown TransactionalClaimResult → SendPhase
  | .error error => .finished (.error error)
  | .ok (.conflict _) => .finished (.error (keyConflictError key))
  | .ok (.replay record) =>
      if record.status = .accepted ∨ record.status = .failed then
        .finished (.ok (recordToOutput record .replayed))
      else .finished (.error (replayReconcileError record))
  | .ok (.new record) => .dispatching record

def afterDispatch [CaseMapping] (key : Text) (record : TransactionalSendRecord) :
    Except Thrown Bool → SendPhase
  | .ok sent =>
      .settling record (.commit (if sent then .accepted else .failed) (some sent) none)
        (.ok
          { sent
            status := statusOfSent sent
            duplicate := some false
            idempotencyKey := some key
            expiresAt := some record.expiresAt })
  | .error error =>
      if isDefinitivePreDispatchError error then .settling record .release (.error error)
      else
        .settling record (.commit .unknown none (some error.message))
          (.error (ambiguousDispatchError key error.message))

/-- `commitBestEffort` and `releaseBestEffort`, on the store. -/
def Settlement.apply (settlement : Settlement) (key claimToken : Text) (now : ℤ)
    (document : StoredTransactionalDocument) :
    StoredTransactionalDocument × Except Thrown Unit :=
  match settlement with
  | .release => releaseTransactionalSend key claimToken now document
  | .commit status sent errorMessage =>
      commitTransactionalSend { key, claimToken, status, sent, errorMessage } now document

end ListmonkOps.Transactional
