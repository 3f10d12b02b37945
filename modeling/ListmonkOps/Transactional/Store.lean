/-
The file-backed idempotency store.

A record is filed under its idempotency key. A claim creates a pending record
or reports the one that is there, a commit moves the claimant's own record to
an outcome, a release removes it; each of them first drops every record whose
time to live has passed. The claim token ties commits and releases to the claim
they belong to.
-/

import ListmonkOps.Math.Keyed
import ListmonkOps.Runtime.JsonFileStore
import ListmonkOps.Transactional.Errors

namespace ListmonkOps.Transactional

open ListmonkOps.Math ListmonkOps.Runtime

/-- `DEFAULT_TRANSACTIONAL_TTL_MS`: 24 hours. -/
def defaultTransactionalTtlMs : ℤ := 24 * 60 * 60 * 1000

def transactionalStoreMaxRecords : ℕ := 10000

/-- A persisted idempotency record. -/
structure TransactionalSendRecord where
  key : Text
  payloadHash : Text
  targetHash : Text
  status : TransactionalSendStatus
  sent : Option Bool := none
  errorMessage : Option Text := none
  claimToken : Text
  createdAt : DateTime
  updatedAt : DateTime
  expiresAt : DateTime
  deriving DecidableEq

/-- The document: records under distinct keys, each under its own. -/
abbrev StoredTransactionalDocument := Table TransactionalSendRecord.key

/-- `isStoredTransactionalSendRecord`: the read-side check of one record. An
accepted record must say that the message was sent, a failed one must not. -/
def isStoredTransactionalSendRecord (record : TransactionalSendRecord) : Bool :=
  record.key ≠ [] && record.payloadHash ≠ [] && record.targetHash ≠ [] &&
    !(record.status = .accepted && record.sent ≠ some true) &&
    !(record.status = .failed && record.sent = some true) &&
    record.claimToken ≠ [] &&
    isoDateTimeSchema record.createdAt && isoDateTimeSchema record.updatedAt &&
    isoDateTimeSchema record.expiresAt

def parseStoredTransactionalDocument (document : StoredTransactionalDocument) :
    Except Thrown StoredTransactionalDocument :=
  match document.entries.find? fun record => !isStoredTransactionalSendRecord record with
  | some record =>
      .error { message := ("Invalid transactional store: record '" : Text) ++ record.key ++
        ("' failed schema validation" : Text) }
  | none => .ok document

def createTransactionalStore : JsonFileStore StoredTransactionalDocument Thrown where
  createDefault := Table.empty _
  parse := parseStoredTransactionalDocument
  invalid := { message := "JSON store value failed schema validation" }

/-- Is a record still within its time to live? -/
def isUnexpired (now : ℤ) (record : TransactionalSendRecord) : Bool :=
  now ≤ record.expiresAt.time

def sweepExpiredRecords (document : StoredTransactionalDocument) (now : ℤ) :
    StoredTransactionalDocument :=
  document.filter (isUnexpired now)

def expiredKeys (document : StoredTransactionalDocument) (now : ℤ) : List Text :=
  (document.entries.filter fun record => !isUnexpired now record).map (·.key)

inductive TransactionalClaimResult where
  | new (record : TransactionalSendRecord)
  | replay (record : TransactionalSendRecord)
  | conflict (existing : TransactionalSendRecord)
  deriving DecidableEq

/-- The arguments of a claim. -/
structure ClaimOptions where
  key : Text
  payloadHash : Text
  targetHash : Text
  ttlMs : Option ℤ := none

/-- The error of a time to live that is not positive. -/
def invalidTtlError (ttlMs : ℤ) : Thrown :=
  { message :=
      ("Transactional idempotency TTL must be a positive finite number of milliseconds " : Text) ++
        ("(received " : Text) ++ Text.ofString (toString ttlMs) ++ (")" : Text) }

def transactionalStoreCapacityError : Thrown :=
  { message := ("Transactional idempotency store is at capacity (" : Text) ++
      Text.ofNat transactionalStoreMaxRecords ++
      (" unexpired records). Increase the TTL sweep cadence, raise " : Text) ++
      ("TRANSACTIONAL_STORE_MAX_RECORDS, or use a partitioned store." : Text) }

/-- The locked part of a claim, at time `now` and with a newly drawn token. -/
def claimUpdate (options : ClaimOptions) (ttlMs now : ℤ) (newClaimToken : Text)
    (document : StoredTransactionalDocument) :
    Except Thrown (StoredTransactionalDocument × TransactionalClaimResult) :=
  match toISOString (now + ttlMs) with
  | none => .error invalidTimeValue
  | some expiresAt =>
      let swept := sweepExpiredRecords document now
      match swept.get? options.key with
      | some existing =>
          if existing.payloadHash = options.payloadHash ∧
              existing.targetHash = options.targetHash then
            .ok (swept, .replay existing)
          else .ok (swept, .conflict existing)
      | none =>
          if transactionalStoreMaxRecords ≤ swept.size then
            .error transactionalStoreCapacityError
          else
            match toISOString now with
            | none => .error invalidTimeValue
            | some createdAt =>
                let record : TransactionalSendRecord :=
                  { key := options.key
                    payloadHash := options.payloadHash
                    targetHash := options.targetHash
                    status := .pending
                    claimToken := newClaimToken
                    createdAt
                    updatedAt := createdAt
                    expiresAt }
                .ok (swept.set record, .new record)

def claimTransactionalSend (options : ClaimOptions) (now : ℤ) (newClaimToken : Text)
    (document : StoredTransactionalDocument) :
    StoredTransactionalDocument × Except Thrown TransactionalClaimResult :=
  let ttlMs := options.ttlMs.getD defaultTransactionalTtlMs
  if ttlMs ≤ 0 then (document, .error (invalidTtlError ttlMs))
  else createTransactionalStore.exec (claimUpdate options ttlMs now newClaimToken) document

/-- The outcomes a commit can record. -/
inductive CommitStatus where
  | accepted
  | failed
  | unknown
  deriving DecidableEq

def CommitStatus.toStatus : CommitStatus → TransactionalSendStatus
  | .accepted => .accepted
  | .failed => .failed
  | .unknown => .unknown

theorem CommitStatus.toStatus_ne_pending (status : CommitStatus) : status.toStatus ≠ .pending := by
  cases status <;> simp [CommitStatus.toStatus]

/-- The arguments of a commit. -/
structure CommitOptions where
  key : Text
  claimToken : Text
  status : CommitStatus
  sent : Option Bool := none
  errorMessage : Option Text := none

/-- The `sent` flag a commit may store with its status. -/
def CommitOptions.storedSent (options : CommitOptions) : Option Bool :=
  match options.status with
  | .accepted => some true
  | .failed => if options.sent = some true then some false else options.sent
  | .unknown => options.sent

def commitUpdate (options : CommitOptions) (now : ℤ) (document : StoredTransactionalDocument) :
    Except Thrown (StoredTransactionalDocument × Unit) :=
  let swept := sweepExpiredRecords document now
  match swept.get? options.key with
  | none => .ok (swept, ())
  | some existing =>
      if existing.claimToken ≠ options.claimToken then .ok (swept, ())
      else
        match toISOString now with
        | none => .error invalidTimeValue
        | some updatedAt =>
            .ok (swept.set
              { existing with
                status := options.status.toStatus
                sent := options.storedSent
                errorMessage := options.errorMessage
                updatedAt }, ())

def commitTransactionalSend (options : CommitOptions) (now : ℤ)
    (document : StoredTransactionalDocument) :
    StoredTransactionalDocument × Except Thrown Unit :=
  createTransactionalStore.exec (commitUpdate options now) document

def releaseUpdate (key claimToken : Text) (now : ℤ) (document : StoredTransactionalDocument) :
    Except Thrown (StoredTransactionalDocument × Unit) :=
  let swept := sweepExpiredRecords document now
  match swept.get? key with
  | none => .ok (swept, ())
  | some existing =>
      if existing.claimToken ≠ claimToken then .ok (swept, ())
      else .ok (swept.erase key, ())

def releaseTransactionalSend (key claimToken : Text) (now : ℤ)
    (document : StoredTransactionalDocument) :
    StoredTransactionalDocument × Except Thrown Unit :=
  createTransactionalStore.exec (releaseUpdate key claimToken now) document

/-! ## What the operations do to a document -/

section Effects

variable {document document' : StoredTransactionalDocument} {now : ℤ} {key : Text}
variable {record : TransactionalSendRecord}

theorem parse_eq_ok {parsed : StoredTransactionalDocument}
    (h : parseStoredTransactionalDocument document = .ok parsed) : parsed = document := by
  unfold parseStoredTransactionalDocument at h
  split at h
  · simp at h
  · exact (Except.ok.inj h).symm

theorem parse_eq_ok_iff : parseStoredTransactionalDocument document = .ok document ↔
    ∀ record ∈ document.entries, isStoredTransactionalSendRecord record = true := by
  unfold parseStoredTransactionalDocument
  cases hfind : document.entries.find? fun record => !isStoredTransactionalSendRecord record with
  | some record =>
      have hinvalid := List.find?_some hfind
      simp only [reduceCtorEq, false_iff, not_forall]
      exact ⟨record, List.mem_of_find?_eq_some hfind, by simpa using hinvalid⟩
  | none => simpa using hfind

theorem parse_withFault_exec {ρ : Type} {fault : Option (StoreFault Thrown)}
    {update : StoredTransactionalDocument → Except Thrown (StoredTransactionalDocument × ρ)}
    (hparse : parseStoredTransactionalDocument document = .ok document) :
    parseStoredTransactionalDocument
        (withFault fault (createTransactionalStore.exec update) document).1 =
      .ok (withFault fault (createTransactionalStore.exec update) document).1 := by
  have hplain : parseStoredTransactionalDocument (createTransactionalStore.exec update document).1 =
      .ok (createTransactionalStore.exec update document).1 := by
    rcases hexec : createTransactionalStore.exec update document with ⟨next, error | result⟩
    · rw [JsonFileStore.exec_of_error _ hexec]
      exact hparse
    · obtain ⟨current, -, -, parsed, hnext⟩ := JsonFileStore.exec_of_ok _ hexec
      exact hnext.trans (congrArg Except.ok (parse_eq_ok hnext))
  rcases fault with - | (error | error)
  · exact hplain
  · exact hparse
  · exact hplain

theorem mem_expiredKeys_iff : key ∈ expiredKeys document now ↔
    ∃ record, document.get? key = some record ∧ isUnexpired now record = false := by
  simp only [expiredKeys, List.mem_map, List.mem_filter, Table.get?_eq_some_iff,
    Bool.not_eq_true']
  constructor
  · rintro ⟨record, ⟨hmem, hexpired⟩, hkey⟩
    exact ⟨record, ⟨hmem, hkey⟩, hexpired⟩
  · rintro ⟨record, ⟨hmem, hkey⟩, hexpired⟩
    exact ⟨record, ⟨hmem, hexpired⟩, hkey⟩

theorem get?_sweepExpiredRecords (h : key ∉ expiredKeys document now) :
    (sweepExpiredRecords document now).get? key = document.get? key := by
  rw [mem_expiredKeys_iff, not_exists] at h
  unfold sweepExpiredRecords
  cases hget : document.get? key with
  | none => exact Table.get?_filter_of_none hget
  | some record =>
      refine Table.get?_filter_of_pos hget ?_
      simpa [hget] using h record

theorem get?_sweepExpiredRecords_of_mem (h : key ∈ expiredKeys document now) :
    (sweepExpiredRecords document now).get? key = none := by
  obtain ⟨record, hget, hexpired⟩ := mem_expiredKeys_iff.mp h
  exact Table.get?_filter_of_neg hget hexpired

theorem get?_of_get?_sweepExpiredRecords
    (h : (sweepExpiredRecords document now).get? key = some record) :
    document.get? key = some record ∧ now ≤ record.expiresAt.time := by
  obtain ⟨hget, hlive⟩ := Table.get?_filter_eq_some_iff.mp h
  exact ⟨hget, by simpa [isUnexpired] using hlive⟩

theorem not_mem_expiredKeys (hget : document.get? key = some record)
    (hlive : now ≤ record.expiresAt.time) : key ∉ expiredKeys document now := by
  rw [mem_expiredKeys_iff]
  rintro ⟨other, hother, hexpired⟩
  obtain rfl : record = other := Option.some.inj (hget.symm.trans hother)
  simp [isUnexpired, hlive] at hexpired

/-- Everything a claim can do: nothing, report the record it finds, or file a
new pending one. -/
theorem claimTransactionalSend_cases {options : ClaimOptions} {token : Text}
    {result : Except Thrown TransactionalClaimResult}
    (h : claimTransactionalSend options now token document = (document', result)) :
    (document' = document ∧ ∃ error, result = .error error) ∨
    (∃ existing, (sweepExpiredRecords document now).get? options.key = some existing ∧
      document' = sweepExpiredRecords document now ∧
      ((existing.payloadHash = options.payloadHash ∧ existing.targetHash = options.targetHash ∧
          result = .ok (.replay existing)) ∨
        (¬ (existing.payloadHash = options.payloadHash ∧
            existing.targetHash = options.targetHash) ∧
          result = .ok (.conflict existing)))) ∨
    (∃ record : TransactionalSendRecord,
      (sweepExpiredRecords document now).get? options.key = none ∧
      record.key = options.key ∧ record.payloadHash = options.payloadHash ∧
      record.targetHash = options.targetHash ∧ record.status = .pending ∧
      record.claimToken = token ∧
      record.expiresAt.time = now + options.ttlMs.getD defaultTransactionalTtlMs ∧
      document' = (sweepExpiredRecords document now).set record ∧
      result = .ok (.new record)) := by
  unfold claimTransactionalSend at h
  dsimp only at h
  split at h
  · obtain ⟨rfl, rfl⟩ := Prod.mk.inj h
    exact .inl ⟨rfl, _, rfl⟩
  · cases result with
    | error error => exact .inl ⟨JsonFileStore.exec_of_error _ h, error, rfl⟩
    | ok claim =>
        obtain ⟨current, hread, hupdate, -⟩ := JsonFileStore.exec_of_ok _ h
        obtain rfl := parse_eq_ok hread
        refine .inr ?_
        unfold claimUpdate at hupdate
        split at hupdate
        · simp at hupdate
        · next expiresAt hexpires =>
            dsimp only at hupdate
            split at hupdate
            · next existing hexisting =>
                split at hupdate
                · next hsame =>
                    obtain ⟨rfl, rfl⟩ := Prod.mk.inj (Except.ok.inj hupdate)
                    exact .inl ⟨existing, hexisting, rfl, .inl ⟨hsame.1, hsame.2, rfl⟩⟩
                · next hdiffers =>
                    obtain ⟨rfl, rfl⟩ := Prod.mk.inj (Except.ok.inj hupdate)
                    exact .inl ⟨existing, hexisting, rfl, .inr ⟨hdiffers, rfl⟩⟩
            · next habsent =>
                split at hupdate
                · simp at hupdate
                · split at hupdate
                  · simp at hupdate
                  · next createdAt hcreated =>
                      obtain ⟨rfl, rfl⟩ := Prod.mk.inj (Except.ok.inj hupdate)
                      refine .inr ⟨_, habsent, rfl, rfl, rfl, rfl, rfl, ?_, rfl, rfl⟩
                      simp [toISOString_eq_some hexpires]

/-- Everything a commit can do: nothing, sweep, or move the record that carries
its token to the outcome. -/
theorem commitTransactionalSend_cases {options : CommitOptions} {result : Except Thrown Unit}
    (h : commitTransactionalSend options now document = (document', result)) :
    (document' = document ∧ ∃ error, result = .error error) ∨
    (document' = sweepExpiredRecords document now ∧ result = .ok () ∧
      ∀ existing, (sweepExpiredRecords document now).get? options.key = some existing →
        existing.claimToken ≠ options.claimToken) ∨
    (∃ existing updatedAt,
      (sweepExpiredRecords document now).get? options.key = some existing ∧
      existing.claimToken = options.claimToken ∧ result = .ok () ∧
      document' = (sweepExpiredRecords document now).set
        { existing with
          status := options.status.toStatus
          sent := options.storedSent
          errorMessage := options.errorMessage
          updatedAt }) := by
  unfold commitTransactionalSend at h
  cases result with
  | error error => exact .inl ⟨JsonFileStore.exec_of_error _ h, error, rfl⟩
  | ok =>
      obtain ⟨current, hread, hupdate, -⟩ := JsonFileStore.exec_of_ok _ h
      obtain rfl := parse_eq_ok hread
      refine .inr ?_
      unfold commitUpdate at hupdate
      dsimp only at hupdate
      split at hupdate
      · next habsent =>
          obtain ⟨rfl, -⟩ := Prod.mk.inj (Except.ok.inj hupdate)
          exact .inl ⟨rfl, rfl, by simp [habsent]⟩
      · next existing hexisting =>
          split at hupdate
          · next hforeign =>
              obtain ⟨rfl, -⟩ := Prod.mk.inj (Except.ok.inj hupdate)
              refine .inl ⟨rfl, rfl, fun other hother => ?_⟩
              obtain rfl := Option.some.inj (hexisting.symm.trans hother)
              exact hforeign
          · next hown =>
              split at hupdate
              · simp at hupdate
              · next updatedAt hupdated =>
                  obtain ⟨rfl, -⟩ := Prod.mk.inj (Except.ok.inj hupdate)
                  exact .inr ⟨existing, updatedAt, hexisting, not_not.mp hown, rfl, rfl⟩

/-- Everything a release can do: nothing, sweep, or remove the record that
carries its token. -/
theorem releaseTransactionalSend_cases {token : Text} {result : Except Thrown Unit}
    (h : releaseTransactionalSend key token now document = (document', result)) :
    (document' = document ∧ ∃ error, result = .error error) ∨
    (document' = sweepExpiredRecords document now ∧ result = .ok () ∧
      ∀ existing, (sweepExpiredRecords document now).get? key = some existing →
        existing.claimToken ≠ token) ∨
    (∃ existing, (sweepExpiredRecords document now).get? key = some existing ∧
      existing.claimToken = token ∧ result = .ok () ∧
      document' = (sweepExpiredRecords document now).erase key) := by
  unfold releaseTransactionalSend at h
  cases result with
  | error error => exact .inl ⟨JsonFileStore.exec_of_error _ h, error, rfl⟩
  | ok =>
      obtain ⟨current, hread, hupdate, -⟩ := JsonFileStore.exec_of_ok _ h
      obtain rfl := parse_eq_ok hread
      refine .inr ?_
      unfold releaseUpdate at hupdate
      dsimp only at hupdate
      split at hupdate
      · next habsent =>
          obtain ⟨rfl, -⟩ := Prod.mk.inj (Except.ok.inj hupdate)
          exact .inl ⟨rfl, rfl, by simp [habsent]⟩
      · next existing hexisting =>
          split at hupdate
          · next hforeign =>
              obtain ⟨rfl, -⟩ := Prod.mk.inj (Except.ok.inj hupdate)
              refine .inl ⟨rfl, rfl, fun other hother => ?_⟩
              obtain rfl := Option.some.inj (hexisting.symm.trans hother)
              exact hforeign
          · next hown =>
              obtain ⟨rfl, -⟩ := Prod.mk.inj (Except.ok.inj hupdate)
              exact .inr ⟨existing, hexisting, not_not.mp hown, rfl, rfl⟩

/-- A claim throws errors of its own only. -/
theorem claimTransactionalSend_error_isForeign {options : ClaimOptions} {token : Text}
    {error : Thrown}
    (h : (claimTransactionalSend options now token document).2 = .error error) :
    error.isForeign = true := by
  unfold claimTransactionalSend at h
  dsimp only at h
  split at h
  · obtain rfl := Except.error.inj h
    rfl
  · rcases JsonFileStore.exec_error_cases _ h with hread | ⟨current, -, hupdate⟩ | rfl
    · change parseStoredTransactionalDocument document = .error error at hread
      unfold parseStoredTransactionalDocument at hread
      split at hread
      · obtain rfl := Except.error.inj hread
        rfl
      · simp at hread
    · unfold claimUpdate at hupdate
      split at hupdate
      · obtain rfl := Except.error.inj hupdate
        rfl
      · dsimp only at hupdate
        split at hupdate
        · split at hupdate <;> simp at hupdate
        · split at hupdate
          · obtain rfl := Except.error.inj hupdate
            rfl
          · split at hupdate
            · obtain rfl := Except.error.inj hupdate
              rfl
            · simp at hupdate
    · rfl

/-! ## What one key sees -/

/-- How an operation leaves a key it has no business with: as it was, or without
its record because that had expired. -/
def KeptOrSwept (now : ℤ) (document document' : StoredTransactionalDocument)
    (key : Text) : Prop :=
  document'.get? key = document.get? key ∨
    (key ∈ expiredKeys document now ∧ document'.get? key = none)

theorem keptOrSwept_refl (now : ℤ) (document : StoredTransactionalDocument) (key : Text) :
    KeptOrSwept now document document key :=
  .inl rfl

theorem keptOrSwept_sweepExpiredRecords (document : StoredTransactionalDocument) (now : ℤ)
    (key : Text) : KeptOrSwept now document (sweepExpiredRecords document now) key := by
  by_cases hexpired : key ∈ expiredKeys document now
  · exact .inr ⟨hexpired, get?_sweepExpiredRecords_of_mem hexpired⟩
  · exact .inl (get?_sweepExpiredRecords hexpired)

/-- Filing or removing a record under one key leaves the others to the sweep. -/
theorem keptOrSwept_of_get?_eq {other : Text}
    (h : document'.get? other = (sweepExpiredRecords document now).get? other) :
    KeptOrSwept now document document' other := by
  unfold KeptOrSwept
  rw [h]
  exact keptOrSwept_sweepExpiredRecords document now other

theorem KeptOrSwept.get?_eq_some (h : KeptOrSwept now document document' key)
    (hget : document'.get? key = some record) : document.get? key = some record := by
  rcases h with hkept | ⟨-, hnone⟩
  · rwa [← hkept]
  · simp [hnone] at hget

theorem KeptOrSwept.get?_of_not_mem (h : KeptOrSwept now document document' key)
    (hlive : key ∉ expiredKeys document now) : document'.get? key = document.get? key := by
  rcases h with hkept | ⟨hexpired, -⟩
  · exact hkept
  · exact absurd hexpired hlive

/-- Everything a claim can do to the document, and what its caller then sees. -/
inductive ClaimEffect (options : ClaimOptions) (now : ℤ) (token : Text)
    (document document' : StoredTransactionalDocument) :
    Except Thrown TransactionalClaimResult → Prop
  /-- The claim threw and filed nothing. -/
  | failed (error : Thrown) (kept : ∀ key, KeptOrSwept now document document' key) :
      ClaimEffect options now token document document' (.error error)
  /-- A record for the same request is there. -/
  | replay (existing : TransactionalSendRecord)
      (kept : ∀ key, KeptOrSwept now document document' key)
      (found : document'.get? options.key = some existing)
      (same : existing.payloadHash = options.payloadHash ∧
        existing.targetHash = options.targetHash) :
      ClaimEffect options now token document document' (.ok (.replay existing))
  /-- A record for another request is there. -/
  | conflict (existing : TransactionalSendRecord)
      (kept : ∀ key, KeptOrSwept now document document' key)
      (found : document'.get? options.key = some existing)
      (differs : ¬ (existing.payloadHash = options.payloadHash ∧
        existing.targetHash = options.targetHash)) :
      ClaimEffect options now token document document' (.ok (.conflict existing))
  /-- A pending record was filed; a fault after the write may hide it from the
  caller. -/
  | filed (record : TransactionalSendRecord)
      (absent : (sweepExpiredRecords document now).get? options.key = none)
      (pending : record.key = options.key ∧ record.payloadHash = options.payloadHash ∧
        record.targetHash = options.targetHash ∧ record.status = .pending ∧
        record.claimToken = token ∧
        record.expiresAt.time = now + options.ttlMs.getD defaultTransactionalTtlMs)
      (kept : ∀ key, key ≠ options.key → KeptOrSwept now document document' key)
      (found : document'.get? options.key = some record)
      {result : Except Thrown TransactionalClaimResult}
      (seen : result = .ok (.new record) ∨ ∃ error, result = .error error) :
      ClaimEffect options now token document document' result

theorem claimEffect_of_eq {options : ClaimOptions} {token : Text}
    {fault : Option (StoreFault Thrown)} {result : Except Thrown TransactionalClaimResult}
    (h : withFault fault (claimTransactionalSend options now token) document =
      (document', result)) :
    ClaimEffect options now token document document' result := by
  have hplain : ∀ {document' result},
      claimTransactionalSend options now token document = (document', result) →
        ClaimEffect options now token document document' result := by
    intro document' result hclaim
    rcases claimTransactionalSend_cases hclaim with
      ⟨rfl, error, rfl⟩ | ⟨existing, hfound, rfl, hresult⟩ |
      ⟨record, habsent, hkey, hpayload, htarget, hstatus, htoken, hexpires, rfl, rfl⟩
    · exact .failed error fun key => keptOrSwept_refl now document' key
    · rcases hresult with ⟨hpayload, htarget, rfl⟩ | ⟨hdiffers, rfl⟩
      · exact .replay existing (keptOrSwept_sweepExpiredRecords document now) hfound
          ⟨hpayload, htarget⟩
      · exact .conflict existing (keptOrSwept_sweepExpiredRecords document now) hfound hdiffers
    · refine .filed record habsent ⟨hkey, hpayload, htarget, hstatus, htoken, hexpires⟩
        (fun key hne => ?_) ?_ (.inl rfl)
      · exact keptOrSwept_of_get?_eq (Table.get?_set_of_ne (by rwa [hkey]))
      · rw [← hkey]
        exact Table.get?_set_self
  rcases fault with - | (error | error)
  · exact hplain h
  · obtain ⟨rfl, rfl⟩ := Prod.mk.inj h
    exact .failed error fun key => keptOrSwept_refl now document key
  · obtain ⟨rfl, rfl⟩ := Prod.mk.inj h
    have heffect := hplain (Prod.eta (claimTransactionalSend options now token document)).symm
    generalize (claimTransactionalSend options now token document).2 = seen at heffect
    cases heffect with
    | failed _ kept => exact .failed error kept
    | replay _ kept _ _ => exact .failed error kept
    | conflict _ kept _ _ => exact .failed error kept
    | filed record absent pending kept found _ =>
        exact .filed record absent pending kept found (.inr ⟨error, rfl⟩)

/-- Everything a commit can do, beside sweeping what has expired: it records the outcome of its
own claim, or nothing. -/
inductive CommitEffect (options : CommitOptions) (now : ℤ)
    (document document' : StoredTransactionalDocument) : Except Thrown Unit → Prop
  /-- No record with the token was found, or the commit threw before the write. -/
  | idle {result : Except Thrown Unit}
      (kept : ∀ key, KeptOrSwept now document document' key)
      (foreign : result = .ok () → ∀ existing, document'.get? options.key = some existing →
        existing.claimToken ≠ options.claimToken) :
      CommitEffect options now document document' result
  /-- The claimant's record moved to the outcome. -/
  | committed (existing : TransactionalSendRecord) (updatedAt : DateTime)
      (found : document.get? options.key = some existing)
      (own : existing.claimToken = options.claimToken)
      (kept : ∀ key, key ≠ options.key → KeptOrSwept now document document' key)
      (stored : document'.get? options.key = some
        { existing with
          status := options.status.toStatus
          sent := options.storedSent
          errorMessage := options.errorMessage
          updatedAt })
      {result : Except Thrown Unit} :
      CommitEffect options now document document' result

theorem commitEffect_of_eq {options : CommitOptions} {fault : Option (StoreFault Thrown)}
    {result : Except Thrown Unit}
    (h : withFault fault (commitTransactionalSend options now) document = (document', result)) :
    CommitEffect options now document document' result := by
  have hplain : ∀ {document' result},
      commitTransactionalSend options now document = (document', result) →
        CommitEffect options now document document' result := by
    intro document' result hcommit
    rcases commitTransactionalSend_cases hcommit with
      ⟨rfl, error, rfl⟩ | ⟨rfl, rfl, hforeign⟩ | ⟨existing, updatedAt, hfound, hown, rfl, rfl⟩
    · exact .idle (keptOrSwept_refl now document') (by simp)
    · exact .idle (keptOrSwept_sweepExpiredRecords document now) fun _ => hforeign
    · have hkey := Table.key_of_get? hfound
      refine .committed existing updatedAt (get?_of_get?_sweepExpiredRecords hfound).1 hown
        (fun key hne => ?_) ?_
      · exact keptOrSwept_of_get?_eq (Table.get?_set_of_ne (by simpa [hkey] using hne))
      · simp only [← hkey]
        exact Table.get?_set_self
  rcases fault with - | (error | error)
  · exact hplain h
  · obtain ⟨rfl, rfl⟩ := Prod.mk.inj h
    exact .idle (keptOrSwept_refl now document) (by simp)
  · obtain ⟨rfl, rfl⟩ := Prod.mk.inj h
    cases hplain (Prod.eta (commitTransactionalSend options now document)).symm with
    | idle kept _ => exact .idle kept (by simp)
    | committed existing updatedAt found own kept stored =>
        exact .committed existing updatedAt found own kept stored

theorem get?_commitTransactionalSend_of_own (options : CommitOptions)
    (hparse : parseStoredTransactionalDocument document = .ok document)
    (hget : document.get? options.key = some record) (hown : record.claimToken = options.claimToken)
    (hlive : options.key ∉ expiredKeys document now) (hnow : hasFourDigitYear now = true) :
    ∃ stored, (commitTransactionalSend options now document).1.get? options.key = some stored ∧
      stored.claimToken = record.claimToken ∧ stored.status = options.status.toStatus := by
  have hkey := Table.key_of_get? hget
  have hswept : (sweepExpiredRecords document now).get? options.key = some record :=
    (get?_sweepExpiredRecords hlive).trans hget
  let stored : TransactionalSendRecord :=
    { record with
      status := options.status.toStatus
      sent := options.storedSent
      errorMessage := options.errorMessage
      updatedAt := { time := now } }
  have hupdate : commitUpdate options now document =
      .ok ((sweepExpiredRecords document now).set stored, ()) := by
    simp [commitUpdate, hswept, hown, toISOString_of_hasFourDigitYear hnow, stored]
  have hvalid := parse_eq_ok_iff.mp hparse
  have hstored : isStoredTransactionalSendRecord stored = true := by
    have hrecord := hvalid record (Table.get?_eq_some_iff.mp hget).1
    simp only [isStoredTransactionalSendRecord, Bool.and_eq_true] at hrecord ⊢
    obtain ⟨⟨⟨⟨⟨⟨⟨⟨hk, hp⟩, ht⟩, -⟩, -⟩, hc⟩, hcreated⟩, -⟩, hexpires⟩ := hrecord
    refine ⟨⟨⟨⟨⟨⟨⟨⟨hk, hp⟩, ht⟩, ?_⟩, ?_⟩, hc⟩, hcreated⟩, ?_⟩, hexpires⟩
    · cases hstatus : options.status <;>
        simp [stored, CommitStatus.toStatus, CommitOptions.storedSent, hstatus]
    · cases hstatus : options.status <;>
        simp [stored, CommitStatus.toStatus, CommitOptions.storedSent, hstatus]
      split <;> simp_all
    · simpa [stored, isoDateTimeSchema_canonical] using hnow
  have hwrite : parseStoredTransactionalDocument ((sweepExpiredRecords document now).set stored) =
      .ok ((sweepExpiredRecords document now).set stored) := by
    refine parse_eq_ok_iff.mpr fun other hother => ?_
    rcases Table.mem_set.mp hother with rfl | ⟨hold, -⟩
    · exact hstored
    · exact hvalid other (List.mem_filter.mp hold).1
  have hexec : commitTransactionalSend options now document =
      ((sweepExpiredRecords document now).set stored, .ok ()) :=
    JsonFileStore.exec_eq_ok _ hparse hupdate hwrite
  refine ⟨stored, ?_, rfl, rfl⟩
  rw [hexec, ← hkey]
  exact Table.get?_set_self

/-- Everything a release can do, beside sweeping what has expired: it drops the record of its own
claim, or nothing. -/
inductive ReleaseEffect (key token : Text) (now : ℤ)
    (document document' : StoredTransactionalDocument) : Except Thrown Unit → Prop
  /-- No record with the token was found, or the release threw before the write. -/
  | idle {result : Except Thrown Unit}
      (kept : ∀ key, KeptOrSwept now document document' key)
      (foreign : result = .ok () → ∀ existing, document'.get? key = some existing →
        existing.claimToken ≠ token) :
      ReleaseEffect key token now document document' result
  /-- The claimant's record is gone. -/
  | released (existing : TransactionalSendRecord)
      (found : document.get? key = some existing) (own : existing.claimToken = token)
      (kept : ∀ other, other ≠ key → KeptOrSwept now document document' other)
      (gone : document'.get? key = none) {result : Except Thrown Unit} :
      ReleaseEffect key token now document document' result

theorem releaseEffect_of_eq {token : Text} {fault : Option (StoreFault Thrown)}
    {result : Except Thrown Unit}
    (h : withFault fault (releaseTransactionalSend key token now) document =
      (document', result)) :
    ReleaseEffect key token now document document' result := by
  have hplain : ∀ {document' result},
      releaseTransactionalSend key token now document = (document', result) →
        ReleaseEffect key token now document document' result := by
    intro document' result hrelease
    rcases releaseTransactionalSend_cases hrelease with
      ⟨rfl, error, rfl⟩ | ⟨rfl, rfl, hforeign⟩ | ⟨existing, hfound, hown, rfl, rfl⟩
    · exact .idle (keptOrSwept_refl now document') (by simp)
    · exact .idle (keptOrSwept_sweepExpiredRecords document now) fun _ => hforeign
    · exact .released existing (get?_of_get?_sweepExpiredRecords hfound).1 hown
        (fun other hne => keptOrSwept_of_get?_eq (Table.get?_erase_of_ne hne))
        Table.get?_erase_self
  rcases fault with - | (error | error)
  · exact hplain h
  · obtain ⟨rfl, rfl⟩ := Prod.mk.inj h
    exact .idle (keptOrSwept_refl now document) (by simp)
  · obtain ⟨rfl, rfl⟩ := Prod.mk.inj h
    cases hplain (Prod.eta (releaseTransactionalSend key token now document)).symm with
    | idle kept _ => exact .idle kept (by simp)
    | released existing found own kept gone => exact .released existing found own kept gone

/-- A commit leaves a record with another token as it was, unless the record has
expired itself. -/
theorem get?_commitTransactionalSend_of_ne (options : CommitOptions)
    (hget : document.get? options.key = some record)
    (hforeign : record.claimToken ≠ options.claimToken) (hlive : now ≤ record.expiresAt.time) :
    (commitTransactionalSend options now document).1.get? options.key = some record := by
  have heffect : CommitEffect options now document
      (commitTransactionalSend options now document).1 _ :=
    commitEffect_of_eq (show withFault none (commitTransactionalSend options now) document = _ from
      (Prod.eta _).symm)
  cases heffect with
  | idle kept _ =>
      rw [(kept options.key).get?_of_not_mem (not_mem_expiredKeys hget hlive), hget]
  | committed existing _ found own _ _ =>
      obtain rfl := Option.some.inj (hget.symm.trans found)
      exact absurd own hforeign

/-- A release leaves a record with another token as it was, unless the record has
expired itself. -/
theorem get?_releaseTransactionalSend_of_ne {token : Text}
    (hget : document.get? key = some record) (hforeign : record.claimToken ≠ token)
    (hlive : now ≤ record.expiresAt.time) :
    (releaseTransactionalSend key token now document).1.get? key = some record := by
  have heffect : ReleaseEffect key token now document
      (releaseTransactionalSend key token now document).1 _ :=
    releaseEffect_of_eq (show withFault none (releaseTransactionalSend key token now) document = _
      from (Prod.eta _).symm)
  cases heffect with
  | idle kept _ => rw [(kept key).get?_of_not_mem (not_mem_expiredKeys hget hlive), hget]
  | released existing found own _ _ =>
      obtain rfl := Option.some.inj (hget.symm.trans found)
      exact absurd own hforeign

end Effects

end ListmonkOps.Transactional
