/-
One dispatch for one idempotency key.

Any number of calls of `sendTransactionalMessage` share a key. They take their
steps in any order, their store operations may fail before or after the write,
and a call that stops is one that takes no further step. As long as every claim
comes before the record it could meet has expired, at most one of the calls
dispatches with a result other than a proven failure before the request left.

The argument follows the live record: the last one that was filed under the key
and not released by its own claimant. A call that may dispatch, or that has
dispatched with an unproven result, keeps the record live, and no claim files a
second one meanwhile.
-/

import ListmonkOps.Math.Run
import ListmonkOps.Transactional.Send

namespace ListmonkOps.Transactional

open ListmonkOps.Math ListmonkOps.Runtime

/-! ## Calls and their steps -/

/-- A call of `sendTransactionalMessage` with a given key. -/
structure SendCall where
  context : TransactionalContext
  payload : DispatchPayload
  phase : SendPhase := .claiming
  /-- How its dispatch ended, once it has. -/
  outcome : Option (Except Thrown Bool) := none

/-- Did a dispatch end in a definitive pre-dispatch failure? -/
def isPreDispatchFailure [CaseMapping] : Except Thrown Bool → Bool
  | .ok _ => false
  | .error error => isDefinitivePreDispatchError error

/-- Calls that share one key, their store and a clock that does not go back. -/
structure SendWorld where
  document : StoredTransactionalDocument
  clock : ℤ
  calls : List SendCall
  /-- The last record filed under the key and not released by its claimant. -/
  live : Option TransactionalSendRecord

/-- A step of one of the calls. -/
inductive SendAction where
  | claim (i : ℕ) (now : ℤ) (newClaimToken : Text) (fault : Option (StoreFault Thrown))
  | dispatch (i : ℕ) (reply : ClientReply)
  | settle (i : ℕ) (now : ℤ) (fault : Option (StoreFault Thrown))

namespace SendWorld

variable [CaseMapping]

/-- The live record after an operation of a call: the one in the document, else
the one before, unless the call released it. -/
def liveAfter (key : Text) (released : Bool) (before : Option TransactionalSendRecord)
    (document : StoredTransactionalDocument) : Option TransactionalSendRecord :=
  match document.get? key with
  | some record => some record
  | none => if released then none else before

/-- A claim comes no later than the live record expires. -/
def claimsInTime (w : SendWorld) (now : ℤ) : Prop :=
  ∀ record ∈ w.live, now ≤ record.expiresAt.time

instance (w : SendWorld) (now : ℤ) : Decidable (w.claimsInTime now) :=
  decidable_of_iff (w.live.all fun record => now ≤ record.expiresAt.time) (by
    cases h : w.live <;> simp [claimsInTime, h])

/-- Replace the `i`-th call and the state of the store. -/
def update (w : SendWorld) (i : ℕ) (call : SendCall) (now : ℤ)
    (document : StoredTransactionalDocument) (live : Option TransactionalSendRecord) :
    SendWorld :=
  { document, clock := now, calls := w.calls.set i call, live }

/-- One step of one call, if it is possible. -/
def step (key : Text) (w : SendWorld) : SendAction → Option SendWorld
  | .claim i now newClaimToken fault => do
      let call ← w.calls[i]?
      match call.phase with
      | .claiming =>
          if w.clock ≤ now ∧ w.claimsInTime now then
            let options := sendClaimOptions call.context call.payload key
            let (document, result) :=
              withFault fault (claimTransactionalSend options now newClaimToken) w.document
            some (w.update i { call with phase := afterClaim key result } now document
              (liveAfter key false w.live document))
          else none
      | _ => none
  | .dispatch i reply => do
      let call ← w.calls[i]?
      match call.phase with
      | .dispatching record =>
          let outcome := dispatchToListmonk reply
          some (w.update i
            { call with phase := afterDispatch key record outcome, outcome := some outcome }
            w.clock w.document w.live)
      | _ => none
  | .settle i now fault => do
      let call ← w.calls[i]?
      match call.phase with
      | .settling record settlement result =>
          if w.clock ≤ now then
            let (document, _) :=
              withFault fault (settlement.apply key record.claimToken now) w.document
            let released := settlement = .release ∧
              w.live.map (·.claimToken) = some record.claimToken
            some (w.update i { call with phase := .finished result } now document
              (liveAfter key released w.live document))
          else none
      | _ => none

/-- The step relation of the calls that share `key`. -/
def Step (key : Text) (w : SendWorld) (action : SendAction) (w' : SendWorld) : Prop :=
  w.step key action = some w'

/-- No call has begun; the document may hold a record from before. -/
structure Initial (key : Text) (w : SendWorld) : Prop where
  claiming : ∀ call ∈ w.calls, call.phase = .claiming ∧ call.outcome = none
  live : w.live = w.document.get? key

/-! ### What a step does -/

section Steps

variable {key : Text} {w w' : SendWorld} {i : ℕ} {now : ℤ} {token : Text}
variable {fault : Option (StoreFault Thrown)} {reply : ClientReply}

theorem claim_eq_some (h : w.Step key (.claim i now token fault) w') :
    ∃ call document result, w.calls[i]? = some call ∧ call.phase = .claiming ∧
      w.clock ≤ now ∧ w.claimsInTime now ∧
      withFault fault (claimTransactionalSend (sendClaimOptions call.context call.payload key)
        now token) w.document = (document, result) ∧
      w' = w.update i { call with phase := afterClaim key result } now document
        (liveAfter key false w.live document) := by
  simp only [Step, step, Option.bind_eq_bind, Option.bind_eq_some_iff] at h
  obtain ⟨call, hcall, h⟩ := h
  split at h
  · next hphase =>
      split at h
      · next hpremise =>
          exact ⟨call, _, _, hcall, hphase, hpremise.1, hpremise.2, rfl, (Option.some.inj h).symm⟩
      · simp at h
  · simp at h

theorem dispatch_eq_some (h : w.Step key (.dispatch i reply) w') :
    ∃ call record, w.calls[i]? = some call ∧ call.phase = .dispatching record ∧
      w' = w.update i
        { call with
          phase := afterDispatch key record (dispatchToListmonk reply)
          outcome := some (dispatchToListmonk reply) } w.clock w.document w.live := by
  simp only [Step, step, Option.bind_eq_bind, Option.bind_eq_some_iff] at h
  obtain ⟨call, hcall, h⟩ := h
  split at h
  · next record hphase => exact ⟨call, record, hcall, hphase, (Option.some.inj h).symm⟩
  · simp at h

theorem settle_eq_some (h : w.Step key (.settle i now fault) w') :
    ∃ call record settlement result document seen, w.calls[i]? = some call ∧
      call.phase = .settling record settlement result ∧ w.clock ≤ now ∧
      withFault fault (settlement.apply key record.claimToken now) w.document =
        (document, seen) ∧
      w' = w.update i { call with phase := .finished result } now document
        (liveAfter key (settlement = .release ∧
          w.live.map (·.claimToken) = some record.claimToken) w.live document) := by
  simp only [Step, step, Option.bind_eq_bind, Option.bind_eq_some_iff] at h
  obtain ⟨call, hcall, h⟩ := h
  split at h
  · next record settlement result hphase =>
      split at h
      · next hclock =>
          exact ⟨call, record, settlement, result, _, _, hcall, hphase, hclock, rfl,
            (Option.some.inj h).symm⟩
      · simp at h
  · simp at h

end Steps

end SendWorld

/-! ## The invariant -/

namespace SendCall

def options (key : Text) (call : SendCall) : ClaimOptions :=
  sendClaimOptions call.context call.payload key

/-- The call has dispatched, and not with a proven failure before the request
left. -/
def MayHaveSent [CaseMapping] (call : SendCall) : Prop :=
  ∃ outcome, call.outcome = some outcome ∧ isPreDispatchFailure outcome = false

/-- The call may still dispatch or settle its record, or it may have sent. -/
def Busy [CaseMapping] (call : SendCall) : Prop :=
  (∃ record, call.phase = .dispatching record) ∨
    (∃ record settlement result, call.phase = .settling record settlement result) ∨
    call.MayHaveSent

end SendCall

/-- The `sent` value was recorded for these hashes: by the dispatch of one of the
calls, or in a record from before them. -/
def SentRecorded (key : Text) (origin : StoredTransactionalDocument) (calls : List SendCall)
    (payloadHash targetHash : Text) (sent : Bool) : Prop :=
  (∃ record, origin.get? key = some record ∧
    (record.status = .accepted ∨ record.status = .failed) ∧
    record.payloadHash = payloadHash ∧ record.targetHash = targetHash ∧
    record.sent.getD false = sent) ∨
  (∃ (j : ℕ) (call : SendCall), calls[j]? = some call ∧ call.outcome = some (.ok sent) ∧
    (call.options key).payloadHash = payloadHash ∧ (call.options key).targetHash = targetHash)

/-- The live record is the one this call claimed. -/
def OwnsLive (key : Text) (live : Option TransactionalSendRecord) (call : SendCall)
    (claimToken : Text) : Prop :=
  ∃ record, live = some record ∧ record.claimToken = claimToken ∧
    record.payloadHash = (call.options key).payloadHash ∧
    record.targetHash = (call.options key).targetHash

/-- How the phase of a call, its outcome and its result fit together. -/
def Explained [CaseMapping] (key : Text) (origin : StoredTransactionalDocument)
    (live : Option TransactionalSendRecord) (calls : List SendCall) (call : SendCall) : Prop :=
  match call.phase with
  | .claiming => call.outcome = none
  | .dispatching record => call.outcome = none ∧ OwnsLive key live call record.claimToken
  | .settling record settlement result =>
      OwnsLive key live call record.claimToken ∧
        ∃ outcome, call.outcome = some outcome ∧
          afterDispatch key record outcome = .settling record settlement result
  | .finished result =>
      (call.outcome = none ∧
        ((∃ error, result = .error error) ∨
          ∃ output, result = .ok output ∧ output.status = .replayed ∧
            SentRecorded key origin calls (call.options key).payloadHash
              (call.options key).targetHash output.sent)) ∨
      ∃ record settlement outcome, call.outcome = some outcome ∧
        afterDispatch key record outcome = .settling record settlement result

/-- The invariant of calls that share a key: the document holds the live record until that has
expired, one call at most is busy with it, and how far each call got is explained by it. -/
structure SendInv [CaseMapping] (key : Text) (origin : StoredTransactionalDocument)
    (w : SendWorld) : Prop where
  /-- The record of the document is the live one. -/
  live_of_get? : ∀ record, w.document.get? key = some record → w.live = some record
  /-- A live record is missing from the document only after it has expired. -/
  swept : ∀ record, w.live = some record → w.document.get? key = none →
    record.expiresAt.time < w.clock
  /-- What the document says was sent is what a dispatch returned. -/
  recorded : ∀ record, w.document.get? key = some record →
    record.status = .accepted ∨ record.status = .failed →
    SentRecorded key origin w.calls record.payloadHash record.targetHash
      (record.sent.getD false)
  explained : ∀ (i : ℕ) (call : SendCall), w.calls[i]? = some call →
    Explained key origin w.live w.calls call
  /-- A busy call keeps a record live. -/
  live_of_busy : ∀ (i : ℕ) (call : SendCall), w.calls[i]? = some call → call.Busy → w.live ≠ none
  unique : ∀ (i j : ℕ) (call other : SendCall), w.calls[i]? = some call → w.calls[j]? = some other →
    call.Busy → other.Busy → i = j

section Preservation

variable {key : Text} {origin : StoredTransactionalDocument}
variable {w w' : SendWorld} {calls calls' : List SendCall} {call other : SendCall}
variable {live live' : Option TransactionalSendRecord} {i j : ℕ}

theorem SentRecorded.set {payloadHash targetHash : Text} {sent : Bool}
    (hcall : calls[i]? = some call) (hcontext : other.context = call.context)
    (hpayload : other.payload = call.payload)
    (houtcome : ∀ outcome, call.outcome = some outcome → other.outcome = some outcome)
    (h : SentRecorded key origin calls payloadHash targetHash sent) :
    SentRecorded key origin (calls.set i other) payloadHash targetHash sent := by
  rcases h with hbefore | ⟨j, sender, hsender, hsent, hhashes⟩
  · exact .inl hbefore
  · refine .inr ?_
    by_cases hj : i = j
    · subst hj
      obtain rfl := Option.some.inj (hcall.symm.trans hsender)
      have hoptions : other.options key = call.options key := by
        simp [SendCall.options, hcontext, hpayload]
      exact ⟨i, other, getElem?_set_of_some hcall, houtcome _ hsent,
        by simpa [hoptions] using hhashes⟩
    · exact ⟨j, sender, by rwa [List.getElem?_set_ne hj], hsent, hhashes⟩

variable [CaseMapping]

/-- A call that does not move stays explained, if the live record is the same or
no business of the call. -/
theorem Explained.frame (h : Explained key origin live calls call)
    (hlive : call.Busy → live' = live)
    (hcalls : ∀ {payloadHash targetHash sent},
      SentRecorded key origin calls payloadHash targetHash sent →
        SentRecorded key origin calls' payloadHash targetHash sent) :
    Explained key origin live' calls' call := by
  unfold Explained at h ⊢
  cases hphase : call.phase with
  | claiming => simpa [hphase] using h
  | dispatching record =>
      rw [hlive (.inl ⟨record, hphase⟩)]
      simpa [hphase] using h
  | settling record settlement result =>
      rw [hlive (.inr (.inl ⟨record, settlement, result, hphase⟩))]
      simpa [hphase] using h
  | finished result =>
      simp only [hphase] at h ⊢
      rcases h with ⟨hnone, herror | ⟨output, houtput, hstatus, hrecorded⟩⟩ | hdispatched
      · exact .inl ⟨hnone, .inl herror⟩
      · exact .inl ⟨hnone, .inr ⟨output, houtput, hstatus, hcalls hrecorded⟩⟩
      · exact .inr hdispatched

theorem SendInv.liveAfter_of_kept {now : ℤ} {document : StoredTransactionalDocument}
    (hinv : SendInv key origin w) (hkept : KeptOrSwept now w.document document key) :
    SendWorld.liveAfter key false w.live document = w.live := by
  unfold SendWorld.liveAfter
  cases hget : document.get? key with
  | none => rfl
  | some record => exact (hinv.live_of_get? record (hkept.get?_eq_some hget)).symm

theorem SendInv.swept_of_kept {now : ℤ} {document : StoredTransactionalDocument}
    (hinv : SendInv key origin w) (hclock : w.clock ≤ now)
    (hkept : KeptOrSwept now w.document document key) {record : TransactionalSendRecord}
    (hlive : w.live = some record) (hnone : document.get? key = none) :
    record.expiresAt.time < now := by
  rcases hkept with hsame | ⟨hexpired, -⟩
  · exact lt_of_lt_of_le (hinv.swept record hlive (hsame ▸ hnone)) hclock
  · obtain ⟨found, hget, hfalse⟩ := mem_expiredKeys_iff.mp hexpired
    obtain rfl := Option.some.inj (hlive.symm.trans (hinv.live_of_get? found hget))
    simpa [isUnexpired] using hfalse

/-- A claim in time that finds no record means that there is no live one. -/
theorem SendInv.live_eq_none {now : ℤ} (hinv : SendInv key origin w) (hclock : w.clock ≤ now)
    (htime : w.claimsInTime now)
    (habsent : (sweepExpiredRecords w.document now).get? key = none) : w.live = none := by
  refine Option.eq_none_iff_forall_ne_some.mpr fun record hlive => ?_
  have hunexpired : now ≤ record.expiresAt.time := htime record (by simp [hlive])
  have hexpired := hinv.swept_of_kept hclock
    (keptOrSwept_sweepExpiredRecords w.document now key) hlive habsent
  omega

/-- Nothing to preserve but the moved call, if the live record stays and the
document keeps the key's record. -/
theorem SendInv.update_of_kept {now : ℤ} {document : StoredTransactionalDocument}
    (hinv : SendInv key origin w) (hcall : w.calls[i]? = some call)
    (hcontext : other.context = call.context) (hpayload : other.payload = call.payload)
    (houtcome : ∀ outcome, call.outcome = some outcome → other.outcome = some outcome)
    (hclock : w.clock ≤ now) (hkept : KeptOrSwept now w.document document key)
    (hbusy : other.Busy → call.Busy)
    (hexplained : Explained key origin w.live (w.calls.set i other) other) :
    SendInv key origin (w.update i other now document w.live) where
  live_of_get? record hget := hinv.live_of_get? record (hkept.get?_eq_some hget)
  swept record hlive hnone := hinv.swept_of_kept hclock hkept hlive hnone
  recorded record hget hstatus :=
    (hinv.recorded record (hkept.get?_eq_some hget) hstatus).set hcall hcontext hpayload houtcome
  explained j moved hmoved := by
    rcases getElem?_set_cases hmoved with ⟨-, rfl⟩ | ⟨-, hother⟩
    · exact hexplained
    · exact (hinv.explained j moved hother).frame (fun _ => rfl) fun hsent =>
        hsent.set hcall hcontext hpayload houtcome
  live_of_busy j moved hmoved hmovedBusy := by
    rcases getElem?_set_cases hmoved with ⟨-, rfl⟩ | ⟨-, hother⟩
    · exact hinv.live_of_busy i call hcall (hbusy hmovedBusy)
    · exact hinv.live_of_busy j moved hother hmovedBusy
  unique j k moved moved' hmoved hmoved' hb hb' := by
    rcases getElem?_set_cases hmoved with ⟨rfl, rfl⟩ | ⟨-, hj⟩ <;>
      rcases getElem?_set_cases hmoved' with ⟨rfl, rfl⟩ | ⟨-, hk⟩
    · rfl
    · exact hinv.unique _ k call moved' hcall hk (hbusy hb) hb'
    · exact hinv.unique j _ moved call hj hcall hb (hbusy hb')
    · exact hinv.unique j k moved moved' hj hk hb hb'

theorem explained_afterClaim {result : Except Thrown TransactionalClaimResult}
    (hnone : call.outcome = none)
    (hresult : (∃ error, result = .error error) ∨
      (∃ existing, result = .ok (.conflict existing)) ∨
      ∃ existing, result = .ok (.replay existing) ∧
        existing.payloadHash = (call.options key).payloadHash ∧
        existing.targetHash = (call.options key).targetHash ∧
        (existing.status = .accepted ∨ existing.status = .failed →
          SentRecorded key origin calls existing.payloadHash existing.targetHash
            (existing.sent.getD false))) :
    Explained key origin live calls { call with phase := afterClaim key result } := by
  rcases hresult with ⟨error, rfl⟩ | ⟨existing, rfl⟩ | ⟨existing, rfl, hpayload, htarget, hsent⟩
  · exact .inl ⟨hnone, .inl ⟨error, rfl⟩⟩
  · exact .inl ⟨hnone, .inl ⟨_, rfl⟩⟩
  · by_cases hstatus : existing.status = .accepted ∨ existing.status = .failed
    · have hrecorded := hsent hstatus
      rw [hpayload, htarget] at hrecorded
      simp only [Explained, afterClaim, if_pos hstatus]
      exact .inl ⟨hnone, .inr ⟨_, rfl, rfl, hrecorded⟩⟩
    · simp only [Explained, afterClaim, if_neg hstatus]
      exact .inl ⟨hnone, .inl ⟨_, rfl⟩⟩

theorem SendInv.not_busy (hinv : SendInv key origin w) (hnone : w.live = none)
    (hcall : w.calls[i]? = some call) : ¬ call.Busy :=
  fun hbusy => hinv.live_of_busy i call hcall hbusy hnone

/-- Filing a record, or moving it to its outcome, when nobody else is busy. -/
theorem SendInv.update_of_stored {now : ℤ} {document : StoredTransactionalDocument}
    {record : TransactionalSendRecord} (hinv : SendInv key origin w)
    (halone : ∀ (j : ℕ) (moved : SendCall), j ≠ i → w.calls[j]? = some moved → ¬ moved.Busy)
    (hcall : w.calls[i]? = some call)
    (hcontext : other.context = call.context) (hpayload : other.payload = call.payload)
    (houtcome : other.outcome = call.outcome) (hfound : document.get? key = some record)
    (hrecorded : record.status = .accepted ∨ record.status = .failed →
      SentRecorded key origin (w.calls.set i other) record.payloadHash record.targetHash
        (record.sent.getD false))
    (hexplained : Explained key origin (some record) (w.calls.set i other) other) :
    SendInv key origin (w.update i other now document (some record)) where
  live_of_get? found hget := hfound.symm.trans hget
  swept found _ hnone := by
    simp only [SendWorld.update] at hnone
    simp [hfound] at hnone
  recorded found hget hstatus := by
    obtain rfl := Option.some.inj (hfound.symm.trans hget)
    exact hrecorded hstatus
  explained j moved hmoved := by
    rcases getElem?_set_cases hmoved with ⟨-, rfl⟩ | ⟨hj, hother⟩
    · exact hexplained
    · refine (hinv.explained j moved hother).frame (fun hbusy => ?_) fun hsent =>
        hsent.set hcall hcontext hpayload fun outcome h => houtcome.trans h
      exact absurd hbusy (halone j moved hj hother)
  live_of_busy _ _ _ _ := by simp [SendWorld.update]
  unique j k moved moved' hmoved hmoved' hb hb' := by
    rcases getElem?_set_cases hmoved with ⟨rfl, -⟩ | ⟨hji, hj⟩
    · rcases getElem?_set_cases hmoved' with ⟨rfl, -⟩ | ⟨hki, hk⟩
      · rfl
      · exact absurd hb' (halone k moved' hki hk)
    · exact absurd hb (halone j moved hji hj)

theorem SendInv.update_of_released {now : ℤ} {document : StoredTransactionalDocument}
    {released : Bool} (hinv : SendInv key origin w)
    (halone : ∀ (j : ℕ) (moved : SendCall), j ≠ i → w.calls[j]? = some moved → ¬ moved.Busy)
    (hcall : w.calls[i]? = some call)
    (hcontext : other.context = call.context) (hpayload : other.payload = call.payload)
    (houtcome : other.outcome = call.outcome) (hclock : w.clock ≤ now)
    (hdocument : KeptOrSwept now w.document document key ∨
      (released = true ∧ document.get? key = none))
    (hidle : ¬ other.Busy)
    (hexplained : ∀ live, Explained key origin live (w.calls.set i other) other) :
    SendInv key origin (w.update i other now document
      (SendWorld.liveAfter key released w.live document)) where
  live_of_get? found hget := by
    simp only [SendWorld.update] at hget
    simp [SendWorld.update, SendWorld.liveAfter, hget]
  swept found hlive hnone := by
    simp only [SendWorld.update] at hlive hnone
    simp only [SendWorld.liveAfter, hnone] at hlive
    split at hlive
    · simp at hlive
    · next hkeeps =>
        rcases hdocument with hkept | ⟨hreleased, -⟩
        · exact hinv.swept_of_kept hclock hkept hlive hnone
        · exact absurd hreleased hkeeps
  recorded found hget hstatus := by
    simp only [SendWorld.update] at hget
    rcases hdocument with hkept | ⟨-, hnone⟩
    · exact (hinv.recorded found (hkept.get?_eq_some hget) hstatus).set hcall hcontext hpayload
        fun outcome h => houtcome.trans h
    · simp [hnone] at hget
  explained j moved hmoved := by
    rcases getElem?_set_cases hmoved with ⟨-, rfl⟩ | ⟨hj, hother⟩
    · exact hexplained _
    · refine (hinv.explained j moved hother).frame (fun hbusy => ?_) fun hsent =>
        hsent.set hcall hcontext hpayload fun outcome h => houtcome.trans h
      exact absurd hbusy (halone j moved hj hother)
  live_of_busy j moved hmoved hbusy := by
    rcases getElem?_set_cases hmoved with ⟨-, rfl⟩ | ⟨hj, hother⟩
    · exact absurd hbusy hidle
    · exact absurd hbusy (halone j moved hj hother)
  unique j _ moved _ hmoved _ hb _ := by
    rcases getElem?_set_cases hmoved with ⟨-, rfl⟩ | ⟨hj, hother⟩
    · exact absurd hb hidle
    · exact absurd hb (halone j moved hj hother)

theorem SendInv.claim {now : ℤ} {token : Text} {fault : Option (StoreFault Thrown)}
    (hinv : SendInv key origin w) (h : w.Step key (.claim i now token fault) w') :
    SendInv key origin w' := by
  obtain ⟨call, document, result, hcall, hphase, hclock, htime, hclaim, rfl⟩ :=
    SendWorld.claim_eq_some h
  have hnone : call.outcome = none := by
    simpa [Explained, hphase] using hinv.explained i call hcall
  have hquiet : ∀ {phase}, (∃ result, phase = SendPhase.finished result) →
      SendCall.Busy { call with phase } → call.Busy := by
    rintro phase ⟨result, rfl⟩ (⟨_, h⟩ | ⟨_, _, _, h⟩ | hsent)
    · simp at h
    · simp at h
    · exact .inr (.inr hsent)
  cases claimEffect_of_eq hclaim with
  | failed error kept =>
      rw [hinv.liveAfter_of_kept (kept key)]
      exact hinv.update_of_kept hcall rfl rfl (fun _ h => h) hclock (kept key)
        (hquiet ⟨_, rfl⟩) (explained_afterClaim hnone (.inl ⟨error, rfl⟩))
  | conflict existing kept found differs =>
      rw [hinv.liveAfter_of_kept (kept key)]
      exact hinv.update_of_kept hcall rfl rfl (fun _ h => h) hclock (kept key)
        (hquiet ⟨_, rfl⟩) (explained_afterClaim hnone (.inr (.inl ⟨existing, rfl⟩)))
  | replay existing kept found same =>
      rw [hinv.liveAfter_of_kept (kept key)]
      refine hinv.update_of_kept hcall rfl rfl (fun _ h => h) hclock (kept key)
        (hquiet ?_) (explained_afterClaim hnone (.inr (.inr ⟨existing, rfl, same.1, same.2, ?_⟩)))
      · simp only [afterClaim]
        split <;> exact ⟨_, rfl⟩
      · intro hstatus
        exact (hinv.recorded existing ((kept key).get?_eq_some found) hstatus).set hcall rfl rfl
          fun _ h => h
  | filed record absent pending kept found seen =>
      obtain ⟨-, hpayload, htarget, hpending, -, -⟩ := pending
      have hlive := hinv.live_eq_none hclock htime absent
      have hafter : SendWorld.liveAfter key false w.live document = some record := by
        unfold SendWorld.liveAfter
        rw [show document.get? key = some record from found]
      rw [hafter]
      refine hinv.update_of_stored (fun j moved _ hj => hinv.not_busy hlive hj) hcall rfl rfl rfl
        found (fun hstatus => by simp [hpending] at hstatus) ?_
      rcases seen with rfl | ⟨error, rfl⟩
      · exact ⟨hnone, record, rfl, rfl, hpayload, htarget⟩
      · exact explained_afterClaim hnone (.inl ⟨error, rfl⟩)

/-- A dispatch always leads to a settlement. -/
theorem afterDispatch_eq_settling (key : Text) (record : TransactionalSendRecord)
    (outcome : Except Thrown Bool) :
    ∃ settlement result, afterDispatch key record outcome = .settling record settlement result := by
  unfold afterDispatch
  split
  · exact ⟨_, _, rfl⟩
  · split <;> exact ⟨_, _, rfl⟩

theorem afterDispatch_eq_release {record : TransactionalSendRecord}
    {outcome : Except Thrown Bool} {result : Except Thrown SendTransactionalOutput}
    (h : afterDispatch key record outcome = .settling record .release result) :
    isPreDispatchFailure outcome = true := by
  unfold afterDispatch at h
  split at h
  · simp at h
  · split at h
    · next hdefinitive => simpa [isPreDispatchFailure] using hdefinitive
    · simp at h

/-- An accepted or failed status is committed with the acknowledged value. -/
theorem afterDispatch_eq_commit {record : TransactionalSendRecord}
    {outcome : Except Thrown Bool} {result : Except Thrown SendTransactionalOutput}
    {options : CommitOptions}
    (h : afterDispatch key record outcome =
      .settling record (.commit options.status options.sent options.errorMessage) result)
    (hstatus : options.status.toStatus = .accepted ∨ options.status.toStatus = .failed) :
    outcome = .ok (options.storedSent.getD false) := by
  unfold afterDispatch at h
  split at h
  · next sent =>
      simp only [SendPhase.settling.injEq, Settlement.commit.injEq, true_and] at h
      obtain ⟨⟨hcommitted, hsent, -⟩, -⟩ := h
      cases sent <;> simp [CommitOptions.storedSent, ← hcommitted, ← hsent]
  · split at h
    · simp at h
    · simp only [SendPhase.settling.injEq, Settlement.commit.injEq, true_and] at h
      simp [← h.1.1, CommitStatus.toStatus] at hstatus

theorem SendWorld.Initial.not_busy (h : w.Initial key) (hcall : w.calls[i]? = some call) :
    ¬ call.Busy := by
  obtain ⟨hphase, hnone⟩ := h.claiming call (List.mem_of_getElem? hcall)
  rintro (⟨_, hdispatching⟩ | ⟨_, _, _, hsettling⟩ | ⟨_, hsent, -⟩)
  · simp [hphase] at hdispatching
  · simp [hphase] at hsettling
  · simp [hnone] at hsent

theorem SendInv.dispatch {reply : ClientReply} (hinv : SendInv key origin w)
    (h : w.Step key (.dispatch i reply) w') : SendInv key origin w' := by
  obtain ⟨call, record, hcall, hphase, rfl⟩ := SendWorld.dispatch_eq_some h
  have hexplained := hinv.explained i call hcall
  simp only [Explained, hphase] at hexplained
  obtain ⟨hnone, howns⟩ := hexplained
  obtain ⟨settlement, result, hafter⟩ :=
    afterDispatch_eq_settling key record (dispatchToListmonk reply)
  refine hinv.update_of_kept hcall rfl rfl (fun outcome h => ?_) le_rfl
    (keptOrSwept_refl w.clock w.document key) (fun _ => .inl ⟨record, hphase⟩) ?_
  · simp [hnone] at h
  · simp only [Explained, hafter]
    exact ⟨howns, _, rfl, hafter⟩

theorem SendInv.settle {now : ℤ} {fault : Option (StoreFault Thrown)}
    (hinv : SendInv key origin w) (h : w.Step key (.settle i now fault) w') :
    SendInv key origin w' := by
  obtain ⟨call, record, settlement, result, document, seen, hcall, hphase, hclock, happly, rfl⟩ :=
    SendWorld.settle_eq_some h
  have hexplained := hinv.explained i call hcall
  simp only [Explained, hphase] at hexplained
  obtain ⟨⟨owned, howned, htoken, hpayload, htarget⟩, outcome, houtcome, hafter⟩ := hexplained
  have hbusy : call.Busy := .inr (.inl ⟨record, settlement, result, hphase⟩)
  have halone : ∀ (j : ℕ) (moved : SendCall), j ≠ i → w.calls[j]? = some moved →
      ¬ moved.Busy := fun j moved hj hmoved hmovedBusy =>
    hj (hinv.unique j i moved call hmoved hcall hmovedBusy hbusy)
  have hfinished : ∀ live, Explained key origin live
      (w.calls.set i { call with phase := .finished result })
      { call with phase := .finished result } :=
    fun live => .inr ⟨record, settlement, outcome, houtcome, hafter⟩
  cases settlement with
  | release =>
      have hidle : ¬ SendCall.Busy { call with phase := .finished result } := by
        rintro (⟨_, h⟩ | ⟨_, _, _, h⟩ | ⟨sent, hsent, hfailure⟩)
        · simp at h
        · simp at h
        · obtain rfl := Option.some.inj (houtcome.symm.trans hsent)
          simp [afterDispatch_eq_release hafter] at hfailure
      refine hinv.update_of_released halone hcall rfl rfl rfl hclock ?_ hidle hfinished
      cases releaseEffect_of_eq happly with
      | idle kept _ => exact .inl (kept key)
      | released existing found own kept gone =>
          refine .inr ⟨?_, gone⟩
          simp [howned, htoken]
  | commit status sent errorMessage =>
      simp only [reduceCtorEq, false_and, decide_false]
      have hquiet : SendCall.Busy { call with phase := .finished result } → call.Busy :=
        fun _ => hbusy
      cases commitEffect_of_eq happly with
      | idle kept _ =>
          rw [hinv.liveAfter_of_kept (kept key)]
          exact hinv.update_of_kept hcall rfl rfl (fun _ h => h) hclock (kept key) hquiet
            (hfinished _)
      | committed existing updatedAt found own kept stored =>
          have hlive : SendWorld.liveAfter key false w.live document = document.get? key := by
            rw [SendWorld.liveAfter, show document.get? key = some _ from stored]
          rw [hlive, show document.get? key = some _ from stored]
          refine hinv.update_of_stored halone hcall rfl rfl rfl stored (fun hstatus => ?_)
            (hfinished _)
          obtain rfl := Option.some.inj (howned.symm.trans (hinv.live_of_get? existing found))
          refine .inr ⟨i, _, getElem?_set_of_some hcall, ?_, hpayload.symm, htarget.symm⟩
          rw [houtcome, afterDispatch_eq_commit hafter hstatus]

theorem SendInv.step {action : SendAction} (hinv : SendInv key origin w)
    (h : w.Step key action w') : SendInv key origin w' := by
  cases action with
  | claim i now token fault => exact hinv.claim h
  | dispatch i reply => exact hinv.dispatch h
  | settle i now fault => exact hinv.settle h

theorem sendInv_initial (h : w.Initial key) : SendInv key w.document w where
  live_of_get? record hget := h.live.trans hget
  swept record hlive hnone := by
    rw [h.live, hnone] at hlive
    simp at hlive
  recorded record hget hstatus := .inl ⟨record, hget, hstatus, rfl, rfl, rfl⟩
  explained i call hcall := by
    obtain ⟨hphase, hnone⟩ := h.claiming call (List.mem_of_getElem? hcall)
    simpa [Explained, hphase] using hnone
  live_of_busy i call hcall hbusy := absurd hbusy (h.not_busy hcall)
  unique i _ call _ hcall _ hbusy _ := absurd hbusy (h.not_busy hcall)

theorem sendInv_of_run {actions : List SendAction} {start : SendWorld}
    (hstart : start.Initial key) (hrun : Run (SendWorld.Step key) start actions w) :
    SendInv key start.document w :=
  hrun.invariant (fun hinv hstep => SendInv.step hinv hstep) (sendInv_initial hstart)

/-- A call that returned or threw without having sent: it threw, or it replays a
recorded value and never dispatched. -/
theorem SendInv.finished {result : Except Thrown SendTransactionalOutput}
    (hinv : SendInv key origin w) (hcall : w.calls[i]? = some call)
    (hphase : call.phase = .finished result) (hquiet : ¬ call.MayHaveSent) :
    (∃ error, result = .error error ∧
        ∀ outcome, call.outcome = some outcome → isPreDispatchFailure outcome = true) ∨
      (call.outcome = none ∧ ∃ output, result = .ok output ∧ output.status = .replayed ∧
        SentRecorded key origin w.calls (call.options key).payloadHash
          (call.options key).targetHash output.sent) := by
  have hexplained := hinv.explained i call hcall
  simp only [Explained, hphase] at hexplained
  rcases hexplained with ⟨hnone, ⟨error, rfl⟩ | hreplayed⟩ |
    ⟨record, settlement, outcome, houtcome, hafter⟩
  · exact .inl ⟨error, rfl, by simp [hnone]⟩
  · exact .inr ⟨hnone, hreplayed⟩
  · have hfailure : isPreDispatchFailure outcome = true := by
      by_contra hsent
      exact hquiet ⟨outcome, houtcome, by simpa using hsent⟩
    cases outcome with
    | ok sent => simp [isPreDispatchFailure] at hfailure
    | error error =>
        have hdefinitive : isDefinitivePreDispatchError error = true := hfailure
        simp only [afterDispatch, hdefinitive, if_true, SendPhase.settling.injEq] at hafter
        obtain ⟨-, -, rfl⟩ := hafter
        refine .inl ⟨error, rfl, fun other hother => ?_⟩
        obtain rfl := Option.some.inj (houtcome.symm.trans hother)
        exact hfailure

/-- A call dispatches only while the live record is its own. -/
theorem SendInv.hashes_of_dispatch {reply : ClientReply} (hinv : SendInv key origin w)
    (h : w.Step key (.dispatch i reply) w') :
    ∃ call record, w.calls[i]? = some call ∧ w.live = some record ∧
      record.payloadHash = (call.options key).payloadHash ∧
      record.targetHash = (call.options key).targetHash := by
  obtain ⟨call, record, hcall, hphase, -⟩ := SendWorld.dispatch_eq_some h
  have hexplained := hinv.explained i call hcall
  simp only [Explained, hphase] at hexplained
  obtain ⟨-, owned, howned, -, hpayload, htarget⟩ := hexplained
  exact ⟨call, owned, hcall, howned, hpayload, htarget⟩

end Preservation

/-- A settlement with a token that is not the record's own leaves the record as it
was. -/
theorem get?_settlement_of_ne {key claimToken : Text} {now : ℤ}
    {document : StoredTransactionalDocument} {record : TransactionalSendRecord}
    (settlement : Settlement) (fault : Option (StoreFault Thrown))
    (hget : document.get? key = some record) (hforeign : record.claimToken ≠ claimToken)
    (hlive : now ≤ record.expiresAt.time) :
    (withFault fault (settlement.apply key claimToken now) document).1.get? key =
      some record := by
  have hplain : (settlement.apply key claimToken now document).1.get? key = some record := by
    cases settlement with
    | release => exact get?_releaseTransactionalSend_of_ne hget hforeign hlive
    | commit status sent errorMessage =>
        exact get?_commitTransactionalSend_of_ne { key, claimToken, status, sent, errorMessage }
          hget hforeign hlive
  rcases fault with - | (error | error)
  · exact hplain
  · exact hget
  · exact hplain

/-- A keyed send dispatches once. Wherever calls with one key have got to, at most
one has dispatched with anything but a proven failure before the request left;
every other finished call threw, or returned the value recorded for its hashes
without dispatching; no call dispatches against a live record with other hashes;
and no settlement touches a record of another claim. -/
theorem sendTransactionalMessage_singleDispatch [CaseMapping] {key : Text}
    {start w : SendWorld} {actions : List SendAction} (hstart : start.Initial key)
    (hrun : Run (SendWorld.Step key) start actions w) :
    (∀ (i j : ℕ) (call other : SendCall), w.calls[i]? = some call → w.calls[j]? = some other →
      call.MayHaveSent → other.MayHaveSent → i = j) ∧
    (∀ (i : ℕ) (call : SendCall) (result : Except Thrown SendTransactionalOutput),
      w.calls[i]? = some call → call.phase = .finished result → ¬ call.MayHaveSent →
        (∃ error, result = .error error ∧
          ∀ outcome, call.outcome = some outcome → isPreDispatchFailure outcome = true) ∨
        (call.outcome = none ∧ ∃ output, result = .ok output ∧ output.status = .replayed ∧
          SentRecorded key start.document w.calls (call.options key).payloadHash
            (call.options key).targetHash output.sent)) ∧
    (∀ (i : ℕ) (reply : ClientReply) (w' : SendWorld), w.Step key (.dispatch i reply) w' →
      ∃ call record, w.calls[i]? = some call ∧ w.live = some record ∧
        record.payloadHash = (call.options key).payloadHash ∧
        record.targetHash = (call.options key).targetHash) ∧
    (∀ (document : StoredTransactionalDocument) (record : TransactionalSendRecord)
      (settlement : Settlement) (fault : Option (StoreFault Thrown)) (claimToken : Text) (now : ℤ),
      document.get? key = some record → record.claimToken ≠ claimToken →
        now ≤ record.expiresAt.time →
        (withFault fault (settlement.apply key claimToken now) document).1.get? key =
          some record) := by
  have hinv := sendInv_of_run hstart hrun
  refine ⟨?_, ?_, ?_, ?_⟩
  · intro i j call other hi hj hsent hsent'
    exact hinv.unique i j call other hi hj (.inr (.inr hsent)) (.inr (.inr hsent'))
  · intro i call result hcall hphase hquiet
    exact hinv.finished hcall hphase hquiet
  · intro i reply w' hstep
    exact hinv.hashes_of_dispatch hstep
  · intro document record settlement fault claimToken now hget hforeign hlive
    exact get?_settlement_of_ne settlement fault hget hforeign hlive

/-- Two calls with one key, about to begin on an empty store. -/
def twoCalls : SendWorld where
  document := Table.empty _
  clock := 0
  calls :=
    [{ context := { hashPayload := fun _ => "digest" }, payload := { templateId := 1 } },
      { context := { hashPayload := fun _ => "digest" }, payload := { templateId := 1 } }]
  live := none

/-- The first call loses the response, the second comes later. -/
def lostResponse : List SendAction :=
  [.claim 0 0 "first" none,
    .dispatch 0 (.rejected { message := "socket hang up", code := some "ECONNRESET" }),
    .settle 0 5 none,
    .claim 1 10 "second" none]

theorem sendTransactionalMessage_singleDispatch_lostResponse :
    letI := asciiCaseMapping
    ∃ w, Run (SendWorld.Step "welcome") twoCalls lostResponse w ∧
      (w.calls.map (·.outcome.isSome)) = [true, false] ∧
      ∀ (i j : ℕ) (call other : SendCall), w.calls[i]? = some call →
        w.calls[j]? = some other → call.MayHaveSent → other.MayHaveSent → i = j := by
  let := asciiCaseMapping
  have hsome : ((lostResponse.foldlM (SendWorld.step "welcome") twoCalls).map
      fun w => w.calls.map (·.outcome.isSome)) = some [true, false] := by decide
  obtain ⟨w, hw, houtcomes⟩ := Option.map_eq_some_iff.mp hsome
  have hrun : Run (SendWorld.Step "welcome") twoCalls lostResponse w := Run.of_foldlM hw
  have hstart : twoCalls.Initial "welcome" := ⟨by simp [twoCalls], rfl⟩
  exact ⟨w, hrun, houtcomes, (sendTransactionalMessage_singleDispatch hstart hrun).1⟩

end ListmonkOps.Transactional
