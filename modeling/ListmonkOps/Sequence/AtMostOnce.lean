/-
Sequence messages are sent at most once.

Two dispatches for one step of one enrollment can only happen if the first is
proven to have failed before the request left, if an operator resolved the step
as not sent in between, or if the idempotency record of the step expired. The
argument follows that record: a dispatch that may have reached Listmonk leaves
it in the document, and only a claim that finds no record dispatches again.
-/

import ListmonkOps.Sequence.Workers
import ListmonkOps.Transactional.SingleDispatch

namespace ListmonkOps.Sequence

open ListmonkOps.Math ListmonkOps.Runtime ListmonkOps.Transactional

/-! ## Records that are held -/

/-- The record a task has claimed and not settled yet. -/
def EngineTask.held (task : EngineTask) : Option TransactionalSendRecord :=
  match task.phase with
  | .sending _ _ (.dispatching record) => some record
  | .sending _ _ (.settling record _ _) => some record
  | _ => none

/-- The record an operator has loaded and not settled yet. -/
def Operator.held (operator : Operator) : Option (StepRef × TransactionalSendRecord) :=
  match operator.phase with
  | .recordLoaded _ _ ref record => some (ref, record)
  | .settling ref record _ => some (ref, record)
  | _ => none

@[simp]
theorem Operator.held_overtake (key : Text) (operator : Operator) :
    (operator.overtake key).held = operator.held := by
  unfold overtake
  split
  · next ref record overtaken hphase => simp [held, hphase]
  · rfl

/-- A resolution goes on with the record that was loaded, or with none. -/
theorem held_afterResolve {resolution : SequenceAmbiguousResolution} {ref ref' : StepRef}
    {record record' : TransactionalSendRecord} {now : ℤ}
    (h : Operator.held { resolution, now, phase := EngineWorld.afterResolve resolution ref record } =
      some (ref', record')) : ref' = ref ∧ record' = record := by
  unfold EngineWorld.afterResolve at h
  split at h
  · simp [Operator.held] at h
  · obtain ⟨rfl, rfl⟩ := Prod.mk.inj (Option.some.inj h)
    exact ⟨rfl, rfl⟩

/-- The keys an operation found expired. -/
def EngineEvent.expiredKeys? : EngineEvent → Option (List Text)
  | .expired keys => some keys
  | .dispatched .. | .resolved .. | .releasedLate _ => none

/-- No operation found the record of a key expired. -/
def KeyKept (key : Text) (events : List EngineEvent) : Prop :=
  ∀ keys, .expired keys ∈ events → key ∉ keys

instance (key : Text) (events : List EngineEvent) : Decidable (KeyKept key events) :=
  decidable_of_iff
    (∀ event ∈ events, ∀ keys ∈ event.expiredKeys?, key ∉ keys)
    ⟨fun h keys hmem => h _ hmem keys rfl, fun h event hmem keys hkeys => by
      cases event with
      | expired found =>
          obtain rfl := Option.some.inj hkeys
          exact h found hmem
      | dispatched | resolved | releasedLate => simp [EngineEvent.expiredKeys?] at hkeys⟩

/-- Claims, holders and loaded records of one key: a claim that is not settled has its record, one
task alone holds it, and operators load only records that nobody holds. -/
structure KeyInvariant (key : Text) (w : EngineWorld) : Prop where
  /-- The token of the record was drawn. -/
  drawn : ∀ record, w.document.get? key = some record → record.claimToken ∈ w.tokens
  /-- The record of a task that has not settled it is there, and pending. -/
  pending : ∀ task ∈ w.tasks, task.ref.key = key → ∀ record, task.held = some record →
    ∃ stored, w.document.get? key = some stored ∧ stored.claimToken = record.claimToken ∧
      stored.status = .pending
  /-- Only one task holds it. -/
  alone : ∀ (i j : ℕ) (task other : EngineTask), w.tasks[i]? = some task →
    w.tasks[j]? = some other → task.ref.key = key → other.ref.key = key → task.held ≠ none →
      other.held ≠ none → i = j
  /-- Operators load records that no task holds. -/
  loaded : ∀ operator ∈ w.operators, ∀ (ref : StepRef) (record : TransactionalSendRecord),
    operator.held = some (ref, record) → ref.key = key → record.claimToken ∈ w.tokens ∧
      ∀ task ∈ w.tasks, task.ref.key = key → ∀ held, task.held = some held →
        held.claimToken ≠ record.claimToken

section Keys

variable {key : Text} {w w' : EngineWorld}

theorem keyInvariant_empty (key : Text) : KeyInvariant key ({} : EngineWorld) where
  drawn _ h := by simp [Table.get?_empty] at h
  pending := by simp
  alone := by simp
  loaded := by simp

/-- A step after which nobody holds or has loaded more than before, and the record
is the same, keeps the invariant. -/
theorem KeyInvariant.frame (h : KeyInvariant key w)
    (hdocument : w'.document.get? key = w.document.get? key) (htokens : w.tokens ⊆ w'.tokens)
    (htasks : ∀ (i : ℕ) (task' : EngineTask), w'.tasks[i]? = some task' → task'.ref.key = key →
      task'.held ≠ none → ∃ task, w.tasks[i]? = some task ∧ task.ref.key = key ∧
        task.held = task'.held)
    (hoperators : ∀ operator' ∈ w'.operators, ∀ (ref : StepRef) (record : TransactionalSendRecord),
      operator'.held = some (ref, record) → ref.key = key →
        ∃ operator ∈ w.operators, operator.held = some (ref, record)) : KeyInvariant key w' where
  drawn record hget := htokens (h.drawn record (hdocument ▸ hget))
  pending task' hmem hkey record hheld := by
    obtain ⟨i, hi⟩ := List.mem_iff_getElem?.mp hmem
    obtain ⟨task, htask, htaskKey, hsame⟩ := htasks i task' hi hkey (by simp [hheld])
    rw [hdocument]
    exact h.pending task (List.mem_of_getElem? htask) htaskKey record (hsame.trans hheld)
  alone i j task' other' hi hj hkey hkey' hheld hheld' := by
    obtain ⟨task, htask, htaskKey, hsame⟩ := htasks i task' hi hkey hheld
    obtain ⟨other, hother, hotherKey, hsame'⟩ := htasks j other' hj hkey' hheld'
    exact h.alone i j task other htask hother htaskKey hotherKey (hsame ▸ hheld) (hsame' ▸ hheld')
  loaded operator' hmem ref record hheld hkey := by
    obtain ⟨operator, hoperator, hsame⟩ := hoperators operator' hmem ref record hheld hkey
    obtain ⟨hdrawn, hforeign⟩ := h.loaded operator hoperator ref record hsame hkey
    refine ⟨htokens hdrawn, fun task' hmem' hkey' held hheld' => ?_⟩
    obtain ⟨i, hi⟩ := List.mem_iff_getElem?.mp hmem'
    obtain ⟨task, htask, htaskKey, hsame'⟩ := htasks i task' hi hkey' (by simp [hheld'])
    exact hforeign task (List.mem_of_getElem? htask) htaskKey held (hsame'.trans hheld')

theorem KeyInvariant.unheld (h : KeyInvariant key w)
    (hdrawn : ∀ record, w'.document.get? key = some record → record.claimToken ∈ w'.tokens)
    (htokens : w.tokens ⊆ w'.tokens)
    (htasks : ∀ task' ∈ w'.tasks, task'.ref.key = key → task'.held = none)
    (hoperators : ∀ operator' ∈ w'.operators, ∀ (ref : StepRef) (record : TransactionalSendRecord),
      operator'.held = some (ref, record) → ref.key = key →
        ∃ operator ∈ w.operators, operator.held = some (ref, record)) : KeyInvariant key w' where
  drawn := hdrawn
  pending task' hmem hkey record hheld := by simp [htasks task' hmem hkey] at hheld
  alone i j task' other' hi hj hkey _ hheld _ :=
    absurd (htasks task' (List.mem_of_getElem? hi) hkey) hheld
  loaded operator' hmem ref record hheld hkey := by
    obtain ⟨operator, hoperator, hsame⟩ := hoperators operator' hmem ref record hheld hkey
    refine ⟨htokens (h.loaded operator hoperator ref record hsame hkey).1,
      fun task' hmem' hkey' held hheld' => ?_⟩
    simp [htasks task' hmem' hkey'] at hheld'

theorem task_of_setTask {i : ℕ} {task : EngineTask} {phase : TaskPhase}
    (hfound : w.tasks[i]? = some task)
    (hheld : EngineTask.held { task with phase } ≠ none →
      EngineTask.held { task with phase } = task.held) (j : ℕ) (task' : EngineTask)
    (hj : (w.setTask i task phase).tasks[j]? = some task') (hkey : task'.ref.key = key)
    (hholds : task'.held ≠ none) :
    ∃ before, w.tasks[j]? = some before ∧ before.ref.key = key ∧ before.held = task'.held := by
  rcases getElem?_set_cases hj with ⟨rfl, rfl⟩ | ⟨-, hold⟩
  · exact ⟨task, hfound, hkey, (hheld hholds).symm⟩
  · exact ⟨task', hold, hkey, rfl⟩

/-- The operators after one of them has moved on without loading more. -/
theorem operator_of_setOperator {i : ℕ} {operator : Operator} {phase : OperatorPhase}
    (hfound : w.operators[i]? = some operator)
    (hheld : ∀ ref record, Operator.held { operator with phase } = some (ref, record) →
      operator.held = some (ref, record)) (operator' : Operator)
    (hmem : operator' ∈ (w.setOperator i operator phase).operators) (ref : StepRef)
    (record : TransactionalSendRecord) (hholds : operator'.held = some (ref, record)) :
    ∃ before ∈ w.operators, before.held = some (ref, record) := by
  rcases List.mem_or_eq_of_mem_set hmem with hold | rfl
  · exact ⟨operator', hold, hholds⟩
  · exact ⟨operator, List.mem_of_getElem? hfound, hheld ref record hholds⟩

end Keys

/-! ## Settlements -/

/-- What a settlement with a token does to the record of a key: nothing, or it
commits or releases the record that carries the token. -/
inductive SettleEffect (releases : Prop) (key token : Text) (now : ℤ)
    (document document' : StoredTransactionalDocument) : Prop
  | idle (kept : ∀ other, KeptOrSwept now document document' other)
  | committed {existing stored : TransactionalSendRecord}
      (found : document.get? key = some existing) (own : existing.claimToken = token)
      (kept : ∀ other, other ≠ key → KeptOrSwept now document document' other)
      (after : document'.get? key = some stored) (same : stored.claimToken = token)
      (settled : stored.status ≠ .pending)
  | released {existing : TransactionalSendRecord} (release : releases)
      (found : document.get? key = some existing) (own : existing.claimToken = token)
      (kept : ∀ other, other ≠ key → KeptOrSwept now document document' other)
      (gone : document'.get? key = none)

section Settlements

variable {key token : Text} {now : ℤ} {document document' : StoredTransactionalDocument}
  {fault : Option (StoreFault Thrown)} {seen : Except Thrown Unit}

theorem settleEffect_of_commit {releases : Prop} {options : CommitOptions}
    (h : withFault fault (commitTransactionalSend options now) document = (document', seen)) :
    SettleEffect releases options.key options.claimToken now document document' := by
  cases commitEffect_of_eq h with
  | idle kept _ => exact .idle kept
  | committed existing updatedAt found own kept stored =>
      exact .committed found own kept stored own options.status.toStatus_ne_pending

theorem settleEffect_of_release {releases : Prop} (hreleases : releases)
    (h : withFault fault (releaseTransactionalSend key token now) document = (document', seen)) :
    SettleEffect releases key token now document document' := by
  cases releaseEffect_of_eq h with
  | idle kept _ => exact .idle kept
  | released existing found own kept gone => exact .released hreleases found own kept gone

theorem settleEffect_of_settlement {settlement : Settlement}
    (h : withFault fault (settlement.apply key token now) document = (document', seen)) :
    SettleEffect (settlement = .release) key token now document document' := by
  cases settlement with
  | release => exact settleEffect_of_release rfl h
  | commit status sent errorMessage => exact settleEffect_of_commit h

theorem settleEffect_of_resolution {operator : Operator}
    (h : withFault fault (EngineWorld.applyResolution operator key token) document =
      (document', seen)) :
    SettleEffect (operator.resolution = .notSent) key token operator.now document document' := by
  unfold EngineWorld.applyResolution at h
  cases hresolution : operator.resolution with
  | sent =>
      simp only [hresolution] at h
      exact settleEffect_of_commit h
  | notSent =>
      simp only [hresolution] at h
      exact settleEffect_of_release rfl h

theorem SettleEffect.kept_of_ne {releases : Prop}
    (h : SettleEffect releases key token now document document') {other : Text}
    (hne : other ≠ key) : KeptOrSwept now document document' other := by
  cases h with
  | idle kept => exact kept other
  | committed _ _ kept => exact kept other hne
  | released _ _ _ kept => exact kept other hne

/-- A record that a settlement leaves carries the token of one that was there. -/
theorem SettleEffect.exists_before {releases : Prop}
    (h : SettleEffect releases key token now document document')
    {record : TransactionalSendRecord} (hget : document'.get? key = some record) :
    ∃ before, document.get? key = some before ∧ before.claimToken = record.claimToken := by
  cases h with
  | idle kept => exact ⟨record, (kept key).get?_eq_some hget, rfl⟩
  | committed found own _ after same _ =>
      obtain rfl := Option.some.inj (after.symm.trans hget)
      exact ⟨_, found, own.trans same.symm⟩
  | released _ _ _ _ gone => simp [gone] at hget

/-- A settlement that does not release keeps the token of a record that has not
expired. -/
theorem SettleEffect.token_kept {releases : Prop} {settledKey : Text}
    (h : SettleEffect releases settledKey token now document document')
    {record : TransactionalSendRecord} (hget : document.get? key = some record)
    (hlive : key ∉ expiredKeys document now)
    (hreleases : releases → settledKey = key → record.claimToken ≠ token) :
    ∃ record', document'.get? key = some record' ∧ record'.claimToken = record.claimToken := by
  by_cases hkey : settledKey = key
  · subst hkey
    cases h with
    | idle kept => exact ⟨record, ((kept _).get?_of_not_mem hlive).trans hget, rfl⟩
    | committed found own _ after same _ =>
        obtain rfl := Option.some.inj (hget.symm.trans found)
        exact ⟨_, after, same.trans own.symm⟩
    | released release found own _ _ =>
        obtain rfl := Option.some.inj (hget.symm.trans found)
        exact absurd own (hreleases release rfl)
  · exact ⟨record, ((h.kept_of_ne (Ne.symm hkey)).get?_of_not_mem hlive).trans hget, rfl⟩

end Settlements

/-! ## The steps keep the invariant -/

theorem reconcilableRecord_eq_ok {key : Text} {found : Option TransactionalSendRecord}
    {resolution : SequenceAmbiguousResolution} {record : TransactionalSendRecord}
    (h : reconcilableRecord key found resolution = .ok record) :
    found = some record ∧ record.status ≠ .pending := by
  unfold reconcilableRecord at h
  split at h
  · simp at h
  · split at h
    · simp at h
    · simp at h
    · simp at h
    · next hpending _ _ =>
        obtain rfl := Except.ok.inj h
        exact ⟨rfl, fun hstatus => hpending hstatus⟩

section Steps

variable {key : Text} {w w' : EngineWorld} {action : EngineAction}

theorem KeyInvariant.not_held_of_none (h : KeyInvariant key w)
    (hnone : w.document.get? key = none) {task : EngineTask} (hmem : task ∈ w.tasks)
    (hkey : task.ref.key = key) : task.held = none := by
  cases hheld : task.held with
  | none => rfl
  | some record =>
      obtain ⟨stored, hstored, -⟩ := h.pending task hmem hkey record hheld
      simp [hnone] at hstored

theorem KeyInvariant.not_held_of_settled (h : KeyInvariant key w)
    {record : TransactionalSendRecord} (hget : w.document.get? key = some record)
    (hsettled : record.status ≠ .pending) {task : EngineTask} (hmem : task ∈ w.tasks)
    (hkey : task.ref.key = key) : task.held = none := by
  cases hheld : task.held with
  | none => rfl
  | some held =>
      obtain ⟨stored, hstored, -, hpending⟩ := h.pending task hmem hkey held hheld
      obtain rfl := Option.some.inj (hget.symm.trans hstored)
      exact absurd hpending hsettled

theorem KeyInvariant.token_eq (h : KeyInvariant key w) {record held : TransactionalSendRecord}
    (hget : w.document.get? key = some record) {task : EngineTask} (hmem : task ∈ w.tasks)
    (hkey : task.ref.key = key) (hheld : task.held = some held) :
    record.claimToken = held.claimToken := by
  obtain ⟨stored, hstored, htoken, -⟩ := h.pending task hmem hkey held hheld
  obtain rfl := Option.some.inj (hget.symm.trans hstored)
  exact htoken

theorem KeyInvariant.elsewhere {i : ℕ} {task : EngineTask} {phase : TaskPhase}
    (h : KeyInvariant key w) (hne : task.ref.key ≠ key)
    (hdocument : w'.document.get? key = w.document.get? key) (htokens : w.tokens ⊆ w'.tokens)
    (htasks : w'.tasks = (w.setTask i task phase).tasks)
    (hoperators : ∀ operator' ∈ w'.operators, ∀ (ref : StepRef) (record : TransactionalSendRecord),
      operator'.held = some (ref, record) → ref.key = key →
        ∃ operator ∈ w.operators, operator.held = some (ref, record)) : KeyInvariant key w' := by
  refine h.frame hdocument htokens (fun j task' hj hkey _ => ?_) hoperators
  rw [htasks] at hj
  rcases getElem?_set_cases hj with ⟨rfl, rfl⟩ | ⟨-, hold⟩
  · exact absurd hkey hne
  · exact ⟨task', hold, hkey, rfl⟩

theorem get?_of_kept {document : StoredTransactionalDocument} {now : ℤ}
    {events : List EngineEvent} (hkept : KeyKept key events)
    (hevent : EngineEvent.expired (expiredKeys w.document now) ∈ events)
    (h : KeptOrSwept now w.document document key) :
    document.get? key = w.document.get? key :=
  h.get?_of_not_mem (hkept _ hevent)

theorem held_afterClaim {task : EngineTask} {subscriber : Subscriber} {payload : DispatchPayload}
    {result : Except Thrown TransactionalClaimResult}
    (h : ∀ record, result ≠ .ok (.new record)) :
    EngineTask.held { task with
      phase := ofSendPhase subscriber payload (afterClaim task.ref.key result) } = none := by
  rcases result with error | (record | record | existing)
  · rfl
  · exact absurd rfl (h record)
  · simp only [afterClaim]
    split <;> rfl
  · rfl

/-- A claim keeps the invariant: it files a record only where there is none. -/
theorem KeyInvariant.claim {i : ℕ} {now : ℤ} {token : Text} {task : EngineTask}
    {subscriber : Subscriber} {payload : DispatchPayload} {document : StoredTransactionalDocument}
    {result : Except Thrown TransactionalClaimResult} (h : KeyInvariant key w)
    (hfound : w.tasks[i]? = some task) (hfresh : token ∉ w.tokens)
    (heffect : ClaimEffect (sendClaimOptions task.context payload task.ref.key) now token
      w.document document result)
    (hkept : KeyKept key (w.events ++ [.expired (expiredKeys w.document now)])) :
    KeyInvariant key { w.setTask i task
        (ofSendPhase subscriber payload (afterClaim task.ref.key result)) with
      document
      operators := w.operators.map (Operator.overtake task.ref.key)
      tokens := token :: w.tokens
      events := w.events ++ [.expired (expiredKeys w.document now)] } := by
  have hoperators : ∀ operator' ∈ w.operators.map (Operator.overtake task.ref.key),
      ∀ (ref : StepRef) (record : TransactionalSendRecord), operator'.held = some (ref, record) →
        ref.key = key → ∃ operator ∈ w.operators, operator.held = some (ref, record) := by
    intro operator' hmem ref record hheld _
    obtain ⟨operator, hoperator, rfl⟩ := List.mem_map.mp hmem
    exact ⟨operator, hoperator, by simpa using hheld⟩
  have htokens : w.tokens ⊆ token :: w.tokens := fun _ hmem => List.mem_cons_of_mem _ hmem
  have hget : KeptOrSwept now w.document document key → document.get? key = w.document.get? key :=
    get?_of_kept hkept (by simp)
  -- Without a new record the task holds nothing.
  have hidle : (∀ other, KeptOrSwept now w.document document other) →
      (∀ record, result ≠ .ok (.new record)) → KeyInvariant key { w.setTask i task
          (ofSendPhase subscriber payload (afterClaim task.ref.key result)) with
        document
        operators := w.operators.map (Operator.overtake task.ref.key)
        tokens := token :: w.tokens
        events := w.events ++ [.expired (expiredKeys w.document now)] } := by
    intro kept hnew
    refine h.frame (hget (kept key)) htokens (fun j task' hj hkey hheld => ?_) hoperators
    exact task_of_setTask hfound (by simp [held_afterClaim hnew]) j task' hj hkey hheld
  cases heffect with
  | failed error kept => exact hidle kept (by simp)
  | replay existing kept _ _ => exact hidle kept (by simp)
  | conflict existing kept _ _ => exact hidle kept (by simp)
  | filed record absent pending kept found seen =>
      by_cases hkey : task.ref.key = key
      · subst hkey
        obtain ⟨-, -, -, hpending, htoken, -⟩ := pending
        have hnone : w.document.get? task.ref.key = none := by
          rw [← absent]
          exact (get?_sweepExpiredRecords (hkept _ (by simp))).symm
        have hbefore : ∀ (j : ℕ) (task' : EngineTask), j ≠ i → w.tasks[j]? = some task' →
            task'.ref.key = task.ref.key → task'.held = none := fun j task' _ hj hkey' =>
          h.not_held_of_none hnone (List.mem_of_getElem? hj) hkey'
        have hheld : ∀ held, EngineTask.held { task with
            phase := ofSendPhase subscriber payload (afterClaim task.ref.key result) } =
              some held → held = record := by
          intro held hheld
          rcases seen with rfl | ⟨error, rfl⟩
          · exact (Option.some.inj hheld).symm
          · simp [held_afterClaim] at hheld
        have hholder : ∀ (j : ℕ) (task' : EngineTask), (w.setTask i task
            (ofSendPhase subscriber payload (afterClaim task.ref.key result))).tasks[j]? =
              some task' → task'.ref.key = task.ref.key → ∀ held, task'.held = some held →
                j = i ∧ held = record := by
          intro j task' hj hkey' held hheld'
          rcases getElem?_set_cases hj with ⟨rfl, rfl⟩ | ⟨hne, hold⟩
          · exact ⟨rfl, hheld held hheld'⟩
          · simp [hbefore j task' hne hold hkey'] at hheld'
        refine ⟨?_, ?_, ?_, ?_⟩
        · intro stored hstored
          obtain rfl := Option.some.inj (found.symm.trans hstored)
          exact List.mem_cons.mpr (.inl htoken)
        · intro task' hmem hkey' held hheld'
          obtain ⟨j, hj⟩ := List.mem_iff_getElem?.mp hmem
          obtain ⟨-, rfl⟩ := hholder j task' hj hkey' held hheld'
          exact ⟨held, found, rfl, hpending⟩
        · intro j j' task' other' hj hj' hkey' hotherKey hheld' hother
          obtain ⟨held, hheld'⟩ := Option.ne_none_iff_exists'.mp hheld'
          obtain ⟨held', hother⟩ := Option.ne_none_iff_exists'.mp hother
          rw [(hholder j task' hj hkey' held hheld').1,
            (hholder j' other' hj' hotherKey held' hother).1]
        · intro operator' hmem ref loaded hloaded hrefKey
          obtain ⟨operator, hoperator, hsame⟩ := hoperators operator' hmem ref loaded hloaded hrefKey
          have hdrawn := (h.loaded operator hoperator ref loaded hsame hrefKey).1
          refine ⟨htokens hdrawn, fun task' hmem' hkey' held hheld' heq => ?_⟩
          obtain ⟨j, hj⟩ := List.mem_iff_getElem?.mp hmem'
          obtain ⟨-, rfl⟩ := hholder j task' hj hkey' held hheld'
          rw [← heq, htoken] at hdrawn
          exact hfresh hdrawn
      · exact h.elsewhere hkey (hget (kept key (Ne.symm hkey))) htokens rfl hoperators

theorem KeyInvariant.settle {i : ℕ} {now : ℤ} {task : EngineTask} {subscriber : Subscriber}
    {payload : DispatchPayload} {record : TransactionalSendRecord} {settlement : Settlement}
    {result : Except Thrown SendTransactionalOutput} {document : StoredTransactionalDocument}
    {seen : Except Thrown Unit} {fault : Option (StoreFault Thrown)} (h : KeyInvariant key w)
    (hfound : w.tasks[i]? = some task)
    (hphase : task.phase = .sending subscriber payload (.settling record settlement result))
    (happlied : withFault fault (settlement.apply task.ref.key record.claimToken now) w.document =
      (document, seen))
    (hkept : KeyKept key (w.events ++ [.expired (expiredKeys w.document now)])) :
    KeyInvariant key { w.setTask i task (.completing (.ok subscriber) result) with
      document
      events := w.events ++ [.expired (expiredKeys w.document now)] } := by
  have heffect := settleEffect_of_settlement happlied
  by_cases hkey : task.ref.key = key
  · subst hkey
    refine h.unheld (fun stored hstored => ?_) (fun _ hmem => hmem) (fun task' hmem hkey' => ?_)
      fun operator' hmem ref loaded hloaded _ => ⟨operator', hmem, hloaded⟩
    · obtain ⟨before, hbefore, htoken⟩ := heffect.exists_before hstored
      rw [← htoken]
      exact h.drawn before hbefore
    · obtain ⟨j, hj⟩ := List.mem_iff_getElem?.mp hmem
      rcases getElem?_set_cases hj with ⟨rfl, rfl⟩ | ⟨hne, hold⟩
      · rfl
      · by_contra hheld
        exact hne (h.alone j i task' task hold hfound hkey' rfl hheld (by simp [EngineTask.held, hphase]))
  · refine h.elsewhere hkey (get?_of_kept hkept (by simp) (heffect.kept_of_ne (Ne.symm hkey)))
      (fun _ hmem => hmem) rfl fun operator' hmem ref loaded hloaded _ => ⟨operator', hmem, hloaded⟩

/-- A settlement by an operator keeps the invariant: no task holds the record it
names. -/
theorem KeyInvariant.settleResolution {i : ℕ} {fault : Option (StoreFault Thrown)}
    {operator : Operator} {ref : StepRef} {record : TransactionalSendRecord} {overtaken : Bool}
    {document : StoredTransactionalDocument} {seen : Except Thrown Unit} (h : KeyInvariant key w)
    (hfound : w.operators[i]? = some operator)
    (hphase : operator.phase = .settling ref record overtaken)
    (happlied : withFault fault (EngineWorld.applyResolution operator ref.key record.claimToken)
      w.document = (document, seen))
    (hkept : KeyKept key
      (w.events ++ EngineWorld.resolutionEvents operator ref overtaken w.document)) :
    KeyInvariant key { w.setOperator i operator .finished with
      document
      events := w.events ++ EngineWorld.resolutionEvents operator ref overtaken w.document } := by
  have heffect := settleEffect_of_resolution happlied
  have hget : KeptOrSwept operator.now w.document document key →
      document.get? key = w.document.get? key :=
    get?_of_kept hkept (by simp [EngineWorld.resolutionEvents])
  have hoperators : ∀ operator' ∈ (w.setOperator i operator .finished).operators,
      ∀ (ref : StepRef) (record : TransactionalSendRecord), operator'.held = some (ref, record) →
        ref.key = key → ∃ operator ∈ w.operators, operator.held = some (ref, record) :=
    fun operator' hmem ref record hheld _ =>
      operator_of_setOperator hfound (by simp [Operator.held]) operator' hmem ref record hheld
  have hframe : document.get? key = w.document.get? key → KeyInvariant key
      { w.setOperator i operator .finished with
        document
        events := w.events ++ EngineWorld.resolutionEvents operator ref overtaken w.document } :=
    fun hsame => h.frame hsame (fun _ hmem => hmem)
      (fun _ task' hj hkey _ => ⟨task', hj, hkey, rfl⟩) hoperators
  by_cases hkey : ref.key = key
  · subst hkey
    have hloaded := (h.loaded operator (List.mem_of_getElem? hfound) ref record
      (by simp [Operator.held, hphase]) rfl).2
    have hunheld : ∀ existing, w.document.get? ref.key = some existing →
        existing.claimToken = record.claimToken → ∀ task ∈ w.tasks, task.ref.key = ref.key →
          task.held = none := by
      intro existing hexisting hown task hmem htaskKey
      cases hheld : task.held with
      | none => rfl
      | some held =>
          have htoken := h.token_eq hexisting hmem htaskKey hheld
          exact absurd (htoken.symm.trans hown) (hloaded task hmem htaskKey held hheld)
    have hdrawn : ∀ stored, document.get? ref.key = some stored → stored.claimToken ∈ w.tokens := by
      intro stored hstored
      obtain ⟨before, hbefore, htoken⟩ := heffect.exists_before hstored
      rw [← htoken]
      exact h.drawn before hbefore
    cases heffect with
    | idle kept => exact hframe (hget (kept ref.key))
    | committed found own kept after same settled =>
        exact h.unheld hdrawn (fun _ hmem => hmem) (hunheld _ found own) hoperators
    | released release found own kept gone =>
        exact h.unheld hdrawn (fun _ hmem => hmem) (hunheld _ found own) hoperators
  · exact hframe (hget (heffect.kept_of_ne (Ne.symm hkey)))

variable [MailboxContract] [CaseMapping]

omit [MailboxContract] in
theorem held_afterDispatch {task : EngineTask} {subscriber : Subscriber}
    {payload : DispatchPayload} {record : TransactionalSendRecord} {outcome : Except Thrown Bool} :
    EngineTask.held { task with
      phase := .sending subscriber payload (afterDispatch task.ref.key record outcome) } =
        some record := by
  obtain ⟨settlement, result, hafter⟩ := afterDispatch_eq_settling task.ref.key record outcome
  simp [EngineTask.held, hafter]

omit [CaseMapping] in
theorem held_startPhase (claim : ℕ) (claimed : ClaimedSequenceEnrollment)
    (context : TransactionalContext) :
    EngineTask.held { claim, claimed, context, phase := startPhase claimed } = none := by
  unfold EngineTask.held startPhase
  grind

omit [MailboxContract] in
theorem held_afterSubscriber (task : EngineTask) (payload : DispatchPayload)
    (reply : Except Thrown Subscriber) :
    EngineTask.held { task with phase := afterSubscriber payload reply } = none := by
  unfold EngineTask.held afterSubscriber
  grind

theorem KeyInvariant.step (h : KeyInvariant key w) (hmove : EngineWorld.Moves w action w')
    (hkept : KeyKept key w'.events) : KeyInvariant key w' := by
  have hsameTasks : ∀ (j : ℕ) (task' : EngineTask), w.tasks[j]? = some task' →
      task'.ref.key = key → task'.held ≠ none →
        ∃ task, w.tasks[j]? = some task ∧ task.ref.key = key ∧ task.held = task'.held :=
    fun _ task' hj hkey _ => ⟨task', hj, hkey, rfl⟩
  have hsameOperators : ∀ operator' ∈ w.operators,
      ∀ (ref : StepRef) (record : TransactionalSendRecord), operator'.held = some (ref, record) →
        ref.key = key → ∃ operator ∈ w.operators, operator.held = some (ref, record) :=
    fun operator' hmem _ _ hheld _ => ⟨operator', hmem, hheld⟩
  cases hmove with
  | repository => exact h.frame rfl (fun _ hmem => hmem) hsameTasks hsameOperators
  | @start claim context claimed now _ _ =>
      refine h.frame rfl (fun _ hmem => hmem) (fun j task' hj hkey hheld => ?_) hsameOperators
      rcases getElem?_concat_cases hj with hold | ⟨-, rfl⟩
      · exact ⟨task', hold, hkey, rfl⟩
      · exact absurd (held_startPhase claim claimed context) hheld
  | lookUp found phase _ =>
      exact h.frame rfl (fun _ hmem => hmem)
        (task_of_setTask found (by simp [held_afterSubscriber])) hsameOperators
  | claim found phase fresh _ _ effect _ => exact h.claim found fresh effect hkept
  | dispatch found phase _ =>
      refine h.frame rfl (fun _ hmem => hmem) (task_of_setTask found fun _ => ?_) hsameOperators
      rw [held_afterDispatch, EngineTask.held, phase]
  | settle found phase applied => exact h.settle found phase applied hkept
  | complete found phase _ =>
      exact h.frame rfl (fun _ hmem => hmem) (task_of_setTask found (by simp [EngineTask.held]))
        hsameOperators
  | readNothing _ => exact h.frame rfl (fun _ hmem => hmem) hsameTasks hsameOperators
  | readEnrollment _ =>
      refine h.frame rfl (fun _ hmem => hmem) hsameTasks fun operator' hmem ref record hheld _ => ?_
      rcases List.mem_append.mp hmem with hold | hnew
      · exact ⟨operator', hold, hheld⟩
      · obtain rfl := List.mem_singleton.mp hnew
        simp [Operator.held] at hheld
  | readDefinition found phase _ next =>
      refine h.frame rfl (fun _ hmem => hmem) hsameTasks fun operator' hmem ref record hheld _ => ?_
      refine operator_of_setOperator found (fun _ _ hnow => ?_) operator' hmem ref record hheld
      rcases next with rfl | rfl <;> simp [Operator.held] at hnow
  | loadNothing found phase =>
      refine h.frame rfl (fun _ hmem => hmem) hsameTasks fun operator' hmem ref record hheld _ => ?_
      exact operator_of_setOperator found (by simp [Operator.held]) operator' hmem ref record hheld
  | @loadRecord i operator enrollment definition snapshot record found phase read loaded =>
      obtain ⟨hget, hsettled⟩ := reconcilableRecord_eq_ok loaded
      refine ⟨h.drawn, h.pending, h.alone, fun operator' hmem ref held hheld hkey => ?_⟩
      rcases List.mem_or_eq_of_mem_set hmem with hold | rfl
      · exact h.loaded operator' hold ref held hheld hkey
      · obtain ⟨rfl, rfl⟩ := Prod.mk.inj (Option.some.inj hheld)
        subst hkey
        refine ⟨h.drawn record hget, fun task hmem' hkey' held hheld' => ?_⟩
        simp [h.not_held_of_settled hget hsettled hmem' hkey'] at hheld'
  | resolveRefused found phase _ _ _ _ =>
      refine h.frame rfl (fun _ hmem => hmem) hsameTasks fun operator' hmem ref record hheld _ => ?_
      exact operator_of_setOperator found (by simp [Operator.held]) operator' hmem ref record hheld
  | resolve found phase _ _ _ _ =>
      refine h.frame rfl (fun _ hmem => hmem) hsameTasks fun operator' hmem ref record hheld _ => ?_
      refine operator_of_setOperator found (fun _ _ hnow => ?_) operator' hmem ref record hheld
      obtain ⟨rfl, rfl⟩ := held_afterResolve hnow
      simp [Operator.held, phase]
  | settleResolution found phase applied => exact h.settleResolution found phase applied hkept

end Steps

/-! ## Messages that may have been sent -/

section Sent

variable [CaseMapping]

/-- Was a message with a key dispatched that may have reached Listmonk? A resolution
as not sent, after the event, takes that back. -/
def sentAfter (key : Text) (sent : Bool) : EngineEvent → Bool
  | .dispatched ref outcome => sent || (ref.key = key && !isPreDispatchFailure outcome)
  | .resolved ref .notSent => sent && ref.key ≠ key
  | _ => sent

def mayHaveSent (key : Text) (events : List EngineEvent) : Bool :=
  events.foldl (sentAfter key) false

@[simp]
theorem mayHaveSent_concat (key : Text) (events : List EngineEvent) (event : EngineEvent) :
    mayHaveSent key (events ++ [event]) = sentAfter key (mayHaveSent key events) event := by
  simp [mayHaveSent]

/-- What a message that may have been sent leaves behind until it is resolved as not
sent. -/
structure SentInvariant (key : Text) (w : EngineWorld) : Prop where
  /-- The record is there, and no operator is about to release it. -/
  recorded : mayHaveSent key w.events = true → ∃ record, w.document.get? key = some record ∧
    ∀ operator ∈ w.operators, ∀ ref settled overtaken,
      operator.phase = .settling ref settled overtaken → ref.key = key →
        operator.resolution = .notSent → settled.claimToken ≠ record.claimToken
  /-- No task is about to send, or to release the record. -/
  quiet : mayHaveSent key w.events = true → ∀ task ∈ w.tasks, task.ref.key = key →
    ∀ subscriber payload phase, task.phase = .sending subscriber payload phase →
      (∀ record, phase ≠ .dispatching record) ∧
        ∀ record result, phase ≠ .settling record .release result

/-- A message that may have been sent and no longer counts was resolved as not
sent. -/
theorem resolved_of_mayHaveSent_eq_false {key : Text} {events : List EngineEvent}
    (hquiet : mayHaveSent key events = false) {i : ℕ} {ref : StepRef}
    {outcome : Except Thrown Bool} (hdispatched : events[i]? = some (.dispatched ref outcome))
    (hkey : ref.key = key) (hsent : isPreDispatchFailure outcome = false) :
    ∃ j ref', i < j ∧ events[j]? = some (.resolved ref' .notSent) ∧ ref'.key = key := by
  induction events using List.reverseRecOn with
  | nil => simp at hdispatched
  | append_singleton events event ih =>
      rw [mayHaveSent_concat] at hquiet
      rcases getElem?_concat_cases hdispatched with hold | ⟨rfl, rfl⟩
      · cases hbefore : mayHaveSent key events with
        | false =>
            obtain ⟨j, ref', hij, hj, hkey'⟩ := ih hbefore hold
            exact ⟨j, ref', hij, getElem?_of_extended (List.prefix_append _ _) hj, hkey'⟩
        | true =>
            rw [hbefore] at hquiet
            have hlast : ∃ ref', event = .resolved ref' .notSent ∧ ref'.key = key := by
              unfold sentAfter at hquiet
              split at hquiet
              · simp at hquiet
              · next ref' => exact ⟨ref', rfl, by simpa using hquiet⟩
              · simp at hquiet
            obtain ⟨ref', rfl, hkey'⟩ := hlast
            exact ⟨events.length, ref', (List.getElem?_eq_some_iff.mp hold).1,
              List.getElem?_concat_length, hkey'⟩
      · simp [sentAfter, hkey, hsent] at hquiet

variable {key : Text} {w w' : EngineWorld} {action : EngineAction}

theorem sentInvariant_empty (key : Text) : SentInvariant key ({} : EngineWorld) where
  recorded h := by simp [mayHaveSent] at h
  quiet h := by simp [mayHaveSent] at h

/-- A step that sends nothing, keeps the record under its token, and brings no task
or operator to where it would send or release keeps the invariant. -/
theorem SentInvariant.frame (h : SentInvariant key w)
    (hsent : mayHaveSent key w'.events = true → mayHaveSent key w.events = true)
    (hdocument : ∀ record, w.document.get? key = some record → mayHaveSent key w.events = true →
      ∃ record', w'.document.get? key = some record' ∧ record'.claimToken = record.claimToken)
    (hoperators : mayHaveSent key w'.events = true → ∀ operator' ∈ w'.operators,
      ∀ ref settled overtaken, operator'.phase = .settling ref settled overtaken → ref.key = key →
        operator'.resolution = .notSent → ∃ operator ∈ w.operators, ∃ before,
          operator.phase = .settling ref settled before ∧ operator.resolution = .notSent)
    (htasks : mayHaveSent key w.events = true → ∀ task' ∈ w'.tasks, task'.ref.key = key →
      ∀ subscriber payload phase, task'.phase = .sending subscriber payload phase →
        (∃ task ∈ w.tasks, task.ref.key = key ∧ task.phase = .sending subscriber payload phase) ∨
          phase = .claiming) : SentInvariant key w' where
  recorded hafter := by
    obtain ⟨record, hget, hforeign⟩ := h.recorded (hsent hafter)
    obtain ⟨record', hget', htoken⟩ := hdocument record hget (hsent hafter)
    refine ⟨record', hget', fun operator' hmem ref settled overtaken hphase hkey hresolution => ?_⟩
    obtain ⟨operator, hold, before, hbefore, hsame⟩ :=
      hoperators hafter operator' hmem ref settled overtaken hphase hkey hresolution
    rw [htoken]
    exact hforeign operator hold ref settled before hbefore hkey hsame
  quiet hafter task' hmem hkey subscriber payload phase hphase := by
    rcases htasks (hsent hafter) task' hmem hkey subscriber payload phase hphase with
      ⟨task, hold, hkey', hsame⟩ | rfl
    · exact h.quiet (hsent hafter) task hold hkey' subscriber payload phase hsame
    · exact ⟨by simp, by simp⟩

omit [CaseMapping] in
theorem sending_of_setTask {i : ℕ} {task : EngineTask} {phase : TaskPhase}
    (hmoved : task.ref.key = key → ∀ subscriber payload sending,
      phase = .sending subscriber payload sending → sending = .claiming)
    (task' : EngineTask) (hmem : task' ∈ (w.setTask i task phase).tasks)
    (hkey : task'.ref.key = key) (subscriber : Subscriber) (payload : DispatchPayload)
    (sending : SendPhase) (hphase : task'.phase = .sending subscriber payload sending) :
    (∃ before ∈ w.tasks, before.ref.key = key ∧ before.phase = .sending subscriber payload sending) ∨
      sending = .claiming := by
  rcases List.mem_or_eq_of_mem_set hmem with hold | rfl
  · exact .inl ⟨task', hold, hkey, hphase⟩
  · exact .inr (hmoved hkey subscriber payload sending hphase)

omit [CaseMapping] in
/-- The operators after one of them has moved on, if it is not settling. -/
theorem settling_of_setOperator {i : ℕ} {operator : Operator} {phase : OperatorPhase}
    (hmoved : ∀ ref settled overtaken, phase = .settling ref settled overtaken → ref.key = key →
      operator.resolution ≠ .notSent)
    (operator' : Operator) (hmem : operator' ∈ (w.setOperator i operator phase).operators)
    (ref : StepRef) (settled : TransactionalSendRecord) (overtaken : Bool)
    (hphase : operator'.phase = .settling ref settled overtaken) (hkey : ref.key = key)
    (hresolution : operator'.resolution = .notSent) : ∃ operator ∈ w.operators, ∃ before,
      operator.phase = .settling ref settled before ∧ operator.resolution = .notSent := by
  rcases List.mem_or_eq_of_mem_set hmem with hold | rfl
  · exact ⟨operator', hold, overtaken, hphase, hresolution⟩
  · exact absurd hresolution (hmoved ref settled overtaken hphase hkey)

/-- A dispatch happens only while nothing with the key may have been sent, and
afterwards no other task or operator is about to send or release. -/
theorem SentInvariant.dispatch {i : ℕ} {task : EngineTask}
    {subscriber : Subscriber} {payload : DispatchPayload} {record : TransactionalSendRecord}
    {outcome : Except Thrown Bool} (h : SentInvariant key w) (hkeys : KeyInvariant key w)
    (hfound : w.tasks[i]? = some task)
    (hphase : task.phase = .sending subscriber payload (.dispatching record)) :
    SentInvariant key { w.setTask i task (.sending subscriber payload
        (afterDispatch task.ref.key record outcome)) with
      events := w.events ++ [.dispatched task.ref outcome] } := by
  have hmem := List.mem_of_getElem? hfound
  have hheld : task.held = some record := by simp [EngineTask.held, hphase]
  obtain ⟨settlement, result, hafter⟩ := afterDispatch_eq_settling task.ref.key record outcome
  by_cases hkey : task.ref.key = key
  · subst hkey
    have hquiet : mayHaveSent task.ref.key w.events = false := by
      by_contra hsent
      have hnot := h.quiet (by simpa using hsent) task hmem rfl subscriber payload _ hphase
      exact hnot.1 record rfl
    obtain ⟨stored, hstored, htoken, -⟩ := hkeys.pending task hmem rfl record hheld
    refine ⟨fun _ => ⟨stored, hstored, ?_⟩, fun hsent task' hmem' hkey' => ?_⟩
    · intro operator hoperator ref settled overtaken hsettling hrefKey _ hsame
      obtain ⟨-, hforeign⟩ := hkeys.loaded operator hoperator ref settled
        (by simp [Operator.held, hsettling]) hrefKey
      exact hforeign task hmem rfl record hheld (htoken.symm.trans hsame.symm)
    · have hfailure : isPreDispatchFailure outcome = false := by
        simpa [sentAfter, hquiet] using hsent
      intro subscriber' payload' phase hphase'
      obtain ⟨j, hj⟩ := List.mem_iff_getElem?.mp hmem'
      rcases getElem?_set_cases hj with ⟨rfl, rfl⟩ | ⟨hne, hold⟩
      · rw [hafter] at hphase'
        obtain ⟨rfl, rfl, rfl⟩ := TaskPhase.sending.inj hphase'
        refine ⟨by simp, fun _ _ hrelease => ?_⟩
        obtain ⟨rfl, rfl, rfl⟩ := SendPhase.settling.inj hrelease
        simp [afterDispatch_eq_release hafter] at hfailure
      · have hnone : task'.held = none := by
          by_contra hother
          exact hne (hkeys.alone j i task' task hold hfound hkey' rfl hother (by simp [hheld]))
        constructor
        · rintro held rfl
          simp [EngineTask.held, hphase'] at hnone
        · rintro held result' rfl
          simp [EngineTask.held, hphase'] at hnone
  · refine h.frame (fun hsent => ?_) (fun stored hstored _ => ⟨stored, hstored, rfl⟩)
      (fun _ operator hoperator ref settled overtaken hsettling _ hresolution =>
        ⟨operator, hoperator, overtaken, hsettling, hresolution⟩)
      fun _ => sending_of_setTask fun hsame => absurd hsame hkey
    simpa [sentAfter, hkey] using hsent

variable [MailboxContract]

theorem SentInvariant.step (h : SentInvariant key w) (hkeys : KeyInvariant key w)
    (hmove : EngineWorld.Moves w action w') (hkept : KeyKept key w'.events) :
    SentInvariant key w' := by
  have hsameDocument : ∀ record, w.document.get? key = some record →
      mayHaveSent key w.events = true →
        ∃ record', w.document.get? key = some record' ∧ record'.claimToken = record.claimToken :=
    fun record hget _ => ⟨record, hget, rfl⟩
  have hsameOperators : ∀ operator' ∈ w.operators, ∀ ref settled overtaken,
      operator'.phase = .settling ref settled overtaken → ref.key = key →
        operator'.resolution = .notSent → ∃ operator ∈ w.operators, ∃ before,
          operator.phase = .settling ref settled before ∧ operator.resolution = .notSent :=
    fun operator' hmem _ _ overtaken hphase _ hresolution =>
      ⟨operator', hmem, overtaken, hphase, hresolution⟩
  have hsameTasks : ∀ task' ∈ w.tasks, task'.ref.key = key →
      ∀ subscriber payload phase, task'.phase = .sending subscriber payload phase →
        (∃ task ∈ w.tasks, task.ref.key = key ∧ task.phase = .sending subscriber payload phase) ∨
          phase = .claiming :=
    fun task' hmem hkey _ _ _ hphase => .inl ⟨task', hmem, hkey, hphase⟩
  cases hmove with
  | repository | readNothing =>
      exact h.frame (fun hsent => hsent) hsameDocument (fun _ => hsameOperators)
        fun _ => hsameTasks
  | @start claim context claimed now _ _ =>
      refine h.frame (fun hsent => hsent) hsameDocument (fun _ => hsameOperators)
        fun _ task' hmem hkey subscriber payload phase hphase => ?_
      rcases List.mem_append.mp hmem with hold | hnew
      · exact .inl ⟨task', hold, hkey, hphase⟩
      · obtain rfl := List.mem_singleton.mp hnew
        exfalso
        dsimp only at hphase
        unfold startPhase at hphase
        grind
  | @lookUp i reply task payload found phase _ =>
      refine h.frame (fun hsent => hsent) hsameDocument (fun _ => hsameOperators)
        fun _ => sending_of_setTask fun _ subscriber payload' sending hphase => ?_
      unfold afterSubscriber at hphase
      grind
  | @claim i now token fault task subscriber payload document result found phase fresh _ _ effect
      _ =>
      have hlive : key ∉ expiredKeys w.document now := hkept _ (by simp)
      refine h.frame (fun hsent => by simpa [sentAfter] using hsent) (fun record hget _ => ?_)
        (fun _ operator' hmem ref settled overtaken hphase _ hresolution => ?_)
        fun hsent => sending_of_setTask fun hkey subscriber' payload' sending hphase => ?_
      · cases effect with
        | failed _ kept | replay _ kept _ _ | conflict _ kept _ _ =>
            exact ⟨record, ((kept key).get?_of_not_mem hlive).trans hget, rfl⟩
        | filed filed absent pending kept _ _ =>
            by_cases hkey : key = task.ref.key
            · subst hkey
              have hswept := (get?_sweepExpiredRecords hlive).symm.trans absent
              simp [hget] at hswept
            · exact ⟨record, ((kept key hkey).get?_of_not_mem hlive).trans hget, rfl⟩
      · obtain ⟨operator, hoperator, rfl⟩ := List.mem_map.mp hmem
        have hheld : operator.held = some (ref, settled) := by
          rw [← Operator.held_overtake task.ref.key operator, Operator.held, hphase]
        unfold Operator.overtake at hphase hresolution
        split at hphase
        · next ref' record' overtaken' hbefore =>
            obtain ⟨rfl, rfl, -⟩ := OperatorPhase.settling.inj hphase
            exact ⟨operator, hoperator, overtaken', hbefore, by simpa [hbefore] using hresolution⟩
        · exact ⟨operator, hoperator, overtaken, hphase, by simpa [hphase] using hresolution⟩
      · -- a claim of a key whose record is there does not dispatch
        obtain ⟨record, hget, -⟩ := h.recorded hsent
        subst hkey
        have hnew : ∀ record, result ≠ .ok (.new record) := by
          rintro record' rfl
          cases effect with
          | filed _ absent _ _ _ _ =>
              have hswept := (get?_sweepExpiredRecords hlive).symm.trans absent
              simp [hget] at hswept
        rcases result with error | (record' | record' | existing)
        · simp [afterClaim, ofSendPhase] at hphase
        · exact absurd rfl (hnew record')
        · simp only [afterClaim] at hphase
          split at hphase <;> simp [ofSendPhase] at hphase
        · simp [afterClaim, ofSendPhase] at hphase
  | dispatch found phase _ => exact h.dispatch hkeys found phase
  | @settle i now fault task subscriber payload record settlement result document seen found phase
      applied =>
      have hlive : key ∉ expiredKeys w.document now := hkept _ (by simp)
      refine h.frame (fun hsent => by simpa [sentAfter] using hsent) (fun stored hget hsent => ?_)
        (fun _ => hsameOperators) fun _ => sending_of_setTask (by simp)
      refine (settleEffect_of_settlement applied).token_kept hget hlive ?_
      rintro rfl hkey
      exact absurd rfl ((h.quiet hsent task (List.mem_of_getElem? found) hkey subscriber payload _
        phase).2 record result)
  | complete found phase _ =>
      exact h.frame (fun hsent => hsent) hsameDocument (fun _ => hsameOperators)
        fun _ => sending_of_setTask (by simp)
  | readEnrollment _ =>
      refine h.frame (fun hsent => hsent) hsameDocument
        (fun _ operator' hmem ref settled overtaken hphase hkey hresolution => ?_)
        fun _ => hsameTasks
      rcases List.mem_append.mp hmem with hold | hnew
      · exact ⟨operator', hold, overtaken, hphase, hresolution⟩
      · obtain rfl := List.mem_singleton.mp hnew
        simp at hphase
  | readDefinition found phase _ next =>
      exact h.frame (fun hsent => hsent) hsameDocument
        (fun _ => settling_of_setOperator (by rcases next with rfl | rfl <;> simp))
        fun _ => hsameTasks
  | loadNothing | loadRecord | resolveRefused =>
      exact h.frame (fun hsent => hsent) hsameDocument
        (fun _ => settling_of_setOperator (by simp)) fun _ => hsameTasks
  | @resolve i operator enrollment definition ref record snapshot known repository found phase read
      returned called accepted =>
      refine h.frame (fun hsent => ?_) hsameDocument (fun hsent => settling_of_setOperator
        fun ref' settled overtaken hphase hkey hresolution => ?_) fun _ => hsameTasks
      · cases hresolution : operator.resolution with
        | sent => simpa [hresolution, sentAfter] using hsent
        | notSent =>
            simp only [hresolution, mayHaveSent_concat, sentAfter, Bool.and_eq_true] at hsent
            exact hsent.1
      · unfold EngineWorld.afterResolve at hphase
        simp only [hresolution, reduceCtorEq, false_and, if_false] at hphase
        obtain ⟨rfl, -, -⟩ := OperatorPhase.settling.inj hphase
        simp [hresolution, sentAfter, hkey] at hsent
  | @settleResolution i fault operator ref record overtaken document seen found phase applied =>
      have hlive : key ∉ expiredKeys w.document operator.now :=
        hkept _ (by simp [EngineWorld.resolutionEvents])
      have hsame : mayHaveSent key
          (w.events ++ EngineWorld.resolutionEvents operator ref overtaken w.document) =
            mayHaveSent key w.events := by
        unfold EngineWorld.resolutionEvents mayHaveSent
        rw [List.foldl_append]
        split <;> rfl
      refine h.frame (fun hsent => hsame ▸ hsent) (fun stored hget hsent => ?_)
        (fun _ => settling_of_setOperator (by simp)) fun _ => hsameTasks
      refine (settleEffect_of_resolution applied).token_kept hget hlive fun hresolution hkey => ?_
      obtain ⟨stored', hstored, hforeign⟩ := h.recorded hsent
      obtain rfl := Option.some.inj (hget.symm.trans hstored)
      exact Ne.symm (hforeign operator (List.mem_of_getElem? found) ref record overtaken phase hkey
        hresolution)

/-! ## Dispatches of one step -/

/-- Between a dispatch of a step that may have reached Listmonk and the next one, the
step was resolved as not sent. -/
def Separated (ref : StepRef) (events : List EngineEvent) : Prop :=
  ∀ (i j : ℕ) (outcome outcome' : Except Thrown Bool), i < j →
    events[i]? = some (EngineEvent.dispatched ref outcome) → isPreDispatchFailure outcome = false →
      events[j]? = some (EngineEvent.dispatched ref outcome') →
        ∃ l, i < l ∧ l < j ∧ events[l]? = some (EngineEvent.resolved ref .notSent)

omit [MailboxContract] in
theorem Separated.append {ref : StepRef} {events new : List EngineEvent}
    (h : Separated ref events) (hnew : ∀ outcome, .dispatched ref outcome ∉ new) :
    Separated ref (events ++ new) := by
  intro i j outcome outcome' hij hi hsent hj
  have hbound : j < events.length := by
    by_contra hlate
    rw [List.getElem?_append_right (by omega)] at hj
    exact hnew outcome' (List.mem_of_getElem? hj)
  rw [List.getElem?_append_left hbound] at hj
  rw [List.getElem?_append_left (by omega)] at hi
  obtain ⟨l, hil, hlj, hl⟩ := h i j outcome outcome' hij hi hsent hj
  exact ⟨l, hil, hlj, getElem?_of_extended (List.prefix_append _ _) hl⟩

/-- Dispatches are separated so far, and the records say what was sent. -/
structure OnceInvariant (ref : StepRef) (w : EngineWorld) : Prop where
  keys : KeyInvariant ref.key w
  sent : SentInvariant ref.key w
  linked : Linked w
  separated : Separated ref w.events

theorem onceInvariant_empty (ref : StepRef) : OnceInvariant ref ({} : EngineWorld) where
  keys := keyInvariant_empty ref.key
  sent := sentInvariant_empty ref.key
  linked := linked_empty
  separated := by simp [Separated]

/-- The events of a step: a dispatch, or none that is one. -/
theorem EngineWorld.Moves.events_cases (h : EngineWorld.Moves w action w') :
    (∃ new, w'.events = w.events ++ new ∧ ∀ ref outcome, .dispatched ref outcome ∉ new) ∨
      ∃ task ∈ w.tasks, ∃ subscriber payload record outcome,
        task.phase = .sending subscriber payload (.dispatching record) ∧
          w'.events = w.events ++ [.dispatched task.ref outcome] := by
  cases h with
  | repository | start | lookUp | complete | readNothing | readEnrollment | readDefinition
    | loadNothing | loadRecord | resolveRefused =>
      exact .inl ⟨[], (List.append_nil _).symm, by simp⟩
  | claim | settle => exact .inl ⟨_, rfl, by simp⟩
  | dispatch found phase _ =>
      exact .inr ⟨_, List.mem_of_getElem? found, _, _, _, _, phase, rfl⟩
  | resolve => exact .inl ⟨_, rfl, by simp⟩
  | settleResolution =>
      refine .inl ⟨_, rfl, fun ref outcome => ?_⟩
      unfold EngineWorld.resolutionEvents
      split <;> simp

theorem OnceInvariant.step {ref : StepRef} (h : OnceInvariant ref w)
    (hmove : EngineWorld.Moves w action w') (hkept : KeyKept ref.key w'.events) :
    OnceInvariant ref w' where
  keys := h.keys.step hmove hkept
  sent := h.sent.step h.keys hmove hkept
  linked := h.linked.step hmove
  separated := by
    rcases hmove.events_cases with ⟨new, hevents, hnew⟩ |
      ⟨task, hmem, subscriber, payload, record, outcome, hphase, hevents⟩
    · rw [hevents]
      exact h.separated.append (hnew ref)
    · rw [hevents]
      intro i j before after hij hi hsent hj
      rcases getElem?_concat_cases hj with hold | ⟨rfl, hlast⟩
      · rw [List.getElem?_append_left (by have := (List.getElem?_eq_some_iff.mp hold).1; omega)] at hi
        obtain ⟨l, hil, hlj, hl⟩ := h.separated i j before after hij hi hsent hold
        exact ⟨l, hil, hlj, getElem?_of_extended (List.prefix_append _ _) hl⟩
      · -- the second dispatch is the last event: the first one no longer counts
        obtain ⟨rfl, -⟩ := EngineEvent.dispatched.inj hlast
        rw [List.getElem?_append_left hij] at hi
        have hquiet : mayHaveSent task.ref.key w.events = false := by
          by_contra hcounts
          exact (h.sent.quiet (by simpa using hcounts) task hmem rfl subscriber payload _
            hphase).1 record rfl
        obtain ⟨l, ref', hil, hl, hkey⟩ := resolved_of_mayHaveSent_eq_false hquiet hi rfl hsent
        obtain rfl : ref' = task.ref := StepRef.key_injective
          (h.linked.events _ (List.mem_of_getElem? hl) ref' rfl) (h.linked.isUuid_of_task hmem) hkey
        exact ⟨l, hil, (List.getElem?_eq_some_iff.mp hl).1,
          getElem?_of_extended (List.prefix_append _ _) hl⟩

theorem EngineWorld.Moves.events_extend (h : EngineWorld.Moves w action w') :
    w.events <+: w'.events := by
  rcases h.events_cases with ⟨new, hevents, -⟩ | ⟨task, -, _, _, _, outcome, -, hevents⟩ <;>
    exact hevents ▸ List.prefix_append _ _

/-- In every run that does not lose the record of a step, the invariant holds. -/
theorem onceInvariant_of_run {actions : List EngineAction} {ref : StepRef}
    (hrun : Run EngineWorld.Step {} actions w) (hkept : KeyKept ref.key w.events) :
    OnceInvariant ref w := by
  generalize hstart : ({} : EngineWorld) = start at hrun
  induction hrun with
  | refl => exact hstart ▸ onceInvariant_empty ref
  | snoc before last ih =>
      have hmove := EngineWorld.moves_of_step last
      exact (ih (fun keys hmem => hkept keys (hmove.events_extend.subset hmem))).step hmove hkept

/-- Sends are at most once. In every run of any number of workers and operators,
crashes, expired leases and passing time included, in which the record of a step is
not found expired: after a dispatch of the step that Listmonk acknowledged, or that
is not proven to have failed before it left, the step is not dispatched again unless
an operator resolved it as not sent in between. -/
theorem dispatch_atMostOnce {actions : List EngineAction} {ref : StepRef}
    (hrun : Run EngineWorld.Step {} actions w) (hkept : KeyKept ref.key w.events)
    {i j : ℕ} {outcome outcome' : Except Thrown Bool} (hij : i < j)
    (hi : w.events[i]? = some (.dispatched ref outcome))
    (hsent : isPreDispatchFailure outcome = false)
    (hj : w.events[j]? = some (.dispatched ref outcome')) :
    ∃ l, i < l ∧ l < j ∧ w.events[l]? = some (.resolved ref .notSent) :=
  (onceInvariant_of_run hrun hkept).separated i j outcome outcome' hij hi hsent hj

end Sent

def welcomeRef : StepRef := ⟨sampleEnrollmentId, 1, welcomeStep.id⟩

/-- A worker without a target of its own. -/
def sampleContext : TransactionalContext where
  hashPayload _ := "digest"

/-- The sample enrollment is created and claimed, and a worker starts on it. -/
def claimedTask : List EngineAction :=
  [.repository (.createDefinition sampleDefinition [] 0),
    .repository (.createEnrollment 0 { id := some sampleEnrollmentId, subscriberId := 7 } [] 0),
    .repository (.claimDue
      { limit := 10, now := 1000, leaseMs := 90000, newLeaseToken := fun _ => sampleLeaseToken }),
    .start 0 sampleContext,
    .lookUp 0 (.ok {}),
    .claim 0 1000 "first" none]

/-- The token of a later lease. -/
def laterLeaseToken : Text := "44444444-4444-4444-8444-444444444444"

/-- Another worker claims it again and dispatches. -/
def reclaimedTask (now : ℤ) : List EngineAction :=
  [.repository (.claimDue
      { limit := 10, now, leaseMs := 90000, newLeaseToken := fun _ => laterLeaseToken }),
    .start 1 sampleContext,
    .lookUp 1 (.ok {}),
    .claim 1 now "second" none,
    .dispatch 1 (.responded (some (.bool true)) none none)]

/-- The error of a connection that broke after the request had left. -/
def lostReply : Thrown where
  message := "socket hang up"
  code := some "ECONNRESET"

/-- The response to the first message is lost, and an operator resolves the step as
not sent. -/
def resolvedAsNotSent : List EngineAction :=
  claimedTask ++
    [.dispatch 0 (.rejected lostReply),
      .settle 0 1500 none,
      .complete 0 none,
      .readEnrollment sampleEnrollmentId .notSent 5000,
      .readDefinition 0,
      .loadRecord 0,
      .resolve 0,
      .settleResolution 0 none] ++
    reclaimedTask 10000

theorem dispatch_atMostOnce_resolvedAsNotSent :
    letI := plainMailboxContract
    letI := asciiCaseMapping
    ∃ w, Run EngineWorld.Step {} resolvedAsNotSent w ∧
      ∃ l, 1 < l ∧ l < 6 ∧ w.events[l]? = some (.resolved welcomeRef .notSent) := by
  let := plainMailboxContract
  let := asciiCaseMapping
  have hsample : (resolvedAsNotSent.foldlM EngineWorld.step {}).map (fun w =>
      (w.events[1]?, w.events[6]?, decide (KeyKept welcomeRef.key w.events))) =
        some (some (.dispatched welcomeRef (.error lostReply)),
          some (.dispatched welcomeRef (.ok true)), true) := by decide +kernel
  obtain ⟨w, hw, hevents⟩ := Option.map_eq_some_iff.mp hsample
  obtain ⟨hfirst, hevents⟩ := Prod.mk.inj hevents
  obtain ⟨hsecond, hkept⟩ := Prod.mk.inj hevents
  have hrun : Run EngineWorld.Step {} resolvedAsNotSent w := Run.of_foldlM hw
  exact ⟨w, hrun, dispatch_atMostOnce hrun (of_decide_eq_true hkept) (by decide) hfirst (by decide)
    hsecond⟩

/-- The first worker sends the message and stops; the enrollment is claimed again
when its record has expired. -/
def reclaimedAfterExpiry : List EngineAction :=
  claimedTask ++
    [.dispatch 0 (.responded (some (.bool true)) none none), .settle 0 1500 none] ++
    reclaimedTask 90000000

/-- An expired record lets a step be sent twice, without an operator. -/
theorem dispatch_twice_reclaimedAfterExpiry :
    letI := plainMailboxContract
    letI := asciiCaseMapping
    ∃ w, Run EngineWorld.Step {} reclaimedAfterExpiry w ∧
      w.events[1]? = some (.dispatched welcomeRef (.ok true)) ∧
      w.events[4]? = some (.dispatched welcomeRef (.ok true)) ∧
      ∀ event ∈ w.events, event ≠ .resolved welcomeRef .notSent := by
  let := plainMailboxContract
  let := asciiCaseMapping
  have hsample : (reclaimedAfterExpiry.foldlM EngineWorld.step {}).map (fun w =>
      (w.events[1]?, w.events[4]?,
        decide (∀ event ∈ w.events, event ≠ .resolved welcomeRef .notSent))) =
        some (some (.dispatched welcomeRef (.ok true)),
          some (.dispatched welcomeRef (.ok true)), true) := by decide
  obtain ⟨w, hw, hevents⟩ := Option.map_eq_some_iff.mp hsample
  obtain ⟨hfirst, hevents⟩ := Prod.mk.inj hevents
  obtain ⟨hsecond, hunresolved⟩ := Prod.mk.inj hevents
  exact ⟨w, Run.of_foldlM hw, hfirst, hsecond, of_decide_eq_true hunresolved⟩

end ListmonkOps.Sequence
