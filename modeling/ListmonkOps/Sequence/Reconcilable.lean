/-
Ambiguous enrollments can be resolved.

An enrollment becomes ambiguous when the fate of its message is unknown, and
leaves that state when an operator tells what became of it. The repository
holds the enrollment and the idempotency store the record of the message; a
tick and an operator update one after the other. The invariant here says what
lies between: while a claim of a step is live, no operator who still has to
release the record of that step can do harm, because the claim has not come to
the record yet.
-/

import ListmonkOps.Sequence.AtMostOnce

namespace ListmonkOps.Sequence

open ListmonkOps.Math ListmonkOps.Runtime ListmonkOps.Transactional

/-! ## Enrollments that become ambiguous -/

/-- Does an error of the sender leave the enrollment ambiguous? -/
def leavesAmbiguous (error : Thrown) : Bool :=
  match error.kind with
  | .reconcile _ .pending => false
  | .reconcile _ _ => true
  | _ => false

theorem leavesAmbiguous_eq_false {error : Thrown} (h : error.isForeign = true) :
    leavesAmbiguous error = false := by
  unfold leavesAmbiguous
  unfold Thrown.isForeign at h
  split <;> simp_all

section Ambiguous

variable {claimed : ClaimedSequenceEnrollment} {enrollment : SequenceEnrollment}
  {next : UnleasedEnrollment} {now : ℤ}

/-- A record that is not ambiguous, or an error that is not one of the sender. -/
abbrev Unambiguous (x : Except Thrown UnleasedEnrollment) : Prop :=
  Yields x (fun next => next.val.status ≠ .ambiguous) (fun error => error.isForeign = true)

theorem isoString_yields (time : ℤ) :
    Yields (isoString time) (fun _ => True) (fun error => error.isForeign = true) := by
  unfold isoString
  split
  · trivial
  · rfl

theorem nextStep_yields (revision : SequenceRevision) (id : StepId) :
    Yields (nextStep revision id) (fun _ => True) (fun error => error.isForeign = true) := by
  unfold nextStep
  split
  · rfl
  · trivial

theorem withoutLease_unambiguous (enrollment : SequenceEnrollment) {changes : EnrollmentChanges}
    (now : ℤ) (hstatus : changes.status ≠ .ambiguous) :
    Unambiguous (withoutLease enrollment changes now) :=
  (isoString_yields now).bind fun _ _ => hstatus

theorem transitionToNext_unambiguous (claimed : ClaimedSequenceEnrollment) (now : ℤ) :
    Unambiguous (transitionToNext claimed now) := by
  refine (nextStep_yields _ _).bind fun following _ => ?_
  cases following with
  | none => exact withoutLease_unambiguous _ _ (by simp [completed])
  | some step =>
      exact (isoString_yields now).bind fun _ _ =>
        withoutLease_unambiguous _ _ (by simp [advanceTo])

theorem retryEnrollment_unambiguous (enrollment : SequenceEnrollment) (now : ℤ) (error : Thrown)
    (jitter : Option ℚ) : Unambiguous (retryEnrollment enrollment now error jitter) := by
  unfold retryEnrollment
  dsimp only
  split
  · exact withoutLease_unambiguous _ _ (by simp)
  · exact (isoString_yields _).bind fun _ _ => withoutLease_unambiguous _ _ (by simp)

variable [CaseMapping]

theorem leavesAmbiguous_of_catchSendError {error : Thrown} {jitter : Option ℚ}
    (h : catchSendError enrollment now jitter error = .ok next)
    (hambiguous : next.val.status = .ambiguous) : leavesAmbiguous error = true := by
  have hnot : ∀ {x}, Unambiguous x → x ≠ .ok next := by
    rintro x hx rfl
    exact hx hambiguous
  unfold catchSendError at h
  split at h
  · exact absurd h (hnot (retryEnrollment_unambiguous ..))
  · next key status hstatus hkind =>
      cases status with
      | pending => exact absurd rfl hstatus
      | accepted | failed | unknown => simp [leavesAmbiguous, hkind]
  · split at h
    · exact absurd h (hnot (withoutLease_unambiguous _ _ (by simp [ended])))
    · split at h
      · exact absurd h (hnot (retryEnrollment_unambiguous ..))
      · exact absurd h (hnot (withoutLease_unambiguous _ _ (by simp [ended])))

variable [MailboxContract]

/-- What the body of a send step throws is an error of the lookup, of the send, or
of the engine. -/
theorem executeSendStep_eq_catching (claimed : ClaimedSequenceEnrollment)
    (step : SequenceSendStep) (now : ℤ) (lookup : Except Thrown Subscriber)
    (result : Except Thrown SendTransactionalOutput) (jitter : Option ℚ) :
    ∃ body, executeSendStep claimed step now lookup result jitter =
        catching claimed.enrollment now jitter body ∧
      Yields body (fun next => next.val.status ≠ .ambiguous)
        (fun error => error.isForeign = true ∨ lookup = .error error ∨ result = .error error) := by
  refine ⟨_, rfl, ?_⟩
  have hforeign : ∀ {x}, Unambiguous x → Yields x (fun next => next.val.status ≠ .ambiguous)
      (fun error => error.isForeign = true ∨ lookup = .error error ∨ result = .error error) :=
    fun hx => hx.mono (fun _ h => h) fun _ h => .inl h
  split
  · exact hforeign (withoutLease_unambiguous _ _ (by simp [ended]))
  · have hlookup : Yields (afterLookup claimed.enrollment now lookup)
        (fun decided => ∀ next ∈ decided, next.val.status ≠ .ambiguous)
        (fun error => error.isForeign = true ∨ lookup = .error error ∨ result = .error error) := by
      cases lookup with
      | error error => exact .inr (.inl rfl)
      | ok subscriber =>
          unfold afterLookup
          rw [except_ok_bind]
          split
          · refine (hforeign (withoutLease_unambiguous _ _ (by simp [ended]))).bind
              fun next hnext => ?_
            rintro other hother
            obtain rfl := Option.some.inj hother
            exact hnext
          · rintro other hother
            simp at hother
    refine hlookup.bind fun decided hdecided => ?_
    cases decided with
    | some next => exact hdecided next rfl
    | none =>
        cases result with
        | error error => exact .inr (.inr rfl)
        | ok output =>
            simp only [afterSend, except_ok_bind]
            split
            · exact hforeign (withoutLease_unambiguous _ _ (by simp [ended]))
            · exact hforeign (transitionToNext_unambiguous claimed now)

/-- An enrollment becomes ambiguous through an error of its send, or of the lookup. -/
theorem leavesAmbiguous_of_executeClaimedEnrollment {lookup : Except Thrown Subscriber}
    {result : Except Thrown SendTransactionalOutput} {jitter : Option ℚ}
    (h : executeClaimedEnrollment claimed now lookup result jitter = .ok next)
    (hambiguous : next.val.status = .ambiguous) :
    ∃ error, (lookup = .error error ∨ result = .error error) ∧ leavesAmbiguous error = true := by
  have hnot : ∀ {x}, Unambiguous x → x ≠ .ok next := by
    rintro x hx rfl
    exact hx hambiguous
  unfold executeClaimedEnrollment at h
  split at h
  · exact absurd h (hnot (withoutLease_unambiguous _ _ (by simp [ended])))
  · next step _ =>
      obtain ⟨body, hbody, hyields⟩ :=
        executeSendStep_eq_catching claimed step now lookup result jitter
      rw [hbody] at h
      cases body with
      | ok sent =>
          obtain rfl := Except.ok.inj h
          exact absurd hambiguous hyields
      | error error =>
          have hleaves := leavesAmbiguous_of_catchSendError h hambiguous
          rcases hyields with hforeign | hasked
          · simp [leavesAmbiguous_eq_false hforeign] at hleaves
          · exact ⟨error, hasked, hleaves⟩
  · refine absurd h (hnot ((nextStep_yields _ _).bind fun following _ => ?_))
    cases following with
    | none => exact withoutLease_unambiguous _ _ (by simp [completed])
    | some step =>
        exact (isoString_yields _).bind fun _ _ =>
          withoutLease_unambiguous _ _ (by simp [advanceTo])
  · refine absurd h (hnot ((nextStep_yields _ _).bind fun following _ => ?_))
    cases following with
    | none => exact withoutLease_unambiguous _ _ (by simp [completed])
    | some step =>
        refine (isoString_yields _).bind fun _ _ => withoutLease_unambiguous _ _ ?_
        simp only [advanceTo]
        split <;> simp
  · refine absurd h (hnot ?_)
    exact (isoString_yields _).bind fun _ _ => withoutLease_unambiguous _ _ (by simp [advanceTo])
  · exact absurd h (hnot (withoutLease_unambiguous _ _ (by simp [completed])))

end Ambiguous

/-! ## Live claims -/

section Repository

variable [MailboxContract] [CaseMapping] {r r' : RecordedWorld} {action : RepositoryAction}

theorem RecordedInvariant.leased_step (h : RecordedInvariant r) (hstep : r.Step action r')
    (hleased : ∀ entry ∈ r.world.claims, entry.1.enrollment.leaseToken ≠ none) :
    ∀ entry ∈ r'.world.claims, entry.1.enrollment.leaseToken ≠ none := by
  intro entry hentry
  rcases RecordedWorld.claims_of_step hstep hentry with hold | ⟨entries, hevents, hnew⟩
  · exact hleased entry hold
  · have hlive : entry.1.enrollment ∈ liveClaims r'.events := by
      rw [hevents, liveClaims_snoc, mem_liveAfterEvent]
      exact .inr ⟨entries, rfl, List.mem_map_of_mem hnew⟩
    exact (((h.step hstep).1.fencing.leased _).mp hlive).2

/-- A claimed record that is in the document after a step was there before it. -/
theorem RecordedInvariant.live_before (h : RecordedInvariant r) (hstep : r.Step action r')
    (hdistinct : (r'.events.flatMap drawnTokens).Nodup) {entry : ClaimedSequenceEnrollment × ℤ}
    (hentry : entry ∈ r.world.claims) (hleased : entry.1.enrollment.leaseToken ≠ none)
    (hlive : entry.1.enrollment ∈ r'.world.store.enrollments) :
    entry.1.enrollment ∈ r.world.store.enrollments := by
  obtain ⟨entries, hgranted, hin⟩ := h.granted entry hentry
  obtain ⟨i, hi⟩ := List.mem_iff_getElem?.mp hgranted
  have hextended := RecordedWorld.events_extend hstep
  obtain ⟨-, huntouched⟩ := (h.step hstep).1.fencing.eq_claim_of_token hdistinct
    (getElem?_of_extended hextended hi) hin hlive hleased rfl
  obtain ⟨later, hlater⟩ := hextended
  have hbefore : Untouched entry.1.enrollment (r.events.drop (i + 1)) := by
    intro event hevent
    refine huntouched event ?_
    rw [← hlater, List.drop_append_of_le_length (by have := (List.getElem?_eq_some_iff.mp hi).1; omega)]
    exact List.mem_append_left _ hevent
  exact ((h.fencing.leased _).mp (mem_liveClaims_of_untouched hi hin hbefore)).1

/-- An enrollment that is ambiguous after a step was so before, or a claim of its
step, still live, was completed with an error that leaves it so. -/
theorem RecordedInvariant.ambiguous_before (h : RecordedInvariant r) (hstep : r.Step action r')
    (hdistinct : (r.events.flatMap drawnTokens).Nodup) {enrollment : SequenceEnrollment}
    (hmem : enrollment ∈ r'.world.store.enrollments) (hambiguous : enrollment.status = .ambiguous) :
    (∃ before ∈ r.world.store.enrollments, before.status = .ambiguous ∧
        before.stepRef = enrollment.stepRef) ∨
      ∃ claim lookup result jitter claimed now, action = .completeClaim claim lookup result jitter ∧
        r.world.claims[claim]? = some (claimed, now) ∧
        claimed.enrollment ∈ r.world.store.enrollments ∧
        claimed.enrollment.stepRef = enrollment.stepRef ∧
        ∃ error, (lookup = .error error ∨ result = .error error) ∧ leavesAmbiguous error = true := by
  cases hcall : r.world.call action with
  | none =>
      obtain ⟨-, -, hstore⟩ := RecordedWorld.step_of_no_call hstep hcall
      exact .inl ⟨enrollment, hstore ▸ hmem, hambiguous, rfl⟩
  | some call =>
      obtain ⟨hworldStep, event, -, hperform⟩ := RecordedWorld.step_of_call hstep hcall
      obtain ⟨hworld, hstable⟩ := h.world.step hworldStep
      cases h.world.store.origin (h.world.admissible hcall) hperform hmem with
      | @continued _ _ before _ hold hcontinues _ =>
          refine .inl ⟨before, hold, ?_, ?_⟩
          · have hhalted : isHalted before.status = true := by
              rw [← hcontinues.halted, hambiguous]
              rfl
            have hactive : ¬ enrollmentIsTerminal before.status = true := by
              intro hterminal
              rcases hstable.terminal before hold hterminal with hdeleted | hkept
              · obtain ⟨definition, hdefinition, hid, -⟩ := hworld.store.positioned enrollment hmem
                refine hworld.definitionsAlive definition hdefinition ?_
                rw [hid, hcontinues.identity.sequenceId]
                exact hdeleted
              · obtain rfl := List.inj_on_of_nodup_map hworld.store.enrollmentIds hkept hmem
                  hcontinues.identity.id.symm
                simp [hambiguous, enrollmentIsTerminal] at hterminal
            simpa [isHalted, hactive] using hhalted
          · simp [SequenceEnrollment.stepRef, hcontinues.identity.id, hcontinues.identity.revision,
              hcontinues.step]
      | created => simp [(RepositoryWorld.created_of_call hcall).1] at hambiguous
      | resolved =>
          rcases (h.world.resolved_of_call hcall).2 with hstatus | hstatus <;>
            simp [hstatus] at hambiguous
      | @completed _ next =>
          obtain ⟨claim, claimed, now, lookup, result, jitter, rfl, hclaim, rfl, hexecute⟩ :=
            RepositoryWorld.claim_of_completed hcall
          obtain ⟨hfits, -⟩ := h.world.claims _ (List.mem_of_getElem? hclaim)
          obtain ⟨entries, hgranted, hin⟩ := h.granted _ (List.mem_of_getElem? hclaim)
          obtain ⟨i, hi⟩ := List.mem_iff_getElem?.mp hgranted
          obtain ⟨_, result', hsame, hcomplete⟩ := completeClaim_of_completed hperform
          obtain ⟨-, rfl⟩ := RepositoryCall.completeClaim.inj hsame
          obtain ⟨stored, hfound, hleased, htoken, -⟩ :=
            completeClaim_eq_ok h.fencing.stored hcomplete
          obtain ⟨hstored, -⟩ := h.world.store.find?_enrollment.mp hfound
          obtain ⟨rfl, -⟩ := h.fencing.eq_claim_of_token hdistinct hi hin hstored hleased htoken
          obtain ⟨hidentity, hprogress⟩ :=
            executeClaimedEnrollment_eq_ok (hfits.stored.wellOrdered hfits.revision) hexecute
          refine .inr ⟨claim, lookup, result, jitter, claimed, now, rfl, hclaim, hstored, ?_,
            leavesAmbiguous_of_executeClaimedEnrollment hexecute hambiguous⟩
          have hsameStep : next.val.currentStepId = claimed.enrollment.currentStepId := by
            cases hprogress with
            | ended terminal same => exact same
            | ambiguous status same onSend => exact same
            | later status position fresh =>
                rcases status with hstatus | hstatus <;> simp [hambiguous] at hstatus
            | retry status same counted below => exact same
          simp [SequenceEnrollment.stepRef, hidentity.id, hidentity.revision, hsameStep]

end Repository

/-! ## Claims that know the fate of their message -/

/-- Is the record of a claim still in the document? -/
def EngineTask.Live (store : SequenceStore) (task : EngineTask) : Prop :=
  task.claimed.enrollment ∈ store.enrollments

/-- Is a task about to leave its enrollment ambiguous? -/
def EngineTask.reported (task : EngineTask) : Bool :=
  match task.phase with
  | .completing _ (.error error) => leavesAmbiguous error
  | _ => false

/-- The record of a key says what became of its message, or that nobody knows. -/
def Settled (key : Text) (document : StoredTransactionalDocument) : Prop :=
  ∃ record, document.get? key = some record ∧ record.status ≠ .pending

/-- Is an operator about to release the record of a key, and not overtaken? -/
def Operator.releases (key : Text) (operator : Operator) : Bool :=
  match operator.phase with
  | .settling ref _ overtaken => ref.key = key && !overtaken && operator.resolution = .notSent
  | _ => false

/-- The steps of a world without file system errors, with a clock that shows a
four-digit year. -/
def EngineAction.regular : EngineAction → Bool
  | .claim _ _ _ fault => fault.isNone
  | .settle _ now fault => fault.isNone && hasFourDigitYear now
  | .settleResolution _ fault => fault.isNone
  | _ => true

/-- Answers are errors of where they come from; a result of a send that leaves the
enrollment ambiguous comes with a commit that says so. -/
def TaskPhase.Sound : TaskPhase → Prop
  | .completing lookup _ => foreignLookup lookup = true
  | .sending _ _ (.settling _ settlement (.error error)) =>
      leavesAmbiguous error = true → ∃ message, settlement = .commit .unknown none message
  | _ => True

section Reconcilable

variable [MailboxContract] [CaseMapping]

/-- What holds of every regular run: claims are granted, documents parse, answers
come from where they should. -/
structure RegularInvariant (key : Text) (w : EngineWorld) : Prop where
  keys : KeyInvariant key w
  linked : Linked w
  recorded : RecordedInvariant w.repository
  leased : ∀ entry ∈ w.repository.world.claims, entry.1.enrollment.leaseToken ≠ none
  parses : parseStoredTransactionalDocument w.document = .ok w.document
  sound : ∀ task ∈ w.tasks, task.phase.Sound

/-- What keeps the ambiguous enrollments of one key reconcilable: their record is settled, and
nobody is about to release it. -/
structure ReconcileInvariant (key : Text) (w : EngineWorld) : Prop
    extends RegularInvariant key w where
  /-- While an operator is about to release, no live claim has come to the record. -/
  undisturbed : ∀ operator ∈ w.operators, operator.releases key = true → ∀ task ∈ w.tasks,
    task.ref.key = key → task.Live w.store → task.held = none ∧ task.reported = false
  /-- A live claim that leaves its enrollment ambiguous has a settled record. -/
  settled : ∀ task ∈ w.tasks, task.ref.key = key → task.Live w.store → task.reported = true →
    Settled key w.document
  /-- So does an enrollment that is ambiguous, and nobody is about to release it. -/
  ambiguous : ∀ enrollment ∈ w.store.enrollments, enrollment.status = .ambiguous →
    enrollment.stepRef.key = key → Settled key w.document ∧
      ∀ operator ∈ w.operators, operator.releases key = false

variable {key : Text} {w w' : EngineWorld} {action : EngineAction}

theorem reconcileInvariant_empty (key : Text) : ReconcileInvariant key ({} : EngineWorld) where
  keys := keyInvariant_empty key
  linked := linked_empty
  recorded := recordedInvariant_empty
  leased := by simp
  parses := rfl
  sound := by simp
  undisturbed := by simp
  settled := by simp
  ambiguous := by simp

/-- A step keeps the invariant when claims come to the record only while nobody is
about to release it, report only what is settled, nobody new is about to release,
and the record stays settled unless an operator releases it. -/
theorem ReconcileInvariant.frame (h : ReconcileInvariant key w) (hregular : RegularInvariant key w')
    (hlive : ∀ task ∈ w.tasks, task.Live w'.store → task.Live w.store)
    (htasks : ∀ task' ∈ w'.tasks, task'.ref.key = key →
      (task'.held = none ∧ task'.reported = false) ∨
      ∃ task ∈ w.tasks, task.ref.key = key ∧ task.claimed = task'.claimed ∧
        ((task.held ≠ none ∨ task.reported = true) ∨
          ∀ operator' ∈ w'.operators, operator'.releases key = false) ∧
        (task'.reported = true → task.reported = true ∨ Settled key w'.document))
    (hoperators : ∀ operator' ∈ w'.operators, operator'.releases key = true →
      ∃ operator ∈ w.operators, operator.releases key = true)
    (hdocument : Settled key w.document → Settled key w'.document ∨
      ∃ operator ∈ w.operators, operator.releases key = true)
    (henrollments : ∀ enrollment ∈ w'.store.enrollments, enrollment.status = .ambiguous →
      enrollment.stepRef.key = key →
        (∃ before ∈ w.store.enrollments, before.status = .ambiguous ∧ before.stepRef.key = key) ∨
          ∃ task ∈ w.tasks, task.ref.key = key ∧ task.Live w.store ∧ task.reported = true) :
    ReconcileInvariant key w' where
  toRegularInvariant := hregular
  undisturbed operator' hoperator' hreleases task' hmem hkey hlive' := by
    rcases htasks task' hmem hkey with hidle | ⟨task, hold, hkey', hsame, hengaged | hnone, -⟩
    · exact hidle
    · obtain ⟨operator, hoperator, hbefore⟩ := hoperators operator' hoperator' hreleases
      have hliveBefore := hlive task hold (by rwa [EngineTask.Live, hsame])
      obtain ⟨hheld, hreported⟩ := h.undisturbed operator hoperator hbefore task hold hkey' hliveBefore
      simp [hheld, hreported] at hengaged
    · simp [hnone operator' hoperator'] at hreleases
  settled task' hmem hkey hlive' hreported := by
    rcases htasks task' hmem hkey with ⟨-, hnot⟩ | ⟨task, hold, hkey', hsame, -, hreport⟩
    · simp [hnot] at hreported
    · rcases hreport hreported with hbefore | hsettled
      · have hliveBefore := hlive task hold (by rwa [EngineTask.Live, hsame])
        rcases hdocument (h.settled task hold hkey' hliveBefore hbefore) with
          hsettled | ⟨operator, hoperator, hreleases⟩
        · exact hsettled
        · have hnot := (h.undisturbed operator hoperator hreleases task hold hkey' hliveBefore).2
          simp [hbefore] at hnot
      · exact hsettled
  ambiguous enrollment hmem hambiguous hkey := by
    have hbefore : Settled key w.document ∧ ∀ operator ∈ w.operators, operator.releases key = false := by
      rcases henrollments enrollment hmem hambiguous hkey with
        ⟨before, hold, hstatus, hkey'⟩ | ⟨task, hold, hkey', hlive', hreported⟩
      · exact h.ambiguous before hold hstatus hkey'
      · refine ⟨h.settled task hold hkey' hlive' hreported, fun operator hoperator => ?_⟩
        by_contra hreleases
        have hnot := (h.undisturbed operator hoperator (by simpa using hreleases) task hold hkey'
          hlive').2
        simp [hreported] at hnot
    constructor
    · rcases hdocument hbefore.1 with hsettled | ⟨operator, hoperator, hreleases⟩
      · exact hsettled
      · simp [hbefore.2 operator hoperator] at hreleases
    · intro operator' hoperator'
      by_contra hreleases
      obtain ⟨operator, hoperator, hreleases'⟩ :=
        hoperators operator' hoperator' (by simpa using hreleases)
      simp [hbefore.2 operator hoperator] at hreleases'

/-! ## Regular steps -/

omit [MailboxContract] in
theorem sound_afterDispatch {subscriber : Subscriber} {payload : DispatchPayload} {key : Text}
    {record : TransactionalSendRecord} {reply : ClientReply} (hforeign : foreignReply reply = true) :
    TaskPhase.Sound (.sending subscriber payload
      (afterDispatch key record (dispatchToListmonk reply))) := by
  cases houtcome : dispatchToListmonk reply with
  | ok sent => simp [afterDispatch, TaskPhase.Sound]
  | error error =>
      by_cases hdefinitive : isDefinitivePreDispatchError error = true
      · have herror : error.isForeign = true := by
          cases reply with
          | rejected thrown =>
              obtain rfl := Except.error.inj houtcome
              exact hforeign
          | responded data failure status =>
              unfold dispatchToListmonk at houtcome
              grind [transactionalDispatchError, Thrown.isForeign]
        simp [afterDispatch, hdefinitive, TaskPhase.Sound, leavesAmbiguous_eq_false herror]
      · simp [afterDispatch, hdefinitive, TaskPhase.Sound]

theorem sound_step (h : ∀ task ∈ w.tasks, task.phase.Sound)
    (hmove : EngineWorld.Moves w action w') : ∀ task' ∈ w'.tasks, task'.phase.Sound := by
  have hset : ∀ {i : ℕ} {task : EngineTask} {phase : TaskPhase}, phase.Sound →
      ∀ task' ∈ w.tasks.set i { task with phase }, task'.phase.Sound := by
    intro i task phase hphase task' hmem
    rcases List.mem_or_eq_of_mem_set hmem with hold | rfl
    · exact h task' hold
    · exact hphase
  cases hmove with
  | repository | readNothing | readEnrollment | readDefinition | loadNothing | loadRecord
    | resolveRefused | resolve | settleResolution => exact h
  | @start claim context claimed now _ _ =>
      intro task' hmem
      rcases List.mem_append.mp hmem with hold | hnew
      · exact h task' hold
      · obtain rfl := List.mem_singleton.mp hnew
        dsimp only
        unfold startPhase
        split
        · split
          · trivial
          · rfl
        · rfl
  | @lookUp i reply task payload _ _ hforeign =>
      refine hset ?_
      unfold afterSubscriber
      split
      · exact hforeign
      · split
        · rfl
        · trivial
  | @claim i now token fault task subscriber payload document result _ _ _ _ _ _ _ =>
      refine hset ?_
      unfold afterClaim
      split
      · rfl
      · rfl
      · split <;> rfl
      · trivial
  | dispatch _ _ hforeign => exact hset (sound_afterDispatch hforeign)
  | settle => exact hset rfl
  | complete => exact hset trivial

theorem parses_step (h : parseStoredTransactionalDocument w.document = .ok w.document)
    (hmove : EngineWorld.Moves w action w') :
    parseStoredTransactionalDocument w'.document = .ok w'.document := by
  have hexec : ∀ {fault ρ} {update : StoredTransactionalDocument → Except Thrown
      (StoredTransactionalDocument × ρ)} {document seen},
      withFault fault (createTransactionalStore.exec update) w.document = (document, seen) →
        parseStoredTransactionalDocument document = .ok document := by
    intro fault ρ update document seen hcall
    have hparse : parseStoredTransactionalDocument
        (withFault fault (createTransactionalStore.exec update) w.document).1 = .ok _ :=
      parse_withFault_exec h
    rwa [hcall] at hparse
  cases hmove with
  | repository | start | lookUp | dispatch | complete | readNothing | readEnrollment
    | readDefinition | loadNothing | loadRecord | resolveRefused | resolve => exact h
  | claim _ _ _ _ called _ _ => exact hexec called
  | @settle i now fault task subscriber payload record settlement result document seen _ _ applied =>
      cases settlement with
      | release => exact hexec applied
      | commit status sent errorMessage => exact hexec applied
  | @settleResolution i fault operator ref record overtaken document seen _ _ applied =>
      unfold EngineWorld.applyResolution at applied
      cases hresolution : operator.resolution with
      | sent =>
          simp only [hresolution] at applied
          exact hexec applied
      | notSent =>
          simp only [hresolution] at applied
          exact hexec applied

theorem RegularInvariant.step (h : RegularInvariant key w) (hmove : EngineWorld.Moves w action w')
    (hkept : KeyKept key w'.events) : RegularInvariant key w' where
  keys := h.keys.step hmove hkept
  linked := h.linked.step hmove
  recorded := by
    rcases hmove.repository_cases with hsame | ⟨called, hstep⟩
    · exact hsame ▸ h.recorded
    · exact (h.recorded.step hstep).1
  leased := by
    rcases hmove.repository_cases with hsame | ⟨called, hstep⟩
    · exact hsame ▸ h.leased
    · exact h.recorded.leased_step hstep h.leased
  parses := parses_step h.parses hmove
  sound := sound_step h.sound hmove

theorem RegularInvariant.live_before (h : RegularInvariant key w)
    (hmove : EngineWorld.Moves w action w')
    (hdistinct : (w'.repository.events.flatMap drawnTokens).Nodup) {task : EngineTask}
    (hmem : task ∈ w.tasks) (hlive : task.Live w'.store) : task.Live w.store := by
  rcases hmove.repository_cases with hsame | ⟨called, hstep⟩
  · rwa [EngineWorld.store, hsame] at hlive
  · obtain ⟨now, hclaim⟩ := h.linked.tasks task hmem
    have hentry := List.mem_of_getElem? hclaim
    exact h.recorded.live_before hstep hdistinct hentry (h.leased _ hentry) hlive

/-- An enrollment with a key that is ambiguous after a step was so before, or its
live claim was about to leave it so. -/
theorem RegularInvariant.ambiguous_before (h : RegularInvariant key w)
    (hmove : EngineWorld.Moves w action w')
    (hdistinct : (w'.repository.events.flatMap drawnTokens).Nodup)
    {enrollment : SequenceEnrollment} (hmem : enrollment ∈ w'.store.enrollments)
    (hambiguous : enrollment.status = .ambiguous) (hkey : enrollment.stepRef.key = key) :
    (∃ before ∈ w.store.enrollments, before.status = .ambiguous ∧ before.stepRef.key = key) ∨
      ∃ task ∈ w.tasks, task.ref.key = key ∧ task.Live w.store ∧ task.reported = true := by
  have hcases : ∀ {called repository}, w.repository.Step called repository →
      w'.repository = repository →
      (∃ before ∈ w.store.enrollments, before.status = .ambiguous ∧ before.stepRef.key = key) ∨
        ∃ claim lookup result jitter claimed now, called = .completeClaim claim lookup result jitter ∧
          w.repository.world.claims[claim]? = some (claimed, now) ∧
          claimed.enrollment ∈ w.store.enrollments ∧ claimed.enrollment.stepRef.key = key ∧
          ∃ error, (lookup = .error error ∨ result = .error error) ∧
            leavesAmbiguous error = true := by
    rintro called repository hstep rfl
    have hbefore : (w.repository.events.flatMap drawnTokens).Nodup := by
      obtain ⟨later, hlater⟩ := RecordedWorld.events_extend hstep
      rw [← hlater, List.flatMap_append] at hdistinct
      exact (List.nodup_append.mp hdistinct).1
    rcases h.recorded.ambiguous_before hstep hbefore hmem hambiguous with
      ⟨before, hold, hstatus, hsame⟩ |
      ⟨claim, lookup, result, jitter, claimed, now, rfl, hclaim, hlive, hsame, herror⟩
    · exact .inl ⟨before, hold, hstatus, hsame ▸ hkey⟩
    · exact .inr ⟨claim, lookup, result, jitter, claimed, now, rfl, hclaim, hlive, hsame ▸ hkey,
        herror⟩
  cases hmove with
  | start | lookUp | claim | dispatch | settle | loadNothing | loadRecord | settleResolution =>
      exact .inl ⟨enrollment, hmem, hambiguous, hkey⟩
  | @repository action _ direct called =>
      refine (hcases called rfl).imp_right ?_
      rintro ⟨claim, lookup, result, jitter, claimed, now, rfl, -⟩
      simp [RepositoryAction.isDirect] at direct
  | readNothing called | readEnrollment called | readDefinition _ _ called _ =>
      refine (hcases called rfl).imp_right ?_
      rintro ⟨claim, lookup, result, jitter, claimed, now, hcalled, -⟩
      simp at hcalled
  | resolveRefused _ _ _ _ called _ | resolve _ _ _ _ called _ =>
      refine (hcases called rfl).imp_right ?_
      rintro ⟨claim, lookup, result, jitter, claimed, now, hcalled, -⟩
      simp at hcalled
  | @complete i jitter task lookup result repository found phase called =>
      refine (hcases called rfl).imp_right ?_
      rintro ⟨claim, lookup', result', jitter', claimed, now, hcalled, hclaim, hlive, hkey', error,
        herror, hleaves⟩
      obtain ⟨rfl, rfl, rfl, rfl⟩ := RepositoryAction.completeClaim.inj hcalled
      have hmem := List.mem_of_getElem? found
      obtain ⟨now', hclaim'⟩ := h.linked.tasks task hmem
      obtain ⟨rfl, rfl⟩ := Prod.mk.inj (Option.some.inj (hclaim.symm.trans hclaim'))
      refine ⟨task, hmem, hkey', hlive, ?_⟩
      have hsound := h.sound task hmem
      rw [phase] at hsound
      rcases herror with rfl | rfl
      · have hforeign : error.isForeign = true := hsound
        simp [leavesAmbiguous_eq_false hforeign] at hleaves
      · simpa [EngineTask.reported, phase] using hleaves

/-! ## Every step keeps ambiguous enrollments reconcilable -/

omit [MailboxContract] [CaseMapping] in
/-- A task that has come to the record, or to know its fate, or neither. -/
theorem EngineTask.idle_or_engaged (task : EngineTask) :
    (task.held = none ∧ task.reported = false) ∨ (task.held ≠ none ∨ task.reported = true) := by
  by_cases hheld : task.held = none
  · by_cases hreported : task.reported = true
    · exact .inr (.inr hreported)
    · exact .inl ⟨hheld, by simpa using hreported⟩
  · exact .inr (.inl hheld)

/-- A step of a task that leaves it idle, and the document, the enrollments and the
operators as they are for the key, keeps the invariant. -/
theorem ReconcileInvariant.quiet (h : ReconcileInvariant key w) (hregular : RegularInvariant key w')
    (hmove : EngineWorld.Moves w action w')
    (hdistinct : (w'.repository.events.flatMap drawnTokens).Nodup)
    (htasks : ∀ task' ∈ w'.tasks, task' ∈ w.tasks ∨ (task'.held = none ∧ task'.reported = false))
    (hoperators : ∀ operator' ∈ w'.operators, operator'.releases key = true →
      ∃ operator ∈ w.operators, operator.releases key = true)
    (hdocument : w'.document = w.document) : ReconcileInvariant key w' := by
  refine h.frame hregular (fun task hmem hlive => h.live_before hmove hdistinct hmem hlive)
    (fun task' hmem hkey => ?_) hoperators (fun hsettled => .inl (hdocument ▸ hsettled))
    fun enrollment hmem hambiguous hkey => h.ambiguous_before hmove hdistinct hmem hambiguous hkey
  rcases htasks task' hmem with hold | hidle
  · rcases task'.idle_or_engaged with hidle | hengaged
    · exact .inl hidle
    · exact .inr ⟨task', hold, hkey, rfl, .inl hengaged, .inl⟩
  · exact .inl hidle

omit [MailboxContract] [CaseMapping] in
theorem idle_of_setTask {i : ℕ} {task : EngineTask} {phase : TaskPhase}
    (hheld : EngineTask.held { task with phase } = none)
    (hreported : EngineTask.reported { task with phase } = false) (task' : EngineTask)
    (hmem : task' ∈ (w.setTask i task phase).tasks) :
    task' ∈ w.tasks ∨ (task'.held = none ∧ task'.reported = false) := by
  rcases List.mem_or_eq_of_mem_set hmem with hold | rfl
  · exact .inl hold
  · exact .inr ⟨hheld, hreported⟩

omit [MailboxContract] [CaseMapping] in
theorem releases_of_setOperator {i : ℕ} {operator : Operator} {phase : OperatorPhase}
    (hreleases : Operator.releases key { operator with phase } = false) (operator' : Operator)
    (hmem : operator' ∈ (w.setOperator i operator phase).operators)
    (hreleases' : operator'.releases key = true) :
    ∃ operator ∈ w.operators, operator.releases key = true := by
  rcases List.mem_or_eq_of_mem_set hmem with hold | rfl
  · exact ⟨operator', hold, hreleases'⟩
  · simp [hreleases] at hreleases'

omit [MailboxContract] [CaseMapping] in
theorem Settled.kept {document document' : StoredTransactionalDocument} {now : ℤ}
    (h : Settled key document) (hlive : key ∉ expiredKeys document now)
    (hkept : KeptOrSwept now document document' key) : Settled key document' := by
  obtain ⟨record, hget, hsettled⟩ := h
  exact ⟨record, (hkept.get?_of_not_mem hlive).trans hget, hsettled⟩

omit [CaseMapping] in
theorem startPhase_idle (claim : ℕ) (claimed : ClaimedSequenceEnrollment)
    (context : TransactionalContext) :
    EngineTask.reported { claim, claimed, context, phase := startPhase claimed } = false := by
  unfold EngineTask.reported startPhase
  grind [leavesAmbiguous, unasked]

omit [MailboxContract] in
theorem afterSubscriber_idle (task : EngineTask) (payload : DispatchPayload)
    (reply : Except Thrown Subscriber) :
    EngineTask.reported { task with phase := afterSubscriber payload reply } = false := by
  unfold EngineTask.reported afterSubscriber
  grind [leavesAmbiguous, unasked]

omit [MailboxContract] [CaseMapping] in
theorem releases_overtake (key : Text) (operator : Operator) :
    (operator.overtake key).releases key = false := by
  unfold Operator.overtake
  split
  · next ref record overtaken hphase =>
      by_cases hkey : ref.key = key <;> simp [Operator.releases, hkey]
  · next hphase =>
      unfold Operator.releases
      grind

omit [MailboxContract] [CaseMapping] in
theorem releases_of_overtake {key other : Text} {operator : Operator}
    (h : (operator.overtake other).releases key = true) : operator.releases key = true := by
  unfold Operator.overtake at h
  unfold Operator.releases at h ⊢
  grind

omit [MailboxContract] [CaseMapping] in
/-- A claim that leaves its enrollment ambiguous has found a settled record. -/
theorem settled_of_reported {task : EngineTask} {subscriber : Subscriber}
    {payload : DispatchPayload} {now : ℤ} {token : Text}
    {document : StoredTransactionalDocument} {result : Except Thrown TransactionalClaimResult}
    (heffect : ClaimEffect (sendClaimOptions task.context payload task.ref.key) now token
      w.document document result)
    (hplain : ∀ error, result = .error error → error.isForeign = true)
    (hreported : EngineTask.reported { task with
      phase := ofSendPhase subscriber payload (afterClaim task.ref.key result) } = true) :
    Settled task.ref.key document := by
  cases heffect with
  | failed error kept =>
      have hforeign := leavesAmbiguous_eq_false (hplain error rfl)
      simp [EngineTask.reported, ofSendPhase, afterClaim, hforeign] at hreported
  | conflict existing kept found differs =>
      simp [EngineTask.reported, ofSendPhase, afterClaim, leavesAmbiguous, keyConflictError,
        operationInputError] at hreported
  | replay existing kept found same =>
      refine ⟨existing, found, fun hpending => ?_⟩
      simp [EngineTask.reported, ofSendPhase, afterClaim, hpending, leavesAmbiguous,
        replayReconcileError, transactionalReconcileError] at hreported
  | filed record absent pending kept found seen =>
      rcases seen with rfl | ⟨error, rfl⟩
      · simp [EngineTask.reported, ofSendPhase, afterClaim] at hreported
      · have hforeign := leavesAmbiguous_eq_false (hplain error rfl)
        simp [EngineTask.reported, ofSendPhase, afterClaim, hforeign] at hreported

/-- A claim keeps the invariant: it overtakes every operator of its key. -/
theorem ReconcileInvariant.claim {i : ℕ} {now : ℤ} {token : Text} {task : EngineTask}
    {subscriber : Subscriber} {payload : DispatchPayload} {document : StoredTransactionalDocument}
    {result : Except Thrown TransactionalClaimResult} (h : ReconcileInvariant key w)
    (hmove : EngineWorld.Moves w action w') (hregular : RegularInvariant key w')
    (hdistinct : (w'.repository.events.flatMap drawnTokens).Nodup)
    (hfound : w.tasks[i]? = some task)
    (heffect : ClaimEffect (sendClaimOptions task.context payload task.ref.key) now token
      w.document document result)
    (hplain : ∀ error, result = .error error → error.isForeign = true)
    (hlive : key ∉ expiredKeys w.document now)
    (hdocument : w'.document = document)
    (htasks : w'.tasks = (w.setTask i task
      (ofSendPhase subscriber payload (afterClaim task.ref.key result))).tasks)
    (hoperators : w'.operators = w.operators.map (Operator.overtake task.ref.key)) :
    ReconcileInvariant key w' := by
  refine h.frame hregular (fun task hmem hlive => h.live_before hmove hdistinct hmem hlive)
    (fun task' hmem hkey => ?_) (fun operator' hmem hreleases => ?_) (fun hsettled => .inl ?_)
    fun enrollment hmem hambiguous hkey => h.ambiguous_before hmove hdistinct hmem hambiguous hkey
  · rw [htasks] at hmem
    rcases List.mem_or_eq_of_mem_set hmem with hold | rfl
    · rcases task'.idle_or_engaged with hidle | hengaged
      · exact .inl hidle
      · exact .inr ⟨task', hold, hkey, rfl, .inl hengaged, .inl⟩
    · refine .inr ⟨task, List.mem_of_getElem? hfound, hkey, rfl, .inr fun operator' hoperator => ?_,
        fun hreported => .inr ?_⟩
      · rw [hoperators] at hoperator
        obtain ⟨operator, -, rfl⟩ := List.mem_map.mp hoperator
        rw [← hkey]
        exact releases_overtake task.ref.key operator
      · rw [hdocument, ← hkey]
        exact settled_of_reported heffect hplain hreported
  · rw [hoperators] at hmem
    obtain ⟨operator, hoperator, rfl⟩ := List.mem_map.mp hmem
    exact ⟨operator, hoperator, releases_of_overtake hreleases⟩
  · rw [hdocument]
    cases heffect with
    | failed _ kept | replay _ kept _ _ | conflict _ kept _ _ => exact hsettled.kept hlive (kept key)
    | filed record absent pending kept found seen =>
        by_cases hkey : key = task.ref.key
        · subst hkey
          obtain ⟨stored, hget, -⟩ := hsettled
          have hswept := (get?_sweepExpiredRecords hlive).symm.trans absent
          simp [hget] at hswept
        · exact hsettled.kept hlive (kept key hkey)

/-- A task that settles its record keeps the invariant: if its enrollment is to be
ambiguous, the record says that nobody knows. -/
theorem ReconcileInvariant.settle {i : ℕ} {now : ℤ} {task : EngineTask} {subscriber : Subscriber}
    {payload : DispatchPayload} {record : TransactionalSendRecord} {settlement : Settlement}
    {result : Except Thrown SendTransactionalOutput} {document : StoredTransactionalDocument}
    {seen : Except Thrown Unit} (h : ReconcileInvariant key w)
    (hmove : EngineWorld.Moves w action w') (hregular : RegularInvariant key w')
    (hdistinct : (w'.repository.events.flatMap drawnTokens).Nodup)
    (hfound : w.tasks[i]? = some task)
    (hphase : task.phase = .sending subscriber payload (.settling record settlement result))
    (happlied : settlement.apply task.ref.key record.claimToken now w.document = (document, seen))
    (hnow : hasFourDigitYear now = true) (hlive : key ∉ expiredKeys w.document now)
    (hdocument : w'.document = document)
    (htasks : w'.tasks = (w.setTask i task (.completing (.ok subscriber) result)).tasks)
    (hoperators : w'.operators = w.operators) : ReconcileInvariant key w' := by
  have hmem := List.mem_of_getElem? hfound
  have hheld : task.held = some record := by simp [EngineTask.held, hphase]
  have heffect := settleEffect_of_settlement
    (show withFault none (settlement.apply task.ref.key record.claimToken now) w.document = _ from
      happlied)
  refine h.frame hregular (fun task hmem hlive => h.live_before hmove hdistinct hmem hlive)
    (fun task' hmem' hkey => ?_) (fun operator' hoperator hreleases => ?_)
    (fun hsettled => .inl ?_)
    fun enrollment hmem hambiguous hkey => h.ambiguous_before hmove hdistinct hmem hambiguous hkey
  · rw [htasks] at hmem'
    rcases List.mem_or_eq_of_mem_set hmem' with hold | rfl
    · rcases task'.idle_or_engaged with hidle | hengaged
      · exact .inl hidle
      · exact .inr ⟨task', hold, hkey, rfl, .inl hengaged, .inl⟩
    · refine .inr ⟨task, hmem, hkey, rfl, .inl (.inl (by simp [hheld])), fun hreported => .inr ?_⟩
      have hkey' : task.ref.key = key := hkey
      subst hkey'
      cases result with
      | ok output => simp [EngineTask.reported] at hreported
      | error error =>
          have hsound := h.sound task hmem
          rw [hphase] at hsound
          obtain ⟨message, rfl⟩ := hsound hreported
          obtain ⟨stored, hget, htoken, -⟩ := h.keys.pending task hmem rfl record hheld
          let options : CommitOptions :=
            { key := task.ref.key
              claimToken := record.claimToken
              status := .unknown
              errorMessage := message }
          have hcommit : commitTransactionalSend options now w.document = (document, seen) := happlied
          obtain ⟨committed, hcommitted, -, hstatus⟩ :=
            get?_commitTransactionalSend_of_own options h.parses hget htoken hlive hnow
          rw [hcommit] at hcommitted
          rw [hdocument]
          exact ⟨committed, hcommitted, by simp [hstatus, options, CommitStatus.toStatus]⟩
  · rw [hoperators] at hoperator
    exact ⟨operator', hoperator, hreleases⟩
  · -- a settled record is not the one the task holds
    rw [hdocument]
    have hkey : key ≠ task.ref.key := by
      rintro rfl
      obtain ⟨stored, hget, hnot⟩ := hsettled
      simp [h.keys.not_held_of_settled hget hnot hmem rfl] at hheld
    exact hsettled.kept hlive (heffect.kept_of_ne hkey)

/-- An operator who settles a record keeps the invariant, unless it was overtaken. -/
theorem ReconcileInvariant.settleResolution {i : ℕ} {operator : Operator} {ref : StepRef}
    {record : TransactionalSendRecord} {overtaken : Bool} {document : StoredTransactionalDocument}
    {seen : Except Thrown Unit} {fault : Option (StoreFault Thrown)}
    (h : ReconcileInvariant key w) (hmove : EngineWorld.Moves w action w')
    (hregular : RegularInvariant key w')
    (hdistinct : (w'.repository.events.flatMap drawnTokens).Nodup)
    (hfound : w.operators[i]? = some operator)
    (hphase : operator.phase = .settling ref record overtaken)
    (happlied : withFault fault (EngineWorld.applyResolution operator ref.key record.claimToken)
      w.document = (document, seen))
    (hpunctual : ref.key = key → operator.resolution = .notSent → overtaken = false)
    (hlive : key ∉ expiredKeys w.document operator.now)
    (hdocument : w'.document = document) (htasks : w'.tasks = w.tasks)
    (hoperators : w'.operators = (w.setOperator i operator .finished).operators) :
    ReconcileInvariant key w' := by
  refine h.frame hregular (fun task hmem hlive => h.live_before hmove hdistinct hmem hlive)
    (fun task' hmem hkey => ?_) (fun operator' hmem hreleases => ?_) (fun hsettled => ?_)
    fun enrollment hmem hambiguous hkey => h.ambiguous_before hmove hdistinct hmem hambiguous hkey
  · rw [htasks] at hmem
    rcases task'.idle_or_engaged with hidle | hengaged
    · exact .inl hidle
    · exact .inr ⟨task', hmem, hkey, rfl, .inl hengaged, .inl⟩
  · rw [hoperators] at hmem
    exact releases_of_setOperator rfl operator' hmem hreleases
  · rw [hdocument]
    have heffect := settleEffect_of_resolution happlied
    by_cases hkey : key = ref.key
    · subst hkey
      cases heffect with
      | idle kept => exact .inl (hsettled.kept hlive (kept ref.key))
      | committed found own kept after same settled => exact .inl ⟨_, after, settled⟩
      | released release found own kept gone =>
          refine .inr ⟨operator, List.mem_of_getElem? hfound, ?_⟩
          simp [Operator.releases, hphase, release, hpunctual rfl release]
    · exact .inl (hsettled.kept hlive (heffect.kept_of_ne hkey))

/-- An operator who resolves an enrollment in the repository keeps the invariant: no
claim of its step is live then, and it is no longer ambiguous. -/
theorem ReconcileInvariant.resolve {i : ℕ} {operator : Operator} {enrollment definition : ℕ}
    {ref : StepRef} {record : TransactionalSendRecord} {snapshot : SequenceEnrollment}
    {known : SequenceDefinition} (h : ReconcileInvariant key w)
    (hmove : EngineWorld.Moves w action w') (hregular : RegularInvariant key w')
    (hdistinct : (w'.repository.events.flatMap drawnTokens).Nodup)
    (hfound : w.operators[i]? = some operator)
    (hphase : operator.phase = .recordLoaded enrollment definition ref record)
    (hread : w.repository.world.read[enrollment]? = some snapshot)
    (hreturned : w.repository.world.returned[definition]? = some known)
    (hcalled : w.repository.Step
      (.resolveAmbiguous enrollment definition operator.resolution operator.now) w'.repository)
    (haccepted : EngineWorld.acceptsResolution w.store snapshot known operator.resolution
      operator.now = true)
    (hdocument : w'.document = w.document) (htasks : w'.tasks = w.tasks)
    (hoperators : w'.operators = (w.setOperator i operator
      (EngineWorld.afterResolve operator.resolution ref record)).operators) :
    ReconcileInvariant key w' := by
  have hlinked := h.linked.operators operator (List.mem_of_getElem? hfound)
  rw [hphase] at hlinked
  obtain ⟨snapshot', hsnapshot, rfl⟩ := hlinked
  obtain rfl := Option.some.inj (hread.symm.trans hsnapshot)
  by_cases hreleases : operator.resolution = .notSent ∧ snapshot.stepRef.key = key
  · obtain ⟨-, rfl⟩ := hreleases
    -- the repository holds the resolved record
    unfold EngineWorld.acceptsResolution at haccepted
    split at haccepted
    · simp at haccepted
    · next revision step hambiguous =>
        split at haccepted
        · simp at haccepted
        · next next hnext =>
            have hcall : w.repository.world.call
                (.resolveAmbiguous enrollment definition operator.resolution operator.now) =
                  some (.resolveAmbiguous snapshot next) := by
              simp [RepositoryWorld.call, hread, hreturned, hambiguous, hnext, Except.toOption]
            obtain ⟨-, event, -, hperform⟩ := RecordedWorld.step_of_call hcalled hcall
            obtain ⟨result, hresult⟩ := Option.isSome_iff_exists.mp haccepted
            rcases hresolve : resolveAmbiguous snapshot next w.store with ⟨store', outcome⟩
            rw [hresolve] at hresult
            obtain rfl : outcome = .ok result := toOption_eq_some_iff.mp hresult
            obtain ⟨hstore, -⟩ : w'.repository.world.store = store' ∧ _ := by
              simpa [performCall, hresolve, eq_comm] using hperform
            obtain ⟨stored, hfoundStored, -, -, -, -, hreplaced⟩ :=
              resolveAmbiguous_eq_ok h.recorded.fencing.stored hresolve
            obtain ⟨hid, hstatus⟩ := h.recorded.world.resolved_of_call hcall
            have honly : ∀ other ∈ w'.store.enrollments, isUuid other.id = true →
                other.stepRef.key = snapshot.stepRef.key → other = next.val := by
              intro other hother huuid hkey
              have href : other.stepRef = snapshot.stepRef := StepRef.key_injective huuid
                (isUuid_of_schema (h.recorded.world.read snapshot (List.mem_of_getElem? hread)).1) hkey
              have hotherId : other.id = next.val.id :=
                (congrArg StepRef.enrollmentId href).trans hid.symm
              rw [EngineWorld.store, hstore, hreplaced] at hother
              rcases mem_replaceBy.mp hother with ⟨rfl, -⟩ | ⟨-, hne⟩
              · rfl
              · exact absurd hotherId hne
            have hdead : ∀ task ∈ w'.tasks, task.ref.key = snapshot.stepRef.key →
                ¬ task.Live w'.store := by
              intro task hmem hkey hlive
              rw [htasks] at hmem
              obtain ⟨now, hclaim⟩ := h.linked.tasks task hmem
              have hnone := honly _ hlive (h.linked.isUuid_of_task hmem) hkey
              exact h.leased _ (List.mem_of_getElem? hclaim) (hnone ▸ next.property.1)
            refine ⟨hregular, fun _ _ _ task hmem hkey hlive => absurd hlive (hdead task hmem hkey),
              fun task hmem hkey hlive _ => absurd hlive (hdead task hmem hkey),
              fun other hmem hambiguous hkey => ?_⟩
            have huuid : isUuid other.id = true := isUuid_of_schema
              (hregular.recorded.world.store.stored.enrollments other hmem)
            rw [honly other hmem huuid hkey] at hambiguous
            rcases hstatus with hstatus | hstatus <;> simp [hstatus] at hambiguous
  · refine h.quiet hregular hmove hdistinct (fun task' hmem => .inl (htasks ▸ hmem))
      (fun operator' hmem => ?_) hdocument
    rw [hoperators] at hmem
    refine releases_of_setOperator ?_ operator' hmem
    unfold EngineWorld.afterResolve Operator.releases
    split
    · next ref' record' overtaken hsettling =>
        split at hsettling
        · simp at hsettling
        · obtain ⟨rfl, -, -⟩ := OperatorPhase.settling.inj hsettling
          by_contra hcontra
          simp only [Bool.not_eq_false, Bool.and_eq_true, decide_eq_true_eq] at hcontra
          exact hreleases ⟨hcontra.2, hcontra.1.1⟩
    · rfl

/-- Every regular step keeps the invariant, unless an operator who was overtaken
releases the record. -/
theorem ReconcileInvariant.step (h : ReconcileInvariant key w) (hstep : w.Step action w')
    (hregular : action.regular = true)
    (hdistinct : (w'.repository.events.flatMap drawnTokens).Nodup)
    (hkept : KeyKept key w'.events) (hpunctual : ∀ ref, .releasedLate ref ∈ w'.events → ref.key ≠ key) :
    ReconcileInvariant key w' := by
  have hmove := EngineWorld.moves_of_step hstep
  have hbase := h.toRegularInvariant.step hmove hkept
  have hmove' := hmove
  have hsameTasks : ∀ task' ∈ w.tasks,
      task' ∈ w.tasks ∨ (task'.held = none ∧ task'.reported = false) := fun _ hmem => .inl hmem
  have hsameOperators : ∀ operator' ∈ w.operators, operator'.releases key = true →
      ∃ operator ∈ w.operators, operator.releases key = true :=
    fun operator' hmem hreleases => ⟨operator', hmem, hreleases⟩
  cases hmove with
  | repository | readNothing =>
      exact h.quiet hbase hmove' hdistinct hsameTasks hsameOperators rfl
  | @start claim context claimed now _ _ =>
      refine h.quiet hbase hmove' hdistinct (fun task' hmem => ?_) hsameOperators rfl
      rcases List.mem_append.mp hmem with hold | hnew
      · exact .inl hold
      · obtain rfl := List.mem_singleton.mp hnew
        exact .inr ⟨held_startPhase claim claimed context, startPhase_idle claim claimed context⟩
  | lookUp _ _ _ =>
      exact h.quiet hbase hmove' hdistinct
        (idle_of_setTask (held_afterSubscriber ..) (afterSubscriber_idle ..)) hsameOperators rfl
  | claim found _ _ _ _ effect plain =>
      exact h.claim hmove' hbase hdistinct found effect plain (hkept _ (by simp)) rfl rfl rfl
  | @dispatch i reply task subscriber payload record found phase _ =>
      refine h.frame hbase (fun task hmem hlive => h.live_before hmove' hdistinct hmem hlive)
        (fun task' hmem hkey => ?_) hsameOperators .inl
        fun enrollment hmem hambiguous hkey =>
          h.ambiguous_before hmove' hdistinct hmem hambiguous hkey
      rcases List.mem_or_eq_of_mem_set hmem with hold | rfl
      · rcases task'.idle_or_engaged with hidle | hengaged
        · exact .inl hidle
        · exact .inr ⟨task', hold, hkey, rfl, .inl hengaged, .inl⟩
      · refine .inr ⟨task, List.mem_of_getElem? found, hkey, rfl,
          .inl (.inl (by simp [EngineTask.held, phase])), fun hreported => ?_⟩
        simp [EngineTask.reported] at hreported
  | @settle i now fault task subscriber payload record settlement result document seen found phase
      applied =>
      simp only [EngineAction.regular, Bool.and_eq_true, Option.isNone_iff_eq_none] at hregular
      obtain ⟨rfl, hnow⟩ := hregular
      exact h.settle hmove' hbase hdistinct found phase applied hnow (hkept _ (by simp)) rfl rfl rfl
  | complete _ _ _ =>
      exact h.quiet hbase hmove' hdistinct (idle_of_setTask rfl rfl) hsameOperators rfl
  | readEnrollment _ =>
      refine h.quiet hbase hmove' hdistinct hsameTasks (fun operator' hmem hreleases => ?_) rfl
      rcases List.mem_append.mp hmem with hold | hnew
      · exact ⟨operator', hold, hreleases⟩
      · obtain rfl := List.mem_singleton.mp hnew
        simp [Operator.releases] at hreleases
  | readDefinition _ _ _ next =>
      exact h.quiet hbase hmove' hdistinct hsameTasks
        (releases_of_setOperator (by rcases next with rfl | rfl <;> rfl)) rfl
  | loadNothing | loadRecord | resolveRefused =>
      exact h.quiet hbase hmove' hdistinct hsameTasks (releases_of_setOperator rfl) rfl
  | resolve found phase read returned called accepted =>
      exact h.resolve hmove' hbase hdistinct found phase read returned called accepted rfl rfl rfl
  | @settleResolution i fault operator ref record overtaken document seen found phase applied =>
      refine h.settleResolution hmove' hbase hdistinct found phase applied (fun hkey hnotSent => ?_)
        (hkept _ (by simp [EngineWorld.resolutionEvents])) rfl rfl rfl
      by_contra hovertaken
      have hlate : overtaken = true := by simpa using hovertaken
      exact hpunctual ref (by simp [EngineWorld.resolutionEvents, hnotSent, hlate]) hkey

/-- In every regular run that keeps the record of a key and in which no operator
releases it late, the invariant holds. -/
theorem reconcileInvariant_of_run {actions : List EngineAction}
    (hrun : Run EngineWorld.Step {} actions w) (hregular : ∀ action ∈ actions, action.regular = true)
    (hdistinct : (w.repository.events.flatMap drawnTokens).Nodup)
    (hkept : KeyKept key w.events) (hpunctual : ∀ ref, .releasedLate ref ∈ w.events → ref.key ≠ key) :
    ReconcileInvariant key w := by
  generalize hstart : ({} : EngineWorld) = start at hrun
  induction hrun with
  | refl => exact hstart ▸ reconcileInvariant_empty key
  | snoc before last ih =>
      have hmove := EngineWorld.moves_of_step last
      have hevents := hmove.events_extend.subset
      refine ReconcileInvariant.step (ih (fun action hmem => hregular action ?_) ?_
        (fun keys hmem => hkept keys (hevents hmem)) fun ref hmem => hpunctual ref (hevents hmem))
        last (hregular _ (by simp)) hdistinct hkept hpunctual
      · exact List.mem_append_left _ hmem
      · rcases hmove.repository_cases with hsame | ⟨called, hstep⟩
        · rwa [hsame] at hdistinct
        · obtain ⟨later, hlater⟩ := RecordedWorld.events_extend hstep
          rw [← hlater, List.flatMap_append] at hdistinct
          exact (List.nodup_append.mp hdistinct).1

/-! ## One of the resolutions succeeds -/

/-- `reconcileAmbiguousSequenceEnrollment` in one go; `none` where it throws. -/
def reconcileAmbiguousSequenceEnrollment (enrollmentId : Text)
    (resolution : SequenceAmbiguousResolution) (now : ℤ) (store : SequenceStore)
    (document : StoredTransactionalDocument) :
    Option (SequenceStore × StoredTransactionalDocument × SequenceEnrollment) := do
  let enrollment ← (getEnrollment enrollmentId store).toOption
  let _ ← (checkAmbiguous enrollment).toOption
  let definition ← (getDefinition enrollment.sequenceId store).toOption
  let (revision, step) ← (ambiguousStep enrollment definition).toOption
  let key := deterministicSendKey enrollment
  let loaded ← (parseStoredTransactionalDocument document).toOption
  let record ← (reconcilableRecord key (loaded.get? key) resolution).toOption
  let next ← (resolvedEnrollment enrollment revision step resolution now).toOption
  let (store, resolved) := resolveAmbiguous enrollment next store
  let resolved ← resolved.toOption
  if resolution = .sent ∧ record.status = .accepted then return (store, document, resolved)
  else
    let operator : Operator := { resolution, now, phase := .finished }
    let (document, settled) := EngineWorld.applyResolution operator key record.claimToken document
    let _ ← settled.toOption
    return (store, document, resolved)

omit [MailboxContract] [CaseMapping] in
theorem releaseTransactionalSend_of_parse {document : StoredTransactionalDocument}
    (hparse : parseStoredTransactionalDocument document = .ok document) (key token : Text)
    (now : ℤ) : (releaseTransactionalSend key token now document).2 = .ok () := by
  have hvalid := parse_eq_ok_iff.mp hparse
  have hswept : parseStoredTransactionalDocument (sweepExpiredRecords document now) =
      .ok (sweepExpiredRecords document now) :=
    parse_eq_ok_iff.mpr fun record hmem => hvalid record (List.mem_filter.mp hmem).1
  have herased : parseStoredTransactionalDocument ((sweepExpiredRecords document now).erase key) =
      .ok ((sweepExpiredRecords document now).erase key) :=
    parse_eq_ok_iff.mpr fun record hmem =>
      parse_eq_ok_iff.mp hswept record (List.mem_filter.mp hmem).1
  have hupdate : ∃ next, releaseUpdate key token now document = .ok (next, ()) ∧
      parseStoredTransactionalDocument next = .ok next := by
    unfold releaseUpdate
    dsimp only
    split
    · exact ⟨_, rfl, hswept⟩
    · split
      · exact ⟨_, rfl, hswept⟩
      · exact ⟨_, rfl, herased⟩
  obtain ⟨next, hnext, hwrite⟩ := hupdate
  rw [releaseTransactionalSend, JsonFileStore.exec_eq_ok _ hparse hnext hwrite]

omit [CaseMapping] in
/-- The resolution of an enrollment that is still ambiguous succeeds. -/
theorem resolveAmbiguous_of_found {store : SequenceStore} {enrollment : SequenceEnrollment}
    {next : UnleasedEnrollment} (hstored : store.Stored)
    (hfound : store.enrollments.find? (fun candidate => candidate.id = enrollment.id) =
      some enrollment)
    (hambiguous : enrollment.status = .ambiguous) (hschema : enrollmentSchema next.val = true) :
    resolveAmbiguous enrollment next store =
      ({ store with enrollments := replaceBy SequenceEnrollment.id store.enrollments next.val },
        .ok next.val) := by
  refine JsonFileStore.exec_eq_ok _ hstored.parse ?_ (stored_replaceEnrollment hstored hschema).parse
  refine except_bind_eq_ok.mpr ⟨enrollment, by simp [getFileEnrollment, hfound], ?_⟩
  rw [if_neg (by simp [hambiguous])]
  exact except_bind_eq_ok.mpr ⟨next.val, parseSequenceEnrollment_eq_ok_iff.mpr ⟨hschema, rfl⟩, rfl⟩

/-- The resolution an operator can choose for a settled record. -/
def possibleResolution (status : TransactionalSendStatus) : SequenceAmbiguousResolution :=
  if status = .accepted then .sent else .notSent

omit [MailboxContract] [CaseMapping] in
theorem reconcilableRecord_possibleResolution (key : Text) {record : TransactionalSendRecord}
    (hsettled : record.status ≠ .pending) :
    reconcilableRecord key (some record) (possibleResolution record.status) = .ok record := by
  cases hstatus : record.status with
  | pending => exact absurd hstatus hsettled
  | accepted | failed | unknown => simp [reconcilableRecord, possibleResolution, hstatus]

omit [MailboxContract] [CaseMapping] in
theorem accepted_resolvedEnrollment {enrollment : SequenceEnrollment} {revision : SequenceRevision}
    {step : SequenceSendStep} {now : ℤ} (hschema : enrollmentSchema enrollment = true)
    (hmem : .send step ∈ revision.steps) (hnow : hasFourDigitYear now = true)
    (resolution : SequenceAmbiguousResolution) :
    Accepted (resolvedEnrollment enrollment revision step resolution now) := by
  cases resolution with
  | sent =>
      obtain ⟨following, hfollowing⟩ := nextStep_of_mem hmem
      have hnext : nextStep revision step.id = .ok following := hfollowing
      unfold resolvedEnrollment
      simp only [hnext, except_ok_bind]
      cases following with
      | none => exact accepted_completed hschema hnow
      | some following => exact (accepted_advanceTo_iff now hschema hnow .pending following.id).mpr hnow
  | notSent =>
      unfold resolvedEnrollment
      simp only [isoString_of_hasFourDigitYear hnow, except_ok_bind]
      exact (accepted_withoutLease_iff _ hschema hnow).mpr
        ⟨by simp [maxSafeInteger], by simpa using hnow, by simp⟩

theorem StoreInvariant.ambiguousStep {store : SequenceStore} (h : StoreInvariant store)
    {enrollment : SequenceEnrollment} (hmem : enrollment ∈ store.enrollments)
    (hambiguous : enrollment.status = .ambiguous) :
    ∃ definition ∈ store.definitions, definition.id = enrollment.sequenceId ∧
      ∃ revision step, Sequence.ambiguousStep enrollment definition = .ok (revision, step) ∧
        .send step ∈ revision.steps := by
  obtain ⟨definition, hdefinition, hid, revision, hrevision, hnumber, step, hstep, hstepId, hsend⟩ :=
    h.positioned enrollment hmem
  have hstored := h.stored.definitions definition hdefinition
  have hfound : definition.findRevision enrollment.revision = some revision :=
    hstored.findRevision_eq_some_iff.mpr ⟨hrevision, hnumber⟩
  have hordered := hstored.wellOrdered hrevision
  have hcurrent : revision.steps.find? (fun candidate => candidate.id = enrollment.currentStepId) =
      some step :=
    (find?_key_eq_some_iff hordered.distinct).mpr ⟨hstep, hstepId⟩
  cases step with
  | send step =>
      refine ⟨definition, hdefinition, hid, revision, step, ?_, hstep⟩
      simp [Sequence.ambiguousStep, hfound, hcurrent]
  | wait | waitUntil | condition | stop => simpa [SequenceStep.isSend] using hsend hambiguous

/-- Ambiguous enrollments stay reconcilable. In every run of workers and operators, with
crashes and passing time, without file system errors and on a clock that shows a
four-digit year, lease tokens being distinct: an ambiguous enrollment whose record was
not found expired, and was not released by an operator whom a tick had overtaken, stands
on a send step, has a record that is not pending under its key, and one of the
resolutions succeeds for it. -/
theorem ambiguous_reconcilable {actions : List EngineAction} {enrollment : SequenceEnrollment}
    (hrun : Run EngineWorld.Step {} actions w) (hregular : ∀ action ∈ actions, action.regular = true)
    (hdistinct : (w.repository.events.flatMap drawnTokens).Nodup)
    (hmem : enrollment ∈ w.store.enrollments) (hambiguous : enrollment.status = .ambiguous)
    (hkept : KeyKept (deterministicSendKey enrollment) w.events)
    (hpunctual : .releasedLate enrollment.stepRef ∉ w.events) :
    (∃ definition ∈ w.store.definitions, definition.id = enrollment.sequenceId ∧
      ∃ revision step, ambiguousStep enrollment definition = .ok (revision, step)) ∧
    (∃ record, w.document.get? (deterministicSendKey enrollment) = some record ∧
      record.status ≠ .pending) ∧
    ∃ resolution, ∀ now, hasFourDigitYear now = true →
      (reconcileAmbiguousSequenceEnrollment enrollment.id resolution now w.store
        w.document).isSome := by
  have hlinked := linked_of_run hrun
  have hstore := hlinked.world.store
  have hschema := hstore.stored.enrollments enrollment hmem
  have hinvariant : ReconcileInvariant enrollment.stepRef.key w := by
    refine reconcileInvariant_of_run hrun hregular hdistinct hkept fun ref hevent hkey => hpunctual ?_
    have hsame : ref = enrollment.stepRef :=
      StepRef.key_injective (hlinked.events _ hevent ref rfl) (isUuid_of_schema hschema) hkey
    exact hsame ▸ hevent
  obtain ⟨definition, hdefinition, hid, revision, step, hstep, hsend⟩ :=
    hstore.ambiguousStep hmem hambiguous
  obtain ⟨record, hrecord, hsettled⟩ := (hinvariant.ambiguous enrollment hmem hambiguous rfl).1
  refine ⟨⟨definition, hdefinition, hid, revision, step, hstep⟩, ⟨record, hrecord, hsettled⟩,
    possibleResolution record.status, fun now hnow => ?_⟩
  obtain ⟨next, hnext, hnextSchema⟩ :=
    accepted_resolvedEnrollment hschema hsend hnow (possibleResolution record.status)
  have hfound := hstore.find?_enrollment.mpr ⟨hmem, rfl⟩
  have hfoundDefinition := hstore.find?_definition.mpr ⟨hdefinition, hid⟩
  have hresolved := resolveAmbiguous_of_found hstore.stored hfound hambiguous hnextSchema
  have hread : getEnrollment enrollment.id w.store = .ok enrollment := by
    simp [getEnrollment, hstore.stored.parse, getFileEnrollment, hfound]
  have hknown : getDefinition enrollment.sequenceId w.store = .ok definition := by
    simp [getDefinition, hstore.stored.parse, getFileDefinition, hfoundDefinition]
  have hkey : w.document.get? (deterministicSendKey enrollment) = some record := hrecord
  simp only [reconcileAmbiguousSequenceEnrollment, hread, hknown, hstep, hnext, hinvariant.parses,
    hkey, reconcilableRecord_possibleResolution _ hsettled, hresolved, checkAmbiguous, hambiguous,
    Except.toOption, Option.bind_eq_bind, Option.bind_some, ne_eq, not_true_eq_false, if_false]
  by_cases haccepted : record.status = .accepted
  · simp [possibleResolution, haccepted]
  · simp [possibleResolution, haccepted, EngineWorld.applyResolution,
      releaseTransactionalSend_of_parse hinvariant.parses]

end Reconcilable

/-- The response to the message is lost. -/
def leftAmbiguous : List EngineAction :=
  claimedTask ++ [.dispatch 0 (.rejected lostReply), .settle 0 1500 none, .complete 0 none]

/-- Is the enrollment of the sample ambiguous, and is its record there? -/
def ambiguousSample (w : EngineWorld) : Option (Text × Bool) :=
  (w.store.enrollments.find? fun enrollment => enrollment.status = .ambiguous).map fun enrollment =>
    (deterministicSendKey enrollment, (w.document.get? (deterministicSendKey enrollment)).isSome)

theorem ambiguous_reconcilable_leftAmbiguous :
    letI := plainMailboxContract
    letI := asciiCaseMapping
    ∃ w, Run EngineWorld.Step {} leftAmbiguous w ∧
      ∃ enrollment ∈ w.store.enrollments, enrollment.status = .ambiguous ∧
        ∃ resolution, ∀ now, hasFourDigitYear now = true →
          (reconcileAmbiguousSequenceEnrollment enrollment.id resolution now w.store
            w.document).isSome := by
  let := plainMailboxContract
  let := asciiCaseMapping
  have hsample : (leftAmbiguous.foldlM EngineWorld.step {}).map (fun w =>
      (ambiguousSample w, decide (KeyKept welcomeRef.key w.events),
        decide ((w.repository.events.flatMap drawnTokens).Nodup),
        decide (∀ event ∈ w.events, event.ref = some welcomeRef → event ≠ .releasedLate welcomeRef))) =
        some (some (welcomeRef.key, true), true, true, true) := by decide +kernel
  obtain ⟨w, hw, hsample⟩ := Option.map_eq_some_iff.mp hsample
  simp only [Prod.mk.injEq, decide_eq_true_eq] at hsample
  obtain ⟨hambiguous, hkept, hdistinct, hpunctual⟩ := hsample
  obtain ⟨enrollment, hfound, hsame⟩ := Option.map_eq_some_iff.mp hambiguous
  obtain ⟨hkey, -⟩ := Prod.mk.inj hsame
  have hmem := List.mem_of_find?_eq_some hfound
  have hstatus : enrollment.status = .ambiguous := by simpa using List.find?_some hfound
  have hrun : Run EngineWorld.Step {} leftAmbiguous w := Run.of_foldlM hw
  have hlinked := linked_of_run hrun
  have href : enrollment.stepRef = welcomeRef :=
    StepRef.key_injective (isUuid_of_schema (hlinked.world.store.stored.enrollments _ hmem))
      (by decide) hkey
  exact ⟨w, hrun, enrollment, hmem, hstatus,
    (ambiguous_reconcilable hrun (by decide) hdistinct hmem hstatus (hkey ▸ hkept)
      fun hlate => hpunctual _ (href ▸ hlate) rfl rfl).2.2⟩

/-- Another enrollment comes to its send step a day later. -/
def sweptLater : List EngineAction :=
  leftAmbiguous ++
    [.repository (.createEnrollment 0
      { id := some "55555555-5555-4555-8555-555555555555", subscriberId := 8 } [] 90000000),
    .repository (.claimDue
      { limit := 10, now := 90000000, leaseMs := 90000, newLeaseToken := fun _ => laterLeaseToken }),
    .start 1 sampleContext,
    .lookUp 1 (.ok {}),
    .claim 1 90000000 "second" none]

/-- An operation on another key removes the record of an ambiguous enrollment once it has
expired, and no resolution succeeds any more. -/
theorem not_reconcilable_sweptLater :
    letI := plainMailboxContract
    letI := asciiCaseMapping
    ∃ w, Run EngineWorld.Step {} sweptLater w ∧
      ∃ enrollment ∈ w.store.enrollments, enrollment.status = .ambiguous ∧
        w.document.get? (deterministicSendKey enrollment) = none ∧
        ∀ resolution now, reconcileAmbiguousSequenceEnrollment enrollment.id resolution now w.store
          w.document = none := by
  let := plainMailboxContract
  let := asciiCaseMapping
  have hsample : (sweptLater.foldlM EngineWorld.step {}).map ambiguousSample =
      some (some (welcomeRef.key, false)) := by decide +kernel
  obtain ⟨w, hw, hambiguous⟩ := Option.map_eq_some_iff.mp hsample
  obtain ⟨enrollment, hfound, hsame⟩ := Option.map_eq_some_iff.mp hambiguous
  have hmem := List.mem_of_find?_eq_some hfound
  have hstatus : enrollment.status = .ambiguous := by simpa using List.find?_some hfound
  have hgone : w.document.get? (deterministicSendKey enrollment) = none := by
    simpa using (Prod.mk.inj hsame).2
  have hrun : Run EngineWorld.Step {} sweptLater w := Run.of_foldlM hw
  have hstore := (linked_of_run hrun).world.store
  have hread : getEnrollment enrollment.id w.store = .ok enrollment := by
    simp [getEnrollment, hstore.stored.parse, getFileEnrollment,
      hstore.find?_enrollment.mpr ⟨hmem, rfl⟩]
  refine ⟨w, hrun, enrollment, hmem, hstatus, hgone, fun resolution now => ?_⟩
  rw [reconcileAmbiguousSequenceEnrollment, hread, Option.eq_none_iff_forall_ne_some]
  intro result hresult
  simp only [Option.bind_eq_bind, Option.bind_eq_some_iff, toOption_eq_some_iff] at hresult
  obtain ⟨_, hsame, _, -, definition, -, ⟨revision, step⟩, -, loaded, hloaded, record, hrecord, -⟩ :=
    hresult
  obtain rfl := Except.ok.inj hsame
  obtain rfl := parse_eq_ok hloaded
  have hpresent := (reconcilableRecord_eq_ok hrecord).1
  simp [hgone] at hpresent

end ListmonkOps.Sequence
