/-
The invariant of the sequence document.

Names of definitions are distinct up to case, revisions are numbered from 1 to
the current one, an enrollment stands on a step of a revision that exists and
is leased exactly while it runs, and a subscriber has at most one enrollment in
a sequence that has not ended. Each lemma here says that one kind of change
keeps all of this: a new definition, a changed one, a removed one, a new
enrollment, and enrollments that moved while keeping their identity.
-/

import ListmonkOps.Sequence.Engine

namespace ListmonkOps.Sequence

open ListmonkOps.Math ListmonkOps.Runtime ListmonkOps.Transactional

/-- The enrollment stands on a step of an existing revision, on a send step if
its message may have been sent. -/
def Positioned (definitions : List SequenceDefinition) (enrollment : SequenceEnrollment) : Prop :=
  ∃ definition ∈ definitions, definition.id = enrollment.sequenceId ∧
    ∃ revision ∈ definition.revisions, revision.revision = enrollment.revision ∧
      ∃ step ∈ revision.steps, step.id = enrollment.currentStepId ∧
        (enrollment.status = .ambiguous → step.isSend = true)

/-- An enrollment is leased exactly while it runs. -/
def LeasedWhileRunning (enrollment : SequenceEnrollment) : Prop :=
  (enrollment.leaseToken.isSome ↔ enrollment.status = .running) ∧
    (enrollment.leaseExpiresAt.isSome ↔ enrollment.status = .running)

/-- The revisions of a definition are numbered from 1 to the current one. -/
def Numbered (definition : SequenceDefinition) : Prop :=
  definition.revisions.map (·.revision) = List.range' 1 definition.currentRevision

/-- The invariant of the document: ids and names are distinct, nobody is active in a sequence
twice, and every enrollment has its place in its revision and is leased while it runs. -/
structure StoreInvariant [MailboxContract] [CaseMapping] (store : SequenceStore) : Prop where
  stored : store.Stored
  definitionIds : (store.definitions.map (·.id)).Nodup
  names : (store.definitions.map fun definition => CaseMapping.toLowerCase definition.name).Nodup
  numbered : ∀ definition ∈ store.definitions, Numbered definition
  enrollmentIds : (store.enrollments.map (·.id)).Nodup
  active : ∀ enrollment ∈ store.enrollments, ∀ other ∈ store.enrollments,
    enrollmentIsTerminal enrollment.status = false → enrollmentIsTerminal other.status = false →
      enrollment.sequenceId = other.sequenceId → enrollment.subscriberId = other.subscriberId →
        enrollment.id = other.id
  positioned : ∀ enrollment ∈ store.enrollments, Positioned store.definitions enrollment
  leased : ∀ enrollment ∈ store.enrollments, LeasedWhileRunning enrollment

/-- One definition is another one at a later time: its history has only grown. -/
structure Extends (before after : SequenceDefinition) : Prop where
  id : after.id = before.id
  history : before.revisions <+: after.revisions

theorem Extends.refl (definition : SequenceDefinition) : Extends definition definition :=
  ⟨rfl, List.prefix_refl _⟩

theorem Extends.trans {first second third : SequenceDefinition} (h : Extends first second)
    (h' : Extends second third) : Extends first third :=
  ⟨h'.id.trans h.id, h.history.trans h'.history⟩

/-- A definition that has only grown still carries every position. -/
theorem Positioned.mono {definitions definitions' : List SequenceDefinition}
    {enrollment : SequenceEnrollment} (h : Positioned definitions enrollment)
    (hgrown : ∀ definition ∈ definitions, definition.id = enrollment.sequenceId →
      ∃ definition' ∈ definitions', Extends definition definition') :
    Positioned definitions' enrollment := by
  obtain ⟨definition, hdefinition, hid, revision, hrevision, hnumber, hstep⟩ := h
  obtain ⟨definition', hdefinition', hextends⟩ := hgrown definition hdefinition hid
  exact ⟨definition', hdefinition', hextends.id.trans hid, revision,
    hextends.history.subset hrevision, hnumber, hstep⟩

/-- How one enrollment may move: not at all, or from a status that is not
terminal to another record with the same identity, in a valid position. -/
def Moved (definitions : List SequenceDefinition) (before after : SequenceEnrollment) : Prop :=
  after = before ∨
    (SameIdentity before after ∧ enrollmentIsTerminal before.status = false ∧
      enrollmentSchema after = true ∧ Positioned definitions after ∧ LeasedWhileRunning after)

theorem Moved.sameIdentity {definitions : List SequenceDefinition}
    {before after : SequenceEnrollment} (h : Moved definitions before after) :
    SameIdentity before after := by
  rcases h with rfl | ⟨hsame, -⟩
  · exact ⟨rfl, rfl, rfl, rfl, rfl, rfl⟩
  · exact hsame

theorem Moved.not_terminal {definitions : List SequenceDefinition}
    {before after : SequenceEnrollment} (h : Moved definitions before after)
    (hafter : enrollmentIsTerminal after.status = false) :
    enrollmentIsTerminal before.status = false := by
  rcases h with rfl | ⟨-, hbefore, -⟩
  · exact hafter
  · exact hbefore

/-- Enrollments that have moved one by one, each in its place, so that none appears or vanishes.
-/
structure EnrollmentsMoved (definitions : List SequenceDefinition)
    (before after : List SequenceEnrollment) : Prop where
  ids : after.map (·.id) = before.map (·.id)
  moved : ∀ enrollment ∈ after, ∃ origin ∈ before, Moved definitions origin enrollment

theorem EnrollmentsMoved.refl (definitions : List SequenceDefinition)
    (enrollments : List SequenceEnrollment) :
    EnrollmentsMoved definitions enrollments enrollments :=
  ⟨rfl, fun enrollment henrollment => ⟨enrollment, henrollment, .inl rfl⟩⟩

/-- An enrollment is still there after a move, and where it was if it had ended. -/
theorem EnrollmentsMoved.survives {definitions : List SequenceDefinition}
    {before after : List SequenceEnrollment} (h : EnrollmentsMoved definitions before after)
    (hids : (before.map (·.id)).Nodup) {enrollment : SequenceEnrollment}
    (hmem : enrollment ∈ before) :
    ∃ enrollment' ∈ after, Moved definitions enrollment enrollment' := by
  have hid : enrollment.id ∈ after.map (·.id) := by
    rw [h.ids]
    exact List.mem_map_of_mem hmem
  obtain ⟨enrollment', henrollment', hsame⟩ := List.mem_map.mp hid
  obtain ⟨origin, horigin, hmoved⟩ := h.moved enrollment' henrollment'
  have hsameId : origin.id = enrollment.id := hmoved.sameIdentity.id.symm.trans hsame
  rw [List.inj_on_of_nodup_map hids horigin hmem hsameId] at hmoved
  exact ⟨enrollment', henrollment', hmoved⟩

section Preservation

variable [MailboxContract] [CaseMapping] {store : SequenceStore}

theorem storeInvariant_empty : StoreInvariant ({} : SequenceStore) where
  stored := ⟨by simp, by simp⟩
  definitionIds := List.nodup_nil
  names := List.nodup_nil
  numbered := by simp
  enrollmentIds := List.nodup_nil
  active := by simp
  positioned := by simp
  leased := by simp

theorem StoreInvariant.moveEnrollments {enrollments : List SequenceEnrollment}
    (h : StoreInvariant store)
    (hmoved : EnrollmentsMoved store.definitions store.enrollments enrollments) :
    StoreInvariant { store with enrollments } where
  stored := by
    refine ⟨h.stored.definitions, fun enrollment henrollment => ?_⟩
    obtain ⟨origin, horigin, rfl | ⟨-, -, hschema, -⟩⟩ := hmoved.moved enrollment henrollment
    · exact h.stored.enrollments enrollment horigin
    · exact hschema
  definitionIds := h.definitionIds
  names := h.names
  numbered := h.numbered
  enrollmentIds := by
    rw [hmoved.ids]
    exact h.enrollmentIds
  active := by
    intro enrollment henrollment other hother hactive hactive' hsequence hsubscriber
    obtain ⟨origin, horigin, hmove⟩ := hmoved.moved enrollment henrollment
    obtain ⟨origin', horigin', hmove'⟩ := hmoved.moved other hother
    have hsame := hmove.sameIdentity
    have hsame' := hmove'.sameIdentity
    have hid := h.active origin horigin origin' horigin' (hmove.not_terminal hactive)
      (hmove'.not_terminal hactive')
      (by rw [← hsame.sequenceId, ← hsame'.sequenceId, hsequence])
      (by rw [← hsame.subscriberId, ← hsame'.subscriberId, hsubscriber])
    rw [hsame.id, hsame'.id, hid]
  positioned := by
    intro enrollment henrollment
    obtain ⟨origin, horigin, rfl | ⟨-, -, -, hpositioned, -⟩⟩ :=
      hmoved.moved enrollment henrollment
    · exact h.positioned enrollment horigin
    · exact hpositioned
  leased := by
    intro enrollment henrollment
    obtain ⟨origin, horigin, rfl | ⟨-, -, -, -, hleased⟩⟩ := hmoved.moved enrollment henrollment
    · exact h.leased enrollment horigin
    · exact hleased

/-- A new enrollment on the first step of a revision keeps the invariant. -/
theorem StoreInvariant.addEnrollment {enrollment : SequenceEnrollment} (h : StoreInvariant store)
    (hschema : enrollmentSchema enrollment = true)
    (hfresh : ∀ candidate ∈ store.enrollments, candidate.id ≠ enrollment.id ∧
      (candidate.sequenceId = enrollment.sequenceId →
        candidate.subscriberId = enrollment.subscriberId →
          enrollmentIsTerminal candidate.status = true))
    (hpositioned : Positioned store.definitions enrollment)
    (hleased : LeasedWhileRunning enrollment) :
    StoreInvariant { store with enrollments := store.enrollments ++ [enrollment] } where
  stored := by
    refine ⟨h.stored.definitions, fun other hother => ?_⟩
    rcases List.mem_append.mp hother with hold | hnew
    · exact h.stored.enrollments other hold
    · rwa [List.mem_singleton.mp hnew]
  definitionIds := h.definitionIds
  names := h.names
  numbered := h.numbered
  enrollmentIds := nodup_map_key_append h.enrollmentIds fun candidate hcandidate =>
    (hfresh candidate hcandidate).1
  active := by
    intro first hfirst second hsecond hactive hactive' hsequence hsubscriber
    rcases List.mem_append.mp hfirst with hold | hnew <;>
      rcases List.mem_append.mp hsecond with hold' | hnew'
    · exact h.active first hold second hold' hactive hactive' hsequence hsubscriber
    · obtain rfl := List.mem_singleton.mp hnew'
      have hended := (hfresh first hold).2 hsequence hsubscriber
      simp [hended] at hactive
    · obtain rfl := List.mem_singleton.mp hnew
      have hended := (hfresh second hold').2 hsequence.symm hsubscriber.symm
      simp [hended] at hactive'
    · rw [List.mem_singleton.mp hnew, List.mem_singleton.mp hnew']
  positioned := by
    intro other hother
    rcases List.mem_append.mp hother with hold | hnew
    · exact h.positioned other hold
    · rwa [List.mem_singleton.mp hnew]
  leased := by
    intro other hother
    rcases List.mem_append.mp hother with hold | hnew
    · exact h.leased other hold
    · rwa [List.mem_singleton.mp hnew]

theorem StoreInvariant.addDefinition {definition : SequenceDefinition} (h : StoreInvariant store)
    (hstored : definition.Stored) (hnumbered : Numbered definition)
    (hfresh : ∀ candidate ∈ store.definitions, candidate.id ≠ definition.id ∧
      CaseMapping.toLowerCase candidate.name ≠ CaseMapping.toLowerCase definition.name) :
    StoreInvariant { store with definitions := store.definitions ++ [definition] } where
  stored := by
    refine ⟨fun other hother => ?_, h.stored.enrollments⟩
    rcases List.mem_append.mp hother with hold | hnew
    · exact h.stored.definitions other hold
    · rwa [List.mem_singleton.mp hnew]
  definitionIds := nodup_map_key_append h.definitionIds fun candidate hcandidate =>
    (hfresh candidate hcandidate).1
  names := nodup_map_key_append h.names fun candidate hcandidate => (hfresh candidate hcandidate).2
  numbered := by
    intro other hother
    rcases List.mem_append.mp hother with hold | hnew
    · exact h.numbered other hold
    · rwa [List.mem_singleton.mp hnew]
  enrollmentIds := h.enrollmentIds
  active := h.active
  positioned enrollment henrollment :=
    (h.positioned enrollment henrollment).mono fun other hother _ =>
      ⟨other, List.mem_append_left _ hother, .refl other⟩
  leased := h.leased

theorem extends_of_replaceBy {definition previous : SequenceDefinition} (h : StoreInvariant store)
    (hprevious : previous ∈ store.definitions) (hextends : Extends previous definition)
    {other : SequenceDefinition} (hother : other ∈ store.definitions) :
    ∃ other' ∈ replaceBy SequenceDefinition.id store.definitions definition,
      Extends other other' := by
  by_cases hid : other.id = definition.id
  · have hsame : other = previous :=
      List.inj_on_of_nodup_map h.definitionIds hother hprevious (hid.trans hextends.id)
    exact ⟨definition, mem_replaceBy_self hother hid, hsame ▸ hextends⟩
  · exact ⟨other, mem_replaceBy_of_ne hother hid, .refl other⟩

theorem StoreInvariant.replaceDefinition {definition previous : SequenceDefinition}
    (h : StoreInvariant store) (hprevious : previous ∈ store.definitions)
    (hextends : Extends previous definition) (hstored : definition.Stored)
    (hnumbered : Numbered definition)
    (hnames : ∀ candidate ∈ store.definitions, candidate.id ≠ definition.id →
      CaseMapping.toLowerCase candidate.name ≠ CaseMapping.toLowerCase definition.name) :
    StoreInvariant { store with
      definitions := replaceBy SequenceDefinition.id store.definitions definition } where
  stored := by
    refine ⟨fun other hother => ?_, h.stored.enrollments⟩
    rcases mem_replaceBy.mp hother with ⟨rfl, -⟩ | ⟨hold, -⟩
    · exact hstored
    · exact h.stored.definitions other hold
  definitionIds := by
    rw [show (fun definition : SequenceDefinition => definition.id) = SequenceDefinition.id from rfl,
      map_key_replaceBy]
    exact h.definitionIds
  names := nodup_map_replaceBy h.definitionIds h.names hnames
  numbered := by
    intro other hother
    rcases mem_replaceBy.mp hother with ⟨rfl, -⟩ | ⟨hold, -⟩
    · exact hnumbered
    · exact h.numbered other hold
  enrollmentIds := h.enrollmentIds
  active := h.active
  positioned enrollment henrollment :=
    (h.positioned enrollment henrollment).mono fun other hother _ =>
      extends_of_replaceBy h hprevious hextends hother
  leased := h.leased

/-- Removing a definition with all its enrollments keeps the invariant. -/
theorem StoreInvariant.removeDefinition {id : Text} (h : StoreInvariant store) :
    StoreInvariant
      { definitions := store.definitions.filter (·.id ≠ id)
        enrollments := store.enrollments.filter (·.sequenceId ≠ id) } where
  stored := ⟨fun definition hdefinition =>
      h.stored.definitions definition (List.mem_filter.mp hdefinition).1,
    fun enrollment henrollment =>
      h.stored.enrollments enrollment (List.mem_filter.mp henrollment).1⟩
  definitionIds := nodup_map_key_filter _ h.definitionIds
  names := nodup_map_key_filter _ h.names
  numbered definition hdefinition := h.numbered definition (List.mem_filter.mp hdefinition).1
  enrollmentIds := nodup_map_key_filter _ h.enrollmentIds
  active enrollment henrollment other hother :=
    h.active enrollment (List.mem_filter.mp henrollment).1 other (List.mem_filter.mp hother).1
  positioned := by
    intro enrollment henrollment
    obtain ⟨hmem, hother⟩ := List.mem_filter.mp henrollment
    refine (h.positioned enrollment hmem).mono fun definition hdefinition hid =>
      ⟨definition, ?_, .refl definition⟩
    exact List.mem_filter.mpr ⟨hdefinition, by simpa [hid] using hother⟩
  leased enrollment henrollment := h.leased enrollment (List.mem_filter.mp henrollment).1

end Preservation

/-! ## The moves of the operations -/

section Moves

variable {definitions : List SequenceDefinition} {enrollments : List SequenceEnrollment}
variable {before after : SequenceEnrollment}

/-- A record at the same step has the same position, whatever its status is, as
long as it is not ambiguous. -/
theorem Positioned.of_same (h : Positioned definitions before)
    (hsequence : after.sequenceId = before.sequenceId) (hrevision : after.revision = before.revision)
    (hstep : after.currentStepId = before.currentStepId) (hstatus : after.status ≠ .ambiguous) :
    Positioned definitions after := by
  obtain ⟨definition, hdefinition, hid, revision, hmem, hnumber, step, hsteps, hstepId, -⟩ := h
  exact ⟨definition, hdefinition, hid.trans hsequence.symm, revision, hmem,
    hnumber.trans hrevision.symm, step, hsteps, hstepId.trans hstep.symm,
    fun hambiguous => absurd hambiguous hstatus⟩

theorem leasedWhileRunning_of_unleased (next : UnleasedEnrollment)
    (h : next.val.status ≠ .running) : LeasedWhileRunning next.val := by
  simp [LeasedWhileRunning, next.property.1, next.property.2, h]

/-- Replacing one record moves that enrollment only. -/
theorem EnrollmentsMoved.replace (hmem : before ∈ enrollments)
    (hmoved : Moved definitions before after) :
    EnrollmentsMoved definitions enrollments
      (replaceBy SequenceEnrollment.id enrollments after) where
  ids := map_key_replaceBy
  moved enrollment henrollment := by
    rcases mem_replaceBy.mp henrollment with ⟨rfl, -⟩ | ⟨hold, -⟩
    · exact ⟨before, hmem, hmoved⟩
    · exact ⟨enrollment, hold, .inl rfl⟩

variable [MailboxContract] [CaseMapping] {store store' : SequenceStore}

theorem StoreInvariant.find?_enrollment (h : StoreInvariant store) {id : Text}
    {enrollment : SequenceEnrollment} :
    store.enrollments.find? (fun candidate => candidate.id = id) = some enrollment ↔
      enrollment ∈ store.enrollments ∧ enrollment.id = id :=
  find?_key_eq_some_iff h.enrollmentIds

theorem StoreInvariant.find?_definition (h : StoreInvariant store) {id : Text}
    {definition : SequenceDefinition} :
    store.definitions.find? (fun candidate => candidate.id = id) = some definition ↔
      definition ∈ store.definitions ∧ definition.id = id :=
  find?_key_eq_some_iff h.definitionIds

/-- The definition and the revision of a claim are those of the store. -/
theorem StoreInvariant.claimTarget_eq_some (h : StoreInvariant store)
    {candidate : SequenceEnrollment} {definition : SequenceDefinition}
    {revision : SequenceRevision}
    (htarget : claimTarget store.definitions candidate = some (definition, revision)) :
    definition ∈ store.definitions ∧ definition.id = candidate.sequenceId ∧
      definition.status = .active ∧ revision ∈ definition.revisions ∧
      revision.revision = candidate.revision := by
  unfold claimTarget at htarget
  rw [Option.bind_eq_bind, Option.bind_eq_some_iff] at htarget
  obtain ⟨found, hfound, htarget⟩ := htarget
  obtain ⟨hmem, hid⟩ := h.find?_definition.mp hfound
  split at htarget
  · simp at htarget
  · next hactive =>
      rw [Option.bind_eq_bind, Option.bind_eq_some_iff] at htarget
      obtain ⟨pinned, hpinned, htarget⟩ := htarget
      obtain ⟨rfl, rfl⟩ := Prod.mk.inj (Option.some.inj htarget)
      obtain ⟨hrevision, hnumber⟩ :=
        (h.stored.definitions found hmem).findRevision_eq_some_iff.mp hpinned
      exact ⟨hmem, hid, not_not.mp hactive, hrevision, hnumber⟩

theorem StoreInvariant.claimDue (h : StoreInvariant store) {options : ClaimDueOptions}
    {claimed : List ClaimedSequenceEnrollment}
    (hclaim : claimDue options store = (store', .ok claimed)) :
    store'.definitions = store.definitions ∧
      EnrollmentsMoved store.definitions store.enrollments store'.enrollments := by
  obtain ⟨rfl, hids, -, hclaims⟩ := claimDue_eq_ok h.stored h.enrollmentIds hclaim
  refine ⟨rfl, map_key_replaceAllBy, fun enrollment hmem => ?_⟩
  rcases (mem_replaceAllBy (by rw [List.map_map]; exact hids)).mp hmem with ⟨hnew, -⟩ | ⟨hold, -⟩
  · obtain ⟨entry, hentry, rfl⟩ := List.mem_map.mp hnew
    obtain ⟨token, candidate, hcandidate, hdue, -, hleased, hschema⟩ := hclaims entry hentry
    refine ⟨candidate, hcandidate, .inr ⟨?_, ?_, hschema, ?_, ?_⟩⟩
    · rw [hleased]
      exact ⟨rfl, rfl, rfl, rfl, rfl, rfl⟩
    · simp only [isDue, Bool.and_eq_true, decide_eq_true_eq] at hdue
      have hstatus := hdue.1.1
      simp only [List.mem_cons, List.not_mem_nil, or_false] at hstatus
      rcases hstatus with hstatus | hstatus | hstatus <;> simp [enrollmentIsTerminal, hstatus]
    · rw [hleased]
      exact (h.positioned candidate hcandidate).of_same rfl rfl rfl (by simp)
    · rw [hleased]
      simp [LeasedWhileRunning]
  · exact ⟨enrollment, hold, .inl rfl⟩

/-- A reconcile moves the enrollments whose lease it takes back. -/
theorem StoreInvariant.reconcile (h : StoreInvariant store) {options : ReconcileOptions}
    {result : SequenceReconcileResult}
    (hreconcile : reconcile options store = (store', .ok result)) :
    store'.definitions = store.definitions ∧
      EnrollmentsMoved store.definitions store.enrollments store'.enrollments := by
  obtain ⟨hdefinitions, hforall⟩ := reconcile_eq_ok h.stored h.enrollmentIds hreconcile
  have hmoved : List.Forall₂ (Moved store.definitions) store.enrollments store'.enrollments := by
    have hmem := (List.forall₂_and_left (p := (· ∈ store.enrollments)) _ _).mpr
      ⟨fun _ hmem => hmem, hforall⟩
    refine hmem.imp ?_
    rintro enrollment enrollment' ⟨hmem, ⟨-, rfl⟩ | ⟨-, hexpired, hrecovered⟩⟩
    · exact .inl rfl
    · obtain ⟨rfl, hschema⟩ := recoverEnrollment_eq_ok hrecovered
      simp only [leaseExpired, Bool.and_eq_true, Bool.not_eq_true'] at hexpired
      exact .inr ⟨⟨rfl, rfl, rfl, rfl, rfl, rfl⟩, hexpired.2, hschema,
        (h.positioned enrollment hmem).of_same rfl rfl rfl (by simp),
        by simp [LeasedWhileRunning]⟩
  refine ⟨hdefinitions, ?_, fun enrollment' hmem => ?_⟩
  · refine List.forall₂_eq_eq_eq ▸ ?_
    rw [List.forall₂_map_left_iff, List.forall₂_map_right_iff]
    exact hmoved.flip.imp fun _ _ hmove => (Moved.sameIdentity hmove).id
  · obtain ⟨i, hi, rfl⟩ := List.mem_iff_getElem.mp hmem
    have hbefore : i < store.enrollments.length := by
      have hlength := hmoved.length_eq
      omega
    exact ⟨store.enrollments[i], List.getElem_mem _,
      (List.forall₂_iff_get.mp hmoved).2 i hbefore hi⟩

end Moves

end ListmonkOps.Sequence
