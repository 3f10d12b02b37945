/-
The repository and what its clients know.

Clients do not invent the records they write. A new enrollment is built from a
definition that the repository returned, a completed claim from a claim it
granted, a resolution from an enrollment it returned; all of these may be stale
by the time they are used. This module adds that knowledge to the repository
and shows that the invariant of the document then holds in every history in
which no identifier is used again after its definition or enrollment was
deleted.
-/

import ListmonkOps.Math.Run
import ListmonkOps.Sequence.Invariant

namespace ListmonkOps.Sequence

open ListmonkOps.Math ListmonkOps.Runtime ListmonkOps.Transactional

/-- The repository with everything its clients have seen of it. -/
structure RepositoryWorld where
  store : SequenceStore := {}
  /-- The definitions it has returned. -/
  returned : List SequenceDefinition := []
  /-- The claims it has granted, with the time of their tick. -/
  claims : List (ClaimedSequenceEnrollment × ℤ) := []
  /-- The enrollments it has returned to operators. -/
  read : List SequenceEnrollment := []
  /-- The identifiers of definitions and enrollments it has deleted. -/
  deletedDefinitions : List Text := []
  deletedEnrollments : List Text := []

/-- A call of a client. Claims, enrollments and definitions that were returned
earlier are named by their position. -/
inductive RepositoryAction where
  | createDefinition (input : CreateSequenceDefinitionInput) (newId : Text) (now : ℤ)
  | updateDefinition (id : Text) (input : UpdateSequenceDefinitionInput) (now : ℤ)
  | deleteDefinition (id : Text)
  | setDefinitionStatus (id : Text) (status : SequenceDefinitionStatus) (now : ℤ)
  | getDefinition (id : Text)
  | createEnrollment (definition : ℕ) (input : CreateSequenceEnrollmentInput) (newId : Text)
      (now : ℤ)
  | getEnrollment (id : Text)
  | claimDue (options : ClaimDueOptions)
  | completeClaim (claim : ℕ) (lookup : Except Thrown Subscriber)
      (result : Except Thrown SendTransactionalOutput) (jitter : Option ℚ)
  | resolveAmbiguous (enrollment definition : ℕ) (resolution : SequenceAmbiguousResolution)
      (now : ℤ)
  | reconcile (options : ReconcileOptions)

namespace RepositoryWorld

variable [MailboxContract] [CaseMapping]

/-- The world after a call that returned a definition, or threw. -/
def afterDefinition (w : RepositoryWorld)
    (outcome : SequenceStore × Except SequenceError SequenceDefinition) : RepositoryWorld :=
  { w with store := outcome.1, returned := w.returned ++ outcome.2.toOption.toList }

/-- One call of a client; `none` where a client would not make it: a name that is
not trimmed, an identifier that was deleted, a definition of another sequence. -/
def step (w : RepositoryWorld) : RepositoryAction → Option RepositoryWorld
  | .createDefinition input newId now =>
      match createSequenceDefinition input newId now with
      | .error _ => some w
      | .ok definition =>
          if definition.id ∈ w.deletedDefinitions then none
          else some (w.afterDefinition (createDefinition definition w.store))
  | .updateDefinition id input now =>
      if input.name.all fun name => Text.trim name = name then
        let (store, result) := updateDefinition id input now w.store
        some (w.afterDefinition (store, result.map (·.definition)))
      else none
  | .deleteDefinition id =>
      match deleteDefinition id w.store with
      | (store, .error _) => some { w with store }
      | (store, .ok definition) =>
          some { w with
            store
            returned := w.returned ++ [definition]
            deletedDefinitions := id :: w.deletedDefinitions
            deletedEnrollments :=
              (w.store.enrollments.filter (·.sequenceId = id)).map (·.id) ++
                w.deletedEnrollments }
  | .setDefinitionStatus id status now =>
      some (w.afterDefinition (setDefinitionStatus id status now w.store))
  | .getDefinition id => some (w.afterDefinition (w.store, getDefinition id w.store))
  | .createEnrollment definition input newId now => do
      let definition ← w.returned[definition]?
      match createSequenceEnrollment definition input newId now with
      | .error _ => some w
      | .ok enrollment =>
          if enrollment.id ∈ w.deletedEnrollments then none
          else some { w with store := (createEnrollment enrollment w.store).1 }
  | .getEnrollment id =>
      some { w with read := w.read ++ (getEnrollment id w.store).toOption.toList }
  | .claimDue options =>
      let (store, result) := claimDue options w.store
      some { w with
        store
        claims := w.claims ++ (result.toOption.getD []).map fun claimed => (claimed, options.now) }
  | .completeClaim claim lookup result jitter => do
      let (claimed, now) ← w.claims[claim]?
      match executeClaimedEnrollment claimed now lookup result jitter with
      | .error _ => some w
      | .ok next => some { w with store := (completeClaim claimed.enrollment next w.store).1 }
  | .resolveAmbiguous enrollment definition resolution now => do
      let enrollment ← w.read[enrollment]?
      let definition ← w.returned[definition]?
      if definition.id ≠ enrollment.sequenceId then none
      else
        match ambiguousStep enrollment definition with
        | .error _ => some w
        | .ok (revision, step) =>
            match resolvedEnrollment enrollment revision step resolution now with
            | .error _ => some w
            | .ok next => some { w with store := (resolveAmbiguous enrollment next w.store).1 }
  | .reconcile options => some { w with store := (reconcile options w.store).1 }

/-- The step relation of the repository and its clients. -/
def Step (w : RepositoryWorld) (action : RepositoryAction) (w' : RepositoryWorld) : Prop :=
  w.step action = some w'

end RepositoryWorld

/-! ## What changes and what does not -/

/-- From one world to a later one: histories grow, enrollments keep their
identity, enrollments that have ended stay as they are; all of that until their
definition is deleted. -/
structure Stable (w w' : RepositoryWorld) : Prop where
  deletedDefinitions : w.deletedDefinitions ⊆ w'.deletedDefinitions
  deletedEnrollments : w.deletedEnrollments ⊆ w'.deletedEnrollments
  history : ∀ definition ∈ w.store.definitions, definition.id ∈ w'.deletedDefinitions ∨
    ∃ definition' ∈ w'.store.definitions, Extends definition definition'
  identity : ∀ enrollment ∈ w.store.enrollments, enrollment.id ∈ w'.deletedEnrollments ∨
    ∃ enrollment' ∈ w'.store.enrollments, SameIdentity enrollment enrollment'
  terminal : ∀ enrollment ∈ w.store.enrollments, enrollmentIsTerminal enrollment.status = true →
    enrollment.sequenceId ∈ w'.deletedDefinitions ∨ enrollment ∈ w'.store.enrollments

theorem SameIdentity.refl (enrollment : SequenceEnrollment) : SameIdentity enrollment enrollment :=
  ⟨rfl, rfl, rfl, rfl, rfl, rfl⟩

theorem SameIdentity.symm {before after : SequenceEnrollment} (h : SameIdentity before after) :
    SameIdentity after before :=
  ⟨h.id.symm, h.sequenceId.symm, h.revision.symm, h.subscriberId.symm, h.context.symm,
    h.createdAt.symm⟩

theorem Stable.refl (w : RepositoryWorld) : Stable w w where
  deletedDefinitions := List.Subset.refl _
  deletedEnrollments := List.Subset.refl _
  history definition h := .inr ⟨definition, h, .refl definition⟩
  identity enrollment h := .inr ⟨enrollment, h, .refl enrollment⟩
  terminal _ h _ := .inr h

theorem Stable.trans {first second third : RepositoryWorld} (h : Stable first second)
    (h' : Stable second third) : Stable first third where
  deletedDefinitions := List.Subset.trans h.deletedDefinitions h'.deletedDefinitions
  deletedEnrollments := List.Subset.trans h.deletedEnrollments h'.deletedEnrollments
  history definition hmem := by
    rcases h.history definition hmem with hdeleted | ⟨middle, hmiddle, hextends⟩
    · exact .inl (h'.deletedDefinitions hdeleted)
    · rcases h'.history middle hmiddle with hdeleted | ⟨last, hlast, hextends'⟩
      · exact .inl (hextends.id ▸ hdeleted)
      · exact .inr ⟨last, hlast, hextends.trans hextends'⟩
  identity enrollment hmem := by
    rcases h.identity enrollment hmem with hdeleted | ⟨middle, hmiddle, hsame⟩
    · exact .inl (h'.deletedEnrollments hdeleted)
    · rcases h'.identity middle hmiddle with hdeleted | ⟨last, hlast, hsame'⟩
      · exact .inl (hsame.id ▸ hdeleted)
      · exact .inr ⟨last, hlast, hsame.trans hsame'⟩
  terminal enrollment hmem hterminal := by
    rcases h.terminal enrollment hmem hterminal with hdeleted | hmiddle
    · exact .inl (h'.deletedDefinitions hdeleted)
    · exact h'.terminal enrollment hmiddle hterminal

/-- A definition that a client may still hold. -/
def DefinitionKnown (w : RepositoryWorld) (definition : SequenceDefinition) : Prop :=
  definition.id ∈ w.deletedDefinitions ∨
    ∃ definition' ∈ w.store.definitions, Extends definition definition'

/-- An enrollment that a client may still hold. -/
def EnrollmentKnown (w : RepositoryWorld) (enrollment : SequenceEnrollment) : Prop :=
  enrollment.id ∈ w.deletedEnrollments ∨
    ∃ enrollment' ∈ w.store.enrollments, SameIdentity enrollment enrollment'

theorem DefinitionKnown.mono {w w' : RepositoryWorld} {definition : SequenceDefinition}
    (h : DefinitionKnown w definition) (hstable : Stable w w') : DefinitionKnown w' definition := by
  rcases h with hdeleted | ⟨middle, hmiddle, hextends⟩
  · exact .inl (hstable.deletedDefinitions hdeleted)
  · rcases hstable.history middle hmiddle with hdeleted | ⟨last, hlast, hextends'⟩
    · exact .inl (hextends.id ▸ hdeleted)
    · exact .inr ⟨last, hlast, hextends.trans hextends'⟩

theorem EnrollmentKnown.mono {w w' : RepositoryWorld} {enrollment : SequenceEnrollment}
    (h : EnrollmentKnown w enrollment) (hstable : Stable w w') : EnrollmentKnown w' enrollment := by
  rcases h with hdeleted | ⟨middle, hmiddle, hsame⟩
  · exact .inl (hstable.deletedEnrollments hdeleted)
  · rcases hstable.identity middle hmiddle with hdeleted | ⟨last, hlast, hsame'⟩
    · exact .inl (hsame.id ▸ hdeleted)
    · exact .inr ⟨last, hlast, hsame.trans hsame'⟩

theorem numbered_of_appendRevision {previous definition : SequenceDefinition}
    {steps : List SequenceStep} {createdAt : DateTime} (h : Numbered previous)
    (hcurrent : definition.currentRevision = previous.currentRevision + 1)
    (hrevisions : definition.revisions = appendRevision previous steps createdAt) :
    Numbered definition := by
  unfold Numbered at h ⊢
  rw [hrevisions, appendRevision, List.map_append, h, hcurrent, List.range'_1_concat]
  simp [Nat.add_comm]

section Worlds

variable [MailboxContract] [CaseMapping] {w w' : RepositoryWorld}

/-- A claim whose parts belong together: the pinned revision of its definition,
with the step the enrollment stands on. -/
structure ClaimFits (claimed : ClaimedSequenceEnrollment) : Prop where
  stored : claimed.definition.Stored
  sequence : claimed.definition.id = claimed.enrollment.sequenceId
  revision : claimed.revision ∈ claimed.definition.revisions
  number : claimed.revision.revision = claimed.enrollment.revision
  step : ∃ step ∈ claimed.revision.steps, step.id = claimed.enrollment.currentStepId
  schema : enrollmentSchema claimed.enrollment = true

/-- The invariant of the repository and of what its clients know: what they hold was stored once,
and is still there in a later form unless it was deleted. -/
structure WorldInvariant (w : RepositoryWorld) : Prop where
  store : StoreInvariant w.store
  definitionsAlive : ∀ definition ∈ w.store.definitions, definition.id ∉ w.deletedDefinitions
  enrollmentsAlive : ∀ enrollment ∈ w.store.enrollments, enrollment.id ∉ w.deletedEnrollments
  returned : ∀ definition ∈ w.returned, definition.Stored ∧ Numbered definition ∧
    DefinitionKnown w definition
  claims : ∀ entry ∈ w.claims, ClaimFits entry.1 ∧ DefinitionKnown w entry.1.definition ∧
    EnrollmentKnown w entry.1.enrollment
  read : ∀ enrollment ∈ w.read, enrollmentSchema enrollment = true ∧ EnrollmentKnown w enrollment

theorem worldInvariant_empty : WorldInvariant ({} : RepositoryWorld) where
  store := storeInvariant_empty
  definitionsAlive := by simp
  enrollmentsAlive := by simp
  returned := by simp
  claims := by simp
  read := by simp

/-- The invariant after a call: the clients know what they knew, and what the call
returned. -/
theorem WorldInvariant.next (h : WorldInvariant w) (hstable : Stable w w')
    (hstore : StoreInvariant w'.store)
    (hdefinitions : ∀ definition ∈ w'.store.definitions, definition.id ∉ w'.deletedDefinitions)
    (henrollments : ∀ enrollment ∈ w'.store.enrollments, enrollment.id ∉ w'.deletedEnrollments)
    (hreturned : ∀ definition ∈ w'.returned, definition ∈ w.returned ∨
      definition ∈ w.store.definitions ∨ definition ∈ w'.store.definitions)
    (hclaims : ∀ entry ∈ w'.claims, entry ∈ w.claims ∨
      (ClaimFits entry.1 ∧ entry.1.definition ∈ w'.store.definitions ∧
        entry.1.enrollment ∈ w'.store.enrollments))
    (hread : ∀ enrollment ∈ w'.read, enrollment ∈ w.read ∨ enrollment ∈ w.store.enrollments) :
    WorldInvariant w' where
  store := hstore
  definitionsAlive := hdefinitions
  enrollmentsAlive := henrollments
  returned definition hmem := by
    rcases hreturned definition hmem with hold | hold | hnew
    · obtain ⟨hstored, hnumbered, hknown⟩ := h.returned definition hold
      exact ⟨hstored, hnumbered, hknown.mono hstable⟩
    · exact ⟨h.store.stored.definitions definition hold, h.store.numbered definition hold,
        hstable.history definition hold⟩
    · exact ⟨hstore.stored.definitions definition hnew, hstore.numbered definition hnew,
        .inr ⟨definition, hnew, .refl definition⟩⟩
  claims entry hmem := by
    rcases hclaims entry hmem with hold | ⟨hfits, hdefinition, henrollment⟩
    · obtain ⟨hfits, hdefinition, henrollment⟩ := h.claims entry hold
      exact ⟨hfits, hdefinition.mono hstable, henrollment.mono hstable⟩
    · exact ⟨hfits, .inr ⟨_, hdefinition, .refl _⟩, .inr ⟨_, henrollment, .refl _⟩⟩
  read enrollment hmem := by
    rcases hread enrollment hmem with hold | hstored
    · obtain ⟨hschema, hknown⟩ := h.read enrollment hold
      exact ⟨hschema, hknown.mono hstable⟩
    · exact ⟨h.store.stored.enrollments enrollment hstored, hstable.identity enrollment hstored⟩

theorem WorldInvariant.definition_of_known (h : WorldInvariant w) {definition : SequenceDefinition}
    (hknown : DefinitionKnown w definition) {enrollment : SequenceEnrollment}
    (hmem : enrollment ∈ w.store.enrollments) (hid : definition.id = enrollment.sequenceId) :
    ∃ definition' ∈ w.store.definitions, Extends definition definition' := by
  rcases hknown with hdeleted | hstored
  · obtain ⟨holder, hholder, hsequence, -⟩ := h.store.positioned enrollment hmem
    exact absurd (hsequence.trans hid.symm ▸ hdeleted) (h.definitionsAlive holder hholder)
  · exact hstored

theorem WorldInvariant.enrollment_of_known (h : WorldInvariant w)
    {enrollment stored : SequenceEnrollment} (hknown : EnrollmentKnown w enrollment)
    (hmem : stored ∈ w.store.enrollments) (hid : stored.id = enrollment.id) :
    SameIdentity enrollment stored := by
  rcases hknown with hdeleted | ⟨other, hother, hsame⟩
  · exact absurd (hid ▸ hdeleted) (h.enrollmentsAlive stored hmem)
  · have hotherId : other.id = stored.id := hsame.id.trans hid.symm
    rwa [List.inj_on_of_nodup_map h.store.enrollmentIds hother hmem hotherId] at hsame

theorem WorldInvariant.stable_of_moved (h : WorldInvariant w) {store : SequenceStore}
    (claims : List (ClaimedSequenceEnrollment × ℤ))
    (hdefinitions : store.definitions = w.store.definitions)
    (hmoved : EnrollmentsMoved w.store.definitions w.store.enrollments store.enrollments) :
    Stable w { w with store, claims } where
  deletedDefinitions := List.Subset.refl _
  deletedEnrollments := List.Subset.refl _
  history definition hmem := .inr ⟨definition, hdefinitions ▸ hmem, .refl definition⟩
  identity enrollment hmem := by
    obtain ⟨enrollment', hmem', hmove⟩ := hmoved.survives h.store.enrollmentIds hmem
    exact .inr ⟨enrollment', hmem', hmove.sameIdentity⟩
  terminal enrollment hmem hterminal := by
    obtain ⟨enrollment', hmem', rfl | ⟨-, hactive, -⟩⟩ :=
      hmoved.survives h.store.enrollmentIds hmem
    · exact .inr hmem'
    · simp [hterminal] at hactive

theorem WorldInvariant.move (h : WorldInvariant w) {store : SequenceStore}
    (claims : List (ClaimedSequenceEnrollment × ℤ))
    (hdefinitions : store.definitions = w.store.definitions)
    (hmoved : EnrollmentsMoved w.store.definitions w.store.enrollments store.enrollments)
    (hclaims : ∀ entry ∈ claims, entry ∈ w.claims ∨
      (ClaimFits entry.1 ∧ entry.1.definition ∈ store.definitions ∧
        entry.1.enrollment ∈ store.enrollments)) :
    WorldInvariant { w with store, claims } ∧ Stable w { w with store, claims } := by
  have hstable := h.stable_of_moved claims hdefinitions hmoved
  refine ⟨h.next hstable ?_ ?_ ?_ (fun _ hmem => .inl hmem) hclaims (fun _ hmem => .inl hmem),
    hstable⟩
  · obtain ⟨definitions, enrollments⟩ := store
    obtain rfl : definitions = w.store.definitions := hdefinitions
    exact h.store.moveEnrollments hmoved
  · intro definition hmem
    exact h.definitionsAlive definition (hdefinitions ▸ hmem)
  · intro enrollment hmem
    obtain ⟨origin, horigin, hmove⟩ := hmoved.moved enrollment hmem
    rw [hmove.sameIdentity.id]
    exact h.enrollmentsAlive origin horigin

/-! ## The calls -/

/-- A call that changes nothing in the store, and returns stored records. -/
theorem WorldInvariant.unchanged (h : WorldInvariant w) (returned : List SequenceDefinition)
    (read : List SequenceEnrollment)
    (hreturned : ∀ definition ∈ returned, definition ∈ w.returned ∨
      definition ∈ w.store.definitions)
    (hread : ∀ enrollment ∈ read, enrollment ∈ w.read ∨ enrollment ∈ w.store.enrollments) :
    WorldInvariant { w with returned, read } ∧ Stable w { w with returned, read } := by
  have hstable : Stable w { w with returned, read } := { Stable.refl w with }
  refine ⟨h.next hstable h.store h.definitionsAlive h.enrollmentsAlive ?_ (fun _ hmem => .inl hmem)
    hread, hstable⟩
  intro definition hmem
  rcases hreturned definition hmem with hold | hstored
  · exact .inl hold
  · exact .inr (.inl hstored)

theorem WorldInvariant.definitions (h : WorldInvariant w) {definitions : List SequenceDefinition}
    {definition : SequenceDefinition}
    (hstore : StoreInvariant { w.store with definitions })
    (hgrown : ∀ old ∈ w.store.definitions, ∃ new ∈ definitions, Extends old new)
    (hmem : definition ∈ definitions)
    (halive : ∀ new ∈ definitions, new = definition ∨ new ∈ w.store.definitions)
    (hnew : definition.id ∉ w.deletedDefinitions) :
    WorldInvariant (w.afterDefinition ({ w.store with definitions }, .ok definition)) ∧
      Stable w (w.afterDefinition ({ w.store with definitions }, .ok definition)) := by
  have hstable : Stable w (w.afterDefinition ({ w.store with definitions }, .ok definition)) :=
    { Stable.refl w with history := fun old hold => .inr (hgrown old hold) }
  refine ⟨h.next hstable hstore ?_ h.enrollmentsAlive ?_ (fun _ hmem => .inl hmem)
    (fun _ hmem => .inl hmem), hstable⟩
  · intro new hnewMem
    rcases halive new hnewMem with rfl | hold
    · exact hnew
    · exact h.definitionsAlive new hold
  · intro returned hreturned
    rcases List.mem_append.mp hreturned with hold | hlast
    · exact .inl hold
    · obtain rfl : returned = definition := List.mem_singleton.mp hlast
      exact .inr (.inr hmem)

theorem WorldInvariant.createDefinition (h : WorldInvariant w)
    {input : CreateSequenceDefinitionInput} {newId : Text} {now : ℤ}
    (hstep : w.Step (.createDefinition input newId now) w') : WorldInvariant w' ∧ Stable w w' := by
  simp only [RepositoryWorld.Step, RepositoryWorld.step] at hstep
  split at hstep
  · obtain rfl := Option.some.inj hstep
    exact ⟨h, .refl w⟩
  · next definition hcreate =>
      obtain ⟨revision, hparse, -, hcurrent, hrevisions, hnumber⟩ :=
        createSequenceDefinition_eq_ok hcreate
      split at hstep
      · simp at hstep
      · next hnew =>
          obtain rfl := Option.some.inj hstep
          rcases hcall : Sequence.createDefinition definition w.store with ⟨store, error | result⟩
          · obtain rfl := createDefinition_error hcall
            refine h.unchanged (w.returned ++ []) w.read ?_
              (fun _ hmem => .inl hmem)
            exact fun _ hmem => .inl (by simpa using hmem)
          · obtain ⟨hvalid, hfresh, rfl⟩ := createDefinition_eq_ok h.store.stored hcall
            obtain rfl := Except.ok.inj (hparse.symm.trans hvalid)
            refine h.definitions (h.store.addDefinition (stored_of_parseSequenceDefinition hparse)
              ?_ hfresh) ?_ (by simp) ?_ hnew
            · simp [Numbered, hrevisions, hnumber, hcurrent]
            · exact fun old hold => ⟨old, List.mem_append_left _ hold, .refl old⟩
            · intro new hmem
              rcases List.mem_append.mp hmem with hold | hlast
              · exact .inr hold
              · exact .inl (List.mem_singleton.mp hlast)

theorem WorldInvariant.replaceDefinition (h : WorldInvariant w)
    {previous definition : SequenceDefinition} (hprevious : previous ∈ w.store.definitions)
    (hextends : Extends previous definition)
    (hstore : StoreInvariant { w.store with
      definitions := replaceBy SequenceDefinition.id w.store.definitions definition }) :
    WorldInvariant (w.afterDefinition ({ w.store with
        definitions := replaceBy SequenceDefinition.id w.store.definitions definition },
          .ok definition)) ∧
      Stable w (w.afterDefinition ({ w.store with
        definitions := replaceBy SequenceDefinition.id w.store.definitions definition },
          .ok definition)) := by
  refine h.definitions hstore (fun old hold => extends_of_replaceBy h.store hprevious hextends hold)
    (mem_replaceBy_self hprevious hextends.id.symm) ?_ ?_
  · intro new hmem
    rcases mem_replaceBy.mp hmem with ⟨rfl, -⟩ | ⟨hold, -⟩
    · exact .inl rfl
    · exact .inr hold
  · rw [hextends.id]
    exact h.definitionsAlive previous hprevious

theorem WorldInvariant.updateDefinition (h : WorldInvariant w) {id : Text}
    {input : UpdateSequenceDefinitionInput} {now : ℤ}
    (hstep : w.Step (.updateDefinition id input now) w') : WorldInvariant w' ∧ Stable w w' := by
  simp only [RepositoryWorld.Step, RepositoryWorld.step] at hstep
  split at hstep
  · next htrimmed =>
      obtain rfl := Option.some.inj hstep
      rcases hcall : Sequence.updateDefinition id input now w.store with ⟨store, error | result⟩
      · obtain rfl := exec_error hcall
        exact h.unchanged (w.returned ++ []) w.read
          (fun _ hmem => .inl (by simpa using hmem)) (fun _ hmem => .inl hmem)
      · obtain ⟨previous, hfound, hunchanged | ⟨steps, createdAt, hnames, hstored, hid, hname,
          hcurrent, hrevisions, rfl⟩⟩ := updateDefinition_eq_ok h.store.stored hcall
        · obtain ⟨rfl, hresult⟩ := hunchanged
          obtain ⟨hprevious, -⟩ := h.store.find?_definition.mp hfound
          refine h.unchanged (w.returned ++ [result.definition]) w.read ?_
            (fun _ hmem => .inl hmem)
          intro definition hmem
          rcases List.mem_append.mp hmem with hold | hlast
          · exact .inl hold
          · exact .inr (by rwa [List.mem_singleton.mp hlast, hresult])
        · obtain ⟨hprevious, rfl⟩ := h.store.find?_definition.mp hfound
          have hextends : Extends previous result.definition :=
            ⟨hid, by rw [hrevisions]; exact List.prefix_append _ _⟩
          refine h.replaceDefinition hprevious hextends (h.store.replaceDefinition hprevious
            hextends hstored (numbered_of_appendRevision (h.store.numbered previous hprevious)
              hcurrent hrevisions) fun candidate hcandidate hne => ?_)
          rw [hname]
          rw [hid] at hne
          cases hinput : input.name with
          | none =>
              rw [Option.getD_none, (h.store.stored.definitions previous hprevious).name_trimmed]
              intro hclash
              exact hne (congrArg SequenceDefinition.id
                (List.inj_on_of_nodup_map h.store.names hcandidate hprevious hclash))
          | some name =>
              have hname : Text.trim name = name := by simpa [hinput] using htrimmed
              rw [Option.getD_some, hname]
              exact hnames name hinput candidate hcandidate hne
  · simp at hstep

theorem WorldInvariant.setDefinitionStatus (h : WorldInvariant w) {id : Text}
    {status : SequenceDefinitionStatus} {now : ℤ}
    (hstep : w.Step (.setDefinitionStatus id status now) w') :
    WorldInvariant w' ∧ Stable w w' := by
  obtain rfl := Option.some.inj hstep
  rcases hcall : Sequence.setDefinitionStatus id status now w.store with ⟨store, error | result⟩
  · obtain rfl := exec_error hcall
    exact h.unchanged (w.returned ++ []) w.read
      (fun _ hmem => .inl (by simpa using hmem)) (fun _ hmem => .inl hmem)
  · obtain ⟨previous, hfound, ⟨rfl, rfl⟩ | ⟨hresult, hstored, rfl⟩⟩ :=
      setDefinitionStatus_eq_ok h.store.stored hcall
    · obtain ⟨hprevious, -⟩ := h.store.find?_definition.mp hfound
      refine h.unchanged (w.returned ++ [result]) w.read ?_
        (fun _ hmem => .inl hmem)
      intro definition hmem
      rcases List.mem_append.mp hmem with hold | hlast
      · exact .inl hold
      · exact .inr (by rwa [List.mem_singleton.mp hlast])
    · obtain ⟨hprevious, -⟩ := h.store.find?_definition.mp hfound
      have hextends : Extends previous result := by
        rw [hresult]
        exact ⟨rfl, List.prefix_refl _⟩
      refine h.replaceDefinition hprevious hextends (h.store.replaceDefinition hprevious hextends
        hstored ?_ fun candidate hcandidate hne hclash => hne ?_)
      · rw [hresult]
        exact h.store.numbered previous hprevious
      · rw [hresult] at hclash
        rw [hextends.id]
        exact congrArg SequenceDefinition.id
          (List.inj_on_of_nodup_map h.store.names hcandidate hprevious hclash)

theorem WorldInvariant.deleteDefinition (h : WorldInvariant w) {id : Text}
    (hstep : w.Step (.deleteDefinition id) w') : WorldInvariant w' ∧ Stable w w' := by
  simp only [RepositoryWorld.Step, RepositoryWorld.step] at hstep
  split at hstep
  · next store error hcall =>
      obtain rfl := Option.some.inj hstep
      obtain rfl := exec_error hcall
      exact ⟨h, .refl w⟩
  · next store definition hcall =>
      obtain rfl := Option.some.inj hstep
      obtain ⟨hfound, -, rfl⟩ := deleteDefinition_eq_ok h.store.stored hcall
      obtain ⟨hdefinition, rfl⟩ := h.store.find?_definition.mp hfound
      have hstable : Stable w
          { w with
            store :=
              { definitions := w.store.definitions.filter (·.id ≠ definition.id)
                enrollments := w.store.enrollments.filter (·.sequenceId ≠ definition.id) }
            returned := w.returned ++ [definition]
            deletedDefinitions := definition.id :: w.deletedDefinitions
            deletedEnrollments :=
              (w.store.enrollments.filter (·.sequenceId = definition.id)).map (·.id) ++
                w.deletedEnrollments } := by
        refine ⟨List.subset_cons_self _ _, List.subset_append_right _ _, ?_, ?_, ?_⟩
        · intro other hother
          by_cases hid : other.id = definition.id
          · exact .inl (by simp [hid])
          · exact .inr ⟨other, List.mem_filter.mpr ⟨hother, by simpa using hid⟩, .refl other⟩
        · intro enrollment henrollment
          by_cases hid : enrollment.sequenceId = definition.id
          · refine .inl (List.mem_append_left _ (List.mem_map_of_mem ?_))
            exact List.mem_filter.mpr ⟨henrollment, by simpa using hid⟩
          · exact .inr ⟨enrollment, List.mem_filter.mpr ⟨henrollment, by simpa using hid⟩,
              .refl enrollment⟩
        · intro enrollment henrollment _
          by_cases hid : enrollment.sequenceId = definition.id
          · exact .inl (by simp [hid])
          · exact .inr (List.mem_filter.mpr ⟨henrollment, by simpa using hid⟩)
      refine ⟨h.next hstable h.store.removeDefinition ?_ ?_ ?_ (fun _ hmem => .inl hmem)
        (fun _ hmem => .inl hmem), hstable⟩
      · intro other hother
        obtain ⟨hmem, hne⟩ := List.mem_filter.mp hother
        rw [List.mem_cons, not_or]
        exact ⟨by simpa using hne, h.definitionsAlive other hmem⟩
      · intro enrollment henrollment
        obtain ⟨hmem, hne⟩ := List.mem_filter.mp henrollment
        rw [List.mem_append, not_or]
        refine ⟨fun hdeleted => ?_, h.enrollmentsAlive enrollment hmem⟩
        obtain ⟨other, hother, hid⟩ := List.mem_map.mp hdeleted
        obtain ⟨hotherMem, hsequence⟩ := List.mem_filter.mp hother
        rw [List.inj_on_of_nodup_map h.store.enrollmentIds hotherMem hmem hid] at hsequence
        simp only [decide_eq_true_eq] at hsequence hne
        exact hne hsequence
      · intro returned hreturned
        rcases List.mem_append.mp hreturned with hold | hlast
        · exact .inl hold
        · rw [List.mem_singleton.mp hlast]
          exact .inr (.inl hdefinition)

theorem WorldInvariant.getDefinition (h : WorldInvariant w) {id : Text}
    (hstep : w.Step (.getDefinition id) w') : WorldInvariant w' ∧ Stable w w' := by
  obtain rfl := Option.some.inj hstep
  refine h.unchanged (w.returned ++ (Sequence.getDefinition id w.store).toOption.toList)
    w.read ?_ (fun _ hmem => .inl hmem)
  intro definition hmem
  rcases List.mem_append.mp hmem with hold | hread
  · exact .inl hold
  · refine .inr ?_
    cases hget : Sequence.getDefinition id w.store with
    | error error => simp [hget, Except.toOption] at hread
    | ok found =>
        obtain rfl : definition = found := by simpa [hget, Except.toOption] using hread
        obtain ⟨store, hparse, hfound⟩ := except_bind_eq_ok.mp hget
        obtain rfl := Except.ok.inj (h.store.stored.parse.symm.trans hparse)
        exact List.mem_of_find?_eq_some (getFileDefinition_eq_ok hfound)

theorem WorldInvariant.getEnrollment (h : WorldInvariant w) {id : Text}
    (hstep : w.Step (.getEnrollment id) w') : WorldInvariant w' ∧ Stable w w' := by
  obtain rfl := Option.some.inj hstep
  refine h.unchanged w.returned
    (w.read ++ (Sequence.getEnrollment id w.store).toOption.toList)
    (fun _ hmem => .inl hmem) ?_
  intro enrollment hmem
  rcases List.mem_append.mp hmem with hold | hread
  · exact .inl hold
  · refine .inr ?_
    cases hget : Sequence.getEnrollment id w.store with
    | error error => simp [hget, Except.toOption] at hread
    | ok found =>
        obtain rfl : enrollment = found := by simpa [hget, Except.toOption] using hread
        obtain ⟨store, hparse, hfound⟩ := except_bind_eq_ok.mp hget
        obtain rfl := Except.ok.inj (h.store.stored.parse.symm.trans hparse)
        exact List.mem_of_find?_eq_some (getFileEnrollment_eq_ok hfound)

theorem WorldInvariant.addEnrollment (h : WorldInvariant w) {enrollment : SequenceEnrollment}
    (hstore : StoreInvariant { w.store with enrollments := w.store.enrollments ++ [enrollment] })
    (hnew : enrollment.id ∉ w.deletedEnrollments) :
    WorldInvariant { w with
        store := { w.store with enrollments := w.store.enrollments ++ [enrollment] } } ∧
      Stable w { w with
        store := { w.store with enrollments := w.store.enrollments ++ [enrollment] } } := by
  have hstable : Stable w { w with
      store := { w.store with enrollments := w.store.enrollments ++ [enrollment] } } :=
    { Stable.refl w with
      identity := fun other hother => .inr ⟨other, List.mem_append_left _ hother, .refl other⟩
      terminal := fun other hother _ => .inr (List.mem_append_left _ hother) }
  refine ⟨h.next hstable hstore h.definitionsAlive ?_ (fun _ hmem => .inl hmem)
    (fun _ hmem => .inl hmem) (fun _ hmem => .inl hmem), hstable⟩
  intro other hother
  rcases List.mem_append.mp hother with hold | hlast
  · exact h.enrollmentsAlive other hold
  · rwa [List.mem_singleton.mp hlast]

theorem WorldInvariant.createEnrollment (h : WorldInvariant w) {definition : ℕ}
    {input : CreateSequenceEnrollmentInput} {newId : Text} {now : ℤ}
    (hstep : w.Step (.createEnrollment definition input newId now) w') :
    WorldInvariant w' ∧ Stable w w' := by
  simp only [RepositoryWorld.Step, RepositoryWorld.step, Option.bind_eq_bind,
    Option.bind_eq_some_iff] at hstep
  obtain ⟨definition, hdefinition, hstep⟩ := hstep
  split at hstep
  · obtain rfl := Option.some.inj hstep
    exact ⟨h, .refl w⟩
  · next enrollment hcreate =>
      split at hstep
      · simp at hstep
      · next hnew =>
          obtain rfl := Option.some.inj hstep
          rcases hcall : Sequence.createEnrollment enrollment w.store with ⟨store, error | result⟩
          · obtain rfl := exec_error hcall
            exact ⟨h, .refl w⟩
          · obtain ⟨⟨owner, howner⟩, hfresh, hschema, -, rfl⟩ :=
              createEnrollment_eq_ok h.store.stored hcall
            obtain ⟨-, -, hsequence, hstatus, -, htoken, hlease, revision, firstStep, hfound, hfirst,
              hnumber, hstepId⟩ := createSequenceEnrollment_eq_ok hcreate
            obtain ⟨hstored, -, hknown⟩ := h.returned definition (List.mem_of_getElem? hdefinition)
            obtain ⟨hownerMem, hownerId⟩ := h.store.find?_definition.mp howner
            obtain ⟨hrevision, -⟩ := hstored.findRevision_eq_some_iff.mp hfound
            refine h.addEnrollment (h.store.addEnrollment hschema hfresh ?_ ?_) hnew
            · rcases hknown with hdeleted | ⟨current, hcurrent, hextends⟩
              · refine absurd ?_ (h.definitionsAlive owner hownerMem)
                rwa [hownerId, hsequence]
              · exact ⟨current, hcurrent, hextends.id.trans hsequence.symm, revision,
                  hextends.history.subset hrevision, hnumber.symm, firstStep,
                  List.mem_of_head? hfirst, hstepId.symm, by simp [hstatus]⟩
            · simp [LeasedWhileRunning, htoken, hlease, hstatus]

theorem StoreInvariant.claimFits {store : SequenceStore} (h : StoreInvariant store)
    {options : ClaimDueOptions} {token : Text} {claimed : ClaimedSequenceEnrollment}
    {candidate : SequenceEnrollment} (hclaim : ClaimOf options store token claimed candidate) :
    ClaimFits claimed ∧ claimed.definition ∈ store.definitions := by
  obtain ⟨hdefinition, hid, -, hrevision, hnumber⟩ := h.claimTarget_eq_some hclaim.target
  have hstored := h.stored.definitions _ hdefinition
  obtain ⟨owner, howner, hownerId, pinned, hpinned, hpinnedNumber, step, hstep, hstepId, -⟩ :=
    h.positioned candidate hclaim.stored
  obtain rfl : owner = claimed.definition :=
    List.inj_on_of_nodup_map h.definitionIds howner hdefinition (hownerId.trans hid.symm)
  obtain rfl : pinned = claimed.revision :=
    List.inj_on_of_nodup_map hstored.numbers_distinct hpinned hrevision
      (hpinnedNumber.trans hnumber.symm)
  refine ⟨⟨hstored, ?_, hrevision, ?_, ⟨step, hstep, ?_⟩, hclaim.schema⟩, hdefinition⟩ <;>
    rw [hclaim.leased]
  · exact hid
  · exact hnumber
  · exact hstepId

theorem WorldInvariant.claimDue (h : WorldInvariant w) {options : ClaimDueOptions}
    (hstep : w.Step (.claimDue options) w') : WorldInvariant w' ∧ Stable w w' := by
  simp only [RepositoryWorld.Step, RepositoryWorld.step, Option.some.injEq] at hstep
  subst hstep
  rcases hcall : Sequence.claimDue options w.store with ⟨store, error | claimed⟩
  · obtain rfl := exec_error hcall
    refine h.move (w.claims ++ []) rfl (.refl _ w.store.enrollments) ?_
    exact fun _ hmem => .inl (by simpa using hmem)
  · obtain ⟨hdefinitions, hmoved⟩ := h.store.claimDue hcall
    refine h.move (w.claims ++ claimed.map fun entry => (entry, options.now))
      hdefinitions hmoved fun entry hmem => ?_
    rcases List.mem_append.mp hmem with hold | hnew
    · exact .inl hold
    · refine .inr ?_
      obtain ⟨claim, hclaim, rfl⟩ := List.mem_map.mp hnew
      obtain ⟨rfl, hids, -, hclaims⟩ := claimDue_eq_ok h.store.stored h.store.enrollmentIds hcall
      obtain ⟨token, candidate, hof⟩ := hclaims claim hclaim
      obtain ⟨hfits, hdefinition⟩ := h.store.claimFits hof
      refine ⟨hfits, hdefinition, (mem_replaceAllBy (by rw [List.map_map]; exact hids)).mpr
        (.inl ⟨List.mem_map_of_mem hclaim, candidate, hof.stored, ?_⟩)⟩
      rw [hof.leased]

omit [CaseMapping] in
theorem ClaimFits.positioned {claimed : ClaimedSequenceEnrollment} (h : ClaimFits claimed)
    {definitions : List SequenceDefinition} {definition : SequenceDefinition}
    (hmem : definition ∈ definitions) (hextends : Extends claimed.definition definition)
    {next : SequenceEnrollment} (hsame : SameIdentity claimed.enrollment next)
    (hprogress : Progress claimed.revision.steps claimed.enrollment next) :
    Positioned definitions next ∧ next.status ≠ .running := by
  have hposition : ∀ step ∈ claimed.revision.steps, step.id = next.currentStepId →
      (next.status = .ambiguous → step.isSend = true) → Positioned definitions next :=
    fun step hstep hid hsend =>
      ⟨definition, hmem, (hextends.id.trans h.sequence).trans hsame.sequenceId.symm,
        claimed.revision, hextends.history.subset h.revision, h.number.trans hsame.revision.symm,
        step, hstep, hid, hsend⟩
  obtain ⟨current, hcurrent, hcurrentId⟩ := h.step
  cases hprogress with
  | ended terminal same =>
      have hstatus : next.status ≠ .ambiguous ∧ next.status ≠ .running := by
        constructor <;> rintro hstatus <;> simp [enrollmentIsTerminal, hstatus] at terminal
      exact ⟨hposition current hcurrent (hcurrentId.trans same.symm) fun ha => absurd ha hstatus.1,
        hstatus.2⟩
  | ambiguous status same onSend =>
      obtain ⟨step, hstep, hid⟩ := onSend
      exact ⟨hposition _ hstep (hid.trans same.symm) fun _ => rfl, by simp [status]⟩
  | later status position fresh =>
      obtain ⟨i, j, step, step', -, -, -, hj, hid⟩ := position
      refine ⟨hposition step' (List.mem_of_getElem? hj) hid ?_, ?_⟩ <;>
        rcases status with status | status <;> simp [status]
  | retry status same counted below =>
      exact ⟨hposition current hcurrent (hcurrentId.trans same.symm) (by simp [status]),
        by simp [status]⟩

theorem WorldInvariant.completeClaim (h : WorldInvariant w) {claim : ℕ}
    {lookup : Except Thrown Subscriber} {result : Except Thrown SendTransactionalOutput}
    {jitter : Option ℚ} (hstep : w.Step (.completeClaim claim lookup result jitter) w') :
    WorldInvariant w' ∧ Stable w w' := by
  simp only [RepositoryWorld.Step, RepositoryWorld.step, Option.bind_eq_bind,
    Option.bind_eq_some_iff] at hstep
  obtain ⟨⟨claimed, now⟩, hclaim, hstep⟩ := hstep
  split at hstep
  · obtain rfl := Option.some.inj hstep
    exact ⟨h, .refl w⟩
  · next next hexecute =>
      obtain rfl := Option.some.inj hstep
      rcases hcall : Sequence.completeClaim claimed.enrollment next w.store with
        ⟨store, error | completed⟩
      · obtain rfl := exec_error hcall
        exact ⟨h, .refl w⟩
      · obtain ⟨stored, hfound, hlease, -, hschema, -, rfl⟩ :=
          completeClaim_eq_ok h.store.stored hcall
        obtain ⟨hmem, hid⟩ := h.store.find?_enrollment.mp hfound
        obtain ⟨hfits, hdefinition, henrollment⟩ := h.claims _ (List.mem_of_getElem? hclaim)
        obtain ⟨hsame, hprogress⟩ :=
          executeClaimedEnrollment_eq_ok (hfits.stored.wellOrdered hfits.revision) hexecute
        have hidentity := h.enrollment_of_known henrollment hmem hid
        obtain ⟨current, hcurrent, hextends⟩ := h.definition_of_known hdefinition hmem
          (hfits.sequence.trans hidentity.sequenceId.symm)
        obtain ⟨hpositioned, hnotRunning⟩ :=
          hfits.positioned hcurrent hextends hsame hprogress
        have hrunning : stored.status = .running :=
          (h.store.leased stored hmem).1.mp (Option.isSome_iff_ne_none.mpr hlease)
        refine h.move w.claims rfl (.replace hmem (.inr ⟨hidentity.symm.trans hsame, ?_,
          hschema, hpositioned, leasedWhileRunning_of_unleased next hnotRunning⟩))
          fun _ hold => .inl hold
        simp [enrollmentIsTerminal, hrunning]

theorem WorldInvariant.resolveAmbiguous (h : WorldInvariant w) {enrollment definition : ℕ}
    {resolution : SequenceAmbiguousResolution} {now : ℤ}
    (hstep : w.Step (.resolveAmbiguous enrollment definition resolution now) w') :
    WorldInvariant w' ∧ Stable w w' := by
  simp only [RepositoryWorld.Step, RepositoryWorld.step, Option.bind_eq_bind,
    Option.bind_eq_some_iff] at hstep
  obtain ⟨enrollment, henrollment, definition, hdefinition, hstep⟩ := hstep
  split at hstep
  · simp at hstep
  · next hsequence =>
      split at hstep
      · obtain rfl := Option.some.inj hstep
        exact ⟨h, .refl w⟩
      · next revision step hambiguous =>
          split at hstep
          · obtain rfl := Option.some.inj hstep
            exact ⟨h, .refl w⟩
          · next next hnext =>
              obtain rfl := Option.some.inj hstep
              rcases hcall : Sequence.resolveAmbiguous enrollment next w.store with
                ⟨store, error | resolved⟩
              · obtain rfl := exec_error hcall
                exact ⟨h, .refl w⟩
              · obtain ⟨stored, hfound, hstatus, -, hschema, -, rfl⟩ :=
                  resolveAmbiguous_eq_ok h.store.stored hcall
                obtain ⟨hmem, hid⟩ := h.store.find?_enrollment.mp hfound
                obtain ⟨hstored, -, hknown⟩ :=
                  h.returned definition (List.mem_of_getElem? hdefinition)
                obtain ⟨hrevision, hsend, hsendId⟩ := ambiguousStep_eq_ok hambiguous
                obtain ⟨hpinned, hnumber⟩ := hstored.findRevision_eq_some_iff.mp hrevision
                obtain ⟨hsame, hnextStatus, last, hlast, hlastId⟩ :=
                  resolvedEnrollment_eq_ok (hstored.wellOrdered hpinned) hsend hsendId hnext
                have hidentity := h.enrollment_of_known
                  (h.read enrollment (List.mem_of_getElem? henrollment)).2 hmem hid
                obtain ⟨current, hcurrent, hextends⟩ := h.definition_of_known hknown hmem
                  ((not_not.mp hsequence).trans hidentity.sequenceId.symm)
                refine h.move w.claims rfl
                  (.replace hmem (.inr ⟨hidentity.symm.trans hsame, ?_, hschema, ?_, ?_⟩))
                  fun _ hold => .inl hold
                · simp [enrollmentIsTerminal, hstatus]
                · refine ⟨current, hcurrent, ?_, revision, hextends.history.subset hpinned,
                    hnumber.trans hsame.revision.symm, last, hlast, hlastId, ?_⟩
                  · rw [hextends.id, hsame.sequenceId, not_not.mp hsequence]
                  · rcases hnextStatus with hnextStatus | hnextStatus <;> simp [hnextStatus]
                · refine leasedWhileRunning_of_unleased next ?_
                  rcases hnextStatus with hnextStatus | hnextStatus <;> simp [hnextStatus]

theorem WorldInvariant.reconcile (h : WorldInvariant w) {options : ReconcileOptions}
    (hstep : w.Step (.reconcile options) w') : WorldInvariant w' ∧ Stable w w' := by
  simp only [RepositoryWorld.Step, RepositoryWorld.step, Option.some.injEq] at hstep
  subst hstep
  rcases hcall : Sequence.reconcile options w.store with ⟨store, error | result⟩
  · obtain rfl := exec_error hcall
    exact ⟨h, .refl w⟩
  · obtain ⟨hdefinitions, hmoved⟩ := h.store.reconcile hcall
    exact h.move w.claims hdefinitions hmoved fun _ hold => .inl hold

theorem WorldInvariant.step (h : WorldInvariant w) {action : RepositoryAction}
    (hstep : w.Step action w') : WorldInvariant w' ∧ Stable w w' := by
  cases action with
  | createDefinition input newId now => exact h.createDefinition hstep
  | updateDefinition id input now => exact h.updateDefinition hstep
  | deleteDefinition id => exact h.deleteDefinition hstep
  | setDefinitionStatus id status now => exact h.setDefinitionStatus hstep
  | getDefinition id => exact h.getDefinition hstep
  | createEnrollment definition input newId now => exact h.createEnrollment hstep
  | getEnrollment id => exact h.getEnrollment hstep
  | claimDue options => exact h.claimDue hstep
  | completeClaim claim lookup result jitter => exact h.completeClaim hstep
  | resolveAmbiguous enrollment definition resolution now => exact h.resolveAmbiguous hstep
  | reconcile options => exact h.reconcile hstep

theorem WorldInvariant.run (h : WorldInvariant w) {actions : List RepositoryAction}
    (hrun : Run RepositoryWorld.Step w actions w') : WorldInvariant w' ∧ Stable w w' := by
  induction hrun with
  | refl => exact ⟨h, .refl _⟩
  | snoc before last ih =>
      obtain ⟨hmiddle, hstable⟩ := ih
      obtain ⟨hlast, hstable'⟩ := hmiddle.step last
      exact ⟨hlast, hstable.trans hstable'⟩

/-- The document keeps its invariant in every history of calls, and from any point
of a history to a later one the revisions that exist are kept and the enrollments
that have ended stay as they are, until their definition is deleted. -/
theorem repository_invariant {actions later : List RepositoryAction}
    (hrun : Run RepositoryWorld.Step {} actions w) (hlater : Run RepositoryWorld.Step w later w') :
    StoreInvariant w.store ∧ StoreInvariant w'.store ∧
      (∀ definition ∈ w.store.definitions, definition.id ∈ w'.deletedDefinitions ∨
        ∃ definition' ∈ w'.store.definitions, definition'.id = definition.id ∧
          definition.revisions <+: definition'.revisions) ∧
      (∀ enrollment ∈ w.store.enrollments, enrollmentIsTerminal enrollment.status = true →
        enrollment.sequenceId ∈ w'.deletedDefinitions ∨ enrollment ∈ w'.store.enrollments) := by
  obtain ⟨hinvariant, -⟩ := worldInvariant_empty.run hrun
  obtain ⟨hinvariant', hstable⟩ := hinvariant.run hlater
  refine ⟨hinvariant.store, hinvariant'.store, fun definition hmem => ?_, hstable.terminal⟩
  rcases hstable.history definition hmem with hdeleted | ⟨definition', hmem', hextends⟩
  · exact .inl hdeleted
  · exact .inr ⟨definition', hmem', hextends.id, hextends.history⟩

end Worlds

/-! ## A history, and two that clients must not make -/

def sampleSequenceId : Text := "11111111-1111-4111-8111-111111111111"

def sampleEnrollmentId : Text := "22222222-2222-4222-8222-222222222222"

def sampleLeaseToken : Text := "33333333-3333-4333-8333-333333333333"

def welcomeStep : SequenceStep :=
  .send { id := ⟨"welcome", by decide⟩, templateId := ⟨1, by decide⟩ }

def stopStep : SequenceStep := .stop ⟨"stop", by decide⟩

def sampleDefinition : CreateSequenceDefinitionInput :=
  { id := some sampleSequenceId, name := "Onboarding", steps := [welcomeStep] }

/-- An enrollment is claimed, its step executed, and its definition updated. -/
def sampleHistory : List RepositoryAction :=
  [.createDefinition sampleDefinition [] 0,
    .createEnrollment 0 { id := some sampleEnrollmentId, subscriberId := 7 } [] 0,
    .claimDue { limit := 10, now := 1000, leaseMs := 90000, newLeaseToken := fun _ => sampleLeaseToken },
    .completeClaim 0 (.ok {}) (.ok { sent := true, status := .accepted }) none]

/-- And then its definition gets a second revision. -/
def sampleUpdate : List RepositoryAction :=
  [.updateDefinition sampleSequenceId { steps := [welcomeStep, stopStep] } 2000]

theorem repository_invariant_sampleHistory :
    letI := plainMailboxContract
    letI := asciiCaseMapping
    ∃ w w', Run RepositoryWorld.Step {} sampleHistory w ∧
      Run RepositoryWorld.Step w sampleUpdate w' ∧
      w.store.enrollments.map (·.status) = [.completed] ∧
      StoreInvariant w'.store ∧
      ∀ enrollment ∈ w.store.enrollments, enrollmentIsTerminal enrollment.status = true →
        enrollment.sequenceId ∈ w'.deletedDefinitions ∨ enrollment ∈ w'.store.enrollments := by
  let := plainMailboxContract
  let := asciiCaseMapping
  have hfirst : (sampleHistory.foldlM RepositoryWorld.step {}).map
      (fun w => (w.store.enrollments.map (·.status), (sampleUpdate.foldlM
        RepositoryWorld.step w).isSome)) = some ([.completed], true) := by decide
  obtain ⟨w, hw, hstatus⟩ := Option.map_eq_some_iff.mp hfirst
  obtain ⟨hstatus, hsome⟩ := Prod.mk.inj hstatus
  obtain ⟨w', hw'⟩ := Option.isSome_iff_exists.mp hsome
  have hrun : Run RepositoryWorld.Step {} sampleHistory w := Run.of_foldlM hw
  have hlater : Run RepositoryWorld.Step w sampleUpdate w' := Run.of_foldlM hw'
  obtain ⟨-, hinvariant, -, hterminal⟩ := repository_invariant hrun hlater
  exact ⟨w, w', hrun, hlater, hstatus, hinvariant, hterminal⟩

instance (definition : SequenceDefinition) : Decidable (Numbered definition) :=
  inferInstanceAs (Decidable (_ = _))

instance (definitions : List SequenceDefinition) (enrollment : SequenceEnrollment) :
    Decidable (Positioned definitions enrollment) :=
  inferInstanceAs (Decidable (∃ definition ∈ definitions, _ ∧
    ∃ revision ∈ definition.revisions, _ ∧ ∃ step ∈ revision.steps, _))

/-- A definition whose only revision is numbered 2. -/
def skippedRevision : SequenceDefinition where
  id := sampleSequenceId
  name := "Onboarding"
  status := .active
  currentRevision := 2
  revisions := [{ revision := 2, steps := [welcomeStep], createdAt := { time := 0 } }]
  createdAt := { time := 0 }
  updatedAt := { time := 0 }

/-- The document after a subscriber was enrolled with a definition that had been
read at revision 2, deleted, and created again under its identifier. -/
def recreatedDefinition [MailboxContract] [CaseMapping] : Except SequenceError SequenceStore := do
  let definition ← createSequenceDefinition sampleDefinition [] 0
  let store := (createDefinition definition {}).1
  let store := (updateDefinition sampleSequenceId { steps := [welcomeStep, stopStep] } 0 store).1
  let stale ← getDefinition sampleSequenceId store
  let enrollment ← createSequenceEnrollment stale { subscriberId := 7 } sampleEnrollmentId 0
  let store := (deleteDefinition sampleSequenceId store).1
  let store := (createDefinition definition store).1
  return (createEnrollment enrollment store).1

/-- The repository takes any definition with a valid history, so revisions need
not start at 1; and it does not remember deleted identifiers, so an enrollment
can pin a revision that does not exist. -/
theorem repository_invariant_fails :
    letI := plainMailboxContract
    letI := asciiCaseMapping
    (¬ ∀ definition ∈ (createDefinition skippedRevision {}).1.definitions, Numbered definition) ∧
      ∃ store, recreatedDefinition = .ok store ∧
        ¬ ∀ enrollment ∈ store.enrollments, Positioned store.definitions enrollment := by
  let := plainMailboxContract
  let := asciiCaseMapping
  refine ⟨by decide, ?_⟩
  have hbroken : recreatedDefinition.toOption.any (fun store =>
      !store.enrollments.all fun enrollment => Positioned store.definitions enrollment) = true := by
    decide
  cases hstore : recreatedDefinition with
  | error error => simp [hstore, Except.toOption] at hbroken
  | ok store => exact ⟨store, rfl, by simpa [hstore, Except.toOption] using hbroken⟩

end ListmonkOps.Sequence
