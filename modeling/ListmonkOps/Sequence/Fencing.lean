/-
Lease fencing.

`completeClaim` replaces a whole record by one computed from a snapshot that is
as old as the claim. This is safe because a record that is leased in the
document is exactly the record of a claim that nobody has touched since: the
claims that are still live are computed here from the events of a history, and
shown to be the leased records of the document.
-/

import ListmonkOps.Sequence.History

namespace ListmonkOps.Sequence

open ListmonkOps.Math ListmonkOps.Runtime

/-! ## Calls and events -/

/-- A call of the repository with arbitrary arguments. -/
inductive RepositoryCall where
  | createDefinition (definition : SequenceDefinition)
  | updateDefinition (id : Text) (input : UpdateSequenceDefinitionInput) (now : ℤ)
  | deleteDefinition (id : Text)
  | setDefinitionStatus (id : Text) (status : SequenceDefinitionStatus) (now : ℤ)
  | createEnrollment (enrollment : SequenceEnrollment)
  | claimDue (options : ClaimDueOptions)
  | completeClaim (enrollment : SequenceEnrollment) (next : UnleasedEnrollment)
  | resolveAmbiguous (enrollment : SequenceEnrollment) (next : UnleasedEnrollment)
  | reconcile (options : ReconcileOptions)

/-- What a call did to leases. -/
inductive RepositoryEvent where
  /-- Claims were granted. -/
  | claimed (entries : List ClaimedSequenceEnrollment)
  /-- A claim was completed. -/
  | completed (enrollment : SequenceEnrollment)
  /-- Expired leases were taken back. -/
  | recovered (ids : List Text)
  /-- An ambiguous enrollment was resolved. -/
  | resolved (enrollment : SequenceEnrollment)
  /-- Nothing. -/
  | other

/-- The records a call brings: new enrollments are not leased, and the next record
of an enrollment is one of the same enrollment. -/
def RepositoryCall.Admissible : RepositoryCall → Prop
  | .createEnrollment enrollment =>
      enrollment.leaseToken = none ∧ enrollment.leaseExpiresAt = none
  | .completeClaim enrollment next => next.val.id = enrollment.id
  | .resolveAmbiguous enrollment next => next.val.id = enrollment.id
  | _ => True

section Calls

variable [MailboxContract] [CaseMapping]

/-- The document after a call, and what the call did to leases. -/
def performCall (store : SequenceStore) :
    RepositoryCall → SequenceStore × RepositoryEvent
  | .createDefinition definition => ((createDefinition definition store).1, .other)
  | .updateDefinition id input now => ((updateDefinition id input now store).1, .other)
  | .deleteDefinition id => ((deleteDefinition id store).1, .other)
  | .setDefinitionStatus id status now => ((setDefinitionStatus id status now store).1, .other)
  | .createEnrollment enrollment => ((createEnrollment enrollment store).1, .other)
  | .claimDue options =>
      match claimDue options store with
      | (store', .ok entries) => (store', .claimed entries)
      | (store', .error _) => (store', .other)
  | .completeClaim enrollment next =>
      match completeClaim enrollment next store with
      | (store', .ok _) => (store', .completed enrollment)
      | (store', .error _) => (store', .other)
  | .resolveAmbiguous enrollment next =>
      match resolveAmbiguous enrollment next store with
      | (store', .ok _) => (store', .resolved enrollment)
      | (store', .error _) => (store', .other)
  | .reconcile options =>
      match reconcile options store with
      | (store', .ok _) => (store', .recovered (recoveredIds options store.enrollments))
      | (store', .error _) => (store', .other)

/-- One call, by any worker or operator. -/
def CallStep (store : SequenceStore) (event : RepositoryEvent) (store' : SequenceStore) : Prop :=
  ∃ call : RepositoryCall, call.Admissible ∧ performCall store call = (store', event)

end Calls

/-! ## Live claims -/

/-- The claims that are live after an event. -/
def liveAfterEvent (live : List SequenceEnrollment) : RepositoryEvent → List SequenceEnrollment
  | .claimed entries =>
      live.filter (fun record => record.id ∉ entries.map (·.enrollment.id)) ++
        entries.map (·.enrollment)
  | .completed enrollment =>
      live.filter fun record =>
        ¬ (record.id = enrollment.id ∧ record.leaseToken = enrollment.leaseToken)
  | .recovered ids => live.filter fun record => record.id ∉ ids
  | .resolved _ | .other => live

/-- The claims that are live after a history. -/
def liveClaims (events : List RepositoryEvent) : List SequenceEnrollment :=
  events.foldl liveAfterEvent []

/-- Does an event touch the enrollment of a claim, or complete the claim? -/
def Touches (claim : SequenceEnrollment) : RepositoryEvent → Prop
  | .claimed entries => claim.id ∈ entries.map (·.enrollment.id)
  | .completed enrollment =>
      enrollment.id = claim.id ∧ enrollment.leaseToken = claim.leaseToken
  | .recovered ids => claim.id ∈ ids
  | .resolved _ | .other => False

/-- No event of a history touches the claim. -/
def Untouched (claim : SequenceEnrollment) (events : List RepositoryEvent) : Prop :=
  ∀ event ∈ events, ¬ Touches claim event

/-- The lease tokens drawn by the claims of an event. -/
def drawnTokens : RepositoryEvent → List (Option Text)
  | .claimed entries => entries.map (·.enrollment.leaseToken)
  | _ => []

@[simp]
theorem liveClaims_snoc (events : List RepositoryEvent) (event : RepositoryEvent) :
    liveClaims (events ++ [event]) = liveAfterEvent (liveClaims events) event := by
  simp [liveClaims]

theorem mem_liveAfterEvent {live : List SequenceEnrollment} {event : RepositoryEvent}
    {claim : SequenceEnrollment} :
    claim ∈ liveAfterEvent live event ↔
      (claim ∈ live ∧ ¬ Touches claim event) ∨
        ∃ entries, event = .claimed entries ∧ claim ∈ entries.map (·.enrollment) := by
  cases event with
  | claimed entries => simp [liveAfterEvent, Touches]
  | completed enrollment =>
      simp only [liveAfterEvent, Touches, List.mem_filter, decide_not, Bool.not_eq_true',
        decide_eq_false_iff_not, reduceCtorEq, false_and, exists_false, or_false]
      rw [eq_comm (a := claim.id), eq_comm (a := claim.leaseToken)]
  | recovered ids => simp [liveAfterEvent, Touches]
  | resolved enrollment => simp [liveAfterEvent, Touches]
  | other => simp [liveAfterEvent, Touches]

/-- A granted claim that was not touched since is live. -/
theorem mem_liveClaims_of_untouched {events : List RepositoryEvent} {i : ℕ}
    {entries : List ClaimedSequenceEnrollment} {claimed : ClaimedSequenceEnrollment}
    (hgrant : events[i]? = some (.claimed entries)) (hclaimed : claimed ∈ entries)
    (huntouched : Untouched claimed.enrollment (events.drop (i + 1))) :
    claimed.enrollment ∈ liveClaims events := by
  induction events using List.reverseRecOn with
  | nil => simp at hgrant
  | append_singleton events event ih =>
      have hi := (List.getElem?_eq_some_iff.mp hgrant).1
      rw [List.length_append, List.length_singleton] at hi
      rw [liveClaims_snoc, mem_liveAfterEvent]
      by_cases hlast : i = events.length
      · subst hlast
        rw [List.getElem?_concat_length] at hgrant
        exact .inr ⟨entries, Option.some.inj hgrant, List.mem_map_of_mem hclaimed⟩
      · have hbefore : i < events.length := by omega
        rw [List.getElem?_append_left hbefore] at hgrant
        rw [List.drop_append_of_le_length (by omega)] at huntouched
        refine .inl ⟨ih hgrant fun event hevent => huntouched event ?_, huntouched event ?_⟩
        · exact List.mem_append_left _ hevent
        · simp

/-- A live claim was granted and not touched since. -/
theorem exists_grant_of_mem_liveClaims {events : List RepositoryEvent}
    {claim : SequenceEnrollment} (hlive : claim ∈ liveClaims events) :
    ∃ (i : ℕ) (entries : List ClaimedSequenceEnrollment) (claimed : ClaimedSequenceEnrollment),
      events[i]? = some (.claimed entries) ∧ claimed ∈ entries ∧ claimed.enrollment = claim ∧
        Untouched claim (events.drop (i + 1)) := by
  induction events using List.reverseRecOn with
  | nil => simp [liveClaims] at hlive
  | append_singleton events event ih =>
      rw [liveClaims_snoc, mem_liveAfterEvent] at hlive
      rcases hlive with ⟨hold, huntouched⟩ | ⟨entries, rfl, hnew⟩
      · obtain ⟨i, entries, claimed, hgrant, hclaimed, hrecord, hsince⟩ := ih hold
        have hi := (List.getElem?_eq_some_iff.mp hgrant).1
        refine ⟨i, entries, claimed, ?_, hclaimed, hrecord, ?_⟩
        · rwa [List.getElem?_append_left hi]
        · rw [List.drop_append_of_le_length (by omega)]
          intro later hlater
          rcases List.mem_append.mp hlater with hmem | hlast
          · exact hsince later hmem
          · rwa [List.mem_singleton.mp hlast]
      · obtain ⟨claimed, hclaimed, rfl⟩ := List.mem_map.mp hnew
        refine ⟨events.length, entries, claimed, List.getElem?_concat_length, hclaimed, rfl, ?_⟩
        simp [Untouched]

theorem grant_unique {events : List RepositoryEvent}
    (hdistinct : (events.flatMap drawnTokens).Nodup) {i j : ℕ}
    {entries entries' : List ClaimedSequenceEnrollment}
    {claimed claimed' : ClaimedSequenceEnrollment}
    (hi : events[i]? = some (.claimed entries)) (hj : events[j]? = some (.claimed entries'))
    (hclaimed : claimed ∈ entries) (hclaimed' : claimed' ∈ entries')
    (htoken : claimed.enrollment.leaseToken = claimed'.enrollment.leaseToken) :
    i = j ∧ claimed = claimed' := by
  obtain ⟨heach, hpairwise⟩ := List.nodup_flatMap.mp hdistinct
  have hdraws : claimed.enrollment.leaseToken ∈ drawnTokens (.claimed entries) :=
    List.mem_map_of_mem hclaimed
  have hdraws' : claimed.enrollment.leaseToken ∈ drawnTokens (.claimed entries') := by
    rw [htoken]
    exact List.mem_map_of_mem hclaimed'
  obtain ⟨hil, hieq⟩ := List.getElem?_eq_some_iff.mp hi
  obtain ⟨hjl, hjeq⟩ := List.getElem?_eq_some_iff.mp hj
  rw [List.pairwise_iff_getElem] at hpairwise
  have hsame : i = j := by
    by_contra hne
    rcases Nat.lt_or_gt_of_ne hne with hlt | hlt
    · have hdisjoint := hpairwise i j hil hjl hlt
      rw [hieq, hjeq] at hdisjoint
      exact hdisjoint hdraws hdraws'
    · have hdisjoint := hpairwise j i hjl hil hlt
      rw [hieq, hjeq] at hdisjoint
      exact hdisjoint hdraws' hdraws
  subst hsame
  obtain rfl : entries = entries' := by
    have hevent := Option.some.inj (hi.symm.trans hj)
    exact RepositoryEvent.claimed.inj hevent
  refine ⟨rfl, List.inj_on_of_nodup_map (heach _ (List.mem_of_getElem? hi)) hclaimed hclaimed'
    htoken⟩

/-! ## The invariant -/

section Invariant

/-- Replacing a record by an unleased one drops the lease of that record only. -/
theorem mem_replaceBy_of_leased {enrollments : List SequenceEnrollment} {next : UnleasedEnrollment}
    {record : SequenceEnrollment} (hleased : record.leaseToken ≠ none) :
    record ∈ replaceBy SequenceEnrollment.id enrollments next.val ↔
      record ∈ enrollments ∧ record.id ≠ next.val.id := by
  rw [mem_replaceBy, or_iff_right]
  rintro ⟨rfl, -⟩
  exact hleased next.property.1

theorem nodup_replaceEnrollment {enrollments : List SequenceEnrollment}
    (hids : (enrollments.map (·.id)).Nodup) (next : SequenceEnrollment) :
    ((replaceBy SequenceEnrollment.id enrollments next).map (·.id)).Nodup := by
  rw [show (fun enrollment : SequenceEnrollment => enrollment.id) = SequenceEnrollment.id from rfl,
    map_key_replaceBy]
  exact hids

variable [MailboxContract]
variable {events : List RepositoryEvent} {store store' : SequenceStore}

/-- The leased records of the document are the live claims: those that no later event has touched.
-/
structure FencingInvariant (events : List RepositoryEvent) (store : SequenceStore) : Prop where
  stored : store.Stored
  ids : (store.enrollments.map (·.id)).Nodup
  leased : ∀ record, record ∈ liveClaims events ↔
    record ∈ store.enrollments ∧ record.leaseToken ≠ none
  running : ∀ record ∈ liveClaims events, record.status = .running

theorem fencingInvariant_empty : FencingInvariant [] ({} : SequenceStore) where
  stored := ⟨by simp, by simp⟩
  ids := List.nodup_nil
  leased := by simp [liveClaims]
  running := by simp [liveClaims]

theorem FencingInvariant.running_of_leased (h : FencingInvariant events store)
    {record : SequenceEnrollment} (hmem : record ∈ store.enrollments)
    (hleased : record.leaseToken ≠ none) : record.status = .running :=
  h.running record ((h.leased record).mpr ⟨hmem, hleased⟩)

theorem stored_replaceEnrollment (hstored : store.Stored) {next : SequenceEnrollment}
    (hschema : enrollmentSchema next = true) :
    SequenceStore.Stored { store with
      enrollments := replaceBy SequenceEnrollment.id store.enrollments next } := by
  refine ⟨hstored.definitions, fun other hother => ?_⟩
  rcases mem_replaceBy.mp hother with ⟨rfl, -⟩ | ⟨hold, -⟩
  · exact hschema
  · exact hstored.enrollments other hold

theorem FencingInvariant.quiet (h : FencingInvariant events store) {event : RepositoryEvent}
    (hquiet : ∀ live, liveAfterEvent live event = live) (hstored : store'.Stored)
    (hids : (store'.enrollments.map (·.id)).Nodup)
    (hleased : ∀ record, record.leaseToken ≠ none →
      (record ∈ store'.enrollments ↔ record ∈ store.enrollments)) :
    FencingInvariant (events ++ [event]) store' where
  stored := hstored
  ids := hids
  leased record := by
    rw [liveClaims_snoc, hquiet, h.leased]
    exact and_congr_left fun htoken => (hleased record htoken).symm
  running record := by
    rw [liveClaims_snoc, hquiet]
    exact h.running record

theorem FencingInvariant.failed (h : FencingInvariant events store) :
    FencingInvariant (events ++ [.other]) store :=
  h.quiet (fun _ => rfl) h.stored h.ids fun _ _ => Iff.rfl

theorem FencingInvariant.definitions (h : FencingInvariant events store)
    {definitions : List SequenceDefinition} (hstored : ∀ definition ∈ definitions, definition.Stored) :
    FencingInvariant (events ++ [.other]) { store with definitions } :=
  h.quiet (fun _ => rfl) ⟨hstored, h.stored.enrollments⟩ h.ids fun _ _ => Iff.rfl

theorem FencingInvariant.replaceDefinition (h : FencingInvariant events store)
    {definition : SequenceDefinition} (hstored : definition.Stored) :
    FencingInvariant (events ++ [.other]) { store with
      definitions := replaceBy SequenceDefinition.id store.definitions definition } := by
  refine h.definitions fun other hother => ?_
  rcases mem_replaceBy.mp hother with ⟨rfl, -⟩ | ⟨hold, -⟩
  · exact hstored
  · exact h.stored.definitions other hold

theorem FencingInvariant.setDefinitionStatus (h : FencingInvariant events store) (id : Text)
    (status : SequenceDefinitionStatus) (now : ℤ) :
    FencingInvariant (events ++ [.other]) (setDefinitionStatus id status now store).1 := by
  rcases hcall : Sequence.setDefinitionStatus id status now store with ⟨store', error | result⟩
  · rw [exec_error hcall]
    exact h.failed
  · obtain ⟨previous, -, ⟨rfl, -⟩ | ⟨-, hstored, rfl⟩⟩ := setDefinitionStatus_eq_ok h.stored hcall
    · exact h.failed
    · exact h.replaceDefinition hstored

/-- A deletion drops enrollments that have ended, and no leases with them. -/
theorem FencingInvariant.deleteDefinition (h : FencingInvariant events store) (id : Text) :
    FencingInvariant (events ++ [.other]) (deleteDefinition id store).1 := by
  rcases hcall : Sequence.deleteDefinition id store with ⟨store', error | result⟩
  · rw [exec_error hcall]
    exact h.failed
  · obtain ⟨-, hterminal, rfl⟩ := deleteDefinition_eq_ok h.stored hcall
    refine h.quiet (fun _ => rfl) ⟨fun definition hmem => h.stored.definitions definition
      (List.mem_filter.mp hmem).1, fun enrollment hmem => h.stored.enrollments enrollment
      (List.mem_filter.mp hmem).1⟩ (nodup_map_key_filter _ h.ids) fun record hleased => ?_
    rw [List.mem_filter, and_iff_left_iff_imp]
    intro hmem
    rw [decide_eq_true_eq]
    intro hid
    have hended := hterminal record hmem hid
    simp [h.running_of_leased hmem hleased, enrollmentIsTerminal] at hended

theorem FencingInvariant.createEnrollment (h : FencingInvariant events store)
    {enrollment : SequenceEnrollment} (hunleased : enrollment.leaseToken = none) :
    FencingInvariant (events ++ [.other]) (createEnrollment enrollment store).1 := by
  rcases hcall : Sequence.createEnrollment enrollment store with ⟨store', error | result⟩
  · rw [exec_error hcall]
    exact h.failed
  · obtain ⟨-, hfresh, hschema, -, rfl⟩ := createEnrollment_eq_ok h.stored hcall
    refine h.quiet (fun _ => rfl) ⟨h.stored.definitions, fun other hother => ?_⟩
      (nodup_map_key_append h.ids fun other hother => (hfresh other hother).1)
      fun record hleased => ?_
    · rcases List.mem_append.mp hother with hold | hnew
      · exact h.stored.enrollments other hold
      · rwa [List.mem_singleton.mp hnew]
    · rw [List.mem_append, List.mem_singleton, or_iff_left_iff_imp]
      rintro rfl
      exact absurd hunleased hleased

theorem FencingInvariant.resolveAmbiguous (h : FencingInvariant events store)
    {enrollment result : SequenceEnrollment} {next : UnleasedEnrollment}
    (hid : next.val.id = enrollment.id)
    (hcall : resolveAmbiguous enrollment next store = (store', .ok result)) :
    FencingInvariant (events ++ [.resolved enrollment]) store' := by
  obtain ⟨stored, hfound, hambiguous, -, hschema, -, rfl⟩ := resolveAmbiguous_eq_ok h.stored hcall
  obtain ⟨hmem, hstoredId⟩ := (find?_key_eq_some_iff h.ids).mp hfound
  refine h.quiet (fun _ => rfl) (stored_replaceEnrollment h.stored hschema)
    (nodup_replaceEnrollment h.ids next.val) fun record hleased => ?_
  rw [mem_replaceBy_of_leased hleased, and_iff_left_iff_imp]
  intro hrecord hrecordId
  rw [hid, ← hstoredId] at hrecordId
  obtain rfl := List.inj_on_of_nodup_map h.ids hrecord hmem hrecordId
  simp [h.running_of_leased hrecord hleased] at hambiguous

/-- A claim leases the records it grants, and ends the claims they had. -/
theorem FencingInvariant.claimDue (h : FencingInvariant events store) {options : ClaimDueOptions}
    {entries : List ClaimedSequenceEnrollment}
    (hcall : claimDue options store = (store', .ok entries)) :
    FencingInvariant (events ++ [.claimed entries]) store' := by
  obtain ⟨rfl, hdistinct, -, hclaims⟩ := claimDue_eq_ok h.stored h.ids hcall
  have hrecords : ((entries.map (·.enrollment)).map SequenceEnrollment.id).Nodup := by
    rw [List.map_map]
    exact hdistinct
  have hgranted : ∀ record ∈ entries.map (·.enrollment), enrollmentSchema record = true ∧
      record.leaseToken ≠ none ∧ record.status = .running ∧
      ∃ origin ∈ store.enrollments, origin.id = record.id := by
    intro record hrecord
    obtain ⟨entry, hentry, rfl⟩ := List.mem_map.mp hrecord
    obtain ⟨token, candidate, hof⟩ := hclaims entry hentry
    refine ⟨hof.schema, ?_, ?_, candidate, hof.stored, ?_⟩ <;> rw [hof.leased]
    simp
  refine ⟨⟨h.stored.definitions, fun record hrecord => ?_⟩, ?_, fun record => ?_,
    fun record hrecord => ?_⟩
  · rcases (mem_replaceAllBy hrecords).mp hrecord with ⟨hnew, -⟩ | ⟨hold, -⟩
    · exact (hgranted record hnew).1
    · exact h.stored.enrollments record hold
  · rw [show (fun enrollment : SequenceEnrollment => enrollment.id) = SequenceEnrollment.id from
      rfl, map_key_replaceAllBy]
    exact h.ids
  · rw [liveClaims_snoc, liveAfterEvent, List.mem_append, List.mem_filter, h.leased,
      mem_replaceAllBy hrecords]
    have hkept : decide (record.id ∉ entries.map (·.enrollment.id)) = true ↔
        ∀ new ∈ entries.map (·.enrollment), new.id ≠ record.id := by
      simp only [decide_eq_true_eq, List.mem_map, not_exists, not_and, forall_exists_index,
        and_imp, forall_apply_eq_imp_iff₂, ne_eq]
    rw [hkept]
    constructor
    · rintro (⟨⟨hmem, htoken⟩, hother⟩ | hnew)
      · exact ⟨.inr ⟨hmem, hother⟩, htoken⟩
      · exact ⟨.inl ⟨hnew, (hgranted record hnew).2.2.2⟩, (hgranted record hnew).2.1⟩
    · rintro ⟨⟨hnew, -⟩ | ⟨hmem, hother⟩, htoken⟩
      · exact .inr hnew
      · exact .inl ⟨⟨hmem, htoken⟩, hother⟩
  · rw [liveClaims_snoc, liveAfterEvent, List.mem_append, List.mem_filter] at hrecord
    rcases hrecord with ⟨hold, -⟩ | hnew
    · exact h.running record hold
    · exact (hgranted record hnew).2.2.1

theorem FencingInvariant.completeClaim (h : FencingInvariant events store)
    {enrollment result : SequenceEnrollment} {next : UnleasedEnrollment}
    (hid : next.val.id = enrollment.id)
    (hcall : completeClaim enrollment next store = (store', .ok result)) :
    FencingInvariant (events ++ [.completed enrollment]) store' := by
  obtain ⟨stored, hfound, hlease, htoken, hschema, -, rfl⟩ := completeClaim_eq_ok h.stored hcall
  obtain ⟨hmem, hstoredId⟩ := (find?_key_eq_some_iff h.ids).mp hfound
  refine ⟨stored_replaceEnrollment h.stored hschema, nodup_replaceEnrollment h.ids next.val,
    fun record => ?_, fun record hrecord => ?_⟩
  · rw [liveClaims_snoc, liveAfterEvent, List.mem_filter, h.leased, decide_eq_true_eq]
    constructor
    · rintro ⟨⟨hrecord, hleased⟩, hother⟩
      refine ⟨(mem_replaceBy_of_leased hleased).mpr ⟨hrecord, fun hrecordId => hother ?_⟩, hleased⟩
      rw [hid] at hrecordId
      obtain rfl := List.inj_on_of_nodup_map h.ids hrecord hmem (hrecordId.trans hstoredId.symm)
      exact ⟨hrecordId, htoken⟩
    · rintro ⟨hrecord, hleased⟩
      obtain ⟨hold, hne⟩ := (mem_replaceBy_of_leased hleased).mp hrecord
      exact ⟨⟨hold, hleased⟩, fun hsame => hne (hsame.1.trans hid.symm)⟩
  · rw [liveClaims_snoc, liveAfterEvent, List.mem_filter] at hrecord
    exact h.running record hrecord.1

theorem FencingInvariant.reconcile (h : FencingInvariant events store)
    {options : ReconcileOptions} {result : SequenceReconcileResult}
    (hcall : reconcile options store = (store', .ok result)) :
    FencingInvariant (events ++ [.recovered (recoveredIds options store.enrollments)]) store' := by
  obtain ⟨hdefinitions, hforall⟩ := reconcile_eq_ok h.stored h.ids hcall
  have hids : store'.enrollments.map (·.id) = store.enrollments.map (·.id) := by
    refine List.forall₂_eq_eq_eq ▸ ?_
    rw [List.forall₂_map_left_iff, List.forall₂_map_right_iff]
    refine hforall.flip.imp ?_
    rintro enrollment' enrollment (⟨-, rfl⟩ | ⟨-, -, hrecovered⟩)
    · rfl
    · rw [(recoverEnrollment_eq_ok hrecovered).1]
  have horigin : ∀ record ∈ store'.enrollments,
      (record ∈ store.enrollments ∧ record.id ∉ recoveredIds options store.enrollments) ∨
        (enrollmentSchema record = true ∧ record.leaseToken = none) := by
    intro record hrecord
    obtain ⟨i, hi, rfl⟩ := List.mem_iff_getElem.mp hrecord
    have hlength := hforall.length_eq
    rcases (List.forall₂_iff_get.mp hforall).2 i (by omega) hi with
      ⟨hkept, hsame⟩ | ⟨-, -, hrecovered⟩
    · simp only [List.get_eq_getElem] at hkept hsame
      rw [hsame]
      exact .inl ⟨List.getElem_mem _, hkept⟩
    · obtain ⟨hrecord, hschema⟩ := recoverEnrollment_eq_ok hrecovered
      refine .inr ⟨hschema, ?_⟩
      rw [List.get_eq_getElem] at hrecord
      rw [hrecord]
  refine ⟨⟨hdefinitions ▸ h.stored.definitions, fun record hrecord => ?_⟩, hids ▸ h.ids,
    fun record => ?_, fun record hrecord => ?_⟩
  · rcases horigin record hrecord with ⟨hold, -⟩ | ⟨hschema, -⟩
    · exact h.stored.enrollments record hold
    · exact hschema
  · rw [liveClaims_snoc, liveAfterEvent, List.mem_filter, h.leased, decide_eq_true_eq]
    constructor
    · rintro ⟨⟨hold, hleased⟩, hkept⟩
      refine ⟨?_, hleased⟩
      obtain ⟨i, hi, rfl⟩ := List.mem_iff_getElem.mp hold
      have hlength := hforall.length_eq
      rcases (List.forall₂_iff_get.mp hforall).2 i hi (by omega) with
        ⟨-, hsame⟩ | ⟨hrecovered, -⟩
      · simp only [List.get_eq_getElem] at hsame
        rw [← hsame]
        exact List.getElem_mem _
      · exact absurd hrecovered hkept
    · rintro ⟨hrecord, hleased⟩
      rcases horigin record hrecord with ⟨hold, hkept⟩ | ⟨-, hnone⟩
      · exact ⟨⟨hold, hleased⟩, hkept⟩
      · exact absurd hnone hleased
  · rw [liveClaims_snoc, liveAfterEvent, List.mem_filter] at hrecord
    exact h.running record hrecord.1

variable [CaseMapping]

theorem FencingInvariant.createDefinition (h : FencingInvariant events store)
    (definition : SequenceDefinition) :
    FencingInvariant (events ++ [.other]) (createDefinition definition store).1 := by
  rcases hcall : Sequence.createDefinition definition store with ⟨store', error | result⟩
  · rw [createDefinition_error hcall]
    exact h.failed
  · obtain ⟨hparse, -, rfl⟩ := createDefinition_eq_ok h.stored hcall
    refine h.definitions fun other hother => ?_
    rcases List.mem_append.mp hother with hold | hnew
    · exact h.stored.definitions other hold
    · rw [List.mem_singleton.mp hnew]
      exact stored_of_parseSequenceDefinition hparse

theorem FencingInvariant.updateDefinition (h : FencingInvariant events store) (id : Text)
    (input : UpdateSequenceDefinitionInput) (now : ℤ) :
    FencingInvariant (events ++ [.other]) (updateDefinition id input now store).1 := by
  rcases hcall : Sequence.updateDefinition id input now store with ⟨store', error | result⟩
  · rw [exec_error hcall]
    exact h.failed
  · obtain ⟨previous, -, ⟨rfl, -⟩ | ⟨steps, createdAt, -, hstored, -, -, -, -, rfl⟩⟩ :=
      updateDefinition_eq_ok h.stored hcall
    · exact h.failed
    · exact h.replaceDefinition hstored

theorem FencingInvariant.step {event : RepositoryEvent} (h : FencingInvariant events store)
    (hstep : CallStep store event store') : FencingInvariant (events ++ [event]) store' := by
  obtain ⟨call, hadmissible, hcall⟩ := hstep
  cases call with
  | createDefinition definition =>
      obtain ⟨rfl, rfl⟩ := Prod.mk.inj hcall
      exact h.createDefinition definition
  | updateDefinition id input now =>
      obtain ⟨rfl, rfl⟩ := Prod.mk.inj hcall
      exact h.updateDefinition id input now
  | deleteDefinition id =>
      obtain ⟨rfl, rfl⟩ := Prod.mk.inj hcall
      exact h.deleteDefinition id
  | setDefinitionStatus id status now =>
      obtain ⟨rfl, rfl⟩ := Prod.mk.inj hcall
      exact h.setDefinitionStatus id status now
  | createEnrollment enrollment =>
      obtain ⟨rfl, rfl⟩ := Prod.mk.inj hcall
      exact h.createEnrollment hadmissible.1
  | resolveAmbiguous enrollment next =>
      simp only [performCall] at hcall
      split at hcall
      · next hresolve =>
          obtain ⟨rfl, rfl⟩ := Prod.mk.inj hcall
          exact h.resolveAmbiguous hadmissible hresolve
      · next herror =>
          obtain ⟨rfl, rfl⟩ := Prod.mk.inj hcall
          rw [exec_error herror]
          exact h.failed
  | claimDue options =>
      simp only [performCall] at hcall
      split at hcall
      · next hclaim =>
          obtain ⟨rfl, rfl⟩ := Prod.mk.inj hcall
          exact h.claimDue hclaim
      · next herror =>
          obtain ⟨rfl, rfl⟩ := Prod.mk.inj hcall
          rw [exec_error herror]
          exact h.failed
  | completeClaim enrollment next =>
      simp only [performCall] at hcall
      split at hcall
      · next hcomplete =>
          obtain ⟨rfl, rfl⟩ := Prod.mk.inj hcall
          exact h.completeClaim hadmissible hcomplete
      · next herror =>
          obtain ⟨rfl, rfl⟩ := Prod.mk.inj hcall
          rw [exec_error herror]
          exact h.failed
  | reconcile options =>
      simp only [performCall] at hcall
      split at hcall
      · next hreconcile =>
          obtain ⟨rfl, rfl⟩ := Prod.mk.inj hcall
          exact h.reconcile hreconcile
      · next herror =>
          obtain ⟨rfl, rfl⟩ := Prod.mk.inj hcall
          rw [exec_error herror]
          exact h.failed

theorem fencingInvariant_of_run (hrun : Run CallStep {} events store) :
    FencingInvariant events store :=
  hrun.history_invariant (fun _ h hstep => FencingInvariant.step h hstep) fencingInvariant_empty

end Invariant

/-! ## Fencing -/

section Fencing

variable [MailboxContract] {store store' : SequenceStore} {enrollment : SequenceEnrollment}
  {next : UnleasedEnrollment}

theorem completeClaim_eq_error {error : SequenceError}
    (h : completeClaim enrollment next store = (store', .error error)) : store' = store :=
  exec_error h

/-- The completion of a claim whose record is still in the document succeeds. -/
theorem completeClaim_of_found {stored : SequenceEnrollment} (hstored : store.Stored)
    (hfound : store.enrollments.find? (fun candidate => candidate.id = enrollment.id) = some stored)
    (hleased : stored.leaseToken ≠ none) (htoken : stored.leaseToken = enrollment.leaseToken)
    (hschema : enrollmentSchema next.val = true) :
    completeClaim enrollment next store =
      ({ store with enrollments := replaceBy SequenceEnrollment.id store.enrollments next.val },
        .ok next.val) := by
  refine JsonFileStore.exec_eq_ok _ hstored.parse ?_ (stored_replaceEnrollment hstored hschema).parse
  refine except_bind_eq_ok.mpr ⟨stored, by simp [getFileEnrollment, hfound], ?_⟩
  rw [if_neg (by simp [hleased, ← htoken])]
  exact except_bind_eq_ok.mpr ⟨next.val, parseSequenceEnrollment_eq_ok_iff.mpr ⟨hschema, rfl⟩, rfl⟩

variable {events : List RepositoryEvent} {i : ℕ}
  {entries : List ClaimedSequenceEnrollment} {claimed : ClaimedSequenceEnrollment}

/-- A record that has the token of a claim is the record of that claim, and the
claim is untouched. -/
theorem FencingInvariant.eq_claim_of_token (h : FencingInvariant events store)
    (hdistinct : (events.flatMap drawnTokens).Nodup)
    (hgrant : events[i]? = some (.claimed entries)) (hclaimed : claimed ∈ entries)
    {stored : SequenceEnrollment} (hmem : stored ∈ store.enrollments)
    (hleased : stored.leaseToken ≠ none)
    (htoken : stored.leaseToken = claimed.enrollment.leaseToken) :
    stored = claimed.enrollment ∧ Untouched claimed.enrollment (events.drop (i + 1)) := by
  obtain ⟨j, entries', claimed', hgrant', hclaimed', rfl, huntouched⟩ :=
    exists_grant_of_mem_liveClaims ((h.leased stored).mpr ⟨hmem, hleased⟩)
  obtain ⟨rfl, rfl⟩ := grant_unique hdistinct hgrant hgrant' hclaimed hclaimed' htoken.symm
  exact ⟨rfl, huntouched⟩

/-- A claim that nothing touched is in the document as it was granted. -/
theorem FencingInvariant.find?_of_untouched (h : FencingInvariant events store)
    (hgrant : events[i]? = some (.claimed entries)) (hclaimed : claimed ∈ entries)
    (huntouched : Untouched claimed.enrollment (events.drop (i + 1))) :
    store.enrollments.find? (fun candidate => candidate.id = claimed.enrollment.id) =
        some claimed.enrollment ∧
      claimed.enrollment.leaseToken ≠ none := by
  obtain ⟨hmem, hleased⟩ := (h.leased claimed.enrollment).mp
    (mem_liveClaims_of_untouched hgrant hclaimed huntouched)
  exact ⟨(find?_key_eq_some_iff h.ids).mpr ⟨hmem, rfl⟩, hleased⟩

/-- In every history with distinct lease tokens, the completion of a claim with a
valid next record succeeds exactly when no later claim, reconcile or completion
touched it; what it replaces is then the claimed record, field by field; and a
completion that fails changes nothing. -/
theorem completeClaim_iff_untouched [CaseMapping] (hrun : Run CallStep {} events store)
    (hdistinct : (events.flatMap drawnTokens).Nodup)
    (hgrant : events[i]? = some (.claimed entries)) (hclaimed : claimed ∈ entries) :
    (∀ next : UnleasedEnrollment, enrollmentSchema next.val = true →
      ((∃ store' result, completeClaim claimed.enrollment next store = (store', .ok result)) ↔
        Untouched claimed.enrollment (events.drop (i + 1)))) ∧
      (∀ next store' result, completeClaim claimed.enrollment next store = (store', .ok result) →
        store.enrollments.find? (fun candidate => candidate.id = claimed.enrollment.id) =
            some claimed.enrollment ∧
          store' = { store with
            enrollments := replaceBy SequenceEnrollment.id store.enrollments next.val }) ∧
      ∀ enrollment next store' error,
        completeClaim enrollment next store = (store', .error error) → store' = store := by
  have h := fencingInvariant_of_run hrun
  refine ⟨fun next hschema => ⟨?_, fun huntouched => ?_⟩, fun next store' result hcall => ?_,
    fun enrollment next store' error hcall => completeClaim_eq_error hcall⟩
  · rintro ⟨store', result, hcall⟩
    obtain ⟨stored, hfound, hleased, htoken, -⟩ := completeClaim_eq_ok h.stored hcall
    obtain ⟨hmem, -⟩ := (find?_key_eq_some_iff h.ids).mp hfound
    exact (h.eq_claim_of_token hdistinct hgrant hclaimed hmem hleased htoken).2
  · obtain ⟨hfound, hleased⟩ := h.find?_of_untouched hgrant hclaimed huntouched
    exact ⟨_, _, completeClaim_of_found h.stored hfound hleased rfl hschema⟩
  · obtain ⟨stored, hfound, hleased, htoken, -, -, hstore⟩ := completeClaim_eq_ok h.stored hcall
    obtain ⟨hmem, -⟩ := (find?_key_eq_some_iff h.ids).mp hfound
    obtain ⟨rfl, -⟩ := h.eq_claim_of_token hdistinct hgrant hclaimed hmem hleased htoken
    exact ⟨hfound, hstore⟩

end Fencing

/-! ## A claim that is completed, and one whose next record is refused -/

section Sample

variable [MailboxContract] [CaseMapping]

/-- The document after a list of calls, and what they did to leases. -/
def performCalls (store : SequenceStore) :
    List RepositoryCall → SequenceStore × List RepositoryEvent
  | [] => (store, [])
  | call :: calls =>
      let (middle, event) := performCall store call
      let (last, events) := performCalls middle calls
      (last, event :: events)

theorem run_performCalls {calls : List RepositoryCall}
    (hadmissible : ∀ call ∈ calls, call.Admissible) (store : SequenceStore) :
    Run CallStep store (performCalls store calls).2 (performCalls store calls).1 := by
  induction calls generalizing store with
  | nil => exact .refl store
  | cons call calls ih =>
      refine Run.cons ⟨call, hadmissible call (by simp), rfl⟩ ?_
      exact ih (fun other hother => hadmissible other (List.mem_cons_of_mem _ hother)) _

end Sample

def onboardingRevision : SequenceRevision where
  revision := 1
  steps := [welcomeStep]
  createdAt := { time := 0 }

def onboarding : SequenceDefinition where
  id := sampleSequenceId
  name := "Onboarding"
  status := .active
  currentRevision := 1
  revisions := [onboardingRevision]
  createdAt := { time := 0 }
  updatedAt := { time := 0 }

/-- An enrollment on the first step of the sequence. -/
def enrolled : SequenceEnrollment where
  id := sampleEnrollmentId
  sequenceId := sampleSequenceId
  revision := 1
  subscriberId := 7
  context := []
  status := .pending
  retryCount := 0
  currentStepId := welcomeStep.id
  nextRunAt := { time := 0 }
  lastTransitionAt := { time := 0 }
  createdAt := { time := 0 }
  updatedAt := { time := 0 }

/-- The calls up to a claim of the enrollment. -/
def claimCalls : List RepositoryCall :=
  [.createDefinition onboarding, .createEnrollment enrolled,
    .claimDue { limit := 10, now := 1000, leaseMs := 90000, newLeaseToken := fun _ => sampleLeaseToken }]

def claimedEnrollment : SequenceEnrollment :=
  { enrolled with
    status := .running
    leaseToken := some sampleLeaseToken
    leaseExpiresAt := some { time := 91000 }
    updatedAt := { time := 1000 } }

/-- The enrollment when the step is done. -/
def completedEnrollment : UnleasedEnrollment :=
  ⟨{ enrolled with status := .completed }, rfl, rfl⟩

/-- The enrollment when the step failed with a very long message. -/
def overlongEnrollment : UnleasedEnrollment :=
  ⟨{ enrolled with status := .failed, lastError := some (List.replicate 1001 0x61) }, rfl, rfl⟩

theorem admissible_claimCalls : ∀ call ∈ claimCalls, call.Admissible := by
  simp [claimCalls, RepositoryCall.Admissible, enrolled]

def onboardingClaim : ClaimedSequenceEnrollment where
  enrollment := claimedEnrollment
  definition := onboarding
  revision := onboardingRevision

theorem performCalls_claimCalls :
    letI := plainMailboxContract
    letI := asciiCaseMapping
    (performCalls {} claimCalls).2 = [.other, .other, .claimed [onboardingClaim]] := rfl

theorem completeClaim_iff_untouched_onboarding :
    letI := plainMailboxContract
    letI := asciiCaseMapping
    ∃ store events, Run CallStep {} events store ∧ events[2]? = some (.claimed [onboardingClaim]) ∧
      ∃ store' result,
        completeClaim onboardingClaim.enrollment completedEnrollment store =
          (store', .ok result) := by
  let := plainMailboxContract
  let := asciiCaseMapping
  have hrun := run_performCalls admissible_claimCalls {}
  rw [performCalls_claimCalls] at hrun
  refine ⟨_, _, hrun, rfl, ?_⟩
  refine ((completeClaim_iff_untouched (i := 2) hrun (by decide) rfl (List.mem_singleton_self _)).1
    completedEnrollment (by decide)).mpr ?_
  simp [Untouched]

/-- The completion of an untouched claim fails when its next record is one that
the schema refuses. -/
theorem completeClaim_iff_untouched_fails :
    letI := plainMailboxContract
    letI := asciiCaseMapping
    ∃ store events, Run CallStep {} events store ∧ (events.flatMap drawnTokens).Nodup ∧
      events[2]? = some (.claimed [onboardingClaim]) ∧
      Untouched onboardingClaim.enrollment (events.drop 3) ∧
      overlongEnrollment.val.id = onboardingClaim.enrollment.id ∧
      ¬ ∃ store' result,
        completeClaim onboardingClaim.enrollment overlongEnrollment store =
          (store', .ok result) := by
  let := plainMailboxContract
  let := asciiCaseMapping
  have hrun := run_performCalls admissible_claimCalls {}
  rw [performCalls_claimCalls] at hrun
  refine ⟨_, _, hrun, by decide, rfl, by simp [Untouched], rfl, ?_⟩
  rintro ⟨store', result, hcall⟩
  obtain ⟨stored, -, -, -, hschema, -⟩ :=
    completeClaim_eq_ok (fencingInvariant_of_run hrun).stored hcall
  have hlength := lastError_length_of_schema hschema rfl
  rw [List.length_replicate] at hlength
  omega

end ListmonkOps.Sequence
