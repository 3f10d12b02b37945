/-
The audit trail of many executions.

Commands and tool calls of any number of processes share one file of entries, which
keeps the newest of them. They take turns in any order, any of them can stop for good
between two of its calls, and a write can be reported as failed although the file was
replaced: the lock is given back afterwards, and that can fail too.

Read through the ids of the executions, the trail is still a list of short stories. Each
has a beginning and at most one end, and the end says what happened.
-/

import ListmonkOps.Math.Run
import ListmonkOps.Operations.AuditedExecution
import Mathlib.Data.List.DropRight
import Mathlib.Data.List.ReduceOption

namespace ListmonkOps.Operations

open ListmonkOps.Math ListmonkOps.Math.Program ListmonkOps.Runtime

/-! ## The store -/

abbrev AuditLimit := { limit : ℕ // 0 < limit }

/-- `resolveAuditLimit`; a `RangeError` is its message. -/
def resolveAuditLimit (limit : Option ℤ) : Except Text AuditLimit :=
  let resolvedLimit := limit.getD 500
  if h : 0 < resolvedLimit then .ok ⟨resolvedLimit.toNat, by omega⟩
  else .error "Operation audit limit must be a positive integer"

/-- The update of `recordOperationAudit`. -/
def recordOperationAudit (limit : AuditLimit) (entries : List OperationAuditEntry)
    (entry : OperationAuditEntry) : List OperationAuditEntry :=
  (entries ++ [entry]).rtake limit

theorem recordOperationAudit_rtake {limit : AuditLimit} {all : List OperationAuditEntry}
    {entry : OperationAuditEntry} :
    recordOperationAudit limit (all.rtake limit) entry = (all ++ [entry]).rtake limit := by
  obtain ⟨limit, hpositive⟩ := limit
  obtain ⟨limit, rfl⟩ := Nat.exists_eq_succ_of_ne_zero hpositive.ne'
  change (all.rtake (limit + 1) ++ [entry]).rtake (limit + 1) = (all ++ [entry]).rtake (limit + 1)
  rw [List.rtake_concat_succ, List.rtake_concat_succ]
  simp only [List.rtake_eq_reverse_take_reverse, List.reverse_reverse, List.take_take]
  rw [Nat.min_eq_left (Nat.le_succ limit)]

/-- A file that is not too long has nothing to drop. -/
theorem rtake_of_length_le {limit : AuditLimit} {entries : List OperationAuditEntry}
    (h : entries.length ≤ limit) : entries.rtake limit = entries := by
  rw [List.rtake, Nat.sub_eq_zero_of_le h, List.drop_zero]

/-! ## The world -/

variable {ε : Type} [ThrownMessages ε]

/-- An execution that has begun. -/
structure Session (ε : Type) where
  request : ExecutionRequest
  executionId : Text
  log : ExecutionLog ε
  rest : Execution ε (Ended ε)

/-- A session whose next call was answered. -/
def Session.answered {ε : Type} (session : Session ε) (call : ExecutionCall)
    (answer : ExecutionAnswer ε) (rest : Execution ε (Ended ε)) : Session ε :=
  { session with log := session.log ++ [(call, answer)], rest := rest }

/-- The file of entries, and all executions that have begun. -/
structure AuditWorld (ε : Type) where
  entries : List OperationAuditEntry
  sessions : List (Session ε)

/-- The entry that a call leaves in the file. A write that is reported as failed may have
gone through at some time. -/
def storedEntry {ε : Type} (call : ExecutionCall) (answer : ExecutionAnswer ε)
    (unreported : Option Text) : Option OperationAuditEntry :=
  match call with
  | .recordOperationAudit input =>
      match answer.written with
      | .ok recordedAt => some ⟨input, recordedAt⟩
      | .error _ => unreported.map (⟨input, ·⟩)
  | _ => none

/-- An execution begins under an id of its own, or one of them makes its next call. The
label is the entry that is stored. -/
inductive AuditStep (surfaces : Surfaces) (limit : AuditLimit) :
    AuditWorld ε → Option OperationAuditEntry → AuditWorld ε → Prop
  | begin {world : AuditWorld ε} (request : ExecutionRequest) (freshId : Text)
      (hfresh : freshId ∉ world.sessions.map Session.executionId) :
      AuditStep surfaces limit world none
        { world with
          sessions := world.sessions ++ [⟨request, freshId, [], request.run surfaces freshId⟩] }
  | answer {world : AuditWorld ε} {before after : List (Session ε)} {session : Session ε}
      {call : ExecutionCall} {next : ExecutionAnswer ε → Execution ε (Ended ε)}
      (hsessions : world.sessions = before ++ session :: after)
      (hrest : session.rest = .call call next) (answer : ExecutionAnswer ε)
      (unreported : Option Text) :
      AuditStep surfaces limit world (storedEntry call answer unreported)
        { entries := (storedEntry call answer unreported).elim world.entries
            (recordOperationAudit limit world.entries)
          sessions := before ++ session.answered call answer (next answer) :: after }

/-! ## Stories -/

section Stories

variable {ε : Type} {attempt : Attempt} {ms : List (Milestone ε)} {m : Milestone ε}
variable {trail : List OperationAuditEntry} {log : ExecutionLog ε}

/-- The entries that the calls of an execution have left in the file, in their order. -/
inductive Left {ε : Type} : ExecutionLog ε → List OperationAuditEntry → Prop
  | nil : Left [] []
  | snoc {log : ExecutionLog ε} {trail : List OperationAuditEntry} (h : Left log trail)
      (call : ExecutionCall) (answer : ExecutionAnswer ε) (unreported : Option Text) :
      Left (log ++ [(call, answer)]) (trail ++ (storedEntry call answer unreported).toList)

/-- What the entries of one execution tell: nothing yet, or that it started, or that and how
it ended, which is then so. Where its start is known to be stored, it is there. -/
structure Story (attempt : Attempt) (ms : List (Milestone ε))
    (trail : List OperationAuditEntry) : Prop where
  tells : trail = [] ∨ ∃ audited, attempt.audited = some audited ∧
    audited.ownRecorder = false ∧
      (trail.map OperationAuditEntry.input = [audited.entry .started] ∨
        ∃ event, event ≠ .started ∧ Truthful attempt ms event ∧
          trail.map OperationAuditEntry.input = [audited.entry .started, audited.entry event])
  opened : ∀ audited, attempt.audited = some audited → audited.ownRecorder = false →
    Opened audited ms →
      (trail.map OperationAuditEntry.input).head? = some (audited.entry .started)
  recorded : ∀ entry ∈ trail, ∃ stored, .recorded entry.input false stored ∈ ms

/-- What is so stays so. -/
theorem Truthful.append {event : OperationAuditEvent} (h : Truthful attempt ms event)
    (hevent : event ≠ .started) (hallowed : Allowed attempt ms m) :
    Truthful attempt (ms ++ [m]) event := by
  cases event with
  | started => exact absurd rfl hevent
  | blocked =>
      refine ⟨h.1, fun given outcome hmem => ?_⟩
      rcases List.mem_append.mp hmem with hmem | hmem
      · exact h.2 given outcome hmem
      · obtain rfl := List.mem_singleton.mp hmem
        cases h.1.symm.trans hallowed.2.1
  | succeeded =>
      obtain ⟨given, outcome, hran, hsucceeded⟩ := h
      exact ⟨given, outcome, List.mem_append_left _ hran, hsucceeded⟩
  | failed =>
      obtain ⟨given, outcome, hran, hfailed⟩ := h
      exact ⟨given, outcome, List.mem_append_left _ hran, hfailed⟩

theorem Story.quiet (h : Story attempt ms trail) (hallowed : Allowed attempt ms m)
    (hquiet : ∀ input stored, m ≠ .recorded input false stored) :
    Story attempt (ms ++ [m]) trail where
  tells := by
    obtain hempty | ⟨audited, haudited, hown, hstarted | ⟨event, hevent, htruthful, hended⟩⟩ := h.tells
    · exact .inl hempty
    · exact .inr ⟨audited, haudited, hown, .inl hstarted⟩
    · exact .inr ⟨audited, haudited, hown,
        .inr ⟨event, hevent, htruthful.append hevent hallowed, hended⟩⟩
  opened audited haudited hown hopened := by
    refine h.opened audited haudited hown ?_
    rcases List.mem_append.mp hopened with hmem | hmem
    · exact hmem
    · refine absurd (List.mem_singleton.mp hmem).symm ?_
      rw [hown]
      exact hquiet _ _
  recorded entry hentry := by
    obtain ⟨stored, hstored⟩ := h.recorded entry hentry
    exact ⟨stored, List.mem_append_left _ hstored⟩

theorem Story.eq_nil (h : Story attempt ([] : List (Milestone ε)) trail) : trail = [] := by
  refine List.eq_nil_iff_forall_not_mem.mpr fun entry hentry => ?_
  obtain ⟨stored, hstored⟩ := h.recorded entry hentry
  cases hstored

/-- As long as nothing but the start was to be recorded, the file has no more than that. -/
theorem Story.unsettled (h : Story attempt ms trail) (hunsettled : Unsettled ms) {audited : Audited}
    (haudited : attempt.audited = some audited) (hown : audited.ownRecorder = false)
    (hopened : Opened audited ms) :
    trail.map OperationAuditEntry.input = [audited.entry .started] := by
  have hhead := h.opened audited haudited hown hopened
  obtain rfl | ⟨other, hother, -, hstarted | ⟨event, hevent, -, hended⟩⟩ := h.tells
  · cases hhead
  · rw [hstarted] at hhead ⊢
    rw [Option.some.inj hhead]
  · have hmem : other.entry event ∈ trail.map OperationAuditEntry.input := by simp [hended]
    obtain ⟨entry, hentry, hinput⟩ := List.mem_map.mp hmem
    obtain ⟨stored, hstored⟩ := h.recorded entry hentry
    have hsettled := hunsettled _ _ _ hstored
    rw [hinput, other.event_entry] at hsettled
    exact absurd hsettled hevent

theorem input_of_storedEntry {input : RecordOperationAuditInput} {answer : ExecutionAnswer ε}
    {unreported : Option Text} {entry : OperationAuditEntry}
    (h : storedEntry (.recordOperationAudit input) answer unreported = some entry) :
    entry.input = input := by
  rw [storedEntry] at h
  cases hwritten : answer.written with
  | ok recordedAt =>
      simp only [hwritten, Option.some.injEq] at h
      rw [← h]
  | error error =>
      simp only [hwritten, Option.map_eq_some_iff] at h
      obtain ⟨recordedAt, -, rfl⟩ := h
      rfl

theorem storedEntry_ne_none {input : RecordOperationAuditInput} {answer : ExecutionAnswer ε}
    {unreported : Option Text} (h : answer.written.isOk = true) :
    storedEntry (.recordOperationAudit input) answer unreported ≠ none := by
  cases hwritten : answer.written with
  | ok recordedAt => simp [storedEntry, hwritten]
  | error error =>
      rw [hwritten] at h
      cases h

/-- An entry that may be recorded goes on with the story, if it is stored. -/
theorem Story.record (h : Story attempt ms trail) {input : RecordOperationAuditInput}
    {answer : ExecutionAnswer ε} {unreported : Option Text}
    (hallowed : Allowed attempt ms (.recorded input false answer.written.isOk)) :
    Story attempt (ms ++ [.recorded input false answer.written.isOk])
      (trail ++ (storedEntry (.recordOperationAudit input) answer unreported).toList) := by
  obtain ⟨audited, event, haudited, rfl, hown, htruthful, hlast⟩ := id hallowed
  have hrecorded : ∀ entry ∈ trail ++ (storedEntry (.recordOperationAudit (audited.entry event))
      answer unreported).toList, ∃ stored, Milestone.recorded entry.input false stored ∈
        ms ++ [.recorded (audited.entry event) false answer.written.isOk] := by
    intro entry hentry
    rcases List.mem_append.mp hentry with hentry | hentry
    · obtain ⟨stored, hstored⟩ := h.recorded entry hentry
      exact ⟨stored, List.mem_append_left _ hstored⟩
    · rw [input_of_storedEntry (Option.mem_toList.mp hentry)]
      exact ⟨answer.written.isOk, by simp⟩
  by_cases hevent : event = .started
  · subst hevent
    obtain rfl : ms = [] := htruthful
    obtain rfl := h.eq_nil
    refine ⟨?_, ?_, hrecorded⟩
    · cases hstored : storedEntry (.recordOperationAudit (audited.entry .started)) answer
          unreported with
      | none => exact .inl rfl
      | some entry =>
          refine .inr ⟨audited, haudited, hown.symm, .inl ?_⟩
          simp [input_of_storedEntry hstored]
    · intro other hother _ hopened
      obtain rfl := Option.some.inj (haudited.symm.trans hother)
      obtain ⟨-, -, hok⟩ := Milestone.recorded.inj (List.mem_singleton.mp hopened)
      have hkept : storedEntry (.recordOperationAudit (audited.entry .started)) answer unreported ≠
          none :=
        storedEntry_ne_none hok.symm
      obtain ⟨entry, hstored⟩ := Option.ne_none_iff_exists'.mp hkept
      simp [hstored, input_of_storedEntry hstored]
  · obtain ⟨hopened, hunsettled⟩ := hlast hevent
    have hstarted := h.unsettled hunsettled haudited hown.symm hopened
    refine ⟨.inr ⟨audited, haudited, hown.symm, ?_⟩, ?_, hrecorded⟩
    · cases hstored : storedEntry (.recordOperationAudit (audited.entry event)) answer
          unreported with
      | none => exact .inl (by simpa using hstarted)
      | some entry =>
          refine .inr ⟨event, hevent, htruthful.append hevent hallowed, ?_⟩
          simp [hstarted, input_of_storedEntry hstored]
    · intro other hother _ _
      obtain rfl := Option.some.inj (haudited.symm.trans hother)
      simp [hstarted]

theorem story_of_left (h : Left log trail) (hordered : InOrder attempt [] (milestones log)) :
    Story attempt (milestones log) trail := by
  induction h with
  | nil =>
      refine ⟨.inl rfl, fun audited _ _ h => ?_, fun entry h => ?_⟩
      · cases h
      · cases h
  | @snoc log trail h call answer unreported ih =>
      rw [milestones_append] at hordered ⊢
      obtain ⟨hbefore, hlast⟩ := inOrder_append.mp hordered
      have hstory := ih hbefore
      have hquiet : ∀ m, Allowed attempt (milestones log) m →
          (∀ input stored, m ≠ .recorded input false stored) →
            Story attempt (milestones log ++ [m]) (trail ++ []) := by
        intro m hallowed hm
        rw [List.append_nil]
        exact hstory.quiet hallowed hm
      cases call with
      | recordOperationAudit input => exact hstory.record hlast.1
      | recordAudit input => exact hquiet _ hlast.1 (by simp)
      | enqueueOperationLifecycleEvent entry => exact hquiet _ hlast.1 (by simp)
      | invoke => exact hquiet _ hlast.1 (by simp)
      | handleTool request => exact hquiet _ hlast.1 (by simp)
      | enqueueSuccessfulOperationLifecycleEvents input => exact hquiet _ hlast.1 (by simp)
      | reportError message =>
          change Story attempt (milestones log ++ []) (trail ++ [])
          rw [List.append_nil, List.append_nil]
          exact hstory

end Stories

/-! ## Any number of executions -/

theorem executionId_of_attempt {surfaces : Surfaces} {freshId : Text} {request : ExecutionRequest}
    {audited : Audited} (h : (request.attempt surfaces freshId).audited = some audited) :
    audited.executionId = freshId := by
  cases request with
  | command config =>
      rw [ExecutionRequest.attempt, CliOperationConfig.attempt] at h
      cases hfound : getCliOperationExecution surfaces.commands config with
      | none =>
          simp only [hfound] at h
          cases h
      | some execution =>
          simp only [hfound] at h
          split_ifs at h
          rw [← Option.some.inj h]
          rfl
  | tool request =>
      rw [ExecutionRequest.attempt, CallToolRequest.attempt] at h
      split_ifs at h
      cases hfound : getMcpOperationExecution surfaces.operations request with
      | none =>
          simp only [hfound] at h
          cases h
      | some execution =>
          simp only [hfound] at h
          split_ifs at h
          rw [← Option.some.inj h]
          rfl

section Worlds

variable {surfaces : Surfaces} {limit : AuditLimit} {initial : List OperationAuditEntry}
variable {labels : List (Option OperationAuditEntry)} {world : AuditWorld ε} {session : Session ε}

theorem inOrder_of_reached {freshId : Text} {request : ExecutionRequest} {log : ExecutionLog ε}
    {rest : Execution ε (Ended ε)} (h : (request.run surfaces freshId).Reached log rest) :
    InOrder (request.attempt surfaces freshId) [] (milestones log) := by
  obtain ⟨more, ended, hcourse, -⟩ := course_of_reached h
  exact (inOrder_append.mp hcourse.inOrder).1

theorem executionId_of_storedEntry {freshId : Text} {request : ExecutionRequest}
    {log : ExecutionLog ε} {call : ExecutionCall} {answer : ExecutionAnswer ε}
    {unreported : Option Text} {entry : OperationAuditEntry} {rest : Execution ε (Ended ε)}
    (h : (request.run surfaces freshId).Reached (log ++ [(call, answer)]) rest)
    (hentry : storedEntry call answer unreported = some entry) :
    entry.input.executionId = freshId := by
  cases call with
  | recordOperationAudit input =>
      have hordered := inOrder_of_reached h
      rw [milestones_append] at hordered
      obtain ⟨audited, event, haudited, hinput, -⟩ := (inOrder_append.mp hordered).2.1
      rw [input_of_storedEntry hentry, hinput, audited.executionId_entry]
      exact executionId_of_attempt haudited
  | _ => cases hentry

/-- The entries that were stored while the executions ran. -/
abbrev storedEntries (labels : List (Option OperationAuditEntry)) : List OperationAuditEntry :=
  labels.reduceOption

/-- The entries of one execution among others. -/
def entriesOf (executionId : Text) (entries : List OperationAuditEntry) :
    List OperationAuditEntry :=
  entries.filter fun entry => entry.input.executionId = executionId

theorem entriesOf_append {executionId : Text} {first second : List OperationAuditEntry} :
    entriesOf executionId (first ++ second) =
      entriesOf executionId first ++ entriesOf executionId second :=
  List.filter_append ..

theorem entriesOf_eq_self {executionId : Text} {entries : List OperationAuditEntry}
    (h : ∀ entry ∈ entries, entry.input.executionId = executionId) :
    entriesOf executionId entries = entries :=
  List.filter_eq_self.mpr fun entry hentry => decide_eq_true (h entry hentry)

theorem entriesOf_eq_nil {executionId : Text} {entries : List OperationAuditEntry}
    (h : ∀ entry ∈ entries, entry.input.executionId ≠ executionId) :
    entriesOf executionId entries = [] :=
  List.filter_eq_nil_iff.mpr fun entry hentry hsame => h entry hentry (of_decide_eq_true hsame)

/-- The invariant of a run: the file holds the newest of all entries, every session is somewhere
in its own execution, and its entries are those that the session left so far. -/
structure AuditInv (surfaces : Surfaces) (limit : AuditLimit) (initial : List OperationAuditEntry)
    (labels : List (Option OperationAuditEntry)) (world : AuditWorld ε) : Prop where
  entries : world.entries = (initial ++ storedEntries labels).rtake limit
  distinct : (world.sessions.map Session.executionId).Nodup
  reached : ∀ session ∈ world.sessions,
    (session.request.run surfaces session.executionId).Reached session.log session.rest
  left : ∀ session ∈ world.sessions,
    Left session.log (entriesOf session.executionId (storedEntries labels))
  owned : ∀ entry ∈ storedEntries labels,
    entry.input.executionId ∈ world.sessions.map Session.executionId

theorem storedEntries_concat {label : Option OperationAuditEntry} :
    storedEntries (labels ++ [label]) = storedEntries labels ++ label.toList := by
  rw [storedEntries, List.reduceOption_append, List.reduceOption_singleton]

theorem mem_of_mem_answered {ε : Type} {before after : List (Session ε)} {session changed other : Session ε}
    (hdistinct : ((before ++ session :: after).map Session.executionId).Nodup)
    (hother : other ∈ before ++ changed :: after) :
    other = changed ∨ other ∈ before ++ session :: after ∧
      other.executionId ≠ session.executionId := by
  rw [List.map_append, List.map_cons, List.nodup_middle, List.nodup_cons] at hdistinct
  have hapart : ∀ other ∈ before ++ after, other.executionId ≠ session.executionId := by
    intro other hmem hsame
    rw [← List.map_append] at hdistinct
    exact hdistinct.1 (hsame ▸ List.mem_map_of_mem hmem)
  rcases List.mem_append.mp hother with hmem | hmem
  · exact .inr ⟨List.mem_append_left _ hmem, hapart other (List.mem_append_left _ hmem)⟩
  · rcases List.mem_cons.mp hmem with rfl | hmem
    · exact .inl rfl
    · exact .inr ⟨List.mem_append_right _ (List.mem_cons_of_mem _ hmem),
        hapart other (List.mem_append_right _ hmem)⟩

theorem auditInv_step {world' : AuditWorld ε} {label : Option OperationAuditEntry}
    (h : AuditInv surfaces limit initial labels world)
    (hstep : AuditStep surfaces limit world label world') :
    AuditInv surfaces limit initial (labels ++ [label]) world' := by
  cases hstep with
  | begin request freshId hfresh =>
      have hstored : storedEntries (labels ++ [none]) = storedEntries labels := by
        rw [storedEntries_concat, Option.toList_none, List.append_nil]
      have hnone : entriesOf freshId (storedEntries labels) = [] :=
        entriesOf_eq_nil fun entry hentry hsame => hfresh (hsame ▸ h.owned entry hentry)
      constructor
      · rw [hstored]
        exact h.entries
      · rw [List.map_append, List.map_singleton, List.nodup_append]
        refine ⟨h.distinct, List.nodup_singleton _, ?_⟩
        rintro id hid fresh hmem rfl
        rw [List.mem_singleton.mp hmem] at hid
        exact hfresh hid
      · intro session hmem
        rcases List.mem_append.mp hmem with hmem | hmem
        · exact h.reached session hmem
        · obtain rfl := List.mem_singleton.mp hmem
          exact .start
      · intro session hmem
        rw [hstored]
        rcases List.mem_append.mp hmem with hmem | hmem
        · exact h.left session hmem
        · obtain rfl := List.mem_singleton.mp hmem
          rw [hnone]
          exact .nil
      · intro entry hentry
        rw [hstored] at hentry
        rw [List.map_append]
        exact List.mem_append_left _ (h.owned entry hentry)
  | @answer before after session call next hsessions hrest answer unreported =>
      have hmem : session ∈ world.sessions := by simp [hsessions]
      have hreached : (session.request.run surfaces session.executionId).Reached
          (session.log ++ [(call, answer)]) (next answer) := by
        have hbefore := h.reached session hmem
        rw [hrest] at hbefore
        exact hbefore.answered answer
      have hids : (before ++ session.answered call answer (next answer) :: after).map
          Session.executionId = world.sessions.map Session.executionId := by
        rw [hsessions]
        simp [Session.answered]
      have howner : ∀ entry ∈ (storedEntry call answer unreported).toList,
          entry.input.executionId = session.executionId := fun entry hentry =>
        executionId_of_storedEntry hreached (Option.mem_toList.mp hentry)
      have hdistinct := h.distinct
      rw [hsessions] at hdistinct
      constructor
      · rw [storedEntries_concat, ← List.append_assoc]
        cases hstored : storedEntry call answer unreported with
        | none => simpa using h.entries
        | some entry =>
            change recordOperationAudit limit world.entries entry = _
            rw [h.entries, recordOperationAudit_rtake]
            rfl
      · rw [hids]
        exact h.distinct
      · intro other hother
        rcases mem_of_mem_answered hdistinct hother with rfl | ⟨hother, -⟩
        · exact hreached
        · exact h.reached other (hsessions ▸ hother)
      · intro other hother
        rw [storedEntries_concat, entriesOf_append]
        rcases mem_of_mem_answered hdistinct hother with rfl | ⟨hother, hapart⟩
        · change Left (session.log ++ [(call, answer)]) (entriesOf session.executionId _ ++
            entriesOf session.executionId _)
          rw [entriesOf_eq_self howner]
          exact (h.left session hmem).snoc call answer unreported
        · have hnone : entriesOf other.executionId (storedEntry call answer unreported).toList = [] :=
            entriesOf_eq_nil fun entry hentry hsame =>
              hapart (hsame.symm.trans (howner entry hentry))
          rw [hnone, List.append_nil]
          exact h.left other (hsessions ▸ hother)
      · intro entry hentry
        rw [hids]
        rw [storedEntries_concat] at hentry
        rcases List.mem_append.mp hentry with hentry | hentry
        · exact h.owned entry hentry
        · rw [howner entry hentry]
          exact List.mem_map_of_mem hmem

theorem auditInv_of_run (hinitial : initial.length ≤ limit)
    (hrun : Run (AuditStep surfaces limit) (⟨initial, []⟩ : AuditWorld ε) labels world) :
    AuditInv surfaces limit initial labels world := by
  refine hrun.history_invariant (I := AuditInv surfaces limit initial) ?_ ?_
  · intro labels t label u _ h hstep
    exact auditInv_step h hstep
  · constructor
    · simpa [storedEntries] using (rtake_of_length_le hinitial).symm
    · exact List.nodup_nil
    · exact fun session hsession => absurd hsession List.not_mem_nil
    · exact fun session hsession => absurd hsession List.not_mem_nil
    · exact fun entry hentry => absurd hentry List.not_mem_nil

/-- Whatever executions run side by side, and whatever fails, the file holds the newest of
all entries, and those of each execution tell its story: nothing, or that it started, or
that and one more entry, which says what happened. Where the handler of an audited
operation has run, its start is there. -/
theorem trail_tells_stories (hinitial : initial.length ≤ limit)
    (hrun : Run (AuditStep surfaces limit) (⟨initial, []⟩ : AuditWorld ε) labels world) :
    world.entries = (initial ++ storedEntries labels).rtake limit ∧
      ∀ session ∈ world.sessions,
        Story (session.request.attempt surfaces session.executionId) (milestones session.log)
          (entriesOf session.executionId (storedEntries labels)) := by
  have hinv := auditInv_of_run hinitial hrun
  refine ⟨hinv.entries, fun session hsession => ?_⟩
  exact story_of_left (hinv.left session hsession) (inOrder_of_reached (hinv.reached session hsession))

end Worlds

/-! ## Two executions -/

/-- The next call of one session is answered. -/
def AuditWorld.answerAt (limit : AuditLimit) (i : ℕ) (answer : ExecutionAnswer ε)
    (world : AuditWorld ε) : Option (Option OperationAuditEntry × AuditWorld ε) :=
  match world.sessions[i]? with
  | none => none
  | some session =>
      match session.rest with
      | .done _ => none
      | .call made rest => some (storedEntry made answer none,
          { entries := (storedEntry made answer none).elim world.entries
              (recordOperationAudit limit world.entries)
            sessions := world.sessions.take i ++
              session.answered made answer (rest answer) :: world.sessions.drop (i + 1) })

theorem step_answerAt {surfaces : Surfaces} {limit : AuditLimit} {world world' : AuditWorld ε}
    {label : Option OperationAuditEntry} (i : ℕ) (answer : ExecutionAnswer ε)
    (h : world.answerAt limit i answer = some (label, world')) :
    AuditStep surfaces limit world label world' := by
  unfold AuditWorld.answerAt at h
  split at h
  · cases h
  · next session hsession =>
      split at h
      · cases h
      · next call rest hrest =>
          cases h
          have hsessions : world.sessions =
              world.sessions.take i ++ session :: world.sessions.drop (i + 1) := by
            obtain ⟨hlength, rfl⟩ := List.getElem?_eq_some_iff.mp hsession
            rw [← List.drop_eq_getElem_cons hlength, List.take_append_drop]
          exact .answer hsessions hrest answer none

def grantingAnswer : ExecutionAnswer Text := ⟨.ok "t", .ok (.boolean true), .ok { content := [] }⟩

/-- Two commands run side by side over a file that keeps two entries. The second one is
stopped after its start, and the start of the first is dropped when the first is over. -/
theorem trail_tells_stories_sideBySide : ∃ limit world, resolveAuditLimit (some 2) = .ok limit ∧
    world.entries.map (fun entry => (entry.input.executionId, entry.input.event)) =
        [(Text.ofString "second", OperationAuditEvent.started), (Text.ofString "first", .succeeded)] ∧
      ∃ all, world.entries = all.rtake limit ∧ all.length = 3 ∧
        ∀ session ∈ (world : AuditWorld Text).sessions,
          Story (session.request.attempt LostEntry.surfaces session.executionId)
            (milestones session.log) (entriesOf session.executionId all) := by
  let limit : AuditLimit := ⟨2, Nat.two_pos⟩
  have hbegun : Run (AuditStep LostEntry.surfaces limit) (⟨[], []⟩ : AuditWorld Text)
      [none, none] _ :=
    .cons (.begin LostEntry.request "first" List.not_mem_nil)
      (.cons (.begin LostEntry.request "second" (by decide)) (.refl _))
  have hfirst := hbegun.snoc (step_answerAt 0 grantingAnswer rfl)
  have hsecond := hfirst.snoc (step_answerAt 1 grantingAnswer rfl)
  have hthird := hsecond.snoc (step_answerAt 0 grantingAnswer rfl)
  have hfourth := hthird.snoc (step_answerAt 0 grantingAnswer rfl)
  have hrun := hfourth.snoc (step_answerAt 0 grantingAnswer rfl)
  obtain ⟨hentries, hstories⟩ := trail_tells_stories (Nat.zero_le _) hrun
  exact ⟨limit, _, rfl, by rfl, _, hentries, by rfl, hstories⟩

end ListmonkOps.Operations
