/-
A keyed sample is measured once.

Runs look for a record of their key when they begin and again when they write,
and any number of them may have begun before one writes. In every reachable
document a list has at most one snapshot under a key and no more than its window
has room for. A measurement that was recorded answers every later run under its
key, for as long as a snapshot carries the key and the keys in use do not
outnumber the records that are kept.
-/

import ListmonkOps.Math.Run
import ListmonkOps.Segments.Retention

namespace ListmonkOps.Segments

open ListmonkOps.Math ListmonkOps.Runtime

/-! ## Requests -/

/-- Two runs ask for the same: the same lists and the same settings. -/
def SameRequest (options options' : SegmentDriftOptions) : Prop :=
  requestIsAll options = requestIsAll options' ∧
    (∀ listId, listId ∈ options.listIds.getD [] ↔ listId ∈ options'.listIds.getD []) ∧
    settingsOf options = settingsOf options'

section Requests

variable {options options' : SegmentDriftOptions} {stored : StoredSegmentDriftResult}

theorem SameRequest.symm (h : SameRequest options options') : SameRequest options' options :=
  ⟨h.1.symm, fun listId => (h.2.1 listId).symm, h.2.2.symm⟩

theorem SameRequest.trans {options'' : SegmentDriftOptions} (h : SameRequest options options')
    (h' : SameRequest options' options'') : SameRequest options options'' :=
  ⟨h.1.trans h'.1, fun listId => (h.2.1 listId).trans (h'.2.1 listId), h.2.2.trans h'.2.2⟩

theorem sorted_eraseDups_eq_iff {ids ids' : List ℤ} :
    ids.eraseDups.insertionSort (· ≤ ·) = ids'.eraseDups.insertionSort (· ≤ ·) ↔
      ∀ id, id ∈ ids ↔ id ∈ ids' := by
  constructor
  · intro h id
    rw [← List.mem_eraseDups, ← List.mem_insertionSort (· ≤ ·), h, List.mem_insertionSort,
      List.mem_eraseDups]
  · intro h
    have hperm : ids.eraseDups.Perm ids'.eraseDups :=
      (List.perm_ext_iff_of_nodup (nodup_eraseDups _) (nodup_eraseDups _)).mpr fun id => by
        rw [List.mem_eraseDups, List.mem_eraseDups, h]
    exact (((List.perm_insertionSort _ _).trans hperm).trans
      (List.perm_insertionSort _ _).symm).eq_of_pairwise'
        (List.pairwise_insertionSort _ _) (List.pairwise_insertionSort _ _)

theorem normalizedListIdSet_eq_iff {ids ids' : List ℤ} :
    normalizedListIdSet ids = normalizedListIdSet ids' ↔ ∀ id, id ∈ ids ↔ id ∈ ids' := by
  rw [← sorted_eraseDups_eq_iff]
  refine ⟨fun h => ?_, fun h => by rw [normalizedListIdSet, h, normalizedListIdSet]⟩
  have hcomma (sorted : List ℤ) : ∀ part ∈ sorted.map intText, (44 : UInt16) ∉ part := by
    intro part hpart
    obtain ⟨id, -, rfl⟩ := List.mem_map.mp hpart
    exact notMem_intText (by decide) (by decide)
  have hparts (sorted : List ℤ) : ([44].intercalate (sorted.map intText)).splitOn (44 : UInt16) =
      if sorted = [] then [[]] else sorted.map intText := by
    split
    · next hnil => simp [hnil]
    · next hne => exact List.splitOn_intercalate 44 (hcomma sorted) (by simpa using hne)
  have hsplit := congrArg (List.splitOn (44 : UInt16)) h
  rw [normalizedListIdSet, normalizedListIdSet, hparts, hparts] at hsplit
  have hnone (sorted : List ℤ) : sorted.map intText ≠ [[]] := by
    intro hsingle
    obtain ⟨id, -, hid⟩ := List.map_eq_singleton_iff.mp hsingle
    exact intText_ne_nil id hid
  split_ifs at hsplit with hnil hnil' hnil'
  · rw [hnil, hnil']
  · exact absurd hsplit.symm (hnone _)
  · exact absurd hsplit (hnone _)
  · exact List.map_injective_iff.mpr intText_injective hsplit

/-- The record under a key was made for this request: the same scope, the same lists in any order,
and the same settings. -/
def RecordedFor (stored : StoredSegmentDriftResult) (options : SegmentDriftOptions) : Prop :=
  stored.scope = (if requestIsAll options then .all else .lists) ∧
    (requestIsAll options = false →
      ∀ listId, listId ∈ stored.listIds ↔ listId ∈ options.listIds.getD []) ∧
    stored.settings = settingsOf options

/-- A record matches the request it was made for, and no other. -/
theorem storedRequestMatches_iff (h : RecordedFor stored options) :
    storedRequestMatches stored options' (settingsOf options') = true ↔
      SameRequest options options' := by
  obtain ⟨hscope, hlists, hsettings⟩ := h
  have hall {options : SegmentDriftOptions} (h : requestIsAll options = true) :
      options.listIds.getD [] = [] := by simpa [requestIsAll] using h
  unfold storedRequestMatches SameRequest
  rw [hscope, hsettings]
  cases hrequest : requestIsAll options <;> cases hrequest' : requestIsAll options' <;>
    simp only [Bool.false_eq_true, if_false, if_true, reduceCtorEq, decide_false, decide_true,
      Bool.false_and, Bool.true_and, Bool.and_eq_true, decide_eq_true_eq, false_and, true_and,
      normalizedListIdSet_eq_iff]
  · have hsame := hlists hrequest
    refine and_congr_left fun _ => ⟨fun h id => ?_, fun h id => ?_⟩
    · rw [← hsame id, h id]
    · rw [hsame id, h id]
  · simp [hall hrequest, hall hrequest']

end Requests

/-! ## The samples of a run -/

section Samples

variable {answers : ListAnswers} {listIds : Option (List ℤ)} {lists : List ServerList}
variable {capturedAt : DateTime} {sampleKey : Option Text}

def entriesOf (capturedAt : DateTime) (sampleKey : Option Text) (lists : List ServerList) :
    List SegmentSnapshotEntry :=
  lists.filterMap (entryOf capturedAt sampleKey)

theorem entryOf_eq_some {list : ServerList} {entry : SegmentSnapshotEntry}
    (h : entryOf capturedAt sampleKey list = some entry) :
    list.id = some entry.listId ∧ entry.sampleKey = sampleKey := by
  obtain ⟨listId, hid, rfl⟩ := Option.map_eq_some_iff.mp h
  exact ⟨(Option.filter_eq_some_iff.mp hid).1, rfl⟩

theorem listIds_entriesOf_found {ids : List ℤ} (h : ids.mapM answers.getById = .ok lists) :
    (entriesOf capturedAt sampleKey lists).map (·.listId) = ids := by
  have hforall := mapM_eq_ok_iff.mp h
  clear h
  induction hforall with
  | nil => rfl
  | cons hlist _ ih =>
      obtain ⟨hid, hpos⟩ := answers.found _ _ hlist
      simpa [entriesOf, entryOf, hid, hpos, Option.filter] using ih

theorem listIds_entriesOf (h : getListsForDrift answers listIds = .ok lists)
    (hsome : listIds.getD [] ≠ []) :
    (entriesOf capturedAt sampleKey lists).map (·.listId) = (listIds.getD []).eraseDups := by
  unfold getListsForDrift at h
  cases hids : listIds.getD [] with
  | nil => exact absurd hids hsome
  | cons id ids =>
      rw [hids] at h
      cases hmapM : (id :: ids).eraseDups.mapM answers.getById with
      | error error => simp [hmapM, Except.mapError] at h
      | ok found =>
          obtain rfl : found = lists := by simpa [hmapM, Except.mapError] using h
          exact listIds_entriesOf_found hmapM

/-- No list is sampled twice. -/
theorem nodup_listIds_entriesOf (h : getListsForDrift answers listIds = .ok lists) :
    ((entriesOf capturedAt sampleKey lists).map (·.listId)).Nodup := by
  by_cases hall : listIds.getD [] = []
  · have hlists : answers.list = .ok lists := by
      cases hlist : answers.list with
      | error error => simp [getListsForDrift, hall, hlist, Except.mapError] at h
      | ok found => simpa [getListsForDrift, hall, hlist, Except.mapError] using h
    refine List.Nodup.of_map some ?_
    have hids : ((entriesOf capturedAt sampleKey lists).map (·.listId)).map some =
        (lists.filter fun list => (entryOf capturedAt sampleKey list).isSome).map (·.id) := by
      clear h hlists
      induction lists with
      | nil => rfl
      | cons list lists ih =>
          cases hentry : entryOf capturedAt sampleKey list with
          | none => simpa [entriesOf, hentry] using ih
          | some entry => simpa [entriesOf, hentry, (entryOf_eq_some hentry).1] using ih
    rw [hids]
    exact (List.filter_sublist.map _).nodup (answers.distinct lists hlists)
  · rw [listIds_entriesOf h hall]
    exact nodup_eraseDups _

end Samples

/-! ## Writes -/

/-- What holds of every document: it can be read again, no sample is in it twice, and no list has
more snapshots than are kept. -/
structure StoreInvariant (file : SegmentDriftStore) : Prop where
  parses : parseSegmentDriftStore file = .ok file
  once : (file.snapshots.filterMap sampleOf).Nodup
  limited : ∀ listId, (file.snapshots.filter (·.listId = listId)).length ≤
    maxSegmentSnapshotsPerList

section Writes

variable {call : DriftCall} {entries : List SegmentSnapshotEntry} {lookbackCutoff : ℚ}
variable {store next file file' : SegmentDriftStore} {result : SegmentDriftResult}
variable {answers : ListAnswers} {now : ℤ} {fault : Option (StoreFault DriftError)}

theorem parseSegmentDriftStore_eq_ok (h : parseSegmentDriftStore file = .ok store) :
    store = file := by
  unfold parseSegmentDriftStore at h
  split at h
  · cases h
  · split at h
    · cases h
    · exact (Except.ok.inj h).symm

theorem sampleOf_eq_some {snapshot : SegmentSnapshotEntry} {listId : ℤ} {key : Text} :
    sampleOf snapshot = some (listId, key) ↔
      snapshot.listId = listId ∧ snapshot.sampleKey = some key := by
  unfold sampleOf
  cases snapshot.sampleKey <;> simp

theorem nodup_filterMap_sampleOf (h : (entries.map (·.listId)).Nodup) :
    (entries.filterMap sampleOf).Nodup := by
  induction entries with
  | nil => exact List.nodup_nil
  | cons entry entries ih =>
      obtain ⟨hfresh, hrest⟩ := List.nodup_cons.mp h
      rcases hsample : sampleOf entry with - | ⟨listId, key⟩
      · rw [List.filterMap_cons_none hsample]
        exact ih hrest
      · rw [List.filterMap_cons_some hsample]
        refine List.nodup_cons.mpr ⟨fun hmem => hfresh ?_, ih hrest⟩
        obtain ⟨other, hother, hsame⟩ := List.mem_filterMap.mp hmem
        have hlist := (sampleOf_eq_some.mp hsame).1.trans (sampleOf_eq_some.mp hsample).1.symm
        exact List.mem_map.mpr ⟨other, hother, hlist⟩

theorem nodup_samples_append (h : (store.snapshots.filterMap sampleOf).Nodup)
    (hentries : (entries.map (·.listId)).Nodup) :
    ((survivingSnapshots store entries ++ entries).filterMap sampleOf).Nodup := by
  rw [List.filterMap_append, List.nodup_append]
  refine ⟨(List.filter_sublist.filterMap _).nodup h, nodup_filterMap_sampleOf hentries, ?_⟩
  rintro sample hsurvives _ hentry rfl
  obtain ⟨snapshot, hsnapshot, hsample⟩ := List.mem_filterMap.mp hsurvives
  obtain ⟨entry, hmem, hsample'⟩ := List.mem_filterMap.mp hentry
  obtain ⟨listId, key⟩ := sample
  obtain ⟨hlist, hkey⟩ := sampleOf_eq_some.mp hsample
  obtain ⟨hlist', hkey'⟩ := sampleOf_eq_some.mp hsample'
  have hnone := (List.mem_filter.mp hsnapshot).2
  have hany : (entries.any fun entry =>
      snapshot.listId = entry.listId && sharesSampleKey entry snapshot) = true :=
    List.any_eq_true.mpr ⟨entry, hmem, by simp [hlist, hlist', sharesSampleKey, hkey, hkey']⟩
  rw [hany, hkey] at hnone
  simp at hnone

theorem StoreInvariant.measure (h : StoreInvariant store)
    (hentries : (entries.map (·.listId)).Nodup)
    (hnext : (Segments.measure call entries lookbackCutoff store).1 = next)
    (hparses : parseSegmentDriftStore next = .ok next) : StoreInvariant next where
  parses := hparses
  once := by
    subst hnext
    exact nodup_filterMap_of_subperm retain_subperm
      (nodup_samples_append h.once ((List.filter_sublist.map _).nodup hentries))
  limited := by
    subst hnext
    exact fun listId => length_filter_retain_le listId

theorem commitSnapshot_eq_ok
    (h : commitSnapshot call entries lookbackCutoff store = .ok (next, result)) :
    (∃ key committed, call.sampleKey = some key ∧ store.resultOf key = some committed ∧
        answerFrom committed call.options key = .ok result ∧ next = store) ∨
      ((∀ key, call.sampleKey = some key → store.resultOf key = none) ∧
        measure call entries lookbackCutoff store = (next, result)) := by
  unfold commitSnapshot at h
  cases hkey : call.sampleKey with
  | none =>
      rw [hkey] at h
      exact .inr ⟨fun key hkey => (by cases hkey), Except.ok.inj h⟩
  | some key =>
      cases hstored : store.resultOf key with
      | none =>
          rw [hkey, Option.bind_some, hstored] at h
          refine .inr ⟨?_, Except.ok.inj h⟩
          rintro _ ⟨⟩
          exact hstored
      | some committed =>
          rw [hkey, Option.bind_some, hstored] at h
          cases hanswer : answerFrom committed call.options key with
          | error error => simp [hanswer, Except.map] at h
          | ok answer =>
              obtain ⟨rfl, rfl⟩ : store = next ∧ answer = result := by
                simpa [hanswer, Except.map] using h
              exact .inl ⟨key, committed, rfl, hstored, hanswer, rfl⟩

/-- The time that the window of a run begins at. -/
def cutoffOf (call : DriftCall) (now : ℤ) : ℚ :=
  now - (settingsOf call.options).lookbackDays * 86400000

/-- What a run leaves: the document as it was, or with its measurement. -/
theorem finish_cases (file : SegmentDriftStore) (call : DriftCall) (answers : ListAnswers)
    (now : ℤ) (fault : Option (StoreFault DriftError)) :
    (finishSegmentDriftSnapshot call answers now fault file).1 = file ∨
      ∃ lists next, getListsForDrift answers call.options.listIds = .ok lists ∧
        (finishSegmentDriftSnapshot call answers now fault file).1 = next ∧
        (∀ key, call.sampleKey = some key → file.resultOf key = none) ∧
        (measure call (entriesOf call.capturedAt call.sampleKey lists) (cutoffOf call now)
          file).1 = next ∧ parseSegmentDriftStore next = .ok next := by
  unfold finishSegmentDriftSnapshot
  cases hlists : getListsForDrift answers call.options.listIds with
  | error error => exact .inl rfl
  | ok lists =>
      dsimp only
      obtain ⟨written, hwritten⟩ : ∃ written, segmentDriftStore.exec (commitSnapshot call
        (entriesOf call.capturedAt call.sampleKey lists) (cutoffOf call now)) file = written :=
          ⟨_, rfl⟩
      have hcases : written.1 = file ∨ (∀ key, call.sampleKey = some key →
          file.resultOf key = none) ∧ (measure call
            (entriesOf call.capturedAt call.sampleKey lists) (cutoffOf call now) file).1 =
              written.1 ∧ parseSegmentDriftStore written.1 = .ok written.1 := by
        obtain ⟨next, outcome⟩ := written
        cases outcome with
        | error error => exact .inl (segmentDriftStore.exec_of_error hwritten)
        | ok result =>
            obtain ⟨current, hread, hcommit, parsed, hparsed⟩ :=
              segmentDriftStore.exec_of_ok hwritten
            obtain rfl := parseSegmentDriftStore_eq_ok hread
            obtain rfl := parseSegmentDriftStore_eq_ok hparsed
            rcases commitSnapshot_eq_ok hcommit with ⟨_, _, -, -, -, rfl⟩ | ⟨hnone, hmeasure⟩
            · exact .inl rfl
            · exact .inr ⟨hnone, congrArg Prod.fst hmeasure, hparsed⟩
      have hfile := congrArg Prod.fst hwritten
      rcases fault with - | ⟨error⟩ | ⟨error⟩
      · rcases hcases with hsame | ⟨hnone, hmeasure, hparses⟩
        · exact .inl (hfile.trans hsame)
        · exact .inr ⟨lists, written.1, rfl, hfile, hnone, hmeasure, hparses⟩
      · exact .inl rfl
      · rcases hcases with hsame | ⟨hnone, hmeasure, hparses⟩
        · exact .inl (hfile.trans hsame)
        · exact .inr ⟨lists, written.1, rfl, hfile, hnone, hmeasure, hparses⟩

theorem StoreInvariant.finish (h : StoreInvariant file) (call : DriftCall) (answers : ListAnswers)
    (now : ℤ) (fault : Option (StoreFault DriftError)) :
    StoreInvariant (finishSegmentDriftSnapshot call answers now fault file).1 := by
  rcases finish_cases file call answers now fault with hsame | ⟨lists, next, hlists, hnext, -,
    hmeasure, hparses⟩
  · rw [hsame]
    exact h
  · rw [hnext]
    exact h.measure (nodup_listIds_entriesOf hlists) hmeasure hparses

/-- The record of a key that is in use outlives the measurement of another key. -/
theorem resultOf_measure_of_ne {key : Text} (hne : call.sampleKey ≠ some key)
    (huse : key ∈ sampleKeys (measure call entries lookbackCutoff store).1.snapshots)
    (hcap : CapAdmits (measure call entries lookbackCutoff store).1) :
    (measure call entries lookbackCutoff store).1.resultOf key = store.resultOf key := by
  unfold SegmentDriftStore.resultOf
  refine congrArg (Option.map Prod.snd) ((get?_pruneKeyedResults huse hcap).trans ?_)
  cases hkey : call.sampleKey with
  | none => rfl
  | some own =>
      refine Table.get?_set_of_ne fun heq => hne ?_
      rw [hkey]
      exact congrArg some heq.symm

theorem resultOf_measure_self {key : Text} (hkey : call.sampleKey = some key)
    (huse : key ∈ sampleKeys (measure call entries lookbackCutoff store).1.snapshots)
    (hcap : CapAdmits (measure call entries lookbackCutoff store).1) :
    (measure call entries lookbackCutoff store).1.resultOf key =
      some (measurementOf call (retainedEntries store entries)
        (entries.map (compareEntry store (settingsOf call.options) lookbackCutoff))) := by
  unfold SegmentDriftStore.resultOf
  refine congrArg (Option.map Prod.snd)
    ((get?_pruneKeyedResults huse hcap).trans (c := some (key, _)) ?_)
  rw [hkey]
  exact Table.get?_set_self

end Writes

/-! ## Runs -/

/-- The document, and the runs that have begun and not written yet. -/
structure DriftState where
  file : SegmentDriftStore
  pending : List DriftCall

/-- Nothing is stored, and no run has begun. -/
def initialState : DriftState := ⟨emptyStore, []⟩

/-- What a run does in one step, and how it ends there. -/
inductive DriftEvent where
  | start (options : SegmentDriftOptions) (time : ℤ)
      (outcome : Except DriftError (SegmentDriftResult ⊕ DriftCall))
  | finish (call : DriftCall) (answers : ListAnswers) (now : ℤ)
      (fault : Option (StoreFault DriftError)) (outcome : Except DriftError SegmentDriftResult)

/-- The runs that go on after their first step. -/
def goingOn : Except DriftError (SegmentDriftResult ⊕ DriftCall) → List DriftCall
  | .ok (.inr call) => [call]
  | _ => []

/-- A run begins or comes to its end; between the two any others may come. -/
def DriftEvent.Step (s : DriftState) (event : DriftEvent) (s' : DriftState) : Prop :=
  match event with
  | .start options time outcome =>
      beginSegmentDriftSnapshot options time s.file = outcome ∧
        s' = ⟨s.file, s.pending ++ goingOn outcome⟩
  | .finish call answers now fault outcome =>
      call ∈ s.pending ∧
        finishSegmentDriftSnapshot call answers now fault s.file = (s'.file, outcome) ∧
        s'.pending = s.pending.erase call

/-- A list has at most one snapshot under a key, and no more than its window has room for. -/
def SampledOnce (file : SegmentDriftStore) : Prop :=
  (file.snapshots.filterMap sampleOf).Nodup ∧
    ∀ listId, (file.snapshots.filter (·.listId = listId)).length ≤ maxSegmentSnapshotsPerList

/-- The document answers every run under a key from the measurement of one request, and stays
as it is. -/
def AnsweredBy (file : SegmentDriftStore) (key : Text) (options : SegmentDriftOptions)
    (result : SegmentDriftResult) : Prop :=
  (∀ options' time, options'.sampleKey.map Text.trim = some key →
    (SameRequest options options' →
      beginSegmentDriftSnapshot options' time file = .ok (.inl { result with replaced := 0 })) ∧
    (¬ SameRequest options options' →
      beginSegmentDriftSnapshot options' time file = .error (conflict key))) ∧
  ∀ call answers now fault, call.sampleKey = some key →
    (finishSegmentDriftSnapshot call answers now fault file).1 = file ∧
    (SameRequest options call.options →
      ∀ lists, getListsForDrift answers call.options.listIds = .ok lists →
        (finishSegmentDriftSnapshot call answers now none file).2 =
          .ok { result with replaced := 0 }) ∧
    (¬ SameRequest options call.options →
      ∃ error, (finishSegmentDriftSnapshot call answers now fault file).2 = .error error)

/-- Keyed samples are measured once: every reachable document has sampled once, and what a run
has committed under a key answers the runs under the key, for as long as the document holds
on to the key. -/
def MeasuredOnce (Commits : SegmentDriftStore → DriftCall → ListAnswers → Prop)
    (Holds : Text → SegmentDriftStore → Prop) : Prop :=
  (∀ events s, Run DriftEvent.Step initialState events s → SampledOnce s.file) ∧
  ∀ events s call answers now fault result key s' later s'',
    Run DriftEvent.Step initialState events s →
    (DriftEvent.finish call answers now fault (.ok result)).Step s s' →
    call.sampleKey = some key → Commits s.file call answers → Holds key s'.file →
    Run (fun s event t => DriftEvent.Step s event t ∧ Holds key t.file) s' later s'' →
    AnsweredBy s''.file key call.options result

/-- A snapshot of the document carries the key. -/
def InUse (key : Text) (file : SegmentDriftStore) : Prop := key ∈ sampleKeys file.snapshots

/-- A run under a key that has a record, or one that keeps all its samples. -/
def KeepsSamples (file : SegmentDriftStore) (call : DriftCall) (answers : ListAnswers) : Prop :=
  (∃ key, call.sampleKey = some key ∧ (file.resultOf key).isSome) ∨
    ∀ lists, getListsForDrift answers call.options.listIds = .ok lists →
      retainedEntries file (entriesOf call.capturedAt call.sampleKey lists) =
        entriesOf call.capturedAt call.sampleKey lists

section Runs

variable {s s' : DriftState} {events : List DriftEvent} {event : DriftEvent}
variable {file : SegmentDriftStore} {key : Text} {stored : StoredSegmentDriftResult}
variable {options : SegmentDriftOptions} {call : DriftCall}

theorem storeInvariant_emptyStore : StoreInvariant emptyStore where
  parses := by simp [parseSegmentDriftStore, emptyStore, Table.empty, ownOrder]
  once := List.nodup_nil
  limited _ := Nat.zero_le _

theorem StoreInvariant.step (h : StoreInvariant s.file) (hstep : event.Step s s') :
    StoreInvariant s'.file := by
  cases event with
  | start options time outcome =>
      obtain ⟨-, rfl⟩ := hstep
      exact h
  | finish call answers now fault outcome =>
      have hfile := congrArg Prod.fst hstep.2.1
      have hfinish := h.finish call answers now fault
      rw [hfile] at hfinish
      exact hfinish

theorem storeInvariant_of_run (h : Run DriftEvent.Step initialState events s) :
    StoreInvariant s.file := by
  generalize hstart : initialState = start at h
  induction h with
  | refl =>
      subst hstart
      exact storeInvariant_emptyStore
  | snoc _ last ih => exact ih.step last

theorem resultOf_step (hstep : event.Step s s') (hstored : s.file.resultOf key = some stored)
    (huse : InUse key s'.file) (hcap : CapAdmits s'.file) :
    s'.file.resultOf key = some stored := by
  cases event with
  | start options time outcome =>
      obtain ⟨-, rfl⟩ := hstep
      exact hstored
  | finish call answers now fault outcome =>
      have hfile := congrArg Prod.fst hstep.2.1
      rcases finish_cases s.file call answers now fault with hsame | ⟨lists, next, -, hnext, hnone,
        hmeasure, -⟩
      · rw [hfile] at hsame
        change s'.file = s.file at hsame
        rw [hsame]
        exact hstored
      · obtain rfl : s'.file = next := hfile.symm.trans hnext
        rw [← hmeasure] at huse hcap ⊢
        rw [resultOf_measure_of_ne (fun hkey => ?_) huse hcap]
        · exact hstored
        · rw [hnone key hkey] at hstored
          cases hstored

theorem resultOf_run
    (h : Run (fun s event t => DriftEvent.Step s event t ∧ InUse key t.file ∧ CapAdmits t.file)
      s events s')
    (hstored : s.file.resultOf key = some stored) : s'.file.resultOf key = some stored := by
  induction h with
  | refl => exact hstored
  | snoc _ last ih => exact resultOf_step last.1 ih last.2.1 last.2.2

/-- A key that a stored snapshot carries is a sample key however it is padded. -/
theorem isSampleKey_of_inUse {raw : Text} (h : StoreInvariant file) (huse : InUse key file)
    (hraw : raw.trim = key) : isSampleKey raw = true := by
  obtain ⟨snapshot, hmem, hkey⟩ := List.mem_filterMap.mp huse
  have hvalid : isValidSnapshot snapshot = true := by
    have hparses := h.parses
    unfold parseSegmentDriftStore at hparses
    split at hparses
    · cases hparses
    · split at hparses
      · cases hparses
      · next hnone => simpa using List.findIdx?_eq_none_iff.mp hnone snapshot hmem
  have hsample : isSampleKey key = true := by
    simp only [isValidSnapshot, hkey, Option.all_some, Bool.and_eq_true] at hvalid
    exact hvalid.2
  rw [isSampleKey, hraw]
  rw [isSampleKey, ← hraw, Text.trim_trim, hraw] at hsample
  exact hsample

theorem answeredBy_of_resultOf {result : SegmentDriftResult} (h : StoreInvariant file)
    (huse : InUse key file) (hstored : file.resultOf key = some stored)
    (hrecorded : RecordedFor stored options)
    (hresult : replayStoredResult stored (settingsOf options) = { result with replaced := 0 }) :
    AnsweredBy file key options result := by
  have hanswer (options' : SegmentDriftOptions) :
      (SameRequest options options' →
        answerFrom stored options' key = .ok { result with replaced := 0 }) ∧
      (¬ SameRequest options options' → answerFrom stored options' key = .error (conflict key)) := by
    unfold answerFrom
    refine ⟨fun hsame => ?_, fun hother => ?_⟩
    · rw [if_pos ((storedRequestMatches_iff hrecorded).mpr hsame), ← hsame.2.2, hresult]
    · rw [if_neg fun hmatches => hother ((storedRequestMatches_iff hrecorded).mp hmatches)]
  refine ⟨fun options' time hkey => ?_, fun call answers now fault hkey => ?_⟩
  · obtain ⟨raw, hraw, htrim⟩ := Option.map_eq_some_iff.mp hkey
    have hbegin : beginSegmentDriftSnapshot options' time file =
        (answerFrom stored options' key).map .inl := by
      rw [beginSegmentDriftSnapshot, hraw, Option.all_some,
        if_pos (isSampleKey_of_inUse h huse htrim), Option.map_some, htrim]
      simp only [h.parses, hstored, except_ok_bind]
      cases answerFrom stored options' key <;> rfl
    refine ⟨fun hsame => ?_, fun hother => ?_⟩
    · rw [hbegin, (hanswer options').1 hsame]
      rfl
    · rw [hbegin, (hanswer options').2 hother]
      rfl
  · have hcommit (entries : List SegmentSnapshotEntry) (lookbackCutoff : ℚ) :
        commitSnapshot call entries lookbackCutoff file =
          (answerFrom stored call.options key).map (file, ·) := by
      rw [commitSnapshot, hkey, Option.bind_some, hstored]
      rfl
    have hexec (entries : List SegmentSnapshotEntry) (lookbackCutoff : ℚ) :
        segmentDriftStore.exec (commitSnapshot call entries lookbackCutoff) file =
          (file, answerFrom stored call.options key) := by
      cases hanswered : answerFrom stored call.options key with
      | ok answer =>
          exact segmentDriftStore.exec_eq_ok h.parses (by rw [hcommit, hanswered]; rfl) h.parses
      | error error =>
          exact segmentDriftStore.exec_eq_error h.parses (by rw [hcommit, hanswered]; rfl)
    unfold finishSegmentDriftSnapshot
    cases hlists : getListsForDrift answers call.options.listIds with
    | error error =>
        exact ⟨rfl, fun _ _ hok => (by cases hok), fun _ => ⟨error, rfl⟩⟩
    | ok lists =>
        simp only [withFault, hexec]
        refine ⟨?_, fun hsame _ _ => (hanswer call.options).1 hsame, fun hother => ?_⟩
        · rcases fault with - | ⟨error⟩ | ⟨error⟩ <;> rfl
        · rcases fault with - | ⟨error⟩ | ⟨error⟩
          · exact ⟨_, (hanswer call.options).2 hother⟩
          · exact ⟨_, rfl⟩
          · exact ⟨_, rfl⟩

theorem recordedFor_of_matches
    (h : storedRequestMatches stored options (settingsOf options) = true) :
    RecordedFor stored options := by
  unfold storedRequestMatches at h
  obtain ⟨hscope, hsettings⟩ := Bool.and_eq_true_iff.mp h
  unfold RecordedFor
  cases hrequest : requestIsAll options with
  | true =>
      rw [hrequest, if_pos rfl] at hscope
      exact ⟨by simpa using hscope, fun hfalse => (by cases hfalse), by simpa using hsettings⟩
  | false =>
      rw [hrequest, if_neg Bool.false_ne_true] at hscope
      obtain ⟨hlists, hsame⟩ := Bool.and_eq_true_iff.mp hscope
      have hids := normalizedListIdSet_eq_iff.mp (by simpa using hsame)
      exact ⟨by simpa using hlists, fun _ listId => (hids listId).symm, by simpa using hsettings⟩

theorem recordedFor_measurementOf {answers : ListAnswers} {lists : List ServerList}
    {comparisons : List SegmentDriftComparison}
    (h : getListsForDrift answers call.options.listIds = .ok lists) :
    RecordedFor (measurementOf call (entriesOf call.capturedAt call.sampleKey lists) comparisons)
      call.options := by
  refine ⟨rfl, fun hrequest listId => ?_, rfl⟩
  have hsome : call.options.listIds.getD [] ≠ [] := by simpa [requestIsAll] using hrequest
  rw [measurementOf, List.mem_insertionSort, List.mem_eraseDups, listIds_entriesOf h hsome,
    List.mem_eraseDups]

theorem exists_record_of_commit {answers : ListAnswers} {now : ℤ}
    {fault : Option (StoreFault DriftError)} {result : SegmentDriftResult}
    (hstep : (DriftEvent.finish call answers now fault (.ok result)).Step s s')
    (hkey : call.sampleKey = some key) (hkeeps : KeepsSamples s.file call answers)
    (huse : InUse key s'.file) (hcap : CapAdmits s'.file) :
    ∃ stored, s'.file.resultOf key = some stored ∧ RecordedFor stored call.options ∧
      replayStoredResult stored (settingsOf call.options) = { result with replaced := 0 } := by
  obtain ⟨-, hfinish, -⟩ := hstep
  unfold finishSegmentDriftSnapshot at hfinish
  cases hlists : getListsForDrift answers call.options.listIds with
  | error error =>
      rw [hlists] at hfinish
      cases congrArg Prod.snd hfinish
  | ok lists =>
      rw [hlists] at hfinish
      rcases fault with - | ⟨error⟩ | ⟨error⟩
      · obtain ⟨current, hread, hcommit, -⟩ := segmentDriftStore.exec_of_ok hfinish
        obtain rfl := parseSegmentDriftStore_eq_ok hread
        rcases commitSnapshot_eq_ok hcommit with
          ⟨key', committed, hkey', hstored, hanswer, hsame⟩ | ⟨hnone, hmeasure⟩
        · obtain rfl : key = key' := Option.some.inj (hkey.symm.trans hkey')
          unfold answerFrom at hanswer
          split at hanswer
          · next hmatches =>
              rw [hsame]
              obtain rfl := Except.ok.inj hanswer
              exact ⟨committed, hstored, recordedFor_of_matches hmatches, rfl⟩
          · cases hanswer
        · have hretained : retainedEntries s.file
              (entriesOf call.capturedAt call.sampleKey lists) =
                entriesOf call.capturedAt call.sampleKey lists := by
            rcases hkeeps with ⟨key', hkey', hsome⟩ | hkeeps
            · rw [hnone key' hkey'] at hsome
              cases hsome
            · exact hkeeps lists hlists
          obtain ⟨hfile, rfl⟩ := Prod.mk.inj hmeasure
          rw [← hfile] at huse hcap ⊢
          refine ⟨_, resultOf_measure_self hkey huse hcap, ?_, rfl⟩
          change RecordedFor (measurementOf call (retainedEntries s.file
            (entriesOf call.capturedAt call.sampleKey lists)) _) _
          rw [hretained]
          exact recordedFor_measurementOf hlists
      · cases congrArg Prod.snd hfinish
      · cases congrArg Prod.snd hfinish

/-- Keyed samples are measured once, for as long as a snapshot carries the key and the stored
snapshots carry no more keys than records are kept, where the run that has committed kept all
its samples. -/
theorem measuredOnce_of_capAdmits :
    MeasuredOnce KeepsSamples fun key file => InUse key file ∧ CapAdmits file := by
  refine ⟨fun events s hrun => ?_, ?_⟩
  · have h := storeInvariant_of_run hrun
    exact ⟨h.once, h.limited⟩
  · intro events s call answers now fault result key s' later s'' hrun hstep hkey hkeeps hholds hlater
    obtain ⟨stored, hstored, hrecorded, hresult⟩ :=
      exists_record_of_commit hstep hkey hkeeps hholds.1 hholds.2
    have hinvariant : StoreInvariant s'.file := (storeInvariant_of_run hrun).step hstep
    have hlast : StoreInvariant s''.file ∧ InUse key s''.file := by
      clear hstored hstep
      induction hlater with
      | refl => exact ⟨hinvariant, hholds.1⟩
      | snoc _ last ih => exact ⟨ih.1.step last.1, last.2.1⟩
    exact answeredBy_of_resultOf hlast.1 hlast.2 (resultOf_run hlater hstored) hrecorded hresult

end Runs

end ListmonkOps.Segments
