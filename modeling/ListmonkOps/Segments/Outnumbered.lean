/-
More keys than records.

No more than a hundred records are kept, and a window has room for a thousand
snapshots. A run for each of a hundred and one keys leaves a snapshot under each
of them, and one of them without a record: a run under that key measures again.
-/

import ListmonkOps.Segments.MeasuredOnce

namespace ListmonkOps.Segments

open ListmonkOps.Math ListmonkOps.Runtime

/-! ## Measurements of valid samples -/

section Valid

variable {store : SegmentDriftStore} {call : DriftCall} {entries : List SegmentSnapshotEntry}
variable {lookbackCutoff : ℚ}

/-- Every record and every snapshot passes its check. -/
def Valid (store : SegmentDriftStore) : Prop :=
  (∀ entry ∈ store.keyedResults.entries, isValidResult entry.2 = true) ∧
    ∀ snapshot ∈ store.snapshots, isValidSnapshot snapshot = true

theorem parses_iff_valid : parseSegmentDriftStore store = .ok store ↔ Valid store := by
  have hrecords : ((ownOrder store.keyedResults.entries).find?
      fun entry => !isValidResult entry.2) = none ↔
        ∀ entry ∈ store.keyedResults.entries, isValidResult entry.2 = true := by
    rw [List.find?_eq_none]
    simp [(Value.ownOrder_perm store.keyedResults.entries).mem_iff]
  have hsnapshots : (store.snapshots.findIdx? fun snapshot => !isValidSnapshot snapshot) = none ↔
      ∀ snapshot ∈ store.snapshots, isValidSnapshot snapshot = true := by
    rw [List.findIdx?_eq_none_iff]
    simp
  rw [Valid, ← hrecords, ← hsnapshots, parseSegmentDriftStore]
  cases (ownOrder store.keyedResults.entries).find? fun entry => !isValidResult entry.2 with
  | some entry => simp
  | none =>
      cases store.snapshots.findIdx? fun snapshot => !isValidSnapshot snapshot with
      | some index => simp
      | none => simp

theorem isValidComparison_compareEntry {settings : StoredSegmentDriftSettings}
    {entry : SegmentSnapshotEntry} (h : isValidSnapshot entry = true) :
    isValidComparison (compareEntry store settings lookbackCutoff entry) = true := by
  simp only [isValidSnapshot, Bool.and_eq_true, decide_eq_true_eq] at h
  exact Bool.and_eq_true_iff.mpr ⟨decide_eq_true h.1.1, decide_eq_true h.1.2⟩

theorem Valid.measure (h : Valid store) (hentries : ∀ entry ∈ entries, isValidSnapshot entry = true) :
    Valid (Segments.measure call entries lookbackCutoff store).1 := by
  have hrecord : ∀ retained ⊆ entries, isValidResult (measurementOf call retained
      (entries.map (compareEntry store (settingsOf call.options) lookbackCutoff))) = true := by
    intro retained hretained
    have hcomparisons : (entries.map
        (compareEntry store (settingsOf call.options) lookbackCutoff)).all isValidComparison =
          true := by
      simp only [List.all_map, List.all_eq_true, Function.comp_apply]
      exact fun entry hentry => isValidComparison_compareEntry (hentries entry hentry)
    have hids : ((retained.map (·.listId)).eraseDups.insertionSort (· ≤ ·)).all (0 < ·) = true := by
      simp only [List.all_eq_true, List.mem_insertionSort, List.mem_eraseDups, List.mem_map,
        decide_eq_true_eq]
      rintro _ ⟨entry, hentry, rfl⟩
      have hvalid := hentries entry (hretained hentry)
      simp only [isValidSnapshot, Bool.and_eq_true, decide_eq_true_eq] at hvalid
      exact hvalid.1.1
    simp only [isValidResult, measurementOf, hids, hcomparisons, Bool.true_and, Bool.and_true]
    exact List.all_eq_true.mpr fun comparison hmem =>
      List.all_eq_true.mp hcomparisons comparison (List.mem_filter.mp hmem).1
  refine ⟨fun entry hentry => ?_, fun snapshot hsnapshot => ?_⟩
  · have hmem := List.mem_of_mem_take (entries_pruneKeyedResults ▸ hentry)
    obtain ⟨hfiled, -⟩ := mem_recordsInUse.mp hmem
    cases hkey : call.sampleKey with
    | none =>
        rw [hkey] at hfiled
        exact h.1 entry hfiled
    | some key =>
        rw [hkey] at hfiled
        rcases Table.mem_set.mp hfiled with rfl | ⟨hold, -⟩
        · exact hrecord _ List.filter_sublist.subset
        · exact h.1 entry hold
  · rcases List.mem_append.mp (retain_subperm.subset hsnapshot) with hold | hnew
    · exact h.2 snapshot (List.mem_filter.mp hold).1
    · exact hentries snapshot (List.mem_filter.mp hnew).1

end Valid

/-! ## A hundred and one keys -/

section Sample

/-- The sample key of a number: its digits. -/
def keyOf (n : ℕ) : Text := Text.ofNat n

def callOf (n : ℕ) : DriftCall where
  options := { sampleKey := some (keyOf n) }
  sampleKey := some (keyOf n)
  capturedAt := { time := n }

def oneList : ListAnswers where
  getById listId := .error (("Failed to fetch list " : Text) ++ intText listId)
  list := .ok [{ id := some 1, subscriber_count := some 10 }]
  found listId list h := by cases h
  distinct lists h := by
    obtain rfl := Except.ok.inj h
    exact List.nodup_singleton _

def snapshotOf (n : ℕ) : SegmentSnapshotEntry where
  capturedAt := { time := n }
  listId := 1
  listName := ("List " : Text) ++ intText 1
  subscriberCount := 10
  sampleKey := some (keyOf n)

/-- The document after a number of runs, each under a key of its own. -/
def filled : ℕ → SegmentDriftStore
  | 0 => emptyStore
  | n + 1 => (finishSegmentDriftSnapshot (callOf n) oneList n none (filled n)).1

theorem keyOf_valid : ∀ n < 101, isSampleKey (keyOf n) = true ∧ (keyOf n).trim = keyOf n := by
  decide +kernel

theorem isValidSnapshot_snapshotOf {n : ℕ} (hn : n < 101) :
    isValidSnapshot (snapshotOf n) = true := by
  simp [isValidSnapshot, snapshotOf, (keyOf_valid n hn).1]

/-- What the document holds after a number of runs with a key each: all the snapshots, and records
of some of the keys. -/
structure Filled (n : ℕ) (file : SegmentDriftStore) : Prop where
  valid : Valid file
  snapshots : file.snapshots.Perm ((List.range n).map snapshotOf)
  records : ∀ key stored, file.resultOf key = some stored → ∃ i < n, key = keyOf i

theorem resultOf_eq_some_of_measure {store : SegmentDriftStore} {call : DriftCall}
    {entries : List SegmentSnapshotEntry} {lookbackCutoff : ℚ} {key : Text}
    {stored : StoredSegmentDriftResult}
    (h : (measure call entries lookbackCutoff store).1.resultOf key = some stored) :
    call.sampleKey = some key ∨ store.resultOf key = some stored := by
  obtain ⟨entry, hentry, rfl⟩ := Option.map_eq_some_iff.mp h
  obtain ⟨hmem, hkey⟩ := Table.get?_eq_some_iff.mp hentry
  have hfiled := (mem_recordsInUse.mp (List.mem_of_mem_take (entries_pruneKeyedResults ▸ hmem))).1
  cases hcall : call.sampleKey with
  | none =>
      rw [hcall] at hfiled
      refine .inr (Option.map_eq_some_iff.mpr ⟨entry, ?_, rfl⟩)
      exact Table.get?_eq_some_iff.mpr ⟨hfiled, hkey⟩
  | some own =>
      rw [hcall] at hfiled
      rcases Table.mem_set.mp hfiled with rfl | ⟨hold, -⟩
      · exact .inl (congrArg some hkey)
      · refine .inr (Option.map_eq_some_iff.mpr ⟨entry, ?_, rfl⟩)
        exact Table.get?_eq_some_iff.mpr ⟨hold, hkey⟩

theorem Filled.finish {n : ℕ} {file : SegmentDriftStore} (h : Filled n file) (hn : n < 101) :
    ∃ result, finishSegmentDriftSnapshot (callOf n) oneList n none file =
        ((measure (callOf n) [snapshotOf n] (cutoffOf (callOf n) n) file).1, .ok result) ∧
      Filled (n + 1) (measure (callOf n) [snapshotOf n] (cutoffOf (callOf n) n) file).1 := by
  have hnone : file.resultOf (keyOf n) = none := by
    cases hstored : file.resultOf (keyOf n) with
    | none => rfl
    | some stored =>
        obtain ⟨i, hi, hkey⟩ := h.records _ _ hstored
        exact absurd (Text.ofNat_injective hkey) (by omega)
  have hcommit : commitSnapshot (callOf n) [snapshotOf n] (cutoffOf (callOf n) n) file =
      .ok (measure (callOf n) [snapshotOf n] (cutoffOf (callOf n) n) file) := by
    rw [commitSnapshot]
    simp only [callOf, Option.bind_some, hnone, Option.map_none]
  have hvalid : Valid (measure (callOf n) [snapshotOf n] (cutoffOf (callOf n) n) file).1 :=
    h.valid.measure fun entry hentry => by
      rw [List.mem_singleton.mp hentry]
      exact isValidSnapshot_snapshotOf hn
  have hfresh : ∀ snapshot ∈ file.snapshots, snapshot.sampleKey ≠ some (keyOf n) := by
    intro snapshot hmem hkey
    obtain ⟨i, hi, rfl⟩ := List.mem_map.mp (h.snapshots.subset hmem)
    have hsame := Text.ofNat_injective (Option.some.inj hkey)
    exact absurd (List.mem_range.mp hi) (by omega)
  have hretained : retainedEntries file [snapshotOf n] = [snapshotOf n] := by
    have hcommitted : committedSameKey file (snapshotOf n) = none :=
      List.find?_eq_none.mpr fun snapshot hmem => by
        simp [sharesSampleKey, snapshotOf, hfresh snapshot hmem]
    simp [retainedEntries, hcommitted]
  have hsurviving : survivingSnapshots file [snapshotOf n] = file.snapshots :=
    List.filter_eq_self.mpr fun snapshot hmem => by
      simp [sharesSampleKey, snapshotOf, hfresh snapshot hmem]
  refine ⟨(measure (callOf n) [snapshotOf n] (cutoffOf (callOf n) n) file).2, ?_, hvalid, ?_, ?_⟩
  · exact segmentDriftStore.exec_eq_ok (parses_iff_valid.mpr h.valid) hcommit
      (parses_iff_valid.mpr hvalid)
  · have hall : (file.snapshots ++ [snapshotOf n]).Perm ((List.range (n + 1)).map snapshotOf) := by
      rw [List.range_succ, List.map_append]
      exact h.snapshots.append_right _
    refine List.Perm.trans ?_ hall
    change (retainRecentSegmentSnapshots (survivingSnapshots file
      (retainedEntries file [snapshotOf n]) ++ retainedEntries file [snapshotOf n])).Perm _
    rw [hretained, hsurviving]
    refine retain_perm_self ?_
    rw [hall.length_eq, List.length_map, List.length_range, maxSegmentSnapshotsPerList]
    omega
  · intro key stored hstored
    rcases resultOf_eq_some_of_measure hstored with hkey | hold
    · exact ⟨n, by omega, (Option.some.inj hkey).symm⟩
    · obtain ⟨i, hi, rfl⟩ := h.records _ _ hold
      exact ⟨i, by omega, rfl⟩

theorem filled_succ {n : ℕ} (h : Filled n (filled n)) (hn : n < 101) :
    filled (n + 1) = (measure (callOf n) [snapshotOf n] (cutoffOf (callOf n) n) (filled n)).1 := by
  obtain ⟨result, hfinish, -⟩ := h.finish hn
  exact congrArg Prod.fst hfinish

theorem filled_of_le {n : ℕ} (hn : n ≤ 101) : Filled n (filled n) := by
  induction n with
  | zero =>
      exact ⟨⟨fun _ hmem => (by cases hmem), fun _ hmem => (by cases hmem)⟩, List.Perm.refl _,
        fun _ _ hstored => (by cases hstored)⟩
  | succ n ih =>
      have hbefore := ih (by omega)
      rw [filled_succ hbefore (by omega)]
      exact (hbefore.finish (by omega)).choose_spec.2

theorem exists_unrecorded : ∃ i < 101, (filled 101).resultOf (keyOf i) = none := by
  by_contra hall
  push Not at hall
  have hsub : (List.range 101).map keyOf ⊆ (filled 101).keyedResults.entries.map resultKey := by
    intro key hkey
    obtain ⟨i, hi, rfl⟩ := List.mem_map.mp hkey
    obtain ⟨stored, hstored⟩ := Option.ne_none_iff_exists'.mp (hall i (List.mem_range.mp hi))
    obtain ⟨entry, hentry, -⟩ := Option.map_eq_some_iff.mp hstored
    obtain ⟨hmem, hname⟩ := Table.get?_eq_some_iff.mp hentry
    exact List.mem_map.mpr ⟨entry, hmem, hname⟩
  have hdistinct : ((List.range 101).map keyOf).Nodup :=
    List.nodup_range.map Text.ofNat_injective
  have hlength := (hdistinct.subperm hsub).length_le
  rw [filled_succ (filled_of_le (by omega)) (by omega), List.length_map, List.length_map,
    List.length_range] at hlength
  exact absurd (hlength.trans length_pruneKeyedResults_le) (by decide)

def restState (n : ℕ) : DriftState := ⟨filled n, []⟩

/-- The state in which a run has found no record. -/
def midState (n : ℕ) : DriftState := ⟨filled n, [callOf n]⟩

def startEvent (n : ℕ) : DriftEvent :=
  .start { sampleKey := some (keyOf n) } n (.ok (.inr (callOf n)))

theorem beginSegmentDriftSnapshot_of_unrecorded {n i : ℕ} (hn : n ≤ 101) (hi : i < 101)
    (hnone : (filled n).resultOf (keyOf i) = none) :
    beginSegmentDriftSnapshot { sampleKey := some (keyOf i) } i (filled n) =
      .ok (.inr (callOf i)) := by
  have hparses := parses_iff_valid.mpr (filled_of_le hn).valid
  obtain ⟨hkey, htrim⟩ := keyOf_valid i hi
  rw [beginSegmentDriftSnapshot]
  simp only [Option.all_some, hkey, Option.map_some, htrim, hparses, except_ok_bind, hnone]
  rfl

theorem step_start {n : ℕ} (hn : n < 101) :
    (startEvent n).Step (restState n) (midState n) := by
  refine ⟨beginSegmentDriftSnapshot_of_unrecorded hn.le hn ?_, rfl⟩
  cases hstored : (filled n).resultOf (keyOf n) with
  | none => rfl
  | some stored =>
      obtain ⟨i, hi, hkey⟩ := (filled_of_le hn.le).records _ _ hstored
      exact absurd (Text.ofNat_injective hkey) (by omega)

theorem step_finish {n : ℕ} (hn : n < 101) : ∃ result,
    (DriftEvent.finish (callOf n) oneList n none (.ok result)).Step (midState n)
      (restState (n + 1)) := by
  obtain ⟨result, hfinish, -⟩ := (filled_of_le hn.le).finish hn
  refine ⟨result, List.mem_singleton_self _, ?_, by simp [midState, restState]⟩
  rw [restState, filled_succ (filled_of_le hn.le) hn]
  exact hfinish

theorem inUse_filled {i n : ℕ} (hi : i < n) (hn : n ≤ 101) : InUse (keyOf i) (filled n) := by
  refine List.mem_filterMap.mpr ⟨snapshotOf i, ?_, rfl⟩
  exact (filled_of_le hn).snapshots.symm.subset (List.mem_map_of_mem (List.mem_range.mpr hi))

/-- From one run to a later one every document holds what all of them hold. -/
theorem exists_run_filled (Holds : SegmentDriftStore → Prop) {m n : ℕ} (hmn : m ≤ n)
    (hn : n ≤ 101) (hholds : ∀ k, m ≤ k → k ≤ n → Holds (filled k)) :
    ∃ events, Run (fun s event t => DriftEvent.Step s event t ∧ Holds t.file) (restState m) events
      (restState n) := by
  induction n, hmn using Nat.le_induction with
  | base => exact ⟨[], Run.refl _⟩
  | succ n hmn ih =>
      obtain ⟨events, hrun⟩ := ih (by omega) fun k hk hk' => hholds k hk (by omega)
      obtain ⟨result, hfinish⟩ := step_finish (n := n) (by omega)
      exact ⟨_, (hrun.snoc ⟨step_start (by omega), hholds n hmn (by omega)⟩).snoc
        ⟨hfinish, hholds (n + 1) (by omega) le_rfl⟩⟩

end Sample

theorem capAdmits_filled {n : ℕ} (hn : n ≤ 100) : CapAdmits (filled n) := by
  have hsnapshots := (filled_of_le (n := n) (by omega)).snapshots
  have hdups : (sampleKeys (filled n).snapshots).eraseDups.length ≤
      (sampleKeys (filled n).snapshots).length :=
    ((nodup_eraseDups _).subperm fun _ hmem => List.mem_eraseDups.mp hmem).length_le
  have hkeys : (sampleKeys (filled n).snapshots).length ≤ n := by
    refine (List.length_filterMap_le _ _).trans ?_
    rw [hsnapshots.length_eq, List.length_map, List.length_range]
  exact (hdups.trans hkeys).trans hn

/-- After a hundred runs, each under a key of its own, the first is still answered. -/
theorem answeredBy_filled_hundred : ∃ result,
    (finishSegmentDriftSnapshot (callOf 0) oneList 0 none (filled 0)).2 = .ok result ∧
      AnsweredBy (filled 100) (keyOf 0) (callOf 0).options result := by
  have hstart : (startEvent 0).Step initialState (midState 0) := step_start (by omega)
  obtain ⟨result, hfinish⟩ := step_finish (n := 0) (by omega)
  have holds {k : ℕ} (hk : 1 ≤ k) (hk' : k ≤ 100) :
      InUse (keyOf 0) (filled k) ∧ CapAdmits (filled k) :=
    ⟨inUse_filled hk (by omega), capAdmits_filled hk'⟩
  obtain ⟨later, hlater⟩ := exists_run_filled (fun file => InUse (keyOf 0) file ∧ CapAdmits file)
    (m := 1) (n := 100) (by omega) (by omega) fun k hk hk' => holds hk hk'
  have hkeeps : KeepsSamples (midState 0).file (callOf 0) oneList :=
    .inr fun lists _ => List.filter_eq_self.mpr fun entry _ => rfl
  exact ⟨result, congrArg Prod.snd hfinish.2.1, measuredOnce_of_capAdmits.2 _ _ _ _ _ _ _ _ _ _ _
    (Run.single hstart) hfinish rfl hkeeps (holds le_rfl (by omega)) hlater⟩

/-- A hundred and one runs, one after the other and each under a key of its own: a snapshot
carries every key, and one of the keys has no record. Its run is not answered when it comes
again; it goes on to measure. -/
theorem not_measuredOnce_of_inUse :
    ¬ MeasuredOnce (fun _ _ _ => True) fun key file => InUse key file := by
  rintro ⟨-, honce⟩
  obtain ⟨i, hi, hnone⟩ := exists_unrecorded
  obtain ⟨events, hrun⟩ := exists_run_filled (fun _ => True) (Nat.zero_le i) hi.le
    fun _ _ _ => trivial
  obtain ⟨result, hfinish⟩ := step_finish hi
  obtain ⟨later, hlater⟩ := exists_run_filled (InUse (keyOf i)) hi le_rfl
    fun k hk hk' => inUse_filled hk hk'
  have hbegun := (hrun.mono fun hstep => hstep.1).snoc (step_start hi)
  have hanswered := honce _ _ _ _ _ _ _ _ _ _ _ hbegun hfinish rfl trivial
    (inUse_filled (Nat.lt_succ_self i) hi) hlater
  have hsame : SameRequest (callOf i).options { sampleKey := some (keyOf i) } :=
    ⟨rfl, fun _ => Iff.rfl, rfl⟩
  have hreplayed := (hanswered.1 { sampleKey := some (keyOf i) } i
    (congrArg some (keyOf_valid i hi).2)).1 hsame
  rw [restState, beginSegmentDriftSnapshot_of_unrecorded le_rfl hi hnone] at hreplayed
  cases hreplayed

end ListmonkOps.Segments
