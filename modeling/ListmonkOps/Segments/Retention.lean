/-
What the document of segment drift retains.

Every write leaves at most one snapshot of a list under a sample key, and no
more snapshots of a list than its window has. A record is kept while a snapshot
carries its key, as long as the keys in use do not outnumber the records that
are kept at most.
-/

import ListmonkOps.Math.Grouping
import ListmonkOps.Segments.Drift

namespace ListmonkOps.Segments

open ListmonkOps.Math ListmonkOps.Runtime

/-! ## The window of a list -/

/-- The list and the key of a keyed snapshot. -/
def sampleOf (snapshot : SegmentSnapshotEntry) : Option (ℤ × Text) :=
  snapshot.sampleKey.map (snapshot.listId, ·)

def windowOf (snapshots : List SegmentSnapshotEntry) (listId : ℤ) : List SegmentSnapshotEntry :=
  let sorted := (snapshots.filter (·.listId = listId)).insertionSort CapturedLE
  sorted.drop (sorted.length - maxSegmentSnapshotsPerList)

section Window

variable {snapshots : List SegmentSnapshotEntry}

theorem windowOf_subperm (listId : ℤ) :
    List.Subperm (windowOf snapshots listId) (snapshots.filter (·.listId = listId)) :=
  (List.drop_sublist _ _).subperm.trans (List.perm_insertionSort _ _).subperm

theorem length_windowOf_le (listId : ℤ) :
    (windowOf snapshots listId).length ≤ maxSegmentSnapshotsPerList := by
  rw [windowOf, List.length_drop]
  omega

theorem listId_of_mem_windowOf {listId : ℤ} {snapshot : SegmentSnapshotEntry}
    (h : snapshot ∈ windowOf snapshots listId) : snapshot.listId = listId := by
  simpa using (List.mem_filter.mp ((windowOf_subperm listId).subset h)).2

theorem retain_perm :
    (retainRecentSegmentSnapshots snapshots).Perm
      ((snapshots.map (·.listId)).eraseDups.flatMap (windowOf snapshots)) :=
  List.perm_insertionSort _ _

theorem listId_mem_eraseDups {snapshot : SegmentSnapshotEntry} (h : snapshot ∈ snapshots) :
    snapshot.listId ∈ (snapshots.map (·.listId)).eraseDups :=
  List.mem_eraseDups.mpr (List.mem_map_of_mem h)

theorem retain_subperm : List.Subperm (retainRecentSegmentSnapshots snapshots) snapshots :=
  retain_perm.subperm.trans (flatMap_groups_subperm (nodup_eraseDups _)
    (fun _ => listId_mem_eraseDups) fun listId _ => windowOf_subperm listId)

theorem length_filter_retain_le (listId : ℤ) :
    ((retainRecentSegmentSnapshots snapshots).filter (·.listId = listId)).length ≤
      maxSegmentSnapshotsPerList := by
  rw [(retain_perm.filter _).length_eq,
    filter_flatMap_groups (nodup_eraseDups _) fun _ _ _ hmem => listId_of_mem_windowOf hmem]
  split
  · exact length_windowOf_le listId
  · exact Nat.zero_le _

theorem retain_perm_self (h : snapshots.length ≤ maxSegmentSnapshotsPerList) :
    (retainRecentSegmentSnapshots snapshots).Perm snapshots := by
  have hwhole : ∀ listId, List.Subperm (snapshots.filter (·.listId = listId))
      (windowOf snapshots listId) := by
    intro listId
    have hlength := (List.length_filter_le (·.listId = listId) snapshots).trans h
    rw [windowOf, List.length_insertionSort, Nat.sub_eq_zero_of_le hlength, List.drop_zero]
    exact (List.perm_insertionSort _ _).symm.subperm
  refine retain_subperm.antisymm ?_
  exact (flatMap_filter_perm (nodup_eraseDups _) fun _ => listId_mem_eraseDups).symm.subperm.trans
    ((flatMap_subperm_flatMap fun listId _ => hwhole listId).trans retain_perm.symm.subperm)

end Window

/-! ## Records in use -/

/-- The stored snapshots carry no more keys than records are kept at most. -/
def CapAdmits (store : SegmentDriftStore) : Prop :=
  (sampleKeys store.snapshots).eraseDups.length ≤ maxStoredKeyedResults

instance (store : SegmentDriftStore) : Decidable (CapAdmits store) :=
  inferInstanceAs (Decidable (_ ≤ _))

section Records

variable {keyedResults : Table resultKey} {keys : List Text}

/-- The records of keys in use, the latest first. -/
def recordsInUse (keyedResults : Table resultKey) (keys : List Text) :
    List (Text × StoredSegmentDriftResult) :=
  ((ownOrder keyedResults.entries).filter fun entry => entry.1 ∈ keys).insertionSort LatestFirst

theorem mem_recordsInUse {entry : Text × StoredSegmentDriftResult} :
    entry ∈ recordsInUse keyedResults keys ↔ entry ∈ keyedResults.entries ∧ entry.1 ∈ keys := by
  rw [recordsInUse, List.mem_insertionSort, List.mem_filter, (Value.ownOrder_perm _).mem_iff]
  simp

theorem nodup_recordsInUse : ((recordsInUse keyedResults keys).map resultKey).Nodup := by
  have hperm := (List.perm_insertionSort LatestFirst
    ((ownOrder keyedResults.entries).filter fun entry => entry.1 ∈ keys)).map resultKey
  refine hperm.nodup_iff.mpr ?_
  refine (List.Sublist.map resultKey List.filter_sublist).nodup ?_
  exact ((Value.ownOrder_perm _).map resultKey).nodup_iff.mpr keyedResults.distinct

theorem entries_pruneKeyedResults :
    (pruneKeyedResults keyedResults keys).entries =
      (recordsInUse keyedResults keys).take maxStoredKeyedResults :=
  Table.entries_ofList ((List.take_sublist _ _).map resultKey |>.nodup nodup_recordsInUse)

theorem length_pruneKeyedResults_le :
    (pruneKeyedResults keyedResults keys).entries.length ≤ maxStoredKeyedResults := by
  rw [entries_pruneKeyedResults, List.length_take]
  exact min_le_left _ _

/-- The record of a key in use is kept, where the keys are not too many. -/
theorem get?_pruneKeyedResults {key : Text} (hkey : key ∈ keys)
    (hcap : keys.eraseDups.length ≤ maxStoredKeyedResults) :
    (pruneKeyedResults keyedResults keys).get? key = keyedResults.get? key := by
  have hsub : (recordsInUse keyedResults keys).map resultKey ⊆ keys.eraseDups := by
    intro name hname
    obtain ⟨entry, hentry, rfl⟩ := List.mem_map.mp hname
    exact List.mem_eraseDups.mpr (mem_recordsInUse.mp hentry).2
  have hlength : (recordsInUse keyedResults keys).length ≤ maxStoredKeyedResults := by
    have hle := (nodup_recordsInUse.subperm hsub).length_le
    rw [List.length_map] at hle
    exact hle.trans hcap
  ext entry
  rw [Table.get?_eq_some_iff, Table.get?_eq_some_iff, entries_pruneKeyedResults,
    List.take_of_length_le hlength, mem_recordsInUse]
  constructor
  · rintro ⟨⟨hmem, -⟩, hentry⟩
    exact ⟨hmem, hentry⟩
  · rintro ⟨hmem, rfl⟩
    exact ⟨⟨hmem, hkey⟩, rfl⟩

end Records

end ListmonkOps.Segments
