/-
Segment drift snapshots.

A run samples the subscriber counts of lists and compares each with the history
of its list. A run under a sample key is measured once: its result is recorded
with its snapshots, and a later run under the key is answered from the record.
Snapshots and records are retained by rules of their own: a window for each
list, a record only while a snapshot carries its key, and a cap on the records.
A run looks for a record before it asks the server for lists, and again under
the lock when it writes.
-/

import ListmonkOps.Math.Keyed
import ListmonkOps.Runtime.Collation
import ListmonkOps.Runtime.JsonFileStore
import ListmonkOps.Runtime.Stringify

namespace ListmonkOps.Segments

open ListmonkOps.Math ListmonkOps.Runtime

/-! ## The document -/

def maxSegmentSnapshotsPerList : ℕ := 1000

def maxStoredKeyedResults : ℕ := 100

structure SegmentSnapshotEntry where
  capturedAt : DateTime
  listId : ℤ
  listName : Text
  subscriberCount : ℚ
  sampleKey : Option Text := none
  deriving DecidableEq

inductive BaselineMode where
  | previous
  | lookbackMean
  | lookbackMedian
  deriving DecidableEq

structure StoredSegmentDriftSettings where
  threshold : ℚ
  minAbsoluteChange : ℚ
  lookbackDays : ℚ
  baselineMode : BaselineMode
  deriving DecidableEq

structure SegmentDriftComparison where
  listId : ℤ
  listName : Text
  previousCount : Option ℚ
  currentCount : ℚ
  baselineCount : Option ℤ
  delta : Option ℚ
  deltaRate : Option ℚ
  alert : Bool
  deriving DecidableEq

/-- `scope`. -/
inductive DriftScope where
  | all
  | lists
  deriving DecidableEq

structure StoredSegmentDriftResult where
  scope : DriftScope
  listIds : List ℤ
  capturedAt : DateTime
  settings : StoredSegmentDriftSettings
  comparisons : List SegmentDriftComparison
  alerts : List SegmentDriftComparison
  deriving DecidableEq

/-- The key that a record is filed under. -/
def resultKey (entry : Text × StoredSegmentDriftResult) : Text := entry.1

/-- `SegmentDriftStore`; a document without records has none under any key. -/
structure SegmentDriftStore where
  snapshots : List SegmentSnapshotEntry
  keyedResults : Table resultKey

def emptyStore : SegmentDriftStore := ⟨[], Table.empty resultKey⟩

/-- The own member of `keyedResults` under a key. -/
def SegmentDriftStore.resultOf (store : SegmentDriftStore) (sampleKey : Text) :
    Option StoredSegmentDriftResult :=
  (store.keyedResults.get? sampleKey).map Prod.snd

structure SegmentDriftOptions where
  listIds : Option (List ℤ) := none
  threshold : Option ℚ := none
  minAbsoluteChange : Option ℚ := none
  lookbackDays : Option ℚ := none
  baselineMode : Option BaselineMode := none
  sampleKey : Option Text := none
  deriving DecidableEq

structure SegmentDriftResult where
  capturedAt : DateTime
  threshold : ℚ
  minAbsoluteChange : ℚ
  replaced : ℕ
  comparisons : List SegmentDriftComparison
  alerts : List SegmentDriftComparison
  deriving DecidableEq

inductive DriftError where
  | /-- An `Error` with its message. -/
    message (text : Text)
  | /-- A `TypeError` with its message. -/
    type (text : Text)
  deriving DecidableEq

/-- A sample key that supported transports can have stored. -/
def isSampleKey (key : Text) : Bool := key.trim ≠ [] && key.trim.length ≤ 200

/-- `isValidComparison`, of a comparison that has its type. -/
def isValidComparison (comparison : SegmentDriftComparison) : Bool :=
  0 < comparison.listId && 0 ≤ comparison.currentCount

def isValidResult (stored : StoredSegmentDriftResult) : Bool :=
  stored.listIds.all (0 < ·) && stored.comparisons.all isValidComparison &&
    stored.alerts.all isValidComparison

def isValidSnapshot (snapshot : SegmentSnapshotEntry) : Bool :=
  0 < snapshot.listId && 0 ≤ snapshot.subscriberCount && snapshot.sampleKey.all isSampleKey

def parseSegmentDriftStore (store : SegmentDriftStore) : Except DriftError SegmentDriftStore :=
  match (ownOrder store.keyedResults.entries).find? fun entry => !isValidResult entry.2 with
  | some entry => .error (.message (("Invalid segment drift store: keyed result " : Text) ++
      entry.1 ++ (" failed schema validation" : Text)))
  | none =>
      match store.snapshots.findIdx? fun snapshot => !isValidSnapshot snapshot with
      | some index => .error (.message (("Invalid segment drift store: snapshot " : Text) ++
          Text.ofNat index ++ (" failed schema validation" : Text)))
      | none => .ok store

/-- `createSegmentDriftStore`; what fails its schema is not written. -/
def segmentDriftStore : JsonFileStore SegmentDriftStore DriftError where
  createDefault := emptyStore
  parse := parseSegmentDriftStore
  invalid := .type "JSON store value failed schema validation"

/-! ## Comparisons -/

/-- `left <= right` on date-time texts: by code units. -/
def unitsLE (left right : DateTime) : Bool := left.text.map (·.toNat) ≤ right.text.map (·.toNat)

/-- `left < right` on date-time texts. -/
def unitsLT (left right : DateTime) : Bool := left.text.map (·.toNat) < right.text.map (·.toNat)

/-- The order of `localeCompare` on capture times. -/
def CapturedLE (left right : SegmentSnapshotEntry) : Prop :=
  left.capturedAt.LocaleLE right.capturedAt

instance : DecidableRel CapturedLE := fun left right =>
  inferInstanceAs (Decidable (left.capturedAt.LocaleLE right.capturedAt))

/-- The order of a stored history: by capture time, then by list. -/
def HistoryLE (left right : SegmentSnapshotEntry) : Prop :=
  left.capturedAt.LocaleLE right.capturedAt ∧
    (right.capturedAt.LocaleLE left.capturedAt → left.listId ≤ right.listId)

instance : DecidableRel HistoryLE := fun _ _ =>
  inferInstanceAs (Decidable (_ ∧ (_ → _)))

def calculateDeltaRate (currentCount : ℚ) : Option ℚ → Option ℚ
  | none => none
  | some previousCount =>
      some (if 0 < previousCount then (currentCount - previousCount) / previousCount
        else if 0 < currentCount then 1 else 0)

/-- `entry.sampleKey !== undefined && snapshot.sampleKey === entry.sampleKey`. -/
def sharesSampleKey (entry snapshot : SegmentSnapshotEntry) : Bool :=
  entry.sampleKey.isSome && snapshot.sampleKey = entry.sampleKey

def round (x : ℚ) : ℤ := (x + 1 / 2).floor

/-- The mean of the counts of a window. -/
def baselineMean (window : List SegmentSnapshotEntry) : Option ℚ :=
  if window = [] then none
  else some ((window.map (·.subscriberCount)).sum / window.length)

/-- The median of the counts of a window. -/
def baselineMedian (window : List SegmentSnapshotEntry) : Option ℚ :=
  let sorted := (window.map (·.subscriberCount)).insertionSort (· ≤ ·)
  let mid := sorted.length / 2
  if sorted.length % 2 = 0 then some ((sorted.getD (mid - 1) 0 + sorted.getD mid 0) / 2)
  else sorted[mid]?

/-- The baseline that an alert is decided against. -/
def alertBaselineOf (mode : BaselineMode) (previousCount baselineCount : Option ℚ)
    (window : List SegmentSnapshotEntry) : Option ℚ :=
  match mode with
  | .previous => previousCount
  | .lookbackMean => baselineCount
  | .lookbackMedian => baselineCount.bind fun _ => baselineMedian window

/-- The comparison of a sample with the history of its list. -/
def compareEntry (store : SegmentDriftStore) (settings : StoredSegmentDriftSettings)
    (lookbackCutoff : ℚ) (entry : SegmentSnapshotEntry) : SegmentDriftComparison :=
  let history := (store.snapshots.filter fun snapshot =>
    snapshot.listId = entry.listId && unitsLT snapshot.capturedAt entry.capturedAt &&
      !sharesSampleKey entry snapshot).insertionSort CapturedLE
  let previousCount := history.getLast?.map (·.subscriberCount)
  let window := history.filter fun snapshot => lookbackCutoff ≤ (snapshot.capturedAt.time : ℚ)
  let baselineCount := baselineMean window
  let alertBaseline := alertBaselineOf settings.baselineMode previousCount baselineCount window
  let delta := alertBaseline.map (entry.subscriberCount - ·)
  let deltaRate := calculateDeltaRate entry.subscriberCount alertBaseline
  { listId := entry.listId
    listName := entry.listName
    previousCount
    currentCount := entry.subscriberCount
    baselineCount := (alertBaseline.or baselineCount).map round
    delta
    deltaRate
    alert := (delta.any fun delta => settings.minAbsoluteChange ≤ |delta|) &&
      deltaRate.any fun deltaRate => settings.threshold ≤ |deltaRate| }

/-! ## Retention -/

def retainRecentSegmentSnapshots (snapshots : List SegmentSnapshotEntry) :
    List SegmentSnapshotEntry :=
  ((snapshots.map (·.listId)).eraseDups.flatMap fun listId =>
    let sorted := (snapshots.filter (·.listId = listId)).insertionSort CapturedLE
    sorted.drop (sorted.length - maxSegmentSnapshotsPerList)).insertionSort HistoryLE

/-- The sample keys that snapshots carry. -/
def sampleKeys (snapshots : List SegmentSnapshotEntry) : List Text :=
  snapshots.filterMap (·.sampleKey)

/-- The order in which records are kept: the latest capture first. -/
def LatestFirst (left right : Text × StoredSegmentDriftResult) : Prop :=
  right.2.capturedAt.LocaleLE left.2.capturedAt

instance : DecidableRel LatestFirst := fun left right =>
  inferInstanceAs (Decidable (right.2.capturedAt.LocaleLE left.2.capturedAt))

/-- `prunedKeyedResults`: the records of keys in use, the latest of them. -/
def pruneKeyedResults (keyedResults : Table resultKey) (retainedKeys : List Text) :
    Table resultKey :=
  Table.ofList resultKey ((((ownOrder keyedResults.entries).filter fun entry =>
    entry.1 ∈ retainedKeys).insertionSort LatestFirst).take maxStoredKeyedResults)

/-! ## Requests -/

/-- The settings of a run, with its defaults. -/
def settingsOf (options : SegmentDriftOptions) : StoredSegmentDriftSettings where
  threshold := max 0 (options.threshold.getD (1 / 5))
  minAbsoluteChange := max 0 (options.minAbsoluteChange.getD 50)
  lookbackDays := max 1 (options.lookbackDays.getD 14)
  baselineMode := options.baselineMode.getD .previous

def requestIsAll (options : SegmentDriftOptions) : Bool := options.listIds.getD [] = []

def normalizedListIdSet (listIds : List ℤ) : Text :=
  [44].intercalate ((listIds.eraseDups.insertionSort (· ≤ ·)).map intText)

def storedRequestMatches (stored : StoredSegmentDriftResult) (options : SegmentDriftOptions)
    (settings : StoredSegmentDriftSettings) : Bool :=
  (if requestIsAll options then decide (stored.scope = .all)
    else stored.scope = .lists &&
      normalizedListIdSet (options.listIds.getD []) = normalizedListIdSet stored.listIds) &&
  stored.settings = settings

def replayStoredResult (stored : StoredSegmentDriftResult)
    (settings : StoredSegmentDriftSettings) : SegmentDriftResult where
  capturedAt := stored.capturedAt
  threshold := settings.threshold
  minAbsoluteChange := settings.minAbsoluteChange
  replaced := 0
  comparisons := stored.comparisons
  alerts := stored.alerts

/-- The error of a key under which another request was measured. -/
def conflict (sampleKey : Text) : DriftError :=
  .message (("Segment drift sample key already committed a different request: " : Text) ++
    sampleKey)

/-- What a record answers to a request under its key. -/
def answerFrom (stored : StoredSegmentDriftResult) (options : SegmentDriftOptions)
    (sampleKey : Text) : Except DriftError SegmentDriftResult :=
  if storedRequestMatches stored options (settingsOf options) then
    .ok (replayStoredResult stored (settingsOf options))
  else .error (conflict sampleKey)

/-- A run that has found no record, and goes on to measure. -/
structure DriftCall where
  options : SegmentDriftOptions
  sampleKey : Option Text
  capturedAt : DateTime
  deriving DecidableEq

/-- `runSegmentDriftSnapshot` up to its first request: the answer of a record, or a run that
goes on. -/
def beginSegmentDriftSnapshot (options : SegmentDriftOptions) (time : ℤ)
    (file : SegmentDriftStore) : Except DriftError (SegmentDriftResult ⊕ DriftCall) :=
  let sampleKey := options.sampleKey.map Text.trim
  let call : DriftCall := { options, sampleKey, capturedAt := { time } }
  if options.sampleKey.all isSampleKey then
    match sampleKey with
    | none => .ok (.inr call)
    | some key => do
        let existing ← parseSegmentDriftStore file
        match existing.resultOf key with
        | none => pure (.inr call)
        | some stored => return .inl (← answerFrom stored options key)
  else .error (.type ("Segment drift sample key must be a non-empty string of at most 200 " ++
    "trimmed characters"))

/-! ## Lists of the server -/

/-- `List` of the server, as far as a run reads it. -/
structure ServerList where
  id : Option ℤ
  name : Option Text := none
  subscriber_count : Option ℚ := none

/-- What a Listmonk server answers about its lists while a run asks: a list has one positive
identifier, under which it is found. -/
structure ListAnswers where
  getById : ℤ → Except Text ServerList
  list : Except Text (List ServerList)
  found : ∀ listId list, getById listId = .ok list → list.id = some listId ∧ 0 < listId
  distinct : ∀ lists, list = .ok lists → (lists.map (·.id)).Nodup

def getListsForDrift (answers : ListAnswers) (listIds : Option (List ℤ)) :
    Except DriftError (List ServerList) :=
  let lists := match listIds.getD [] with
    | [] => answers.list
    | listIds => listIds.eraseDups.mapM answers.getById
  lists.mapError .message

def entryOf (capturedAt : DateTime) (sampleKey : Option Text) (list : ServerList) :
    Option SegmentSnapshotEntry :=
  (list.id.filter (0 < ·)).map fun listId =>
    { capturedAt
      listId
      listName := (list.name.filter (· ≠ [])).getD (("List " : Text) ++ intText listId)
      subscriberCount := max 0 (list.subscriber_count.getD 0)
      sampleKey }

/-! ## The locked write -/

/-- The stored snapshot that an entry would replace. -/
def committedSameKey (store : SegmentDriftStore) (entry : SegmentSnapshotEntry) :
    Option SegmentSnapshotEntry :=
  store.snapshots.find? fun snapshot =>
    snapshot.listId = entry.listId && sharesSampleKey entry snapshot

/-- `retainedEntries`: the entries of a run, less those that a later capture under their key
has overtaken. -/
def retainedEntries (store : SegmentDriftStore) (currentEntries : List SegmentSnapshotEntry) :
    List SegmentSnapshotEntry :=
  currentEntries.filter fun entry =>
    (committedSameKey store entry).all fun committed => unitsLE committed.capturedAt entry.capturedAt

def survivingSnapshots (store : SegmentDriftStore) (retained : List SegmentSnapshotEntry) :
    List SegmentSnapshotEntry :=
  store.snapshots.filter fun snapshot =>
    snapshot.sampleKey = none ||
      !retained.any fun entry => snapshot.listId = entry.listId && sharesSampleKey entry snapshot

/-- `replacedKeys.size`: the retained entries that replace a snapshot, by list. -/
def replacedCount (store : SegmentDriftStore) (retained : List SegmentSnapshotEntry) : ℕ :=
  ((retained.filter fun entry => (committedSameKey store entry).isSome).map
    fun entry => (entry.listId, entry.sampleKey)).eraseDups.length

def measurementOf (call : DriftCall) (retained : List SegmentSnapshotEntry)
    (comparisons : List SegmentDriftComparison) : StoredSegmentDriftResult where
  scope := if requestIsAll call.options then .all else .lists
  listIds := (retained.map (·.listId)).eraseDups.insertionSort (· ≤ ·)
  capturedAt := call.capturedAt
  settings := settingsOf call.options
  comparisons
  alerts := comparisons.filter (·.alert)

/-- What a run writes that finds no record under the lock, and what it returns. -/
def measure (call : DriftCall) (currentEntries : List SegmentSnapshotEntry) (lookbackCutoff : ℚ)
    (store : SegmentDriftStore) : SegmentDriftStore × SegmentDriftResult :=
  let retained := retainedEntries store currentEntries
  let comparisons := currentEntries.map
    (compareEntry store (settingsOf call.options) lookbackCutoff)
  let keyedResults := match call.sampleKey with
    | none => store.keyedResults
    | some sampleKey =>
        store.keyedResults.set (sampleKey, measurementOf call retained comparisons)
  let snapshots := retainRecentSegmentSnapshots (survivingSnapshots store retained ++ retained)
  ({ snapshots, keyedResults := pruneKeyedResults keyedResults (sampleKeys snapshots) },
    { capturedAt := call.capturedAt
      threshold := (settingsOf call.options).threshold
      minAbsoluteChange := (settingsOf call.options).minAbsoluteChange
      replaced := replacedCount store retained
      comparisons
      alerts := comparisons.filter (·.alert) })

/-- The update of the document under the lock. -/
def commitSnapshot (call : DriftCall) (currentEntries : List SegmentSnapshotEntry)
    (lookbackCutoff : ℚ) (store : SegmentDriftStore) :
    Except DriftError (SegmentDriftStore × SegmentDriftResult) :=
  match call.sampleKey.bind fun key => (store.resultOf key).map (key, ·) with
  | some (key, committed) => (answerFrom committed call.options key).map (store, ·)
  | none => .ok (measure call currentEntries lookbackCutoff store)

/-- `runSegmentDriftSnapshot` from its first request on. -/
def finishSegmentDriftSnapshot (call : DriftCall) (answers : ListAnswers) (now : ℤ)
    (fault : Option (StoreFault DriftError)) (file : SegmentDriftStore) :
    SegmentDriftStore × Except DriftError SegmentDriftResult :=
  match getListsForDrift answers call.options.listIds with
  | .error error => (file, .error error)
  | .ok lists =>
      withFault fault (segmentDriftStore.exec (commitSnapshot call
        (lists.filterMap (entryOf call.capturedAt call.sampleKey))
        (now - (settingsOf call.options).lookbackDays * 86400000))) file

end ListmonkOps.Segments
