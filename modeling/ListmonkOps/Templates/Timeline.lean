/-
The history of a template.

The versions of a template form a timeline in the order of their capture times,
in which neighbours differ. A sync adds to it what it has captured earlier, so a
capture can come in behind one that was taken later. It is compared with the
newest version only: what becomes of the timeline depends on where a late
capture lands. A rollback steps back by one place.
-/

import ListmonkOps.Math.Insertion
import ListmonkOps.Math.Run
import ListmonkOps.Templates.Guard

namespace ListmonkOps.Templates

open ListmonkOps.Math ListmonkOps.Runtime

/-! ## The server -/

/-- The templates of a server under their identifiers. -/
abbrev Server := List (ℤ × Template)

inductive Verdict where
  | served
  | /-- The server refuses the call, or a file cannot be written. -/
    refused (error : Text)
  | /-- The request or its answer is lost. -/
    lost (applied : Bool) (error : Text)

/-- What a call meets: the server, as others have left it by then, and its verdict. -/
structure Choice where
  server : Server
  verdict : Verdict

section Serving

-- What the server makes of a template and the body of an update.
variable (put : Template → Template → Template)

def applyUpdate (server : Server) (id : ℤ) (body : Template) : Server :=
  server.map fun entry => if entry.1 = id then (id, put entry.2 body) else entry

/-- The effect of a call on the server. -/
def effect (server : Server) : RegistryCall → Server
  | .update id body => applyUpdate put server id body
  | _ => server

/-- The answer to a call that is served. -/
def answerOf (server : Server) : RegistryCall → RegistryAnswer
  | .list => .templates (server.map Prod.snd)
  | .getById id => (server.lookup id).elim (.refused "not found") .template
  | .update id _ => if (server.lookup id).isSome then .done else .refused "not found"
  | .writeFile => .done

/-- A server that others may change between any two calls. -/
def serve (_ : Server) (call : RegistryCall) (choice : Choice) : RegistryAnswer × Server :=
  match choice.verdict with
  | .served => (answerOf choice.server call, effect put choice.server call)
  | .refused error =>
      (if call = .writeFile then .thrown error else .refused error, choice.server)
  | .lost applied error =>
      (.thrown error, if applied then effect put choice.server call else choice.server)

end Serving

section Events

variable [Sha256Platform] (put : Template → Template → Template)

/-- Some execution of a capture, with the server changing as it may, ends with this. -/
def Captured (capture : TemplateRegistryCapture) : Prop :=
  ∃ templateIds capturedAt choices server server',
    (captureTemplateRegistry templateIds { time := capturedAt }).run.run (serve put) server choices =
      (some (.ok capture), server')

/-- The locked operations of the registry. -/
inductive RegistryEvent where
  | merge (capture : TemplateRegistryCapture) (note : Option Text)
  | promote (templateId : ℤ) (versionId : Text) (options : PromoteOptions)
  | rollback (templateId : ℤ) (toVersionId : Option Text)

/-- The document after an operation; one that is cut short leaves it as it was. -/
def documentAfter {ρ : Type} (file : TemplateRegistryStore)
    (ended : Option (TemplateRegistryStore × Except RegistryError ρ)) : TemplateRegistryStore :=
  (ended.map Prod.fst).getD file

/-- The document after an event, under a script of choices. -/
def RegistryEvent.perform (file : TemplateRegistryStore) (server : Server) (choices : List Choice) :
    RegistryEvent → TemplateRegistryStore
  | .merge capture note =>
      documentAfter file ((mergeCapture capture note file).run (serve put) server choices).1
  | .promote templateId versionId options =>
      documentAfter file
        ((promoteTemplateVersion templateId versionId options file).run (serve put) server choices).1
  | .rollback templateId toVersionId =>
      documentAfter file
        ((rollbackTemplateVersion templateId toVersionId file).run (serve put) server choices).1

/-- The step relation: an operation on the document, where what is merged has been captured
at some time before. -/
def RegistryEvent.Step (file : TemplateRegistryStore) (event : RegistryEvent)
    (file' : TemplateRegistryStore) : Prop :=
  (∀ capture note, event = .merge capture note → Captured put capture) ∧
    ∃ server choices, file' = event.perform put file server choices

end Events

/-! ## Timelines -/

/-- The version that a merge adds for a capture. -/
def newVersion (capturedAt : DateTime) (note : Option Text) (captured : CapturedTemplateVersion) :
    TemplateRegistryVersion where
  versionId := versionIdOf capturedAt captured.hash
  capturedAt
  hash := captured.hash
  note
  snapshot := captured.snapshot

/-- A merge adds a version where the newest one has another hash and none has its identifier. -/
def Adds (capturedAt : DateTime) (record : TemplateRegistryTemplateRecord)
    (captured : CapturedTemplateVersion) : Prop :=
  (∀ latest ∈ record.versions.getLast?, latest.hash ≠ captured.hash) ∧
    ∀ version ∈ record.versions, version.versionId ≠ versionIdOf capturedAt captured.hash

/-- What a merge adds in front of a newer version has another hash than the two versions it
comes between. -/
def LandsApart (capturedAt : DateTime) (note : Option Text)
    (record : TemplateRegistryTemplateRecord) (captured : CapturedTemplateVersion) : Prop :=
  let version := newVersion capturedAt note captured
  Adds capturedAt record captured → beyond VersionLE version record.versions ≠ [] →
    (∀ older ∈ (upTo VersionLE version record.versions).getLast?, older.hash ≠ captured.hash) ∧
      ∀ newer ∈ (beyond VersionLE version record.versions).head?, newer.hash ≠ captured.hash

/-- Every version of a capture lands apart, at the document it is merged into. -/
def AllLandApart (capturedAt : DateTime) (note : Option Text) :
    List CapturedTemplateVersion → TemplateRegistryStore → Prop
  | [], _ => True
  | captured :: rest, store =>
      (∀ record ∈ recordOf store captured.templateId,
        LandsApart capturedAt note record captured) ∧
      AllLandApart capturedAt note rest (mergeVersion capturedAt note store captured).1

instance (capturedAt : DateTime) (record : TemplateRegistryTemplateRecord)
    (captured : CapturedTemplateVersion) : Decidable (Adds capturedAt record captured) :=
  inferInstanceAs (Decidable (_ ∧ _))

instance (capturedAt : DateTime) (note : Option Text) (record : TemplateRegistryTemplateRecord)
    (captured : CapturedTemplateVersion) : Decidable (LandsApart capturedAt note record captured) :=
  inferInstanceAs (Decidable (_ → _ → _))

instance decidableAllLandApart (capturedAt : DateTime) (note : Option Text) :
    ∀ versions store, Decidable (AllLandApart capturedAt note versions store)
  | [], _ => .isTrue trivial
  | _ :: rest, _ =>
      have := decidableAllLandApart capturedAt note rest
      inferInstanceAs (Decidable (_ ∧ _))

/-- The content that an update with the first version stores is not that of the second. -/
def DiffersVisibly (target active : TemplateVersionSnapshot) : Prop :=
  target.name ≠ active.name ∨ target.type ≠ active.type ∨
    (target.body ≠ [] ∧ target.body ≠ active.body) ∨
    (target.type = ("tx" : Text) ∧ target.subject ≠ active.subject) ∨
    (target.type = ("campaign_visual" : Text) ∧ target.bodySource ≠ none ∧
      target.bodySource ≠ active.bodySource)

instance (target active : TemplateVersionSnapshot) : Decidable (DiffersVisibly target active) :=
  inferInstanceAs (Decidable (_ ∨ _))

/-- The version in front of the active one differs from it in what an update stores. -/
def GoesBackVisibly (record : TemplateRegistryTemplateRecord) : Prop :=
  ∀ pair ∈ record.versions.zip record.versions.tail,
    record.activeVersionId = some pair.2.versionId → DiffersVisibly pair.1.snapshot pair.2.snapshot

instance (record : TemplateRegistryTemplateRecord) : Decidable (GoesBackVisibly record) :=
  inferInstanceAs (Decidable (∀ _ ∈ _, _))

/-- A merge whose clock shows a year of four digits, and whose versions land apart; a rollback
that goes back to what an update can bring back. -/
def RegistryEvent.Orderly (file : TemplateRegistryStore) : RegistryEvent → Prop
  | .merge capture note =>
      hasFourDigitYear capture.capturedAt.time = true ∧
        AllLandApart capture.capturedAt note capture.versions file
  | .promote _ _ _ => True
  | .rollback templateId _ => ∀ record ∈ recordOf file templateId, GoesBackVisibly record

instance (file : TemplateRegistryStore) : ∀ event : RegistryEvent, Decidable (event.Orderly file)
  | .merge _ _ => inferInstanceAs (Decidable (_ ∧ _))
  | .promote _ _ _ => .isTrue trivial
  | .rollback _ _ => inferInstanceAs (Decidable (∀ _ ∈ _, _))

section Records

variable [Sha256Platform] {put : Template → Template → Template}

/-- A version that comes from a capture: its hash is that of its content, and its identifier is
made of the hash and the time of the capture. -/
structure Genuine (version : TemplateRegistryVersion) : Prop where
  versionId : version.versionId = versionIdOf version.capturedAt version.hash
  capturedAt : version.capturedAt = { time := version.capturedAt.time }
  year : hasFourDigitYear version.capturedAt.time = true
  hash : version.hash = createTemplateHash version.snapshot
  name : version.snapshot.name ≠ []
  type : version.snapshot.type ≠ []
  bodySource : version.snapshot.bodySource ≠ some []

/-- What every operation keeps of a record: genuine versions in their order, neighbours that
differ, and an active version that is one of them. -/
structure RecordInvariant (record : TemplateRegistryTemplateRecord) : Prop where
  genuine : ∀ version ∈ record.versions, Genuine version
  sorted : record.versions.Pairwise VersionLE
  distinct : (record.versions.map (·.versionId)).Nodup
  apart : record.versions.IsChain fun a b => a.hash ≠ b.hash
  active : ∃ version ∈ record.versions, record.activeVersionId = some version.versionId

/-- What every operation keeps of the document. -/
def RegistryInvariant (file : TemplateRegistryStore) : Prop :=
  ∀ templateId record, recordOf file templateId = some record → RecordInvariant record

omit [Sha256Platform] in
theorem versionIdOf_ne_nil (capturedAt : DateTime) (hash : Text) :
    versionIdOf capturedAt hash ≠ [] := by
  unfold versionIdOf
  simp [Text.ofString, Text.unitsOfChar]

omit [Sha256Platform] in
instance : IsTrans TemplateRegistryVersion VersionLE := by
  refine ⟨fun a b c hab hbc => ?_⟩
  rcases hab with hab | ⟨hab, hab'⟩ <;> rcases hbc with hbc | ⟨hbc, hbc'⟩
  · exact .inl (hab.trans hbc)
  · exact .inl (hbc ▸ hab)
  · exact .inl (hab ▸ hbc)
  · exact .inr ⟨hab.trans hbc, hab'.trans hbc'⟩

omit [Sha256Platform] in
instance : Std.Total VersionLE := by
  refine ⟨fun a b => ?_⟩
  unfold VersionLE
  rcases lt_trichotomy (collationKey a.capturedAt.text) (collationKey b.capturedAt.text) with
    h | h | h
  · exact .inl (.inl h)
  · rcases le_total (collationKey a.versionId) (collationKey b.versionId) with h' | h'
    · exact .inl (.inr ⟨h, h'⟩)
    · exact .inr (.inr ⟨h.symm, h'⟩)
  · exact .inr (.inl h)

theorem RecordInvariant.lacksActive {record : TemplateRegistryTemplateRecord}
    (h : RecordInvariant record) : lacksActive record = false := by
  obtain ⟨version, hmem, hactive⟩ := h.active
  have hne := versionIdOf_ne_nil version.capturedAt version.hash
  rw [← (h.genuine version hmem).versionId] at hne
  simp [Templates.lacksActive, hactive, hne]

/-! ## Merging -/

omit [Sha256Platform] in
theorem recordOf_set {store : TemplateRegistryStore} {templateId k : ℤ}
    {record : TemplateRegistryTemplateRecord} :
    recordOf (store.set (templateId, record)) k =
      if k = templateId then some record else recordOf store k := by
  unfold recordOf
  by_cases hk : k = templateId
  · subst hk
    have hself := Table.get?_set_self (t := store) (a := (k, record))
    rw [if_pos rfl, show recordKey (k, record) = k from rfl] at *
    rw [hself]
    rfl
  · rw [if_neg hk, Table.get?_set_of_ne hk]

/-- The record of a template that has none yet. -/
def freshRecord (captured : CapturedTemplateVersion) : TemplateRegistryTemplateRecord where
  templateId := captured.templateId
  templateName := captured.snapshot.name
  versions := []

def withVersion (record : TemplateRegistryTemplateRecord) (version : TemplateRegistryVersion) :
    TemplateRegistryTemplateRecord :=
  let versions := upTo VersionLE version record.versions ++
    version :: beyond VersionLE version record.versions
  let latest := versions.getLast?
  { record with
    versions
    templateName := (latest.map (·.snapshot.name)).getD version.snapshot.name
    activeVersionId :=
      if lacksActive record then some (orText (latest.map (·.versionId)) version.versionId)
      else record.activeVersionId }

omit [Sha256Platform] in
/-- A merge leaves the record of a version as it is, or adds the version in its place. -/
theorem mergeVersion_cases {capturedAt : DateTime} {note : Option Text}
    {store : TemplateRegistryStore} {captured : CapturedTemplateVersion}
    {record : TemplateRegistryTemplateRecord}
    (hrecord : (recordOf store captured.templateId).getD (freshRecord captured) = record)
    (hsorted : record.versions.Pairwise VersionLE) :
    (record.versions ≠ [] ∧ (mergeVersion capturedAt note store captured).1 =
        store.set (captured.templateId, record)) ∨
      (Adds capturedAt record captured ∧ (mergeVersion capturedAt note store captured).1 =
        store.set (captured.templateId,
          withVersion record (newVersion capturedAt note captured))) := by
  obtain ⟨templateId, snapshot, hash⟩ := captured
  have hsame : sortVersions record.versions = record.versions := hsorted.insertionSort_eq
  unfold mergeVersion
  simp only [freshRecord] at hrecord
  simp only [hrecord, hsame]
  have hcreate : sortVersions (record.versions ++
      [newVersion capturedAt note { templateId, snapshot, hash }]) = _ :=
    insertionSort_concat hsorted
  cases hlatest : record.versions.getLast? with
  | none =>
      rw [List.getLast?_eq_none_iff] at hlatest
      refine .inr ⟨⟨by simp [hlatest], by simp [hlatest]⟩, ?_⟩
      simp only [hlatest, List.find?_nil]
      rw [withVersion, ← hcreate, hlatest]
      rfl
  | some latest =>
      have hne : record.versions ≠ [] := by
        rintro hnil
        simp [hnil] at hlatest
      dsimp only
      split
      · exact .inl ⟨hne, rfl⟩
      · next hhash =>
          split
          · exact .inl ⟨hne, rfl⟩
          · next hfind =>
              refine .inr ⟨⟨?_, ?_⟩, ?_⟩
              · simpa [hlatest] using hhash
              · simpa using hfind
              · rw [withVersion, ← hcreate]
                rfl

/-- A record with one more version is kept, where the version lands apart. -/
theorem RecordInvariant.withVersion {record : TemplateRegistryTemplateRecord}
    {capturedAt : DateTime} {note : Option Text} {captured : CapturedTemplateVersion}
    (h : RecordInvariant record ∨ record = freshRecord captured)
    (hgenuine : Genuine (newVersion capturedAt note captured))
    (hadds : Adds capturedAt record captured)
    (hlands : LandsApart capturedAt note record captured) :
    RecordInvariant (Templates.withVersion record (newVersion capturedAt note captured)) := by
  let version := newVersion capturedAt note captured
  have hold : (∀ version ∈ record.versions, Genuine version) ∧
      record.versions.Pairwise VersionLE ∧ (record.versions.map (·.versionId)).Nodup ∧
      record.versions.IsChain fun a b => a.hash ≠ b.hash := by
    rcases h with h | rfl
    · exact ⟨h.genuine, h.sorted, h.distinct, h.apart⟩
    · simp [freshRecord]
  obtain ⟨hall, hsorted, hdistinct, hapart⟩ := hold
  have hbefore : ∀ older ∈ (upTo VersionLE version record.versions).getLast?,
      older.hash ≠ captured.hash := by
    by_cases hnewest : beyond VersionLE version record.versions = []
    · have hwhole := upTo_append_beyond (r := VersionLE) (a := version) record.versions
      rw [hnewest, List.append_nil] at hwhole
      rw [hwhole]
      exact hadds.1
    · exact (hlands hadds hnewest).1
  have hafter : ∀ newer ∈ (beyond VersionLE version record.versions).head?,
      captured.hash ≠ newer.hash := by
    intro newer hnewer
    have hlate : beyond VersionLE version record.versions ≠ [] := by
      rintro hnil
      simp [hnil] at hnewer
    exact ((hlands hadds hlate).2 newer hnewer).symm
  constructor
  · intro v hv
    rcases mem_upTo_cons_beyond.mp hv with rfl | hv
    · exact hgenuine
    · exact hall v hv
  · change List.Pairwise VersionLE (upTo VersionLE version record.versions ++ version :: _)
    rw [← insertionSort_concat hsorted]
    exact List.pairwise_insertionSort VersionLE _
  · exact nodup_map_upTo_cons_beyond hdistinct hadds.2
  · exact isChain_upTo_cons_beyond hapart hbefore hafter
  · rcases h with h | rfl
    · obtain ⟨active, hmem, hactive⟩ := h.active
      refine ⟨active, mem_upTo_cons_beyond.mpr (.inr hmem), ?_⟩
      simp only [Templates.withVersion, h.lacksActive, Bool.false_eq_true, if_false, hactive]
    · refine ⟨version, mem_upTo_cons_beyond.mpr (.inl rfl), ?_⟩
      have hne := versionIdOf_ne_nil capturedAt captured.hash
      simp [Templates.withVersion, freshRecord, Templates.lacksActive, upTo, beyond, orText,
        Option.filter, newVersion, hne, version]

/-- A captured version is a snapshot with the hash of its own content. -/
structure CapturedTemplateVersion.Genuine (captured : CapturedTemplateVersion) : Prop where
  hash : captured.hash = createTemplateHash captured.snapshot
  name : captured.snapshot.name ≠ []
  type : captured.snapshot.type ≠ []
  bodySource : captured.snapshot.bodySource ≠ some []

theorem CapturedTemplateVersion.Genuine.newVersion {captured : CapturedTemplateVersion}
    {time : ℤ} {note : Option Text} (h : captured.Genuine) (hyear : hasFourDigitYear time = true) :
    Templates.Genuine (Templates.newVersion { time } note captured) where
  versionId := rfl
  capturedAt := rfl
  year := hyear
  hash := h.hash
  name := h.name
  type := h.type
  bodySource := h.bodySource

theorem RegistryInvariant.set {store : TemplateRegistryStore} {templateId : ℤ}
    {record : TemplateRegistryTemplateRecord} (h : RegistryInvariant store)
    (hrecord : RecordInvariant record) : RegistryInvariant (store.set (templateId, record)) := by
  intro k found hfound
  rw [recordOf_set] at hfound
  split at hfound
  · obtain rfl := Option.some.inj hfound
    exact hrecord
  · exact h k found hfound

theorem RegistryInvariant.mergeVersion {time : ℤ} {note : Option Text}
    {captured : CapturedTemplateVersion} {store : TemplateRegistryStore}
    (h : RegistryInvariant store) (hyear : hasFourDigitYear time = true)
    (hgenuine : captured.Genuine)
    (hlands : ∀ record, recordOf store captured.templateId = some record →
      LandsApart { time } note record captured) :
    RegistryInvariant (Templates.mergeVersion { time } note store captured).1 := by
  obtain ⟨record, hrecord⟩ : ∃ record,
      (recordOf store captured.templateId).getD (freshRecord captured) = record := ⟨_, rfl⟩
  have hbefore : (RecordInvariant record ∨ record = freshRecord captured) ∧
      LandsApart { time } note record captured := by
    cases hfound : recordOf store captured.templateId with
    | some found =>
        obtain rfl : found = record := by simpa [hfound] using hrecord
        exact ⟨.inl (h _ _ hfound), hlands found hfound⟩
    | none =>
        obtain rfl : freshRecord captured = record := by simpa [hfound] using hrecord
        exact ⟨.inr rfl, fun _ hlate => absurd rfl hlate⟩
  have hsorted : record.versions.Pairwise VersionLE := by
    rcases hbefore.1 with hkept | rfl
    · exact hkept.sorted
    · exact List.Pairwise.nil
  rcases mergeVersion_cases hrecord hsorted with ⟨hne, hset⟩ | ⟨hadds, hset⟩
  · rw [hset]
    exact h.set (hbefore.1.resolve_right fun hfresh => hne (by rw [hfresh]; rfl))
  · rw [hset]
    exact h.set (.withVersion hbefore.1 (hgenuine.newVersion hyear) hadds hbefore.2)

theorem RegistryInvariant.mergeVersions {time : ℤ} {note : Option Text}
    {versions : List CapturedTemplateVersion} {store : TemplateRegistryStore}
    (h : RegistryInvariant store) (hyear : hasFourDigitYear time = true)
    (hgenuine : ∀ captured ∈ versions, captured.Genuine)
    (hlands : AllLandApart { time } note versions store) :
    RegistryInvariant (Templates.mergeVersions { time } note versions store).1 := by
  induction versions generalizing store with
  | nil => exact h
  | cons captured rest ih =>
      exact ih (h.mergeVersion hyear (hgenuine captured (by simp)) hlands.1)
        (fun other hother => hgenuine other (List.mem_cons_of_mem _ hother)) hlands.2

/-! ## Captures -/

omit [Sha256Platform] in
theorem createTemplateSnapshot_normal (template : Template) (templateId : ℤ) :
    (createTemplateSnapshot template templateId).name ≠ [] ∧
      (createTemplateSnapshot template templateId).type ≠ [] ∧
      (createTemplateSnapshot template templateId).bodySource ≠ some [] :=
  ⟨orText_ne_nil (defaultName_ne_nil templateId), orText_ne_nil (by decide), filter_ne_some_nil⟩

theorem captureTemplate_within (templateId : ℤ) :
    (captureTemplate templateId).Within (fun _ => True) fun outcome =>
      ∀ captured, outcome = .ok captured → captured.Genuine := by
  rw [captureTemplate, Program.within_bind]
  refine Program.Within.imp (Program.within_of_forall fun _ => trivial) (fun _ => id) ?_
  rintro (error | template) -
  · rintro captured ⟨⟩
  · rintro captured ⟨⟩
    obtain ⟨hname, htype, hsource⟩ := createTemplateSnapshot_normal template templateId
    exact ⟨rfl, hname, htype, hsource⟩

theorem captureTemplateRegistry_within (templateIds : Option (List ℤ)) (capturedAt : DateTime) :
    Fallible.Within (fun _ => True) (captureTemplateRegistry templateIds capturedAt)
      (fun capture => capture.capturedAt = capturedAt ∧
        ∀ captured ∈ capture.versions, captured.Genuine) fun _ => True := by
  rw [captureTemplateRegistry, Fallible.within_bind]
  refine Program.Within.imp (Program.within_of_forall fun _ => trivial) (fun _ => id) ?_
  rintro (error | ids) -
  · trivial
  · change Fallible.Within _ _ _ _
    rw [Fallible.within_bind, Fallible.within_lift]
    refine (Program.within_mapM (R := fun _ outcome => ∀ captured, outcome = .ok captured →
      captured.Genuine) fun id _ => captureTemplate_within id).imp (fun _ => id) ?_
    intro outcomes houtcomes
    refine ⟨rfl, fun captured hcaptured => ?_⟩
    obtain ⟨outcome, hmem, hok⟩ := List.mem_filterMap.mp hcaptured
    obtain ⟨id, -, hgenuine⟩ := exists_left_of_forall₂ houtcomes hmem
    exact hgenuine captured (toOption_eq_some_iff.mp hok)

theorem Captured.genuine {capture : TemplateRegistryCapture} (h : Captured put capture) :
    capture.capturedAt = { time := capture.capturedAt.time } ∧
      ∀ captured ∈ capture.versions, captured.Genuine := by
  obtain ⟨templateIds, capturedAt, choices, server, server', hrun⟩ := h
  have hsafe : Fallible.Safe (serve put) (fun _ => True) _ _ _ server :=
    (captureTemplateRegistry_within templateIds { time := capturedAt }).safe
      (fun _ _ _ _ => trivial) trivial
  obtain ⟨htime, hgenuine⟩ := (Program.Safe.run hsafe choices).2 (.ok capture) (by rw [hrun])
  exact ⟨by rw [htime], hgenuine⟩

/-! ## Transactions -/

omit [Sha256Platform] in
theorem parseTemplateRegistryStore_eq_ok {file store : TemplateRegistryStore}
    (h : parseTemplateRegistryStore file = .ok store) : store = file := by
  unfold parseTemplateRegistryStore at h
  split at h
  · cases h
  · cases h
    rfl

omit [Sha256Platform] in
/-- A transaction leaves the document as it is, or as its action has returned it. -/
theorem run_updateRegistry {ρ : Type}
    {action : TemplateRegistryStore → RegistryProgram (TemplateRegistryStore × ρ)}
    {unwritten : RegistryError → RegistryError} {file file' : TemplateRegistryStore}
    {outcome : Except RegistryError ρ} {server server' : Server} {choices : List Choice}
    (h : (updateRegistry action unwritten file).run (serve put) server choices =
      (some (file', outcome), server')) :
    (file' = file ∧ ∃ error, outcome = .error error) ∨
      ∃ result between, outcome = .ok result ∧
        (action file).run.run (serve put) server choices = (some (.ok (file', result)), between) := by
  unfold updateRegistry at h
  split at h
  · cases h
    exact .inl ⟨rfl, _, rfl⟩
  · next store hparse =>
      obtain rfl := parseTemplateRegistryStore_eq_ok hparse
      obtain ⟨returned, between, rest, haction, h⟩ := Program.exists_of_run_bind h
      split at h
      · cases h
        exact .inl ⟨rfl, _, rfl⟩
      · next next result =>
          split at h
          · cases h
            exact .inl ⟨rfl, _, rfl⟩
          · obtain ⟨answer, after, rest', -, h⟩ := Program.exists_of_run_bind h
            split at h
            · cases h
              exact .inl ⟨rfl, _, rfl⟩
            · cases h
              exact .inr ⟨result, between, rfl, haction⟩

omit [Sha256Platform] in
/-- A version that was promoted is in its record, and active from then on. Its content has
been sent to the server. -/
theorem run_promoteTemplateVersionInStore {templateId : ℤ} {versionId : Text}
    {store next : TemplateRegistryStore} {result : TemplatePromoteResult}
    {server server' : Server} {choices : List Choice}
    (h : (promoteTemplateVersionInStore templateId versionId store).run.run (serve put) server choices =
      (some (.ok (next, result)), server')) :
    ∃ record version choice rest, recordOf store templateId = some record ∧
      version ∈ record.versions ∧ version.versionId = versionId ∧
      next = store.set (templateId, { record with activeVersionId := some versionId }) ∧
      choices = choice :: rest ∧ (choice.server.lookup templateId).isSome = true ∧
      server' = applyUpdate put choice.server templateId (promotedBody version.snapshot) := by
  unfold promoteTemplateVersionInStore at h
  split at h
  · cases h
  · next record hrecord =>
      split at h
      · cases h
      · next version hversion =>
          have hid : version.versionId = versionId := by
            simpa using List.find?_some hversion
          cases choices with
          | nil => cases h
          | cons choice rest =>
              rw [Fallible.run_ask_bind] at h
              cases hverdict : choice.verdict with
              | served =>
                  simp only [serve, hverdict, answerOf] at h
                  by_cases hthere : (choice.server.lookup templateId).isSome = true
                  · rw [if_pos hthere] at h
                    cases h
                    exact ⟨record, version, choice, rest, hrecord, List.mem_of_find?_eq_some hversion,
                      hid, rfl, rfl, hthere, rfl⟩
                  · rw [if_neg hthere] at h
                    cases h
              | refused error =>
                  simp only [serve, hverdict, reduceCtorEq, if_false] at h
                  cases h
              | lost applied error =>
                  simp only [serve, hverdict] at h
                  cases h

theorem RecordInvariant.activate {record : TemplateRegistryTemplateRecord}
    {version : TemplateRegistryVersion} (h : RecordInvariant record)
    (hmem : version ∈ record.versions) :
    RecordInvariant { record with activeVersionId := some version.versionId } :=
  ⟨h.genuine, h.sorted, h.distinct, h.apart, version, hmem, rfl⟩

omit [Sha256Platform] in
/-- A rollback that returned has changed nothing, or has promoted its target. -/
theorem run_rollbackInStore {templateId : ℤ} {toVersionId : Option Text}
    {store next : TemplateRegistryStore} {result : TemplateRollbackResult}
    {server server' : Server} {choices : List Choice}
    (h : (rollbackInStore templateId toVersionId store).run.run (serve put) server choices =
      (some (.ok (next, result)), server')) :
    (result.rolledBack = false ∧ next = store) ∨
      ∃ record target promoted, recordOf store templateId = some record ∧
        rollbackTarget templateId toVersionId record = .ok (some target) ∧
        result = { promoted, rolledBack := true } ∧
        (promoteTemplateVersionInStore templateId target.versionId store).run.run (serve put) server
          choices = (some (.ok (next, promoted)), server') := by
  unfold rollbackInStore at h
  cases hrecord : rollbackRecord templateId store with
  | error error =>
      rw [hrecord] at h
      cases h
  | ok record =>
      have hfound : recordOf store templateId = some record := by
        unfold rollbackRecord at hrecord
        split at hrecord
        · next found hfilter =>
            cases hrecord
            exact (Option.filter_eq_some_iff.mp hfilter).1
        · cases hrecord
      rw [hrecord] at h
      cases htarget : rollbackTarget templateId toVersionId record with
      | error error =>
          change Program.run (serve put) (ExceptT.run (do
            let target ← liftM (rollbackTarget templateId toVersionId record)
            _)) server choices = _ at h
          rw [htarget] at h
          cases h
      | ok target? =>
          change Program.run (serve put) (ExceptT.run (do
            let target ← liftM (rollbackTarget templateId toVersionId record)
            _)) server choices = _ at h
          rw [htarget] at h
          cases target? with
          | none =>
              cases h
              exact .inl ⟨rfl, rfl⟩
          | some target =>
              have hrun : Program.run (serve put) (promoteTemplateVersionInStore templateId
                  target.versionId store >>= fun promoted =>
                    pure (promoted.1, { promoted := promoted.2, rolledBack := true })).run
                  server choices = (some (.ok (next, result)), server') := h
              rw [Fallible.run_bind_pure] at hrun
              cases hpromote : Program.run (serve put) (promoteTemplateVersionInStore templateId
                target.versionId store).run server choices with
              | mk ended between =>
                  rw [hpromote] at hrun
                  rcases ended with - | error | ⟨promotedStore, promoted⟩
                  · cases hrun
                  · cases hrun
                  · cases hrun
                    exact .inr ⟨record, target, promoted, hfound, htarget, rfl, hpromote⟩

/-! ## Runs -/

theorem RegistryInvariant.promoted {file next : TemplateRegistryStore} {templateId : ℤ}
    {versionId : Text} {result : TemplatePromoteResult} {server server' : Server}
    {choices : List Choice} (h : RegistryInvariant file)
    (hrun : (promoteTemplateVersionInStore templateId versionId file).run.run (serve put) server choices =
      (some (.ok (next, result)), server')) : RegistryInvariant next := by
  obtain ⟨record, version, choice, rest, hrecord, hmem, rfl, rfl, -⟩ :=
    run_promoteTemplateVersionInStore hrun
  exact h.set ((h _ _ hrecord).activate hmem)

omit [Sha256Platform] in
theorem documentAfter_updateRegistry {ρ : Type} {I : TemplateRegistryStore → Prop}
    {action : TemplateRegistryStore → RegistryProgram (TemplateRegistryStore × ρ)}
    {unwritten : RegistryError → RegistryError} {file : TemplateRegistryStore} {server : Server}
    {choices : List Choice} (h : I file)
    (haction : ∀ {next result server'},
      (action file).run.run (serve put) server choices = (some (.ok (next, result)), server') → I next) :
    I (documentAfter file ((updateRegistry action unwritten file).run (serve put) server choices).1) := by
  cases hrun : (updateRegistry action unwritten file).run (serve put) server choices with
  | mk ended server' =>
      rcases ended with - | ⟨file', outcome⟩
      · exact h
      · rcases run_updateRegistry hrun with ⟨rfl, -⟩ | ⟨result, between, -, hreturned⟩
        · exact h
        · exact haction hreturned

theorem RegistryInvariant.step {file file' : TemplateRegistryStore} {event : RegistryEvent}
    (h : RegistryInvariant file) (hstep : event.Step put file file') (horderly : event.Orderly file) :
    RegistryInvariant file' := by
  obtain ⟨hcaptured, server, choices, rfl⟩ := hstep
  cases event with
  | merge capture note =>
      obtain ⟨htime, hgenuine⟩ := (hcaptured capture note rfl).genuine
      obtain ⟨hyear, hlands⟩ := horderly
      rw [RegistryEvent.perform, mergeCapture]
      refine documentAfter_updateRegistry h fun {next result server'} hreturned => ?_
      have hnext : (Templates.mergeVersions capture.capturedAt note capture.versions file).1 = next :=
        congrArg Prod.fst (Except.ok.inj (Option.some.inj (congrArg Prod.fst hreturned)))
      rw [← hnext, htime]
      rw [htime] at hlands
      exact h.mergeVersions hyear hgenuine hlands
  | promote templateId versionId options =>
      rw [RegistryEvent.perform, promoteTemplateVersion, commitRemoteTemplateMutation]
      refine documentAfter_updateRegistry h fun {next result server'} hreturned => ?_
      have hboth : Program.run (serve put) (checkRemoteHash templateId options >>= fun _ =>
          promoteTemplateVersionInStore templateId versionId file).run server choices =
            (some (.ok (next, result)), server') := hreturned
      obtain ⟨-, between, rest, -, hpromoted⟩ := Fallible.exists_of_run_bind hboth
      exact h.promoted hpromoted
  | rollback templateId toVersionId =>
      rw [RegistryEvent.perform, rollbackTemplateVersion, commitRemoteTemplateMutation]
      refine documentAfter_updateRegistry h fun hreturned => ?_
      rcases run_rollbackInStore hreturned with ⟨-, rfl⟩ | ⟨record, target, promoted, -, -, -, hrun⟩
      · exact h
      · exact h.promoted hrun

end Records

/-! ## Sample histories -/

/-- A transactional template of some name. -/
def sampleTx (name : String) : Template where
  id := some 5
  name := some name
  type := some "tx"
  subject := some "Hi"
  body := some "<p>Hi</p>"

section Sample

variable [Sha256Platform]

omit [Sha256Platform] in
/-- A server that holds what a promotion of the sample version has put there. -/
def sampleServer (name : String) : Server :=
  [(5, keepingPut (sampleTx "First")
    (promotedBody (createTemplateSnapshot (sampleTx name) 5)))]

omit [Sha256Platform] in
/-- Calls of a promotion of the second version to this server, which nobody else changes. -/
def undisturbed (held promoted : String) : List Choice :=
  [⟨sampleServer held, .served⟩,
    ⟨applyUpdate keepingPut (sampleServer held) 5
      (promotedBody (createTemplateSnapshot (sampleTx promoted) 5)), .served⟩]

end Sample

end ListmonkOps.Templates
