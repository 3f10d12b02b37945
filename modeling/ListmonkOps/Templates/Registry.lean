/-
The template registry.

A registry keeps the versions of the templates of a Listmonk server. A sync
captures templates first and merges what it captured into the document under a
lock; a promotion and a rollback hold the lock while they write a version back
to the server, so that the document and the server change as one step. Between
any two calls the server may be changed by others.
-/

import ListmonkOps.Math.Keyed
import ListmonkOps.Math.Program
import ListmonkOps.Runtime.Collation
import ListmonkOps.Runtime.Digest

namespace ListmonkOps.Templates

open ListmonkOps.Math ListmonkOps.Runtime

/-! ## The document -/

structure TemplateVersionSnapshot where
  id : ℤ
  name : Text
  type : Text
  subject : Text
  body : Text
  bodySource : Option Text
  deriving DecidableEq

structure TemplateRegistryVersion where
  versionId : Text
  capturedAt : DateTime
  hash : Text
  note : Option Text
  snapshot : TemplateVersionSnapshot
  deriving DecidableEq

structure TemplateRegistryTemplateRecord where
  templateId : ℤ
  templateName : Text
  activeVersionId : Option Text := none
  versions : List TemplateRegistryVersion
  deriving DecidableEq

/-- The key that a record is filed under. -/
def recordKey (entry : ℤ × TemplateRegistryTemplateRecord) : ℤ := entry.1

/-- `TemplateRegistryStore`: the records under their keys. -/
abbrev TemplateRegistryStore := Table recordKey

/-- `store.templates[String(templateId)]`. -/
def recordOf (store : TemplateRegistryStore) (templateId : ℤ) :
    Option TemplateRegistryTemplateRecord :=
  (store.get? templateId).map Prod.snd

/-- What the registry throws. -/
inductive RegistryError where
  | /-- An `Error` with its message. -/
    message (text : Text)
  | /-- A document that fails its schema. -/
    schema (key : ℤ)
  | /-- The `TypeError` of a document that fails its schema before it is written, with the
    message of its cause. -/
    invalid (cause : Text)
  | /-- A `TemplateRegistryWriteTransactionError`, with the message of its cause. -/
    writeTransaction (templateId : ℤ) (cause : Text)
  deriving DecidableEq

def RegistryError.causeMessage : RegistryError → Text
  | .message text => text
  | .schema key => ("Invalid template registry store: template " : Text) ++ intText key ++
      (" failed schema validation" : Text)
  | .invalid cause => ("JSON store value failed schema validation: " : Text) ++ cause
  | .writeTransaction templateId cause => ("Template " : Text) ++ intText templateId ++
      (" was updated in Listmonk, but local registry state could not be confirmed. Inspect the " ++
        "remote template and registry before retrying. Cause: " : Text) ++ cause

def isTemplateRegistryRecord (record : TemplateRegistryTemplateRecord) : Bool :=
  0 < record.templateId && record.versions ≠ [] &&
    record.versions.all fun version => 0 < version.snapshot.id

def parseTemplateRegistryStore (store : TemplateRegistryStore) :
    Except RegistryError TemplateRegistryStore :=
  match store.entries.find? fun entry => !isTemplateRegistryRecord entry.2 with
  | some entry => .error (.schema entry.1)
  | none => .ok store

/-! ## Snapshots -/

/-- A template of the server. A member that is `null` counts as missing. -/
structure Template where
  id : Option ℤ := none
  name : Option Text := none
  type : Option Text := none
  subject : Option Text := none
  body : Option Text := none
  body_source : Option Text := none
  deriving DecidableEq

/-- What the server is documented to store of a body that it is sent: the members that have a
text, a subject where the template is transactional and only there, and a visual source where
the template is visual. -/
structure StoresBody (sent after : Template) : Prop where
  name : ∀ name ∈ sent.name, name ≠ [] → after.name = some name
  type : ∀ type ∈ sent.type, type ≠ [] → after.type = some type
  body : ∀ body ∈ sent.body, body ≠ [] → after.body = some body
  subject : sent.type = some ("tx" : Text) → after.subject.getD [] = sent.subject.getD []
  subjectless : sent.type ≠ some ("tx" : Text) → after.subject.getD [] = []
  source : sent.type = some ("campaign_visual" : Text) →
    ∀ source ∈ sent.body_source, source ≠ [] → after.body_source = some source

/-- An update stores its body, and leaves the identifier. -/
structure StoresUpdate (held sent after : Template) : Prop extends StoresBody sent after where
  id : after.id = held.id

/-- A text that is given, or the one that is there. -/
def given (sent held : Option Text) : Option Text := (sent.filter (· ≠ [])).orElse fun _ => held

/-- Such an update, which leaves what it has no text for. -/
def keepingPut (held sent : Template) : Template where
  id := held.id
  name := given sent.name held.name
  type := given sent.type held.type
  subject := if sent.type = some ("tx" : Text) then sent.subject else none
  body := given sent.body held.body
  body_source := given sent.body_source held.body_source

theorem given_of_mem {sent held : Option Text} {text : Text} (h : text ∈ sent) (hne : text ≠ []) :
    given sent held = some text := by
  obtain rfl := Option.mem_def.mp h
  simp [given, Option.filter, hne]

theorem stores_keepingPut (held sent : Template) : StoresUpdate held sent (keepingPut held sent) where
  id := rfl
  name _ h := given_of_mem h
  type _ h := given_of_mem h
  body _ h := given_of_mem h
  subject h := by rw [keepingPut, if_pos h]
  subjectless h := by rw [keepingPut, if_neg h]; rfl
  source _ _ h := given_of_mem h

/-- `value || fallback`. -/
def orText (value : Option Text) (fallback : Text) : Text := (value.filter (· ≠ [])).getD fallback

/-- `toPositiveInt(id) || fallbackId`. -/
def positiveOr (id : Option ℤ) (fallbackId : ℤ) : ℤ := (id.filter (0 < ·)).getD fallbackId

def createTemplateSnapshot (template : Template) (fallbackId : ℤ) : TemplateVersionSnapshot where
  id := positiveOr template.id fallbackId
  name := orText template.name (("Template " : Text) ++ intText fallbackId)
  type := orText template.type "campaign"
  subject := orText template.subject []
  body := orText template.body []
  bodySource := template.body_source.filter (· ≠ [])

/-- The value that `createTemplateHash` writes. -/
def hashedValue (snapshot : TemplateVersionSnapshot) : JsonTree :=
  .object
    [("name", .string snapshot.name), ("type", .string snapshot.type),
      ("subject", .string snapshot.subject), ("body", .string snapshot.body),
      ("bodySource", .string (orText snapshot.bodySource []))]

section Programs

variable [Sha256Platform]

def createTemplateHash (snapshot : TemplateVersionSnapshot) : Text :=
  hexText (sha256 (hashedValue snapshot).render)

/-! ## Calls to the server -/

/-- The calls that the registry makes: those of the client, and the write of the file. -/
inductive RegistryCall where
  | list
  | getById (id : ℤ)
  | update (id : ℤ) (body : Template)
  | writeFile
  deriving DecidableEq

/-- What a call gives. An envelope with an error is refused; one with neither an error nor
data of the awaited kind is done. -/
inductive RegistryAnswer where
  | templates (templates : List Template)
  | template (template : Template)
  | done
  | refused (error : Text)
  | thrown (error : Text)
  deriving DecidableEq

abbrev RegistryProgram (α : Type) := Fallible RegistryCall RegistryAnswer RegistryError α

omit [Sha256Platform] in
/-- `unwrapResponseData`, of a response with data of one kind. -/
def unwrapResponseData {α : Type} (data? : RegistryAnswer → Option α) (context : Text)
    (answer : RegistryAnswer) : Except RegistryError α :=
  match answer with
  | .refused error => .error (.message (context ++ (": " : Text) ++ error))
  | .thrown error => .error (.message error)
  | answer =>
      match data? answer with
      | some data => .ok data
      | none => .error (.message (context ++ (": received empty data" : Text)))

omit [Sha256Platform] in
def getTemplateById (templateId : ℤ) : RegistryProgram Template :=
  Fallible.ask (.getById templateId) (unwrapResponseData
    (fun | .template template => some template | _ => none)
    (("Failed to fetch template " : Text) ++ intText templateId))

/-! ## Capture -/

structure CapturedTemplateVersion where
  templateId : ℤ
  snapshot : TemplateVersionSnapshot
  hash : Text
  deriving DecidableEq

structure TemplateRegistryCapture where
  capturedAt : DateTime
  versions : List CapturedTemplateVersion := []
  errors : List Text := []
  deriving DecidableEq

omit [Sha256Platform] in
def getTemplateIds (explicitTemplateIds : Option (List ℤ)) : RegistryProgram (List ℤ) :=
  match explicitTemplateIds with
  | some (id :: ids) => pure (id :: ids)
  | _ => do
      let templates ← Fallible.ask .list (unwrapResponseData
        (fun | .templates templates => some templates | .template _ => some [] | _ => none)
        "Failed to list templates for template registry sync")
      return templates.filterMap fun template => template.id.filter (0 < ·)

/-- The version of one template, or the error that takes its place. -/
def captureTemplate (templateId : ℤ) :
    Program RegistryCall RegistryAnswer (Except Text CapturedTemplateVersion) := do
  match ← (getTemplateById templateId).run with
  | .ok template =>
      let snapshot := createTemplateSnapshot template templateId
      return .ok { templateId, snapshot, hash := createTemplateHash snapshot }
  | .error _ => return .error (("Template " : Text) ++ intText templateId ++ (": capture failed" : Text))

/-- `captureTemplateRegistry`, at a time. -/
def captureTemplateRegistry (templateIds : Option (List ℤ)) (capturedAt : DateTime) :
    RegistryProgram TemplateRegistryCapture := do
  let ids ← getTemplateIds templateIds
  let outcomes ← ExceptT.lift (ids.mapM captureTemplate)
  return {
    capturedAt
    versions := outcomes.filterMap Except.toOption
    errors := outcomes.filterMap fun | .error error => some error | .ok _ => none }

end Programs

/-! ## Merge -/

/-- `compareTemplateVersions(left, right) <= 0`. The identifiers of versions of one time
differ in digits and small letters only. -/
def VersionLE (left right : TemplateRegistryVersion) : Prop :=
  collationKey left.capturedAt.text < collationKey right.capturedAt.text ∨
    collationKey left.capturedAt.text = collationKey right.capturedAt.text ∧
      collationKey left.versionId ≤ collationKey right.versionId

instance : DecidableRel VersionLE := fun left right =>
  inferInstanceAs (Decidable (collationKey left.capturedAt.text < collationKey right.capturedAt.text ∨
    collationKey left.capturedAt.text = collationKey right.capturedAt.text ∧
      collationKey left.versionId ≤ collationKey right.versionId))

/-- `versions.sort(compareTemplateVersions)`. -/
def sortVersions (versions : List TemplateRegistryVersion) : List TemplateRegistryVersion :=
  versions.insertionSort VersionLE

def versionIdOf (capturedAt : DateTime) (hash : Text) : Text :=
  ("v_" : Text) ++ capturedAt.text ++ ("_" : Text) ++ hash.take 10

/-- An entry of `TemplateRegistrySyncResult["templates"]`. -/
structure SyncedTemplate where
  templateId : ℤ
  templateName : Text
  versionId : Option Text
  changed : Bool
  hash : Text
  deriving DecidableEq

/-- `TemplateRegistrySyncResult`, but for the path of the document. -/
structure TemplateRegistrySyncResult where
  capturedAt : DateTime
  createdVersions : ℕ
  unchangedTemplates : ℕ
  errors : List Text
  templates : List SyncedTemplate
  deriving DecidableEq

/-- `!record.activeVersionId`. -/
def lacksActive (record : TemplateRegistryTemplateRecord) : Bool :=
  record.activeVersionId.all (· = [])

/-- One version of a capture: the next document, and what is reported. -/
def mergeVersion (capturedAt : DateTime) (note : Option Text) (store : TemplateRegistryStore)
    (captured : CapturedTemplateVersion) : TemplateRegistryStore × SyncedTemplate :=
  let { templateId, snapshot, hash } := captured
  let record := (recordOf store templateId).getD
    { templateId, templateName := snapshot.name, versions := [] }
  let sorted := { record with versions := sortVersions record.versions }
  let unchanged (version : TemplateRegistryVersion) :=
    (store.set (templateId, sorted),
      { templateId
        templateName := snapshot.name
        versionId := some version.versionId
        changed := false
        hash : SyncedTemplate })
  let versionId := versionIdOf capturedAt hash
  let create :=
    let versions := sortVersions
      (sorted.versions ++ [{ versionId, capturedAt, hash, note, snapshot }])
    let latest := versions.getLast?
    let record :=
      { sorted with
        versions
        templateName := (latest.map (·.snapshot.name)).getD snapshot.name
        activeVersionId :=
          if lacksActive record then
            some (orText (latest.map (·.versionId)) versionId)
          else record.activeVersionId }
    (store.set (templateId, record),
      { templateId
        templateName := snapshot.name
        versionId := some versionId
        changed := true
        hash : SyncedTemplate })
  let addUnlessThere :=
    match sorted.versions.find? fun version => version.versionId = versionId with
    | some version => unchanged version
    | none => create
  match sorted.versions.getLast? with
  | some latest => if latest.hash = hash then unchanged latest else addUnlessThere
  | none => addUnlessThere

/-- The loop over the versions of a capture. -/
def mergeVersions (capturedAt : DateTime) (note : Option Text) :
    List CapturedTemplateVersion → TemplateRegistryStore →
      TemplateRegistryStore × List SyncedTemplate
  | [], store => (store, [])
  | captured :: rest, store =>
      let (next, reported) := mergeVersion capturedAt note store captured
      let (last, templates) := mergeVersions capturedAt note rest next
      (last, reported :: templates)

def mergeTemplateRegistryCapture (capture : TemplateRegistryCapture) (note : Option Text)
    (store : TemplateRegistryStore) : TemplateRegistryStore × TemplateRegistrySyncResult :=
  let (next, templates) := mergeVersions capture.capturedAt note capture.versions store
  (next,
    { capturedAt := capture.capturedAt
      createdVersions := templates.countP (·.changed)
      unchangedTemplates := templates.countP fun template => !template.changed
      errors := capture.errors
      templates })

/-! ## Transactions -/

/-- `updateJsonFileStore` on the document of the registry: what is in the file afterwards,
and what the caller sees. `action` runs under the lock. -/
def updateRegistry {ρ : Type}
    (action : TemplateRegistryStore → RegistryProgram (TemplateRegistryStore × ρ))
    (unwritten : RegistryError → RegistryError) (file : TemplateRegistryStore) :
    Program RegistryCall RegistryAnswer (TemplateRegistryStore × Except RegistryError ρ) :=
  match parseTemplateRegistryStore file with
  | .error error => pure (file, .error error)
  | .ok store => do
      match ← (action store).run with
      | .error error => return (file, .error error)
      | .ok (next, result) =>
          match parseTemplateRegistryStore next with
          | .error error => return (file, .error (unwritten (.invalid error.causeMessage)))
          | .ok _ =>
              match ← Program.perform .writeFile with
              | .thrown error => return (file, .error (unwritten (.message error)))
              | _ => return (next, .ok result)

/-- The locked part of `syncTemplateRegistry`. -/
def mergeCapture (capture : TemplateRegistryCapture) (note : Option Text) :
    TemplateRegistryStore → Program RegistryCall RegistryAnswer
      (TemplateRegistryStore × Except RegistryError TemplateRegistrySyncResult) :=
  updateRegistry (fun store => pure (mergeTemplateRegistryCapture capture note store)) id

/-- `syncTemplateRegistry`, at a time. -/
def syncTemplateRegistry [Sha256Platform] (templateIds : Option (List ℤ)) (note : Option Text)
    (capturedAt : DateTime) (file : TemplateRegistryStore) : Program RegistryCall RegistryAnswer
      (TemplateRegistryStore × Except RegistryError TemplateRegistrySyncResult) := do
  match ← (captureTemplateRegistry templateIds capturedAt).run with
  | .error error => return (file, .error error)
  | .ok capture => mergeCapture capture note file

/-! ## Promotion -/

/-- `TemplatePromoteResult`, but for the time. -/
structure TemplatePromoteResult where
  templateId : ℤ
  templateName : Text
  versionId : Text
  activeVersionId : Text
  deriving DecidableEq

/-- The body of the update that promotes a version. -/
def promotedBody (snapshot : TemplateVersionSnapshot) : Template where
  name := some snapshot.name
  type := some snapshot.type
  subject := some snapshot.subject
  body := some snapshot.body
  body_source := snapshot.bodySource

def promoteTemplateVersionInStore (templateId : ℤ) (versionId : Text)
    (store : TemplateRegistryStore) :
    RegistryProgram (TemplateRegistryStore × TemplatePromoteResult) :=
  match recordOf store templateId with
  | none =>
      throw (.message (("No registry history for template " : Text) ++ intText templateId))
  | some record =>
      match record.versions.find? fun version => version.versionId = versionId with
      | none =>
          throw (.message (("Version " : Text) ++ versionId ++
            (" not found for template " : Text) ++ intText templateId))
      | some targetVersion => do
          let _ ← Fallible.ask (.update templateId (promotedBody targetVersion.snapshot)) fun
            | .refused error => Except.error (.message (("Failed to promote template " : Text) ++
                intText templateId ++ (": " : Text) ++ error))
            | .thrown error => .error (.message error)
            | _ => .ok ()
          return (store.set (templateId, { record with activeVersionId := some versionId }),
            { templateId
              templateName := record.templateName
              versionId
              activeVersionId := versionId })

def commitRemoteTemplateMutation {ρ : Type} (templateId : ℤ)
    (action : TemplateRegistryStore → RegistryProgram (TemplateRegistryStore × ρ)) :
    TemplateRegistryStore → Program RegistryCall RegistryAnswer
      (TemplateRegistryStore × Except RegistryError ρ) :=
  updateRegistry action fun error => .writeTransaction templateId error.causeMessage

/-- The options of `promoteTemplateVersion`. -/
structure PromoteOptions where
  expectedRemoteHash : Option Text := none
  force : Bool := false

section Promotions

variable [Sha256Platform]

/-- What `promoteTemplateVersion` hashes of the template that the server holds. -/
def remoteSnapshot (remoteTemplate : Template) (templateId : ℤ) : TemplateVersionSnapshot where
  id := positiveOr remoteTemplate.id templateId
  name := orText remoteTemplate.name []
  type := orText remoteTemplate.type "campaign"
  subject := orText remoteTemplate.subject []
  body := orText remoteTemplate.body []
  bodySource := remoteTemplate.body_source.filter (· ≠ [])

omit [Sha256Platform] in
/-- The error of a template that is not the expected one. -/
def hashMismatch (templateId : ℤ) (expected remoteHash : Text) : RegistryError :=
  .message (("Template " : Text) ++ intText templateId ++ (" remote hash mismatch: expected " : Text) ++
    expected.take 10 ++ (", got " : Text) ++ remoteHash.take 10 ++
    (". Use force=true to override." : Text))

/-- The check of `promoteTemplateVersion`. -/
def checkRemoteHash (templateId : ℤ) (options : PromoteOptions) : RegistryProgram Unit :=
  if options.force || options.expectedRemoteHash.all (· = []) then pure ()
  else do
    let remoteTemplate ← getTemplateById templateId
    let remoteHash := createTemplateHash (remoteSnapshot remoteTemplate templateId)
    let expected := options.expectedRemoteHash.getD []
    if remoteHash ≠ expected then throw (hashMismatch templateId expected remoteHash)

def promoteTemplateVersion (templateId : ℤ) (versionId : Text) (options : PromoteOptions) :
    TemplateRegistryStore → Program RegistryCall RegistryAnswer
      (TemplateRegistryStore × Except RegistryError TemplatePromoteResult) :=
  commitRemoteTemplateMutation templateId fun store => do
    checkRemoteHash templateId options
    promoteTemplateVersionInStore templateId versionId store

end Promotions

/-! ## Rollback -/

/-- `TemplateRollbackResult`, but for the time. -/
structure TemplateRollbackResult where
  promoted : TemplatePromoteResult
  /-- Whether a version was put in the place of another. -/
  rolledBack : Bool
  deriving DecidableEq

/-- The place of the version before the active one. -/
def rollbackIndex (record : TemplateRegistryTemplateRecord) : Option ℕ :=
  if lacksActive record then none
  else
    match record.versions.findIdx? fun version => some version.versionId = record.activeVersionId with
    | some (i + 1) => some i
    | _ => none

/-- The version that a rollback goes back to; `none` where it has already been applied. -/
def rollbackTarget (templateId : ℤ) (toVersionId : Option Text)
    (record : TemplateRegistryTemplateRecord) :
    Except RegistryError (Option TemplateRegistryVersion) :=
  if toVersionId ≠ none ∧ record.activeVersionId = toVersionId then .ok none
  else
    match rollbackIndex record with
    | none =>
        .error (.message (("Template " : Text) ++ intText templateId ++
          (" has no previous version to roll back to" : Text)))
    | some targetIndex =>
        match record.versions[targetIndex]? with
        | none =>
            .error (.message (("Unable to locate rollback target for template " : Text) ++
              intText templateId))
        | some targetVersion =>
            if toVersionId.all (· = targetVersion.versionId) then .ok (some targetVersion)
            else
              .error (.message (("Rollback target " : Text) ++ toVersionId.getD [] ++
                (" is no longer the previous version of template " : Text) ++ intText templateId))

/-- The record that a rollback is about. -/
def rollbackRecord (templateId : ℤ) (store : TemplateRegistryStore) :
    Except RegistryError TemplateRegistryTemplateRecord :=
  match (recordOf store templateId).filter fun record => 2 ≤ record.versions.length with
  | some record => .ok record
  | none =>
      .error (.message (("Rollback requires at least 2 versions for template " : Text) ++
        intText templateId))

/-- The locked part of `rollbackTemplateVersion`. -/
def rollbackInStore (templateId : ℤ) (toVersionId : Option Text) (store : TemplateRegistryStore) :
    RegistryProgram (TemplateRegistryStore × TemplateRollbackResult) := do
  let record ← rollbackRecord templateId store
  match ← rollbackTarget templateId toVersionId record with
  | none =>
      return (store,
        { promoted :=
            { templateId
              templateName := record.templateName
              versionId := toVersionId.getD []
              activeVersionId := record.activeVersionId.getD [] }
          rolledBack := false })
  | some targetVersion =>
      let (next, promoted) ← promoteTemplateVersionInStore templateId targetVersion.versionId store
      return (next, { promoted, rolledBack := true })

def rollbackTemplateVersion (templateId : ℤ) (toVersionId : Option Text) :
    TemplateRegistryStore → Program RegistryCall RegistryAnswer
      (TemplateRegistryStore × Except RegistryError TemplateRollbackResult) :=
  commitRemoteTemplateMutation templateId (rollbackInStore templateId toVersionId)

end ListmonkOps.Templates
