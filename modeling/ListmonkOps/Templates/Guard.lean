/-
The guard of a promotion.

A sync reports a hash for each template, and a promotion that is given this hash
checks first that the server still holds what was synced. Both hash what they
read from the server with defaults for what is missing, each with its own. The
two agree on everything but the name, so the guard is exact for templates that
have a name and refuses every template without one.
-/

import ListmonkOps.Runtime.JsonFileStore
import ListmonkOps.Templates.Registry

namespace ListmonkOps.Templates

open ListmonkOps.Math ListmonkOps.Runtime

/-! ## What the hash tells -/

/-- Two snapshots of one content; the identifier is no part of it. -/
def SameContent (a b : TemplateVersionSnapshot) : Prop :=
  a.name = b.name ∧ a.type = b.type ∧ a.subject = b.subject ∧ a.body = b.body ∧
    a.bodySource = b.bodySource

instance (a b : TemplateVersionSnapshot) : Decidable (SameContent a b) :=
  inferInstanceAs (Decidable (_ ∧ _ ∧ _ ∧ _ ∧ _))

theorem SameContent.trans {a b c : TemplateVersionSnapshot} (hab : SameContent a b)
    (hbc : SameContent b c) : SameContent a c :=
  ⟨hab.1.trans hbc.1, hab.2.1.trans hbc.2.1, hab.2.2.1.trans hbc.2.2.1,
    hab.2.2.2.1.trans hbc.2.2.2.1, hab.2.2.2.2.trans hbc.2.2.2.2⟩

section Content

variable {a b : TemplateVersionSnapshot} {value value' : Option Text}

theorem orText_nil_inj (h : value ≠ some []) (h' : value' ≠ some []) :
    orText value [] = orText value' [] ↔ value = value' := by
  cases value <;> cases value' <;> simp_all [orText, Option.filter]

theorem hashedValue_inj (ha : a.bodySource ≠ some []) (hb : b.bodySource ≠ some []) :
    hashedValue a = hashedValue b ↔ SameContent a b := by
  simp [hashedValue, SameContent, orText_nil_inj ha hb]

theorem filter_ne_some_nil : value.filter (· ≠ []) ≠ some [] := by
  cases value <;> simp [Option.filter]

theorem createTemplateHash_inj [Sha256Platform] [CollisionFreeSha256]
    (ha : a.bodySource ≠ some []) (hb : b.bodySource ≠ some []) :
    createTemplateHash a = createTemplateHash b ↔ SameContent a b := by
  rw [← hashedValue_inj ha hb]
  constructor
  · intro h
    have hdigest := hexText_injective h
    exact JsonTree.render_injective (sha256_injective (JsonTree.isWellFormed_render _)
      (JsonTree.isWellFormed_render _) hdigest)
  · intro h
    rw [createTemplateHash, createTemplateHash, h]

theorem createTemplateHash_ne_nil [Sha256Platform] [CollisionFreeSha256]
    (snapshot : TemplateVersionSnapshot) : createTemplateHash snapshot ≠ [] := by
  intro h
  exact CollisionFreeSha256.ne_nil _ (hexText_injective (h : _ = hexText []))

end Content

/-! ## What a sync reports -/

section Reports

variable [Sha256Platform]

/-- A sync, while the server held a template, reported a hash for it. -/
def Reports (templateId : ℤ) (remote : Template) (hash : Text) : Prop :=
  ∃ templateIds note capturedAt file file' result, ∃ answers : RegistryCall → RegistryAnswer,
    answers (.getById templateId) = .template remote ∧
      (syncTemplateRegistry templateIds note capturedAt file).eval answers = (file', .ok result) ∧
      ∃ entry ∈ result.templates, entry.templateId = templateId ∧ entry.hash = hash

omit [Sha256Platform] in
/-- A version of a capture is reported with its template and its hash. -/
theorem mergeVersion_reported (capturedAt : DateTime) (note : Option Text)
    (store : TemplateRegistryStore) (captured : CapturedTemplateVersion) :
    (mergeVersion capturedAt note store captured).2.templateId = captured.templateId ∧
      (mergeVersion capturedAt note store captured).2.hash = captured.hash := by
  unfold mergeVersion
  dsimp only
  split
  · split
    · exact ⟨rfl, rfl⟩
    · split <;> exact ⟨rfl, rfl⟩
  · split <;> exact ⟨rfl, rfl⟩

omit [Sha256Platform] in
theorem mem_mergeVersions {capturedAt : DateTime} {note : Option Text}
    {versions : List CapturedTemplateVersion} {store : TemplateRegistryStore}
    {entry : SyncedTemplate} (h : entry ∈ (mergeVersions capturedAt note versions store).2) :
    ∃ captured ∈ versions, entry.templateId = captured.templateId ∧
      entry.hash = captured.hash := by
  induction versions generalizing store with
  | nil => simp [mergeVersions] at h
  | cons captured rest ih =>
      rcases List.mem_cons.mp h with rfl | h
      · exact ⟨captured, by simp, mergeVersion_reported capturedAt note store captured⟩
      · obtain ⟨captured', hmem, hsame⟩ := ih h
        exact ⟨captured', List.mem_cons_of_mem _ hmem, hsame⟩

omit [Sha256Platform] in
theorem eval_getTemplateById (answers : RegistryCall → RegistryAnswer) (templateId : ℤ) :
    Program.eval answers (getTemplateById templateId).run =
      unwrapResponseData (fun | .template template => some template | _ => none)
        (("Failed to fetch template " : Text) ++ intText templateId)
        (answers (.getById templateId)) :=
  rfl

omit [Sha256Platform] in
/-- A template that was fetched is the one that the server answered with. -/
theorem unwrapResponseData_template {answer : RegistryAnswer} {context : Text}
    {template : Template}
    (h : unwrapResponseData (fun | .template template => some template | _ => none) context answer =
      .ok template) : answer = .template template := by
  cases answer <;> simp_all [unwrapResponseData]

theorem eval_captureTemplate {answers : RegistryCall → RegistryAnswer} {templateId : ℤ}
    {captured : CapturedTemplateVersion}
    (h : (captureTemplate templateId).eval answers = .ok captured) :
    captured.templateId = templateId ∧
      ∃ template, answers (.getById templateId) = .template template ∧
        captured.hash = createTemplateHash (createTemplateSnapshot template templateId) := by
  rw [captureTemplate, Program.eval_bind, eval_getTemplateById] at h
  split at h
  · next template hfetched =>
      cases h
      exact ⟨rfl, template, unwrapResponseData_template hfetched, rfl⟩
  · cases h

/-- The versions of a capture are those of the templates that the server held. -/
theorem eval_captureTemplateRegistry {answers : RegistryCall → RegistryAnswer}
    {templateIds : Option (List ℤ)} {capturedAt : DateTime} {capture : TemplateRegistryCapture}
    (h : Program.eval answers (captureTemplateRegistry templateIds capturedAt).run = .ok capture)
    {captured : CapturedTemplateVersion} (hmem : captured ∈ capture.versions) :
    ∃ template, answers (.getById captured.templateId) = .template template ∧
      captured.hash =
        createTemplateHash (createTemplateSnapshot template captured.templateId) := by
  obtain ⟨ids, -, h⟩ := Fallible.eval_bind_eq_ok.mp h
  obtain ⟨outcomes, houtcomes, h⟩ := Fallible.eval_bind_eq_ok.mp h
  rw [Fallible.eval_lift, Program.eval_mapM] at houtcomes
  obtain rfl := Except.ok.inj houtcomes
  obtain rfl := Except.ok.inj h
  obtain ⟨outcome, houtcome, hcaptured⟩ := List.mem_filterMap.mp hmem
  obtain ⟨id, -, rfl⟩ := List.mem_map.mp houtcome
  obtain ⟨rfl, template, hfetched, hhash⟩ :=
    eval_captureTemplate (toOption_eq_some_iff.mp hcaptured)
  exact ⟨template, hfetched, hhash⟩

omit [Sha256Platform] in
/-- A transaction that returned has read a document that passes its schema, and its action
has returned. -/
theorem eval_updateRegistry {ρ : Type} {answers : RegistryCall → RegistryAnswer}
    {action : TemplateRegistryStore → RegistryProgram (TemplateRegistryStore × ρ)}
    {unwritten : RegistryError → RegistryError} {file file' : TemplateRegistryStore} {result : ρ}
    (h : (updateRegistry action unwritten file).eval answers = (file', .ok result)) :
    ∃ store, parseTemplateRegistryStore file = .ok store ∧
      Program.eval answers (action store).run = .ok (file', result) := by
  unfold updateRegistry at h
  split at h
  · cases h
  · next store hparse =>
      refine ⟨store, hparse, ?_⟩
      rw [Program.eval_bind] at h
      split at h
      · cases h
      · next next returned haction =>
          rw [haction]
          split at h
          · cases h
          · rw [Program.eval_bind] at h
            split at h
            · cases h
            · cases h
              rfl

/-- The hash that a sync reports is that of the snapshot of what the server held. -/
theorem hash_of_reports {templateId : ℤ} {remote : Template} {hash : Text}
    (h : Reports templateId remote hash) :
    hash = createTemplateHash (createTemplateSnapshot remote templateId) := by
  obtain ⟨templateIds, note, capturedAt, file, file', result, answers, hremote, hsync, entry,
    hentry, rfl, rfl⟩ := h
  rw [syncTemplateRegistry, Program.eval_bind] at hsync
  split at hsync
  · cases hsync
  · next capture hcapture =>
      obtain ⟨store, -, hmerge⟩ := eval_updateRegistry hsync
      obtain ⟨captured, hcaptured, htemplate, hhash⟩ := by
        cases hmerge
        exact mem_mergeVersions hentry
      obtain ⟨template, hfetched, hof⟩ := eval_captureTemplateRegistry hcapture hcaptured
      rw [← htemplate] at hfetched hof
      cases hremote.symm.trans hfetched
      rw [hhash, hof]

end Reports

/-! ## What the guard accepts -/

section Guard

variable {value : Option Text} {fallback : Text} {templateId : ℤ} {remote remote' : Template}

theorem orText_ne_nil (h : fallback ≠ []) : orText value fallback ≠ [] := by
  unfold orText
  cases hvalue : value.filter (· ≠ []) with
  | none => exact h
  | some text =>
      have hkept := (Option.filter_eq_some_iff.mp hvalue).2
      simpa using hkept

/-- A text that is there is taken whatever the fallback is. -/
theorem orText_of_ne_nil (h : orText value [] ≠ []) : orText value fallback = orText value [] := by
  unfold orText at h ⊢
  cases hvalue : value.filter (· ≠ []) with
  | none => exact absurd (by rw [hvalue]; rfl) h
  | some text => rfl

theorem defaultName_ne_nil (templateId : ℤ) : ("Template " : Text) ++ intText templateId ≠ [] :=
  List.append_ne_nil_of_left_ne_nil (by decide) _

def Template.Named (template : Template) : Prop := orText template.name [] ≠ []

theorem remoteSnapshot_of_named (h : remote.Named) :
    remoteSnapshot remote templateId = createTemplateSnapshot remote templateId := by
  simp only [remoteSnapshot, createTemplateSnapshot, orText_of_ne_nil h]

theorem sameContent_of_remoteSnapshot
    (h : SameContent (remoteSnapshot remote' templateId) (createTemplateSnapshot remote templateId)) :
    remote'.Named ∧ SameContent (createTemplateSnapshot remote templateId)
      (createTemplateSnapshot remote' templateId) := by
  obtain ⟨hname, htype, hsubject, hbody, hsource⟩ := h
  have hnamed : remote'.Named := by
    change orText remote'.name [] = _ at hname
    rw [Template.Named, hname]
    exact orText_ne_nil (defaultName_ne_nil templateId)
  refine ⟨hnamed, ?_⟩
  rw [remoteSnapshot_of_named hnamed] at hname htype hsubject hbody hsource
  exact ⟨hname.symm, htype.symm, hsubject.symm, hbody.symm, hsource.symm⟩

variable [Sha256Platform] [CollisionFreeSha256]

theorem remoteHash_eq_iff :
    createTemplateHash (remoteSnapshot remote' templateId) =
        createTemplateHash (createTemplateSnapshot remote templateId) ↔
      SameContent (remoteSnapshot remote' templateId) (createTemplateSnapshot remote templateId) :=
  createTemplateHash_inj filter_ne_some_nil filter_ne_some_nil

omit [CollisionFreeSha256] in
/-- The guard asks for the template, and stops where its hash is not the expected one. -/
theorem run_checkRemoteHash {α β : Type} {hash : Text} (hhash : hash ≠ [])
    (g : Unit → RegistryProgram α)
    (k : Except RegistryError α → Program RegistryCall RegistryAnswer β)
    (log : List (RegistryCall × RegistryAnswer)) (answers : List RegistryAnswer) :
    ((checkRemoteHash templateId { expectedRemoteHash := some hash } >>= g).run >>= k).run
        Program.recorded log (.template remote :: answers) =
      if createTemplateHash (remoteSnapshot remote templateId) = hash then
        ((g ()).run >>= k).run Program.recorded
          (log ++ [(.getById templateId, .template remote)]) answers
      else
        (k (.error (hashMismatch templateId hash
          (createTemplateHash (remoteSnapshot remote templateId))))).run Program.recorded
          (log ++ [(.getById templateId, .template remote)]) answers := by
  have hask : ∀ f : Template → RegistryProgram α,
      ((getTemplateById templateId >>= f).run >>= k).run Program.recorded log
          (.template remote :: answers) =
        ((f remote).run >>= k).run Program.recorded
          (log ++ [(.getById templateId, .template remote)]) answers := fun f => rfl
  rw [checkRemoteHash, if_neg (by simp [hhash]), bind_assoc, hask]
  by_cases hsame : createTemplateHash (remoteSnapshot remote templateId) = hash
  · rw [if_pos hsame, if_neg (by simp [hsame])]
    rfl
  · rw [if_neg hsame, if_pos (by simpa using hsame)]
    rfl

/-- The guard accepts exactly what was synced. Where a sync has reported a hash, a promotion
that expects it goes on as one without a guard while the server holds what was synced, and
stops without having changed anything when the content has changed. -/
structure GuardExact (templateId : ℤ) (remote : Template) : Prop where
  passes : ∀ {hash}, Reports templateId remote hash → ∀ versionId {file store},
    parseTemplateRegistryStore file = .ok store → ∀ answers,
      (promoteTemplateVersion templateId versionId { expectedRemoteHash := some hash } file).run
          Program.recorded [] (.template remote :: answers) =
        (commitRemoteTemplateMutation templateId
            (promoteTemplateVersionInStore templateId versionId) file).run
          Program.recorded [(.getById templateId, .template remote)] answers
  refuses : ∀ {hash}, Reports templateId remote hash → ∀ {remote'},
    ¬ SameContent (createTemplateSnapshot remote templateId)
      (createTemplateSnapshot remote' templateId) → ∀ versionId {file store},
    parseTemplateRegistryStore file = .ok store → ∀ answers, ∃ remoteHash,
      (promoteTemplateVersion templateId versionId { expectedRemoteHash := some hash } file).run
          Program.recorded [] (.template remote' :: answers) =
        (some (file, .error (hashMismatch templateId hash remoteHash)),
          [(.getById templateId, .template remote')])

omit [CollisionFreeSha256] in
theorem run_promoteTemplateVersion {hash : Text} (hhash : hash ≠ []) (versionId : Text)
    {file store : TemplateRegistryStore} (hparse : parseTemplateRegistryStore file = .ok store)
    (answers : List RegistryAnswer) :
    (promoteTemplateVersion templateId versionId { expectedRemoteHash := some hash } file).run
        Program.recorded [] (.template remote :: answers) =
      if createTemplateHash (remoteSnapshot remote templateId) = hash then
        (commitRemoteTemplateMutation templateId
            (promoteTemplateVersionInStore templateId versionId) file).run
          Program.recorded [(.getById templateId, .template remote)] answers
      else
        (some (file, .error (hashMismatch templateId hash
            (createTemplateHash (remoteSnapshot remote templateId)))),
          [(.getById templateId, .template remote)]) := by
  rw [promoteTemplateVersion, commitRemoteTemplateMutation, commitRemoteTemplateMutation,
    updateRegistry, updateRegistry, hparse]
  exact run_checkRemoteHash hhash _ _ [] answers

omit [Sha256Platform] [CollisionFreeSha256] in
theorem positiveOr_pos {id : Option ℤ} {fallbackId : ℤ} (h : 0 < fallbackId) :
    0 < positiveOr id fallbackId := by
  unfold positiveOr
  cases hid : id.filter (0 < ·) with
  | none => exact h
  | some n =>
      have hpos := (Option.filter_eq_some_iff.mp hid).2
      simpa using hpos

/-- A server whose templates all read like one. -/
def remoteAnswers (remote : Template) : RegistryCall → RegistryAnswer
  | .getById _ => .template remote
  | _ => .done

omit [Sha256Platform] [CollisionFreeSha256] in
theorem eval_updateRegistry_of_valid {ρ : Type} {answers : RegistryCall → RegistryAnswer}
    {action : TemplateRegistryStore → RegistryProgram (TemplateRegistryStore × ρ)}
    {unwritten : RegistryError → RegistryError} {file store next saved : TemplateRegistryStore}
    {result : ρ} (hfile : parseTemplateRegistryStore file = .ok store)
    (haction : action store = pure (next, result))
    (hnext : parseTemplateRegistryStore next = .ok saved) (hwrite : answers .writeFile = .done) :
    (updateRegistry action unwritten file).eval answers = (next, .ok result) := by
  have hrun : (action store).run = pure (.ok (next, result)) := by rw [haction]; rfl
  simp only [updateRegistry, hfile, hrun, pure_bind, hnext, Program.eval_bind, Program.eval_perform,
    hwrite, Program.eval_pure]

omit [CollisionFreeSha256] in
/-- Every template can be synced: the sync of an empty registry reports it. -/
theorem reports_of_sync (hid : 0 < templateId) (remote : Template) :
    Reports templateId remote
      (createTemplateHash (createTemplateSnapshot remote templateId)) := by
  let snapshot := createTemplateSnapshot remote templateId
  let capture : TemplateRegistryCapture :=
    { capturedAt := { time := 0 }
      versions := [{ templateId, snapshot, hash := createTemplateHash snapshot }] }
  let merged := mergeTemplateRegistryCapture capture none (Table.empty recordKey)
  let answers := remoteAnswers remote
  have hparse : parseTemplateRegistryStore merged.1 = .ok merged.1 := by
    have hpos : 0 < snapshot.id := positiveOr_pos hid
    have hrecord : ∀ entry ∈ merged.1.entries, isTemplateRegistryRecord entry.2 = true := by
      intro entry hentry
      have hset : merged.1 = (Table.empty recordKey).set _ := rfl
      rw [hset, Table.mem_set] at hentry
      rcases hentry with rfl | ⟨hempty, -⟩
      · simp [isTemplateRegistryRecord, sortVersions, hid, hpos, Option.getD, recordOf]
      · simp [Table.empty] at hempty
    rw [parseTemplateRegistryStore, List.find?_eq_none.mpr (by simpa using hrecord)]
  have hsync : (syncTemplateRegistry (some [templateId]) none { time := 0 }
      (Table.empty recordKey)).eval answers =
        (mergeCapture capture none (Table.empty recordKey)).eval answers := rfl
  have hmerge : (mergeCapture capture none (Table.empty recordKey)).eval answers =
      (merged.1, .ok merged.2) := eval_updateRegistry_of_valid rfl rfl hparse rfl
  exact ⟨some [templateId], none, { time := 0 }, Table.empty recordKey, merged.1, merged.2, answers,
    rfl, hsync.trans hmerge, _, List.mem_singleton.mpr rfl, rfl, rfl⟩

/-- The guard is exact for a template that has a name, and for no other: a sync hashes a
template without a name under a default name, and the guard under none. -/
theorem guardExact_iff_named (hid : 0 < templateId) (remote : Template) :
    GuardExact templateId remote ↔ remote.Named := by
  constructor
  · intro h
    by_contra hunnamed
    have hreports := reports_of_sync hid remote
    have hne := createTemplateHash_ne_nil (createTemplateSnapshot remote templateId)
    have hrun := h.passes hreports [] (rfl : parseTemplateRegistryStore (Table.empty recordKey) = _) []
    rw [run_promoteTemplateVersion hne [] rfl, if_neg] at hrun
    · have herrors := congrArg Prod.fst hrun
      obtain ⟨-, herror⟩ := Prod.mk.inj (Option.some.inj herrors)
      have htext := RegistryError.message.inj (Except.error.inj herror)
      simp [Text.ofString, Text.unitsOfChar] at htext
    · intro hsame
      exact hunnamed (sameContent_of_remoteSnapshot (remoteHash_eq_iff.mp hsame)).1
  · intro hnamed
    constructor
    · intro hash hreports versionId file store hparse answers
      obtain rfl := hash_of_reports hreports
      rw [run_promoteTemplateVersion (createTemplateHash_ne_nil _) versionId hparse,
        if_pos (by rw [remoteSnapshot_of_named hnamed])]
    · intro hash hreports remote' hchanged versionId file store hparse answers
      obtain rfl := hash_of_reports hreports
      rw [run_promoteTemplateVersion (createTemplateHash_ne_nil _) versionId hparse, if_neg]
      · exact ⟨_, rfl⟩
      · intro hsame
        exact hchanged (sameContent_of_remoteSnapshot (remoteHash_eq_iff.mp hsame)).2

end Guard

/-! ## Sample templates -/

/-- The digests of the sample contents. -/
def sampleDigests : List (Text × ℕ) :=
  [("\x7b\"name\":\"Template 5\",\"type\":\"campaign\",\"subject\":\"Hi\",\"body\":\"<p>Hi</p>\",\"bodySource\":\"\"\x7d",
      0x35f97b06ea4ed59f72738512c49381551d2ee375b4286c9bcc049724d6abb346),
    ("\x7b\"name\":\"\",\"type\":\"campaign\",\"subject\":\"Hi\",\"body\":\"<p>Hi</p>\",\"bodySource\":\"\"\x7d",
      0xc11bede78422e09efc6347f2de9109f497ba8da30b0104099573cac918005fa4),
    ("\x7b\"name\":\"Welcome\",\"type\":\"campaign\",\"subject\":\"Hi\",\"body\":\"<p>Hi</p>\",\"bodySource\":\"\"\x7d",
      0x9a1aed9529ce52da1b554f77300040de55536fd9c283d46e500a016685193861),
    ("\x7b\"name\":\"Welcome back\",\"type\":\"campaign\",\"subject\":\"Hi\",\"body\":\"<p>Hi</p>\",\"bodySource\":\"\"\x7d",
      0xb339ce36f84f80fbc88a6038cb1ab73cd61625f31c85b7f3a26204248b5eeecf)]

/-- A template of a server, with a name or without one. -/
def sampleTemplate (name : Option Text) : Template where
  id := some 5
  name
  subject := some "Hi"
  body := some "<p>Hi</p>"

/-- A server that holds a template and takes every update. -/
def holding (template : Template) : RegistryCall → RegistryAnswer
  | .getById _ => .template template
  | _ => .done

theorem guardExact_welcome :
    letI := knownDigests sampleDigests
    GuardExact 5 (sampleTemplate (some "Welcome")) := by
  let := knownDigests sampleDigests
  have : CollisionFreeSha256 := knownDigests_collisionFree (by decide +kernel)
  have hname : (sampleTemplate (some "Welcome")).name.filter (· ≠ []) = some ("Welcome" : Text) := by
    decide +kernel
  refine (guardExact_iff_named (by decide) _).mpr ?_
  rw [Template.Named, orText, hname]
  decide

/-- A template without a name is synced, and the promotion that expects the reported hash is
refused, though the server has not changed: the sync has hashed the name `Template 5`. -/
theorem nameless_refused :
    letI := knownDigests sampleDigests
    let server := holding (sampleTemplate none)
    let synced := (syncTemplateRegistry (some [5]) none { time := 0 }
      (Table.empty recordKey)).eval server
    let hash := createTemplateHash (createTemplateSnapshot (sampleTemplate none) 5)
    let remoteHash := createTemplateHash (remoteSnapshot (sampleTemplate none) 5)
    let promoted := (promoteTemplateVersion 5 (versionIdOf { time := 0 } hash)
      { expectedRemoteHash := some hash } synced.1).eval server
    (synced.2.toOption.map fun result => result.templates.map fun entry =>
        (entry.templateId, entry.versionId, entry.hash)) =
      some [(5, some (versionIdOf { time := 0 } hash), hash)] ∧
    promoted.2 = .error (hashMismatch 5 hash remoteHash) ∧
    promoted.1.entries = synced.1.entries := by
  decide +kernel

end ListmonkOps.Templates
