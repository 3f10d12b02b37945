/-
Templates that are reconciled with a manifest.

The manifest names the templates that the server should have. All of its entries are
planned against one listing before the first is applied; a plan reads the template of its
name and changes nothing. An apply stops at the first entry that fails and tells which
ones it had completed. What the server makes of a request is left open but for what is
documented: it numbers its templates, lets names repeat and stores what it is sent. Every
request may be answered, answered without data, refused or lost, and a refused or lost one
may have had its effect.
-/

import ListmonkOps.Math.Keyed
import ListmonkOps.Math.Reconciliation
import ListmonkOps.Operations.CreatedRecord
import ListmonkOps.Templates.Registry

namespace ListmonkOps.Templates

open ListmonkOps.Math ListmonkOps.Operations ListmonkOps.Runtime

/-! ## Manifests -/

/-- `templateTypeSchema`. -/
inductive TemplateType where
  | campaign
  | campaign_visual
  | tx
  deriving DecidableEq

def TemplateType.text : TemplateType → Text
  | .campaign => "campaign"
  | .campaign_visual => "campaign_visual"
  | .tx => "tx"

/-- An entry of a manifest, as `createTemplateInputSchema` gives it. -/
structure TemplateDesired where
  name : Text
  type : TemplateType
  subject : Text
  body_source : Option Text
  body : Text
  named : name ≠ []
  filled : body ≠ []

/-- What `templateManifestSchema` accepts: entries of names that do not repeat. -/
structure TemplateManifest where
  templates : List TemplateDesired
  nonempty : templates ≠ []
  distinct : (templates.map (·.name)).Nodup

/-- What is done about an entry. -/
inductive TemplateAction where
  | create
  | update
  | unchanged
  deriving DecidableEq

/-- What is told of an entry. -/
structure TemplateReconcileResult where
  name : Text
  action : TemplateAction
  applied : Bool
  template : Option Template := none
  deriving DecidableEq

/-- How a manifest fails: with an error, or with `TemplateManifestApplyError`. -/
abbrev TemplateManifestError := ReconcileError Text TemplateReconcileResult Text

def TemplateManifestError.message : TemplateManifestError → Text
  | .thrown message => message
  | .applyFailed failedTemplate appliedResults _ =>
      ("Template manifest apply failed at " : Text) ++ quote failedTemplate ++ (" after " : Text) ++
        Text.ofNat appliedResults.length ++ (" completed entries" : Text)

def templateMatchesDesiredState (template : Template) (desired : TemplateDesired) : Bool :=
  template.name = some desired.name && template.type = some desired.type.text &&
    template.subject.getD [] = desired.subject && template.body.getD [] = desired.body &&
    (desired.body_source = none || desired.body_source = some [] ||
      template.body_source.getD [] = desired.body_source.getD [])

/-! ## Requests -/

/-- The requests of a reconciliation. -/
inductive TemplateCall where
  | /-- The whole listing. -/
    list (noBody : Option Bool)
  | /-- A page of it. -/
    page (page : ℕ)
  | getById (id : ℤ)
  | create (body : TemplateDesired)
  | update (id : ℤ) (body : Template)

structure TemplatePage where
  results : Option (List Template)
  total : Option ℕ
  perPage : Option ℕ

/-- What a request gives, or the error it throws: the one for a listing, the other for a
template. -/
structure TemplateAnswer where
  listed : Except Text (Reply TemplatePage)
  template : Except Text (Reply Template)

abbrev TemplateProgram (α : Type) := Fallible TemplateCall TemplateAnswer Text α

def listTemplatesForReconcile : TemplateProgram (List Template) := do
  let data ← Fallible.ask (.list (some true))
    fun answer => unwrapReceived "Failed to list templates for reconcile" answer.listed
  pure (data.results.getD [])

/-- A page of the listing, where a template that was created is looked for. -/
def createdTemplatePage (call : TemplateCall) : TemplateProgram TemplatePage :=
  Fallible.ask call
    fun answer => unwrapReceived "Failed to resolve created template" answer.listed

def TemplatePage.find (page : TemplatePage) (name : Text) : Option Template :=
  (page.results.getD []).find? fun template => template.name = some name

/-- The pages from one on, with the number of them. -/
def findOnPages (name : Text) : ℕ → ℕ → TemplateProgram (Option Template)
  | 0, _ => pure none
  | left + 1, page => do
      let pageData ← createdTemplatePage (.page page)
      match pageData.find name with
      | some template => pure (some template)
      | none => findOnPages name left (page + 1)

/-- `findCreatedTemplate`. -/
def lookupCreatedTemplate (name : Text) : TemplateProgram (Option Template) := do
  let firstPage ← createdTemplatePage (.list none)
  match firstPage.find name with
  | some template => pure (some template)
  | none =>
      findOnPages name
        (pageCount (firstPage.total.getD 0) (max (firstPage.perPage.getD 100) 1) - 1) 2

/-- The template that a create made, by what the create gave. -/
def resolveCreatedTemplate (name : Text) : Reply Template → TemplateProgram Template
  | .error message => throw (("Failed to create template: " : Text) ++ message)
  | .data template => pure template
  | .noData => do
      let created ← lookupCreatedTemplate name
      match created with
      | some template => pure template
      | none =>
          throw ("Template was created but the created record could not be resolved" : Text)

def createTemplate (input : TemplateDesired) : TemplateProgram Template := do
  let reply ← Fallible.ask (.create input) (·.template)
  resolveCreatedTemplate input.name reply

/-- The body of an update: the changes over what is there. -/
def updateBody (changes current : Template) : Template where
  name := some ((changes.name.orElse fun _ => current.name).getD [])
  type := some (changes.type.getD
    (if current.type = some "campaign_visual" ∨ current.type = some "tx" then
      current.type.getD [] else "campaign"))
  subject := some ((changes.subject.orElse fun _ => current.subject).getD [])
  body := some ((changes.body.orElse fun _ => current.body).getD [])
  body_source := changes.body_source.orElse fun _ => current.body_source

def updateTemplate (id : ℤ) (changes : Template) : TemplateProgram Template := do
  let current ← Fallible.ask (.getById id)
    fun answer => unwrapReceived "Failed to load current template" answer.template
  if (updateBody changes current).name = some [] ∨ (updateBody changes current).body = some [] then
    throw ("Template update requires name and body after merge" : Text)
  else
    Fallible.ask (.update id (updateBody changes current))
      fun answer => unwrapReceived "Failed to update template" answer.template

/-! ## Reconciliation -/

def planTemplateFromCandidates (candidates : List Template) (desired : TemplateDesired) :
    TemplateProgram TemplateReconcileResult :=
  match candidates.filter fun template => template.name = some desired.name with
  | [] => pure { name := desired.name, action := .create, applied := false }
  | [existing] =>
      match existing.id.filter (isPositiveSafeInteger ·) with
      | none => throw (("Template reconcile found " : Text) ++ quote desired.name ++
          (" with invalid ID " : Text) ++ (existing.id.elim ("undefined" : Text) intText))
      | some existingId => do
          let current ← Fallible.ask (.getById existingId) fun answer => unwrapReceived
            "Failed to load current template for reconcile" answer.template
          pure {
            name := desired.name
            action := if templateMatchesDesiredState current desired then .unchanged else .update
            applied := false
            template := some current }
  | named => throw (("Template reconcile is ambiguous: " : Text) ++ Text.ofNat named.length ++
      (" templates are named " : Text) ++ quote desired.name)

/-- What an update changes to reach an entry. -/
def TemplateDesired.changes (desired : TemplateDesired) : Template where
  name := some desired.name
  type := some desired.type.text
  subject := some desired.subject
  body := some desired.body
  body_source := desired.body_source

def applyTemplateReconcilePlan (desired : TemplateDesired) (plan : TemplateReconcileResult) :
    TemplateProgram TemplateReconcileResult :=
  match plan.action with
  | .unchanged => pure plan
  | .create => do
      let template ← createTemplate desired
      pure { plan with applied := true, template := some template }
  | .update =>
      match (plan.template.bind (·.id)).filter (isPositiveSafeInteger ·) with
      | none => throw (("Template update plan for " : Text) ++ quote desired.name ++
          (" is missing a positive template ID" : Text))
      | some existingId => do
          let template ← updateTemplate existingId desired.changes
          pure { plan with applied := true, template := some template }

/-- The plans of all entries, against one listing. -/
def planTemplateManifest (manifest : TemplateManifest) :
    TemplateProgram (List (TemplateDesired × TemplateReconcileResult)) := do
  let candidates ← listTemplatesForReconcile
  planAll (planTemplateFromCandidates candidates) manifest.templates

def reconcileTemplateManifest (manifest : TemplateManifest) (apply : Bool) :
    Fallible TemplateCall TemplateAnswer TemplateManifestError (List TemplateReconcileResult) :=
  reconcileAll (·.name) (planTemplateManifest manifest) applyTemplateReconcilePlan apply

/-! ## The server -/

/-- A template of the server. -/
structure StoredTemplate where
  id : ℤ
  name : Text
  type : Text
  subject : Text
  body : Text
  bodySource : Option Text
  deriving DecidableEq

def StoredTemplate.shown (stored : StoredTemplate) : Template :=
  ⟨some stored.id, some stored.name, some stored.type, some stored.subject, some stored.body,
    stored.bodySource⟩

/-- Templates are told apart by their numbers and managed by their names. -/
def templateState : DesiredState StoredTemplate TemplateDesired Text where
  number := (·.id)
  name := (·.name)
  wanted := (·.name)
  Settled desired stored := templateMatchesDesiredState stored.shown desired = true

abbrev TemplateTable := NumberedTable StoredTemplate

/-- A request that asks for nothing to be changed. -/
def TemplateCall.Reads : TemplateCall → Prop
  | .create _ | .update _ _ => False
  | _ => True

/-- What the server makes of a request: its answer, and the templates there are then. Whatever
may become of a request is a move. -/
abbrev TemplateServer (Move : Type) :=
  TemplateTable → TemplateCall → Move → TemplateAnswer × TemplateTable

/-- A template was created as the body asks. -/
def Created (desired : TemplateDesired) (table after : TemplateTable) : Prop :=
  ∃ stored : StoredTemplate, stored.id = table.next ∧ StoresBody desired.changes stored.shown ∧
    after = DesiredState.add (fun _ => stored) table

/-- The template of a number was updated with a body. -/
def Updated (id : ℤ) (body : Template) (table after : TemplateTable) : Prop :=
  ∃ f : StoredTemplate → StoredTemplate,
    (∀ held ∈ table.rows, held.id = id → StoresUpdate held.shown body (f held).shown) ∧
      after = templateState.change id f table

/-- The request was answered, and not with an error. -/
def TemplateAnswer.isTaken (answer : TemplateAnswer) : Prop :=
  ∃ reply, answer.template = .ok reply ∧ ∀ message, reply ≠ .error message

/-- What is documented of the server: reading changes nothing, the listing has every template
and a template is read as it is held; a create or an update that is taken has its effect, and
any other has it or has none. -/
structure TemplateServer.Documented {Move : Type} (serve : TemplateServer Move) : Prop where
  reads {table : TemplateTable} {call : TemplateCall} {move : Move} (h : call.Reads) :
    (serve table call move).2 = table
  listed {table : TemplateTable} {move : Move} {page : TemplatePage}
      (h : (serve table (.list (some true)) move).1.listed = .ok (.data page)) :
    ((page.results.getD []).map fun template => (template.id, template.name)).Perm
      (table.rows.map fun stored => (some stored.id, some stored.name))
  read {table : TemplateTable} {id : ℤ} {move : Move} {template : Template}
      (h : (serve table (.getById id) move).1.template = .ok (.data template)) :
    ∃ stored ∈ table.rows, stored.id = id ∧ template = stored.shown
  created {table : TemplateTable} {desired : TemplateDesired} {move : Move} :
    Created desired table (serve table (.create desired) move).2 ∨
      ((serve table (.create desired) move).2 = table ∧
        ¬(serve table (.create desired) move).1.isTaken)
  updated {table : TemplateTable} {id : ℤ} {body : Template} {move : Move} :
    Updated id body table (serve table (.update id body) move).2 ∨
      ((serve table (.update id body) move).2 = table ∧
        ¬(serve table (.update id body) move).1.isTaken)

/-! ## Requests that read -/

section Reads

variable {Move : Type} {serve : TemplateServer Move}

theorem reads_findOnPages (name : Text) (left page : ℕ) :
    Fallible.Within TemplateCall.Reads (findOnPages name left page) (fun _ => True)
      fun _ => True := by
  induction left generalizing page with
  | zero => exact Fallible.within_pure.mpr trivial
  | succ left ih =>
      rw [findOnPages, Fallible.within_bind]
      have hcall : (TemplateCall.page page).Reads := trivial
      refine (Fallible.within_ask hcall).imp (fun _ => id) (fun found _ => ?_) fun _ => id
      cases found.find name with
      | some template => exact Fallible.within_pure.mpr trivial
      | none => exact ih (page + 1)

theorem reads_lookupCreatedTemplate (name : Text) :
    Fallible.Within TemplateCall.Reads (lookupCreatedTemplate name) (fun _ => True)
      fun _ => True := by
  rw [lookupCreatedTemplate, Fallible.within_bind]
  have hcall : (TemplateCall.list none).Reads := trivial
  refine (Fallible.within_ask hcall).imp (fun _ => id) (fun found _ => ?_) fun _ => id
  cases found.find name with
  | some template => exact Fallible.within_pure.mpr trivial
  | none => exact reads_findOnPages _ _ _

theorem safe_resolveCreatedTemplate (hserve : serve.Documented) (table : TemplateTable)
    (name : Text) (reply : Reply Template) :
    Fallible.Safe serve (· = table) (resolveCreatedTemplate name reply)
      (fun _ after => after = table ∧ ∀ message, reply ≠ .error message) (fun _ _ => True)
      table := by
  cases reply with
  | error message => exact ⟨rfl, trivial⟩
  | data template => exact ⟨rfl, rfl, nofun⟩
  | noData =>
      rw [resolveCreatedTemplate, Fallible.safe_bind]
      have hreads : Fallible.Safe serve (· = table) (lookupCreatedTemplate name)
          (fun _ _ => True) (fun _ _ => True) table :=
        (reads_lookupCreatedTemplate name).safe
          (fun call move hcall hsame => (hserve.reads hcall).trans hsame) rfl
      refine hreads.imp (fun created after hafter _ => ?_) fun _ _ _ _ => trivial
      cases created with
      | none => exact ⟨hafter, trivial⟩
      | some template => exact ⟨hafter, hafter, nofun⟩

end Reads

/-! ## Requests that write -/

section Writes

variable {Move : Type} {serve : TemplateServer Move} {table : TemplateTable}
  {I : TemplateTable → Prop}

/-- A create has its effect at once or not at all, and has it where it returns. -/
theorem safe_createTemplate (hserve : serve.Documented) {desired : TemplateDesired}
    (hnow : I table) (hdone : ∀ after, Created desired table after → I after) :
    Fallible.Safe serve I (createTemplate desired)
      (fun _ after => Created desired table after) (fun _ _ => True) table := by
  rw [createTemplate, Fallible.safe_bind, Fallible.safe_ask]
  refine ⟨hnow, fun move => ?_⟩
  have heffect : Created desired table (serve table (.create desired) move).2 ∨
      ((serve table (.create desired) move).2 = table ∧
        ¬(serve table (.create desired) move).1.isTaken) := hserve.created
  generalize serve table (.create desired) move = served at heffect
  obtain ⟨answer, after⟩ := served
  have hafter : I after := by
    rcases heffect with hcreated | ⟨hsame, -⟩
    · exact hdone _ hcreated
    · rwa [show after = table from hsame]
  cases hreply : answer.template with
  | error message => exact ⟨hafter, trivial⟩
  | ok reply =>
      refine ⟨hafter, Program.Safe.mono (safe_resolveCreatedTemplate hserve after desired.name reply)
        (fun later hlater => (hlater ▸ hafter : I later)) ?_⟩
      rintro (error | template) later - hends
      · trivial
      · obtain ⟨rfl, htaken⟩ := hends
        exact heffect.resolve_right fun hnot => hnot.2 ⟨reply, hreply, htaken⟩

/-- An update has its effect at once or not at all, and has it where it returns. -/
theorem safe_updateTemplate (hserve : serve.Documented) {id : ℤ} {changes : Template}
    (hnow : I table)
    (hdone : ∀ current after, Updated id (updateBody changes current) table after → I after) :
    Fallible.Safe serve I (updateTemplate id changes)
      (fun _ after => ∃ current, Updated id (updateBody changes current) table after)
      (fun _ _ => True) table := by
  rw [updateTemplate, Fallible.safe_bind, Fallible.safe_ask]
  refine ⟨hnow, fun move => ?_⟩
  have hread : (serve table (.getById id) move).2 = table := hserve.reads trivial
  rw [hread]
  refine ⟨hnow, ?_⟩
  cases unwrapReceived "Failed to load current template"
      (serve table (.getById id) move).1.template with
  | error message => trivial
  | ok current =>
      rw [Fallible.ends_ok]
      split_ifs
      · exact ⟨hnow, trivial⟩
      · rw [Fallible.safe_ask]
        refine ⟨hnow, fun move => ?_⟩
        have heffect : Updated id (updateBody changes current) table
              (serve table (.update id (updateBody changes current)) move).2 ∨
            ((serve table (.update id (updateBody changes current)) move).2 = table ∧
              ¬(serve table (.update id (updateBody changes current)) move).1.isTaken) :=
          hserve.updated
        generalize serve table (.update id (updateBody changes current)) move = served at heffect
        obtain ⟨answer, after⟩ := served
        have hafter : I after := by
          rcases heffect with hupdated | ⟨hsame, -⟩
          · exact hdone _ _ hupdated
          · rwa [show after = table from hsame]
        refine ⟨hafter, ?_⟩
        cases hreply : unwrapReceived "Failed to update template" answer.template with
        | error message => trivial
        | ok template =>
            refine ⟨current, heffect.resolve_right fun hnot => hnot.2 ?_⟩
            exact ⟨.data template, eq_data_of_unwrapReceived hreply, nofun⟩

end Writes

/-! ## Plans -/

/-- What a plan says of an entry: what has to be done to reach it from the table. -/
inductive PlanFor (table : TemplateTable) (desired : TemplateDesired) :
    TemplateReconcileResult → Prop
  | create (hnone : templateState.named desired.name table = []) :
      PlanFor table desired ⟨desired.name, .create, false, none⟩
  | update {stored : StoredTemplate} (hrow : templateState.named desired.name table = [stored])
      (hnumber : isPositiveSafeInteger stored.id = true)
      (hunsettled : ¬ templateState.Settled desired stored) :
      PlanFor table desired ⟨desired.name, .update, false, some stored.shown⟩
  | unchanged {stored : StoredTemplate} (hrow : templateState.named desired.name table = [stored])
      (hsettled : templateState.Settled desired stored) :
      PlanFor table desired ⟨desired.name, .unchanged, false, some stored.shown⟩

section Plans

variable {Move : Type} {serve : TemplateServer Move} {table : TemplateTable}
  {desired : TemplateDesired} {candidates : List Template}

/-- The candidates of a name are the templates of that name, by their numbers. -/
theorem named_of_listed
    (h : (candidates.map fun template => (template.id, template.name)).Perm
      (table.rows.map fun stored => (some stored.id, some stored.name))) (name : Text) :
    ((candidates.filter fun template => template.name = some name).map (·.id)).Perm
      ((templateState.named name table).map fun stored => some stored.id) := by
  have hnamed := ((h.filter fun pair => pair.2 = some name).map Prod.fst)
  rw [List.filter_map, List.filter_map, List.map_map, List.map_map] at hnamed
  refine hnamed.trans (List.Perm.of_eq ?_)
  rw [DesiredState.named]
  refine congrArg (List.map _) (List.filter_congr fun stored _ => ?_)
  exact decide_eq_decide.mpr Option.some_inj

theorem eq_shown_of_getById (hserve : serve.Documented) (hsound : templateState.Sound table)
    {stored : StoredTemplate} {context : Text} {move : Move} {current : Template}
    (hmem : stored ∈ table.rows)
    (h : unwrapReceived context (serve table (.getById stored.id) move).1.template = .ok current) :
    current = stored.shown := by
  obtain ⟨other, hother, hid, rfl⟩ := hserve.read (eq_data_of_unwrapReceived h)
  rw [List.inj_on_of_nodup_map hsound.distinct hother hmem hid]

theorem safe_planTemplateFromCandidates (hserve : serve.Documented)
    (hsound : templateState.Sound table)
    (hlisted : (candidates.map fun template => (template.id, template.name)).Perm
      (table.rows.map fun stored => (some stored.id, some stored.name))) :
    Fallible.Safe serve (· = table) (planTemplateFromCandidates candidates desired)
      (fun plan _ => PlanFor table desired plan) (fun _ _ => True) table := by
  have hperm := named_of_listed hlisted desired.name
  rcases hfound : candidates.filter fun template => template.name = some desired.name with
    _ | ⟨existing, _ | ⟨other, more⟩⟩
  · rw [hfound] at hperm
    rw [planTemplateFromCandidates, hfound]
    exact ⟨rfl, .create (List.map_eq_nil_iff.mp (List.nil_perm.mp hperm))⟩
  · rw [hfound] at hperm
    obtain ⟨stored, hnamed, hid⟩ := List.map_eq_singleton_iff.mp (List.singleton_perm.mp hperm).symm
    have hmem : stored ∈ table.rows := by
      have hin : stored ∈ templateState.named desired.name table := hnamed ▸ List.mem_cons_self
      exact List.mem_of_mem_filter hin
    rw [planTemplateFromCandidates, hfound]
    simp only [← hid, Option.filter]
    by_cases hnumber : isPositiveSafeInteger stored.id = true
    · simp only [hnumber, if_true, Fallible.safe_bind, Fallible.safe_ask]
      refine ⟨True.intro, fun move => ?_⟩
      have hread : (serve table (.getById stored.id) move).2 = table := hserve.reads trivial
      refine ⟨hread, ?_⟩
      rw [hread]
      cases hcurrent : unwrapReceived "Failed to load current template for reconcile"
          (serve table (.getById stored.id) move).1.template with
      | error message => trivial
      | ok current =>
          obtain rfl := eq_shown_of_getById hserve hsound hmem hcurrent
          refine ⟨rfl, ?_⟩
          by_cases hsettled : templateMatchesDesiredState stored.shown desired = true
          · rw [if_pos hsettled]
            exact .unchanged hnamed hsettled
          · rw [if_neg hsettled]
            exact .update hnamed hnumber hsettled
    · simp only [hnumber]
      exact ⟨rfl, trivial⟩
  · rw [planTemplateFromCandidates, hfound]
    exact ⟨rfl, trivial⟩

end Plans

/-! ## Applying plans -/

/-- The entry gives a subject to a transactional template only, and a visual source to a visual
one only. -/
def TemplateDesired.Fits (desired : TemplateDesired) : Prop :=
  (desired.type ≠ .tx → desired.subject = []) ∧
    (desired.type ≠ .campaign_visual → desired.body_source.getD [] = [])

theorem TemplateType.text_ne_nil (type : TemplateType) : type.text ≠ [] := by
  cases type <;> exact List.cons_ne_nil _ _

theorem TemplateType.text_injective : Function.Injective TemplateType.text := by
  intro a b h
  cases a <;> cases b <;> first | rfl | simp [text] at h

/-- A template that stores what an entry asks for is as the entry asks. -/
theorem settled_of_storesBody {desired : TemplateDesired} {sent : Template} {stored : StoredTemplate}
    (hfits : desired.Fits) (hstored : StoresBody sent stored.shown)
    (hsent : sent.name = some desired.name ∧ sent.type = some desired.type.text ∧
      sent.subject = some desired.subject ∧ sent.body = some desired.body)
    (hsource : desired.body_source.getD [] ≠ [] → sent.body_source = desired.body_source) :
    templateState.Settled desired stored := by
  obtain ⟨hname, htype, hsubject, hbody⟩ := hsent
  have hstoredSubject : stored.shown.subject.getD [] = desired.subject := by
    by_cases htx : desired.type = .tx
    · rw [hstored.subject (by rw [htype, htx]; rfl), hsubject, Option.getD_some]
    · rw [hstored.subjectless fun hequal => htx ?_, hfits.1 htx]
      rw [htype] at hequal
      exact TemplateType.text_injective (Option.some.inj hequal)
  have hstoredSource : desired.body_source = none ∨ desired.body_source = some [] ∨
      stored.shown.body_source.getD [] = desired.body_source.getD [] := by
    cases hgiven : desired.body_source with
    | none => exact .inl rfl
    | some source =>
        by_cases hempty : source = []
        · exact .inr (.inl (by rw [hempty]))
        · have hne : desired.body_source.getD [] ≠ [] := by rwa [hgiven]
          have hvisual : desired.type = .campaign_visual := by
            by_contra hother
            exact hne (hfits.2 hother)
          refine .inr (.inr ?_)
          rw [hstored.source (by rw [htype, hvisual]; rfl) source
            (by rw [hsource hne, hgiven]; rfl) hempty]
  change templateMatchesDesiredState stored.shown desired = true
  simp only [templateMatchesDesiredState, hstored.name _ hname desired.named,
    hstored.type _ htype (TemplateType.text_ne_nil _), hstored.body _ hbody desired.filled,
    hstoredSubject, decide_true, Bool.true_and, Option.getD_some, Bool.or_eq_true, decide_eq_true_eq]
  tauto

/-- A template that was created for an entry is of its name, and as it asks. -/
theorem Created.settled {desired : TemplateDesired} {stored : StoredTemplate} (hfits : desired.Fits)
    (h : StoresBody desired.changes stored.shown) :
    stored.name = desired.name ∧ templateState.Settled desired stored :=
  ⟨Option.some.inj (h.name _ rfl desired.named),
    settled_of_storesBody hfits h ⟨rfl, rfl, rfl, rfl⟩ fun _ => rfl⟩

/-- So is a template that was updated for it: a visual source the entry leaves open is kept. -/
theorem Updated.settled {desired : TemplateDesired} {stored : StoredTemplate} {current : Template}
    (hfits : desired.Fits)
    (h : StoresBody (updateBody desired.changes current) stored.shown) :
    stored.name = desired.name ∧ templateState.Settled desired stored := by
  refine ⟨Option.some.inj (h.name _ rfl desired.named),
    settled_of_storesBody hfits h ⟨rfl, rfl, rfl, rfl⟩ fun hne => ?_⟩
  cases hgiven : desired.body_source with
  | none =>
      rw [hgiven] at hne
      exact absurd rfl hne
  | some source => simp [updateBody, TemplateDesired.changes, hgiven]

/-- What is told of an entry: its name, what had to be done, and whether it was. -/
structure Told (table : TemplateTable) (apply : Bool) (desired : TemplateDesired)
    (result : TemplateReconcileResult) : Prop where
  name : result.name = desired.name
  planned : ∃ plan, PlanFor table desired plan ∧ plan.action = result.action
  applied : result.applied = (apply && decide (result.action ≠ .unchanged))

theorem PlanFor.told {table : TemplateTable} {desired : TemplateDesired}
    {plan : TemplateReconcileResult} (h : PlanFor table desired plan) :
    Told table false desired plan := by
  refine ⟨?_, ⟨plan, h, rfl⟩, ?_⟩ <;> cases h <;> rfl

section Applying

variable {Move : Type} {serve : TemplateServer Move} {manifest : TemplateManifest}

theorem safe_applyTemplateReconcilePlan (hserve : serve.Documented) {start table : TemplateTable}
    {done : List TemplateDesired} {desired : TemplateDesired} {plan : TemplateReconcileResult}
    (hfits : desired.Fits) (hplan : PlanFor start desired plan)
    (hprogress : templateState.Progress start done table)
    (hwaiting : templateState.wanted desired ∉ done.map templateState.wanted) :
    Fallible.Safe serve
      (fun after => templateState.Progress start done after ∨
        templateState.Progress start (done ++ [desired]) after)
      (applyTemplateReconcilePlan desired plan)
      (fun result after => templateState.Progress start (done ++ [desired]) after ∧
        Told start true desired result)
      (fun _ _ => True) table := by
  cases hplan with
  | create hnone =>
      have hadded : ∀ after, Created desired table after →
          templateState.Progress start (done ++ [desired]) after := by
        rintro after ⟨stored, hid, hstored, rfl⟩
        obtain ⟨hname, hsettled⟩ := Created.settled hfits hstored
        exact hprogress.added hwaiting hnone hid hname hsettled
      simp only [applyTemplateReconcilePlan, Fallible.safe_bind]
      refine (safe_createTemplate hserve (.inl hprogress) fun after h => .inr (hadded after h)).imp
        (fun template after _ hafter => ?_) fun _ _ _ h => h
      exact ⟨.inr (hadded after hafter), hadded after hafter, rfl, ⟨_, .create hnone, rfl⟩, rfl⟩
  | @update stored hrow hnumber hunsettled =>
      have hmem : stored ∈ table.rows := by
        have hrows : templateState.named desired.name table = [stored] :=
          (hprogress.others _ hwaiting).trans hrow
        have hin : stored ∈ templateState.named desired.name table := hrows ▸ List.mem_cons_self
        exact List.mem_of_mem_filter hin
      have hchanged : ∀ current after, Updated stored.id (updateBody desired.changes current) table
          after → templateState.Progress start (done ++ [desired]) after := by
        rintro current after ⟨f, hf, rfl⟩
        have hstored := hf stored hmem rfl
        obtain ⟨hname, hsettled⟩ := Updated.settled hfits hstored.toStoresBody
        exact hprogress.changed hwaiting hrow hunsettled (Option.some.inj hstored.id) hname hsettled
      have hid : ((some stored.shown).bind (·.id)).filter (isPositiveSafeInteger ·) =
          some stored.id := by
        simp [StoredTemplate.shown, Option.filter, hnumber]
      simp only [applyTemplateReconcilePlan, hid, Fallible.safe_bind]
      refine (safe_updateTemplate hserve (.inl hprogress)
        fun current after h => .inr (hchanged current after h)).imp
        (fun template after _ hafter => ?_) fun _ _ _ h => h
      obtain ⟨current, hupdated⟩ := hafter
      have hdone := hchanged current after hupdated
      exact ⟨.inr hdone, hdone, rfl, ⟨_, .update hrow hnumber hunsettled, rfl⟩, rfl⟩
  | @unchanged stored hrow hsettled =>
      have hsame := hprogress.unchanged hwaiting ⟨stored, hrow, hsettled⟩
      exact ⟨.inr hsame, hsame, rfl, ⟨_, .unchanged hrow hsettled, rfl⟩, rfl⟩

/-- Every plan of a manifest is made in the table that the round starts from. -/
theorem safe_planTemplateManifest (hserve : serve.Documented) {table : TemplateTable}
    (hsound : templateState.Sound table) :
    Fallible.Safe serve (· = table) (planTemplateManifest manifest)
      (fun planned after => after = table ∧ planned.map Prod.fst = manifest.templates ∧
        ∀ entry ∈ planned, PlanFor table entry.1 entry.2)
      (fun _ _ => True) table := by
  rw [planTemplateManifest, listTemplatesForReconcile, Fallible.safe_bind, Fallible.safe_bind,
    Fallible.safe_ask]
  refine ⟨rfl, fun move => ?_⟩
  have hread : (serve table (.list (some true)) move).2 = table := hserve.reads trivial
  refine ⟨hread, ?_⟩
  rw [hread]
  cases hreply : unwrapReceived "Failed to list templates for reconcile"
      (serve table (.list (some true)) move).1.listed with
  | error message => trivial
  | ok page =>
      have hlisted := hserve.listed (eq_data_of_unwrapReceived hreply)
      refine ⟨rfl, ?_⟩
      exact Fallible.safe_planAll fun desired _ =>
        safe_planTemplateFromCandidates hserve hsound hlisted

end Applying

/-! ## Rounds -/

section Reconciling

variable {Move : Type} (serve : TemplateServer Move) (manifest : TemplateManifest)

def templateReconciler : Reconciler TemplateCall TemplateAnswer Move Text TemplateDesired
    TemplateReconcileResult StoredTemplate Text where
  state := templateState
  serve := serve
  entries := manifest.templates
  planning := planTemplateManifest manifest
  apply := applyTemplateReconcilePlan
  PlanFor := PlanFor
  Told := Told

variable {serve manifest}

theorem lawful_templateReconciler (hserve : serve.Documented)
    (hfits : ∀ desired ∈ manifest.templates, desired.Fits) :
    (templateReconciler serve manifest).Lawful where
  names := manifest.distinct
  plans := safe_planTemplateManifest hserve
  dry := PlanFor.told
  applies hentry := safe_applyTemplateReconcilePlan hserve (hfits _ hentry)

end Reconciling

/-- A round of `reconcileTemplateManifest`. -/
abbrev TemplateRound (Move : Type) := Round Move Text TemplateReconcileResult Text

section Rounds

variable {Move : Type} {serve : TemplateServer Move} {manifest : TemplateManifest}
  {start table after : TemplateTable} {round : TemplateRound Move}
  {history : List (TemplateRound Move)}

theorem Told.unchanged {apply : Bool} {desired : TemplateDesired} {result : TemplateReconcileResult}
    (h : Told table apply desired result) (hreached : templateState.Reached desired table) :
    result.action = .unchanged := by
  obtain ⟨plan, hplan, haction⟩ := h.planned
  obtain ⟨stored, hrow, hsettled⟩ := hreached
  rw [← haction]
  cases hplan with
  | create hnone => cases hnone.symm.trans hrow
  | update hother _ hunsettled =>
      obtain rfl := List.singleton_inj.mp (hother.symm.trans hrow)
      exact absurd hsettled hunsettled
  | unchanged _ _ => rfl

/-- On a server that behaves as documented, for a manifest whose entries fit their types: in any
number of rounds, whatever becomes of their requests, the templates of other names stay as they
are, and a managed one is reached or as it was. A round changes nothing before every
entry has a plan, and one that fails tells which entries it had worked off. After a round
that was applied to its end there is nothing left to do. -/
theorem manifest_converges (hserve : serve.Documented)
    (hfits : ∀ desired ∈ manifest.templates, desired.Fits) (hsound : templateState.Sound start)
    (hhistory : Run (templateReconciler serve manifest).Step start history table)
    (hround : (templateReconciler serve manifest).Step table round after) :
    templateState.Kept manifest.templates start after ∧
      (templateReconciler serve manifest).Spec table round after ∧
      ∀ earlier ∈ history, earlier.applies = true →
        (∃ results, earlier.outcome = some (.ok results)) →
          (∀ desired ∈ manifest.templates, templateState.Reached desired after) ∧ after = table ∧
            ∀ results, round.outcome = some (.ok results) →
              ∀ result ∈ results, result.action = .unchanged := by
  have hlawful := lawful_templateReconciler hserve hfits
  have hkept := hlawful.kept hsound hhistory
  have hspec := hlawful.spec hkept.sound hround
  refine ⟨hkept.trans (hlawful.kept_step hkept.sound hround), hspec, ?_⟩
  rintro earlier hmem happlies ⟨results, hreturned⟩
  have hreached := hlawful.reached hsound hhistory hmem happlies hreturned
  have hsame := hlawful.still hkept.sound hround hreached
  refine ⟨hsame ▸ hreached, hsame, fun results hreturned result hresult => ?_⟩
  obtain ⟨desired, hdesired, htold⟩ :=
    exists_left_of_forall₂ (hspec.returned results hreturned).1 hresult
  exact htold.unchanged (hreached desired hdesired)

end Rounds

/-! ## A create that is lost -/

/-- A template with a number, as a table holds it. -/
def StoredTemplate.of (id : ℤ) (template : Template) : StoredTemplate :=
  ⟨id, template.name.getD [], template.type.getD [], template.subject.getD [],
    template.body.getD [], template.body_source⟩

theorem stores_shown_of {sent after : Template} (id : ℤ) (h : StoresBody sent after) :
    StoresBody sent (StoredTemplate.of id after).shown where
  name name hname hne := by rw [StoredTemplate.shown, StoredTemplate.of, h.name name hname hne]; rfl
  type type htype hne := by rw [StoredTemplate.shown, StoredTemplate.of, h.type type htype hne]; rfl
  body body hbody hne := by rw [StoredTemplate.shown, StoredTemplate.of, h.body body hbody hne]; rfl
  subject := h.subject
  subjectless := h.subjectless
  source := h.source

/-- What becomes of a request of the sample. -/
inductive SampleMove where
  | answered
  | refused
  | lost (served : Bool)

/-- The effect of a request that is served. -/
def sampleEffect (table : TemplateTable) : TemplateCall → TemplateTable
  | .create body =>
      DesiredState.add (fun id => .of id (keepingPut {} body.changes)) table
  | .update id body =>
      templateState.change id (fun held => .of held.id (keepingPut held.shown body)) table
  | _ => table

/-- The template that a request is answered with, after its effect. -/
def sampleAnswer (table : TemplateTable) : TemplateCall → Reply Template
  | .create _ => table.rows.getLast?.elim .noData fun stored => .data stored.shown
  | .getById id | .update id _ =>
      (table.rows.find? fun stored => stored.id = id).elim .noData fun stored => .data stored.shown
  | _ => .noData

/-- A server that lists its templates in one go, without their bodies where it is asked to. -/
def sampleTemplates : TemplateServer SampleMove := fun table call move =>
  let after := sampleEffect table call
  match move with
  | .answered =>
      (⟨.ok (.data ⟨some (after.rows.map fun stored =>
          { stored.shown with body := none, body_source := none }), none, none⟩),
        .ok (sampleAnswer after call)⟩, after)
  | .refused => (⟨.ok (.error "refused"), .ok (.error "refused")⟩, table)
  | .lost served => (⟨.error "reset", .error "reset"⟩, if served then after else table)

theorem documented_sampleTemplates : sampleTemplates.Documented where
  reads {table call move} h := by
    have hsame : sampleEffect table call = table := by
      cases call with
      | create body => exact h.elim
      | update id body => exact h.elim
      | _ => rfl
    cases move with
    | answered => exact hsame
    | refused => rfl
    | lost served =>
        rw [sampleTemplates, hsame]
        exact ite_self table
  listed {table move page} h := by
    cases move with
    | answered =>
        cases h
        refine List.Perm.of_eq ?_
        rw [Option.getD_some, List.map_map]
        rfl
    | refused => cases h
    | lost served => cases h
  read {table id move template} h := by
    cases move with
    | answered =>
        have hanswer : sampleAnswer table (.getById id) = .data template := Except.ok.inj h
        cases hfind : table.rows.find? fun stored => stored.id = id with
        | none =>
            rw [sampleAnswer, hfind] at hanswer
            cases hanswer
        | some stored =>
            rw [sampleAnswer, hfind] at hanswer
            exact ⟨stored, List.mem_of_find?_eq_some hfind, by simpa using List.find?_some hfind,
              (Reply.data.inj hanswer).symm⟩
    | refused => cases h
    | lost served => cases h
  created {table desired move} := by
    have hdone : Created desired table (sampleEffect table (.create desired)) :=
      ⟨.of table.next (keepingPut {} desired.changes), rfl,
        stores_shown_of _ (stores_keepingPut _ _).toStoresBody, rfl⟩
    cases move with
    | answered => exact .inl hdone
    | refused => exact .inr ⟨rfl, fun ⟨_, hreply, hne⟩ => hne _ (Except.ok.inj hreply).symm⟩
    | lost served =>
        cases served with
        | true => exact .inl hdone
        | false => exact .inr ⟨rfl, fun ⟨_, hreply, _⟩ => by cases hreply⟩
  updated {table id body move} := by
    have hdone : Updated id body table (sampleEffect table (.update id body)) :=
      ⟨fun held => .of held.id (keepingPut held.shown body), fun held _ _ =>
        ⟨stores_shown_of _ (stores_keepingPut _ _).toStoresBody, rfl⟩, rfl⟩
    cases move with
    | answered => exact .inl hdone
    | refused => exact .inr ⟨rfl, fun ⟨_, hreply, hne⟩ => hne _ (Except.ok.inj hreply).symm⟩
    | lost served =>
        cases served with
        | true => exact .inl hdone
        | false => exact .inr ⟨rfl, fun ⟨_, hreply, _⟩ => by cases hreply⟩

def welcomeManifest : TemplateManifest where
  templates :=
    [⟨"welcome", .tx, "Hi", none, "Hello", List.cons_ne_nil _ _, List.cons_ne_nil _ _⟩,
      ⟨"digest", .campaign, [], none, "News", List.cons_ne_nil _ _, List.cons_ne_nil _ _⟩]
  nonempty := List.cons_ne_nil _ _
  distinct := by decide

theorem fits_welcomeManifest : ∀ desired ∈ welcomeManifest.templates, desired.Fits := by
  simp [welcomeManifest, TemplateDesired.Fits]

/-- A round that is applied, under some moves. -/
def appliedRound (table : TemplateTable) (moves : List SampleMove) : TemplateRound SampleMove where
  applies := true
  moves := moves
  outcome := ((reconcileTemplateManifest welcomeManifest true).run.run sampleTemplates table moves).1

/-- The table before: the second template is there, with another body. -/
def outdatedTable : TemplateTable := ⟨[⟨1, "digest", "campaign", [], "Old news", none⟩], 2⟩

/-- The table after the create, whose answer was lost. -/
def createdTable : TemplateTable :=
  ⟨[⟨1, "digest", "campaign", [], "Old news", none⟩, ⟨2, "welcome", "tx", "Hi", "Hello", none⟩], 3⟩

def updatedTable : TemplateTable :=
  ⟨[⟨1, "digest", "campaign", [], "News", none⟩, ⟨2, "welcome", "tx", "Hi", "Hello", none⟩], 3⟩

/-- The round in which the answer was lost, and the two after it. -/
def lostCreate : TemplateRound SampleMove :=
  appliedRound outdatedTable [.answered, .answered, .lost true]

def repeatedRound : TemplateRound SampleMove :=
  appliedRound createdTable (List.replicate 5 .answered)

def lastRound : TemplateRound SampleMove := appliedRound updatedTable (List.replicate 3 .answered)

/-- The template whose create seemed to fail is not created again, the other one is updated, and
a third round finds nothing to do. -/
theorem manifest_converges_lostCreate :
    lostCreate.outcome = some (.error (.applyFailed "welcome" [] "reset")) ∧
      (∃ results, repeatedRound.outcome = some (.ok results)) ∧
      ∃ results, lastRound.outcome = some (.ok results) ∧
        ∀ result ∈ results, result.action = .unchanged := by
  have hsound : templateState.Sound outdatedTable :=
    ⟨List.nodup_singleton _, by simp [outdatedTable, templateState]⟩
  have hfirst : (templateReconciler sampleTemplates welcomeManifest).Step outdatedTable lostCreate
      createdTable := by rfl
  have hsecond : (templateReconciler sampleTemplates welcomeManifest).Step createdTable
      repeatedRound updatedTable := by rfl
  have hthird : (templateReconciler sampleTemplates welcomeManifest).Step updatedTable lastRound
      updatedTable := by rfl
  have hconverges := manifest_converges documented_sampleTemplates fits_welcomeManifest hsound
    ((Run.single hfirst).snoc hsecond) hthird
  obtain ⟨results, hresults⟩ : ∃ results, lastRound.outcome = some (.ok results) := ⟨_, by rfl⟩
  have hrepeated : ∃ results, repeatedRound.outcome = some (.ok results) := ⟨_, by rfl⟩
  exact ⟨by rfl, hrepeated, results, hresults,
    (hconverges.2.2 repeatedRound (by simp) rfl hrepeated).2.2 results hresults⟩

end ListmonkOps.Templates
