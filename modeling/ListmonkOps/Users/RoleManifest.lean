/-
User roles that are reconciled with a manifest.

The manifest names roles and the permissions that each should have. A role is as asked
when it has exactly these permissions, in whatever order and however often the server
lists them. The role of number 1 is the Super Admin, which is never managed: a manifest
that names it is refused as a whole.
-/

import ListmonkOps.Math.Keyed
import ListmonkOps.Math.Reconciliation
import ListmonkOps.Operations.CreatedRecord
import ListmonkOps.Runtime.Stringify

namespace ListmonkOps.Users

open ListmonkOps.Math ListmonkOps.Operations ListmonkOps.Runtime

/-! ## Permissions -/

def LISTMONK_USER_PERMISSIONS : List Text :=
  [("lists:get_all" : Text), "lists:manage_all", "list:manage", "list:get", "subscribers:get",
    "subscribers:get_all", "subscribers:manage", "subscribers:import", "subscribers:sql_query",
    "tx:send", "campaigns:get", "campaigns:get_all", "campaigns:get_analytics", "campaigns:manage",
    "campaigns:manage_all", "campaigns:send", "bounces:get", "bounces:manage",
    "webhooks:post_bounce", "media:get", "media:manage", "templates:get", "templates:manage",
    "users:get", "users:manage", "roles:get", "roles:manage", "settings:get", "settings:manage",
    "settings:maintain"]

/-- `[...new Set(permissions)].sort()`. -/
def canonicalPermissions (permissions : List Text) : List Text :=
  permissions.eraseDups.mergeSort fun a b => decide (a ≤ b)

section Permissions

variable {permissions others : List Text}

theorem mem_canonicalPermissions {permission : Text} :
    permission ∈ canonicalPermissions permissions ↔ permission ∈ permissions := by
  rw [canonicalPermissions, List.mem_mergeSort, List.mem_eraseDups]

theorem sorted_canonicalPermissions :
    (canonicalPermissions permissions).Pairwise fun a b => decide (a ≤ b) = true := by
  refine List.pairwise_mergeSort (fun a b c hab hbc => ?_) (fun a b => ?_) _
  · rw [decide_eq_true_eq] at hab hbc ⊢
    exact List.le_trans hab hbc
  · rw [Bool.or_eq_true, decide_eq_true_eq, decide_eq_true_eq]
    exact List.le_total a b

/-- Lists of permissions have one canonical form exactly when they hold the same. -/
theorem canonicalPermissions_eq_iff : canonicalPermissions permissions = canonicalPermissions others ↔
    ∀ permission, permission ∈ permissions ↔ permission ∈ others := by
  constructor
  · intro h permission
    rw [← mem_canonicalPermissions, h, mem_canonicalPermissions]
  · intro h
    refine List.Perm.eq_of_pairwise ?_ sorted_canonicalPermissions sorted_canonicalPermissions ?_
    · intro a b _ _ hab hba
      exact List.le_antisymm (of_decide_eq_true hab) (of_decide_eq_true hba)
    · refine (List.mergeSort_perm _ _).trans (List.Perm.trans ?_ (List.mergeSort_perm _ _).symm)
      refine (List.perm_ext_iff_of_nodup (nodup_eraseDups _) (nodup_eraseDups _)).mpr ?_
      intro permission
      rw [List.mem_eraseDups, List.mem_eraseDups, h]

theorem canonicalPermissions_canonicalPermissions :
    canonicalPermissions (canonicalPermissions permissions) = canonicalPermissions permissions :=
  canonicalPermissions_eq_iff.mpr fun _ => mem_canonicalPermissions

end Permissions

/-! ## Manifests -/

/-- An entry of a manifest, as `userRoleDesiredStateSchema` gives it. -/
structure UserRoleDesired where
  name : Text
  permissions : List Text
  named : name ≠ []
  known : permissions ⊆ LISTMONK_USER_PERMISSIONS
  canonical : canonicalPermissions permissions = permissions

/-- The entry that is given: its permissions are sorted and named once. -/
def UserRoleDesired.of (name : Text) (permissions : List Text) (named : name ≠ [])
    (known : permissions ⊆ LISTMONK_USER_PERMISSIONS) : UserRoleDesired where
  name := name
  permissions := canonicalPermissions permissions
  named := named
  known := fun _ h => known (mem_canonicalPermissions.mp h)
  canonical := canonicalPermissions_canonicalPermissions

/-- What `userRoleManifestSchema` accepts: entries of names that do not repeat. -/
structure UserRoleManifest where
  roles : List UserRoleDesired
  nonempty : roles ≠ []
  distinct : (roles.map (·.name)).Nodup

/-- A role, as `userRoleSchema` gives it. -/
structure UserRole where
  id : ℤ
  name : Text
  permissions : List Text
  deriving DecidableEq

/-- What is done about an entry. -/
inductive UserRoleAction where
  | create
  | update
  | unchanged
  deriving DecidableEq

/-- What is told of an entry. -/
structure UserRoleReconcileResult where
  name : Text
  action : UserRoleAction
  applied : Bool
  role : Option UserRole := none
  deriving DecidableEq

/-- How a manifest fails: with an error, or with `UserRoleManifestApplyError`. -/
abbrev UserRoleManifestError := ReconcileError Text UserRoleReconcileResult Text

def UserRoleManifestError.message : UserRoleManifestError → Text
  | .thrown message => message
  | .applyFailed failedRole appliedResults _ =>
      ("User role manifest apply failed at " : Text) ++ quote failedRole ++ (" after " : Text) ++
        Text.ofNat appliedResults.length ++ (" completed entries" : Text)

def permissionsMatch (current desired : List Text) : Bool :=
  (canonicalPermissions current).length = desired.length &&
    ((canonicalPermissions current).zip desired).all fun pair => pair.1 = pair.2

/-! ## Requests -/

/-- The requests of a reconciliation. -/
inductive UserRoleCall where
  | list
  | create (body : UserRoleDesired)
  | update (id : ℤ) (body : UserRoleDesired)

/-- What a request gives, or the error it throws: the one for the listing, the other for a
role. -/
structure UserRoleAnswer where
  listed : Except Text (Reply (List UserRole))
  role : Except Text (Reply UserRole)

abbrev UserRoleProgram (α : Type) := Fallible UserRoleCall UserRoleAnswer Text α

def isProtectedUserRoleId (id : ℤ) : Bool := id = 1

/-- `userRoleSchema.parse`, with the message it throws. -/
def parseUserRole (invalid : Text) (role : UserRole) : Except Text UserRole :=
  if isPositiveSafeInteger role.id && role.name ≠ [] then .ok role else .error invalid

def listUserRoles (invalid : Text) : UserRoleProgram (List UserRole) :=
  Fallible.ask .list fun answer => do
    let data ← unwrapReceived "Failed to list user roles" answer.listed
    data.mapM (parseUserRole invalid)

def planUserRoleFromCandidates (candidates : List UserRole) (desired : UserRoleDesired) :
    UserRoleProgram UserRoleReconcileResult :=
  match candidates.filter fun role => role.name = desired.name with
  | [] => pure { name := desired.name, action := .create, applied := false }
  | [existing] =>
      if isProtectedUserRoleId existing.id then
        throw (("User role reconcile refuses to manage protected Super Admin role " : Text) ++
          quote desired.name)
      else
        pure {
          name := desired.name
          action := if permissionsMatch existing.permissions desired.permissions then .unchanged
            else .update
          applied := false
          role := some existing }
  | named => throw (("User role reconcile is ambiguous: " : Text) ++ Text.ofNat named.length ++
      (" roles are named " : Text) ++ quote desired.name)

def applyUserRoleReconcilePlan (invalid : Text) (desired : UserRoleDesired)
    (plan : UserRoleReconcileResult) : UserRoleProgram UserRoleReconcileResult :=
  match plan.action with
  | .unchanged => pure plan
  | .create => do
      let role ← Fallible.ask (.create desired) fun answer =>
        unwrapReceived (("Failed to create user role " : Text) ++ quote desired.name) answer.role >>=
          parseUserRole invalid
      pure { plan with applied := true, role := some role }
  | .update =>
      match (plan.role.map (·.id)).filter
          fun id => isPositiveSafeInteger id && !isProtectedUserRoleId id with
      | none => throw (("User role update plan for " : Text) ++ quote desired.name ++
          (" has a protected or invalid ID" : Text))
      | some existingId => do
          let role ← Fallible.ask (.update existingId desired) fun answer =>
            unwrapReceived (("Failed to update user role " : Text) ++ quote desired.name)
              answer.role >>= parseUserRole invalid
          pure { plan with applied := true, role := some role }

/-- The plans of all entries, against one listing. -/
def planUserRoleManifest (invalid : Text) (manifest : UserRoleManifest) :
    UserRoleProgram (List (UserRoleDesired × UserRoleReconcileResult)) := do
  let candidates ← listUserRoles invalid
  planAll (planUserRoleFromCandidates candidates) manifest.roles

def reconcileUserRoleManifest (invalid : Text) (manifest : UserRoleManifest) (apply : Bool) :
    Fallible UserRoleCall UserRoleAnswer UserRoleManifestError (List UserRoleReconcileResult) :=
  reconcileAll (·.name) (planUserRoleManifest invalid manifest) (applyUserRoleReconcilePlan invalid)
    apply

/-! ## The server -/

/-- Roles are told apart by their numbers and managed by their names. -/
def userRoleState : DesiredState UserRole UserRoleDesired Text where
  number := (·.id)
  name := (·.name)
  wanted := (·.name)
  Settled desired role := permissionsMatch role.permissions desired.permissions = true

abbrev UserRoleTable := NumberedTable UserRole

/-- What the server makes of a request: its answer, and the roles there are then. Whatever may
become of a request is a move. -/
abbrev UserRoleServer (Move : Type) :=
  UserRoleTable → UserRoleCall → Move → UserRoleAnswer × UserRoleTable

/-- A role is as it was sent, with its permissions in some order and some of them repeated. -/
structure Stores (sent : UserRoleDesired) (role : UserRole) : Prop where
  name : role.name = sent.name
  permissions : ∀ permission, permission ∈ role.permissions ↔ permission ∈ sent.permissions

/-- A role is shown as it is held, but for the order and the repetition of its permissions. -/
structure ShowsRole (held shown : UserRole) : Prop where
  id : shown.id = held.id
  name : shown.name = held.name
  permissions : ∀ permission, permission ∈ shown.permissions ↔ permission ∈ held.permissions

/-- A role was created as the body asks. -/
def Created (body : UserRoleDesired) (table after : UserRoleTable) : Prop :=
  ∃ role : UserRole, role.id = table.next ∧ Stores body role ∧
    after = DesiredState.add (fun _ => role) table

/-- The role of a number was updated with a body. -/
def Updated (id : ℤ) (body : UserRoleDesired) (table after : UserRoleTable) : Prop :=
  ∃ f : UserRole → UserRole,
    (∀ held ∈ table.rows, held.id = id → (f held).id = id ∧ Stores body (f held)) ∧
      after = userRoleState.change id f table

/-- The effect that a request asks for. -/
def UserRoleCall.Done (table after : UserRoleTable) : UserRoleCall → Prop
  | .list => after = table
  | .create body => Created body table after
  | .update id body => Updated id body table after

/-- The request was answered, and not with an error. -/
def UserRoleAnswer.isTaken (answer : UserRoleAnswer) : Prop :=
  ∃ reply, answer.role = .ok reply ∧ ∀ message, reply ≠ .error message

/-- What is assumed of the server: listing changes nothing and shows every role; a create or an
update that is taken has its effect, and any other has it or has none. -/
structure UserRoleServer.Documented {Move : Type} (serve : UserRoleServer Move) : Prop where
  reads {table : UserRoleTable} {move : Move} : (serve table .list move).2 = table
  listed {table : UserRoleTable} {move : Move} {roles : List UserRole}
      (h : (serve table .list move).1.listed = .ok (.data roles)) :
    ∃ shown : UserRole → UserRole, (∀ role, ShowsRole role (shown role)) ∧
      roles.Perm (table.rows.map shown)
  written {table : UserRoleTable} {call : UserRoleCall} {move : Move} :
    call.Done table (serve table call move).2 ∨
      ((serve table call move).2 = table ∧ ¬(serve table call move).1.isTaken)

/-! ## Permissions that match -/

theorem zip_all_eq_iff {xs ys : List Text} :
    (decide (xs.length = ys.length) && (xs.zip ys).all fun pair => pair.1 = pair.2) = true ↔
      xs = ys := by
  have hforall : xs = ys ↔ List.Forall₂ (· = ·) xs ys := by rw [List.forall₂_eq_eq_eq]
  rw [hforall, List.forall₂_iff_zip]
  simp

/-- A role has the permissions that are asked for, no others and none less. -/
theorem permissionsMatch_iff {current : List Text} {desired : UserRoleDesired} :
    permissionsMatch current desired.permissions = true ↔
      ∀ permission, permission ∈ current ↔ permission ∈ desired.permissions := by
  rw [← canonicalPermissions_eq_iff, desired.canonical, permissionsMatch, zip_all_eq_iff]

theorem Stores.settled {desired : UserRoleDesired} {role : UserRole} (h : Stores desired role) :
    userRoleState.Settled desired role :=
  permissionsMatch_iff.mpr h.permissions

/-- A role matches an entry as it is shown exactly when it does as it is held. -/
theorem ShowsRole.match_iff {desired : UserRoleDesired} {held shown : UserRole}
    (h : ShowsRole held shown) :
    permissionsMatch shown.permissions desired.permissions = true ↔
      userRoleState.Settled desired held := by
  rw [permissionsMatch_iff]
  refine Iff.trans (forall_congr' fun permission => ?_) permissionsMatch_iff.symm
  rw [h.permissions]

/-! ## Plans -/

/-- What a plan says of an entry, by the rows of its name. The Super Admin has none. -/
inductive PlanFor (table : UserRoleTable) (desired : UserRoleDesired) :
    UserRoleReconcileResult → Prop
  | create (hnone : userRoleState.named desired.name table = []) :
      PlanFor table desired ⟨desired.name, .create, false, none⟩
  | update {role shown : UserRole} (hrow : userRoleState.named desired.name table = [role])
      (hshown : ShowsRole role shown) (hmanaged : isProtectedUserRoleId role.id = false)
      (hunsettled : ¬ userRoleState.Settled desired role) :
      PlanFor table desired ⟨desired.name, .update, false, some shown⟩
  | unchanged {role shown : UserRole} (hrow : userRoleState.named desired.name table = [role])
      (hshown : ShowsRole role shown) (hmanaged : isProtectedUserRoleId role.id = false)
      (hsettled : userRoleState.Settled desired role) :
      PlanFor table desired ⟨desired.name, .unchanged, false, some shown⟩

/-- What is told of an entry: its name, what had to be done, and whether it was. -/
structure Told (table : UserRoleTable) (apply : Bool) (desired : UserRoleDesired)
    (result : UserRoleReconcileResult) : Prop where
  name : result.name = desired.name
  planned : ∃ plan, PlanFor table desired plan ∧ plan.action = result.action
  applied : result.applied = (apply && decide (result.action ≠ .unchanged))

section Rules

variable {Move : Type} {serve : UserRoleServer Move} {table start : UserRoleTable}
  {desired : UserRoleDesired} {plan : UserRoleReconcileResult} {invalid : Text}

theorem PlanFor.told (h : PlanFor table desired plan) : Told table false desired plan := by
  refine ⟨?_, ⟨plan, h, rfl⟩, ?_⟩ <;> cases h <;> rfl

theorem eq_of_mapM_parseUserRole {roles parsed : List UserRole}
    (h : roles.mapM (parseUserRole invalid) = .ok parsed) : parsed = roles := by
  have hforall := mapM_eq_ok_iff.mp h
  refine (List.forall₂_eq_eq_eq ▸ hforall.imp fun role other hparsed => ?_ : roles = parsed).symm
  rw [parseUserRole] at hparsed
  split_ifs at hparsed
  exact Except.ok.inj hparsed

/-- The candidates of a name are the roles of that name, as they are shown. -/
theorem named_of_listed {candidates : List UserRole} {shown : UserRole → UserRole}
    (hshown : ∀ role, ShowsRole role (shown role)) (h : candidates.Perm (table.rows.map shown))
    (name : Text) :
    (candidates.filter fun role => role.name = name).Perm
      ((userRoleState.named name table).map shown) := by
  refine (h.filter _).trans (List.Perm.of_eq ?_)
  rw [List.filter_map, DesiredState.named]
  refine congrArg (List.map shown) (List.filter_congr fun role _ => ?_)
  exact decide_eq_decide.mpr (by rw [(hshown role).name]; rfl)

theorem safe_planUserRoleFromCandidates {candidates : List UserRole} {shown : UserRole → UserRole}
    (hshown : ∀ role, ShowsRole role (shown role)) (hlisted : candidates.Perm (table.rows.map shown)) :
    Fallible.Safe serve (· = table) (planUserRoleFromCandidates candidates desired)
      (fun plan _ => PlanFor table desired plan) (fun _ _ => True) table := by
  have hperm := named_of_listed hshown hlisted desired.name
  rcases hfound : candidates.filter fun role => role.name = desired.name with
    _ | ⟨existing, _ | ⟨other, more⟩⟩
  · rw [hfound] at hperm
    rw [planUserRoleFromCandidates, hfound]
    exact ⟨rfl, .create (List.map_eq_nil_iff.mp (List.nil_perm.mp hperm))⟩
  · rw [hfound] at hperm
    obtain ⟨role, hrow, rfl⟩ := List.map_eq_singleton_iff.mp (List.singleton_perm.mp hperm).symm
    rw [planUserRoleFromCandidates, hfound]
    by_cases hprotected : isProtectedUserRoleId (shown role).id = true
    · simp only [hprotected, if_true]
      exact ⟨rfl, trivial⟩
    · have hmanaged : isProtectedUserRoleId role.id = false := by
        rw [← (hshown role).id]
        simpa using hprotected
      simp only [hprotected]
      refine ⟨rfl, ?_⟩
      by_cases hmatch : permissionsMatch (shown role).permissions desired.permissions = true
      · rw [if_pos hmatch]
        exact .unchanged hrow (hshown role) hmanaged ((hshown role).match_iff.mp hmatch)
      · rw [if_neg hmatch]
        exact .update hrow (hshown role) hmanaged fun h => hmatch ((hshown role).match_iff.mpr h)
  · rw [planUserRoleFromCandidates, hfound]
    exact ⟨rfl, trivial⟩

/-- Every plan of a manifest is made in the table that the round starts from. -/
theorem safe_planUserRoleManifest (hserve : serve.Documented) {manifest : UserRoleManifest} :
    Fallible.Safe serve (· = table) (planUserRoleManifest invalid manifest)
      (fun planned after => after = table ∧ planned.map Prod.fst = manifest.roles ∧
        ∀ entry ∈ planned, PlanFor table entry.1 entry.2)
      (fun _ _ => True) table := by
  rw [planUserRoleManifest, listUserRoles, Fallible.safe_bind, Fallible.safe_ask]
  refine ⟨rfl, fun move => ⟨hserve.reads, ?_⟩⟩
  rw [hserve.reads]
  cases hreply : unwrapReceived "Failed to list user roles" (serve table .list move).1.listed with
  | error message => trivial
  | ok roles =>
      obtain ⟨shown, hshown, hlisted⟩ := hserve.listed (eq_data_of_unwrapReceived hreply)
      change Fallible.ends _ _ (roles.mapM (parseUserRole invalid)) _
      cases hparsed : roles.mapM (parseUserRole invalid) with
      | error message => trivial
      | ok parsed =>
          rw [Fallible.ends_ok, eq_of_mapM_parseUserRole hparsed]
          exact Fallible.safe_planAll fun desired _ =>
            safe_planUserRoleFromCandidates hshown hlisted

/-! ## Applying plans -/

/-- A request that writes has its effect at once or not at all, and has it where it
returns. -/
theorem safe_write (hserve : serve.Documented) {I : UserRoleTable → Prop} {call : UserRoleCall}
    (context : Text) (hnow : I table) (hdone : ∀ after, call.Done table after → I after) :
    Fallible.Safe serve I
      (Fallible.ask call fun answer => unwrapReceived context answer.role >>= parseUserRole invalid)
      (fun _ after => call.Done table after) (fun _ _ => True) table := by
  rw [Fallible.safe_ask]
  refine ⟨hnow, fun move => ?_⟩
  have heffect : call.Done table (serve table call move).2 ∨
      ((serve table call move).2 = table ∧ ¬(serve table call move).1.isTaken) := hserve.written
  generalize serve table call move = served at heffect
  obtain ⟨answer, after⟩ := served
  constructor
  · rcases heffect with hafter | ⟨hsame, -⟩
    · exact hdone _ hafter
    · rwa [show after = table from hsame]
  · cases hreply : unwrapReceived context answer.role with
    | error message => trivial
    | ok role =>
        have htaken : answer.isTaken := ⟨.data role, eq_data_of_unwrapReceived hreply, nofun⟩
        change Fallible.ends _ _ (parseUserRole invalid role) _
        cases parseUserRole invalid role with
        | error message => trivial
        | ok parsed => exact heffect.resolve_right fun hnot => hnot.2 htaken

theorem safe_applyUserRoleReconcilePlan (hserve : serve.Documented) {done : List UserRoleDesired}
    (hplan : PlanFor start desired plan) (hprogress : userRoleState.Progress start done table)
    (hwaiting : userRoleState.wanted desired ∉ done.map userRoleState.wanted) :
    Fallible.Safe serve
      (fun after => userRoleState.Progress start done after ∨
        userRoleState.Progress start (done ++ [desired]) after)
      (applyUserRoleReconcilePlan invalid desired plan)
      (fun result after => userRoleState.Progress start (done ++ [desired]) after ∧
        Told start true desired result)
      (fun _ _ => True) table := by
  cases hplan with
  | create hnone =>
      have hadded : ∀ after, (UserRoleCall.create desired).Done table after →
          userRoleState.Progress start (done ++ [desired]) after := by
        rintro after ⟨role, hid, hstores, rfl⟩
        exact hprogress.added hwaiting hnone hid hstores.name hstores.settled
      simp only [applyUserRoleReconcilePlan, Fallible.safe_bind]
      refine (safe_write hserve _ (.inl hprogress) fun after h => .inr (hadded after h)).imp
        (fun role after _ hafter => ?_) fun _ _ _ h => h
      exact ⟨.inr (hadded after hafter), hadded after hafter, rfl, ⟨_, .create hnone, rfl⟩, rfl⟩
  | @update role shown hrow hshown hmanaged hunsettled =>
      have hmem : role ∈ table.rows := by
        have hrows : userRoleState.named desired.name table = [role] :=
          (hprogress.others _ hwaiting).trans hrow
        have hin : role ∈ userRoleState.named desired.name table := hrows ▸ List.mem_cons_self
        exact List.mem_of_mem_filter hin
      have hchanged : ∀ after, (UserRoleCall.update role.id desired).Done table after →
          userRoleState.Progress start (done ++ [desired]) after := by
        rintro after ⟨f, hf, rfl⟩
        obtain ⟨hid, hstores⟩ := hf role hmem rfl
        exact hprogress.changed hwaiting hrow hunsettled hid hstores.name hstores.settled
      simp only [applyUserRoleReconcilePlan, Option.map_some, Option.filter, hshown.id, hmanaged,
        Bool.not_false, Bool.and_true]
      by_cases hnumber : isPositiveSafeInteger role.id = true
      · simp only [hnumber, if_true, Fallible.safe_bind]
        refine (safe_write hserve _ (.inl hprogress) fun after h => .inr (hchanged after h)).imp
          (fun told after _ hafter => ?_) fun _ _ _ h => h
        have hdone := hchanged after hafter
        exact ⟨.inr hdone, hdone, rfl, ⟨_, .update hrow hshown hmanaged hunsettled, rfl⟩, rfl⟩
      · simp only [hnumber]
        exact ⟨.inl hprogress, trivial⟩
  | @unchanged role shown hrow hshown hmanaged hsettled =>
      have hsame := hprogress.unchanged hwaiting ⟨role, hrow, hsettled⟩
      exact ⟨.inr hsame, hsame, rfl, ⟨_, .unchanged hrow hshown hmanaged hsettled, rfl⟩, rfl⟩

theorem Told.unchanged {apply : Bool} {result : UserRoleReconcileResult}
    (h : Told table apply desired result) (hreached : userRoleState.Reached desired table) :
    result.action = .unchanged := by
  obtain ⟨plan, hplan, haction⟩ := h.planned
  obtain ⟨role, hrow, hsettled⟩ := hreached
  rw [← haction]
  cases hplan with
  | create hnone => cases hnone.symm.trans hrow
  | update hother _ _ hunsettled =>
      obtain rfl := List.singleton_inj.mp (hother.symm.trans hrow)
      exact absurd hsettled hunsettled
  | unchanged _ _ _ _ => rfl

theorem PlanFor.name_ne (h : PlanFor table desired plan) {admin : UserRole}
    (hadmin : admin ∈ table.rows) (hprotected : isProtectedUserRoleId admin.id = true) :
    desired.name ≠ admin.name := by
  intro hname
  have hmem : admin ∈ userRoleState.named desired.name table :=
    List.mem_filter.mpr ⟨hadmin, decide_eq_true hname.symm⟩
  cases h with
  | create hnone =>
      rw [hnone] at hmem
      cases hmem
  | update hrow _ hmanaged _ =>
      rw [hrow, List.mem_singleton] at hmem
      rw [hmem, hmanaged] at hprotected
      cases hprotected
  | unchanged hrow _ hmanaged _ =>
      rw [hrow, List.mem_singleton] at hmem
      rw [hmem, hmanaged] at hprotected
      cases hprotected

end Rules

/-! ## Rounds -/

section Reconciling

variable {Move : Type} (serve : UserRoleServer Move) (invalid : Text) (manifest : UserRoleManifest)

def userRoleReconciler : Reconciler UserRoleCall UserRoleAnswer Move Text UserRoleDesired
    UserRoleReconcileResult UserRole Text where
  state := userRoleState
  serve := serve
  entries := manifest.roles
  planning := planUserRoleManifest invalid manifest
  apply := applyUserRoleReconcilePlan invalid
  PlanFor := PlanFor
  Told := Told

variable {serve}

theorem lawful_userRoleReconciler (hserve : serve.Documented) :
    (userRoleReconciler serve invalid manifest).Lawful where
  names := manifest.distinct
  plans := fun _ => safe_planUserRoleManifest hserve
  dry := PlanFor.told
  applies := fun _ => safe_applyUserRoleReconcilePlan hserve

end Reconciling

/-- A round of `reconcileUserRoleManifest`. -/
abbrev UserRoleRound (Move : Type) := Round Move Text UserRoleReconcileResult Text

section Rounds

variable {Move : Type} {serve : UserRoleServer Move} {invalid : Text} {manifest : UserRoleManifest}
  {start table after : UserRoleTable} {round : UserRoleRound Move}
  {history : List (UserRoleRound Move)} {admin : UserRole}

/-- A round of a manifest that names the Super Admin fails and changes nothing. -/
theorem protected_step (hserve : serve.Documented) (hsound : userRoleState.Sound table)
    (hround : (userRoleReconciler serve invalid manifest).Step table round after)
    (hadmin : admin ∈ table.rows) (hprotected : isProtectedUserRoleId admin.id = true)
    (hnamed : admin.name ∈ manifest.roles.map (·.name)) :
    after = table ∧ ∀ results, round.outcome ≠ some (.ok results) := by
  have hspec := (lawful_userRoleReconciler invalid manifest hserve).spec hsound hround
  obtain ⟨desired, hdesired, hname⟩ := List.mem_map.mp hnamed
  have hunplanned : ¬ ∀ entry ∈ manifest.roles, ∃ plan, PlanFor table entry plan := by
    intro hall
    obtain ⟨plan, hplan⟩ := hall desired hdesired
    exact hplan.name_ne hadmin hprotected hname
  constructor
  · exact hspec.left.planned.resolve_right hunplanned
  · exact fun results hreturned => hunplanned (hspec.returned results hreturned).2.1

/-- The Super Admin stays as it is, and a manifest that names it changes nothing at all. -/
theorem protected_run (hserve : serve.Documented) (hsound : userRoleState.Sound start)
    (hrun : Run (userRoleReconciler serve invalid manifest).Step start history table)
    (hadmin : admin ∈ start.rows) (hprotected : isProtectedUserRoleId admin.id = true) :
    admin ∈ table.rows ∧ (admin.name ∈ manifest.roles.map (·.name) → table = start) := by
  have hlawful := lawful_userRoleReconciler invalid manifest hserve
  by_cases hnamed : admin.name ∈ manifest.roles.map (·.name)
  · suffices hsame : table = start from ⟨hsame ▸ hadmin, fun _ => hsame⟩
    induction hrun with
    | refl => rfl
    | snoc before last ih =>
        rw [ih] at last
        exact (protected_step hserve hsound last hadmin hprotected hnamed).1
  · refine ⟨?_, fun h => absurd h hnamed⟩
    have hrows : userRoleState.named admin.name table = userRoleState.named admin.name start :=
      (hlawful.kept hsound hrun).others admin.name hnamed
    have hmem : admin ∈ userRoleState.named admin.name start :=
      List.mem_filter.mpr ⟨hadmin, decide_eq_true rfl⟩
    rw [← hrows] at hmem
    exact List.mem_of_mem_filter hmem

/-- On a server that stores and shows the permissions it is sent, in whatever order and however
often: in any number of rounds, whatever becomes of their requests, the roles of other names stay
as they are, a managed one is reached or as it was, and the Super Admin is never touched: a
manifest that names it changes nothing and never succeeds. After a round that was applied to
its end each managed role has exactly the permissions that are asked for, and there is nothing
left to do. -/
theorem roles_converge (hserve : serve.Documented) (hsound : userRoleState.Sound start)
    (hhistory : Run (userRoleReconciler serve invalid manifest).Step start history table)
    (hround : (userRoleReconciler serve invalid manifest).Step table round after) :
    userRoleState.Kept manifest.roles start after ∧
      (userRoleReconciler serve invalid manifest).Spec table round after ∧
      (∀ admin ∈ start.rows, isProtectedUserRoleId admin.id = true →
        admin ∈ after.rows ∧ (admin.name ∈ manifest.roles.map (·.name) →
          after = start ∧ ∀ results, round.outcome ≠ some (.ok results))) ∧
      ∀ earlier ∈ history, earlier.applies = true →
        (∃ results, earlier.outcome = some (.ok results)) →
          (∀ desired ∈ manifest.roles, ∃ role,
            userRoleState.named desired.name after = [role] ∧
              ∀ permission, permission ∈ role.permissions ↔ permission ∈ desired.permissions) ∧
            after = table ∧ ∀ results, round.outcome = some (.ok results) →
              ∀ result ∈ results, result.action = .unchanged := by
  have hlawful := lawful_userRoleReconciler invalid manifest hserve
  have hkept := hlawful.kept hsound hhistory
  have hspec := hlawful.spec hkept.sound hround
  refine ⟨hkept.trans (hlawful.kept_step hkept.sound hround), hspec, ?_, ?_⟩
  · intro admin hadmin hprotected
    obtain ⟨hmem, -⟩ := protected_run hserve hsound hhistory hadmin hprotected
    obtain ⟨hstays, hsame⟩ := protected_run hserve hsound (hhistory.snoc hround) hadmin hprotected
    refine ⟨hstays, fun hnamed => ⟨hsame hnamed, ?_⟩⟩
    exact (protected_step hserve hkept.sound hround hmem hprotected hnamed).2
  · rintro earlier hmem happlies ⟨results, hreturned⟩
    have hreached := hlawful.reached hsound hhistory hmem happlies hreturned
    have hsame := hlawful.still hkept.sound hround hreached
    refine ⟨fun desired hdesired => ?_, hsame, fun results hreturned result hresult => ?_⟩
    · obtain ⟨role, hrow, hsettled⟩ := hreached desired hdesired
      exact ⟨role, hsame ▸ hrow, permissionsMatch_iff.mp hsettled⟩
    · obtain ⟨desired, hdesired, htold⟩ :=
        exists_left_of_forall₂ (hspec.returned results hreturned).1 hresult
      exact htold.unchanged (hreached desired hdesired)

end Rounds

/-! ## A server that shuffles permissions -/

/-- What becomes of a request of the sample. -/
inductive SampleMove where
  | answered
  | refused
  | lost (served : Bool)

/-- The sample holds permissions in the opposite order. -/
def UserRoleDesired.held (body : UserRoleDesired) (id : ℤ) : UserRole :=
  ⟨id, body.name, body.permissions.reverse⟩

def shownTwice (role : UserRole) : UserRole :=
  { role with permissions := role.permissions ++ role.permissions }

theorem showsRole_shownTwice (role : UserRole) : ShowsRole role (shownTwice role) :=
  ⟨rfl, rfl, by simp [shownTwice]⟩

theorem stores_held (body : UserRoleDesired) (id : ℤ) : Stores body (body.held id) :=
  ⟨rfl, by simp [UserRoleDesired.held]⟩

/-- The effect of a request that is served. -/
def sampleEffect (table : UserRoleTable) : UserRoleCall → UserRoleTable
  | .list => table
  | .create body => DesiredState.add body.held table
  | .update id body => userRoleState.change id (fun role => body.held role.id) table

theorem done_sampleEffect (table : UserRoleTable) (call : UserRoleCall) :
    call.Done table (sampleEffect table call) := by
  cases call with
  | list => rfl
  | create body => exact ⟨body.held table.next, rfl, stores_held _ _, rfl⟩
  | update id body => exact ⟨fun role => body.held role.id, fun _ _ h => ⟨h, stores_held _ _⟩, rfl⟩

/-- The role that a request is answered with, after its effect. -/
def sampleAnswer (table : UserRoleTable) : UserRoleCall → Reply UserRole
  | .list => .noData
  | .create _ => table.rows.getLast?.elim .noData fun role => .data (shownTwice role)
  | .update id _ =>
      (table.rows.find? fun role => role.id = id).elim .noData fun role => .data (shownTwice role)

/-- A server that lists the newest role first. -/
def sampleRoles : UserRoleServer SampleMove := fun table call move =>
  let after := sampleEffect table call
  match move with
  | .answered =>
      (⟨.ok (.data (after.rows.reverse.map shownTwice)), .ok (sampleAnswer after call)⟩, after)
  | .refused => (⟨.ok (.error "refused"), .ok (.error "refused")⟩, table)
  | .lost served => (⟨.error "reset", .error "reset"⟩, if served then after else table)

theorem documented_sampleRoles : sampleRoles.Documented where
  reads {table move} := by
    cases move with
    | answered => rfl
    | refused => rfl
    | lost served => exact ite_self table
  listed {table move roles} h := by
    cases move with
    | answered =>
        cases h
        exact ⟨shownTwice, showsRole_shownTwice, (List.reverse_perm _).map _⟩
    | refused => cases h
    | lost served => cases h
  written {table call move} := by
    cases move with
    | answered => exact .inl (done_sampleEffect table call)
    | refused => exact .inr ⟨rfl, fun ⟨_, hreply, hne⟩ => hne _ (Except.ok.inj hreply).symm⟩
    | lost served =>
        cases served with
        | true => exact .inl (done_sampleEffect table call)
        | false => exact .inr ⟨rfl, fun ⟨_, hreply, _⟩ => by cases hreply⟩

/-- Permissions that are in order and named once are in their canonical form. -/
theorem canonicalPermissions_of_sorted {permissions : List Text}
    (honce : permissions.eraseDups = permissions)
    (hsorted : permissions.Pairwise fun a b => decide (a ≤ b) = true) :
    canonicalPermissions permissions = permissions := by
  rw [canonicalPermissions, honce]
  exact List.mergeSort_of_pairwise hsorted

def editorRole : UserRoleDesired where
  name := "Editor"
  permissions := ["campaigns:get", "campaigns:manage"]
  named := List.cons_ne_nil _ _
  known := by decide
  canonical := canonicalPermissions_of_sorted (by decide) (by decide)

def viewerRole : UserRoleDesired where
  name := "Viewer"
  permissions := ["campaigns:get"]
  named := List.cons_ne_nil _ _
  known := by decide
  canonical := canonicalPermissions_of_sorted (by decide) (by decide)

def editorsManifest : UserRoleManifest where
  roles := [editorRole, viewerRole]
  nonempty := List.cons_ne_nil _ _
  distinct := by decide

/-- The role that a server starts with. -/
def superAdmin : UserRole := ⟨1, "Super Admin", [("users:manage" : Text)]⟩

/-- A table with the first of the roles, and these permissions. -/
def editorTable (permissions : List Text) : UserRoleTable :=
  ⟨[superAdmin, ⟨2, "Editor", permissions⟩], 3⟩

/-- The role lacks a permission, until the update whose answer is lost. -/
def outdatedRoles : UserRoleTable := editorTable ["campaigns:get"]

def updatedRoles : UserRoleTable := editorTable ["campaigns:manage", "campaigns:get"]

def createdRoles : UserRoleTable :=
  ⟨updatedRoles.rows ++ [⟨3, "Viewer", [("campaigns:get" : Text)]⟩], 4⟩

/-- A round of a manifest, under some moves. -/
def sampleRound (manifest : UserRoleManifest) (applies : Bool) (table : UserRoleTable)
    (moves : List SampleMove) : UserRoleRound SampleMove where
  applies := applies
  moves := moves
  outcome := ((reconcileUserRoleManifest "invalid" manifest applies).run.run sampleRoles table
    moves).1

theorem plan_of_match {candidates : List UserRole} {desired : UserRoleDesired} {role : UserRole}
    {matched : Bool} (hrow : candidates.filter (fun role => role.name = desired.name) = [role])
    (hmanaged : isProtectedUserRoleId role.id = false)
    (hmatch : permissionsMatch role.permissions desired.permissions = matched) :
    planUserRoleFromCandidates candidates desired =
      pure ⟨desired.name, if matched then .unchanged else .update, false, some role⟩ := by
  rw [planUserRoleFromCandidates, hrow]
  simp [hmanaged, hmatch]

/-- A round whose listing is answered goes on with its plans. -/
theorem run_of_planned {table : UserRoleTable} {manifest : UserRoleManifest} {moves : List SampleMove}
    {planned : List (UserRoleDesired × UserRoleReconcileResult)}
    (hparsed : (table.rows.reverse.map shownTwice).mapM (parseUserRole "invalid") =
      .ok (table.rows.reverse.map shownTwice))
    (hplanned : planAll (planUserRoleFromCandidates (table.rows.reverse.map shownTwice))
      manifest.roles = pure planned) :
    (reconcileUserRoleManifest "invalid" manifest true).run.run sampleRoles table
        (.answered :: moves) =
      (applyAll (applyUserRoleReconcilePlan "invalid")
        (fun entry results cause => ReconcileError.applyFailed entry.name results cause) []
        planned).run.run sampleRoles table moves := by
  have hread : (unwrapReceived "Failed to list user roles"
      (sampleRoles table .list .answered).1.listed >>= fun data =>
        data.mapM (parseUserRole "invalid")) = .ok (table.rows.reverse.map shownTwice) := hparsed
  rw [reconcileUserRoleManifest, reconcileAll, planUserRoleManifest, listUserRoles,
    Fallible.adapt_ask_bind, bind_assoc, Fallible.run_ask_bind, hread]
  simp only [Except.mapError, hplanned]
  rfl

theorem run_editors {permissions : List Text} {matched : Bool} (moves : List SampleMove)
    (hmatch : permissionsMatch (permissions ++ permissions) editorRole.permissions = matched) :
    (reconcileUserRoleManifest "invalid" editorsManifest true).run.run sampleRoles
        (editorTable permissions) (.answered :: moves) =
      (applyAll (applyUserRoleReconcilePlan "invalid")
        (fun entry results cause => ReconcileError.applyFailed entry.name results cause) []
        [(editorRole, ⟨"Editor", if matched then .unchanged else .update, false,
            some (shownTwice ⟨2, "Editor", permissions⟩)⟩),
          (viewerRole, ⟨"Viewer", .create, false, none⟩)]).run.run sampleRoles
        (editorTable permissions) moves := by
  refine run_of_planned (by rfl) ?_
  have heditor : planUserRoleFromCandidates ((editorTable permissions).rows.reverse.map shownTwice)
      editorRole = pure ⟨"Editor", if matched then .unchanged else .update, false,
        some (shownTwice ⟨2, "Editor", permissions⟩)⟩ := plan_of_match rfl rfl hmatch
  rw [planAll, editorsManifest, List.mapM_cons, heditor]
  rfl

def lostUpdate : UserRoleRound SampleMove :=
  sampleRound editorsManifest true outdatedRoles [.answered, .lost true]

/-- The rounds after it, the second of which is not applied. -/
def repeatedRound : UserRoleRound SampleMove :=
  sampleRound editorsManifest true updatedRoles [.answered, .answered]

def lastRound : UserRoleRound SampleMove :=
  sampleRound editorsManifest false createdRoles [.answered]

def demotedRole : UserRoleDesired where
  name := "Super Admin"
  permissions := []
  named := List.cons_ne_nil _ _
  known := List.nil_subset _
  canonical := canonicalPermissions_of_sorted rfl .nil

/-- The manifest with this entry. -/
def demotingManifest : UserRoleManifest where
  roles := [editorRole, viewerRole, demotedRole]
  nonempty := List.cons_ne_nil _ _
  distinct := by decide

def demotingRound : UserRoleRound SampleMove :=
  sampleRound demotingManifest true createdRoles [.answered]

/-- The update that seemed to fail is not repeated, the other role is created, and a third round
finds nothing to do. The manifest that names the Super Admin is refused as a whole. -/
theorem roles_converge_lostUpdate :
    lostUpdate.outcome = some (.error (.applyFailed "Editor" [] "reset")) ∧
      (∃ results, repeatedRound.outcome = some (.ok results)) ∧
      (∃ results, lastRound.outcome = some (.ok results) ∧
        ∀ result ∈ results, result.action = .unchanged) ∧
      (∃ message, demotingRound.outcome = some (.error (.thrown message))) ∧
      ∀ results, demotingRound.outcome ≠ some (.ok results) := by
  have hsound : userRoleState.Sound outdatedRoles := by
    constructor
    · decide
    · decide
  have hlacking : permissionsMatch ([("campaigns:get" : Text)] ++ [("campaigns:get" : Text)])
      editorRole.permissions = false := by
    rw [← Bool.not_eq_true, permissionsMatch_iff]
    exact fun h => absurd ((h "campaigns:manage").mpr (by decide)) (by decide)
  have hcomplete : permissionsMatch ([("campaigns:manage" : Text), "campaigns:get"] ++
      [("campaigns:manage" : Text), "campaigns:get"]) editorRole.permissions = true := by
    rw [permissionsMatch_iff]
    intro permission
    simp [editorRole]
    tauto
  have hlost : (userRoleReconciler sampleRoles "invalid" editorsManifest).Step outdatedRoles
      lostUpdate updatedRoles := by
    exact Prod.ext rfl ((congrArg Prod.snd (run_editors [.lost true] hlacking)).trans rfl)
  have hrepeated : (userRoleReconciler sampleRoles "invalid" editorsManifest).Step updatedRoles
      repeatedRound createdRoles := by
    exact Prod.ext rfl ((congrArg Prod.snd (run_editors [.answered] hcomplete)).trans rfl)
  have hlast : (userRoleReconciler sampleRoles "invalid" editorsManifest).Step createdRoles
      lastRound createdRoles := by rfl
  have hdemoting : (userRoleReconciler sampleRoles "invalid" demotingManifest).Step createdRoles
      demotingRound createdRoles := by rfl
  have hconverges := roles_converge documented_sampleRoles hsound
    ((Run.single hlost).snoc hrepeated) hlast
  obtain ⟨results, hresults⟩ : ∃ results, repeatedRound.outcome = some (.ok results) :=
    ⟨_, (congrArg Prod.fst (run_editors [.answered] hcomplete)).trans rfl⟩
  obtain ⟨told, htold⟩ : ∃ results, lastRound.outcome = some (.ok results) := ⟨_, by rfl⟩
  have hrefused := roles_converge documented_sampleRoles hconverges.1.sound
    (Run.single hdemoting) hdemoting
  refine ⟨(congrArg Prod.fst (run_editors [.lost true] hlacking)).trans rfl,
    ⟨results, hresults⟩, ⟨told, htold, ?_⟩, ⟨_, by rfl⟩, ?_⟩
  · exact (hconverges.2.2.2 repeatedRound (by simp) rfl ⟨results, hresults⟩).2.2 told htold
  · exact ((hrefused.2.2.1 superAdmin List.mem_cons_self rfl).2 (by decide)).2

end ListmonkOps.Users
