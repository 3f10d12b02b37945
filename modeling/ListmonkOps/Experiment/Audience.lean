/-
Completeness of the audience.

A consistent server has rows for every list and serves the same rows for the
same page. Against such a server the resolver reads a front of every list, as
many rows as its bound on the pages admits, and either fails or has exactly the
enabled subscribers of those fronts. Rows beyond the bound are never asked for.
-/

import ListmonkOps.Experiment.FilledLists

namespace ListmonkOps.Experiment

open ListmonkOps.Math ListmonkOps.Runtime

/-! ## A consistent server -/

/-- The server that serves the same rows of a list for a page whenever it is asked. -/
def consistentServer (rows : ℤ → List JsValue) : Call → Answer
  | .subscriberList listId page (some pageSize) =>
      .returned (.object [("data", .object [("results", .array
        (((rows listId).drop ((page - 1) * pageSize)).take pageSize))])])
  | _ => .returned (.object [])

/-- What resolving against such a server comes to. -/
def resolvedFrom [AssignmentPlatform] (rows : ℤ → List JsValue) (pageSize : ℕ)
    (sourceListIds : List ℤ) (now : ℤ) : Except JsValue (AudienceSnapshot × List AudienceMember) :=
  Program.eval (consistentServer rows) (resolveAudienceBy pageSize sourceListIds now).run

/-- The rows of the lists that the bound on the pages admits. -/
def servedRows (rows : ℤ → List JsValue) (pageSize : ℕ) (listIds : List ℤ) : List JsValue :=
  listIds.flatMap fun listId => (rows listId).take (maxAudiencePages * pageSize)

/-! ## Rows -/

/-- The status of the subscriber is `"enabled"`. -/
def Enabled (row : JsValue) : Prop := row.property? "status" = .string "enabled"

/-- The row has the id and the UUID of the member. -/
def Names (row : JsValue) (member : AudienceMember) : Prop :=
  row.property? "id" = .number member.subscriberId ∧
    row.property? "uuid" = .string member.subscriberUuid

theorem Names.unique {row : JsValue} {a b : AudienceMember} (ha : Names row a) (hb : Names row b) :
    a = b := by
  obtain ⟨id, uuid⟩ := a
  obtain ⟨id', uuid'⟩ := b
  obtain rfl : id = id' := JsValue.number.inj (ha.1.symm.trans hb.1)
  obtain rfl : uuid = uuid' := JsValue.string.inj (ha.2.symm.trans hb.2)
  rfl

/-- Two members that share an id or a UUID but not both. -/
def Conflicts (a b : AudienceMember) : Prop :=
  a ≠ b ∧ (a.subscriberId = b.subscriberId ∨ a.subscriberUuid = b.subscriberUuid)

/-- A row that cannot be read, or of an enabled subscriber without an identity. -/
def Malformed (row : JsValue) : Prop :=
  row = .undefined ∨ row = .null ∨
    Enabled row ∧ ∀ member, Names row member → member.subscriberUuid = []

/-- Rows that do not describe one table of subscribers: one of them cannot be read, or two of them
take one id or one UUID for different people. -/
def Inconsistent (rows : List JsValue) : Prop :=
  (∃ row ∈ rows, Malformed row) ∨
    ∃ row ∈ rows, ∃ row' ∈ rows, Enabled row ∧ Enabled row' ∧
      ∃ a b, Names row a ∧ Names row' b ∧ Conflicts a b

theorem Inconsistent.mono {rows more : List JsValue} (h : Inconsistent rows) (hsub : rows ⊆ more) :
    Inconsistent more := by
  rcases h with ⟨row, hrow, hmalformed⟩ | ⟨row, hrow, row', hrow', h⟩
  · exact .inl ⟨row, hsub hrow, hmalformed⟩
  · exact .inr ⟨row, hsub hrow, row', hsub hrow', h⟩

/-! ## Taking a row into the audience -/

/-- The members are those of the enabled rows seen so far, once each. -/
structure Collected (seen : List JsValue) (members : List AudienceMember) : Prop where
  consistent : ¬Inconsistent seen
  distinct : DistinctMembers members
  complete : ∀ row ∈ seen, Enabled row → ∃ member ∈ members, Names row member
  sound : ∀ member ∈ members, ∃ row ∈ seen, Enabled row ∧ Names row member

theorem Collected.nil : Collected [] [] :=
  ⟨by simp [Inconsistent], .nil, by simp, by simp⟩

variable {seen : List JsValue} {members members' : List AudienceMember} {row : JsValue}
  {member : AudienceMember}

theorem collectSubscriber_unreadable (h : row = .undefined ∨ row = .null) :
    ∃ error, collectSubscriber members row = .error error := by
  rcases h with rfl | rfl <;> exact ⟨_, rfl⟩

theorem property_of_readable (hreadable : ¬(row = .undefined ∨ row = .null)) (name : Text) :
    row.property name = .ok (row.property? name) := by
  cases row <;> simp [JsValue.property, JsValue.property?] at hreadable ⊢

theorem collectSubscriber_disabled (hreadable : ¬(row = .undefined ∨ row = .null))
    (h : ¬Enabled row) : collectSubscriber members row = .ok members := by
  rw [collectSubscriber, property_of_readable hreadable, except_ok_bind]
  split
  · next status hstatus =>
      rw [if_pos]
      · rfl
      · rintro rfl
        exact h hstatus
  · rfl

/-- The row of an enabled subscriber: it is refused without an identity or where
the identity conflicts with a member, and else taken once. -/
theorem collectSubscriber_enabled (members : List AudienceMember) (h : Enabled row) :
    ((∀ member, Names row member → member.subscriberUuid = []) ∧
        ∃ error, collectSubscriber members row = .error error) ∨
      ∃ member, Names row member ∧ member.subscriberUuid ≠ [] ∧
        ((∃ other ∈ members, Conflicts member other) ∧
            (∃ error, collectSubscriber members row = .error error) ∨
          (∀ other ∈ members, ¬Conflicts member other) ∧
            collectSubscriber members row =
              .ok (if members.any (·.subscriberUuid = member.subscriberUuid) then members
                else members ++ [member])) := by
  have hreadable : ¬(row = .undefined ∨ row = .null) := by
    rintro (rfl | rfl) <;> cases h
  have hstatus : row.property "status" = .ok (.string "enabled") := by
    rw [property_of_readable hreadable, h]
  simp only [collectSubscriber, hstatus, except_ok_bind]
  rw [if_neg (not_not.mpr rfl)]
  split
  · next id uuid hid huuid =>
      by_cases hempty : uuid = []
      · left
        rw [if_pos hempty]
        exact ⟨fun member hnames => (JsValue.string.inj (hnames.2.symm.trans huuid)).trans hempty,
          _, rfl⟩
      · right
        refine ⟨⟨id, uuid⟩, ⟨hid, huuid⟩, hempty, ?_⟩
        rw [if_neg hempty]
        split
        · next previous hprevious =>
            left
            have hmem := List.mem_of_find?_eq_some hprevious
            have hfound := List.find?_some hprevious
            simp only [Bool.and_eq_true, decide_eq_true_eq] at hfound
            exact ⟨⟨previous, hmem, fun heq => hfound.2 (heq ▸ rfl), .inr hfound.1.symm⟩, _, rfl⟩
        · next huuids =>
            split
            · next previous hprevious =>
                left
                have hmem := List.mem_of_find?_eq_some hprevious
                have hfound := List.find?_some hprevious
                simp only [Bool.and_eq_true, decide_eq_true_eq] at hfound
                exact ⟨⟨previous, hmem, fun heq => hfound.2 (heq ▸ rfl), .inl hfound.1.symm⟩, _, rfl⟩
            · next hids =>
                right
                simp only [List.find?_eq_none, Bool.and_eq_true, decide_eq_true_eq, not_and,
                  not_not] at huuids hids
                refine ⟨fun other hother hconflict => hconflict.1 ?_, ?_⟩
                · rcases hconflict.2 with hsame | hsame
                  · exact congrArg₂ AudienceMember.mk hsame (hids other hother hsame.symm).symm
                  · exact congrArg₂ AudienceMember.mk (huuids other hother hsame.symm).symm hsame
                · split_ifs <;> rfl
  · next hidentity =>
      left
      exact ⟨fun member hnames => absurd hnames.2 (hidentity _ _ hnames.1), _, rfl⟩

/-- A further row that adds nothing to be refused keeps the rows consistent. -/
theorem consistent_concat (hconsistent : ¬Inconsistent seen) (hrow : ¬Malformed row)
    (hconflict : ∀ other ∈ seen, ∀ a b, Enabled row → Enabled other → Names row a →
      Names other b → ¬Conflicts a b) : ¬Inconsistent (seen ++ [row]) := by
  have hcases : ∀ r ∈ seen ++ [row], r ∈ seen ∨ r = row := by simp
  have hself {r : JsValue} {a b : AudienceMember} (ha : Names r a) (hb : Names r b) :
      ¬Conflicts a b := fun h => h.1 (ha.unique hb)
  rintro (⟨r, hr, hmalformed⟩ | ⟨r, hr, r', hr', hr_enabled, hr'_enabled, a, b, ha, hb, hab⟩)
  · rcases hcases r hr with hr | rfl
    · exact hconsistent (.inl ⟨r, hr, hmalformed⟩)
    · exact hrow hmalformed
  · rcases hcases r hr with hin | rfl <;> rcases hcases r' hr' with hin' | rfl
    · exact hconsistent (.inr ⟨r, hin, r', hin', hr_enabled, hr'_enabled, a, b, ha, hb, hab⟩)
    · exact hconflict r hin b a hr'_enabled hr_enabled hb ha
        ⟨hab.1.symm, hab.2.imp Eq.symm Eq.symm⟩
    · exact hconflict r' hin' a b hr_enabled hr'_enabled ha hb hab
    · exact hself ha hb hab

/-- One row: it is refused exactly when it makes the rows inconsistent. -/
theorem Collected.step (h : Collected seen members) (row : JsValue) :
    Inconsistent (seen ++ [row]) ∧ (∃ error, collectSubscriber members row = .error error) ∨
      ∃ members', collectSubscriber members row = .ok members' ∧
        Collected (seen ++ [row]) members' := by
  have hlast : row ∈ seen ++ [row] := by simp
  by_cases hreadable : row = .undefined ∨ row = .null
  · refine .inl ⟨.inl ⟨row, hlast, ?_⟩, collectSubscriber_unreadable hreadable⟩
    exact hreadable.imp id fun hnull => .inl hnull
  by_cases henabled : Enabled row
  · rcases collectSubscriber_enabled members henabled with ⟨hnone, herror⟩ |
      ⟨member, hnames, huuid, ⟨⟨other, hother, hconflict⟩, herror⟩ | ⟨hfree, hcollect⟩⟩
    · exact .inl ⟨.inl ⟨row, hlast, .inr (.inr ⟨henabled, hnone⟩)⟩, herror⟩
    · obtain ⟨row', hrow', henabled', hnames'⟩ := h.sound other hother
      exact .inl ⟨.inr ⟨row, hlast, row', List.mem_append_left _ hrow', henabled, henabled',
        member, other, hnames, hnames', hconflict⟩, herror⟩
    · refine .inr ⟨_, hcollect, ?_, h.distinct.collectSubscriber hcollect, ?_, ?_⟩
      · refine consistent_concat h.consistent ?_ ?_
        · rintro (hrow | hrow | ⟨-, hnone⟩)
          · exact hreadable (.inl hrow)
          · exact hreadable (.inr hrow)
          · exact huuid (hnone member hnames)
        · intro row' hrow' a b _ henabled' ha hb
          obtain ⟨other, hother, hnames'⟩ := h.complete row' hrow' henabled'
          rw [ha.unique hnames, hb.unique hnames']
          exact hfree other hother
      · intro row' hrow' henabled'
        rcases List.mem_append.mp hrow' with hrow' | hrow'
        · obtain ⟨other, hother, hnames'⟩ := h.complete row' hrow' henabled'
          refine ⟨other, ?_, hnames'⟩
          split_ifs
          · exact hother
          · exact List.mem_append_left _ hother
        · rw [List.mem_singleton.mp hrow']
          refine ⟨member, ?_, hnames⟩
          split_ifs with hthere
          · -- a member with this UUID that does not conflict is this member
            obtain ⟨other, hother, hsame⟩ := List.any_eq_true.mp hthere
            by_cases heq : member = other
            · exact heq ▸ hother
            · exact absurd ⟨heq, .inr (of_decide_eq_true hsame).symm⟩ (hfree other hother)
          · simp
      · intro other hother
        have hcases : other ∈ members ∨ other = member := by
          split_ifs at hother
          · exact .inl hother
          · simpa using hother
        rcases hcases with hold | rfl
        · obtain ⟨row', hrow', h'⟩ := h.sound other hold
          exact ⟨row', List.mem_append_left _ hrow', h'⟩
        · exact ⟨row, hlast, henabled, hnames⟩
  · refine .inr ⟨members, collectSubscriber_disabled hreadable henabled, ?_, h.distinct, ?_, ?_⟩
    · refine consistent_concat h.consistent ?_ fun _ _ _ _ h' => absurd h' henabled
      rintro (hrow | hrow | ⟨h', -⟩)
      · exact hreadable (.inl hrow)
      · exact hreadable (.inr hrow)
      · exact henabled h'
    · intro row' hrow' henabled'
      rcases List.mem_append.mp hrow' with hrow' | hrow'
      · exact h.complete row' hrow' henabled'
      · exact absurd (List.mem_singleton.mp hrow' ▸ henabled') henabled
    · intro other hother
      obtain ⟨row', hrow', h'⟩ := h.sound other hother
      exact ⟨row', List.mem_append_left _ hrow', h'⟩

/-- All rows: they are refused exactly when they are inconsistent. -/
theorem Collected.rows (h : Collected seen members) (rows : List JsValue) :
    Inconsistent (seen ++ rows) ∧ (∃ error, rows.foldlM collectSubscriber members = .error error) ∨
      ∃ members', rows.foldlM collectSubscriber members = .ok members' ∧
        Collected (seen ++ rows) members' := by
  induction rows generalizing seen members with
  | nil => exact .inr ⟨members, rfl, by rwa [List.append_nil]⟩
  | cons row rows ih =>
      rw [List.foldlM_cons]
      rcases h.step row with ⟨hinconsistent, error, herror⟩ | ⟨members', hcollect, h'⟩
      · refine .inl ⟨hinconsistent.mono ?_, error, by rw [herror]; rfl⟩
        exact List.append_subset.mpr ⟨List.subset_append_left _ _,
          List.subset_append_of_subset_right _ (by simp)⟩
      · have hrest := ih h'
        rw [List.append_assoc, List.singleton_append] at hrest
        rw [hcollect]
        exact hrest

/-! ## Reading the pages -/

section Reading

variable {rows : ℤ → List JsValue} {pageSize : ℕ} {listId : ℤ}

theorem eval_await_readPage {β : Type} (page : ℕ) (f : List JsValue → Remote β) :
    Program.eval (consistentServer rows) (await (.subscriberList listId (page + 1)
        (some pageSize)) >>= fun response => ofExcept (readPage listId (page + 1) response) >>= f).run =
      Program.eval (consistentServer rows)
        (f (((rows listId).drop (page * pageSize)).take pageSize)).run := rfl

theorem eval_ofExcept_bind {α β : Type} {answers : Call → Answer} {outcome : Except JsValue α}
    {f : α → Remote β} : Program.eval answers (ofExcept outcome >>= f).run =
      (outcome >>= fun a => Program.eval answers (f a).run) := by
  cases outcome <;> rfl

/-- Against a consistent server the loop takes in the rows its bound admits. -/
theorem eval_resolvePages (fuel page emptyPages : ℕ) (members : List AudienceMember) :
    Program.eval (consistentServer rows)
        (resolvePages pageSize listId fuel (page + 1) emptyPages members).run =
      (((rows listId).drop (page * pageSize)).take (fuel * pageSize)).foldlM collectSubscriber
        members := by
  induction fuel generalizing page emptyPages members with
  | zero =>
      rw [Nat.zero_mul, List.take_zero]
      rfl
  | succ fuel ih =>
      have hnext : ((rows listId).drop ((page + 1) * pageSize)) =
          ((rows listId).drop (page * pageSize)).drop pageSize := by
        rw [List.drop_drop, Nat.succ_mul]
      have hsplit : (((rows listId).drop (page * pageSize)).take ((fuel + 1) * pageSize)) =
          ((rows listId).drop (page * pageSize)).take pageSize ++
            ((rows listId).drop ((page + 1) * pageSize)).take (fuel * pageSize) := by
        rw [hnext, Nat.succ_mul, Nat.add_comm, List.take_add]
      rw [resolvePages, eval_await_readPage, hsplit]
      set subscribers := ((rows listId).drop (page * pageSize)).take pageSize with hsubscribers
      -- after a page that is not full nothing is left
      have hlast : subscribers.length < pageSize →
          ((rows listId).drop ((page + 1) * pageSize)).take (fuel * pageSize) = [] := by
        intro hshort
        rw [hsubscribers, List.length_take] at hshort
        rw [hnext, List.drop_eq_nil_of_le (by omega), List.take_nil]
      by_cases hempty : subscribers = []
      · rw [hempty, List.isEmpty_nil, if_pos rfl, List.nil_append]
        have hrest : ((rows listId).drop ((page + 1) * pageSize)).take (fuel * pageSize) = [] := by
          rcases Nat.eq_zero_or_pos pageSize with rfl | hpos
          · rw [Nat.mul_zero, List.take_zero]
          · exact hlast (by rw [hempty]; exact hpos)
        split_ifs
        · rw [hrest]
          rfl
        · exact ih (page + 1) (emptyPages + 1) members
      · rw [if_neg (by simpa using hempty), eval_ofExcept_bind, List.foldlM_append]
        congr 1
        funext collected
        split_ifs with hshort
        · rw [hlast hshort]
          rfl
        · exact ih (page + 1) 0 collected

theorem eval_resolveLists (listIds : List ℤ) (members : List AudienceMember) :
    Program.eval (consistentServer rows) (resolveLists pageSize listIds members).run =
      (servedRows rows pageSize listIds).foldlM collectSubscriber members := by
  induction listIds generalizing members with
  | nil => rfl
  | cons listId listIds ih =>
      rw [resolveLists, Fallible.eval_bind, eval_resolvePages, servedRows, List.flatMap_cons,
        List.foldlM_append, Nat.zero_mul, List.drop_zero]
      congr 1
      funext collected
      exact ih collected

end Reading

/-! ## The resolved audience -/

section Resolution

variable [AssignmentPlatform] {rows : ℤ → List JsValue} {pageSize : ℕ} {sourceListIds : List ℤ}
  {now : ℤ}

omit [AssignmentPlatform] in
theorem mem_sourceLists {listId : ℤ} :
    listId ∈ sourceLists sourceListIds ↔ listId ∈ sourceListIds ∧ 0 < listId := by
  rw [sourceLists, List.mem_mergeSort, List.mem_filter, List.mem_eraseDups, decide_eq_true_eq]

/-- The audience is what the rows of the lists say it is. -/
structure ResolvesExactly (rows : ℤ → List JsValue) (sourceListIds : List ℤ)
    (snapshot : AudienceSnapshot) (members : List AudienceMember) : Prop where
  /-- Every enabled subscriber of the lists is there. -/
  complete : ∀ listId ∈ sourceListIds, 0 < listId → ∀ row ∈ rows listId, Enabled row →
    ∃ member ∈ members, Names row member
  /-- Nobody else is. -/
  sound : ∀ member ∈ members, ∃ listId ∈ sourceListIds, ∃ row ∈ rows listId,
    Enabled row ∧ Names row member
  /-- Each is there once. -/
  distinct : DistinctMembers members
  count : snapshot.subscriberCount = members.length
  /-- The checksum depends on the set of the UUIDs only. -/
  checksum : ∀ uuids : List Text, uuids.Nodup →
    (∀ uuid, uuid ∈ uuids ↔ ∃ member ∈ members, member.subscriberUuid = uuid) →
      snapshot.subscriberChecksum = groupChecksum uuids

/-- Every enabled row of the lists is of a subscriber with an enabled row among those read. -/
def Covered (rows : ℤ → List JsValue) (pageSize : ℕ) (sourceListIds : List ℤ) : Prop :=
  ∀ listId ∈ sourceListIds, 0 < listId → ∀ row ∈ rows listId, Enabled row →
    ∃ row' ∈ servedRows rows pageSize (sourceLists sourceListIds), Enabled row' ∧
      ∃ member, Names row member ∧ Names row' member

/-- Resolution fails exactly where the rows read are inconsistent, and else collects them. -/
theorem resolvedFrom_cases (rows : ℤ → List JsValue) (pageSize : ℕ) (now : ℤ)
    (hlists : sourceLists sourceListIds ≠ []) :
    Inconsistent (servedRows rows pageSize (sourceLists sourceListIds)) ∧
        (∃ error, resolvedFrom rows pageSize sourceListIds now = .error error) ∨
      ∃ members, Collected (servedRows rows pageSize (sourceLists sourceListIds)) members ∧
        resolvedFrom rows pageSize sourceListIds now =
          .ok ({ capturedAt := { time := now }
                 sourceListIds := sourceLists sourceListIds
                 subscriberCount := members.length
                 subscriberChecksum := groupChecksum (members.map (·.subscriberUuid)) },
            members) := by
  have heval : resolvedFrom rows pageSize sourceListIds now =
      ((servedRows rows pageSize (sourceLists sourceListIds)).foldlM collectSubscriber [] >>=
        fun members => .ok
          ({ capturedAt := { time := now }
             sourceListIds := sourceLists sourceListIds
             subscriberCount := members.length
             subscriberChecksum := groupChecksum (members.map (·.subscriberUuid)) },
            members)) := by
    rw [resolvedFrom, resolveAudienceBy, if_neg hlists, Fallible.eval_bind, eval_resolveLists]
    rfl
  rw [heval]
  rcases Collected.nil.rows (servedRows rows pageSize (sourceLists sourceListIds)) with
    ⟨hinconsistent, error, herror⟩ | ⟨members, hmembers, hcollected⟩
  · exact .inl ⟨hinconsistent, error, by rw [herror]; rfl⟩
  · exact .inr ⟨members, hcollected, by rw [hmembers]; rfl⟩

theorem resolvedFrom_nil (rows : ℤ → List JsValue) (pageSize : ℕ) (now : ℤ)
    (hlists : sourceLists sourceListIds = []) :
    ∃ error, resolvedFrom rows pageSize sourceListIds now = .error error := by
  rw [resolvedFrom, resolveAudienceBy, if_pos hlists]
  exact ⟨_, rfl⟩

theorem Collected.resolvesExactly {members : List AudienceMember} {snapshot : AudienceSnapshot}
    (h : Collected (servedRows rows pageSize (sourceLists sourceListIds)) members)
    (hcovered : Covered rows pageSize sourceListIds)
    (hcount : snapshot.subscriberCount = members.length)
    (hchecksum : snapshot.subscriberChecksum = groupChecksum (members.map (·.subscriberUuid))) :
    ResolvesExactly rows sourceListIds snapshot members where
  complete listId hlist hpos row hrow henabled := by
    obtain ⟨row', hrow', henabled', member, hnames, hnames'⟩ :=
      hcovered listId hlist hpos row hrow henabled
    obtain ⟨member', hmember', hnames''⟩ := h.complete row' hrow' henabled'
    exact ⟨member', hmember', hnames''.unique hnames' ▸ hnames⟩
  sound member hmember := by
    obtain ⟨row, hrow, h'⟩ := h.sound member hmember
    obtain ⟨listId, hlist, hrow⟩ := List.mem_flatMap.mp hrow
    exact ⟨listId, (mem_sourceLists.mp hlist).1, row, List.mem_of_mem_take hrow, h'⟩
  distinct := h.distinct
  count := hcount
  checksum uuids hnodup hsame := by
    rw [hchecksum]
    refine groupChecksum_eq_of_perm ((List.perm_ext_iff_of_nodup h.distinct.uuids hnodup).mpr ?_)
    intro uuid
    rw [List.mem_map, hsame]

/-- Rows that hold nothing inconsistent resolve completely exactly where they cover the
lists. -/
theorem resolve_covered_iff {rows : ℤ → List JsValue} {pageSize : ℕ} {sourceListIds : List ℤ}
    (now : ℤ) (hlists : sourceLists sourceListIds ≠ [])
    (hconsistent : ¬Inconsistent (servedRows rows pageSize (sourceLists sourceListIds))) :
    (∀ snapshot members, resolvedFrom rows pageSize sourceListIds now = .ok (snapshot, members) →
        ResolvesExactly rows sourceListIds snapshot members) ↔
      Covered rows pageSize sourceListIds := by
  rcases resolvedFrom_cases rows pageSize now hlists with
    ⟨hinconsistent, -⟩ | ⟨members, hcollected, hok⟩
  · exact absurd hinconsistent hconsistent
  constructor
  · intro hexact listId hlist hpos row hrow henabled
    obtain ⟨member, hmember, hnames⟩ :=
      (hexact _ _ hok).complete listId hlist hpos row hrow henabled
    obtain ⟨row', hrow', henabled', hnames'⟩ := hcollected.sound member hmember
    exact ⟨row', hrow', henabled', member, hnames, hnames'⟩
  · intro hcovered snapshot members' hok'
    rw [hok] at hok'
    obtain ⟨rfl, rfl⟩ := Prod.mk.inj (Except.ok.inj hok')
    exact hcollected.resolvesExactly hcovered rfl rfl

/-- Resolution is complete or fails exactly where the rows that are read cover the
lists or are inconsistent themselves. -/
theorem resolve_complete_iff (rows : ℤ → List JsValue) (pageSize : ℕ) (sourceListIds : List ℤ)
    (now : ℤ) :
    (∀ snapshot members, resolvedFrom rows pageSize sourceListIds now = .ok (snapshot, members) →
        ResolvesExactly rows sourceListIds snapshot members) ↔
      Covered rows pageSize sourceListIds ∨
        Inconsistent (servedRows rows pageSize (sourceLists sourceListIds)) := by
  by_cases hlists : sourceLists sourceListIds = []
  · obtain ⟨error, herror⟩ := resolvedFrom_nil rows pageSize now hlists
    refine iff_of_true (fun _ _ hok => ?_) (.inl fun listId hlist hpos => ?_)
    · rw [herror] at hok
      cases hok
    · have hmem := mem_sourceLists.mpr ⟨hlist, hpos⟩
      rw [hlists] at hmem
      cases hmem
  by_cases hinconsistent : Inconsistent (servedRows rows pageSize (sourceLists sourceListIds))
  · refine iff_of_true (fun _ _ hok => ?_) (.inr hinconsistent)
    rcases resolvedFrom_cases rows pageSize now hlists with ⟨-, error, herror⟩ | ⟨_, hcollected, -⟩
    · rw [herror] at hok
      cases hok
    · exact absurd hinconsistent hcollected.consistent
  · rw [or_iff_left hinconsistent]
    exact resolve_covered_iff now hlists hinconsistent

end Resolution

/-! ## A list longer than the bound -/

/-- An enabled subscriber for every number. -/
def numberedRow (n : ℕ) : JsValue :=
  .object [("id", .number n), ("uuid", .string (Text.ofNat n)), ("status", .string "enabled")]

theorem enabled_numberedRow (n : ℕ) : Enabled (numberedRow n) := rfl

theorem names_numberedRow {n : ℕ} {member : AudienceMember} :
    Names (numberedRow n) member ↔ (⟨n, Text.ofNat n⟩ : AudienceMember) = member := by
  have hnames : Names (numberedRow n) ⟨n, Text.ofNat n⟩ := ⟨rfl, rfl⟩
  exact ⟨hnames.unique, fun h => h ▸ hnames⟩

theorem consistent_numberedRows (numbers : List ℕ) :
    ¬Inconsistent (numbers.map numberedRow) := by
  rintro (⟨row, hrow, hmalformed⟩ | ⟨row, hrow, row', hrow', -, -, a, b, ha, hb, hconflict⟩)
  · obtain ⟨n, -, rfl⟩ := List.mem_map.mp hrow
    rcases hmalformed with h | h | ⟨-, hnone⟩
    · cases h
    · cases h
    · exact ofNat_ne_nil n (hnone ⟨n, Text.ofNat n⟩ (names_numberedRow.mpr rfl))
  · obtain ⟨n, -, rfl⟩ := List.mem_map.mp hrow
    obtain ⟨k, -, rfl⟩ := List.mem_map.mp hrow'
    obtain rfl := names_numberedRow.mp ha
    obtain rfl := names_numberedRow.mp hb
    have hsame : n = k := hconflict.2.elim (fun h => by simpa using h) fun h =>
      Text.ofNat_injective h
    exact hconflict.1 (by rw [hsame])

section LongList

variable [AssignmentPlatform]

/-- More subscribers than the bound admits: the rest is left out and nothing fails. -/
theorem longList_truncated {pageSize n : ℕ} (hn : maxAudiencePages * pageSize < n) (now : ℤ) :
    ¬∀ snapshot members, resolvedFrom (fun _ => (List.range n).map numberedRow) pageSize [1] now =
        .ok (snapshot, members) →
      ResolvesExactly (fun _ => (List.range n).map numberedRow) [1] snapshot members := by
  have hserved (listIds : List ℤ) : servedRows (fun _ => (List.range n).map numberedRow) pageSize
      listIds = (listIds.flatMap fun _ => List.range (maxAudiencePages * pageSize)).map
        numberedRow := by
    rw [servedRows, List.map_flatMap]
    congr 1
    funext _
    rw [← List.map_take, List.take_range, min_eq_left hn.le]
  have hconsistent := consistent_numberedRows
    ((sourceLists [1]).flatMap fun _ => List.range (maxAudiencePages * pageSize))
  rw [← hserved] at hconsistent
  have hlists : sourceLists [1] ≠ [] :=
    List.ne_nil_of_mem (mem_sourceLists.mpr ⟨List.mem_singleton_self 1, by decide⟩)
  rw [resolve_covered_iff now hlists hconsistent]
  intro hcovered
  obtain ⟨row', hrow', -, member, hnames, hnames'⟩ :=
    hcovered 1 (by simp) (by decide) (numberedRow (maxAudiencePages * pageSize))
      (List.mem_map_of_mem (List.mem_range.mpr hn)) (enabled_numberedRow _)
  rw [hserved] at hrow'
  obtain ⟨k, hk, rfl⟩ := List.mem_map.mp hrow'
  obtain ⟨_, -, hk⟩ := List.mem_flatMap.mp hk
  have hsame := (names_numberedRow.mp hnames').trans (names_numberedRow.mp hnames).symm
  rw [List.mem_range] at hk
  exact hk.ne (Int.ofNat_inj.mp (congrArg AudienceMember.subscriberId hsame))

end LongList

/-- A list of five million and one subscribers, read by pages of the default size. -/
theorem longList_truncated_default :
    letI := samplePlatform
    ¬∀ snapshot members,
      resolvedFrom (fun _ => (List.range 5000001).map numberedRow) audiencePageSize [1] 0 =
          .ok (snapshot, members) →
        ResolvesExactly (fun _ => (List.range 5000001).map numberedRow) [1] snapshot members := by
  let := samplePlatform
  have hbound : maxAudiencePages * audiencePageSize < 5000001 := by
    norm_num [maxAudiencePages, audiencePageSize]
  exact longList_truncated hbound 0

end ListmonkOps.Experiment
