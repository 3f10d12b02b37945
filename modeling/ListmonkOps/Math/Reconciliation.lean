/-
Reconciling a table with what is desired.

A round plans every entry against the table, and then works them off one by one, if it is
to be applied at all. Rounds may be cut off, fail and be repeated. What they leave of the table is
worked out here once, from what one plan says and from what applying it does.
-/

import ListmonkOps.Math.DesiredState
import ListmonkOps.Math.PlanApply
import ListmonkOps.Math.Run

namespace ListmonkOps.Math

variable {C A R ε D π Row κ : Type}

/-- How a round fails: before anything was worked off, or at an entry. -/
inductive ReconcileError (κ π ε : Type) where
  | thrown (cause : ε)
  | applyFailed (failed : κ) (appliedResults : List π) (cause : ε)
  deriving DecidableEq

/-- Plan all entries, and work them off where the plans are to be applied. -/
def reconcileAll (wanted : D → κ) (planning : Fallible C A ε (List (D × π)))
    (apply : D → π → Fallible C A ε π) (applies : Bool) :
    Fallible C A (ReconcileError κ π ε) (List π) := do
  let planned ← ExceptT.adapt .thrown planning
  if applies then
    applyAll apply (fun entry results cause => .applyFailed (wanted entry) results cause) [] planned
  else
    pure (planned.map Prod.snd)

/-- A round: whether it is applied, what becomes of its requests, and what it ends with,
unless it is cut off. -/
structure Round (R κ π ε : Type) where
  applies : Bool
  moves : List R
  outcome : Option (Except (ReconcileError κ π ε) (List π))

/-- What is reconciled, and how: the plans of a table's entries, and what is told of an entry
when plans are applied or not. -/
structure Reconciler (C A R ε D π Row κ : Type) where
  state : DesiredState Row D κ
  serve : NumberedTable Row → C → R → A × NumberedTable Row
  entries : List D
  planning : Fallible C A ε (List (D × π))
  apply : D → π → Fallible C A ε π
  PlanFor : NumberedTable Row → D → π → Prop
  Told : NumberedTable Row → Bool → D → π → Prop

namespace Reconciler

variable [DecidableEq κ] (m : Reconciler C A R ε D π Row κ)

/-- What makes a reconciler work: plans change nothing and are as they say, and applying one
works its entry off, at once or not at all. -/
structure Lawful : Prop where
  names : (m.entries.map m.state.wanted).Nodup
  plans : ∀ {table : NumberedTable Row}, m.state.Sound table →
    Fallible.Safe m.serve (· = table) m.planning
      (fun planned after => after = table ∧ planned.map Prod.fst = m.entries ∧
        ∀ entry ∈ planned, m.PlanFor table entry.1 entry.2)
      (fun _ _ => True) table
  dry : ∀ {table : NumberedTable Row} {entry : D} {plan : π}, m.PlanFor table entry plan →
    m.Told table false entry plan
  applies : ∀ {table current : NumberedTable Row} {done : List D} {entry : D} {plan : π},
    entry ∈ m.entries → m.PlanFor table entry plan → m.state.Progress table done current →
      m.state.wanted entry ∉ done.map m.state.wanted →
        Fallible.Safe m.serve
          (fun after => m.state.Progress table done after ∨
            m.state.Progress table (done ++ [entry]) after)
          (m.apply entry plan)
          (fun result after => m.state.Progress table (done ++ [entry]) after ∧
            m.Told table true entry result)
          (fun _ _ => True) current

/-- A round takes the table where its requests leave it. -/
def Step (table : NumberedTable Row) (round : Round R κ π ε) (after : NumberedTable Row) : Prop :=
  (reconcileAll m.state.wanted m.planning m.apply round.applies).run.run m.serve table round.moves =
    (round.outcome, after)

/-- What a round leaves behind at any moment: some entries are worked off, none of them unless
the round is applied and every entry has a plan. -/
structure Left (applies : Bool) (table after : NumberedTable Row) : Prop where
  progress : ∃ done, done <+: m.entries ∧ m.state.Progress table done after
  dry : applies = false → after = table
  planned : after = table ∨ ∀ entry ∈ m.entries, ∃ plan, m.PlanFor table entry plan

/-- What a round tells: one that throws before it applies has changed nothing, a failure names
what was done, and results speak of every entry in order. -/
structure Spec (table : NumberedTable Row) (round : Round R κ π ε) (after : NumberedTable Row) :
    Prop where
  left : m.Left round.applies table after
  thrown : ∀ cause, round.outcome = some (.error (.thrown cause)) → after = table
  failed : ∀ failed appliedResults cause,
    round.outcome = some (.error (.applyFailed failed appliedResults cause)) →
      ∃ done entry rest, m.entries = done ++ entry :: rest ∧ failed = m.state.wanted entry ∧
        List.Forall₂ (m.Told table true) done appliedResults ∧
        (m.state.Progress table done after ∨ m.state.Progress table (done ++ [entry]) after)
  returned : ∀ results, round.outcome = some (.ok results) →
    List.Forall₂ (m.Told table round.applies) m.entries results ∧
      (∀ entry ∈ m.entries, ∃ plan, m.PlanFor table entry plan) ∧
      (round.applies = true → m.state.Progress table m.entries after)

variable {m} {table after start : NumberedTable Row} {round : Round R κ π ε}
variable {history : List (Round R κ π ε)}

theorem Lawful.waiting (h : m.Lawful) {planned before rest : List (D × π)} {entry : D × π}
    (hentries : planned.map Prod.fst = m.entries) (hsplit : planned = before ++ entry :: rest) :
    m.state.wanted entry.1 ∉ (before.map Prod.fst).map m.state.wanted := by
  have hdistinct : ((planned.map Prod.fst).map m.state.wanted).Nodup := hentries ▸ h.names
  rw [hsplit, List.map_append, List.map_append, List.map_cons, List.map_cons] at hdistinct
  exact fun hmem => (List.nodup_append'.mp hdistinct).2.2 hmem List.mem_cons_self

theorem Lawful.safe (h : m.Lawful) (hsound : m.state.Sound table) (applies : Bool) :
    Fallible.Safe m.serve (m.Left applies table)
      (reconcileAll m.state.wanted m.planning m.apply applies)
      (fun results after => List.Forall₂ (m.Told table applies) m.entries results ∧
        (∀ entry ∈ m.entries, ∃ plan, m.PlanFor table entry plan) ∧
        (applies = true → m.state.Progress table m.entries after))
      (fun error after => ∃ cause, (error = .thrown cause ∧ after = table) ∨
        ∃ done entry rest results, m.entries = done ++ entry :: rest ∧
          error = .applyFailed (m.state.wanted entry) results cause ∧
          List.Forall₂ (m.Told table true) done results ∧
          (m.state.Progress table done after ∨
            m.state.Progress table (done ++ [entry]) after)) table := by
  have hnow : m.Left applies table table :=
    ⟨⟨[], List.nil_prefix, .refl hsound⟩, fun _ => rfl, .inl rfl⟩
  rw [reconcileAll, Fallible.safe_bind, Fallible.safe_adapt]
  refine Program.Safe.mono (h.plans hsound) ?_ ?_
  · rintro after rfl
    exact hnow
  · rintro outcome after rfl hends
    cases outcome with
    | error cause => exact ⟨cause, .inl ⟨rfl, rfl⟩⟩
    | ok planned =>
        obtain ⟨-, hentries, hplans⟩ := hends
        have hall : ∀ entry ∈ m.entries, ∃ plan, m.PlanFor after entry plan := by
          intro entry hentry
          rw [← hentries] at hentry
          obtain ⟨⟨_, plan⟩, hmem, rfl⟩ := List.mem_map.mp hentry
          exact ⟨plan, hplans _ hmem⟩
        rw [Fallible.ends_ok]
        cases applies with
        | false =>
            refine ⟨hnow, ?_, hall, nofun⟩
            rw [← hentries]
            refine List.forall₂_map_left_iff.mpr (List.forall₂_map_right_iff.mpr ?_)
            exact List.forall₂_same.mpr fun entry hentry => h.dry (hplans entry hentry)
        | true =>
            rw [if_pos rfl]
            refine Program.Safe.mono (Fallible.safe_applyAll
              (fun done current => m.state.Progress after done current)
              (fun entry _ result => m.Told after true entry result) ?_ (.refl hsound)) ?_ ?_
            · intro before entry rest current hsplit hprogress
              have hmem : entry ∈ planned := hsplit ▸ by simp
              rw [List.map_append, List.map_singleton]
              exact h.applies (hentries ▸ List.mem_map_of_mem hmem) (hplans entry hmem) hprogress
                (h.waiting hentries hsplit)
            · rintro current ⟨done, hdone, hprogress⟩
              exact ⟨⟨done, hentries ▸ hdone, hprogress⟩, nofun, .inr hall⟩
            · rintro outcome current - hends
              cases outcome with
              | ok results =>
                  refine ⟨?_, hall, fun _ => ?_⟩
                  · rw [← hentries]
                    exact List.forall₂_map_left_iff.mpr hends.2
                  · rw [← hentries]
                    exact hends.1
              | error error =>
                  obtain ⟨before, entry, rest, results, cause, hsplit, herror, hresults, hstopped⟩ :=
                    hends
                  refine ⟨cause, .inr ⟨before.map Prod.fst, entry.1, rest.map Prod.fst, results, ?_,
                    herror, List.forall₂_map_left_iff.mpr hresults, ?_⟩⟩
                  · rw [← hentries, hsplit, List.map_append, List.map_cons]
                  · rwa [List.map_append, List.map_singleton] at hstopped

theorem Lawful.spec (h : m.Lawful) (hsound : m.state.Sound table) (hstep : m.Step table round after) :
    m.Spec table round after := by
  have hsafe := Program.Safe.run (h.safe hsound round.applies) round.moves
  rw [show Program.run m.serve _ table round.moves = (round.outcome, after) from hstep] at hsafe
  obtain ⟨hleft, hends⟩ := hsafe
  refine ⟨hleft, ?_, ?_, fun results houtcome => hends _ houtcome⟩
  · intro cause houtcome
    obtain ⟨cause', ⟨-, hsame⟩ | ⟨done, entry, rest, results, -, herror, -⟩⟩ := hends _ houtcome
    · exact hsame
    · cases herror
  · intro failed appliedResults cause houtcome
    obtain ⟨cause', ⟨herror, -⟩ | ⟨done, entry, rest, results, hsplit, herror, hstopped⟩⟩ :=
      hends _ houtcome
    · cases herror
    · cases herror
      exact ⟨done, entry, rest, hsplit, rfl, hstopped⟩

theorem Lawful.kept_step (h : m.Lawful) (hsound : m.state.Sound table)
    (hstep : m.Step table round after) : m.state.Kept m.entries table after := by
  obtain ⟨done, hdone, hprogress⟩ := (h.spec hsound hstep).left.progress
  exact hprogress.kept h.names hdone.subset

/-- So does any number of them. -/
theorem Lawful.kept (h : m.Lawful) (hsound : m.state.Sound start)
    (hrun : Run m.Step start history table) : m.state.Kept m.entries start table := by
  induction hrun with
  | refl => exact .refl hsound
  | snoc before last ih => exact ih.trans (h.kept_step ih.sound last)

theorem Lawful.reached (h : m.Lawful) (hsound : m.state.Sound start)
    (hrun : Run m.Step start history table) {earlier : Round R κ π ε} (hmem : earlier ∈ history)
    (happlies : earlier.applies = true) {results : List π}
    (hreturned : earlier.outcome = some (.ok results)) :
    ∀ entry ∈ m.entries, m.state.Reached entry table := by
  obtain ⟨before, rest, rfl⟩ := List.append_of_mem hmem
  obtain ⟨first, hbefore, hafter⟩ := Run.append_iff.mp hrun
  obtain ⟨second, hstep, hrest⟩ := Run.cons_iff.mp hafter
  have hfirst := (h.kept hsound hbefore).sound
  have hprogress := ((h.spec hfirst hstep).returned results hreturned).2.2 happlies
  intro entry hentry
  obtain ⟨row, hrow, hsettled⟩ := hprogress.reached hentry
  have hkept := (h.kept hprogress.sound hrest).named_eq hentry ⟨row, hrow, hsettled⟩
  exact ⟨row, hkept.trans hrow, hsettled⟩

/-- A round finds nothing to do in a table where every entry is reached. -/
theorem Lawful.still (h : m.Lawful) (hsound : m.state.Sound table) (hstep : m.Step table round after)
    (hreached : ∀ entry ∈ m.entries, m.state.Reached entry table) : after = table := by
  obtain ⟨done, hdone, hprogress⟩ := (h.spec hsound hstep).left.progress
  exact hprogress.still fun entry hentry => hreached entry (hdone.subset hentry)

end Reconciler

end ListmonkOps.Math
