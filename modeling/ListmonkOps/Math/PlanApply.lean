/-
Plans that are applied in order.

A list of entries is planned as a whole before the first of them is applied. Plans only
read, so a plan that fails has changed nothing. Applying goes through the entries one by
one and stops at the first that fails, which may or may not have had its effect by then;
what was done before it stays done, and what comes after it is as it was.
-/

import ListmonkOps.Math.Program

namespace ListmonkOps.Math

variable {C A S R ε ε' δ π ρ : Type}

def planAll (plan : δ → Fallible C A ε π) (entries : List δ) : Fallible C A ε (List (δ × π)) :=
  entries.mapM fun entry => do
    let planned ← plan entry
    pure (entry, planned)

/-- Apply plans in order, with the results so far; a failure is told with them. -/
def applyAll (apply : δ → π → Fallible C A ε ρ) (failed : δ → List ρ → ε → ε') :
    List ρ → List (δ × π) → Fallible C A ε' (List ρ)
  | results, [] => pure results
  | results, (entry, planned) :: rest => do
      let result ← ExceptT.adapt (failed entry results) (apply entry planned)
      applyAll apply failed (results ++ [result]) rest

namespace Fallible

variable {serve : S → C → R → A × S} {I : S → Prop} {s : S}

theorem safe_ask {α : Type} {c : C} {read : A → Except ε α} {Q : α → S → Prop}
    {E : ε → S → Prop} :
    Safe serve I (ask c read) Q E s ↔ I s ∧ ∀ choice, I (serve s c choice).2 ∧
      ends Q E (read (serve s c choice).1) (serve s c choice).2 :=
  Iff.rfl

theorem within_ask {α : Type} {P : C → Prop} {c : C} {read : A → Except ε α} (h : P c) :
    Within P (ask c read) (fun _ => True) fun _ => True := by
  refine ⟨h, fun a => ?_⟩
  change ends _ _ (read a) ()
  cases read a <;> trivial

theorem safe_adapt {α : Type} {x : Fallible C A ε α} {f : ε → ε'} {Q : α → S → Prop}
    {E : ε' → S → Prop} :
    Safe serve I (ExceptT.adapt f x : Fallible C A ε' α) Q E s ↔
      Safe serve I x Q (fun error t => E (f error) t) s := by
  have hrun : (ExceptT.adapt f x : Fallible C A ε' α).run =
      x.run >>= fun outcome => pure (outcome.mapError f) := by
    change Except.mapError f <$> x.run = _
    rw [map_eq_pure_bind]
  rw [Safe, Safe, hrun, Program.safe_bind]
  constructor
  · refine fun h => Program.Safe.imp h fun outcome t _ hends => ?_
    cases outcome with
    | ok a => exact hends.2
    | error error => exact hends.2
  · refine fun h => Program.Safe.imp h fun outcome t hI hends => ?_
    cases outcome with
    | ok a => exact ⟨hI, hends⟩
    | error error => exact ⟨hI, hends⟩

theorem adapt_ask_bind {α β : Type} {f : ε → ε'} {c : C} {read : A → Except ε α}
    {g : α → Fallible C A ε β} :
    (ExceptT.adapt f (ask c read >>= g) : Fallible C A ε' β) =
      ask c (fun a => (read a).mapError f) >>= fun a => ExceptT.adapt f (g a) := by
  refine congrArg (Program.call c) (funext fun a => ?_)
  change Except.mapError f <$> Program.bind (.done (read a)) (ExceptT.bindCont g) =
    Program.bind (.done ((read a).mapError f)) (ExceptT.bindCont fun a => ExceptT.adapt f (g a))
  cases read a <;> rfl

/-- The rule for plans: each of them is made in the state that all of them start from. -/
theorem safe_planAll {plan : δ → Fallible C A ε π} {entries : List δ} {P : δ → π → Prop}
    {E : ε → S → Prop}
    (step : ∀ entry ∈ entries,
      Safe serve (· = s) (plan entry) (fun planned _ => P entry planned) E s) :
    Safe serve (· = s) (planAll plan entries)
      (fun planned t => t = s ∧ planned.map Prod.fst = entries ∧
        ∀ entry ∈ planned, P entry.1 entry.2) E s := by
  refine safe_mapM (fun ahead planned t => t = s ∧ planned.map Prod.fst = ahead ∧
    ∀ entry ∈ planned, P entry.1 entry.2) ?_ rfl ⟨rfl, rfl, by simp⟩
  rintro ahead entry results t hahead ⟨rfl, hresults, hplanned⟩
  rw [safe_bind]
  refine (step entry (hahead.subset (by simp))).imp (fun planned u hu hentry => ?_)
    fun _ _ _ h => h
  refine ⟨hu, hu, by simp [hresults], ?_⟩
  intro other hother
  rcases List.mem_append.mp hother with hother | hother
  · exact hplanned other hother
  · obtain rfl := List.mem_singleton.mp hother
    exact hentry

/-- The rule for plans that are applied: an assertion about the entries that have had their
effect holds all along, where a step has its effect on its own entry at once, later or not
at all. -/
theorem safe_applyAll {apply : δ → π → Fallible C A ε ρ} {failed : δ → List ρ → ε → ε'}
    {planned : List (δ × π)} (Inv : List δ → S → Prop) (P : δ → π → ρ → Prop)
    (step : ∀ {ahead entry rest t}, planned = ahead ++ entry :: rest →
      Inv (ahead.map Prod.fst) t →
        Safe serve (fun u => Inv (ahead.map Prod.fst) u ∨ Inv ((ahead ++ [entry]).map Prod.fst) u)
          (apply entry.1 entry.2)
          (fun result u => Inv ((ahead ++ [entry]).map Prod.fst) u ∧ P entry.1 entry.2 result)
          (fun _ _ => True) t)
    (initial : Inv [] s) :
    Safe serve (fun t => ∃ done, done <+: planned.map Prod.fst ∧ Inv done t)
      (applyAll apply failed [] planned)
      (fun results t => Inv (planned.map Prod.fst) t ∧
        List.Forall₂ (fun entry result => P entry.1 entry.2 result) planned results)
      (fun error t => ∃ ahead entry rest results cause, planned = ahead ++ entry :: rest ∧
        error = failed entry.1 results cause ∧
        List.Forall₂ (fun entry result => P entry.1 entry.2 result) ahead results ∧
        (Inv (ahead.map Prod.fst) t ∨ Inv ((ahead ++ [entry]).map Prod.fst) t)) s := by
  suffices loop : ∀ (rest ahead : List (δ × π)) (results : List ρ) (t : S),
      ahead ++ rest = planned → Inv (ahead.map Prod.fst) t →
      List.Forall₂ (fun entry result => P entry.1 entry.2 result) ahead results →
        Safe serve (fun t => ∃ done, done <+: planned.map Prod.fst ∧ Inv done t)
          (applyAll apply failed results rest)
          (fun results t => Inv (planned.map Prod.fst) t ∧
            List.Forall₂ (fun entry result => P entry.1 entry.2 result) planned results)
          (fun error t => ∃ ahead entry rest results cause, planned = ahead ++ entry :: rest ∧
            error = failed entry.1 results cause ∧
            List.Forall₂ (fun entry result => P entry.1 entry.2 result) ahead results ∧
            (Inv (ahead.map Prod.fst) t ∨ Inv ((ahead ++ [entry]).map Prod.fst) t)) t from
    loop planned [] [] s rfl initial .nil
  intro rest
  induction rest with
  | nil =>
      intro ahead results t hall hInv hresults
      rw [List.append_nil] at hall
      subst hall
      exact ⟨⟨_, List.prefix_refl _, hInv⟩, hInv, hresults⟩
  | cons entry rest ih =>
      intro ahead results t hall hInv hresults
      have hprefix : ∀ u, Inv (ahead.map Prod.fst) u ∨ Inv ((ahead ++ [entry]).map Prod.fst) u →
          ∃ done, done <+: planned.map Prod.fst ∧ Inv done u := by
        rintro u (hu | hu)
        · exact ⟨_, ⟨(entry :: rest).map Prod.fst, by rw [← List.map_append, hall]⟩, hu⟩
        · exact ⟨_, ⟨rest.map Prod.fst, by rw [← List.map_append, ← hall]; simp⟩, hu⟩
      rw [applyAll, safe_bind, safe_adapt]
      refine Program.Safe.mono (step hall.symm hInv) hprefix ?_
      intro outcome u hu hends
      cases outcome with
      | ok result =>
          refine ih (ahead ++ [entry]) (results ++ [result]) u (by simpa using hall) hends.1 ?_
          exact List.rel_append hresults (.cons hends.2 .nil)
      | error cause =>
          exact ⟨ahead, entry, rest, results, cause, hall.symm, rfl, hresults, hu⟩

end Fallible

end ListmonkOps.Math
