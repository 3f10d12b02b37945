/-
Executions of programs.

An execution of a program is a record of its calls and their answers, from the
first call to the return. The record of a sequence falls apart into those of its
parts, and the record of a loop into one for each round. So what holds of the
parts can be put together again, also with some of the rounds left out.
-/

import ListmonkOps.Math.Program

namespace ListmonkOps.Math

namespace Program

variable {C A α β : Type}

/-- The program made the calls on record, was answered as it says, and returned. -/
inductive Ran : Program C A α → List (C × A) → α → Prop where
  | done (a : α) : Ran (.done a) [] a
  | call (c : C) {next : A → Program C A α} (answer : A) {log : List (C × A)} {a : α}
      (rest : Ran (next answer) log a) : Ran (.call c next) ((c, answer) :: log) a

variable {p : Program C A α} {log : List (C × A)} {a : α}

theorem ran_pure {b : α} : (pure a : Program C A α).Ran log b ↔ log = [] ∧ b = a := by
  constructor
  · rintro ⟨⟩
    exact ⟨rfl, rfl⟩
  · rintro ⟨rfl, rfl⟩
    exact .done b

theorem ran_call {c : C} {next : A → Program C A α} :
    (Program.call c next).Ran log a ↔
      ∃ answer rest, log = (c, answer) :: rest ∧ (next answer).Ran rest a := by
  constructor
  · rintro ⟨⟩
    exact ⟨_, _, rfl, ‹_›⟩
  · rintro ⟨answer, rest, rfl, h⟩
    exact .call c answer h

theorem ran_bind {f : α → Program C A β} {b : β} : (p >>= f).Ran log b ↔
    ∃ first a second, log = first ++ second ∧ p.Ran first a ∧ (f a).Ran second b := by
  constructor
  · intro h
    induction p generalizing log with
    | done a => exact ⟨[], a, log, rfl, .done a, h⟩
    | call c next ih =>
        obtain ⟨answer, rest, rfl, hrest⟩ := ran_call.mp h
        obtain ⟨first, a, second, rfl, hfirst, hsecond⟩ := ih answer hrest
        exact ⟨(c, answer) :: first, a, second, rfl, .call c answer hfirst, hsecond⟩
  · rintro ⟨first, a, second, rfl, hfirst, hsecond⟩
    induction hfirst with
    | done a => exact hsecond
    | call c answer rest ih => exact .call c answer (ih hsecond)

theorem ran_mapM {f : α → Program C A β} {xs : List α} {bs : List β} :
    (xs.mapM f).Ran log bs ↔ ∃ rounds : List (List (C × A) × β),
      List.Forall₂ (fun x round => (f x).Ran round.1 round.2) xs rounds ∧
        log = (rounds.map Prod.fst).flatten ∧ bs = rounds.map Prod.snd := by
  induction xs generalizing log bs with
  | nil =>
      rw [List.mapM_nil, ran_pure]
      constructor
      · rintro ⟨rfl, rfl⟩
        exact ⟨[], .nil, rfl, rfl⟩
      · rintro ⟨rounds, hrounds, rfl, rfl⟩
        obtain rfl := List.forall₂_nil_left_iff.mp hrounds
        exact ⟨rfl, rfl⟩
  | cons x xs ih =>
      rw [List.mapM_cons, ran_bind]
      constructor
      · rintro ⟨first, b, second, rfl, hfirst, hsecond⟩
        obtain ⟨others, rest, last, rfl, hothers, hlast⟩ := ran_bind.mp hsecond
        obtain ⟨rfl, rfl⟩ := ran_pure.mp hlast
        obtain ⟨rounds, hrounds, rfl, rfl⟩ := ih.mp hothers
        exact ⟨(first, b) :: rounds, .cons hfirst hrounds, by simp, rfl⟩
      · rintro ⟨rounds, hrounds, rfl, rfl⟩
        obtain ⟨round, rounds, hround, hrest, rfl⟩ := List.forall₂_cons_left_iff.mp hrounds
        refine ⟨round.1, round.2, (rounds.map Prod.fst).flatten, rfl, hround, ran_bind.mpr ?_⟩
        exact ⟨_, _, [], (List.append_nil _).symm, ih.mpr ⟨rounds, hrest, rfl, rfl⟩, .done _⟩

theorem ran_of_run_recorded {answers : List A} {after : List (C × A)}
    (h : p.run recorded log answers = (some a, after)) : ∃ tail, after = log ++ tail ∧ p.Ran tail a := by
  induction p generalizing log answers with
  | done b =>
      obtain ⟨hreturned, rfl⟩ := Prod.mk.inj h
      obtain rfl := Option.some.inj hreturned
      exact ⟨[], (List.append_nil _).symm, .done b⟩
  | call c next ih =>
      cases answers with
      | nil => cases congrArg Prod.fst h
      | cons answer answers =>
          obtain ⟨tail, rfl, htail⟩ := ih answer h
          exact ⟨(c, answer) :: tail, List.append_assoc _ _ _, .call c answer htail⟩

/-- After the calls on record, the program goes on as another. Nothing is said about how the
environment chose its answers. -/
inductive Reached (p : Program C A α) : List (C × A) → Program C A α → Prop where
  | start : Reached p [] p
  | answered {log : List (C × A)} {c : C} {next : A → Program C A α}
      (before : Reached p log (.call c next)) (answer : A) :
      Reached p (log ++ [(c, answer)]) (next answer)

theorem Reached.ran_reached {q : Program C A α} {before : List (C × A)} (h : p.Reached before q)
    (hran : q.Ran log a) : p.Reached (before ++ log) (.done a) := by
  induction hran generalizing before with
  | done a => rwa [List.append_nil]
  | call c answer rest ih =>
      have hnext := ih (h.answered answer)
      rwa [List.append_assoc] at hnext

theorem Ran.reached (h : p.Ran log a) : p.Reached log (.done a) :=
  Reached.start.ran_reached h

theorem exists_ran [Inhabited A] (p : Program C A α) : ∃ log a, p.Ran log a := by
  induction p with
  | done a => exact ⟨[], a, .done a⟩
  | call c next ih =>
      obtain ⟨log, a, h⟩ := ih default
      exact ⟨_, a, .call c default h⟩

theorem Reached.ran {q : Program C A α} {rest : List (C × A)} (h : p.Reached log q)
    (hrest : q.Ran rest a) : p.Ran (log ++ rest) a := by
  induction h generalizing rest with
  | start => exact hrest
  | @answered log c next before answer ih =>
      rw [List.append_assoc]
      exact ih (.call c answer hrest)

/-- Wherever an execution has got to, it is the beginning of one that returned. -/
theorem Reached.exists_ran [Inhabited A] {q : Program C A α} (h : p.Reached log q) :
    ∃ rest a, p.Ran (log ++ rest) a := by
  obtain ⟨rest, a, hrest⟩ := Program.exists_ran q
  exact ⟨rest, a, h.ran hrest⟩

end Program

namespace Fallible

variable {C A ε α β : Type} {x : Fallible C A ε α} {log : List (C × A)}

/-- A sequence that may throw: its first part threw, or both parts ran. -/
theorem ran_bind {f : α → Fallible C A ε β} {outcome : Except ε β} :
    Program.Ran (x >>= f).run log outcome ↔
      (∃ error, outcome = .error error ∧ Program.Ran x.run log (.error error)) ∨
        ∃ first a second, log = first ++ second ∧ Program.Ran x.run first (.ok a) ∧
          Program.Ran (f a).run second outcome := by
  have hrun : (x >>= f).run = x.run >>= ExceptT.bindCont f := rfl
  rw [hrun, Program.ran_bind]
  constructor
  · rintro ⟨first, ended, second, rfl, hfirst, hsecond⟩
    cases ended with
    | ok a => exact .inr ⟨first, a, second, rfl, hfirst, hsecond⟩
    | error error =>
        obtain ⟨rfl, rfl⟩ := Program.ran_pure.mp hsecond
        exact .inl ⟨error, rfl, by simpa using hfirst⟩
  · rintro (⟨error, rfl, hfirst⟩ | ⟨first, a, second, rfl, hfirst, hsecond⟩)
    · exact ⟨log, .error error, [], (List.append_nil _).symm, hfirst, .done _⟩
    · exact ⟨first, .ok a, second, rfl, hfirst, hsecond⟩

theorem ran_ask {c : C} {read : A → Except ε α} {outcome : Except ε α} :
    Program.Ran (ask c read).run log outcome ↔
      ∃ answer, log = [(c, answer)] ∧ outcome = read answer := by
  refine Program.ran_call.trans (exists_congr fun answer => ?_)
  constructor
  · rintro ⟨rest, rfl, h⟩
    obtain ⟨rfl, rfl⟩ := Program.ran_pure.mp h
    exact ⟨rfl, rfl⟩
  · rintro ⟨rfl, rfl⟩
    exact ⟨[], rfl, .done _⟩

theorem ran_lift {p : Program C A α} {outcome : Except ε α} :
    Program.Ran (ExceptT.lift p : Fallible C A ε α).run log outcome ↔
      ∃ a, outcome = .ok a ∧ p.Ran log a := by
  have hrun : (ExceptT.lift p : Fallible C A ε α).run = p >>= fun a => pure (.ok a) := by
    change Except.ok <$> p = _
    rw [map_eq_pure_bind]
  rw [hrun, Program.ran_bind]
  constructor
  · rintro ⟨first, a, second, rfl, hfirst, hsecond⟩
    obtain ⟨rfl, rfl⟩ := Program.ran_pure.mp hsecond
    exact ⟨a, rfl, by simpa using hfirst⟩
  · rintro ⟨a, rfl, h⟩
    exact ⟨log, a, [], (List.append_nil _).symm, h, .done _⟩

end Fallible

end ListmonkOps.Math
