/-
Programs that call an environment.

A program is a tree: at each node it makes one call and goes on with the answer
it is given. The environment has a state, and every answer depends on a choice
that the program does not control, so that one script of choices determines an
execution. A script that ends before the program does is a program that stopped
between two of its calls.

The rules speak about all scripts at once. `Safe` asks for two things: that an
assertion about the environment holds at every moment, also where the program
stops short, and that what the program returns satisfies a postcondition.
-/

import Mathlib.Data.List.Forall2
import Mathlib.Data.List.Induction

namespace ListmonkOps.Math

/-- A program over the calls `C` and the answers `A`. -/
inductive Program (C A α : Type) : Type where
  | /-- The program is done. -/
    done (a : α)
  | /-- One call, and what follows each of its answers. -/
    call (c : C) (next : A → Program C A α)

namespace Program

variable {C A S R α β : Type}

def bind : Program C A α → (α → Program C A β) → Program C A β
  | .done a, f => f a
  | .call c next, f => .call c fun a => (next a).bind f

instance : Monad (Program C A) where
  pure := .done
  bind := bind

theorem bind_done (p : Program C A α) : p.bind .done = p := by
  induction p with
  | done a => rfl
  | call c next ih => exact congrArg _ (funext ih)

theorem bind_assoc {γ : Type} (p : Program C A α) (f : α → Program C A β)
    (g : β → Program C A γ) : (p.bind f).bind g = p.bind fun a => (f a).bind g := by
  induction p with
  | done a => rfl
  | call c next ih => exact congrArg _ (funext ih)

instance : LawfulMonad (Program C A) :=
  LawfulMonad.mk' _ bind_done (fun _ _ => rfl) bind_assoc

def perform (c : C) : Program C A A := .call c .done

/-- Execute a program under a script of choices: what it returned, unless the
script ended first, and the state of the environment then. -/
def run (serve : S → C → R → A × S) : Program C A α → S → List R → Option α × S
  | .done a, s, _ => (some a, s)
  | .call _ _, s, [] => (none, s)
  | .call c next, s, choice :: script =>
      (next (serve s c choice).1).run serve (serve s c choice).2 script

/-- Changing what is returned changes nothing else about a run. -/
theorem run_bind_pure {serve : S → C → R → A × S} {p : Program C A α} {f : α → β} {s : S}
    {script : List R} :
    (p >>= fun a => pure (f a)).run serve s script = Prod.map (Option.map f) id (p.run serve s script) := by
  induction p generalizing s script with
  | done a => rfl
  | call c next ih =>
      cases script with
      | nil => rfl
      | cons choice script => exact ih _

theorem exists_of_run_bind {serve : S → C → R → A × S} {p : Program C A α}
    {f : α → Program C A β} {s t : S} {script : List R} {b : β}
    (h : (p >>= f).run serve s script = (some b, t)) :
    ∃ a u rest, p.run serve s script = (some a, u) ∧ (f a).run serve u rest = (some b, t) := by
  induction p generalizing s script with
  | done a => exact ⟨a, s, script, rfl, h⟩
  | call c next ih =>
      cases script with
      | nil => cases congrArg Prod.fst h
      | cons choice script => exact ih _ h

/-- Execute a program under a script that it uses up. -/
def consume (serve : S → C → R → A × S) : Program C A α → S → List R → Option (α × S)
  | .done a, s, [] => some (a, s)
  | .done _, _, _ :: _ => none
  | .call _ _, _, [] => none
  | .call c next, s, choice :: script =>
      (next (serve s c choice).1).consume serve (serve s c choice).2 script

theorem run_bind_of_consume {serve : S → C → R → A × S} {p : Program C A α}
    {f : α → Program C A β} {s t : S} {script rest : List R} {a : α}
    (h : p.consume serve s script = some (a, t)) :
    (p >>= f).run serve s (script ++ rest) = (f a).run serve t rest := by
  induction p generalizing s script with
  | done b =>
      cases script with
      | nil =>
          cases h
          rfl
      | cons choice script => cases h
  | call c next ih =>
      cases script with
      | nil => cases h
      | cons choice script => exact ih _ h

theorem run_of_consume {serve : S → C → R → A × S} {p : Program C A α} {s t : S}
    {script rest : List R} {a : α} (h : p.consume serve s script = some (a, t)) :
    p.run serve s (script ++ rest) = (some a, t) := by
  conv_lhs => rw [← bind_done p]
  exact run_bind_of_consume h

/-- The result where the answer to a call depends on the call alone. -/
def eval (answers : C → A) : Program C A α → α
  | .done a => a
  | .call c next => (next (answers c)).eval answers

@[simp]
theorem eval_pure {answers : C → A} {a : α} : (pure a : Program C A α).eval answers = a := rfl

@[simp]
theorem eval_perform {answers : C → A} {c : C} :
    (perform c : Program C A A).eval answers = answers c := rfl

@[simp]
theorem eval_bind {answers : C → A} {p : Program C A α} {f : α → Program C A β} :
    (p >>= f).eval answers = (f (p.eval answers)).eval answers := by
  induction p with
  | done a => rfl
  | call c next ih => exact ih _

theorem eval_mapM {answers : C → A} {f : α → Program C A β} {xs : List α} :
    (xs.mapM f).eval answers = xs.map fun x => (f x).eval answers := by
  induction xs with
  | nil => rfl
  | cons x xs ih =>
      rw [List.mapM_cons, eval_bind, eval_bind, ih]
      rfl

def embed {C' : Type} (f : C → C') : Program C A α → Program C' A α
  | .done a => .done a
  | .call c next => .call (f c) fun a => (next a).embed f

/-! ## Assertions about calls and results -/

/-- Whatever the answers are, every call satisfies `P`, and what is returned `Q`. -/
def Within (P : C → Prop) (Q : α → Prop) : Program C A α → Prop
  | .done a => Q a
  | .call c next => P c ∧ ∀ a, (next a).Within P Q

section Within

variable {P P' : C → Prop} {Q Q' : α → Prop} {p : Program C A α}

theorem within_pure {a : α} : (pure a : Program C A α).Within P Q ↔ Q a := Iff.rfl

theorem within_bind {f : α → Program C A β} {Q : β → Prop} :
    (p >>= f).Within P Q ↔ p.Within P fun a => (f a).Within P Q := by
  induction p with
  | done a => exact Iff.rfl
  | call c next ih => exact and_congr_right fun _ => forall_congr' fun a => ih a

theorem Within.imp (h : p.Within P Q) (calls : ∀ c, P c → P' c) (returns : ∀ a, Q a → Q' a) :
    p.Within P' Q' := by
  induction p with
  | done a => exact returns a h
  | call c next ih => exact ⟨calls c h.1, fun a => ih a (h.2 a)⟩

theorem within_of_forall (calls : ∀ c, P c) : p.Within P fun _ => True := by
  induction p with
  | done a => trivial
  | call c next ih => exact ⟨calls c, ih⟩

theorem within_embed {C' : Type} {f : C → C'} {P : C' → Prop} :
    (p.embed f).Within P Q ↔ p.Within (fun c => P (f c)) Q := by
  induction p with
  | done a => exact Iff.rfl
  | call c next ih => exact and_congr_right fun _ => forall_congr' fun a => ih a

theorem within_mapM {f : α → Program C A β} {xs : List α} {R : α → β → Prop}
    (step : ∀ x ∈ xs, (f x).Within P (R x)) : (xs.mapM f).Within P (List.Forall₂ R xs) := by
  induction xs with
  | nil => exact .nil
  | cons x xs ih =>
      rw [List.mapM_cons, within_bind]
      refine (step x List.mem_cons_self).imp (fun _ => id) fun b hb => ?_
      rw [within_bind]
      refine (ih fun y hy => step y (List.mem_cons_of_mem x hy)).imp (fun _ => id) ?_
      exact fun bs hbs => .cons hb hbs

end Within

/-! ## Assertions about every execution -/

/-- Under every script, `I` holds of the environment all along and `Q` of what
is returned. -/
def Safe (serve : S → C → R → A × S) (I : S → Prop) :
    Program C A α → (α → S → Prop) → S → Prop
  | .done a, Q, s => I s ∧ Q a s
  | .call c next, Q, s =>
      I s ∧ ∀ choice, (next (serve s c choice).1).Safe serve I Q (serve s c choice).2

variable {serve : S → C → R → A × S} {I J : S → Prop} {p : Program C A α}
variable {Q Q' : α → S → Prop} {s : S}

theorem Safe.now (h : p.Safe serve I Q s) : I s := by
  cases p with
  | done a => exact h.1
  | call c next => exact h.1

@[simp]
theorem safe_pure {a : α} : (pure a : Program C A α).Safe serve I Q s ↔ I s ∧ Q a s :=
  Iff.rfl

theorem safe_perform {c : C} {Q : A → S → Prop} :
    (perform c : Program C A A).Safe serve I Q s ↔
      I s ∧ ∀ choice, I (serve s c choice).2 ∧ Q (serve s c choice).1 (serve s c choice).2 :=
  Iff.rfl

/-- A sequence is safe when its second part is safe wherever the first ends. -/
theorem safe_bind {f : α → Program C A β} {Q : β → S → Prop} :
    (p >>= f).Safe serve I Q s ↔ p.Safe serve I (fun a t => (f a).Safe serve I Q t) s := by
  induction p generalizing s with
  | done a => exact ⟨fun h => ⟨h.now, h⟩, And.right⟩
  | call c next ih => exact and_congr_right fun _ => forall_congr' fun _ => ih _

theorem Safe.mono (h : p.Safe serve I Q s) (assertion : ∀ t, I t → J t)
    (post : ∀ a t, I t → Q a t → Q' a t) : p.Safe serve J Q' s := by
  induction p generalizing s with
  | done a => exact ⟨assertion s h.1, post a s h.1 h.2⟩
  | call c next ih => exact ⟨assertion s h.1, fun choice => ih _ (h.2 choice)⟩

theorem Safe.imp (h : p.Safe serve I Q s) (post : ∀ a t, I t → Q a t → Q' a t) :
    p.Safe serve I Q' s :=
  h.mono (fun _ => id) post

theorem Safe.and (h : p.Safe serve I Q s) (h' : p.Safe serve J Q' s) :
    p.Safe serve (fun t => I t ∧ J t) (fun a t => Q a t ∧ Q' a t) s := by
  induction p generalizing s with
  | done a => exact ⟨⟨h.1, h'.1⟩, h.2, h'.2⟩
  | call c next ih => exact ⟨⟨h.1, h'.1⟩, fun choice => ih _ (h.2 choice) (h'.2 choice)⟩

/-- What is safe is so under every script. -/
theorem Safe.run (h : p.Safe serve I Q s) (script : List R) :
    I (p.run serve s script).2 ∧
      ∀ a, (p.run serve s script).1 = some a → Q a (p.run serve s script).2 := by
  induction p generalizing s script with
  | done a =>
      refine ⟨h.1, fun b hb => ?_⟩
      obtain rfl : a = b := Option.some.inj hb
      exact h.2
  | call c next ih =>
      cases script with
      | nil => exact ⟨h.1, fun a ha => nomatch ha⟩
      | cons choice script => exact ih _ (h.2 choice) script

/-- What the calls of one kind preserve holds throughout a program that makes no
others. -/
theorem Within.safe {P : C → Prop} {Q : α → Prop} (h : p.Within P Q)
    (preserves : ∀ {s} c choice, P c → I s → I (serve s c choice).2) (holds : I s) :
    p.Safe serve I (fun a _ => Q a) s := by
  induction p generalizing s with
  | done a => exact ⟨holds, h⟩
  | call c next ih =>
      exact ⟨holds, fun choice => ih _ (h.2 _) (preserves c choice h.1 holds)⟩

/-- What every call preserves holds throughout any program. -/
theorem safe_of_preserved (preserves : ∀ {s} c choice, I s → I (serve s c choice).2) (holds : I s)
    (p : Program C A α) : p.Safe serve I (fun _ _ => True) s := by
  induction p generalizing s with
  | done a => exact ⟨holds, trivial⟩
  | call c next ih => exact ⟨holds, fun choice => ih _ (preserves c choice holds)⟩

theorem safe_mapM {f : α → Program C A β} {xs : List α}
    (Inv : List α → List β → S → Prop)
    (step : ∀ {ahead x results t}, ahead ++ [x] <+: xs → Inv ahead results t →
      (f x).Safe serve I (fun b u => Inv (ahead ++ [x]) (results ++ [b]) u) t)
    (holds : I s) (initial : Inv [] [] s) :
    (xs.mapM f).Safe serve I (fun results t => Inv xs results t) s := by
  suffices loop : ∀ (rest ahead : List α) (results : List β) (t : S),
      ahead ++ rest = xs → I t → Inv ahead results t →
        (rest.mapM f).Safe serve I (fun more u => Inv xs (results ++ more) u) t by
    simpa using loop xs [] [] s rfl holds initial
  intro rest
  induction rest with
  | nil =>
      intro ahead results t hall hI hInv
      rw [List.append_nil] at hall
      subst hall
      exact ⟨hI, by simpa using hInv⟩
  | cons x rest ih =>
      intro ahead results t hall hI hInv
      have hahead : ahead ++ [x] <+: xs := ⟨rest, by simpa using hall⟩
      rw [List.mapM_cons, safe_bind]
      refine (step hahead hInv).imp fun b u hI' hInv' => ?_
      rw [safe_bind]
      refine (ih (ahead ++ [x]) (results ++ [b]) u (by simpa using hall) hI' hInv').imp ?_
      intro more v hI'' hdone
      exact ⟨hI'', by simpa using hdone⟩

/-! ## Recorded calls -/

/-- The environment that answers as it likes and remembers what was said. -/
def recorded (log : List (C × A)) (c : C) (answer : A) : A × List (C × A) :=
  (answer, log ++ [(c, answer)])

/-- Every call on record was justified by what had been said before it. -/
def Justified (P : List (C × A) → C → Prop) (log : List (C × A)) : Prop :=
  ∀ ⦃before c a rest⦄, log = before ++ (c, a) :: rest → P before c

variable {P : List (C × A) → C → Prop} {log : List (C × A)}

theorem justified_nil : Justified P ([] : List (C × A)) := by
  intro before c a rest h
  simp at h

theorem justified_concat {c : C} {a : A} :
    Justified P (log ++ [(c, a)]) ↔ Justified P log ∧ P log c := by
  constructor
  · intro h
    refine ⟨fun before d b rest hlog => @h before d b (rest ++ [(c, a)]) (by simp [hlog]), h rfl⟩
  · rintro ⟨hlog, hlast⟩ before d b rest heq
    rcases List.eq_nil_or_concat rest with rfl | ⟨rest, e, rfl⟩
    · obtain ⟨rfl, hpair⟩ := List.append_inj' heq rfl
      obtain ⟨rfl, -⟩ := Prod.mk.inj (List.singleton_inj.mp hpair)
      exact hlast
    · have hsplit : log ++ [(c, a)] = (before ++ (d, b) :: rest) ++ [e] := by simpa using heq
      exact hlog (List.append_inj_left' hsplit rfl)

theorem Justified.append {tail : List (C × A)} (h : Justified P log)
    (htail : ∀ {before c a rest}, tail = before ++ (c, a) :: rest → P (log ++ before) c) :
    Justified P (log ++ tail) := by
  intro before c a rest hsplit
  rcases List.append_eq_append_iff.mp hsplit with ⟨more, rfl, hrest⟩ | ⟨more, hlog, hrest⟩
  · exact htail hrest
  · cases more with
    | nil =>
        rw [List.append_nil] at hlog
        subst hlog
        simpa using @htail [] c a rest hrest.symm
    | cons entry more =>
        obtain ⟨rfl, -⟩ := List.cons_eq_cons.mp hrest
        exact h hlog

theorem Justified.imp {P' : List (C × A) → C → Prop} (h : Justified P log)
    (himp : ∀ before c, P before c → P' before c) : Justified P' log :=
  fun _ _ _ _ hlog => himp _ _ (h hlog)

theorem Within.run_recorded {P : C → Prop} {Q : α → Prop} (h : p.Within P Q)
    (log : List (C × A)) (answers : List A) :
    ∃ tail : List (C × A), (p.run recorded log answers).2 = log ++ tail ∧
      ∀ entry ∈ tail, P entry.1 := by
  have hsafe : p.Safe recorded (fun t => ∃ tail, t = log ++ tail ∧ ∀ entry ∈ tail, P entry.1)
      (fun a _ => Q a) log := by
    refine h.safe ?_ ⟨[], by simp⟩
    rintro t c a hc ⟨tail, rfl, htail⟩
    refine ⟨tail ++ [(c, a)], by simp [recorded], fun entry hentry => ?_⟩
    rcases List.mem_append.mp hentry with hentry | hentry
    · exact htail entry hentry
    · obtain rfl := List.mem_singleton.mp hentry
      exact hc
  exact (hsafe.run answers).1

theorem run_recorded_mapM {f : α → Program C A β} (R : α → List (C × A) → β → Prop)
    (step : ∀ {x log answers b log'}, (f x).run recorded log answers = (some b, log') →
      ∃ tail, log' = log ++ tail ∧ R x tail b)
    {xs : List α} {bs : List β} {log log' : List (C × A)} {answers : List A}
    (h : (xs.mapM f).run recorded log answers = (some bs, log')) :
    ∃ rounds : List (List (C × A) × β), bs = rounds.map Prod.snd ∧
      log' = log ++ (rounds.map Prod.fst).flatten ∧
      List.Forall₂ (fun x round => R x round.1 round.2) xs rounds := by
  induction xs generalizing log answers bs with
  | nil =>
      cases h
      exact ⟨[], rfl, by simp, .nil⟩
  | cons x xs ih =>
      rw [List.mapM_cons] at h
      obtain ⟨b, between, rest, hfirst, hrest⟩ := exists_of_run_bind h
      obtain ⟨tail, rfl, hround⟩ := step hfirst
      obtain ⟨bs', last, rest', hloop, hlast⟩ := exists_of_run_bind hrest
      cases hlast
      obtain ⟨rounds, rfl, rfl, hrounds⟩ := ih hloop
      exact ⟨(tail, b) :: rounds, rfl, by simp, .cons hround hrounds⟩

theorem safe_perform_recorded {c : C} {Q : A → List (C × A) → Prop} :
    (perform c : Program C A A).Safe recorded (Justified P) Q log ↔
      Justified P log ∧ ∀ a, P log c ∧ Q a (log ++ [(c, a)]) := by
  rw [safe_perform]
  refine and_congr_right fun hlog => forall_congr' fun a => ?_
  simp only [recorded, justified_concat, and_iff_right hlog]

/-- The record only grows. -/
theorem Safe.grows {I : List (C × A) → Prop} {Q : α → List (C × A) → Prop}
    (h : p.Safe recorded I Q log) : p.Safe recorded I (fun a log' => log ⊆ log' ∧ Q a log') log := by
  induction p generalizing log with
  | done a => exact ⟨h.1, List.Subset.refl log, h.2⟩
  | call c next ih =>
      refine ⟨h.1, fun a => (ih _ (h.2 a)).imp fun b log' _ hpost => ⟨?_, hpost.2⟩⟩
      exact fun entry hentry => hpost.1 (List.mem_append_left _ hentry)

/-- The rule for a loop over recorded calls, when what is known of each result
is not undone by further calls. -/
theorem safe_mapM_recorded {I : List (C × A) → Prop} {f : α → Program C A β} {xs : List α}
    (R : α → β → List (C × A) → Prop)
    (stable : ∀ {x b log log'}, log ⊆ log' → R x b log → R x b log')
    (step : ∀ {x log'}, x ∈ xs → log ⊆ log' → I log' → (f x).Safe recorded I (R x) log')
    (holds : I log) :
    (xs.mapM f).Safe recorded I
      (fun results log' => log ⊆ log' ∧ List.Forall₂ (R · · log') xs results) log := by
  refine safe_mapM (fun ahead results log' =>
    I log' ∧ log ⊆ log' ∧ List.Forall₂ (R · · log') ahead results) ?_ holds
    ⟨holds, List.Subset.refl log, .nil⟩ |>.imp fun _ _ _ h => h.2
  rintro ahead x results log' hahead ⟨hI, hgrown, hresults⟩
  have hmem : x ∈ xs := hahead.subset (by simp)
  refine (step hmem hgrown hI).grows.imp fun b log'' hI' hpost => ⟨hI', ?_, ?_⟩
  · exact List.Subset.trans hgrown hpost.1
  · refine List.rel_append (hresults.imp fun _ _ => stable hpost.1) ?_
    exact .cons hpost.2 .nil

/-! ## Assertions under assumptions -/

/-- As long as every answer is as assumed, every call satisfies `P`, and what is returned
`Q`. -/
def Assuming (H : C → A → Prop) (P : C → Prop) (Q : α → Prop) : Program C A α → Prop
  | .done a => Q a
  | .call c next => P c ∧ ∀ a, H c a → (next a).Assuming H P Q

section Assuming

variable {H : C → A → Prop} {P : C → Prop} {Q Q' : α → Prop}

theorem Assuming.imp (h : p.Assuming H P Q) (returns : ∀ a, Q a → Q' a) : p.Assuming H P Q' := by
  induction p with
  | done a => exact returns a h
  | call c next ih => exact ⟨h.1, fun a ha => ih a (h.2 a ha)⟩

theorem assuming_bind {f : α → Program C A β} {Q : β → Prop} :
    (p >>= f).Assuming H P Q ↔ p.Assuming H P fun a => (f a).Assuming H P Q := by
  induction p with
  | done a => exact Iff.rfl
  | call c next ih => exact and_congr_right fun _ => forall₂_congr fun a _ => ih a

end Assuming

end Program

/-! ## Programs that may throw -/

/-- A program that may also end by throwing. -/
abbrev Fallible (C A ε α : Type) := ExceptT ε (Program C A) α

namespace Fallible

variable {C A S R ε α β : Type} {serve : S → C → R → A × S} {I : S → Prop}
variable {x : Fallible C A ε α} {s : S} {Q : α → S → Prop} {E : ε → S → Prop}

/-- The postcondition of a program that may throw, by how it ends. -/
def ends (Q : α → S → Prop) (E : ε → S → Prop) : Except ε α → S → Prop
  | .ok a, s => Q a s
  | .error error, s => E error s

@[simp] theorem ends_ok {a : α} : ends Q E (.ok a) s ↔ Q a s := Iff.rfl

@[simp] theorem ends_error {error : ε} : ends Q E (.error error) s ↔ E error s := Iff.rfl

/-- `Program.Safe` with one postcondition for each way to end. -/
def Safe (serve : S → C → R → A × S) (I : S → Prop) (x : Fallible C A ε α)
    (Q : α → S → Prop) (E : ε → S → Prop) (s : S) : Prop :=
  Program.Safe serve I x.run (ends Q E) s

theorem safe_pure {a : α} :
    Safe serve I (pure a : Fallible C A ε α) Q E s ↔ I s ∧ Q a s :=
  Iff.rfl

theorem safe_lift {p : Program C A α} :
    Safe serve I (ExceptT.lift p : Fallible C A ε α) Q E s ↔ p.Safe serve I Q s := by
  have hrun : (ExceptT.lift p : Fallible C A ε α).run = p >>= fun a => pure (.ok a) := by
    change Except.ok <$> p = _
    rw [map_eq_pure_bind]
  rw [Safe, hrun, Program.safe_bind]
  exact ⟨fun h => h.imp fun _ _ _ h => h.2, fun h => h.imp fun _ _ hI h => ⟨hI, h⟩⟩

theorem safe_bind {f : α → Fallible C A ε β} {Q : β → S → Prop} :
    Safe serve I (x >>= f) Q E s ↔ Safe serve I x (fun a t => Safe serve I (f a) Q E t) E s := by
  have hrun : (x >>= f).run = x.run >>= fun
      | .ok a => (f a).run
      | .error error => pure (.error error) := rfl
  rw [Safe, hrun, Program.safe_bind]
  constructor
  · refine fun h => Program.Safe.imp h fun outcome t hI h => ?_
    cases outcome with
    | ok a => exact h
    | error error => exact h.2
  · refine fun h => Program.Safe.imp h fun outcome t hI h => ?_
    cases outcome with
    | ok a => exact h
    | error error => exact ⟨hI, h⟩

/-- `Program.Within` with one postcondition for each way to end. -/
def Within (P : C → Prop) (x : Fallible C A ε α) (Q : α → Prop) (E : ε → Prop) : Prop :=
  Program.Within P (fun outcome => ends (fun a (_ : Unit) => Q a) (fun error _ => E error) outcome ())
    x.run

section Within

variable {P P' : C → Prop} {Q Q' : α → Prop} {E E' : ε → Prop}

theorem within_pure {a : α} : Within P (pure a : Fallible C A ε α) Q E ↔ Q a := Iff.rfl

theorem within_lift {p : Program C A α} :
    Within P (ExceptT.lift p : Fallible C A ε α) Q E ↔ p.Within P Q := by
  have hrun : (ExceptT.lift p : Fallible C A ε α).run = p >>= fun a => pure (.ok a) := by
    change Except.ok <$> p = _
    rw [map_eq_pure_bind]
  rw [Within, hrun, Program.within_bind]
  exact Iff.rfl

theorem within_bind {f : α → Fallible C A ε β} {Q : β → Prop} :
    Within P (x >>= f) Q E ↔ Within P x (fun a => Within P (f a) Q E) E := by
  have hrun : (x >>= f).run = x.run >>= fun
      | .ok a => (f a).run
      | .error error => pure (.error error) := rfl
  rw [Within, hrun, Program.within_bind]
  constructor
  · refine fun h => h.imp (fun _ => id) fun outcome hends => ?_
    cases outcome with
    | ok a => exact hends
    | error error => exact hends
  · refine fun h => Program.Within.imp h (fun _ => id) fun outcome hends => ?_
    cases outcome with
    | ok a => exact hends
    | error error => exact hends

theorem Within.imp (h : Within P x Q E) (calls : ∀ c, P c → P' c) (returns : ∀ a, Q a → Q' a)
    (throws : ∀ error, E error → E' error) : Within P' x Q' E' :=
  Program.Within.imp h calls fun outcome hends => by
    cases outcome with
    | ok a => exact returns a hends
    | error error => exact throws error hends

/-- The rule for a loop that collects one result for each element and may throw. -/
theorem within_mapM {f : α → Fallible C A ε β} {xs : List α} {R : α → β → Prop}
    (step : ∀ x ∈ xs, Within P (f x) (R x) E) : Within P (xs.mapM f) (List.Forall₂ R xs) E := by
  induction xs with
  | nil => exact .nil
  | cons x xs ih =>
      rw [List.mapM_cons, within_bind]
      refine (step x List.mem_cons_self).imp (fun _ => id) (fun b hb => ?_) fun _ => id
      rw [within_bind]
      refine (ih fun y hy => step y (List.mem_cons_of_mem x hy)).imp (fun _ => id) ?_ fun _ => id
      exact fun bs hbs => .cons hb hbs

/-- What the calls of one kind preserve holds throughout a program that makes no
others. -/
theorem Within.safe (h : Within P x Q E)
    (preserves : ∀ {s} c choice, P c → I s → I (serve s c choice).2) (holds : I s) :
    Safe serve I x (fun a _ => Q a) (fun error _ => E error) s :=
  Program.Safe.imp (Program.Within.safe h preserves holds) fun outcome _ _ hends => by
    cases outcome with
    | ok a => exact hends
    | error error => exact hends

end Within

section Assuming

variable {H : C → A → Prop} {P : C → Prop} {Q Q' : α → Prop}

/-- `Program.Assuming`, about the programs that return. -/
def Assuming (H : C → A → Prop) (P : C → Prop) (x : Fallible C A ε α) (Q : α → Prop) : Prop :=
  Program.Assuming H P (fun outcome => ends (fun a (_ : Unit) => Q a) (fun _ _ => True) outcome ()) x.run

theorem Assuming.imp (h : Assuming H P x Q) (returns : ∀ a, Q a → Q' a) : Assuming H P x Q' :=
  Program.Assuming.imp h fun outcome hends => by
    cases outcome with
    | ok a => exact returns a hends
    | error error => trivial

theorem assuming_lift {p : Program C A α} :
    Assuming H P (ExceptT.lift p : Fallible C A ε α) Q ↔ p.Assuming H P Q := by
  have hrun : (ExceptT.lift p : Fallible C A ε α).run = p >>= fun a => pure (.ok a) := by
    change Except.ok <$> p = _
    rw [map_eq_pure_bind]
  rw [Assuming, hrun, Program.assuming_bind]
  exact Iff.rfl

theorem assuming_bind {f : α → Fallible C A ε β} {Q : β → Prop} :
    Assuming H P (x >>= f) Q ↔ Assuming H P x fun a => Assuming H P (f a) Q := by
  have hrun : (x >>= f).run = x.run >>= fun
      | .ok a => (f a).run
      | .error error => pure (.error error) := rfl
  rw [Assuming, hrun, Program.assuming_bind]
  constructor
  · refine fun h => h.imp fun outcome hends => ?_
    cases outcome with
    | ok a => exact hends
    | error error => trivial
  · refine fun h => Program.Assuming.imp h fun outcome hends => ?_
    cases outcome with
    | ok a => exact hends
    | error error => trivial

end Assuming

/-- The rule for a loop that collects one result for each element and may throw. -/
theorem safe_mapM {f : α → Fallible C A ε β} {xs : List α}
    (Inv : List α → List β → S → Prop)
    (step : ∀ {ahead x results t}, ahead ++ [x] <+: xs → Inv ahead results t →
      Safe serve I (f x) (fun b u => Inv (ahead ++ [x]) (results ++ [b]) u) E t)
    (holds : I s) (initial : Inv [] [] s) :
    Safe serve I (xs.mapM f) (fun results t => Inv xs results t) E s := by
  suffices loop : ∀ (rest ahead : List α) (results : List β) (t : S),
      ahead ++ rest = xs → I t → Inv ahead results t →
        Safe serve I (rest.mapM f) (fun more u => Inv xs (results ++ more) u) E t by
    simpa using loop xs [] [] s rfl holds initial
  intro rest
  induction rest with
  | nil =>
      intro ahead results t hall hI hInv
      rw [List.append_nil] at hall
      subst hall
      exact ⟨hI, by simpa using hInv⟩
  | cons x rest ih =>
      intro ahead results t hall hI hInv
      have hahead : ahead ++ [x] <+: xs := ⟨rest, by simpa using hall⟩
      rw [List.mapM_cons, safe_bind]
      refine Program.Safe.imp (step hahead hInv) fun outcome u hI' hends => ?_
      cases outcome with
      | error error => exact hends
      | ok b =>
          rw [ends_ok, safe_bind]
          refine Program.Safe.imp (ih (ahead ++ [x]) (results ++ [b]) u (by simpa using hall) hI'
            hends) fun outcome v hI'' hends' => ?_
          cases outcome with
          | error error => exact hends'
          | ok more => exact ⟨hI'', by simpa using hends'⟩

/-- An execution of a sequence that returned a value went through both parts. -/
theorem exists_of_run_bind {f : α → Fallible C A ε β} {t : S} {script : List R} {b : β}
    (h : Program.run serve (x >>= f).run s script = (some (.ok b), t)) :
    ∃ a u rest, Program.run serve x.run s script = (some (.ok a), u) ∧
      Program.run serve (f a).run u rest = (some (.ok b), t) := by
  obtain ⟨outcome, u, rest, hfirst, hsecond⟩ := Program.exists_of_run_bind h
  cases outcome with
  | error error => cases congrArg Prod.fst hsecond
  | ok a => exact ⟨a, u, rest, hfirst, hsecond⟩

/-- A sequence goes on where its first part returned and used its script up. -/
theorem run_bind_of_consume {f : α → Fallible C A ε β} {t : S} {script rest : List R} {a : α}
    (h : Program.consume serve x.run s script = some (.ok a, t)) :
    Program.run serve (x >>= f).run s (script ++ rest) = Program.run serve (f a).run t rest :=
  Program.run_bind_of_consume h

theorem Safe.imp {Q' : α → S → Prop} {E' : ε → S → Prop} (h : Safe serve I x Q E s)
    (returns : ∀ a t, I t → Q a t → Q' a t) (throws : ∀ error t, I t → E error t → E' error t) :
    Safe serve I x Q' E' s :=
  Program.Safe.imp h fun outcome t hI hends => by
    cases outcome with
    | ok a => exact returns a t hI hends
    | error error => exact throws error t hI hends

theorem eval_bind {answers : C → A} {f : α → Fallible C A ε β} :
    Program.eval answers (x >>= f).run =
      (Program.eval answers x.run >>= fun a => Program.eval answers (f a).run) := by
  have hrun : (x >>= f).run = x.run >>= fun
      | .ok a => (f a).run
      | .error error => pure (.error error) := rfl
  rw [hrun, Program.eval_bind]
  cases Program.eval answers x.run <;> rfl

theorem eval_bind_eq_ok {answers : C → A} {f : α → Fallible C A ε β} {b : β} :
    Program.eval answers (x >>= f).run = .ok b ↔
      ∃ a, Program.eval answers x.run = .ok a ∧ Program.eval answers (f a).run = .ok b := by
  rw [eval_bind]
  cases Program.eval answers x.run with
  | ok a => simp [bind, Except.bind]
  | error error => simp [bind, Except.bind]

theorem eval_lift {answers : C → A} {p : Program C A α} :
    Program.eval answers (ExceptT.lift p : Fallible C A ε α).run = .ok (p.eval answers) := by
  have hrun : (ExceptT.lift p : Fallible C A ε α).run = p >>= fun a => pure (.ok a) := by
    change Except.ok <$> p = _
    rw [map_eq_pure_bind]
  rw [hrun, Program.eval_bind]
  rfl

/-- Changing what is returned changes nothing else about a run. -/
theorem run_bind_pure {f : α → β} {script : List R} :
    Program.run serve (x >>= fun a => pure (f a)).run s script =
      Prod.map (Option.map (Except.map f)) id (Program.run serve x.run s script) := by
  have hrun : (x >>= fun a => pure (f a)).run = x.run >>= fun outcome => pure (outcome.map f) := by
    change Program.bind x.run _ = Program.bind x.run _
    congr 1
    funext outcome
    cases outcome <;> rfl
  rw [hrun, Program.run_bind_pure]

/-! ### Questions -/

/-- One call, and what its answer is read as. -/
def ask (c : C) (read : A → Except ε α) : Fallible C A ε α :=
  ExceptT.mk (.call c fun a => .done (read a))

theorem safe_ask_recorded {P : List (C × A) → C → Prop} {log : List (C × A)} {c : C}
    {read : A → Except ε α} {Q : α → List (C × A) → Prop} {E : ε → List (C × A) → Prop} :
    Safe Program.recorded (Program.Justified P) (ask c read) Q E log ↔
      Program.Justified P log ∧ ∀ a, P log c ∧ ends Q E (read a) (log ++ [(c, a)]) := by
  refine and_congr_right fun hlog => forall_congr' fun a => ?_
  change Program.Justified P (log ++ [(c, a)]) ∧ _ ↔ _
  rw [Program.justified_concat, and_iff_right hlog]
  exact Iff.rfl

/-- A program that begins with a question goes on with what the answer is read as. -/
theorem run_ask_bind {c : C} {read : A → Except ε α} {f : α → Fallible C A ε β} {choice : R}
    {script : List R} :
    Program.run serve (ask c read >>= f).run s (choice :: script) =
      match read (serve s c choice).1 with
      | .ok a => Program.run serve (f a).run (serve s c choice).2 script
      | .error error => (some (.error error), (serve s c choice).2) := by
  change Program.run serve (ExceptT.bindCont f (read (serve s c choice).1)) _ script = _
  cases read (serve s c choice).1 with
  | ok a => rfl
  | error error => rfl

/-- A sequence that begins with a computation goes on where that returns. -/
theorem run_liftExcept_bind {x : Except ε α} {f : α → Fallible C A ε β} {script : List R} :
    Program.run serve ((liftM x : Fallible C A ε α) >>= f).run s script =
      match x with
      | .ok a => Program.run serve (f a).run s script
      | .error error => (some (.error error), s) := by
  cases x <;> rfl

theorem run_lift_bind {p : Program C A α} {f : α → Fallible C A ε β} {script : List R} :
    Program.run serve ((liftM p : Fallible C A ε α) >>= f).run s script =
      (p >>= fun a => (f a).run).run serve s script := by
  have hrun : ((liftM p : Fallible C A ε α) >>= f).run = p >>= fun a => (f a).run := by
    change Program.bind (Except.ok <$> p) _ = Program.bind p _
    rw [map_eq_pure_bind]
    change Program.bind (Program.bind p _) _ = _
    rw [Program.bind_assoc]
    rfl
  rw [hrun]

/-- A run returned a value when forgetting the errors leaves that value. -/
theorem returned_iff {ended : Option (Except ε α)} {a : α} :
    ended = some (.ok a) ↔ ended.bind Except.toOption = some a := by
  cases ended with
  | none => simp
  | some outcome => cases outcome <;> simp [Except.toOption]

end Fallible

end ListmonkOps.Math
