/-
Programs that run among others.

The tasks of a team run programs over one shared state, a call at a time, in any order, and
the surroundings may change the state between two calls. What a task counts on is its
`rely`: every step of the others is one. What it promises is its `guarantee`. A program is
safe among others when each of its calls, made in whatever state the others have left,
keeps the invariant and the promise, and what it returns satisfies a postcondition that
the others cannot take away. When every promise is covered by what the others count on,
all programs that are safe among others stay so together.
-/

import ListmonkOps.Math.Program
import ListmonkOps.Math.Run

namespace ListmonkOps.Math

/-- Tasks over a shared state: how it serves their calls, which choices it has, when a task may make
a call, what holds all along, what each task counts on and promises, which tasks still run, and
what happens around them. -/
structure Team (ι C A S R : Type) where
  serve : ι → S → C → R → A × S
  allowed : ι → C → R → Prop
  entitled : ι → C → S → Prop
  invariant : S → Prop
  rely : ι → S → S → Prop
  guarantee : ι → S → S → Prop
  live : ι → S → Prop
  around : S → S → Prop

namespace Team

variable {ι C A S R ε α β : Type}

/-- What makes the promises fit: what one task guarantees is what the others rely on, and the
steps around the team keep both. -/
structure Lawful (m : Team ι C A S R) : Prop where
  refl : ∀ i s, m.rely i s s
  trans : ∀ {i s t u}, m.rely i s t → m.rely i t u → m.rely i s u
  lives : ∀ {i j s t}, m.guarantee i s t → m.live j t → m.live j s
  covers : ∀ {i j s t}, i ≠ j → m.invariant s → m.live i s → m.live j s → m.guarantee i s t →
    m.rely j s t
  around : ∀ {s t}, m.invariant s → m.around s t →
    m.invariant t ∧ ∀ {j}, m.live j t → m.live j s ∧ m.rely j s t

/-- Every call of the task, in whatever state the others have left, is one that it may make
and keeps the invariant and the promise, and the postcondition holds from where the task
returns on. -/
def SafeAmong (m : Team ι C A S R) (i : ι) : Program C A α → (α → S → Prop) → S → Prop
  | .done a, Q, s => ∀ t, m.invariant t → m.rely i s t → Q a t
  | .call c next, Q, s => ∀ t, m.invariant t → m.rely i s t → m.live i t →
      m.entitled i c t ∧ ∀ choice, m.allowed i c choice →
        m.invariant (m.serve i t c choice).2 ∧ m.guarantee i t (m.serve i t c choice).2 ∧
          SafeAmong m i (next (m.serve i t c choice).1) Q (m.serve i t c choice).2

variable {m : Team ι C A S R} {i : ι} {p : Program C A α} {Q Q' : α → S → Prop} {s t : S}

theorem SafeAmong.later (hm : m.Lawful) (h : m.SafeAmong i p Q s) (hrely : m.rely i s t) :
    m.SafeAmong i p Q t := by
  cases p with
  | done a => exact fun u hu hlater => h u hu (hm.trans hrely hlater)
  | call c next => exact fun u hu hlater => h u hu (hm.trans hrely hlater)

/-- Nor does it matter to look only after the others had their turn. -/
theorem safeAmong_of_later (hm : m.Lawful)
    (h : ∀ t, m.invariant t → m.rely i s t → m.SafeAmong i p Q t) : m.SafeAmong i p Q s := by
  cases p with
  | done a => exact fun t ht hrely => h t ht hrely t ht (hm.refl i t)
  | call c next => exact fun t ht hrely => h t ht hrely t ht (hm.refl i t)

theorem SafeAmong.imp (h : m.SafeAmong i p Q s) (post : ∀ a t, m.invariant t → Q a t → Q' a t) :
    m.SafeAmong i p Q' s := by
  induction p generalizing s with
  | done a => exact fun t ht hrely => post a t ht (h t ht hrely)
  | call c next ih =>
      intro t ht hrely hlive
      obtain ⟨hentitled, hcall⟩ := h t ht hrely hlive
      refine ⟨hentitled, fun choice hallowed => ?_⟩
      obtain ⟨hinv, hguarantee, hnext⟩ := hcall choice hallowed
      exact ⟨hinv, hguarantee, ih _ hnext⟩

/-- A sequence is safe when its second part is safe wherever the first ends. -/
theorem safeAmong_bind (hm : m.Lawful) {f : α → Program C A β} {Q : β → S → Prop}
    (h : m.SafeAmong i p (fun a t => m.SafeAmong i (f a) Q t) s) :
    m.SafeAmong i (p >>= f) Q s := by
  induction p generalizing s with
  | done a => exact safeAmong_of_later hm h
  | call c next ih =>
      intro t ht hrely hlive
      obtain ⟨hentitled, hcall⟩ := h t ht hrely hlive
      refine ⟨hentitled, fun choice hallowed => ?_⟩
      obtain ⟨hinv, hguarantee, hnext⟩ := hcall choice hallowed
      exact ⟨hinv, hguarantee, ih _ hnext⟩

/-- An assertion that the others cannot take away: it survives every step that a task relies on.
-/
def Stable (m : Team ι C A S R) (i : ι) (P : S → Prop) : Prop :=
  ∀ s t, P s → m.invariant t → m.rely i s t → P t

theorem safeAmong_pure {a : α} (hQ : m.Stable i (Q a)) (h : Q a s) :
    m.SafeAmong i (pure a : Program C A α) Q s :=
  fun t ht hrely => hQ s t h ht hrely

/-! ## Programs that may throw -/

/-- The postcondition of a program that may throw, by how it ends. -/
def FallibleAmong (m : Team ι C A S R) (i : ι) (x : Fallible C A ε α) (Q : α → S → Prop)
    (E : ε → S → Prop) (s : S) : Prop :=
  m.SafeAmong i x.run (Fallible.ends Q E) s

section Fallible

variable {x : Fallible C A ε α} {E E' : ε → S → Prop}

theorem FallibleAmong.later (hm : m.Lawful) (h : m.FallibleAmong i x Q E s) (hrely : m.rely i s t) :
    m.FallibleAmong i x Q E t :=
  SafeAmong.later hm h hrely

theorem FallibleAmong.imp (h : m.FallibleAmong i x Q E s)
    (returns : ∀ a t, m.invariant t → Q a t → Q' a t)
    (throws : ∀ error t, m.invariant t → E error t → E' error t) :
    m.FallibleAmong i x Q' E' s :=
  SafeAmong.imp h fun outcome t ht hends => by
    cases outcome with
    | ok a => exact returns a t ht hends
    | error error => exact throws error t ht hends

theorem fallibleAmong_pure {a : α} (hQ : m.Stable i (Q a)) (h : Q a s) :
    m.FallibleAmong i (pure a : Fallible C A ε α) Q E s :=
  fun t ht hrely => hQ s t h ht hrely

theorem fallibleAmong_throw {error : ε} (hE : m.Stable i (E error)) (h : E error s) :
    m.FallibleAmong i (throw error : Fallible C A ε α) Q E s :=
  fun t ht hrely => hE s t h ht hrely

theorem fallibleAmong_bind (hm : m.Lawful) {f : α → Fallible C A ε β} {Q : β → S → Prop}
    (hE : ∀ error, m.Stable i (E error))
    (h : m.FallibleAmong i x (fun a t => m.FallibleAmong i (f a) Q E t) E s) :
    m.FallibleAmong i (x >>= f) Q E s := by
  have hrun : (x >>= f).run = x.run >>= ExceptT.bindCont f := rfl
  rw [FallibleAmong, hrun]
  refine safeAmong_bind hm (SafeAmong.imp h fun outcome t _ hends => ?_)
  cases outcome with
  | ok a => exact hends
  | error error => exact safeAmong_pure (hE error) hends

theorem fallibleAmong_lift (hm : m.Lawful) {Q : Except ε α → S → Prop} {ε' : Type}
    {E : ε' → S → Prop} (hQ : ∀ outcome, m.Stable i (Q outcome))
    (h : m.FallibleAmong i x (fun a t => Q (.ok a) t) (fun error t => Q (.error error) t) s) :
    m.FallibleAmong i (ExceptT.lift x.run : Fallible C A ε' (Except ε α)) Q E s := by
  have hrun : (ExceptT.lift x.run : Fallible C A ε' (Except ε α)).run =
      x.run >>= fun outcome => pure (.ok outcome) := by
    change Except.ok <$> x.run = _
    rw [map_eq_pure_bind]
  rw [FallibleAmong, hrun]
  refine safeAmong_bind hm (SafeAmong.imp h fun outcome t _ hends => ?_)
  refine safeAmong_pure (hQ outcome) ?_
  cases outcome with
  | ok a => exact hends
  | error error => exact hends

/-- The rule for a question: what holds before the call, whatever the others do, and what
it leads to. -/
theorem fallibleAmong_ask {c : C} {read : A → Except ε α} {P : S → Prop} (hP : m.Stable i P)
    (h : P s) (hQ : ∀ a, m.Stable i (Q a)) (hE : ∀ error, m.Stable i (E error))
    (hentitled : ∀ t, P t → m.entitled i c t)
    (step : ∀ t, m.invariant t → m.live i t → P t → ∀ choice, m.allowed i c choice →
      m.invariant (m.serve i t c choice).2 ∧ m.guarantee i t (m.serve i t c choice).2 ∧
        Fallible.ends Q E (read (m.serve i t c choice).1) (m.serve i t c choice).2) :
    m.FallibleAmong i (Fallible.ask c read) Q E s := by
  intro t ht hrely hlive
  refine ⟨hentitled t (hP s t h ht hrely), fun choice hallowed => ?_⟩
  obtain ⟨hinv, hguarantee, hends⟩ := step t ht hlive (hP s t h ht hrely) choice hallowed
  refine ⟨hinv, hguarantee, fun u hu hlater => ?_⟩
  cases hread : read (m.serve i t c choice).1 with
  | ok a =>
      rw [hread] at hends
      exact hQ a _ u hends hu hlater
  | error error =>
      rw [hread] at hends
      exact hE error _ u hends hu hlater

end Fallible

/-! ## Interleavings -/

/-- The shared state, and what is left of each task. -/
structure World (ι C A S α : Type) where
  state : S
  rest : ι → Program C A α

/-- The invariant holds, and the rest of every live task is safe from here on, whatever the others
do. -/
structure Sound (m : Team ι C A S R) (Q : ι → α → S → Prop) (world : World ι C A S α) : Prop where
  invariant : m.invariant world.state
  safe : ∀ i, m.live i world.state → m.SafeAmong i (world.rest i) (Q i) world.state

variable {Q : ι → α → S → Prop} {world : World ι C A S α}

theorem Sound.entitled (hm : m.Lawful) (h : m.Sound Q world) {i : ι} {c : C}
    {next : A → Program C A α} (hlive : m.live i world.state) (hrest : world.rest i = .call c next) :
    m.entitled i c world.state := by
  have hsafe := h.safe i hlive
  rw [hrest] at hsafe
  exact (hsafe world.state h.invariant (hm.refl i _) hlive).1

variable [DecidableEq ι]

/-- One step: a live task makes its next call, or something happens around the tasks. -/
inductive Step (m : Team ι C A S R) : World ι C A S α → Option ι → World ι C A S α → Prop
  | call {world : World ι C A S α} {i : ι} {c : C} {next : A → Program C A α}
      (hlive : m.live i world.state) (hrest : world.rest i = .call c next) (choice : R)
      (hallowed : m.allowed i c choice) :
      Step m world (some i) ⟨(m.serve i world.state c choice).2,
        Function.update world.rest i (next (m.serve i world.state c choice).1)⟩
  | around {world : World ι C A S α} {t : S} (h : m.around world.state t) :
      Step m world none ⟨t, world.rest⟩

variable {world' : World ι C A S α} {label : Option ι}

theorem Sound.step (hm : m.Lawful) (h : m.Sound Q world) (hstep : m.Step world label world') :
    m.Sound Q world' := by
  cases hstep with
  | @call i c next hlive hrest choice hallowed =>
      have hsafe := h.safe i hlive
      rw [hrest] at hsafe
      obtain ⟨hinv, hguarantee, hnext⟩ :=
        (hsafe world.state h.invariant (hm.refl i _) hlive).2 choice hallowed
      refine ⟨hinv, fun j hj => ?_⟩
      dsimp only at hj ⊢
      by_cases hsame : j = i
      · subst hsame
        rw [Function.update_self]
        exact hnext
      · rw [Function.update_of_ne hsame]
        have hbefore := hm.lives hguarantee hj
        refine (h.safe j hbefore).later hm ?_
        exact hm.covers (Ne.symm hsame) h.invariant hlive hbefore hguarantee
  | around haround =>
      obtain ⟨hinv, hothers⟩ := hm.around h.invariant haround
      refine ⟨hinv, fun j hj => ?_⟩
      exact (h.safe j (hothers hj).1).later hm (hothers hj).2

theorem Sound.run (hm : m.Lawful) (h : m.Sound Q world) {labels : List (Option ι)}
    (hrun : Run m.Step world labels world') : m.Sound Q world' := by
  induction hrun with
  | refl => exact h
  | snoc before last ih => exact ih.step hm last

/-- What a task that returned has been promised, if nothing takes it away any more. It does not
matter whether the task still runs. -/
theorem Sound.returned (hm : m.Lawful) (h : m.Sound Q world) {labels : List (Option ι)}
    (hrun : Run m.Step world labels world')
    (hcalls : ∀ i s c choice j a, Q j a s → Q j a (m.serve i s c choice).2)
    (haround : ∀ s t j a, m.around s t → Q j a s → Q j a t)
    (hstart : ∀ i a, world.rest i = .done a → Q i a world.state) {i : ι} {a : α}
    (hrest : world'.rest i = .done a) : Q i a world'.state := by
  induction hrun generalizing i a with
  | refl => exact hstart i a hrest
  | @snoc middle _ _ _ before last ih =>
      have hsound := h.run hm before
      cases last with
      | @call j c next hlive hcall choice hallowed =>
          by_cases hsame : i = j
          · subst hsame
            have hsafe := hsound.safe i hlive
            rw [hcall] at hsafe
            obtain ⟨hinv, -, hnext⟩ :=
              (hsafe middle.state hsound.invariant (hm.refl i _) hlive).2 choice hallowed
            dsimp only at hrest
            rw [Function.update_self] at hrest
            rw [hrest] at hnext
            exact hnext _ hinv (hm.refl i _)
          · dsimp only at hrest
            rw [Function.update_of_ne hsame] at hrest
            exact hcalls j _ _ _ i a (ih hrest)
      | around hchange => exact haround _ _ i a hchange (ih hrest)

end Team

end ListmonkOps.Math
