/-
Labelled executions of a step relation.

A concurrent component is described by a relation between the state before a
step, what the step makes visible, and the state after it. An execution is the
list of those labels together with the states at its ends. Safety arguments
then need two rules only: what every step preserves holds wherever an execution
ends, and an execution can be cut at any of its labels.
-/

import Mathlib.Data.List.Induction

namespace ListmonkOps.Math

universe u v

/-- Executions of a labelled step relation, oldest label first. -/
inductive Run {σ : Type u} {ε : Type v} (step : σ → ε → σ → Prop) :
    σ → List ε → σ → Prop
  | /-- Nothing has happened yet. -/
    refl (s : σ) : Run step s [] s
  | /-- One more step at the end of an execution. -/
    snoc {s t u : σ} {labels : List ε} {label : ε} (before : Run step s labels t)
      (last : step t label u) : Run step s (labels ++ [label]) u

namespace Run

variable {σ : Type u} {ε : Type v} {step : σ → ε → σ → Prop}
variable {s t u : σ} {first second labels : List ε} {label : ε}

theorem single (h : step s label t) : Run step s [label] t :=
  snoc (refl s) h

theorem trans (hfirst : Run step s first t) (hsecond : Run step t second u) :
    Run step s (first ++ second) u := by
  induction hsecond with
  | refl => simpa using hfirst
  | snoc before last ih =>
      rw [← List.append_assoc]
      exact snoc ih last

theorem cons (h : step s label t) (rest : Run step t labels u) :
    Run step s (label :: labels) u :=
  (single h).trans rest

@[simp]
theorem nil_iff : Run step s [] t ↔ t = s := by
  constructor
  · generalize hempty : ([] : List ε) = labels
    intro hrun
    cases hrun with
    | refl => rfl
    | snoc before last => simp at hempty
  · rintro rfl
    exact refl _

theorem snoc_iff : Run step s (labels ++ [label]) u ↔
    ∃ middle, Run step s labels middle ∧ step middle label u := by
  constructor
  · generalize hlabels : labels ++ [label] = all
    intro hrun
    cases hrun with
    | refl => simp at hlabels
    | snoc before last =>
        obtain ⟨rfl, hlabel⟩ := List.append_inj' hlabels rfl
        obtain rfl := List.singleton_inj.mp hlabel
        exact ⟨_, before, last⟩
  · rintro ⟨middle, before, last⟩
    exact snoc before last

theorem append_iff : Run step s (first ++ second) u ↔
    ∃ middle, Run step s first middle ∧ Run step middle second u := by
  constructor
  · intro hrun
    induction second using List.reverseRecOn generalizing u with
    | nil => exact ⟨u, by simpa using hrun, refl u⟩
    | append_singleton second label ih =>
        rw [← List.append_assoc, snoc_iff] at hrun
        obtain ⟨before, hbefore, last⟩ := hrun
        obtain ⟨middle, hfirst, hsecond⟩ := ih hbefore
        exact ⟨middle, hfirst, snoc hsecond last⟩
  · rintro ⟨middle, hfirst, hsecond⟩
    exact hfirst.trans hsecond

theorem cons_iff : Run step s (label :: labels) u ↔
    ∃ middle, step s label middle ∧ Run step middle labels u := by
  rw [← List.singleton_append, append_iff]
  constructor
  · rintro ⟨middle, hfirst, hrest⟩
    rw [← List.nil_append [label], snoc_iff] at hfirst
    obtain ⟨start, hstart, hstep⟩ := hfirst
    obtain rfl := nil_iff.mp hstart
    exact ⟨middle, hstep, hrest⟩
  · rintro ⟨middle, hstep, hrest⟩
    exact ⟨middle, single hstep, hrest⟩

theorem invariant {I : σ → Prop}
    (preserves : ∀ {s label t}, I s → step s label t → I t)
    (hrun : Run step s labels t) (initial : I s) : I t := by
  induction hrun with
  | refl => exact initial
  | snoc before last ih => exact preserves ih last

/-- The invariant rule for a property that also reads the labels so far. -/
theorem history_invariant {I : List ε → σ → Prop}
    (preserves : ∀ {labels t label u}, Run step s labels t → I labels t →
      step t label u → I (labels ++ [label]) u)
    (hrun : Run step s labels t) (initial : I [] s) : I labels t := by
  induction hrun with
  | refl => exact initial
  | snoc before last ih => exact preserves before ih last

theorem of_foldlM {step : σ → ε → Option σ} (h : labels.foldlM step s = some t) :
    Run (fun s label t => step s label = some t) s labels t := by
  induction labels generalizing s with
  | nil =>
      obtain rfl : s = t := by simpa using h
      exact refl s
  | cons label labels ih =>
      rw [List.foldlM_cons, Option.bind_eq_bind, Option.bind_eq_some_iff] at h
      obtain ⟨middle, hfirst, hrest⟩ := h
      exact cons hfirst (ih hrest)

theorem mono {other : σ → ε → σ → Prop}
    (weaker : ∀ {s label t}, step s label t → other s label t)
    (hrun : Run step s labels t) : Run other s labels t := by
  induction hrun with
  | refl => exact refl _
  | snoc before last ih => exact snoc ih (weaker last)

/-- The steps of an execution meet a condition that their labels always meet. -/
theorem and_of_labels {P : σ → ε → Prop} (hrun : Run step s labels t)
    (good : ∀ label ∈ labels, ∀ s, P s label) :
    Run (fun s label t => step s label t ∧ P s label) s labels t := by
  induction hrun with
  | refl => exact refl _
  | snoc before last ih =>
      refine snoc (ih fun label hlabel => good label ?_) ⟨last, good _ ?_ _⟩
      · exact List.mem_append_left _ hlabel
      · simp

end Run

end ListmonkOps.Math
