/-
Domain names and what a resolver says about them.

The doctor of a provider compares domain names without regard to case or to the
dot of the root. A lookup gives values, no values or a failure, and a failure is
kept apart from an absence throughout: it is the failure that leaves a question
open.
-/

import ListmonkOps.Runtime.Text

namespace ListmonkOps.Provider

open ListmonkOps.Runtime

/-! ## Letter case -/

/-- The lower case of a letter of ASCII. -/
def asciiLower (unit : UInt16) : UInt16 := if 65 ≤ unit && unit ≤ 90 then unit + 32 else unit

/-- `toLowerCase` changes the letters of a text of ASCII one by one. -/
class LawfulCaseMapping [CaseMapping] : Prop where
  ascii : ∀ t : Text, (∀ unit ∈ t, unit < 128) → CaseMapping.toLowerCase t = t.map asciiLower

theorem ascii_of_all {t : Text} (h : t.all (· < 128) = true) : ∀ unit ∈ t, unit < 128 := by
  intro unit hunit
  simpa using List.all_eq_true.mp h unit hunit

theorem lawful_asciiCaseMapping : @LawfulCaseMapping asciiCaseMapping :=
  @LawfulCaseMapping.mk asciiCaseMapping fun _ _ => rfl

theorem toNat_asciiLower (unit : UInt16) :
    (asciiLower unit).toNat =
      if 65 ≤ unit.toNat ∧ unit.toNat ≤ 90 then unit.toNat + 32 else unit.toNat := by
  simp only [asciiLower, Bool.and_eq_true, decide_eq_true_eq, UInt16.le_iff_toNat_le]
  split_ifs with h h' h'
  · have hadd : (unit + 32).toNat = (unit.toNat + 32) % 65536 := rfl
    have hupper : unit.toNat ≤ 90 := h.2
    omega
  · exact absurd h h'
  · exact absurd h' h
  · rfl

theorem asciiLower_asciiLower (unit : UInt16) : asciiLower (asciiLower unit) = asciiLower unit := by
  rw [← UInt16.toNat_inj, toNat_asciiLower, toNat_asciiLower]
  split_ifs <;> omega

theorem asciiLower_eq_dot {unit : UInt16} : asciiLower unit = 46 ↔ unit = 46 := by
  rw [← UInt16.toNat_inj, ← UInt16.toNat_inj, toNat_asciiLower]
  have hdot : (46 : UInt16).toNat = 46 := rfl
  split_ifs <;> omega

theorem asciiLower_lt {unit : UInt16} (h : unit < 128) : asciiLower unit < 128 := by
  rw [UInt16.lt_iff_toNat_lt] at h ⊢
  have hbound : (128 : UInt16).toNat = 128 := rfl
  rw [toNat_asciiLower]
  split_ifs <;> omega

/-! ## Domain names -/

section Domains

variable [CaseMapping]

/-- `domain.toLowerCase().replace(/\.$/, "")`. -/
def normalizeDomain (domain : Text) : Text :=
  let lower := CaseMapping.toLowerCase domain
  if lower.getLast? = some 46 then lower.dropLast else lower

def isSameOrSubdomain (domain parentDomain : Text) : Bool :=
  normalizeDomain domain = normalizeDomain parentDomain ||
    (46 :: normalizeDomain parentDomain) <:+ normalizeDomain domain

end Domains

/-- The labels of a name, from the leaf to the top. -/
def labelsOf (domain : Text) : List Text := domain.splitOn 46

/-- `labels.join(".")`. -/
def joinLabels (labels : List Text) : Text := [46].intercalate labels

/-- The labels of a domain name: there is one, none is empty or has a dot, and all are ASCII. -/
structure AsciiLabels (labels : List Text) : Prop where
  nonempty : labels ≠ []
  filled : ∀ label ∈ labels, label ≠ []
  undotted : ∀ label ∈ labels, 46 ∉ label
  ascii : ∀ label ∈ labels, ∀ unit ∈ label, unit < 128

theorem asciiLabels_of_all {labels : List Text} (hne : labels ≠ [])
    (h : labels.all (fun label => label ≠ [] && 46 ∉ label && label.all (· < 128)) = true) :
    AsciiLabels labels := by
  have hlabel : ∀ label ∈ labels, (label ≠ [] ∧ 46 ∉ label) ∧ label.all (· < 128) = true := by
    intro label hmem
    simpa only [Bool.and_eq_true, decide_eq_true_eq] using List.all_eq_true.mp h label hmem
  exact ⟨hne, fun label hmem => (hlabel label hmem).1.1, fun label hmem => (hlabel label hmem).1.2,
    fun label hmem => ascii_of_all (hlabel label hmem).2⟩

structure LowerLabels (labels : List Text) : Prop extends AsciiLabels labels where
  lower : ∀ label ∈ labels, ∀ unit ∈ label, asciiLower unit = unit

/-- A domain name; the dot of the root may be written. -/
def IsDomain (domain : Text) : Prop :=
  ∃ labels, AsciiLabels labels ∧ (domain = joinLabels labels ∨ domain = joinLabels labels ++ [46])

variable {labels : List Text}

theorem labelsOf_joinLabels (h : AsciiLabels labels) : labelsOf (joinLabels labels) = labels :=
  List.splitOn_intercalate 46 h.undotted h.nonempty

theorem joinLabels_inj {labels' : List Text} (h : AsciiLabels labels) (h' : AsciiLabels labels') :
    joinLabels labels = joinLabels labels' ↔ labels = labels' := by
  refine ⟨fun heq => ?_, congrArg _⟩
  rw [← labelsOf_joinLabels h, heq, labelsOf_joinLabels h']

theorem joinLabels_cons_cons (label next : Text) (labels : List Text) :
    joinLabels (label :: next :: labels) = label ++ 46 :: joinLabels (next :: labels) := by
  simp [joinLabels, List.intercalate]

theorem joinLabels_singleton (label : Text) : joinLabels [label] = label := by
  simp [joinLabels, List.intercalate]

theorem map_joinLabels {f : UInt16 → UInt16} (h : f 46 = 46) (labels : List Text) :
    (joinLabels labels).map f = joinLabels (labels.map (List.map f)) := by
  induction labels with
  | nil => rfl
  | cons label labels ih =>
      cases labels with
      | nil => simp [joinLabels_singleton]
      | cons next labels =>
          rw [joinLabels_cons_cons, List.map_append, List.map_cons, h, ih]
          simp only [List.map_cons, joinLabels_cons_cons]

theorem mem_joinLabels {unit : UInt16} (h : unit ∈ joinLabels labels) :
    unit = 46 ∨ ∃ label ∈ labels, unit ∈ label := by
  induction labels with
  | nil => simp [joinLabels, List.intercalate] at h
  | cons label labels ih =>
      cases labels with
      | nil =>
          rw [joinLabels_singleton] at h
          exact .inr ⟨label, List.mem_cons_self, h⟩
      | cons next labels =>
          rw [joinLabels_cons_cons, List.mem_append, List.mem_cons] at h
          rcases h with h | h | h
          · exact .inr ⟨label, List.mem_cons_self, h⟩
          · exact .inl h
          · exact (ih h).imp id fun ⟨other, hother, hunit⟩ =>
              ⟨other, List.mem_cons_of_mem _ hother, hunit⟩

theorem suffix_joinLabels {m : ℕ} (labels : List Text) (hm : m + 1 < labels.length) :
    (46 :: joinLabels (labels.drop (m + 1))) <:+ joinLabels labels := by
  induction labels generalizing m with
  | nil => simp at hm
  | cons label labels ih =>
      cases labels with
      | nil => simp at hm
      | cons next labels =>
          rw [joinLabels_cons_cons]
          refine List.IsSuffix.trans ?_ (List.suffix_append label _)
          cases m with
          | zero => exact List.suffix_refl _
          | succ m => exact (ih (by simpa using hm)).trans (List.suffix_cons 46 _)

theorem getLast?_joinLabels (h : AsciiLabels labels) : (joinLabels labels).getLast? ≠ some 46 := by
  have hlast : ∀ label ∈ labels, label.getLast? ≠ some 46 := fun label hlabel hdot =>
    h.undotted label hlabel (List.mem_of_getLast? hdot)
  have hfilled := h.filled
  have hnonempty := h.nonempty
  clear h
  induction labels with
  | nil => exact absurd rfl hnonempty
  | cons label labels ih =>
      cases labels with
      | nil =>
          rw [joinLabels_singleton]
          exact hlast label List.mem_cons_self
      | cons next labels =>
          have hrest := ih (fun l hl => hlast l (List.mem_cons_of_mem _ hl))
            (fun l hl => hfilled l (List.mem_cons_of_mem _ hl)) (List.cons_ne_nil _ _)
          have hne : joinLabels (next :: labels) ≠ [] := by
            have hnext := hfilled next (by simp)
            cases labels with
            | nil => rwa [joinLabels_singleton]
            | cons other labels => rw [joinLabels_cons_cons]; simp [hnext]
          rwa [joinLabels_cons_cons, List.getLast?_append_of_ne_nil _ (List.cons_ne_nil _ _),
            List.getLast?_cons_of_ne_nil hne]

theorem AsciiLabels.lower (h : AsciiLabels labels) :
    LowerLabels (labels.map (List.map asciiLower)) where
  nonempty := by simpa using h.nonempty
  filled label hlabel := by
    obtain ⟨source, hsource, rfl⟩ := List.mem_map.mp hlabel
    simpa using h.filled source hsource
  undotted label hlabel hdot := by
    obtain ⟨source, hsource, rfl⟩ := List.mem_map.mp hlabel
    obtain ⟨unit, hunit, hlower⟩ := List.mem_map.mp hdot
    exact h.undotted source hsource (asciiLower_eq_dot.mp hlower ▸ hunit)
  ascii label hlabel unit hunit := by
    obtain ⟨source, hsource, rfl⟩ := List.mem_map.mp hlabel
    obtain ⟨inner, hinner, rfl⟩ := List.mem_map.mp hunit
    exact asciiLower_lt (h.ascii source hsource inner hinner)
  lower label hlabel unit hunit := by
    obtain ⟨source, hsource, rfl⟩ := List.mem_map.mp hlabel
    obtain ⟨unit, -, rfl⟩ := List.mem_map.mp hunit
    exact asciiLower_asciiLower unit

theorem LowerLabels.drop (h : LowerLabels labels) {i : ℕ} (hi : i < labels.length) :
    LowerLabels (labels.drop i) where
  nonempty := by
    rw [Ne, List.drop_eq_nil_iff]
    omega
  filled label hlabel := h.filled label (List.mem_of_mem_drop hlabel)
  undotted label hlabel := h.undotted label (List.mem_of_mem_drop hlabel)
  ascii label hlabel := h.ascii label (List.mem_of_mem_drop hlabel)
  lower label hlabel := h.lower label (List.mem_of_mem_drop hlabel)

section Normalize

variable [CaseMapping] [LawfulCaseMapping]

theorem toLowerCase_joinLabels (h : AsciiLabels labels) (root : Text)
    (hroot : ∀ unit ∈ root, unit < 128) :
    CaseMapping.toLowerCase (joinLabels labels ++ root) =
      joinLabels (labels.map (List.map asciiLower)) ++ root.map asciiLower := by
  rw [LawfulCaseMapping.ascii, List.map_append, map_joinLabels (by decide)]
  intro unit hunit
  rcases List.mem_append.mp hunit with hunit | hunit
  · rcases mem_joinLabels hunit with rfl | ⟨label, hlabel, hunit⟩
    · decide
    · exact h.ascii label hlabel unit hunit
  · exact hroot unit hunit

theorem exists_labels_of_isDomain {domain : Text} (h : IsDomain domain) :
    ∃ labels, LowerLabels labels ∧ normalizeDomain domain = joinLabels labels := by
  obtain ⟨labels, hlabels, rfl | rfl⟩ := h
  · refine ⟨_, hlabels.lower, ?_⟩
    have hlower := toLowerCase_joinLabels hlabels [] (by simp)
    rw [List.append_nil, List.map_nil, List.append_nil] at hlower
    rw [normalizeDomain, hlower, if_neg (getLast?_joinLabels hlabels.lower.toAsciiLabels)]
  · refine ⟨_, hlabels.lower, ?_⟩
    have hlower := toLowerCase_joinLabels hlabels [46] (ascii_of_all (by decide))
    rw [List.map_singleton, show asciiLower 46 = 46 from rfl] at hlower
    rw [normalizeDomain, hlower, if_pos (by simp), List.dropLast_concat]

theorem normalizeDomain_joinLabels (h : LowerLabels labels) :
    normalizeDomain (joinLabels labels) = joinLabels labels := by
  have hsame : labels.map (List.map asciiLower) = labels := by
    conv_rhs => rw [← List.map_id labels]
    refine List.map_congr_left fun label hlabel => ?_
    conv_rhs => rw [id, ← List.map_id label]
    exact List.map_congr_left fun unit hunit => h.lower label hlabel unit hunit
  have hlower := toLowerCase_joinLabels h.toAsciiLabels [] (by simp)
  rw [List.append_nil, List.map_nil, List.append_nil, hsame] at hlower
  rw [normalizeDomain, hlower, if_neg (getLast?_joinLabels h.toAsciiLabels)]

end Normalize

/-! ## Answers -/

/-- What a lookup gives: the values found, or the text of its failure. -/
abbrev DnsAnswer (α : Type) := Except Text (List α)

inductive DnsType where
  | txt
  | cname
  | mx
  | a
  | aaaa
  deriving DecidableEq

structure DnsObservation where
  name : Text
  type : DnsType
  values : List Text
  error : Option Text := none
  deriving DecidableEq

inductive DnsOutcome where
  | found
  | missing
  | error
  deriving DecidableEq

structure ResolvedObservation where
  observation : DnsObservation
  values : List Text
  outcome : DnsOutcome
  deriving DecidableEq

def resolveDnsObservation (name : Text) (type : DnsType) (answer : DnsAnswer Text) :
    ResolvedObservation :=
  match answer with
  | .ok values =>
      { observation := { name, type, values }
        values
        outcome := if values = [] then .missing else .found }
  | .error error =>
      { observation := { name, type, values := [], error := some error }
        values := []
        outcome := .error }

end ListmonkOps.Provider
