/-
The budgets of an SPF inspection.

Whatever a resolver answers, an inspection ends: the record of what it did shows
no lookup after an eleventh term that queries DNS, and no such term after a third
void lookup. An inspection that runs into one of these limits is invalid. The
depth of the nesting is bounded by the terms taken, so that ten levels are enough.
-/

import ListmonkOps.Provider.SpfRanges

namespace ListmonkOps.Provider

open ListmonkOps.Math ListmonkOps.Runtime

/-! ## The record of an inspection -/

abbrev SpfLog := List (SpfCall × DnsAnswer Text)

def SpfCall.isCharge : SpfCall → Bool
  | .charge _ => true
  | .lookup .. => false

def charges (log : SpfLog) : ℕ := log.countP (·.1.isCharge)

def isVoidFor (family : IpFamily) : SpfCall × DnsAnswer Text → Bool
  | (.lookup _ _ senders, answer) => isVoidAnswer answer && family ∈ senders
  | _ => false

/-- The lookups without an answer, in the evaluation for senders of a version. -/
def voids (family : IpFamily) (log : SpfLog) : ℕ := log.countP (isVoidFor family)

/-- A limit of the evaluation for some sender is exceeded. -/
def Exceeded (log : SpfLog) : Prop :=
  maxSpfDnsLookups < charges log ∨ ∃ family, maxSpfVoidLookups < voids family log

/-- What may be done next: a lookup unless the eleventh term came up, and a term
unless a limit is exceeded. -/
def Allowed (before : SpfLog) : SpfCall → Prop
  | .lookup .. => charges before ≤ maxSpfDnsLookups
  | .charge _ => ¬Exceeded before

theorem charges_append (log tail : SpfLog) : charges (log ++ tail) = charges log + charges tail :=
  List.countP_append

theorem voids_append (family : IpFamily) (log tail : SpfLog) :
    voids family (log ++ tail) = voids family log + voids family tail :=
  List.countP_append

/-- An inspection that does only what it may, and ends with the postcondition. -/
def Keeps {α : Type} (inspection : Spf α) (Q : α → SpfLog → Prop) (log : SpfLog) : Prop :=
  Fallible.Safe Program.recorded (Program.Justified Allowed) inspection Q (fun _ _ => False) log

section Rules

variable {α β : Type} {log : SpfLog} {inspection : Spf α} {Q : α → SpfLog → Prop}

theorem keeps_pure {a : α} (hlog : Program.Justified Allowed log) (h : Q a log) :
    Keeps (pure a) Q log :=
  ⟨hlog, h⟩

theorem Keeps.justified (h : Keeps inspection Q log) : Program.Justified Allowed log :=
  Program.Safe.now h

theorem Keeps.imp {Q' : α → SpfLog → Prop} (h : Keeps inspection Q log)
    (himp : ∀ a log', Program.Justified Allowed log' → Q a log' → Q' a log') :
    Keeps inspection Q' log :=
  Fallible.Safe.imp h himp fun _ _ _ => id

theorem Keeps.bind {f : α → Spf β} {Q' : β → SpfLog → Prop} (h : Keeps inspection Q log)
    (hnext : ∀ a log', Program.Justified Allowed log' → Q a log' → Keeps (f a) Q' log') :
    Keeps (inspection >>= f) Q' log :=
  Fallible.safe_bind.mpr (h.imp hnext)

theorem keeps_askDnsFor {senders : List IpFamily} {type : DnsType} {name : Text}
    {Q : DnsAnswer Text → SpfLog → Prop} (hlog : Program.Justified Allowed log)
    (hcharges : charges log ≤ maxSpfDnsLookups)
    (h : ∀ answer, Q answer (log ++ [(.lookup type name senders, answer)])) :
    Keeps (askDnsFor senders type name) Q log :=
  Fallible.safe_ask_recorded.mpr ⟨hlog, fun answer => ⟨hcharges, h answer⟩⟩

end Rules

/-! ## Budgets and records -/

/-- A budget counts what the record shows: every term that was charged, and every void lookup of
each family. -/
structure Counts (used : ℕ) (void : IpFamily → ℕ) (log : SpfLog) : Prop where
  charged : charges log = used
  missed : ∀ family, voids family log = void family

/-- The counters are those of the record, and within the limits. -/
structure Kept (used : ℕ) (void : IpFamily → ℕ) (log : SpfLog) : Prop extends
    Counts used void log where
  used_le : used ≤ maxSpfDnsLookups
  void_le : ∀ family, void family ≤ maxSpfVoidLookups

section Counting

variable {used : ℕ} {void : IpFamily → ℕ} {log : SpfLog}

theorem Kept.not_exceeded (h : Kept used void log) : ¬Exceeded log := by
  rintro (hcharges | ⟨family, hvoids⟩)
  · rw [h.charged] at hcharges
    exact absurd h.used_le (not_le.mpr hcharges)
  · rw [h.missed] at hvoids
    exact absurd (h.void_le family) (not_le.mpr hvoids)

theorem Counts.charge (h : Counts used void log) (term : Text) (answer : DnsAnswer Text) :
    Counts (used + 1) void (log ++ [(.charge term, answer)]) where
  charged := by rw [charges_append, h.charged]; rfl
  missed family := by rw [voids_append, h.missed]; rfl

theorem Counts.lookup (h : Counts used void log) (type : DnsType) (name : Text)
    (senders : List IpFamily) (answer : DnsAnswer Text) :
    Counts used (fun family => void family + if isVoidAnswer answer && family ∈ senders then 1 else 0)
      (log ++ [(.lookup type name senders, answer)]) where
  charged := by rw [charges_append, h.charged]; rfl
  missed family := by
    rw [voids_append, h.missed, voids, List.countP_singleton]
    rfl

/-- A lookup for any sender. -/
theorem Counts.lookupAny {void : ℕ} (h : Counts used (fun _ => void) log) (type : DnsType)
    (name : Text) (answer : DnsAnswer Text) :
    Counts used (fun _ => void + if isVoidAnswer answer then 1 else 0)
      (log ++ [(.lookup type name [.v4, .v6], answer)]) := by
  have hany : ∀ family : IpFamily, family ∈ [IpFamily.v4, .v6] := by
    rintro (_ | _) <;> simp
  simpa [hany] using h.lookup type name [.v4, .v6] answer

theorem keeps_consumeSpfDnsLookup {budget : SpfDnsLookupBudget} {term : Text}
    (hlog : Program.Justified Allowed log) (h : Kept budget.used void log)
    {Q : Option SpfDnsLookupBudget → SpfLog → Prop} (hnone : ∀ log', Q none log')
    (hsome : ∀ log' next, next.used = budget.used + 1 → Kept next.used void log' →
      Q (some next) log') :
    Keeps (consumeSpfDnsLookup term budget) Q log := by
  refine Fallible.safe_ask_recorded.mpr ⟨hlog, fun answer => ⟨h.not_exceeded, ?_⟩⟩
  split_ifs with hused
  · exact hnone _
  · exact hsome _ { used := budget.used + 1 } rfl
      ⟨h.toCounts.charge term answer, not_le.mp hused, h.void_le⟩

end Counting

end ListmonkOps.Provider
