/-
Lists whose entries are filed under a key.

A document store keeps its records in an array and finds them by an identifier
that each record carries. This module collects the two ways such a list is
used: as a plain list whose keys happen to be distinct, and as a table, where
distinctness is part of the value and every operation keeps it.
-/

import Mathlib.Data.List.Forall2
import Mathlib.Data.List.Nodup

namespace ListmonkOps.Math

universe u v w

variable {α : Type u} {κ : Type v} {key : α → κ}
variable {xs : List α} {a b : α} {k : κ}

/-! ## Lists of which one entry moves -/

section Positions

variable {i j : ℕ}

/-- After the entry at one position was replaced: that entry, or another one. -/
theorem getElem?_set_cases (h : (xs.set i a)[j]? = some b) :
    (j = i ∧ b = a) ∨ (j ≠ i ∧ xs[j]? = some b) := by
  by_cases hj : i = j
  · subst hj
    rw [List.getElem?_set_self'] at h
    obtain ⟨_, -, rfl⟩ := Option.map_eq_some_iff.mp h
    exact .inl ⟨rfl, rfl⟩
  · rw [List.getElem?_set_ne hj] at h
    exact .inr ⟨Ne.symm hj, h⟩

theorem getElem?_set_of_some (h : xs[i]? = some b) : (xs.set i a)[i]? = some a := by
  rw [List.getElem?_set_self', h]
  rfl

theorem set_of_getElem?_eq (h : xs[i]? = some a) : xs.set i a = xs := by
  obtain ⟨hi, rfl⟩ := List.getElem?_eq_some_iff.mp h
  exact List.set_getElem_self hi

/-- After an entry was appended: it, or one that was there. -/
theorem getElem?_concat_cases (h : (xs ++ [a])[i]? = some b) :
    xs[i]? = some b ∨ (i = xs.length ∧ b = a) := by
  rcases Nat.lt_trichotomy i xs.length with hlt | rfl | hgt
  · exact .inl (by rwa [List.getElem?_append_left hlt] at h)
  · rw [List.getElem?_concat_length] at h
    exact .inr ⟨rfl, (Option.some.inj h).symm⟩
  · have hlength : (xs ++ [a]).length ≤ i := by simpa using Nat.succ_le_of_lt hgt
    simp [List.getElem?_eq_none hlength] at h

theorem getElem?_of_extended {ys : List α} (h : xs <+: ys) (hi : xs[i]? = some a) :
    ys[i]? = some a := by
  obtain ⟨later, rfl⟩ := h
  rw [List.getElem?_append_left (List.getElem?_eq_some_iff.mp hi).1, hi]

end Positions

/-! ## Lists related entry by entry -/

section Related

variable {β : Type w} {R : α → β → Prop} {ys : List β} {b : β}

theorem exists_left_of_forall₂ (h : List.Forall₂ R xs ys) (hmem : b ∈ ys) : ∃ a ∈ xs, R a b := by
  obtain ⟨i, hi, rfl⟩ := List.mem_iff_getElem.mp hmem
  have hlength := h.length_eq
  exact ⟨xs[i], List.getElem_mem _, (List.forall₂_iff_get.mp h).2 i (by omega) hi⟩

theorem exists_right_of_forall₂ (h : List.Forall₂ R xs ys) (hmem : a ∈ xs) : ∃ b ∈ ys, R a b :=
  exists_left_of_forall₂ (R := flip R) h.flip hmem

theorem map_eq_of_forall₂ {γ : Type*} {f : α → γ} {g : β → γ} (h : List.Forall₂ R xs ys)
    (heq : ∀ {a b}, R a b → g b = f a) : ys.map g = xs.map f := by
  induction h with
  | nil => rfl
  | cons hhead _ ih => rw [List.map_cons, List.map_cons, heq hhead, ih]

end Related

/-! ## Lists with distinct keys -/

theorem nodup_eraseDups {κ : Type v} [BEq κ] [LawfulBEq κ] (ks : List κ) : ks.eraseDups.Nodup := by
  induction hlength : ks.length using Nat.strongRecOn generalizing ks with
  | ind n ih =>
      cases ks with
      | nil => exact List.nodup_nil
      | cons k ks =>
          have hshorter : (ks.filter (fun other => !other == k)).length < n := by
            have hle := List.length_filter_le (fun other => !other == k) ks
            have hcons : (k :: ks).length = ks.length + 1 := rfl
            omega
          rw [List.eraseDups_cons, List.nodup_cons]
          refine ⟨fun hmem => ?_, ih _ hshorter _ rfl⟩
          simp at hmem

theorem nodup_map_key_filter (p : α → Bool) (distinct : (xs.map key).Nodup) :
    ((xs.filter p).map key).Nodup :=
  distinct.sublist (List.filter_sublist.map key)

theorem nodup_map_key_append (distinct : (xs.map key).Nodup)
    (fresh : ∀ x ∈ xs, key x ≠ key a) : ((xs ++ [a]).map key).Nodup := by
  rw [List.map_append, List.nodup_append]
  refine ⟨distinct, by simp, ?_⟩
  rintro k hk k' hk' rfl
  obtain ⟨x, hx, hxk⟩ := List.mem_map.mp hk
  obtain rfl : k = key a := by simpa using hk'
  exact fresh x hx hxk

variable [DecidableEq κ]

/-- A search by key finds exactly the entry that carries it. -/
theorem find?_key_eq_some_iff (distinct : (xs.map key).Nodup) :
    xs.find? (fun x => key x = k) = some a ↔ a ∈ xs ∧ key a = k := by
  constructor
  · intro hfind
    exact ⟨List.mem_of_find?_eq_some hfind, by simpa using List.find?_some hfind⟩
  · rintro ⟨hmem, rfl⟩
    have hsome : (xs.find? fun x => key x = key a).isSome :=
      List.find?_isSome.mpr ⟨a, hmem, by simp⟩
    obtain ⟨b, hfind⟩ := Option.isSome_iff_exists.mp hsome
    have hkey : key b = key a := by simpa using List.find?_some hfind
    rw [hfind, List.inj_on_of_nodup_map distinct
      (List.mem_of_find?_eq_some hfind) hmem hkey]

/-- A search by key fails exactly when no entry carries it. -/
theorem find?_key_eq_none_iff :
    xs.find? (fun x => key x = k) = none ↔ ∀ x ∈ xs, key x ≠ k := by
  simp [List.find?_eq_none]

/-- Put `a` in the place of the entries that carry its key. -/
def replaceBy (key : α → κ) (xs : List α) (a : α) : List α :=
  xs.map fun x => if key x = key a then a else x

@[simp]
theorem map_key_replaceBy : (replaceBy key xs a).map key = xs.map key := by
  rw [replaceBy, List.map_map]
  refine List.map_congr_left fun x _ => ?_
  by_cases hx : key x = key a <;> simp [hx]

@[simp]
theorem length_replaceBy : (replaceBy key xs a).length = xs.length :=
  List.length_map _

theorem mem_replaceBy : b ∈ replaceBy key xs a ↔
    (b = a ∧ ∃ x ∈ xs, key x = key a) ∨ (b ∈ xs ∧ key b ≠ key a) := by
  rw [replaceBy, List.mem_map]
  constructor
  · rintro ⟨x, hx, rfl⟩
    by_cases hkey : key x = key a
    · exact .inl ⟨by simp [hkey], x, hx, hkey⟩
    · exact .inr (by simpa [hkey] using hx)
  · rintro (⟨rfl, x, hx, hkey⟩ | ⟨hb, hkey⟩)
    · exact ⟨x, hx, by simp [hkey]⟩
    · exact ⟨b, hb, by simp [hkey]⟩

theorem mem_replaceBy_of_ne (hmem : b ∈ xs) (hkey : key b ≠ key a) :
    b ∈ replaceBy key xs a :=
  mem_replaceBy.mpr (.inr ⟨hmem, hkey⟩)

theorem mem_replaceBy_self (hmem : b ∈ xs) (hkey : key b = key a) :
    a ∈ replaceBy key xs a :=
  mem_replaceBy.mpr (.inl ⟨rfl, b, hmem, hkey⟩)

/-- Another field stays distinct under a replacement that brings a new value for
it. -/
theorem nodup_map_replaceBy {β : Type*} {f : α → β} (hkeys : (xs.map key).Nodup)
    (hf : (xs.map f).Nodup) (hnew : ∀ x ∈ xs, key x ≠ key a → f x ≠ f a) :
    ((replaceBy key xs a).map f).Nodup := by
  have hlist : (replaceBy key xs a).Nodup :=
    List.Nodup.of_map key (by simpa using hkeys)
  rw [List.nodup_map_iff_inj_on hlist]
  intro x hx y hy hxy
  rcases mem_replaceBy.mp hx with ⟨rfl, -⟩ | ⟨hx', hxkey⟩ <;>
    rcases mem_replaceBy.mp hy with ⟨rfl, -⟩ | ⟨hy', hykey⟩
  · rfl
  · exact absurd hxy.symm (hnew y hy' hykey)
  · exact absurd hxy (hnew x hx' hxkey)
  · exact List.inj_on_of_nodup_map hf hx' hy' hxy

/-- Put `a` in the place of the first entry that carries its key. -/
def replaceFirstBy (key : α → κ) : List α → α → List α
  | [], _ => []
  | x :: xs, a => if key x = key a then a :: xs else x :: replaceFirstBy key xs a

/-- Where keys are distinct the first entry under a key is the only one. -/
theorem replaceFirstBy_eq_replaceBy (distinct : (xs.map key).Nodup) :
    replaceFirstBy key xs a = replaceBy key xs a := by
  induction xs with
  | nil => rfl
  | cons x xs ih =>
      rw [List.map_cons, List.nodup_cons] at distinct
      obtain ⟨hnew, hrest⟩ := distinct
      by_cases hx : key x = key a
      · have hothers : replaceBy key xs a = xs := by
          refine (List.map_congr_left fun y hy => ?_).trans (List.map_id xs)
          rw [if_neg fun hkey => hnew (List.mem_map.mpr ⟨y, hy, hkey.trans hx.symm⟩)]
          rfl
        simp only [replaceFirstBy, hx, if_true, replaceBy, List.map_cons]
        rw [← replaceBy, hothers]
      · simp only [replaceFirstBy, hx, if_false, replaceBy, List.map_cons]
        rw [← replaceBy, ih hrest]

/-- Put several entries in the places of those that carry their keys. -/
def replaceAllBy (key : α → κ) (xs news : List α) : List α :=
  news.foldl (replaceBy key) xs

@[simp]
theorem map_key_replaceAllBy {news : List α} : (replaceAllBy key xs news).map key = xs.map key := by
  induction news generalizing xs with
  | nil => rfl
  | cons new news ih =>
      rw [replaceAllBy, List.foldl_cons, ← replaceAllBy, ih, map_key_replaceBy]

theorem mem_replaceAllBy {news : List α} (distinct : (news.map key).Nodup) :
    b ∈ replaceAllBy key xs news ↔
      (b ∈ news ∧ ∃ x ∈ xs, key x = key b) ∨ (b ∈ xs ∧ ∀ new ∈ news, key new ≠ key b) := by
  induction news generalizing xs with
  | nil => simp [replaceAllBy]
  | cons new news ih =>
      rw [List.map_cons, List.nodup_cons] at distinct
      obtain ⟨hnew, hrest⟩ := distinct
      have hkeys : ∀ k, (∃ x ∈ replaceBy key xs new, key x = k) ↔ ∃ x ∈ xs, key x = k := by
        intro k
        rw [← List.mem_map, ← List.mem_map, map_key_replaceBy]
      rw [replaceAllBy, List.foldl_cons, ← replaceAllBy, ih hrest, hkeys, mem_replaceBy]
      rw [List.forall_mem_cons, List.mem_cons]
      constructor
      · rintro (⟨hb, hx⟩ | ⟨⟨rfl, hx⟩ | ⟨hb, hne⟩, hothers⟩)
        · exact .inl ⟨.inr hb, hx⟩
        · exact .inl ⟨.inl rfl, hx⟩
        · exact .inr ⟨hb, Ne.symm hne, hothers⟩
      · rintro (⟨rfl | hb, hx⟩ | ⟨hb, hne, hothers⟩)
        · refine .inr ⟨.inl ⟨rfl, hx⟩, fun other hother hkey => hnew ?_⟩
          exact List.mem_map.mpr ⟨other, hother, hkey⟩
        · exact .inl ⟨hb, hx⟩
        · exact .inr ⟨.inr ⟨hb, Ne.symm hne⟩, hothers⟩

/-! ## Tables -/

/-- Entries under pairwise distinct keys. -/
structure Table (key : α → κ) where
  /-- The entries, in the order they were filed. -/
  entries : List α
  /-- No key is used twice. -/
  distinct : (entries.map key).Nodup

namespace Table

variable {t : Table key} {p : α → Bool}

def empty (key : α → κ) : Table key := ⟨[], List.nodup_nil⟩

def get? (t : Table key) (k : κ) : Option α := t.entries.find? fun x => key x = k

def size (t : Table key) : ℕ := t.entries.length

/-- Keep the entries that satisfy a test. -/
def filter (p : α → Bool) (t : Table key) : Table key :=
  ⟨t.entries.filter p, nodup_map_key_filter p t.distinct⟩

/-- File an entry, in the place of the one that carries its key if there is one. -/
def set (t : Table key) (a : α) : Table key :=
  if fresh : ∀ x ∈ t.entries, key x ≠ key a then
    ⟨t.entries ++ [a], nodup_map_key_append t.distinct fresh⟩
  else
    ⟨replaceBy key t.entries a, by simpa using t.distinct⟩

/-- Remove the entry filed under a key. -/
def erase (t : Table key) (k : κ) : Table key :=
  t.filter fun x => key x ≠ k

theorem get?_eq_some_iff : t.get? k = some a ↔ a ∈ t.entries ∧ key a = k :=
  find?_key_eq_some_iff t.distinct

theorem get?_eq_none_iff : t.get? k = none ↔ ∀ x ∈ t.entries, key x ≠ k :=
  find?_key_eq_none_iff

theorem key_of_get? (h : t.get? k = some a) : key a = k :=
  (get?_eq_some_iff.mp h).2

@[simp]
theorem get?_empty : (empty key).get? k = none := rfl

theorem mem_set : b ∈ (t.set a).entries ↔ b = a ∨ (b ∈ t.entries ∧ key b ≠ key a) := by
  unfold set
  split
  · next fresh =>
      simp only [List.mem_append, List.mem_singleton]
      constructor
      · rintro (hb | rfl)
        · exact .inr ⟨hb, fresh b hb⟩
        · exact .inl rfl
      · rintro (rfl | ⟨hb, -⟩)
        · exact .inr rfl
        · exact .inl hb
  · next taken =>
      simp only [not_forall, not_not] at taken
      obtain ⟨x, hx, hkey⟩ := taken
      rw [mem_replaceBy]
      constructor
      · rintro (⟨rfl, -⟩ | hb)
        · exact .inl rfl
        · exact .inr hb
      · rintro (rfl | hb)
        · exact .inl ⟨rfl, x, hx, hkey⟩
        · exact .inr hb

@[simp]
theorem get?_set_self : (t.set a).get? (key a) = some a := by
  rw [get?_eq_some_iff]
  exact ⟨mem_set.mpr (.inl rfl), rfl⟩

theorem get?_set_of_ne (hk : k ≠ key a) : (t.set a).get? k = t.get? k := by
  apply Option.ext
  intro b
  rw [get?_eq_some_iff, get?_eq_some_iff, mem_set]
  constructor
  · rintro ⟨rfl | ⟨hb, -⟩, rfl⟩
    · exact absurd rfl hk
    · exact ⟨hb, rfl⟩
  · rintro ⟨hb, rfl⟩
    exact ⟨.inr ⟨hb, hk⟩, rfl⟩

theorem get?_filter_eq_some_iff :
    (t.filter p).get? k = some a ↔ t.get? k = some a ∧ p a = true := by
  rw [get?_eq_some_iff, get?_eq_some_iff]
  simp only [filter, List.mem_filter]
  tauto

theorem get?_filter_of_pos (h : t.get? k = some a) (hp : p a = true) :
    (t.filter p).get? k = some a :=
  get?_filter_eq_some_iff.mpr ⟨h, hp⟩

theorem get?_filter_of_neg (h : t.get? k = some a) (hp : p a = false) :
    (t.filter p).get? k = none := by
  apply Option.eq_none_iff_forall_ne_some.mpr
  intro b hb
  obtain ⟨hget, hpb⟩ := get?_filter_eq_some_iff.mp hb
  obtain rfl : a = b := Option.some.inj (h.symm.trans hget)
  simp [hp] at hpb

theorem get?_filter_of_none (h : t.get? k = none) : (t.filter p).get? k = none := by
  apply Option.eq_none_iff_forall_ne_some.mpr
  intro b hb
  have hget := (get?_filter_eq_some_iff.mp hb).1
  simp [h] at hget

@[simp]
theorem get?_erase_self : (t.erase k).get? k = none := by
  rw [get?_eq_none_iff]
  intro x hx
  simpa using (List.mem_filter.mp hx).2

theorem get?_erase_of_ne {k' : κ} (hk : k' ≠ k) : (t.erase k).get? k' = t.get? k' := by
  cases hget : t.get? k' with
  | none => exact get?_filter_of_none hget
  | some x =>
      refine get?_filter_of_pos hget ?_
      simpa [key_of_get? hget] using hk

def ofList (key : α → κ) (xs : List α) : Table key :=
  xs.foldl set (empty key)

theorem entries_foldl_set_of_nodup (distinct : ((t.entries ++ xs).map key).Nodup) :
    (xs.foldl set t).entries = t.entries ++ xs := by
  induction xs generalizing t with
  | nil => simp
  | cons x xs ih =>
      have hfresh : ∀ y ∈ t.entries, key y ≠ key x := by
        intro y hy hkey
        rw [List.map_append, List.nodup_append] at distinct
        exact distinct.2.2 _ (List.mem_map_of_mem hy) _ (by simp) hkey
      have hset : (t.set x).entries = t.entries ++ [x] := by rw [set, dif_pos hfresh]
      rw [List.foldl_cons, ih (by simpa [hset] using distinct), hset]
      simp

@[simp]
theorem entries_ofList (distinct : (xs.map key).Nodup) : (ofList key xs).entries = xs := by
  rw [ofList, entries_foldl_set_of_nodup (by simpa [empty] using distinct)]
  rfl

theorem mem_foldl_set (h : a ∈ (xs.foldl set t).entries) : a ∈ t.entries ∨ a ∈ xs := by
  induction xs generalizing t with
  | nil => exact .inl h
  | cons x xs ih =>
      rcases ih h with hset | hrest
      · rcases mem_set.mp hset with rfl | ⟨hold, -⟩
        · exact .inr (by simp)
        · exact .inl hold
      · exact .inr (List.mem_cons_of_mem x hrest)

theorem mem_of_mem_ofList (h : a ∈ (ofList key xs).entries) : a ∈ xs :=
  (mem_foldl_set h).resolve_left (by simp [empty])

/-- Put the entries of a table in the places of those that carry their keys. -/
def substitute (t : Table key) (xs : List α) : List α :=
  xs.map fun x => (t.get? (key x)).getD x

@[simp]
theorem map_key_substitute : (t.substitute xs).map key = xs.map key := by
  rw [substitute, List.map_map]
  refine List.map_congr_left fun x _ => ?_
  cases hget : t.get? (key x) with
  | none => simp [hget]
  | some a => simp [hget, key_of_get? hget]

end Table

end ListmonkOps.Math
