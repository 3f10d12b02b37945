/-
What the hash of a transactional payload is taken of.

A repeated send is recognised by the hash of its payload. The payload is
written for that by a serializer of its own, which sorts the keys of every
object and writes everything else as it goes over the wire: members that are
`undefined` are left out, `undefined` items and numbers that are not finite
become `null`, dates become texts. This module says when two payloads are
written alike.
-/

import Mathlib.Data.List.Sort
import ListmonkOps.Runtime.Stringify
import ListmonkOps.Transactional.Send

namespace ListmonkOps.Transactional

open ListmonkOps.Runtime

/-! ## The serializer -/

/-- The order of `entries.sort`: keys by code units. -/
def inKeyOrder {α : Type} (a b : Text × α) : Prop := a.1 ≤ b.1

instance {α : Type} : DecidableRel (inKeyOrder (α := α)) := fun a b =>
  inferInstanceAs (Decidable (a.1 ≤ b.1))

/-- `stableSerializeJson`. What a sort of the members looks at are their keys only, so it is
made here on the members as they are written. -/
def stableSerializeJson : Value → Text
  | .undefined => "null"
  | .null => "null"
  | .boolean value => if value then "true" else "false"
  | .number (.finite value) => value.toText
  | .number _ => "null"
  | .string value => quote value
  | .date (some time) => quote (isoText time)
  | .date none => "null"
  | .array items => 91 :: [44].intercalate (parts items) ++ [93]
  | .object members =>
      123 :: [44].intercalate (((entries members).insertionSort inKeyOrder).map fun entry =>
        quote entry.1 ++ 58 :: entry.2) ++ [125]
where
  parts : List Value → List Text
    | [] => []
    | item :: items => stableSerializeJson item :: parts items
  entries : List (Text × Value) → List (Text × Text)
    | [] => []
    | (key, value) :: members =>
        if value.isUndefined then entries members
        else (key, stableSerializeJson value) :: entries members

example : stableSerializeJson (.object [("b", .array [.undefined, .number (.finite .zero)]),
      ("a", .boolean true), ("c", .undefined)]) =
    123 :: quote "a" ++ (":true," : Text) ++ quote "b" ++ (":[null,0]" : Text) ++ [125] := by
  decide +kernel

/-! ## What goes over the wire -/

/-- The JSON value that is sent for a value. -/
def wire : Value → Value
  | .undefined => .null
  | .number (.finite value) => .number (.finite value)
  | .number _ => .null
  | .date (some time) => .string (isoText time)
  | .date none => .null
  | .array items => .array (wireItems items)
  | .object members => .object (wireMembers members)
  | value => value
where
  wireItems : List Value → List Value
    | [] => []
    | item :: items => wire item :: wireItems items
  wireMembers : List (Text × Value) → List (Text × Value)
    | [] => []
    | (key, value) :: members =>
        if value.isUndefined then wireMembers members else (key, wire value) :: wireMembers members

/-- The tree that is written for a value: the keys of every object are sorted. -/
def stableJson : Value → JsonTree
  | .undefined => .null
  | .null => .null
  | .boolean value => .boolean value
  | .number (.finite value) => .number value
  | .number _ => .null
  | .string value => .string value
  | .date (some time) => .string (isoText time)
  | .date none => .null
  | .array items => .array (trees items)
  | .object members => .object ((memberTrees members).insertionSort inKeyOrder)
where
  trees : List Value → List JsonTree
    | [] => []
    | item :: items => stableJson item :: trees items
  memberTrees : List (Text × Value) → List (Text × JsonTree)
    | [] => []
    | (key, value) :: members =>
        if value.isUndefined then memberTrees members
        else (key, stableJson value) :: memberTrees members

section Recursion

variable {items : List Value} {members : List (Text × Value)}

def defined (members : List (Text × Value)) : List (Text × Value) :=
  members.filter fun member => !member.2.isUndefined

theorem parts_eq : stableSerializeJson.parts items = items.map stableSerializeJson := by
  induction items with
  | nil => rfl
  | cons item items ih => rw [stableSerializeJson.parts, ih, List.map_cons]

theorem entries_eq : stableSerializeJson.entries members =
    (defined members).map fun member => (member.1, stableSerializeJson member.2) := by
  induction members with
  | nil => rfl
  | cons member members ih =>
      rw [stableSerializeJson.entries, defined, List.filter_cons]
      cases hundefined : member.2.isUndefined <;> simp [ih, defined]

theorem wireItems_eq : wire.wireItems items = items.map wire := by
  induction items with
  | nil => rfl
  | cons item items ih => rw [wire.wireItems, ih, List.map_cons]

theorem wireMembers_eq : wire.wireMembers members =
    (defined members).map fun member => (member.1, wire member.2) := by
  induction members with
  | nil => rfl
  | cons member members ih =>
      rw [wire.wireMembers, defined, List.filter_cons]
      cases hundefined : member.2.isUndefined <;> simp [ih, defined]

theorem trees_eq : stableJson.trees items = items.map stableJson := by
  induction items with
  | nil => rfl
  | cons item items ih => rw [stableJson.trees, ih, List.map_cons]

theorem memberTrees_eq : stableJson.memberTrees members =
    (defined members).map fun member => (member.1, stableJson member.2) := by
  induction members with
  | nil => rfl
  | cons member members ih =>
      rw [stableJson.memberTrees, defined, List.filter_cons]
      cases hundefined : member.2.isUndefined <;> simp [ih, defined]

end Recursion

/-! ## The text is that of a tree -/

section Texts

theorem intercalate_comma (parts : List Text) :
    [44].intercalate parts = (parts.flatMap fun part => 44 :: part).drop 1 := by
  induction parts with
  | nil => rfl
  | cons part parts ih =>
      cases parts with
      | nil => simp
      | cons next rest =>
          rw [List.intercalate_cons_cons, ih]
          simp

theorem renderItems_eq (items : List JsonTree) :
    JsonTree.render.renderItems items = (items.map JsonTree.render).flatMap fun part => 44 :: part := by
  induction items with
  | nil => rfl
  | cons item items ih => simp [JsonTree.render.renderItems, ih]

theorem renderMembers_eq (members : List (Text × JsonTree)) :
    JsonTree.render.renderMembers members =
      (members.map fun member => quote member.1 ++ 58 :: member.2.render).flatMap
        fun part => 44 :: part := by
  induction members with
  | nil => rfl
  | cons member members ih => simp [JsonTree.render.renderMembers, ih]

/-- A sort by keys looks at keys only. -/
theorem map_insertionSort_key {α β : Type} (f : α → β) (members : List (Text × α)) :
    (members.insertionSort inKeyOrder).map (fun member => (member.1, f member.2)) =
      (members.map fun member => (member.1, f member.2)).insertionSort inKeyOrder :=
  List.map_insertionSort inKeyOrder inKeyOrder _ _ fun _ _ _ _ => Iff.rfl

theorem stableSerializeJson_eq (value : Value) :
    stableSerializeJson value = (stableJson value).render := by
  induction value using Value.inductionOn with
  | array items ih =>
      rw [stableSerializeJson, parts_eq, stableJson, trees_eq, JsonTree.render, renderItems_eq,
        intercalate_comma, List.map_map, List.map_congr_left ih]
      rfl
  | object members ih =>
      have hentries : stableSerializeJson.entries members =
          (stableJson.memberTrees members).map fun member => (member.1, member.2.render) := by
        rw [entries_eq, memberTrees_eq, List.map_map]
        refine List.map_congr_left fun member hmem => ?_
        rw [ih member (List.mem_filter.mp hmem).1]
        rfl
      rw [stableSerializeJson, stableJson, JsonTree.render, renderMembers_eq, intercalate_comma,
        hentries, ← map_insertionSort_key, List.map_map]
      rfl
  | other value harray hobject =>
      cases value with
      | array items => exact absurd rfl (harray items)
      | object members => exact absurd rfl (hobject members)
      | number x => cases x <;> rfl
      | date time => cases time <;> rfl
      | _ => rfl

end Texts

/-! ## What the wire carries is what is written -/

section Wire

variable {value value' : Value} {members members' : List (Text × Value)} {key : Text}

theorem isUndefined_iff {value : Value} :
    value.isUndefined = true ↔ value = .undefined := by
  cases value <;> simp [Value.isUndefined]

theorem isUndefined_wire (value : Value) : (wire value).isUndefined = false := by
  cases value with
  | number x => cases x <;> rfl
  | date time => cases time <;> rfl
  | _ => rfl

/-- What is sent for a value is what `JSON.stringify` makes of it. -/
theorem toJson_wire (h : value.isUndefined = false) : (wire value).toJson = value.toJson := by
  induction value using Value.inductionOn with
  | array items ih =>
      rw [wire, wireItems_eq, Value.toJson, Value.itemsToJson_eq, Value.toJson,
        Value.itemsToJson_eq, List.map_map]
      refine congrArg some (congrArg JsonTree.array (List.map_congr_left fun item hmem => ?_))
      cases hundefined : item.isUndefined with
      | false => rw [Function.comp_apply, ih item hmem hundefined]
      | true =>
          obtain rfl := isUndefined_iff.mp hundefined
          rfl
  | object members ih =>
      have hmembers : Value.toJson.membersToJson (wire.wireMembers members) =
          Value.toJson.membersToJson members := by
        clear h
        induction members with
        | nil => rfl
        | cons member members ihMembers =>
            obtain ⟨key, value⟩ := member
            have hrest := ihMembers fun member hmem => ih member (List.mem_cons_of_mem _ hmem)
            cases hundefined : value.isUndefined with
            | false =>
                have hvalue := ih (key, value) List.mem_cons_self hundefined
                simp only [wire.wireMembers, hundefined, Value.toJson.membersToJson]
                simp [Value.toJson.membersToJson, hvalue, hrest]
            | true =>
                obtain rfl := isUndefined_iff.mp hundefined
                simpa [wire.wireMembers, Value.isUndefined, Value.toJson.membersToJson,
                  Value.toJson] using hrest
      rw [wire, Value.toJson, Value.toJson, hmembers]
  | other value harray hobject =>
      cases value with
      | array items => exact absurd rfl (harray items)
      | object members => exact absurd rfl (hobject members)
      | number x => cases x <;> rfl
      | date time => cases time <;> rfl
      | undefined => simp [Value.isUndefined] at h
      | _ => rfl

theorem stableJson_wire (value : Value) : stableJson (wire value) = stableJson value := by
  induction value using Value.inductionOn with
  | array items ih =>
      rw [wire, stableJson, stableJson, trees_eq, trees_eq, wireItems_eq, List.map_map]
      exact congrArg JsonTree.array (List.map_congr_left ih)
  | object members ih =>
      have hdefined : defined (wire.wireMembers members) = wire.wireMembers members := by
        rw [defined, List.filter_eq_self, wireMembers_eq]
        intro member hmem
        obtain ⟨original, -, rfl⟩ := List.mem_map.mp hmem
        simp [isUndefined_wire]
      have hmembers : stableJson.memberTrees (wire.wireMembers members) =
          stableJson.memberTrees members := by
        rw [memberTrees_eq, hdefined, memberTrees_eq, wireMembers_eq, List.map_map]
        refine List.map_congr_left fun member hmem => ?_
        rw [Function.comp_apply, ih member (List.mem_filter.mp hmem).1]
      rw [wire, stableJson, stableJson, hmembers]
  | other value harray hobject =>
      cases value with
      | array items => exact absurd rfl (harray items)
      | object members => exact absurd rfl (hobject members)
      | number x => cases x <;> rfl
      | date time => cases time <;> rfl
      | _ => rfl

theorem keys_wireMembers_sublist (members : List (Text × Value)) :
    ((wire.wireMembers members).map Prod.fst).Sublist (members.map Prod.fst) := by
  rw [wireMembers_eq, List.map_map]
  exact List.filter_sublist.map Prod.fst

/-- A member is sent as itself, unless it is `undefined`. -/
theorem get_wireMembers (hkeys : (members.map Prod.fst).Nodup) (key : Text) :
    Value.get (wire.wireMembers members) key =
      if (Value.get members key).isUndefined then .undefined else wire (Value.get members key) := by
  rcases Value.get_cases members key with hmem | hundefined
  · by_cases hundefined : (Value.get members key).isUndefined = true
    · rw [if_pos hundefined]
      refine Value.get_of_notMem fun hkey => ?_
      rw [wireMembers_eq, List.map_map] at hkey
      obtain ⟨member, hmember, rfl⟩ := List.mem_map.mp hkey
      obtain ⟨hin, hdefined⟩ := List.mem_filter.mp hmember
      simp only [Function.comp_apply, Value.get_eq_of_mem hkeys hin] at hundefined
      simp [hundefined] at hdefined
    · rw [if_neg hundefined]
      refine Value.get_eq_of_mem ((keys_wireMembers_sublist members).nodup hkeys) ?_
      rw [wireMembers_eq]
      exact List.mem_map.mpr ⟨_, List.mem_filter.mpr ⟨hmem, by simpa using hundefined⟩, rfl⟩
  · rw [hundefined]
    show Value.get (wire.wireMembers members) key = .undefined
    rcases Value.get_cases (wire.wireMembers members) key with hmem | hsent
    · rw [wireMembers_eq] at hmem
      obtain ⟨member, hmember, heq⟩ := List.mem_map.mp hmem
      obtain ⟨hin, hdefined⟩ := List.mem_filter.mp hmember
      obtain ⟨rfl, -⟩ := Prod.mk.inj heq
      rw [Value.get_eq_of_mem hkeys hin] at hundefined
      simp [hundefined, Value.isUndefined] at hdefined
    · exact hsent

theorem distinctKeys_wire (h : value.distinctKeys = true) : (wire value).distinctKeys = true := by
  induction value using Value.inductionOn with
  | array items ih =>
      rw [wire, wireItems_eq]
      refine Value.everywhere_array.mpr ⟨rfl, fun item hitem => ?_⟩
      obtain ⟨original, horiginal, rfl⟩ := List.mem_map.mp hitem
      exact ih original horiginal ((Value.everywhere_array.mp h).2 original horiginal)
  | object members ih =>
      rw [wire]
      refine Value.distinctKeys_object
        ((keys_wireMembers_sublist members).nodup (Value.nodup_keys h)) fun member hmember => ?_
      rw [wireMembers_eq] at hmember
      obtain ⟨original, horiginal, rfl⟩ := List.mem_map.mp hmember
      have hin := (List.mem_filter.mp horiginal).1
      exact ih original hin ((Value.everywhere_object.mp h).2 original hin)
  | other value harray hobject =>
      cases value with
      | array items => exact absurd rfl (harray items)
      | object members => exact absurd rfl (hobject members)
      | number x => cases x <;> rfl
      | date time => cases time <;> rfl
      | _ => rfl

/-- The tree of a member, if it is written. -/
def memberTree (members : List (Text × Value)) (key : Text) : Option JsonTree :=
  if (Value.get members key).isUndefined then none else some (stableJson (Value.get members key))

theorem mem_memberTrees_iff {json : JsonTree} (hkeys : (members.map Prod.fst).Nodup) :
    (key, json) ∈ stableJson.memberTrees members ↔ memberTree members key = some json := by
  rw [memberTrees_eq, memberTree]
  constructor
  · intro hmem
    obtain ⟨member, hmember, heq⟩ := List.mem_map.mp hmem
    obtain ⟨hin, hdefined⟩ := List.mem_filter.mp hmember
    obtain ⟨rfl, rfl⟩ := Prod.mk.inj heq
    rw [Value.get_eq_of_mem hkeys hin]
    simpa using hdefined
  · intro hwritten
    split at hwritten
    · simp at hwritten
    · next hdefined =>
        obtain rfl := Option.some.inj hwritten
        rcases Value.get_cases members key with hmem | hundefined
        · exact List.mem_map.mpr ⟨_, List.mem_filter.mpr ⟨hmem, by simpa using hdefined⟩, rfl⟩
        · simp [hundefined, Value.isUndefined] at hdefined

theorem memberTrees_keys_nodup (hkeys : (members.map Prod.fst).Nodup) :
    ((stableJson.memberTrees members).map Prod.fst).Nodup := by
  rw [memberTrees_eq, List.map_map]
  exact (List.filter_sublist.map Prod.fst).nodup hkeys

instance : Std.Total (inKeyOrder (α := JsonTree)) := ⟨fun a b => List.le_total a.1 b.1⟩

instance : IsTrans (Text × JsonTree) inKeyOrder := ⟨fun _ _ _ => List.le_trans⟩

/-- Two objects are written alike exactly when all their members are. -/
theorem stableJson_object_eq_iff (hkeys : (members.map Prod.fst).Nodup)
    (hkeys' : (members'.map Prod.fst).Nodup) :
    stableJson (.object members) = stableJson (.object members') ↔
      ∀ key, memberTree members key = memberTree members' key := by
  have hperm : (stableJson.memberTrees members).Perm (stableJson.memberTrees members') ↔
      ∀ key, memberTree members key = memberTree members' key := by
    rw [List.perm_ext_iff_of_nodup (memberTrees_keys_nodup hkeys).of_map
      (memberTrees_keys_nodup hkeys').of_map]
    constructor
    · intro h key
      apply Option.ext
      intro json
      rw [← mem_memberTrees_iff hkeys, ← mem_memberTrees_iff hkeys', h]
    · rintro h ⟨key, json⟩
      rw [mem_memberTrees_iff hkeys, mem_memberTrees_iff hkeys', h]
  rw [← hperm, stableJson, stableJson, JsonTree.object.injEq]
  constructor
  · intro h
    exact (List.perm_insertionSort inKeyOrder _).symm.trans
      (h ▸ List.perm_insertionSort inKeyOrder _)
  · intro h
    refine List.Perm.eq_of_pairwise ?_ (List.pairwise_insertionSort inKeyOrder _)
      (List.pairwise_insertionSort inKeyOrder _)
      ((List.perm_insertionSort inKeyOrder _).trans
        (h.trans (List.perm_insertionSort inKeyOrder _).symm))
    intro a b ha hb hab hba
    exact List.inj_on_of_nodup_map (memberTrees_keys_nodup hkeys)
      ((List.mem_insertionSort _).mp ha) (h.symm.subset ((List.mem_insertionSort _).mp hb))
      (List.le_antisymm hab hba)

theorem memberTree_eq_of_same (hsame : Value.Same (Value.get members key) (Value.get members' key))
    (h : stableJson (Value.get members key) = stableJson (Value.get members' key)) :
    memberTree members key = memberTree members' key := by
  have hundefined : (Value.get members key).isUndefined = (Value.get members' key).isUndefined := by
    rw [Bool.eq_iff_iff, isUndefined_iff, isUndefined_iff]
    constructor
    · intro hleft
      exact (hleft ▸ hsame).symm.eq_of_undefined
    · intro hright
      exact (hright ▸ hsame).eq_of_undefined
  rw [memberTree, memberTree, hundefined, h]

theorem stableJson_eq_of_same (hsame : Value.Same value value') (h : value.distinctKeys = true)
    (h' : value'.distinctKeys = true) : stableJson value = stableJson value' := by
  induction hsame with
  | refl => rfl
  | @array items items' hlength _ ih =>
      rw [stableJson, stableJson, trees_eq, trees_eq]
      refine congrArg JsonTree.array (List.ext_getElem (by simpa using hlength) fun i hi hi' => ?_)
      have hitem := ih i (Value.distinctKeys_getD h i) (Value.distinctKeys_getD h' i)
      simp only [List.length_map] at hi hi'
      rw [List.getD_eq_getElem _ _ hi, List.getD_eq_getElem _ _ hi'] at hitem
      rw [List.getElem_map, List.getElem_map, hitem]
  | @object members members' hmembers ih =>
      refine (stableJson_object_eq_iff (Value.nodup_keys h) (Value.nodup_keys h')).mpr fun key => ?_
      exact memberTree_eq_of_same (hmembers key)
        (ih key (Value.distinctKeys_get h key) (Value.distinctKeys_get h' key))

/-- What the tree of a value says about what is sent for it. -/
def Sends (value : Value) : JsonTree → Prop
  | .null => wire value = .null
  | .boolean flag => wire value = .boolean flag
  | .number x => wire value = .number (.finite x)
  | .string t => wire value = .string t
  | .array _ => ∃ items, value = .array items
  | .object _ => ∃ members, value = .object members

theorem sends_stableJson (value : Value) : Sends value (stableJson value) := by
  cases value with
  | number x => cases x <;> rfl
  | date time => cases time <;> rfl
  | array items => exact ⟨items, rfl⟩
  | object members => exact ⟨members, rfl⟩
  | _ => rfl

/-- Values that are written alike are sent alike, but for the order of keys. -/
theorem same_of_stableJson_eq (h : value.distinctKeys = true) (h' : value'.distinctKeys = true)
    (heq : stableJson value = stableJson value') : Value.Same (wire value) (wire value') := by
  induction value using Value.inductionOn generalizing value' with
  | array items ih =>
      have hkind := sends_stableJson value'
      rw [← heq] at hkind
      obtain ⟨items', rfl⟩ := hkind
      simp only [stableJson, trees_eq, JsonTree.array.injEq] at heq
      have hlength : items.length = items'.length := by simpa using congrArg List.length heq
      rw [wire, wire, wireItems_eq, wireItems_eq]
      refine .array (by simpa using hlength) fun i => ?_
      by_cases hi : i < items.length
      · have hi' : i < items'.length := hlength ▸ hi
        rw [List.getD_eq_getElem _ _ (by simpa using hi), List.getD_eq_getElem _ _ (by simpa using hi'),
          List.getElem_map, List.getElem_map]
        have hitem := congrArg (·[i]?) heq
        simp only [List.getElem?_map, List.getElem?_eq_getElem hi, List.getElem?_eq_getElem hi',
          Option.map_some, Option.some.injEq] at hitem
        exact ih _ (List.getElem_mem hi) ((Value.everywhere_array.mp h).2 _ (List.getElem_mem hi))
          ((Value.everywhere_array.mp h').2 _ (List.getElem_mem hi')) hitem
      · rw [List.getD_eq_default _ _ (by simpa using hi),
          List.getD_eq_default _ _ (by simpa [← hlength] using hi)]
        exact .refl _
  | object members ih =>
      have hkind := sends_stableJson value'
      rw [← heq] at hkind
      obtain ⟨members', rfl⟩ := hkind
      have hkeys := Value.nodup_keys h
      have hkeys' := Value.nodup_keys h'
      rw [stableJson_object_eq_iff hkeys hkeys'] at heq
      rw [wire, wire]
      refine .object fun key => ?_
      have hmember := heq key
      rw [get_wireMembers hkeys, get_wireMembers hkeys']
      rw [memberTree, memberTree] at hmember
      split at hmember
      · next hundefined =>
          split at hmember
          · next hundefined' =>
              rw [if_pos hundefined, if_pos hundefined']
              exact .refl _
          · simp at hmember
      · next hdefined =>
          split at hmember
          · simp at hmember
          · next hdefined' =>
              rw [if_neg hdefined, if_neg hdefined']
              rcases Value.get_cases members key with hmem | hundefined
              · exact ih _ hmem (Value.distinctKeys_get h key) (Value.distinctKeys_get h' key)
                  (Option.some.inj hmember)
              · exact absurd (isUndefined_iff.mpr hundefined) hdefined
  | other value harray hobject =>
      have hkind := sends_stableJson value
      have hkind' := sends_stableJson value'
      rw [← heq] at hkind'
      have hequal : wire value = wire value' := by
        generalize stableJson value = json at hkind hkind'
        cases json with
        | null | boolean | number | string => exact Eq.trans hkind (Eq.symm hkind')
        | array items =>
            obtain ⟨items, rfl⟩ := hkind
            exact absurd rfl (harray items)
        | object members =>
            obtain ⟨members, rfl⟩ := hkind
            exact absurd rfl (hobject members)
      rw [hequal]
      exact .refl _

/-- The serializer writes two values alike exactly when the same is sent for both. -/
theorem stableSerializeJson_eq_iff (h : value.distinctKeys = true)
    (h' : value'.distinctKeys = true) :
    stableSerializeJson value = stableSerializeJson value' ↔
      Value.Same (wire value) (wire value') := by
  rw [stableSerializeJson_eq, stableSerializeJson_eq]
  constructor
  · intro heq
    exact same_of_stableJson_eq h h' (JsonTree.render_injective heq)
  · intro hsame
    have hwire := stableJson_eq_of_same hsame (distinctKeys_wire h) (distinctKeys_wire h')
    rw [stableJson_wire, stableJson_wire] at hwire
    rw [hwire]

end Wire

/-! ## Payloads -/

def ContentType.text : ContentType → Text
  | .html => "html"
  | .markdown => "markdown"
  | .plain => "plain"

/-- The input of `serializeTransactionalPayload`. No object of it has two members of one name,
as no object of the source has. -/
structure TransactionalPayload where
  templateId : Number
  subscriberEmail : Option Text := none
  subscriberId : Option Number := none
  fromEmail : Option Text := none
  data : Option (List (Text × Value)) := none
  headers : Option (List (List (Text × Text))) := none
  contentType : Option ContentType := none
  messenger : Option Text := none
  subject : Option Text := none
  altbody : Option Text := none
  data_distinct : ∀ members, data = some members → (Value.object members).distinctKeys = true := by
    simp
  headers_distinct : ∀ list, headers = some list → ∀ header ∈ list, (header.map Prod.fst).Nodup := by
    simp

/-- An optional field: `undefined` where it is missing. -/
def optionalField {α : Type} (toValue : α → Value) (field : Option α) : Value :=
  field.elim .undefined toValue

def headerValue (header : List (Text × Text)) : Value :=
  .object (header.map fun member => (member.1, .string member.2))

/-- The object that is serialized for a payload. -/
def TransactionalPayload.value (input : TransactionalPayload) : Value :=
  .object
    [("template_id", .number input.templateId),
      ("subscriber_email", optionalField .string input.subscriberEmail),
      ("subscriber_id", optionalField .number input.subscriberId),
      ("from_email", optionalField .string input.fromEmail),
      ("data", optionalField .object input.data),
      ("headers", optionalField (fun list => .array (list.map headerValue)) input.headers),
      ("content_type", optionalField (fun type => .string type.text) input.contentType),
      ("messenger", optionalField .string input.messenger),
      ("subject", optionalField .string input.subject),
      ("altbody", optionalField .string input.altbody)]

def serializeTransactionalPayload (input : TransactionalPayload) : Text :=
  stableSerializeJson input.value

section Payloads

variable {α : Type}

theorem distinctKeys_optionalField {toValue : α → Value} {field : Option α}
    (h : ∀ a, field = some a → (toValue a).distinctKeys = true) :
    (optionalField toValue field).distinctKeys = true := by
  cases field with
  | none => rfl
  | some a => exact h a rfl

theorem distinctKeys_headerValue {header : List (Text × Text)}
    (h : (header.map Prod.fst).Nodup) : (headerValue header).distinctKeys = true := by
  refine Value.distinctKeys_object (by rwa [List.map_map]) fun member hmember => ?_
  obtain ⟨original, -, rfl⟩ := List.mem_map.mp hmember
  rfl

theorem TransactionalPayload.distinctKeys_value (input : TransactionalPayload) :
    input.value.distinctKeys = true := by
  have hnames : (["template_id", "subscriber_email", "subscriber_id", "from_email", "data",
      "headers", "content_type", "messenger", "subject", "altbody"] : List Text).Nodup := by
    decide +kernel
  refine Value.distinctKeys_object hnames fun member hmember => ?_
  simp only [List.mem_cons, List.not_mem_nil, or_false] at hmember
  rcases hmember with rfl | rfl | rfl | rfl | rfl | rfl | rfl | rfl | rfl | rfl
  · rfl
  · exact distinctKeys_optionalField fun _ _ => rfl
  · exact distinctKeys_optionalField fun _ _ => rfl
  · exact distinctKeys_optionalField fun _ _ => rfl
  · exact distinctKeys_optionalField fun members hdata => input.data_distinct members hdata
  · refine distinctKeys_optionalField fun list hheaders => ?_
    refine Value.everywhere_array.mpr ⟨rfl, fun header hheader => ?_⟩
    obtain ⟨original, horiginal, rfl⟩ := List.mem_map.mp hheader
    exact distinctKeys_headerValue (input.headers_distinct list hheaders original horiginal)
  all_goals exact distinctKeys_optionalField fun _ _ => rfl

/-- The serialized payload is canonical. Two payloads are serialized alike exactly when the
JSON values that are sent for them are the same up to the order of keys; and what is sent is
what `JSON.stringify` makes of the payload. -/
theorem serializeTransactionalPayload_eq_iff (input input' : TransactionalPayload) :
    (serializeTransactionalPayload input = serializeTransactionalPayload input' ↔
      Value.Same (wire input.value) (wire input'.value)) ∧
    (wire input.value).toJson = input.value.toJson :=
  ⟨stableSerializeJson_eq_iff input.distinctKeys_value input'.distinctKeys_value, toJson_wire rfl⟩

/-- Key order and `undefined` make no difference; a missing item and `null` are one. -/
example :
    serializeTransactionalPayload
        { templateId := .finite .zero
          data := some [("b", .null), ("a", .array [.undefined]), ("c", .undefined)]
          data_distinct := by rintro _ ⟨⟩; decide +kernel } =
      serializeTransactionalPayload
        { templateId := .finite .zero
          data := some [("a", .array [.null]), ("b", .null)]
          data_distinct := by rintro _ ⟨⟩; decide +kernel } := by
  decide +kernel

end Payloads

end ListmonkOps.Transactional
