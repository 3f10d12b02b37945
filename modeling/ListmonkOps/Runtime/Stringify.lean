/-
Values of the source and the JSON texts they are written as.

`JSON.stringify` first turns a value into a JSON value (`undefined` members
disappear, numbers that are not finite become `null`) and then writes it
without blanks. A JSON value can be read off its text, and a text so written
never holds half a surrogate pair. Functions, symbols, big integers and cyclic
values do not occur in the data written here.
-/

import Mathlib.Data.List.GetD
import Mathlib.Data.List.Nodup
import ListmonkOps.Runtime.Timestamp

namespace ListmonkOps.Runtime

/-! ## Surrogates -/

/-- The first half of a surrogate pair. -/
def isLeadSurrogate (unit : UInt16) : Bool := 0xD800 ≤ unit && unit ≤ 0xDBFF

/-- The second half of a surrogate pair. -/
def isTrailSurrogate (unit : UInt16) : Bool := 0xDC00 ≤ unit && unit ≤ 0xDFFF

/-- `String.prototype.isWellFormed`: surrogates occur in pairs only. -/
def Text.isWellFormed : Text → Bool
  | [] => true
  | [unit] => !isLeadSurrogate unit && !isTrailSurrogate unit
  | unit :: next :: rest =>
      if isLeadSurrogate unit && isTrailSurrogate next then isWellFormed rest
      else !isLeadSurrogate unit && !isTrailSurrogate unit && isWellFormed (next :: rest)

theorem Text.isWellFormed_append {a b : Text} (ha : a.isWellFormed) (hb : b.isWellFormed) :
    Text.isWellFormed (a ++ b) := by
  induction a using Text.isWellFormed.induct with
  | case1 => exact hb
  | case2 unit =>
      simp only [isWellFormed, Bool.and_eq_true, Bool.not_eq_true'] at ha
      cases b with
      | nil => simp [isWellFormed, ha]
      | cons next rest => simp [isWellFormed, ha, hb]
  | case3 unit next rest hpair ih =>
      rw [isWellFormed, if_pos hpair] at ha
      simpa [isWellFormed, hpair] using ih ha
  | case4 unit next rest hpair ih =>
      rw [isWellFormed, if_neg hpair] at ha
      simp only [Bool.and_eq_true] at ha
      have hrest := ih ha.2
      rw [List.cons_append] at hrest
      simp only [List.cons_append, isWellFormed, if_neg hpair, ha.1, hrest, Bool.and_self]

theorem Text.isWellFormed_of_plain {t : Text}
    (h : ∀ unit ∈ t, isLeadSurrogate unit = false ∧ isTrailSurrogate unit = false) :
    t.isWellFormed := by
  induction t with
  | nil => rfl
  | cons unit rest ih =>
      obtain ⟨hlead, htrail⟩ := h unit (by simp)
      have hrest := ih fun u hu => h u (List.mem_cons_of_mem _ hu)
      cases rest with
      | nil => simp [isWellFormed, hlead, htrail]
      | cons next rest => simp [isWellFormed, hlead, htrail, hrest]

/-! ## Quoted texts -/

/-- A hexadecimal digit, written in lower case. -/
def hexDigit (n : ℕ) : UInt16 := UInt16.ofNat (if n < 10 then 48 + n else 87 + n)

/-- The value of a lower-case hexadecimal digit. -/
def hexValue (unit : UInt16) : ℕ := if unit.toNat < 58 then unit.toNat - 48 else unit.toNat - 87

theorem hexValue_hexDigit : ∀ n < 16, hexValue (hexDigit n) = n := by decide

theorem hexDigit_plain : ∀ n < 16,
    isLeadSurrogate (hexDigit n) = false ∧ isTrailSurrogate (hexDigit n) = false := by decide

/-- The escape sequence of one code unit. -/
def unicodeEscape (unit : UInt16) : Text :=
  [92, 117, hexDigit (unit.toNat / 4096), hexDigit (unit.toNat / 256 % 16),
    hexDigit (unit.toNat / 16 % 16), hexDigit (unit.toNat % 16)]

/-- One code unit that is not half of a surrogate pair. -/
def escapeUnit (unit : UInt16) : Text :=
  if unit = 8 then [92, 98]
  else if unit = 9 then [92, 116]
  else if unit = 10 then [92, 110]
  else if unit = 12 then [92, 102]
  else if unit = 13 then [92, 114]
  else if unit = 34 then [92, 34]
  else if unit = 92 then [92, 92]
  else if unit < 32 || isLeadSurrogate unit || isTrailSurrogate unit then unicodeEscape unit
  else [unit]

def escape : Text → Text
  | [] => []
  | [unit] => escapeUnit unit
  | unit :: next :: rest =>
      if isLeadSurrogate unit && isTrailSurrogate next then unit :: next :: escape rest
      else escapeUnit unit ++ escape (next :: rest)

/-- `QuoteJSONString`. -/
def quote (t : Text) : Text := 34 :: (escape t ++ [34])

/-- Read a quoted text up to the closing quote: the text and what follows. -/
def unescape : Text → Option (Text × Text)
  | [] => none
  | 34 :: rest => some ([], rest)
  | 92 :: 117 :: a :: b :: c :: d :: rest =>
      (unescape rest).map fun (t, after) =>
        (UInt16.ofNat (hexValue a * 4096 + hexValue b * 256 + hexValue c * 16 + hexValue d) :: t,
          after)
  | 92 :: letter :: rest =>
      (unescape rest).map fun (t, after) =>
        ((if letter = 98 then 8 else if letter = 116 then 9 else if letter = 110 then 10
          else if letter = 102 then 12 else if letter = 114 then 13 else letter) :: t, after)
  | unit :: rest => (unescape rest).map fun (t, after) => (unit :: t, after)

theorem unescape_cons {unit : UInt16} (hquote : unit ≠ 34) (hslash : unit ≠ 92) (rest : Text) :
    unescape (unit :: rest) = (unescape rest).map fun (t, after) => (unit :: t, after) := by
  rw [unescape]
  · exact fun h => hquote h
  · intro _ _ _ _ _ h
    exact absurd h hslash
  · intro _ _ h
    exact absurd h hslash

theorem unescape_unicodeEscape (unit : UInt16) (rest : Text) :
    unescape (unicodeEscape unit ++ rest) =
      (unescape rest).map fun (t, after) => (unit :: t, after) := by
  have hlt := unit.toNat_lt
  have hvalue : UInt16.ofNat (hexValue (hexDigit (unit.toNat / 4096)) * 4096 +
      hexValue (hexDigit (unit.toNat / 256 % 16)) * 256 +
      hexValue (hexDigit (unit.toNat / 16 % 16)) * 16 +
      hexValue (hexDigit (unit.toNat % 16))) = unit := by
    rw [hexValue_hexDigit _ (by omega), hexValue_hexDigit _ (by omega),
      hexValue_hexDigit _ (by omega), hexValue_hexDigit _ (by omega)]
    have hsum : unit.toNat / 4096 * 4096 + unit.toNat / 256 % 16 * 256 +
        unit.toNat / 16 % 16 * 16 + unit.toNat % 16 = unit.toNat := by omega
    rw [hsum, UInt16.ofNat_toNat]
  simp only [unicodeEscape, List.cons_append, List.nil_append, unescape, hvalue]

theorem unescape_escapeUnit (unit : UInt16) (rest : Text) :
    unescape (escapeUnit unit ++ rest) =
      (unescape rest).map fun (t, after) => (unit :: t, after) := by
  unfold escapeUnit
  split
  · next h => subst h; simp [unescape]
  split
  · next h => subst h; simp [unescape]
  split
  · next h => subst h; simp [unescape]
  split
  · next h => subst h; simp [unescape]
  split
  · next h => subst h; simp [unescape]
  split
  · next h => subst h; simp [unescape]
  split
  · next h => subst h; simp [unescape]
  split
  · exact unescape_unicodeEscape unit rest
  · next hquote hslash _ => exact unescape_cons hquote hslash rest

theorem unescape_escape (t after : Text) : unescape (escape t ++ 34 :: after) = some (t, after) := by
  induction t using escape.induct with
  | case1 => simp [escape, unescape]
  | case2 unit =>
      rw [escape, unescape_escapeUnit]
      simp [unescape]
  | case3 unit next rest hpair ih =>
      have hplain : ∀ u : UInt16, (isLeadSurrogate u || isTrailSurrogate u) = true →
          u ≠ 34 ∧ u ≠ 92 := by
        intro u hu
        constructor <;>
        · rintro rfl
          exact absurd hu (by decide)
      rw [Bool.and_eq_true] at hpair
      obtain ⟨hquote, hslash⟩ := hplain unit (by simp [hpair.1])
      obtain ⟨hquote', hslash'⟩ := hplain next (by simp [hpair.2])
      rw [escape, if_pos (by simp [hpair]), List.cons_append, List.cons_append,
        unescape_cons hquote hslash, unescape_cons hquote' hslash', ih]
      rfl
  | case4 unit next rest hpair ih =>
      rw [escape, if_neg hpair, List.append_assoc, unescape_escapeUnit, ih]
      rfl

theorem quote_append_inj {t t' after after' : Text} (h : quote t ++ after = quote t' ++ after') :
    t = t' ∧ after = after' := by
  simp only [quote, List.cons_append, List.append_assoc, List.nil_append, List.cons.injEq,
    true_and] at h
  have hread := unescape_escape t after
  rw [h, unescape_escape] at hread
  simp only [Option.some.injEq, Prod.mk.injEq] at hread
  exact ⟨hread.1.symm, hread.2.symm⟩

theorem isWellFormed_escapeUnit (unit : UInt16) : (escapeUnit unit).isWellFormed := by
  unfold escapeUnit
  iterate 7 (split; · rfl)
  split
  · apply Text.isWellFormed_of_plain
    have hlt := unit.toNat_lt
    intro u hu
    simp only [unicodeEscape, List.mem_cons, List.not_mem_nil, or_false] at hu
    rcases hu with rfl | rfl | rfl | rfl | rfl | rfl
    · decide
    · decide
    all_goals exact hexDigit_plain _ (by omega)
  · next h =>
      simp only [Bool.or_eq_true, not_or, Bool.not_eq_true] at h
      simp [Text.isWellFormed, h]

theorem isWellFormed_escape (t : Text) : (escape t).isWellFormed := by
  induction t using escape.induct with
  | case1 => rfl
  | case2 unit => exact isWellFormed_escapeUnit unit
  | case3 unit next rest hpair ih => rw [escape, if_pos hpair, Text.isWellFormed, if_pos hpair, ih]
  | case4 unit next rest hpair ih =>
      rw [escape, if_neg hpair]
      exact Text.isWellFormed_append (isWellFormed_escapeUnit unit) ih

theorem isWellFormed_quote (t : Text) : (quote t).isWellFormed :=
  Text.isWellFormed_append (a := [34]) rfl (Text.isWellFormed_append (isWellFormed_escape t) rfl)

/-! ## JSON values -/

/-- A JSON value; the members of an object stand in the order they are written. -/
inductive JsonTree where
  | null
  | boolean (value : Bool)
  | number (value : Decimal)
  | string (value : Text)
  | array (items : List JsonTree)
  | object (members : List (Text × JsonTree))

namespace JsonTree

/-- The text of a JSON value, without blanks. -/
def render : JsonTree → Text
  | .null => "null"
  | .boolean value => if value then "true" else "false"
  | .number value => value.toText
  | .string value => quote value
  | .array items => 91 :: (renderItems items).drop 1 ++ [93]
  | .object members => 123 :: (renderMembers members).drop 1 ++ [125]
where
  /-- The items of an array, each after a comma. -/
  renderItems : List JsonTree → Text
    | [] => []
    | item :: items => 44 :: render item ++ renderItems items
  /-- The members of an object, each after a comma. -/
  renderMembers : List (Text × JsonTree) → Text
    | [] => []
    | (key, value) :: members => 44 :: quote key ++ 58 :: render value ++ renderMembers members

/-- The kind of a JSON value, as its first unit tells it. -/
def kindOfUnit (unit : UInt16) : ℕ :=
  if unit = 110 then 0
  else if unit = 116 ∨ unit = 102 then 1
  else if unit = 34 then 3
  else if unit = 91 then 4
  else if unit = 123 then 5
  else if unit = 45 ∨ isDigit unit then 2
  else 6

def kind : JsonTree → ℕ
  | .null => 0
  | .boolean _ => 1
  | .number _ => 2
  | .string _ => 3
  | .array _ => 4
  | .object _ => 5

theorem kindOfUnit_digit {unit : UInt16} (h : isDigit unit = true) : kindOfUnit unit = 2 := by
  have hne : unit ≠ 110 ∧ unit ≠ 116 ∧ unit ≠ 102 ∧ unit ≠ 34 ∧ unit ≠ 91 ∧ unit ≠ 123 := by
    refine ⟨?_, ?_, ?_, ?_, ?_, ?_⟩ <;>
    · rintro rfl
      exact absurd h (by decide)
  simp [kindOfUnit, hne, h]

theorem render_head (value : JsonTree) :
    ∃ unit rest, value.render = unit :: rest ∧ kindOfUnit unit = value.kind := by
  cases value with
  | null => exact ⟨110, _, rfl, rfl⟩
  | boolean value => cases value <;> exact ⟨_, _, rfl, rfl⟩
  | number value =>
      rw [render, Decimal.toText]
      split
      · exact ⟨45, _, rfl, rfl⟩
      · obtain ⟨unit, rest, htext, hdigit⟩ := Decimal.magnitude_head value.digits value.exponent
        exact ⟨unit, rest, by simpa using htext, kindOfUnit_digit hdigit⟩
  | string value => exact ⟨34, _, by rw [render]; rfl, rfl⟩
  | array items => exact ⟨91, _, by rw [render]; rfl, rfl⟩
  | object members => exact ⟨123, _, by rw [render]; rfl, rfl⟩

theorem kind_ne_six (value : JsonTree) : value.kind ≠ 6 := by
  cases value <;> simp [kind]

/-- What follows a value does not continue a number. -/
def Ends (after : Text) : Prop := ∀ unit ∈ after.head?, Decimal.isNumberUnit unit = false

theorem ends_nil : Ends [] := by simp [Ends]

theorem ends_cons {unit : UInt16} {rest : Text} (h : Decimal.isNumberUnit unit = false) :
    Ends (unit :: rest) := by
  simpa [Ends] using h

theorem number_append_inj {x y : Decimal} {after after' : Text} (hend : Ends after)
    (hend' : Ends after') (h : x.toText ++ after = y.toText ++ after') :
    x = y ∧ after = after' := by
  have hspan : ∀ (z : Decimal) {rest : Text}, Ends rest →
      (z.toText ++ rest).takeWhile Decimal.isNumberUnit = z.toText := by
    intro z rest hrest
    rw [List.takeWhile_append_of_pos fun unit => Decimal.isNumberUnit_of_mem_toText]
    cases rest with
    | nil => simp
    | cons unit rest =>
        have hunit : Decimal.isNumberUnit unit = false := hrest unit (by simp)
        simp [hunit]
  have htext : x.toText = y.toText := by rw [← hspan x hend, h, hspan y hend']
  rw [htext] at h
  exact ⟨Decimal.toText_injective htext, List.append_cancel_left h⟩

theorem renderItems_inj_of {items items' : List JsonTree} {after after' : Text}
    (hitems : ∀ item ∈ items, ∀ (item' : JsonTree) {rest rest' : Text}, Ends rest → Ends rest' →
      item.render ++ rest = item'.render ++ rest' → item = item' ∧ rest = rest')
    (h : render.renderItems items ++ 93 :: after = render.renderItems items' ++ 93 :: after') :
    items = items' ∧ after = after' := by
  have hends : ∀ (rest : List JsonTree) (tail : Text),
      Ends (render.renderItems rest ++ 93 :: tail) := by
    intro rest tail
    cases rest <;> exact ends_cons (by decide)
  induction items generalizing items' with
  | nil =>
      cases items' with
      | nil => simpa [render.renderItems] using h
      | cons item' items' => simp [render.renderItems] at h
  | cons item items ih =>
      cases items' with
      | nil => simp [render.renderItems] at h
      | cons item' items' =>
          simp only [render.renderItems, List.cons_append, List.append_assoc, List.cons.injEq,
            true_and] at h
          obtain ⟨rfl, hrest⟩ := hitems item (by simp) item' (hends _ _) (hends _ _) h
          obtain ⟨rfl, hafter⟩ := ih (fun i hi => hitems i (List.mem_cons_of_mem _ hi)) hrest
          exact ⟨rfl, hafter⟩

theorem renderMembers_inj_of {members members' : List (Text × JsonTree)} {after after' : Text}
    (hmembers : ∀ member ∈ members, ∀ (value' : JsonTree) {rest rest' : Text}, Ends rest →
      Ends rest' → member.2.render ++ rest = value'.render ++ rest' →
        member.2 = value' ∧ rest = rest')
    (h : render.renderMembers members ++ 125 :: after =
      render.renderMembers members' ++ 125 :: after') :
    members = members' ∧ after = after' := by
  have hends : ∀ (rest : List (Text × JsonTree)) (tail : Text),
      Ends (render.renderMembers rest ++ 125 :: tail) := by
    intro rest tail
    rcases rest with _ | ⟨⟨key, value⟩, rest⟩ <;> exact ends_cons (by decide)
  induction members generalizing members' with
  | nil =>
      rcases members' with _ | ⟨⟨key', value'⟩, members'⟩
      · simpa [render.renderMembers] using h
      · simp [render.renderMembers] at h
  | cons member members ih =>
      obtain ⟨key, value⟩ := member
      rcases members' with _ | ⟨⟨key', value'⟩, members'⟩
      · simp [render.renderMembers] at h
      · simp only [render.renderMembers, List.cons_append, List.append_assoc, List.cons.injEq,
          true_and] at h
        obtain ⟨rfl, hvalue⟩ := quote_append_inj h
        obtain ⟨heq, hrest⟩ := hmembers (key, value) (by simp) value' (hends _ _) (hends _ _)
          (List.cons.inj hvalue).2
        obtain rfl : value = value' := heq
        obtain ⟨rfl, hafter⟩ := ih (fun m hm => hmembers m (List.mem_cons_of_mem _ hm)) hrest
        exact ⟨rfl, hafter⟩

theorem renderItems_drop {items items' : List JsonTree} {after after' : Text}
    (h : (render.renderItems items).drop 1 ++ 93 :: after =
      (render.renderItems items').drop 1 ++ 93 :: after') :
    render.renderItems items ++ 93 :: after = render.renderItems items' ++ 93 :: after' := by
  have hfirst : ∀ (item : JsonTree) (rest : Text), item.render ++ rest ≠ 93 :: after ∧
      item.render ++ rest ≠ 93 :: after' := by
    intro item rest
    obtain ⟨unit, tail, htext, hkind⟩ := render_head item
    rw [htext]
    constructor <;>
    · intro heq
      obtain ⟨rfl, -⟩ := List.cons.inj heq
      exact kind_ne_six item hkind.symm
  cases items with
  | nil =>
      cases items' with
      | nil => exact h
      | cons item' items' =>
          simp only [render.renderItems, List.drop_nil, List.nil_append, List.cons_append,
            List.drop_succ_cons, List.drop_zero, List.append_assoc] at h
          exact absurd h.symm (hfirst _ _).1
  | cons item items =>
      cases items' with
      | nil =>
          simp only [render.renderItems, List.drop_nil, List.nil_append, List.cons_append,
            List.drop_succ_cons, List.drop_zero, List.append_assoc] at h
          exact absurd h (hfirst _ _).2
      | cons item' items' =>
          simp only [render.renderItems, List.cons_append, List.drop_succ_cons, List.drop_zero]
            at h ⊢
          rw [h]

theorem renderMembers_drop {members members' : List (Text × JsonTree)} {after after' : Text}
    (h : (render.renderMembers members).drop 1 ++ 125 :: after =
      (render.renderMembers members').drop 1 ++ 125 :: after') :
    render.renderMembers members ++ 125 :: after =
      render.renderMembers members' ++ 125 :: after' := by
  rcases members with _ | ⟨⟨key, value⟩, members⟩ <;>
    rcases members' with _ | ⟨⟨key', value'⟩, members'⟩
  · exact h
  · simp [render.renderMembers, quote] at h
  · simp [render.renderMembers, quote] at h
  · simp only [render.renderMembers, List.cons_append, List.drop_succ_cons, List.drop_zero] at h ⊢
    rw [h]

theorem render_append_inj (value value' : JsonTree) {after after' : Text} (hend : Ends after)
    (hend' : Ends after') (h : value.render ++ after = value'.render ++ after') :
    value = value' ∧ after = after' := by
  have hkind : value.kind = value'.kind := by
    obtain ⟨unit, rest, htext, hunit⟩ := render_head value
    obtain ⟨unit', rest', htext', hunit'⟩ := render_head value'
    rw [htext, htext'] at h
    rw [← hunit, ← hunit', (List.cons.inj h).1]
  match value, value' with
  | .null, .null => exact ⟨rfl, List.append_cancel_left h⟩
  | .boolean value, .boolean value' =>
      cases value <;> cases value'
      · exact ⟨rfl, List.append_cancel_left h⟩
      · simp [render, Text.ofString, Text.unitsOfChar] at h
      · simp [render, Text.ofString, Text.unitsOfChar] at h
      · exact ⟨rfl, List.append_cancel_left h⟩
  | .number value, .number value' =>
      simp only [render] at h
      obtain ⟨rfl, hafter⟩ := number_append_inj hend hend' h
      exact ⟨rfl, hafter⟩
  | .string value, .string value' =>
      simp only [render] at h
      obtain ⟨rfl, hafter⟩ := quote_append_inj h
      exact ⟨rfl, hafter⟩
  | .array items, .array items' =>
      simp only [render, List.cons_append, List.append_assoc, List.nil_append, List.cons.injEq,
        true_and] at h
      obtain ⟨rfl, hafter⟩ := renderItems_inj_of
        (fun item hitem item' _ _ hrest hrest' heq => render_append_inj item item' hrest hrest' heq)
        (renderItems_drop h)
      exact ⟨rfl, hafter⟩
  | .object members, .object members' =>
      simp only [render, List.cons_append, List.append_assoc, List.nil_append, List.cons.injEq,
        true_and] at h
      obtain ⟨rfl, hafter⟩ := renderMembers_inj_of
        (fun member hmember value' _ _ hrest hrest' heq =>
          render_append_inj member.2 value' hrest hrest' heq)
        (renderMembers_drop h)
      exact ⟨rfl, hafter⟩
termination_by sizeOf value
decreasing_by
  · have := List.sizeOf_lt_of_mem hitem
    simp
    omega
  · have := List.sizeOf_lt_of_mem hmember
    obtain ⟨key, inner⟩ := member
    simp at this ⊢
    omega

theorem render_injective : Function.Injective render := by
  intro value value' h
  exact (render_append_inj value value' ends_nil ends_nil (by simpa using h)).1

theorem isWellFormed_number (x : Decimal) : x.toText.isWellFormed := by
  apply Text.isWellFormed_of_plain
  intro unit hunit
  have hnumber := Decimal.isNumberUnit_of_mem_toText hunit
  have hsmall : unit < 128 := by
    simp only [Decimal.isNumberUnit, isDigit, Bool.or_eq_true, Bool.and_eq_true,
      decide_eq_true_eq] at hnumber
    simp only [UInt16.lt_iff_toNat_lt, UInt16.le_iff_toNat_le, ← UInt16.toNat_inj,
      UInt16.reduceToNat] at hnumber ⊢
    omega
  simp only [isLeadSurrogate, isTrailSurrogate, Bool.and_eq_false_iff, decide_eq_false_iff_not,
    UInt16.not_le]
  exact ⟨.inl (UInt16.lt_trans hsmall (by decide)), .inl (UInt16.lt_trans hsmall (by decide))⟩

/-- The text of a JSON value never holds half a surrogate pair. -/
theorem isWellFormed_render : ∀ value : JsonTree, value.render.isWellFormed
  | .null => by decide
  | .boolean value => by cases value <;> decide
  | .number value => isWellFormed_number value
  | .string value => isWellFormed_quote value
  | .array items => by
      have hdrop : Text.isWellFormed ((render.renderItems items).drop 1) := by
        cases items with
        | nil => rfl
        | cons item items =>
            simpa [render.renderItems] using Text.isWellFormed_append (isWellFormed_render item)
              (isWellFormed_renderItems items)
      exact Text.isWellFormed_append (a := [91]) rfl (Text.isWellFormed_append hdrop rfl)
  | .object members => by
      have hdrop : Text.isWellFormed ((render.renderMembers members).drop 1) := by
        match members with
        | [] => rfl
        | (key, value) :: members =>
            simpa [render.renderMembers] using Text.isWellFormed_append (isWellFormed_quote key)
              (Text.isWellFormed_append (a := [58]) rfl (Text.isWellFormed_append
                (isWellFormed_render value) (isWellFormed_renderMembers members)))
      exact Text.isWellFormed_append (a := [123]) rfl (Text.isWellFormed_append hdrop rfl)
where
  isWellFormed_renderItems : ∀ items, (render.renderItems items).isWellFormed
    | [] => rfl
    | item :: items =>
        Text.isWellFormed_append (a := 44 :: item.render)
          (Text.isWellFormed_append (a := [44]) rfl (isWellFormed_render item))
          (isWellFormed_renderItems items)
  isWellFormed_renderMembers : ∀ members, (render.renderMembers members).isWellFormed
    | [] => rfl
    | (key, value) :: members => by
        have hfront := Text.isWellFormed_append (a := [44]) rfl (isWellFormed_quote key)
        have hvalue := Text.isWellFormed_append (a := [58]) rfl (isWellFormed_render value)
        simpa [render.renderMembers] using Text.isWellFormed_append hfront
          (Text.isWellFormed_append hvalue (isWellFormed_renderMembers members))

end JsonTree

/-! ## Values -/

/-- A value of the source that holds data only; the members of an object stand
in the order they were added. -/
inductive Value where
  | undefined
  | null
  | boolean (value : Bool)
  | number (value : Number)
  | string (value : Text)
  | /-- A `Date`; `none` is the invalid one. -/
    date (time : Option ℤ)
  | array (items : List Value)
  | object (members : List (Text × Value))

/-- An array index, which objects list before their other keys. -/
def isArrayIndex (key : Text) : Bool :=
  key ≠ [] && key.all isDigit && (key = [48] || key.head? ≠ some 48) &&
    digitsValue key ≤ 4294967294

/-- The order in which an object lists its own keys: array indices by value,
then the others as they were added. -/
def ownOrder {α : Type*} (members : List (Text × α)) : List (Text × α) :=
  (members.filter (isArrayIndex ·.1)).mergeSort
      (fun a b => digitsValue a.1 ≤ digitsValue b.1) ++
    members.filter (!isArrayIndex ·.1)

/-- The order of `Array.prototype.sort` on keys: by code units. -/
def keyOrder {α : Type*} (a b : Text × α) : Bool := a.1 ≤ b.1

namespace Value

/-- Read a member of an object; a missing one is `undefined`. -/
def get (members : List (Text × Value)) (key : Text) : Value :=
  ((members.find? (·.1 = key)).map Prod.snd).getD .undefined

/-- `JSON.stringify` up to writing the text: `none` where it gives `undefined`. -/
def toJson : Value → Option JsonTree
  | .undefined => none
  | .null => some .null
  | .boolean value => some (.boolean value)
  | .number (.finite value) => some (.number value)
  | .number _ => some .null
  | .string value => some (.string value)
  | .date (some time) => some (.string (isoText time))
  | .date none => some .null
  | .array items => some (.array (itemsToJson items))
  | .object members => some (.object (ownOrder (membersToJson members)))
where
  /-- In an array `null` stands for what has no text. -/
  itemsToJson : List Value → List JsonTree
    | [] => []
    | item :: items => (toJson item).getD .null :: itemsToJson items
  /-- In an object a member that has no text disappears. -/
  membersToJson : List (Text × Value) → List (Text × JsonTree)
    | [] => []
    | (key, value) :: members =>
        match toJson value with
        | some json => (key, json) :: membersToJson members
        | none => membersToJson members

/-- `JSON.stringify(value)` inside a template literal. -/
def stringify (value : Value) : Text := (value.toJson.map JsonTree.render).getD "undefined"

/-- Sort the keys of every object, keep the order of arrays. An object is built
anew from the members, sorted, whose key can be given to it. -/
def canonicalizeWith (keep : Text → Bool) : Value → Value
  | .array items => .array (canonicalItems items)
  | .object members => .object (((canonicalMembers members).filter (keep ·.1)).mergeSort keyOrder)
  | .date _ => .object []
  | value => value
where
  canonicalItems : List Value → List Value
    | [] => []
    | item :: items => canonicalizeWith keep item :: canonicalItems items
  canonicalMembers : List (Text × Value) → List (Text × Value)
    | [] => []
    | (key, value) :: members => (key, canonicalizeWith keep value) :: canonicalMembers members

/-- A property of every value inside a value, itself included. -/
def everywhere (p : Value → Bool) : Value → Bool
  | .array items => p (.array items) && everyItem items
  | .object members => p (.object members) && everyMember members
  | value => p value
where
  everyItem : List Value → Bool
    | [] => true
    | item :: items => everywhere p item && everyItem items
  everyMember : List (Text × Value) → Bool
    | [] => true
    | (_, value) :: members => everywhere p value && everyMember members

/-- No object has two members of one name, as no object of the source has. -/
def distinctKeys : Value → Bool :=
  everywhere fun
    | .object members => (members.map Prod.fst).Nodup
    | _ => true

def isUndefined : Value → Bool
  | .undefined => true
  | _ => false

/-- JSON keeps the value apart from others: numbers are finite, there are no
dates, no array holds `undefined`, and every key survives. -/
def isPlain (keep : Text → Bool) : Value → Bool :=
  everywhere fun
    | .number (.finite _) => true
    | .number _ => false
    | .date _ => false
    | .array items => items.all fun item => !item.isUndefined
    | .object members => members.all fun member => keep member.1
    | _ => true

/-- Equal up to the order of keys and to members that are `undefined`, at every
depth. -/
inductive Same : Value → Value → Prop
  | refl (value : Value) : Same value value
  | array {items items' : List Value} (length : items.length = items'.length)
      (same : ∀ i : ℕ, Same (items.getD i .undefined) (items'.getD i .undefined)) :
      Same (.array items) (.array items')
  | object {members members' : List (Text × Value)}
      (same : ∀ key, Same (get members key) (get members' key)) :
      Same (.object members) (.object members')

@[elab_as_elim]
theorem inductionOn {motive : Value → Prop} (value : Value)
    (array : ∀ items, (∀ item ∈ items, motive item) → motive (.array items))
    (object : ∀ members, (∀ member ∈ members, motive member.2) → motive (.object members))
    (other : ∀ value, (∀ items, value ≠ .array items) → (∀ members, value ≠ .object members) →
      motive value) : motive value := by
  match value with
  | .array items => exact array items fun item _ => inductionOn item array object other
  | .object members =>
      refine object members fun member hmember => ?_
      have hsmaller : sizeOf member.2 < 1 + sizeOf members := by
        have := List.sizeOf_lt_of_mem hmember
        obtain ⟨key, inner⟩ := member
        simp only [Prod.mk.sizeOf_spec] at this ⊢
        omega
      exact inductionOn member.2 array object other
  | .undefined | .null | .boolean _ | .number _ | .string _ | .date _ =>
      exact other _ (by simp) (by simp)
termination_by sizeOf value

section Recursion

variable {p : Value → Bool} {keep : Text → Bool} {items : List Value}
  {members : List (Text × Value)}

theorem everyItem_iff : everywhere.everyItem p items = true ↔
    ∀ item ∈ items, everywhere p item = true := by
  induction items with
  | nil => simp [everywhere.everyItem]
  | cons item items ih => simp [everywhere.everyItem, ih]

theorem everyMember_iff : everywhere.everyMember p members = true ↔
    ∀ member ∈ members, everywhere p member.2 = true := by
  induction members with
  | nil => simp [everywhere.everyMember]
  | cons member members ih => simp [everywhere.everyMember, ih]

theorem everywhere_array : everywhere p (.array items) = true ↔
    p (.array items) = true ∧ ∀ item ∈ items, everywhere p item = true := by
  rw [everywhere, Bool.and_eq_true, everyItem_iff]

theorem everywhere_object : everywhere p (.object members) = true ↔
    p (.object members) = true ∧ ∀ member ∈ members, everywhere p member.2 = true := by
  rw [everywhere, Bool.and_eq_true, everyMember_iff]

theorem canonicalItems_eq : canonicalizeWith.canonicalItems keep items =
    items.map (canonicalizeWith keep) := by
  induction items with
  | nil => rfl
  | cons item items ih => rw [canonicalizeWith.canonicalItems, ih, List.map_cons]

theorem canonicalMembers_eq : canonicalizeWith.canonicalMembers keep members =
    members.map fun member => (member.1, canonicalizeWith keep member.2) := by
  induction members with
  | nil => rfl
  | cons member members ih => rw [canonicalizeWith.canonicalMembers, ih, List.map_cons]

theorem itemsToJson_eq : toJson.itemsToJson items =
    items.map fun item => (toJson item).getD .null := by
  induction items with
  | nil => rfl
  | cons item items ih => rw [toJson.itemsToJson, ih, List.map_cons]

theorem membersToJson_eq : toJson.membersToJson members =
    members.filterMap fun member => (toJson member.2).map (member.1, ·) := by
  induction members with
  | nil => rfl
  | cons member members ih =>
      obtain ⟨key, value⟩ := member
      rw [toJson.membersToJson, List.filterMap_cons]
      cases toJson value with
      | none => exact ih
      | some json => simp [ih]

end Recursion

/-! ## Canonical JSON values -/

/-- The JSON value of the canonical form. -/
def canonicalJson (keep : Text → Bool) (value : Value) : Option JsonTree :=
  (canonicalizeWith keep value).toJson

section Canonical

variable {keep : Text → Bool} {members members' : List (Text × Value)} {key : Text}

/-- What is written of the members of an object. -/
def entries (keep : Text → Bool) (members : List (Text × Value)) : List (Text × JsonTree) :=
  members.filterMap fun member =>
    if keep member.1 then (canonicalJson keep member.2).map (member.1, ·) else none

theorem ownOrder_perm {α : Type*} (members : List (Text × α)) : (ownOrder members).Perm members :=
  ((List.mergeSort_perm _ _).append_right _).trans (List.filter_append_perm _ _)

theorem get_eq_of_mem {value : Value} (hkeys : (members.map Prod.fst).Nodup)
    (h : (key, value) ∈ members) : get members key = value := by
  have hfind : members.find? (·.1 = key) = some (key, value) := by
    induction members with
    | nil => simp at h
    | cons member members ih =>
        simp only [List.map_cons, List.nodup_cons] at hkeys
        rcases List.mem_cons.mp h with rfl | hrest
        · simp
        · have hne : member.1 ≠ key := by
            rintro rfl
            exact hkeys.1 (List.mem_map.mpr ⟨_, hrest, rfl⟩)
          rw [List.find?_cons_of_neg (by simpa using hne)]
          exact ih hkeys.2 hrest
  simp [get, hfind]

/-- A member that is read is there, unless it reads `undefined`. -/
theorem get_cases (members : List (Text × Value)) (key : Text) :
    (key, get members key) ∈ members ∨ get members key = .undefined := by
  rw [get]
  cases hfind : members.find? (·.1 = key) with
  | none => exact .inr rfl
  | some member =>
      have hkey : member.1 = key := by simpa using List.find?_some hfind
      subst hkey
      exact .inl (List.mem_of_find?_eq_some hfind)

theorem mem_entries_iff {json : JsonTree} (hkeys : (members.map Prod.fst).Nodup) :
    (key, json) ∈ entries keep members ↔
      keep key = true ∧ canonicalJson keep (get members key) = some json := by
  simp only [entries, List.mem_filterMap]
  constructor
  · rintro ⟨⟨key', value⟩, hmem, heq⟩
    split at heq
    · next hkeep =>
        obtain ⟨written, hwritten, hpair⟩ := Option.map_eq_some_iff.mp heq
        simp only [Prod.mk.injEq] at hpair
        obtain ⟨rfl, rfl⟩ := hpair
        rw [get_eq_of_mem hkeys hmem]
        exact ⟨hkeep, hwritten⟩
    · simp at heq
  · rintro ⟨hkeep, hwritten⟩
    rcases get_cases members key with hmem | hundefined
    · exact ⟨_, hmem, by simp [hkeep, hwritten]⟩
    · rw [hundefined] at hwritten
      simp [canonicalJson, canonicalizeWith, toJson] at hwritten

theorem entries_keys_nodup (hkeys : (members.map Prod.fst).Nodup) :
    ((entries keep members).map Prod.fst).Nodup := by
  have hsub : ((entries keep members).map Prod.fst).Sublist (members.map Prod.fst) := by
    clear hkeys
    induction members with
    | nil => simp [entries]
    | cons member members ih =>
        rw [entries, List.filterMap_cons]
        split
        · exact ih.cons _
        · next written hwritten =>
            have hkey : written.1 = member.1 := by
              split at hwritten
              · obtain ⟨json, -, rfl⟩ := Option.map_eq_some_iff.mp hwritten
                rfl
              · simp at hwritten
            rw [List.map_cons, List.map_cons, hkey]
            exact ih.cons_cons _
  exact hsub.nodup hkeys

/-- The members of a canonical object: what is written of the members, sorted. -/
theorem canonicalJson_object (keep : Text → Bool) (members : List (Text × Value)) :
    ∃ sorted : List (Text × JsonTree), canonicalJson keep (.object members) =
        some (.object (ownOrder sorted)) ∧
      sorted.Perm (entries keep members) ∧ sorted.Pairwise fun a b => keyOrder a b = true := by
  refine ⟨_, rfl, ?_, ?_⟩
  · rw [membersToJson_eq]
    refine ((List.mergeSort_perm _ _).filterMap _).trans ?_
    rw [canonicalMembers_eq, List.filterMap_filter, List.filterMap_map]
    exact List.Perm.of_eq (List.filterMap_congr fun member _ => rfl)
  · rw [membersToJson_eq]
    refine List.Pairwise.filterMap _ ?_ (List.pairwise_mergeSort ?_ ?_ _)
    · intro a b hab a' ha' b' hb'
      obtain ⟨_, -, rfl⟩ := Option.map_eq_some_iff.mp ha'
      obtain ⟨_, -, rfl⟩ := Option.map_eq_some_iff.mp hb'
      exact hab
    · intro a b c hab hbc
      simp only [keyOrder, decide_eq_true_eq] at hab hbc ⊢
      exact List.le_trans hab hbc
    · intro a b
      simpa [keyOrder] using List.le_total a.1 b.1

/-- Two objects are written alike exactly when every kept key is. -/
theorem canonicalJson_object_eq_iff (hkeys : (members.map Prod.fst).Nodup)
    (hkeys' : (members'.map Prod.fst).Nodup) :
    canonicalJson keep (.object members) = canonicalJson keep (.object members') ↔
      ∀ key, keep key = true →
        canonicalJson keep (get members key) = canonicalJson keep (get members' key) := by
  obtain ⟨sorted, hjson, hperm, hsorted⟩ := canonicalJson_object keep members
  obtain ⟨sorted', hjson', hperm', hsorted'⟩ := canonicalJson_object keep members'
  have hentries : (entries keep members).Perm (entries keep members') ↔
      ∀ key, keep key = true →
        canonicalJson keep (get members key) = canonicalJson keep (get members' key) := by
    rw [List.perm_ext_iff_of_nodup (.of_map Prod.fst (entries_keys_nodup hkeys))
      (.of_map Prod.fst (entries_keys_nodup hkeys'))]
    constructor
    · intro h key hkeep
      apply Option.ext
      intro json
      have hmem := h (key, json)
      rw [mem_entries_iff hkeys, mem_entries_iff hkeys'] at hmem
      simpa [hkeep] using hmem
    · rintro h ⟨key, json⟩
      rw [mem_entries_iff hkeys, mem_entries_iff hkeys']
      constructor
      · rintro ⟨hkeep, hwritten⟩
        exact ⟨hkeep, h key hkeep ▸ hwritten⟩
      · rintro ⟨hkeep, hwritten⟩
        exact ⟨hkeep, h key hkeep ▸ hwritten⟩
  rw [hjson, hjson', ← hentries]
  constructor
  · intro h
    have horder : ownOrder sorted = ownOrder sorted' := by simpa using h
    have hsame : sorted.Perm sorted' :=
      (ownOrder_perm sorted).symm.trans (horder ▸ ownOrder_perm sorted')
    exact hperm.symm.trans (hsame.trans hperm')
  · intro h
    have hsame : sorted.Perm sorted' := hperm.trans (h.trans hperm'.symm)
    have heq : sorted = sorted' := by
      refine List.Perm.eq_of_pairwise ?_ hsorted hsorted' hsame
      intro a b ha hb hab hba
      simp only [keyOrder, decide_eq_true_eq] at hab hba
      exact List.inj_on_of_nodup_map (entries_keys_nodup hkeys) (hperm.subset ha)
        (h.symm.subset (hperm'.subset hb)) (List.le_antisymm hab hba)
    rw [heq]

theorem canonicalJson_array (keep : Text → Bool) (items : List Value) :
    canonicalJson keep (.array items) =
      some (.array (items.map fun item => (canonicalJson keep item).getD .null)) := by
  rw [canonicalJson, canonicalizeWith, canonicalItems_eq, toJson, itemsToJson_eq, List.map_map]
  rfl

theorem distinctKeys_get (h : distinctKeys (.object members) = true) (key : Text) :
    distinctKeys (get members key) = true := by
  rcases get_cases members key with hmem | hundefined
  · exact (everywhere_object.mp h).2 _ hmem
  · rw [hundefined]
    rfl

theorem distinctKeys_getD {items : List Value} (h : distinctKeys (.array items) = true) (i : ℕ) :
    distinctKeys (items.getD i .undefined) = true := by
  rw [List.getD_eq_getElem?_getD]
  cases hi : items[i]? with
  | none => rfl
  | some item => exact (everywhere_array.mp h).2 item (List.mem_of_getElem? hi)

theorem distinctKeys_object (hkeys : (members.map Prod.fst).Nodup)
    (h : ∀ member ∈ members, distinctKeys member.2 = true) :
    distinctKeys (.object members) = true :=
  everywhere_object.mpr ⟨by simpa using hkeys, h⟩

theorem nodup_keys (h : distinctKeys (.object members) = true) :
    (members.map Prod.fst).Nodup := by
  simpa using (everywhere_object.mp h).1

/-- The canonical form forgets the order of keys and `undefined` members. -/
theorem canonicalJson_eq_of_same {value value' : Value} (hsame : Same value value')
    (h : distinctKeys value = true) (h' : distinctKeys value' = true) :
    canonicalJson keep value = canonicalJson keep value' := by
  induction hsame with
  | refl => rfl
  | @array items items' hlength _ ih =>
      rw [canonicalJson_array, canonicalJson_array]
      congr 2
      apply List.ext_getElem (by simpa using hlength)
      intro i hi hi'
      have hitem := ih i (distinctKeys_getD h i) (distinctKeys_getD h' i)
      simp only [List.length_map] at hi hi'
      rw [List.getD_eq_getElem _ _ hi, List.getD_eq_getElem _ _ hi'] at hitem
      rw [List.getElem_map, List.getElem_map, hitem]
  | @object members members' _ ih =>
      rw [canonicalJson_object_eq_iff (nodup_keys h) (nodup_keys h')]
      intro key _
      exact ih key (distinctKeys_get h key) (distinctKeys_get h' key)

/-- The kind of a plain value is that of its JSON value. -/
def HasKind (value : Value) : Option JsonTree → Prop
  | none => value = .undefined
  | some .null => value = .null
  | some (.boolean flag) => value = .boolean flag
  | some (.number x) => value = .number (.finite x)
  | some (.string t) => value = .string t
  | some (.array _) => ∃ items, value = .array items
  | some (.object _) => ∃ members, value = .object members

theorem hasKind_canonicalJson {value : Value} (h : isPlain keep value = true) :
    HasKind value (canonicalJson keep value) := by
  cases value with
  | number x => cases x <;> simp_all [isPlain, everywhere, canonicalJson, canonicalizeWith,
      toJson, HasKind]
  | date time => simp [isPlain, everywhere] at h
  | array items =>
      rw [canonicalJson_array]
      exact ⟨items, rfl⟩
  | object members =>
      obtain ⟨sorted, hjson, -⟩ := canonicalJson_object keep members
      rw [hjson]
      exact ⟨members, rfl⟩
  | _ => rfl

theorem isPlain_get (h : isPlain keep (.object members) = true) (key : Text) :
    isPlain keep (get members key) = true := by
  rcases get_cases members key with hmem | hundefined
  · exact (everywhere_object.mp h).2 _ hmem
  · rw [hundefined]
    rfl

/-- A key that cannot be given to an object names no member of a plain one. -/
theorem get_eq_undefined (h : isPlain keep (.object members) = true) (hkeep : keep key ≠ true) :
    get members key = .undefined := by
  rcases get_cases members key with hmem | hundefined
  · have hall := (everywhere_object.mp h).1
    rw [List.all_eq_true] at hall
    exact absurd (hall _ hmem) hkeep
  · exact hundefined

theorem exists_canonicalJson_item {items : List Value} {item : Value}
    (h : isPlain keep (.array items) = true) (hmem : item ∈ items) :
    ∃ json, canonicalJson keep item = some json := by
  obtain ⟨hall, hplain⟩ := everywhere_array.mp h
  have hkind := hasKind_canonicalJson (hplain item hmem)
  cases hjson : canonicalJson keep item with
  | none =>
      rw [hjson] at hkind
      obtain rfl : item = .undefined := hkind
      rw [List.all_eq_true] at hall
      exact absurd (hall _ hmem) (by decide)
  | some json => exact ⟨json, rfl⟩

/-- Among plain values the canonical form forgets nothing else. -/
theorem same_of_canonicalJson_eq {value value' : Value} (h : isPlain keep value = true)
    (h' : isPlain keep value' = true) (hd : distinctKeys value = true)
    (hd' : distinctKeys value' = true)
    (heq : canonicalJson keep value = canonicalJson keep value') : Same value value' := by
  induction value using inductionOn generalizing value' with
  | array items ih =>
      have hkind' := hasKind_canonicalJson h'
      rw [← heq, canonicalJson_array] at hkind'
      obtain ⟨items', rfl⟩ := hkind'
      simp only [canonicalJson_array, Option.some.injEq, JsonTree.array.injEq] at heq
      have hlength : items.length = items'.length := by simpa using congrArg List.length heq
      refine .array hlength fun i => ?_
      by_cases hi : i < items.length
      · have hi' : i < items'.length := hlength ▸ hi
        rw [List.getD_eq_getElem _ _ hi, List.getD_eq_getElem _ _ hi']
        have hitem := congrArg (·[i]?) heq
        simp only [List.getElem?_map, List.getElem?_eq_getElem hi, List.getElem?_eq_getElem hi',
          Option.map_some, Option.some.injEq] at hitem
        obtain ⟨json, hjson⟩ := exists_canonicalJson_item h (List.getElem_mem hi)
        obtain ⟨json', hjson'⟩ := exists_canonicalJson_item h' (List.getElem_mem hi')
        refine ih _ (List.getElem_mem hi) ((everywhere_array.mp h).2 _ (List.getElem_mem hi))
          ((everywhere_array.mp h').2 _ (List.getElem_mem hi'))
          ((everywhere_array.mp hd).2 _ (List.getElem_mem hi))
          ((everywhere_array.mp hd').2 _ (List.getElem_mem hi')) ?_
        rw [hjson, hjson'] at hitem ⊢
        exact congrArg some hitem
      · rw [List.getD_eq_default _ _ (by omega), List.getD_eq_default _ _ (by omega)]
        exact .refl _
  | object members ih =>
      have hkind' := hasKind_canonicalJson h'
      obtain ⟨sorted, hjson, -⟩ := canonicalJson_object keep members
      rw [← heq, hjson] at hkind'
      obtain ⟨members', rfl⟩ := hkind'
      rw [canonicalJson_object_eq_iff (nodup_keys hd) (nodup_keys hd')] at heq
      refine .object fun key => ?_
      by_cases hkeep : keep key = true
      · rcases get_cases members key with hmem | hundefined
        · exact ih _ hmem (isPlain_get h key) (isPlain_get h' key)
            (distinctKeys_get hd key) (distinctKeys_get hd' key) (heq key hkeep)
        · have hwritten := hasKind_canonicalJson (isPlain_get h' key)
          rw [← heq key hkeep, hundefined] at hwritten
          rw [hundefined, show get members' key = .undefined from hwritten]
          exact .refl _
      · rw [get_eq_undefined h hkeep, get_eq_undefined h' hkeep]
        exact .refl _
  | other value harray hobject =>
      have hkind := hasKind_canonicalJson h
      have hkind' := hasKind_canonicalJson h'
      rw [← heq] at hkind'
      have hequal : value' = value := by
        generalize canonicalJson keep value = json at hkind hkind'
        match json with
        | none | some .null | some (.boolean _) | some (.number _) | some (.string _) =>
            exact Eq.trans hkind' (Eq.symm hkind)
        | some (.array _) =>
            obtain ⟨items, rfl⟩ := hkind
            exact absurd rfl (harray items)
        | some (.object _) =>
            obtain ⟨members, rfl⟩ := hkind
            exact absurd rfl (hobject members)
      rw [hequal]
      exact .refl _

@[simp]
theorem get_nil (key : Text) : get [] key = .undefined := rfl

theorem get_cons (name : Text) (value : Value) (members : List (Text × Value)) (key : Text) :
    get ((name, value) :: members) key = if name = key then value else get members key := by
  by_cases h : name = key <;> simp [get, h]

/-- A name that no member has reads `undefined`. -/
theorem get_of_notMem (h : key ∉ members.map Prod.fst) : get members key = .undefined := by
  rcases get_cases members key with hmem | hundefined
  · exact absurd (List.mem_map.mpr ⟨_, hmem, rfl⟩) h
  · exact hundefined

theorem get_of_perm (hkeys : (members.map Prod.fst).Nodup) (h : members.Perm members')
    (key : Text) : get members' key = get members key := by
  by_cases hmem : key ∈ members.map Prod.fst
  · obtain ⟨⟨name, value⟩, hpair, rfl⟩ := List.mem_map.mp hmem
    rw [get_eq_of_mem hkeys hpair,
      get_eq_of_mem ((h.map Prod.fst).nodup_iff.mp hkeys) (h.subset hpair)]
  · rw [get_of_notMem hmem, get_of_notMem fun hmem' => hmem ((h.map Prod.fst).symm.subset hmem')]

/-- Two records of the same fields are written alike exactly when every field is. -/
theorem canonicalJson_record_iff {names : List Text} {values values' : List Value}
    (hnames : names.Nodup) (hkeep : ∀ name ∈ names, keep name = true)
    (hlength : values.length = names.length) (hlength' : values'.length = names.length) :
    canonicalJson keep (.object (names.zip values)) =
        canonicalJson keep (.object (names.zip values')) ↔
      values.map (canonicalJson keep) = values'.map (canonicalJson keep) := by
  have hkeys : ∀ {vs : List Value}, vs.length = names.length →
      (names.zip vs).map Prod.fst = names := by
    intro vs hvs
    exact List.map_fst_zip hvs.ge
  rw [canonicalJson_object_eq_iff (by rwa [hkeys hlength]) (by rwa [hkeys hlength'])]
  clear hkeys
  induction names generalizing values values' with
  | nil => simp [List.eq_nil_of_length_eq_zero hlength, List.eq_nil_of_length_eq_zero hlength']
  | cons name names ih =>
      obtain ⟨value, values, rfl⟩ := List.exists_cons_of_length_eq_add_one hlength
      obtain ⟨value', values', rfl⟩ := List.exists_cons_of_length_eq_add_one hlength'
      simp only [List.length_cons, Nat.add_right_cancel_iff] at hlength hlength'
      rw [List.nodup_cons] at hnames
      have hrest := ih hnames.2 (fun n hn => hkeep n (List.mem_cons_of_mem _ hn)) hlength hlength'
      have hmissing : ∀ {vs : List Value}, get (names.zip vs) name = .undefined := by
        intro vs
        refine get_of_notMem fun hmem => hnames.1 ?_
        obtain ⟨⟨n, v⟩, hpair, rfl⟩ := List.mem_map.mp hmem
        exact (List.of_mem_zip hpair).1
      simp only [List.zip_cons_cons, List.map_cons, List.cons.injEq, get_cons]
      constructor
      · intro h
        refine ⟨by simpa using h name (hkeep name (by simp)), hrest.mp fun key hkey => ?_⟩
        by_cases heq : name = key
        · subst heq
          rw [hmissing, hmissing]
        · simpa [heq] using h key hkey
      · rintro ⟨hhead, htail⟩ key hkey
        by_cases heq : name = key
        · simpa [heq] using hhead
        · simpa [heq] using hrest.mpr htail key hkey

end Canonical

section Inversion

variable {value : Value}

theorem Same.eq_of_string {t : Text} (h : Same value (.string t)) : value = .string t := by
  cases h
  rfl

theorem Same.eq_of_number {x : Number} (h : Same value (.number x)) : value = .number x := by
  cases h
  rfl

theorem Same.eq_of_undefined (h : Same value .undefined) : value = .undefined := by
  cases h
  rfl

theorem Same.symm {value' : Value} (h : Same value value') : Same value' value := by
  induction h with
  | refl => exact .refl _
  | array length same ih => exact .array length.symm ih
  | object same ih => exact .object ih

theorem Same.exists_object {members : List (Text × Value)} (h : Same value (.object members)) :
    ∃ members', value = .object members' ∧ ∀ key, Same (get members' key) (get members key) := by
  cases h with
  | refl => exact ⟨members, rfl, fun key => .refl _⟩
  | object same => exact ⟨_, rfl, same⟩

end Inversion

/-! ## The members that survive -/

/-- Every member, at any depth, has a key that survives. -/
def hasKeys (keep : Text → Bool) : Value → Bool :=
  everywhere fun
    | .object members => members.all fun member => keep member.1
    | _ => true

/-- The value without the members, at any depth, whose keys do not survive. -/
def kept (keep : Text → Bool) : Value → Value
  | .array items => .array (keptItems items)
  | .object members => .object (keptMembers members)
  | value => value
where
  keptItems : List Value → List Value
    | [] => []
    | item :: items => kept keep item :: keptItems items
  keptMembers : List (Text × Value) → List (Text × Value)
    | [] => []
    | (key, value) :: members =>
        if keep key then (key, kept keep value) :: keptMembers members else keptMembers members

section Kept

variable {keep : Text → Bool} {items : List Value} {members : List (Text × Value)} {key : Text}
  {value : Value}

theorem hasKeys_of_forall (hkeep : ∀ key, keep key = true) (value : Value) :
    hasKeys keep value = true := by
  induction value using inductionOn with
  | array items ih => exact everywhere_array.mpr ⟨rfl, ih⟩
  | object members ih => exact everywhere_object.mpr ⟨by simp [hkeep], ih⟩
  | other value harray hobject =>
      cases value with
      | array items => exact absurd rfl (harray items)
      | object members => exact absurd rfl (hobject members)
      | _ => rfl

theorem keptItems_eq : kept.keptItems keep items = items.map (kept keep) := by
  induction items with
  | nil => rfl
  | cons item items ih => rw [kept.keptItems, ih, List.map_cons]

theorem keptMembers_eq : kept.keptMembers keep members =
    (members.filter (keep ·.1)).map fun member => (member.1, kept keep member.2) := by
  induction members with
  | nil => rfl
  | cons member members ih =>
      obtain ⟨name, value⟩ := member
      rw [kept.keptMembers, ih]
      cases hkeep : keep name <;> simp [hkeep]

theorem keys_keptMembers_sublist :
    ((kept.keptMembers keep members).map Prod.fst).Sublist (members.map Prod.fst) := by
  rw [keptMembers_eq, List.map_map]
  exact List.filter_sublist.map _

theorem get_keptMembers (hkeep : keep key = true) :
    get (kept.keptMembers keep members) key = kept keep (get members key) := by
  induction members with
  | nil => rfl
  | cons member members ih =>
      obtain ⟨name, value⟩ := member
      rw [kept.keptMembers, get_cons]
      by_cases hname : name = key
      · rw [hname, if_pos hkeep, get_cons, if_pos rfl, if_pos rfl]
      · rw [if_neg hname, ← ih]
        split
        · rw [get_cons, if_neg hname]
        · rfl

theorem hasKeys_kept (value : Value) : hasKeys keep (kept keep value) = true := by
  induction value using inductionOn with
  | array items ih =>
      rw [kept, keptItems_eq]
      refine everywhere_array.mpr ⟨rfl, fun item hitem => ?_⟩
      obtain ⟨original, horiginal, rfl⟩ := List.mem_map.mp hitem
      exact ih original horiginal
  | object members ih =>
      rw [kept, keptMembers_eq]
      refine everywhere_object.mpr ⟨?_, fun member hmember => ?_⟩
      · simp only [List.all_map, List.all_eq_true, List.mem_filter, Function.comp_apply]
        exact fun member hmember => hmember.2
      · obtain ⟨original, horiginal, rfl⟩ := List.mem_map.mp hmember
        exact ih original (List.mem_filter.mp horiginal).1
  | other value harray hobject =>
      cases value with
      | array items => exact absurd rfl (harray items)
      | object members => exact absurd rfl (hobject members)
      | _ => rfl

theorem distinctKeys_kept (h : distinctKeys value = true) :
    distinctKeys (kept keep value) = true := by
  induction value using inductionOn with
  | array items ih =>
      rw [kept, keptItems_eq]
      refine everywhere_array.mpr ⟨rfl, fun item hitem => ?_⟩
      obtain ⟨original, horiginal, rfl⟩ := List.mem_map.mp hitem
      exact ih original horiginal ((everywhere_array.mp h).2 original horiginal)
  | object members ih =>
      rw [kept]
      refine distinctKeys_object (keys_keptMembers_sublist.nodup (nodup_keys h))
        fun member hmember => ?_
      rw [keptMembers_eq] at hmember
      obtain ⟨original, horiginal, rfl⟩ := List.mem_map.mp hmember
      have hmem := (List.mem_filter.mp horiginal).1
      exact ih original hmem ((everywhere_object.mp h).2 original hmem)
  | other value harray hobject =>
      cases value with
      | array items => exact absurd rfl (harray items)
      | object members => exact absurd rfl (hobject members)
      | _ => rfl

theorem canonicalJson_kept (h : distinctKeys value = true) :
    canonicalJson keep (kept keep value) = canonicalJson keep value := by
  induction value using inductionOn with
  | array items ih =>
      rw [kept, keptItems_eq, canonicalJson_array, canonicalJson_array, List.map_map]
      refine congrArg some (congrArg JsonTree.array (List.map_congr_left fun item hitem => ?_))
      rw [Function.comp_apply, ih item hitem ((everywhere_array.mp h).2 item hitem)]
  | object members ih =>
      rw [kept, canonicalJson_object_eq_iff (keys_keptMembers_sublist.nodup (nodup_keys h))
        (nodup_keys h)]
      intro key hkeep
      rw [get_keptMembers hkeep]
      rcases get_cases members key with hmem | hundefined
      · exact ih _ hmem (distinctKeys_get h key)
      · rw [hundefined]
        rfl
  | other value harray hobject =>
      cases value with
      | array items => exact absurd rfl (harray items)
      | object members => exact absurd rfl (hobject members)
      | _ => rfl

end Kept

/-! ## What JSON does not tell apart -/

/-- The value with everything JSON has no text for replaced by what is written
instead: dates become empty objects once they are canonical, numbers that are
not finite and `undefined` items of arrays become `null`. -/
def blur : Value → Value
  | .number (.finite x) => .number (.finite x)
  | .number _ => .null
  | .date _ => .object []
  | .array items => .array (blurItems items)
  | .object members => .object (blurMembers members)
  | value => value
where
  blurItems : List Value → List Value
    | [] => []
    | item :: items => (if item.isUndefined then .null else blur item) :: blurItems items
  blurMembers : List (Text × Value) → List (Text × Value)
    | [] => []
    | (key, value) :: members => (key, blur value) :: blurMembers members

section Blur

variable {items : List Value} {members : List (Text × Value)} {value value' : Value}

theorem blurItems_eq : blur.blurItems items =
    items.map fun item => if item.isUndefined then .null else blur item := by
  induction items with
  | nil => rfl
  | cons item items ih => rw [blur.blurItems, ih, List.map_cons]

theorem blurMembers_eq : blur.blurMembers members =
    members.map fun member => (member.1, blur member.2) := by
  induction members with
  | nil => rfl
  | cons member members ih => rw [blur.blurMembers, ih, List.map_cons]

theorem keys_blurMembers : (blur.blurMembers members).map Prod.fst = members.map Prod.fst := by
  rw [blurMembers_eq, List.map_map]
  rfl

theorem get_blurMembers (members : List (Text × Value)) (key : Text) :
    get (blur.blurMembers members) key = blur (get members key) := by
  induction members with
  | nil => rfl
  | cons member members ih =>
      obtain ⟨name, value⟩ := member
      rw [blur.blurMembers, get_cons, get_cons, ih]
      split <;> rfl

theorem distinctKeys_blur (h : distinctKeys value = true) : distinctKeys (blur value) = true := by
  induction value using inductionOn with
  | array items ih =>
      rw [blur, blurItems_eq]
      refine everywhere_array.mpr ⟨rfl, fun item hitem => ?_⟩
      obtain ⟨original, horiginal, rfl⟩ := List.mem_map.mp hitem
      split
      · rfl
      · exact ih original horiginal ((everywhere_array.mp h).2 original horiginal)
  | object members ih =>
      rw [blur]
      refine distinctKeys_object (by rw [keys_blurMembers]; exact nodup_keys h)
        fun member hmember => ?_
      rw [blurMembers_eq] at hmember
      obtain ⟨original, horiginal, rfl⟩ := List.mem_map.mp hmember
      exact ih original horiginal ((everywhere_object.mp h).2 original horiginal)
  | other value harray hobject =>
      cases value with
      | number x => cases x <;> rfl
      | array items => exact absurd rfl (harray items)
      | object members => exact absurd rfl (hobject members)
      | date time => rfl
      | _ => rfl

/-- A blurred value whose keys survive is plain. -/
theorem isPlain_blur {keep : Text → Bool} (h : hasKeys keep value = true) :
    isPlain keep (blur value) = true := by
  induction value using inductionOn with
  | array items ih =>
      rw [blur, blurItems_eq]
      refine everywhere_array.mpr ⟨?_, fun item hitem => ?_⟩
      · simp only [List.all_map, List.all_eq_true, Function.comp_apply, Bool.not_eq_true']
        intro item _
        split
        · rfl
        · next hdefined =>
            cases item with
            | number x => cases x <;> rfl
            | undefined => exact absurd rfl hdefined
            | _ => rfl
      · obtain ⟨original, horiginal, rfl⟩ := List.mem_map.mp hitem
        split
        · rfl
        · exact ih original horiginal ((everywhere_array.mp h).2 original horiginal)
  | object members ih =>
      obtain ⟨hkeys, hmembers⟩ := everywhere_object.mp h
      rw [blur]
      refine everywhere_object.mpr ⟨?_, fun member hmember => ?_⟩
      · have hall : members.all (fun member => keep member.1) = true := hkeys
        simpa [blurMembers_eq, List.all_map, Function.comp_def] using hall
      · rw [blurMembers_eq] at hmember
        obtain ⟨original, horiginal, rfl⟩ := List.mem_map.mp hmember
        exact ih original horiginal (hmembers original horiginal)
  | other value harray hobject =>
      cases value with
      | number x => cases x <;> rfl
      | array items => exact absurd rfl (harray items)
      | object members => exact absurd rfl (hobject members)
      | date time => rfl
      | _ => rfl

theorem canonicalJson_blur {keep : Text → Bool} (h : distinctKeys value = true) :
    canonicalJson keep (blur value) = canonicalJson keep value := by
  induction value using inductionOn with
  | array items ih =>
      rw [blur, blurItems_eq, canonicalJson_array, canonicalJson_array, List.map_map]
      refine congrArg some (congrArg JsonTree.array (List.map_congr_left fun item hitem => ?_))
      rw [Function.comp_apply]
      split
      · next hundefined =>
          cases item <;> simp_all [isUndefined]
          rfl
      · rw [ih item hitem ((everywhere_array.mp h).2 item hitem)]
  | object members ih =>
      rw [blur, canonicalJson_object_eq_iff (by rw [keys_blurMembers]; exact nodup_keys h)
        (nodup_keys h)]
      intro key _
      rw [get_blurMembers]
      rcases get_cases members key with hmem | hundefined
      · exact ih _ hmem (distinctKeys_get h key)
      · rw [hundefined]
        rfl
  | other value harray hobject =>
      cases value with
      | number x => cases x <;> rfl
      | array items => exact absurd rfl (harray items)
      | object members => exact absurd rfl (hobject members)
      | date time =>
          simp [blur, canonicalJson, canonicalizeWith, canonicalizeWith.canonicalMembers]
      | _ => rfl

/-- Values whose keys survive are written alike exactly when they are the same once blurred. -/
theorem canonicalJson_eq_iff_of_hasKeys {keep : Text → Bool} (hkeys : hasKeys keep value = true)
    (hkeys' : hasKeys keep value' = true) (h : distinctKeys value = true)
    (h' : distinctKeys value' = true) :
    canonicalJson keep value = canonicalJson keep value' ↔ Same (blur value) (blur value') := by
  rw [← canonicalJson_blur h, ← canonicalJson_blur h']
  constructor
  · exact same_of_canonicalJson_eq (isPlain_blur hkeys) (isPlain_blur hkeys')
      (distinctKeys_blur h) (distinctKeys_blur h')
  · intro hsame
    exact canonicalJson_eq_of_same hsame (distinctKeys_blur h) (distinctKeys_blur h')

/-- Where every key survives, values are written alike exactly when they are the same once
blurred. -/
theorem canonicalJson_eq_iff_same_blur {keep : Text → Bool} (hkeep : ∀ key, keep key = true)
    (h : distinctKeys value = true) (h' : distinctKeys value' = true) :
    canonicalJson keep value = canonicalJson keep value' ↔ Same (blur value) (blur value') :=
  canonicalJson_eq_iff_of_hasKeys (hasKeys_of_forall hkeep value) (hasKeys_of_forall hkeep value')
    h h'

/-- Values are written alike exactly when what survives of them is the same once blurred. -/
theorem canonicalJson_eq_iff_same_blur_kept {keep : Text → Bool} (h : distinctKeys value = true)
    (h' : distinctKeys value' = true) : canonicalJson keep value = canonicalJson keep value' ↔
      Same (blur (kept keep value)) (blur (kept keep value')) := by
  rw [← canonicalJson_kept h, ← canonicalJson_kept h']
  exact canonicalJson_eq_iff_of_hasKeys (hasKeys_kept value) (hasKeys_kept value')
    (distinctKeys_kept h) (distinctKeys_kept h')

end Blur

theorem stringify_canonical {keep : Text → Bool} {value : Value} {json : JsonTree}
    (h : canonicalJson keep value = some json) :
    (canonicalizeWith keep value).stringify = json.render := by
  rw [stringify, show toJson (canonicalizeWith keep value) = some json from h]
  rfl

end Value

end ListmonkOps.Runtime
