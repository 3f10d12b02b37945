/-
Ranges in prefix notation.

A range is written as an address, alone or with the number of leading bits that
its addresses share. The texts of addresses are those of the standard notation:
four decimal octets, or groups of hexadecimal digits, some of which may be left
out or written as octets. The platform says which texts are addresses, and is
taken to know that notation; the numbers are read by the doctor itself.
-/

import ListmonkOps.Network.Literals

namespace ListmonkOps.Provider

open ListmonkOps.Runtime ListmonkOps.Network

/-- `isIP` takes an address of either version for what it is. -/
class LawfulIpSyntax [IpSyntax] : Prop where
  dotted {text : Text} {n : ℕ} (h : IsDotted text n) : IpSyntax.isIP text = 4
  literal6 {text : Text} {n : ℕ} (h : IsLiteral6 text n) : IpSyntax.isIP text = 6

/-- The text is the address of this version with this number, in lower case. -/
def IsAddress : IpFamily → Text → ℕ → Prop
  | .v4 => IsDotted
  | .v6 => IsLiteral6

/-- The text in lower case is an address, alone or with a prefix length in digits. -/
def IsCidr [CaseMapping] (value : Text) (family : IpFamily) (n p : ℕ) : Prop :=
  ∃ address, IsAddress family address n ∧
    ((CaseMapping.toLowerCase value = address ∧ p = family.width) ∨
      ∃ digits, CaseMapping.toLowerCase value = address ++ 47 :: digits ∧ isDecimal digits = true ∧
        decimalValue digits = p ∧ p ≤ family.width)

/-! ## Numbers of addresses -/

theorem bigEndian_lt {base : ℕ} {digits : List ℕ} (h : ∀ digit ∈ digits, digit < base) :
    bigEndian base digits < base ^ digits.length := by
  induction digits using List.reverseRecOn with
  | nil => exact Nat.one_pos
  | append_singleton digits digit ih =>
      have hinit := ih fun other hmem => h other (List.mem_append_left _ hmem)
      have hlast := h digit (by simp)
      have hstep : bigEndian base (digits ++ [digit]) = bigEndian base digits * base + digit := by
        simp [bigEndian]
      rw [hstep, List.length_append, List.length_singleton, pow_succ]
      calc bigEndian base digits * base + digit < bigEndian base digits * base + base := by omega
        _ = (bigEndian base digits + 1) * base := by ring
        _ ≤ base ^ digits.length * base := Nat.mul_le_mul_right base hinit

theorem lt_of_groups {parts : List Text} {groups : List ℕ}
    (h : List.Forall₂ IsGroup parts groups) : ∀ group ∈ groups, group < 65536 := by
  intro group hmem
  obtain ⟨part, -, hgroup⟩ := exists_of_forall₂_left h.flip hmem
  exact IsGroup.lt hgroup

theorem isLiteral6_lt {text : Text} {n : ℕ} (h : IsLiteral6 text n) : n < 2 ^ 128 := by
  have hgroups : ∀ {groups : List ℕ}, groups.length = 8 → (∀ group ∈ groups, group < 65536) →
      bigEndian 65536 groups < 2 ^ 128 := by
    intro groups height hlt
    have hall := bigEndian_lt hlt
    rw [height] at hall
    exact hall.trans_eq (by norm_num)
  obtain ⟨plain, -, hspelled⟩ := isLiteral6_iff.mp h
  cases hspelled with
  | full fields eight => exact hgroups eight (lt_of_groups fields)
  | compressed leading trailing fewer =>
      refine hgroups (by simp; omega) ?_
      simp only [List.mem_append, List.mem_replicate]
      rintro group ((hmem | ⟨-, rfl⟩) | hmem)
      · exact lt_of_groups leading group hmem
      · norm_num
      · exact lt_of_groups trailing group hmem

theorem IsAddress.lt {family : IpFamily} {address : Text} {n : ℕ} (h : IsAddress family address n) :
    n < 2 ^ family.width := by
  cases family with
  | v4 => exact IsDotted.lt h
  | v6 => exact isLiteral6_lt h

/-! ## Units of addresses -/

/-- The units that addresses are written with. -/
def isAddressUnit (unit : UInt16) : Bool :=
  isDigit unit || (97 ≤ unit && unit ≤ 102) || unit = 46 || unit = 58

theorem asciiLower_of_isAddressUnit {unit : UInt16} (h : isAddressUnit unit = true) :
    unit < 128 ∧ asciiLower unit = unit := by
  have hrange : (46 ≤ unit.toNat ∧ unit.toNat ≤ 58) ∨ (97 ≤ unit.toNat ∧ unit.toNat ≤ 102) := by
    simp only [isAddressUnit, isDigit, Bool.or_eq_true, Bool.and_eq_true, decide_eq_true_eq,
      UInt16.le_iff_toNat_le, ← UInt16.toNat_inj, UInt16.reduceToNat] at h
    omega
  constructor
  · have h128 : (128 : UInt16).toNat = 128 := rfl
    rw [UInt16.lt_iff_toNat_lt, h128]
    omega
  · rw [← UInt16.toNat_inj, toNat_asciiLower, if_neg (by omega)]

theorem fields_notMem {parts : List Text} {groups : List ℕ} (h : Fields parts groups)
    {unit : UInt16} (hunit : isAddressUnit unit = false) : ∀ part ∈ parts, unit ∉ part := by
  simp only [isAddressUnit, Bool.or_eq_false_iff] at hunit
  obtain ⟨⟨⟨hdigit, hletter⟩, hdot⟩, -⟩ := hunit
  induction h with
  | nil => simp
  | dotted h =>
      intro part hpart hmem
      obtain rfl := List.mem_singleton.mp hpart
      rcases h.unit unit hmem with hyes | rfl
      · rw [hdigit] at hyes
        cases hyes
      · simp at hdot
  | group h rest ih =>
      rw [List.forall_mem_cons]
      exact ⟨h.notMem (by rw [hdigit, hletter]; rfl), ih⟩

theorem IsAddress.unit {family : IpFamily} {address : Text} {n : ℕ}
    (h : IsAddress family address n) : ∀ unit ∈ address, isAddressUnit unit = true := by
  intro unit hmem
  by_contra hother
  rw [Bool.not_eq_true] at hother
  have hcolon : unit ≠ 58 := by
    rintro rfl
    simp [isAddressUnit] at hother
  cases family with
  | v4 =>
      rcases IsDotted.unit h unit hmem with hdigit | rfl
      · simp [isAddressUnit, hdigit] at hother
      · simp [isAddressUnit] at hother
  | v6 =>
      have hgroups : ∀ {parts : List Text} {groups : List ℕ}, List.Forall₂ IsGroup parts groups →
          unit ∉ [58].intercalate parts :=
        fun hparts => notMem_intercalate hcolon (fields_notMem (fields_of_groups hparts) hother)
      cases h with
      | full fields eight => exact notMem_intercalate hcolon (fields_notMem fields hother) hmem
      | compressed leading trailing fewer =>
          have htrailing := notMem_intercalate hcolon (fields_notMem trailing hother)
          simp only [List.mem_append, List.mem_cons, hcolon, false_or] at hmem
          exact hmem.elim (hgroups leading) htrailing

theorem IsAddress.notMem {family : IpFamily} {address : Text} {n : ℕ}
    (h : IsAddress family address n) {unit : UInt16} (hunit : isAddressUnit unit = false) :
    unit ∉ address := by
  intro hmem
  rw [h.unit unit hmem] at hunit
  cases hunit

/-! ## The reader -/

section Reading

variable [CaseMapping] [LawfulCaseMapping] [IpSyntax] [LawfulIpSyntax] {family : IpFamily}
  {address value : Text} {n p : ℕ}

omit [IpSyntax] [LawfulIpSyntax] in
/-- An address is in lower case already. -/
theorem IsAddress.toLowerCase (h : IsAddress family address n) :
    CaseMapping.toLowerCase address = address := by
  have hunits := fun unit hmem => asciiLower_of_isAddressUnit (h.unit unit hmem)
  rw [LawfulCaseMapping.ascii address fun unit hmem => (hunits unit hmem).1]
  exact (List.map_congr_left fun unit hmem => (hunits unit hmem).2).trans (List.map_id _)

theorem IsAddress.read (h : IsAddress family address n) :
    IpSyntax.isIP address = family.number ∧ addressInteger family address = some n := by
  cases family with
  | v4 =>
      have hrecognized := LawfulIpSyntax.dotted h
      exact ⟨hrecognized, ipv4Integer_of_dotted h hrecognized⟩
  | v6 =>
      have hrecognized := LawfulIpSyntax.literal6 h
      refine ⟨hrecognized, ipv6Integer_of_literal (fun _ _ => LawfulIpSyntax.dotted) hrecognized
        (IsAddress.notMem (show IsAddress .v6 address n from h) rfl) ?_⟩
      rw [IsAddress.toLowerCase (show IsAddress .v6 address n from h)]
      exact h

/-- A range in prefix notation is read as the addresses with the same leading bits. -/
theorem parseSpfIpInterval_network (h : IsCidr value family n p) :
    ∃ range, parseSpfIpInterval value = some range ∧ range.IsRange ∧
      range.addresses = networkOf family n p := by
  obtain ⟨address, haddress, hvalue⟩ := h
  obtain ⟨hrecognized, hinteger⟩ := haddress.read
  have hparsed : p ≤ family.width ∧
      parseSpfIpInterval value = some (prefixRange family n p) := by
    rcases hvalue with ⟨hvalue, rfl⟩ | ⟨digits, hvalue, hdigits, hvalueOf, hle⟩
    · refine ⟨le_rfl, parseSpfIpInterval_eq none hrecognized (haddress.notMem rfl) hinteger ?_ rfl
        le_rfl⟩
      rw [hvalue, splitAtLast, if_neg (haddress.notMem rfl)]
    · refine ⟨hle, parseSpfIpInterval_eq (some digits) hrecognized (haddress.notMem rfl) hinteger ?_
        ⟨hdigits, hvalueOf⟩ hle⟩
      rw [hvalue, splitAtLast_concat (notMem_of_isDecimal hdigits rfl)]
  exact ⟨_, hparsed.2, isRange_prefixRange, addresses_prefixRange haddress.lt hparsed.1⟩

end Reading

/-! ## Main result -/

/-- Lists of ranges behave as sets of addresses: normalizing keeps the addresses and
leaves sorted ranges that neither overlap nor touch, intersecting and subtracting
denote intersection and difference, and a range in prefix notation denotes the
addresses with the same leading bits. -/
theorem spfIntervals_denote (left right : List SpfIpInterval)
    (hleft : ∀ range ∈ left, range.IsRange) (hright : ∀ range ∈ right, range.IsRange) :
    (Canonical (normalizeSpfIntervals left) ∧
      addressesOf (normalizeSpfIntervals left) = addressesOf left) ∧
    (Canonical (intersectSpfIntervals left right) ∧
      addressesOf (intersectSpfIntervals left right) = addressesOf left ∩ addressesOf right) ∧
    (Canonical (subtractSpfIntervals left right) ∧
      addressesOf (subtractSpfIntervals left right) = addressesOf left \ addressesOf right) ∧
    ∀ [CaseMapping] [LawfulCaseMapping] [IpSyntax] [LawfulIpSyntax] (value : Text)
        (family : IpFamily) (n p : ℕ), IsCidr value family n p →
      ∃ range, parseSpfIpInterval value = some range ∧ range.IsRange ∧
        range.addresses = networkOf family n p :=
  ⟨normalizeSpfIntervals_canonical hleft, intersectSpfIntervals_canonical hleft hright,
    subtractSpfIntervals_canonical hleft hright,
    fun _ _ _ _ => parseSpfIpInterval_network⟩

/-- A platform that reads the standard notation. -/
@[reducible]
def standardIpSyntax : IpSyntax where
  isIP text :=
    if (parseIpv4Address text).isSome then 4
    else if ((withoutDottedTail text).bind groupsNumber).isSome then 6
    else 0

theorem isLiteral6_iff_read {text : Text} {n : ℕ} :
    IsLiteral6 text n ↔ (withoutDottedTail text).bind groupsNumber = some n := by
  rw [isLiteral6_iff, Option.bind_eq_some_iff]
  exact exists_congr fun plain => and_congr_right fun _ => groupsNumber_iff.symm

theorem lawful_standardIpSyntax : @LawfulIpSyntax standardIpSyntax := by
  refine @LawfulIpSyntax.mk standardIpSyntax (fun {text n} h => ?_) fun {text n} h => ?_
  · exact if_pos (by rw [parseIpv4Address_eq_some.mpr h]; rfl)
  · have hfour : parseIpv4Address text = none := by
      rw [Option.eq_none_iff_forall_ne_some]
      intro m hm
      rcases (parseIpv4Address_eq_some.mp hm).unit 58 h.colon with hdigit | hdot
      · exact absurd hdigit (by decide)
      · exact absurd hdot (by decide)
    change (if (parseIpv4Address text).isSome then 4 else _) = 6
    rw [hfour, if_neg (by simp), isLiteral6_iff_read.mp h]
    rfl

/-- Two networks side by side, an address between others, and a network of each version. -/
theorem spfIntervals_denote_sample :
    let left : List SpfIpInterval := [⟨.v4, 3232235776, 3232236031⟩, ⟨.v4, 3232235520, 3232235775⟩]
    let right : List SpfIpInterval := [⟨.v4, 3232235775, 3232235775⟩, ⟨.v6, 0, 1⟩]
    addressesOf (subtractSpfIntervals left right) = addressesOf left \ addressesOf right ∧
      letI := asciiCaseMapping
      letI := standardIpSyntax
      (∃ range, parseSpfIpInterval "192.168.1.77/23" = some range ∧
        range.addresses = networkOf .v4 0xc0a8014d 23) ∧
      ∃ range, parseSpfIpInterval "2001:DB8::8:800:200C:417A/61" = some range ∧
        range.addresses = networkOf .v6 0x20010db80000000000080800200c417a 61 := by
  have hdenote := spfIntervals_denote
    [⟨.v4, 3232235776, 3232236031⟩, ⟨.v4, 3232235520, 3232235775⟩]
    [⟨.v4, 3232235775, 3232235775⟩, ⟨.v6, 0, 1⟩] (by simp [SpfIpInterval.IsRange])
    (by simp [SpfIpInterval.IsRange])
  refine ⟨hdenote.2.2.1.2, ?_, ?_⟩
  all_goals
    let := asciiCaseMapping
    have := lawful_asciiCaseMapping
    let := standardIpSyntax
    have := lawful_standardIpSyntax
  · have haddress : IsAddress .v4 "192.168.1.77" 0xc0a8014d :=
      parseIpv4Address_eq_some.mp (by decide +kernel)
    obtain ⟨range, hparsed, -, haddresses⟩ := hdenote.2.2.2 "192.168.1.77/23" .v4 0xc0a8014d 23
      ⟨_, haddress, .inr ⟨"23", by decide, by decide, by decide, by decide⟩⟩
    exact ⟨range, hparsed, haddresses⟩
  · have haddress : IsAddress .v6 "2001:db8::8:800:200c:417a" 0x20010db80000000000080800200c417a :=
      isLiteral6_iff_read.mpr (by decide +kernel)
    obtain ⟨range, hparsed, -, haddresses⟩ := hdenote.2.2.2 "2001:DB8::8:800:200C:417A/61" .v6
      0x20010db80000000000080800200c417a 61
      ⟨_, haddress, .inr ⟨"61", by decide, by decide, by decide, by decide⟩⟩
    exact ⟨range, hparsed, haddresses⟩

end ListmonkOps.Provider
