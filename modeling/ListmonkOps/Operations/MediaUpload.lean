/-
Uploads of media files.

The contents of a file arrive as base64 text, in either alphabet, padded or not,
perhaps behind the head of a data URL and broken into lines. The input schema
bounds their size before it decodes them and checks the content type against
the file name; the upload decodes once more and sends the bytes.
-/

import ListmonkOps.Math.Base64
import ListmonkOps.Runtime.Number
import ListmonkOps.Runtime.Tables

namespace ListmonkOps.Operations

open ListmonkOps.Runtime ListmonkOps.Math.Base64

/-! ## Symbols -/

/-- The symbol of a sextet in the standard alphabet. -/
def symbol (value : ℕ) : UInt16 :=
  if value < 26 then UInt16.ofNat (65 + value)
  else if value < 52 then UInt16.ofNat (71 + value)
  else if value < 62 then UInt16.ofNat (value - 4)
  else if value = 62 then 43
  else 47

/-- The symbol of a sextet in the URL-safe alphabet. -/
def urlSafeSymbol (value : ℕ) : UInt16 :=
  if value = 62 then 45 else if value = 63 then 95 else symbol value

/-- The sextet of a symbol of the standard alphabet. -/
def symbolValue (unit : UInt16) : Option ℕ :=
  if 65 ≤ unit && unit ≤ 90 then some (unit.toNat - 65)
  else if 97 ≤ unit && unit ≤ 122 then some (unit.toNat - 71)
  else if isDigit unit then some (unit.toNat + 4)
  else if unit = 43 then some 62
  else if unit = 47 then some 63
  else none

/-- The class `[A-Za-z0-9+/_-]`. -/
def isBase64Unit (unit : UInt16) : Bool :=
  (65 ≤ unit && unit ≤ 90) || (97 ≤ unit && unit ≤ 122) || isDigit unit || unit = 43 ||
    unit = 47 || unit = 95 || unit = 45

/-- The standard symbol for a URL-safe one. -/
def standardUnit (unit : UInt16) : UInt16 :=
  if unit = 45 then 43 else if unit = 95 then 47 else unit

/-- The characters `atob` skips. -/
def isAsciiWhiteSpace (unit : UInt16) : Bool :=
  unit = 9 || unit = 10 || unit = 12 || unit = 13 || unit = 32

/-! ## Decoding -/

/-- `BASE64_ALPHABET_PATTERN.test(value)`. -/
def matchesBase64Alphabet (value : Text) : Bool :=
  value.dropWhile isBase64Unit ∈ ([[], [61], [61, 61]] : List Text)

/-- Remove one or two padding characters from the end. -/
def dropPadding (data : Text) : Text :=
  if [61, 61].isSuffixOf data then data.dropLast.dropLast
  else if [61].isSuffixOf data then data.dropLast
  else data

/-- `atob`, as the bytes of the binary string; `none` where it throws. -/
def atob (data : Text) : Option (List UInt8) :=
  let data := data.filter (!isAsciiWhiteSpace ·)
  let data := if data.length % 4 = 0 then dropPadding data else data
  if data.length % 4 = 1 then none else (data.mapM symbolValue).map octets

/-- The line terminators, which `.` does not match. -/
def isLineTerminator (unit : UInt16) : Bool :=
  unit = 10 || unit = 13 || unit = 0x2028 || unit = 0x2029

def base64Mark : Text := [59, 98, 97, 115, 101, 54, 52, 44]

/-- The text after the first `;base64,` of the first line. -/
def afterBase64Mark : Text → Option Text
  | [] => none
  | unit :: rest =>
      if base64Mark.isPrefixOf (unit :: rest) then some ((unit :: rest).drop 8)
      else if isLineTerminator unit then none
      else afterBase64Mark rest

/-- `data:`. -/
def dataScheme : Text := [100, 97, 116, 97, 58]

/-- `value.replace(/^data:.*?;base64,/, "")`. -/
def dropDataHead (value : Text) : Text :=
  if dataScheme.isPrefixOf value then (afterBase64Mark (value.drop 5)).getD value else value

/-- `stripBase64Wrapper`. -/
def stripBase64Wrapper (value : Text) : Text :=
  (dropDataHead value).filter (!Text.isWhiteSpace ·)

/-- `decodeBase64ToBytes`. -/
def decodeBase64ToBytes (value : Text) : Option (List UInt8) :=
  let trimmed := stripBase64Wrapper value
  if !matchesBase64Alphabet trimmed then none
  else
    let standard := trimmed.map standardUnit
    match standard.length % 4 with
    | 1 => none
    | 2 => atob (standard ++ [61, 61])
    | 3 => atob (standard ++ [61])
    | _ => atob standard

/-! ## The input schema -/

def allowedMediaContentTypes : List Text :=
  ["image/png", "image/jpeg", "image/gif", "image/webp", "image/bmp", "image/tiff",
    "image/x-icon", "application/pdf", "text/plain", "text/csv"]

def maxMediaUploadBytes : ℕ := 10 * 1024 * 1024

def rawCap : ℕ := (maxMediaUploadBytes * 4 + 2) / 3 + 1000000

def filenameExtensionToMime : List (Text × Text) :=
  [("png", "image/png"), ("jpg", "image/jpeg"), ("jpeg", "image/jpeg"), ("gif", "image/gif"),
    ("webp", "image/webp"), ("bmp", "image/bmp"), ("tif", "image/tiff"), ("tiff", "image/tiff"),
    ("ico", "image/x-icon"), ("pdf", "application/pdf"), ("txt", "text/plain"),
    ("csv", "text/csv")]

/-- The text after the last dot of a file name, unless it is empty. -/
def filenameExtension (filename : Text) : Option Text :=
  let tail := filename.rtakeWhile (· ≠ 46)
  if 46 ∈ filename ∧ tail ≠ [] then some tail else none

def inferContentTypeFromFilename [CaseMapping] (filename : Text) : Option (TableEntry Text) :=
  (filenameExtension filename).bind fun extension =>
    readTable filenameExtensionToMime (CaseMapping.toLowerCase extension)

/-- The raw input of an upload. -/
structure RawMediaUpload where
  base64 : Text
  filename : Text
  contentType : Option Text := none

structure UploadMediaInput where
  base64 : Text
  filename : Text
  contentType : Option Text

structure MediaIssue where
  path : Text
  message : Text
  deriving DecidableEq

/-- How the check of an input ends. -/
inductive SchemaCheck where
  | accepted (input : UploadMediaInput)
  | issues (issues : List MediaIssue)
  /-- A `TypeError` left the check. -/
  | thrown

/-- The number of padding characters that the size estimate takes off. -/
def paddingCount (stripped : Text) : ℕ :=
  if [61, 61].isSuffixOf stripped then 2 else if [61].isSuffixOf stripped then 1 else 0

def maxDecodedLength (base64 : Text) : ℕ :=
  let stripped := stripBase64Wrapper base64
  (stripped.length - paddingCount stripped) * 3 / 4

/-- The issues of the payload that end the check. -/
def payloadIssue (base64 : Text) : Option MediaIssue :=
  if rawCap < base64.length then some
    { path := "base64"
      message := ("media upload raw payload exceeds " : Text) ++ Text.ofNat rawCap ++
        (" characters (decoded cap is " : Text) ++ Text.ofNat maxMediaUploadBytes ++
        (" bytes)" : Text) }
  else if maxMediaUploadBytes < maxDecodedLength base64 then some
    { path := "base64"
      message := ("media upload exceeds the " : Text) ++ Text.ofNat maxMediaUploadBytes ++
        ("-byte cap (encoded length suggests ~" : Text) ++ Text.ofNat (maxDecodedLength base64) ++
        (" bytes)" : Text) }
  else
    match decodeBase64ToBytes base64 with
    | none => some
        { path := "base64"
          message := ("base64 must be a valid RFC 4648 base64 string " : Text) ++
            ("(standard or URL-safe alphabet, optional padding)" : Text) }
    | some [] => some
        { path := "base64"
          message := "base64 must decode to at least one byte of file content" }
    | some _ => none

/-- The issue of a payload that has been decoded and is too long. -/
def decodedIssue (base64 : Text) : Option MediaIssue :=
  match decodeBase64ToBytes base64 with
  | some bytes =>
      if maxMediaUploadBytes < bytes.length then some
        { path := "base64"
          message := ("media upload exceeds the " : Text) ++ Text.ofNat maxMediaUploadBytes ++
            ("-byte cap (got " : Text) ++ Text.ofNat bytes.length ++ (" bytes)" : Text) }
      else none
  | none => none

def effectiveContentType [CaseMapping] (input : UploadMediaInput) : Option (TableEntry Text) :=
  match input.contentType with
  | some contentType => some (.own contentType)
  | none => inferContentTypeFromFilename input.filename

section Check

variable [CaseMapping]

/-- The check of the type against the allowlist; `none` where it throws. -/
def allowlistIssue (input : UploadMediaInput) : Option (List MediaIssue) :=
  match effectiveContentType input with
  | some (.inherited _) => none
  | some (.own type) =>
      if CaseMapping.toLowerCase type ∈ allowedMediaContentTypes then some []
      else some [disallowed]
  | none => some [disallowed]
where
  /-- The issue of a type outside the allowlist. -/
  disallowed : MediaIssue :=
    { path := "content_type"
      message := match input.contentType with
        | some contentType => ("content_type '" : Text) ++ contentType ++
            ("' is not in the allowed media MIME set" : Text)
        | none => ("could not infer an allowed MIME type from filename '" : Text) ++
            input.filename ++ ("'" : Text) }

/-- The check of a given type against the file name; `none` where it throws. -/
def agreementIssue (input : UploadMediaInput) : Option (List MediaIssue) :=
  match input.contentType with
  | none => some []
  | some contentType =>
      match inferContentTypeFromFilename input.filename with
      | some (.inherited _) => none
      | some (.own inferred) =>
          if CaseMapping.toLowerCase inferred ≠ CaseMapping.toLowerCase contentType then some
            [{ path := "content_type"
               message := ("content_type '" : Text) ++ contentType ++
                 ("' does not match filename extension (expected '" : Text) ++ inferred ++
                 ("')" : Text) }]
          else some []
      | none =>
          match filenameExtension input.filename with
          | some extension => some
              [{ path := "content_type"
                 message := ("filename extension '." : Text) ++ extension ++
                   ("' is not in the allowed media set and cannot be overridden by content_type" :
                     Text) }]
          | none => some []

/-- The refinement of `uploadMediaInputSchema`; `none` where it throws. -/
def refineUpload (input : UploadMediaInput) : Option (List MediaIssue) :=
  match payloadIssue input.base64 with
  | some issue => some [issue]
  | none => do
      let disallowed ← allowlistIssue input
      let disagreeing ← agreementIssue input
      return (decodedIssue input.base64).toList ++ disallowed ++ disagreeing

/-- The issue of a text that is too short. -/
def tooShort (path : Text) : MediaIssue :=
  { path, message := "Too small: expected string to have >=1 characters" }

/-- The issues of the fields on their own. -/
def fieldIssues (input : UploadMediaInput) : List MediaIssue :=
  (if input.base64 = [] then [tooShort "base64"] else []) ++
    (if input.filename = [] then [tooShort "filename"] else []) ++
    (if input.contentType = some [] then [tooShort "content_type"] else [])

def uploadMediaInputSchema (raw : RawMediaUpload) : SchemaCheck :=
  let input : UploadMediaInput :=
    { base64 := raw.base64
      filename := raw.filename.trim
      contentType := raw.contentType.map Text.trim }
  match refineUpload input with
  | none => .thrown
  | some issues =>
      match fieldIssues input ++ issues with
      | [] => .accepted input
      | issues => .issues issues

/-! ## The upload -/

/-- What `new File` is given; it keeps the type in lower case. -/
structure MediaFile where
  bytes : List UInt8
  filename : Text
  type : Option (TableEntry Text)
  deriving DecidableEq

/-- The file `uploadMediaFile` sends, or the message it throws. -/
def uploadMediaFile (input : UploadMediaInput) : Except Text MediaFile :=
  match decodeBase64ToBytes input.base64 with
  | none => .error "media upload payload is not valid base64"
  | some bytes => .ok
      { bytes
        filename := input.filename
        type := effectiveContentType input }

/-- What the operation sends for a raw input. -/
def sentFile (raw : RawMediaUpload) : Option MediaFile :=
  match uploadMediaInputSchema raw with
  | .accepted input => (uploadMediaFile input).toOption
  | _ => none

end Check

/-! ## What is decoded -/

section Decoded

variable {values : List ℕ} {text : Text} {pads : ℕ}

theorem symbolValue_symbol : ∀ value < 64, symbolValue (symbol value) = some value := by decide

theorem symbol_ne : ∀ value < 64, symbol value ≠ 61 ∧ symbol value ≠ 58 ∧
    isAsciiWhiteSpace (symbol value) = false := by decide

theorem symbolValue_eq_some {unit : UInt16} {value : ℕ} (h : symbolValue unit = some value) :
    value < 64 ∧ symbol value = unit := by
  unfold symbolValue at h
  simp only [isDigit, Bool.and_eq_true, decide_eq_true_eq, UInt16.le_iff_toNat_le,
    UInt16.reduceToNat] at h
  have hunit : ∀ n : ℕ, n = unit.toNat → UInt16.ofNat n = unit := by
    rintro n rfl
    exact UInt16.ofNat_toNat
  split at h
  · next hupper =>
      obtain rfl := Option.some.inj h
      exact ⟨by omega, by rw [symbol, if_pos (by omega)]; exact hunit _ (by omega)⟩
  · split at h
    · next hlower =>
        obtain rfl := Option.some.inj h
        exact ⟨by omega, by
          rw [symbol, if_neg (by omega), if_pos (by omega)]
          exact hunit _ (by omega)⟩
    · split at h
      · next hdigit =>
          obtain rfl := Option.some.inj h
          exact ⟨by omega, by
            rw [symbol, if_neg (by omega), if_neg (by omega), if_pos (by omega)]
            exact hunit _ (by omega)⟩
      · split at h
        · next hplus =>
            obtain rfl := Option.some.inj h
            exact ⟨by decide, hplus ▸ rfl⟩
        · split at h
          · next hslash =>
              obtain rfl := Option.some.inj h
              exact ⟨by decide, hslash ▸ rfl⟩
          · simp at h

theorem isBase64Unit_eq (unit : UInt16) :
    isBase64Unit unit = (symbolValue (standardUnit unit)).isSome := by
  by_cases hminus : unit = 45
  · subst hminus
    rfl
  by_cases hline : unit = 95
  · subst hline
    rfl
  rw [standardUnit, if_neg hminus, if_neg hline, isBase64Unit, symbolValue]
  simp only [hminus, hline, decide_false, Bool.or_false]
  split
  · next h => simp [h]
  · next hupper =>
      split
      · next h => simp [h]
      · next hlower =>
          split
          · next h => simp [h]
          · next hdigit => by_cases h : unit = 43 <;> by_cases h' : unit = 47 <;>
              simp_all

theorem mapM_symbolValue_map (hsmall : ∀ value ∈ values, value < 64) :
    (values.map symbol).mapM symbolValue = some values := by
  induction values with
  | nil => rfl
  | cons value values ih =>
      simp only [List.mem_cons, forall_eq_or_imp] at hsmall
      simp [symbolValue_symbol value hsmall.1, ih hsmall.2]

theorem mapM_symbolValue_padded (values : List ℕ) (pads : ℕ) :
    (values.map symbol ++ List.replicate (pads + 1) 61).mapM symbolValue = none := by
  have hpad : symbolValue 61 = none := rfl
  simp [List.mapM_append, List.replicate_succ, hpad]

theorem pad_notMem (hsmall : ∀ value ∈ values, value < 64) : 61 ∉ values.map symbol := by
  simp only [List.mem_map, not_exists, not_and]
  exact fun value hvalue => (symbol_ne value (hsmall value hvalue)).1

/-- A text ends with as many padding characters as were put behind it. -/
theorem isSuffixOf_pads {front : Text} (hfront : 61 ∉ front) (n pads : ℕ) :
    (List.replicate (n + 1) (61 : UInt16)).isSuffixOf (front ++ List.replicate pads 61) =
      decide (n < pads) := by
  rw [Bool.eq_iff_iff, List.isSuffixOf_iff_suffix, decide_eq_true_eq]
  constructor
  · rintro ⟨before, hbefore⟩
    by_contra hfew
    have hsplit : List.replicate (n + 1) (61 : UInt16) =
        List.replicate (n - pads + 1) 61 ++ List.replicate pads 61 := by
      rw [List.replicate_append_replicate]
      congr 1
      omega
    rw [hsplit, ← List.append_assoc] at hbefore
    have hsame := List.append_cancel_right hbefore
    exact hfront (by simp [← hsame, List.replicate_succ])
  · intro hmany
    have hsplit : List.replicate pads (61 : UInt16) =
        List.replicate (pads - (n + 1)) 61 ++ List.replicate (n + 1) 61 := by
      rw [List.replicate_append_replicate]
      congr 1
      omega
    exact ⟨front ++ List.replicate (pads - (n + 1)) 61, by rw [hsplit, List.append_assoc]⟩

theorem endsWith_pads {front : Text} (hfront : 61 ∉ front) (pads : ℕ) :
    ([61, 61] : Text).isSuffixOf (front ++ List.replicate pads 61) = decide (1 < pads) ∧
      ([61] : Text).isSuffixOf (front ++ List.replicate pads 61) = decide (0 < pads) :=
  ⟨isSuffixOf_pads hfront 1 pads, isSuffixOf_pads hfront 0 pads⟩

theorem dropPadding_pads (hsmall : ∀ value ∈ values, value < 64) (pads : ℕ) :
    dropPadding (values.map symbol ++ List.replicate pads 61) =
      values.map symbol ++ List.replicate (pads - 2) 61 := by
  obtain ⟨htwo, hone⟩ := endsWith_pads (pad_notMem hsmall) pads
  rw [dropPadding, htwo, hone]
  match pads with
  | 0 => simp
  | 1 => simp
  | pads + 2 =>
      simp [List.replicate_succ' (n := pads + 1), List.replicate_succ' (n := pads),
        ← List.append_assoc]

/-- `atob` on a text padded to groups of four. -/
theorem atob_pads (hsmall : ∀ value ∈ values, value < 64) (hpads : pads ≤ 4)
    (hgroups : (values.length + pads) % 4 = 0) :
    atob (values.map symbol ++ List.replicate pads 61) =
      if pads ≤ 2 then some (octets values) else none := by
  have hkeep : (values.map symbol ++ List.replicate pads 61).filter (!isAsciiWhiteSpace ·) =
      values.map symbol ++ List.replicate pads 61 := by
    rw [List.filter_eq_self]
    intro unit hunit
    rcases List.mem_append.mp hunit with hsymbol | hpad
    · obtain ⟨value, hvalue, rfl⟩ := List.mem_map.mp hsymbol
      rw [(symbol_ne value (hsmall value hvalue)).2.2]
      rfl
    · rw [List.eq_of_mem_replicate hpad]
      rfl
  have hlength : (values.map symbol ++ List.replicate pads (61 : UInt16)).length % 4 = 0 := by
    simpa using hgroups
  simp only [atob, hkeep, if_pos hlength, dropPadding_pads hsmall]
  by_cases hfew : pads ≤ 2
  · have hnone : pads - 2 = 0 := by omega
    simp only [hnone, List.replicate_zero, List.append_nil, List.length_map,
      mapM_symbolValue_map hsmall, Option.map_some, if_pos hfew]
    rw [if_neg (by omega)]
  · obtain ⟨more, hmore⟩ : ∃ more, pads - 2 = more + 1 := ⟨pads - 3, by omega⟩
    rw [hmore, mapM_symbolValue_padded]
    simp [hfew]

/-- A text of symbols, in either alphabet, with padding behind them. -/
structure Spells (text : Text) (values : List ℕ) (pads : ℕ) : Prop where
  small : ∀ value ∈ values, value < 64
  spelled : text.map standardUnit = values.map symbol ++ List.replicate pads 61

theorem standardUnit_eq_pad {unit : UInt16} : standardUnit unit = 61 ↔ unit = 61 := by
  unfold standardUnit
  by_cases hminus : unit = 45
  · subst hminus
    decide
  by_cases hline : unit = 95
  · subst hline
    decide
  simp [hminus, hline]

theorem Spells.split (h : Spells text values pads) :
    ∃ body, text = body ++ List.replicate pads 61 ∧ body.map standardUnit = values.map symbol := by
  obtain ⟨body, tail, rfl, hbody, htail⟩ := List.map_eq_append_iff.mp h.spelled
  refine ⟨body, ?_, hbody⟩
  congr 1
  rw [List.eq_replicate_iff] at htail ⊢
  refine ⟨by simpa using htail.1, fun unit hunit => ?_⟩
  exact standardUnit_eq_pad.mp (htail.2 _ (List.mem_map_of_mem hunit))

theorem isBase64Unit_of_mem {body : Text} (hsmall : ∀ value ∈ values, value < 64)
    (hbody : body.map standardUnit = values.map symbol) :
    ∀ unit ∈ body, isBase64Unit unit = true := by
  intro unit hunit
  have hmem : standardUnit unit ∈ values.map symbol := hbody ▸ List.mem_map_of_mem hunit
  obtain ⟨value, hvalue, heq⟩ := List.mem_map.mp hmem
  rw [isBase64Unit_eq, ← heq, symbolValue_symbol value (hsmall value hvalue)]
  rfl

theorem exists_values {body : Text} (hbody : ∀ unit ∈ body, isBase64Unit unit = true) :
    ∃ values : List ℕ, (∀ value ∈ values, value < 64) ∧
      body.map standardUnit = values.map symbol := by
  induction body with
  | nil => exact ⟨[], by simp, rfl⟩
  | cons unit body ih =>
      obtain ⟨values, hsmall, hvalues⟩ := ih fun u hu => hbody u (List.mem_cons_of_mem _ hu)
      have hunit := hbody unit (List.mem_cons_self ..)
      rw [isBase64Unit_eq] at hunit
      obtain ⟨value, hvalue⟩ := Option.isSome_iff_exists.mp hunit
      obtain ⟨hlt, hsymbol⟩ := symbolValue_eq_some hvalue
      refine ⟨value :: values, ?_, ?_⟩
      · simpa using ⟨hlt, hsmall⟩
      · rw [List.map_cons, List.map_cons, hvalues, hsymbol]

/-- The pattern accepts the texts of symbols with at most two padding characters. -/
theorem matchesBase64Alphabet_iff (text : Text) : matchesBase64Alphabet text = true ↔
    ∃ values pads, Spells text values pads ∧ pads ≤ 2 := by
  constructor
  · intro h
    have hbody : ∀ unit ∈ text.takeWhile isBase64Unit, isBase64Unit unit = true :=
      fun unit hunit => List.mem_takeWhile_imp hunit
    obtain ⟨values, hsmall, hvalues⟩ := exists_values hbody
    have hrest : ∃ pads ≤ 2, text.dropWhile isBase64Unit = List.replicate pads 61 := by
      rw [matchesBase64Alphabet, decide_eq_true_eq] at h
      simp only [List.mem_cons, List.not_mem_nil, or_false] at h
      rcases h with h | h | h
      · exact ⟨0, by omega, h⟩
      · exact ⟨1, by omega, h⟩
      · exact ⟨2, by omega, h⟩
    obtain ⟨pads, hpads, hdrop⟩ := hrest
    refine ⟨values, pads, ⟨hsmall, ?_⟩, hpads⟩
    conv_lhs => rw [← List.takeWhile_append_dropWhile (p := isBase64Unit) (l := text)]
    rw [List.map_append, hvalues, hdrop, List.map_replicate]
    rfl
  · rintro ⟨values, pads, hspells, hpads⟩
    obtain ⟨body, rfl, hbody⟩ := hspells.split
    have hunits := isBase64Unit_of_mem hspells.small hbody
    rw [matchesBase64Alphabet, List.dropWhile_append_of_pos hunits, decide_eq_true_eq]
    match pads, hpads with
    | 0, _ => decide
    | 1, _ => decide
    | 2, _ => decide

/-- How many padding characters fill the last group. -/
def fillingPads (n : ℕ) : ℕ := (4 - n % 4) % 4

theorem decodeBase64ToBytes_of_spells {value : Text}
    (h : Spells (stripBase64Wrapper value) values pads) (hpads : pads ≤ 2) :
    decodeBase64ToBytes value =
      if values.length % 4 ≠ 1 ∧ pads ≤ fillingPads values.length then some (octets values)
      else none := by
  have hmatches : matchesBase64Alphabet (stripBase64Wrapper value) = true :=
    (matchesBase64Alphabet_iff _).mpr ⟨values, pads, h, hpads⟩
  have hlength : ((stripBase64Wrapper value).map standardUnit).length = values.length + pads := by
    rw [h.spelled]
    simp
  have hmore : ∀ more, pads + more ≤ 4 → (values.length + (pads + more)) % 4 = 0 →
      atob ((stripBase64Wrapper value).map standardUnit ++ List.replicate more 61) =
        if pads + more ≤ 2 then some (octets values) else none := by
    intro more hfew hgroups
    rw [h.spelled, List.append_assoc, List.replicate_append_replicate]
    exact atob_pads h.small hfew hgroups
  unfold fillingPads
  rw [decodeBase64ToBytes]
  simp only [hmatches, Bool.not_true, Bool.false_eq_true, if_false, hlength]
  have hremainder : (values.length + pads) % 4 = 0 ∨ (values.length + pads) % 4 = 1 ∨
      (values.length + pads) % 4 = 2 ∨ (values.length + pads) % 4 = 3 := by omega
  rcases hremainder with hzero | hone | htwo | hthree
  · have hsame := hmore 0 (by omega) (by omega)
    rw [List.replicate_zero, List.append_nil] at hsame
    simp only [hzero, hsame]
    exact if_congr (by omega) rfl rfl
  · simp only [hone]
    rw [if_neg (by omega)]
  · simp only [htwo]
    rw [show ([61, 61] : Text) = List.replicate 2 61 from rfl, hmore 2 (by omega) (by omega)]
    exact if_congr (by omega) rfl rfl
  · simp only [hthree]
    rw [show ([61] : Text) = List.replicate 1 61 from rfl, hmore 1 (by omega) (by omega)]
    exact if_congr (by omega) rfl rfl

/-- The size estimate counts the symbols only. -/
theorem maxDecodedLength_of_spells {value : Text}
    (h : Spells (stripBase64Wrapper value) values pads) (hpads : pads ≤ 2) :
    maxDecodedLength value = values.length * 3 / 4 := by
  obtain ⟨body, htext, hbody⟩ := h.split
  have hnopad : 61 ∉ body := by
    intro hmem
    have hunit := isBase64Unit_of_mem h.small hbody 61 hmem
    exact absurd hunit (by decide)
  obtain ⟨htwo, hone⟩ := endsWith_pads hnopad pads
  have hlength : body.length = values.length := by simpa using congrArg List.length hbody
  have hcount : paddingCount (stripBase64Wrapper value) = pads := by
    rw [htext, paddingCount, htwo, hone]
    match pads, hpads with
    | 0, _ => rfl
    | 1, _ => rfl
    | 2, _ => rfl
  simp only [maxDecodedLength, hcount]
  rw [htext, List.length_append, List.length_replicate, Nat.add_sub_cancel, hlength]

end Decoded

/-! ## Wrapped texts -/

section Wrapped

variable {payload text : Text}

/-- The head of a data URL up to the mark of the encoding, on one line, or nothing. -/
def IsDataHead (front : Text) : Prop :=
  front = [] ∨ ∃ head, front = dataScheme ++ (head ++ base64Mark) ∧
    (∀ unit ∈ head, isLineTerminator unit = false) ∧ ¬ base64Mark <:+: head

/-- A payload is a text with white space in it, perhaps behind the head of a data URL. -/
def Wraps (payload text : Text) : Prop :=
  ∃ front body, payload = front ++ body ∧ IsDataHead front ∧
    body.filter (!Text.isWhiteSpace ·) = text

theorem base64Mark_not_prefix {head body : Text} (hne : head ≠ [])
    (hmark : ¬ base64Mark <:+: head) : ¬ base64Mark <+: head ++ (base64Mark ++ body) := by
  intro hprefix
  rcases List.prefix_or_prefix_of_prefix hprefix (List.prefix_append head _) with hin | hpart
  · exact hmark hin.isInfix
  · obtain ⟨tail, htail⟩ := hpart
    have htailPrefix : tail <+: base64Mark ++ body := by
      rw [← List.prefix_append_right_inj head, htail]
      exact hprefix
    obtain ⟨first, rest, rfl⟩ := List.exists_cons_of_ne_nil hne
    cases tail with
    | nil => exact hmark (by rw [← htail, List.append_nil])
    | cons unit tail =>
        -- The mark would begin again inside itself.
        have hunit : unit = 59 := by
          obtain ⟨after, hafter⟩ := htailPrefix
          exact (List.cons.inj hafter).1
        have hmem : (59 : UInt16) ∈ ([98, 97, 115, 101, 54, 52, 44] : Text) := by
          have hrest : rest ++ unit :: tail = [98, 97, 115, 101, 54, 52, 44] :=
            (List.cons.inj htail).2
          rw [← hrest, hunit]
          simp
        exact absurd hmem (by decide)

theorem afterBase64Mark_append {head : Text} (hline : ∀ unit ∈ head, isLineTerminator unit = false)
    (hmark : ¬ base64Mark <:+: head) (body : Text) :
    afterBase64Mark (head ++ (base64Mark ++ body)) = some body := by
  induction head with
  | nil =>
      rw [List.nil_append, base64Mark, List.cons_append, afterBase64Mark,
        if_pos (by simp [base64Mark])]
      rfl
  | cons unit head ih =>
      have hnot : ¬ base64Mark <+: unit :: head ++ (base64Mark ++ body) :=
        base64Mark_not_prefix (List.cons_ne_nil unit head) hmark
      have hrest : ¬ base64Mark <:+: head := fun h =>
        hmark (h.trans (List.suffix_cons unit head).isInfix)
      rw [List.cons_append] at hnot ⊢
      rw [afterBase64Mark, if_neg (by simpa using hnot), if_neg (by simp [hline unit])]
      exact ih (fun u hu => hline u (List.mem_cons_of_mem _ hu)) hrest

theorem afterBase64Mark_eq_some {rest : Text} (h : afterBase64Mark text = some rest) :
    ∃ head, text = head ++ (base64Mark ++ rest) ∧
      (∀ unit ∈ head, isLineTerminator unit = false) ∧ ¬ base64Mark <:+: head := by
  induction text with
  | nil => simp [afterBase64Mark] at h
  | cons unit text ih =>
      rw [afterBase64Mark] at h
      split at h
      · next hprefix =>
          refine ⟨[], ?_, by simp, by simp [base64Mark]⟩
          obtain ⟨after, hafter⟩ := List.isPrefixOf_iff_prefix.mp hprefix
          rw [← Option.some.inj h, ← hafter]
          rfl
      · next hprefix =>
          split at h
          · simp at h
          · next hline =>
              obtain ⟨head, rfl, hlines, hmark⟩ := ih h
              refine ⟨unit :: head, rfl, ?_, ?_⟩
              · simpa [hline] using hlines
              · rw [List.infix_cons_iff]
                rintro (hin | hin)
                · refine hprefix (List.isPrefixOf_iff_prefix.mpr (hin.trans ?_))
                  rw [← List.cons_append]
                  exact List.prefix_append _ _
                · exact hmark hin

theorem wraps_strip (payload : Text) : Wraps payload (stripBase64Wrapper payload) := by
  rw [stripBase64Wrapper, dropDataHead]
  split
  · next hscheme =>
      obtain ⟨line, rfl⟩ := List.isPrefixOf_iff_prefix.mp hscheme
      have hline : (dataScheme ++ line).drop 5 = line := rfl
      rw [hline]
      cases hafter : afterBase64Mark line with
      | none => exact ⟨[], dataScheme ++ line, rfl, .inl rfl, rfl⟩
      | some body =>
          obtain ⟨head, rfl, hlines, hmark⟩ := afterBase64Mark_eq_some hafter
          exact ⟨dataScheme ++ (head ++ base64Mark), body, by simp, .inr ⟨head, rfl, hlines, hmark⟩,
            rfl⟩
  · exact ⟨[], payload, rfl, .inl rfl, rfl⟩

/-- A text without a colon is found again in the payload that wraps it. -/
theorem strip_of_wraps (h : Wraps payload text) (hcolon : (58 : UInt16) ∉ text) :
    stripBase64Wrapper payload = text := by
  obtain ⟨front, body, rfl, hfront, rfl⟩ := h
  rw [stripBase64Wrapper]
  congr 1
  rw [dropDataHead]
  rcases hfront with rfl | ⟨head, rfl, hline, hmark⟩
  · rw [List.nil_append, if_neg]
    intro hscheme
    obtain ⟨rest, rfl⟩ := List.isPrefixOf_iff_prefix.mp hscheme
    exact hcolon (List.mem_filter.mpr ⟨by simp [dataScheme], by decide⟩)
  · rw [if_pos (List.isPrefixOf_iff_prefix.mpr ⟨head ++ base64Mark ++ body, by simp⟩)]
    have hline' : (dataScheme ++ (head ++ base64Mark) ++ body).drop 5 =
        head ++ (base64Mark ++ body) := by
      rw [List.append_assoc, List.append_assoc]
      rfl
    rw [hline', afterBase64Mark_append hline hmark]
    rfl

end Wrapped

/-! ## What a payload denotes -/

/-- The base64 text of a byte string, in an alphabet and with or without padding. -/
def base64Text (alphabet : ℕ → UInt16) (padded : Bool) (bytes : List UInt8) : Text :=
  (sextets bytes).map alphabet ++
    List.replicate (if padded then fillingPads (sextets bytes).length else 0) 61

/-- The payload encodes the bytes in the standard or in the URL-safe alphabet, but not in a
mixture of both. -/
def DenotesStrictly (payload : Text) (bytes : List UInt8) : Prop :=
  ∃ padded, ∃ alphabet ∈ [symbol, urlSafeSymbol],
    Wraps payload (base64Text alphabet padded bytes)

/-- The payload encodes the bytes, where each symbol may be of either alphabet. -/
def Denotes (payload : Text) (bytes : List UInt8) : Prop :=
  ∃ text padded, Wraps payload text ∧ text.map standardUnit = base64Text symbol padded bytes

/-- A payload that falls short of an encoding only by unused bits that are set, or by one of
two padding characters. -/
def Flawed (payload : Text) : Prop :=
  ∃ values pads, Spells (stripBase64Wrapper payload) values pads ∧
    values.length % 4 ≠ 1 ∧ pads ≤ fillingPads values.length ∧
    (unusedBits values ≠ 0 ∨ pads ≠ 0 ∧ pads ≠ fillingPads values.length)

section Denoted

variable {payload : Text} {bytes : List UInt8}

theorem length_sextets_mod (bytes : List UInt8) : (sextets bytes).length % 4 ≠ 1 := by
  rw [length_sextets]
  omega

theorem fillingPads_le {n : ℕ} (h : n % 4 ≠ 1) : fillingPads n ≤ 2 := by
  unfold fillingPads
  omega

theorem le_rawCap {m n : ℕ} (hn : n ≤ maxMediaUploadBytes)
    (hm : m ≤ (n + 2) / 3 * 4 + 999998) : m ≤ rawCap := by
  have hmaximum : maxMediaUploadBytes = 10485760 := rfl
  have hcap : rawCap = 14981014 := rfl
  omega

/-- A padded encoding has four symbols for every three bytes, or part of three. -/
theorem length_base64Text_padded (bytes : List UInt8) :
    (base64Text symbol true bytes).length = (bytes.length + 2) / 3 * 4 := by
  simp only [base64Text, List.length_append, List.length_map, List.length_replicate, if_true,
    fillingPads, length_sextets]
  omega

theorem Denotes.spells (h : Denotes payload bytes) :
    ∃ pads, Spells (stripBase64Wrapper payload) (sextets bytes) pads ∧
      pads ≤ fillingPads (sextets bytes).length ∧ pads ≤ 2 := by
  obtain ⟨text, padded, hwraps, htext⟩ := h
  have hcolon : (58 : UInt16) ∉ text := by
    intro hmem
    have hunit : standardUnit 58 ∈ base64Text symbol padded bytes :=
      htext ▸ List.mem_map_of_mem hmem
    rcases List.mem_append.mp hunit with hsymbol | hpad
    · obtain ⟨value, hvalue, heq⟩ := List.mem_map.mp hsymbol
      exact (symbol_ne value (sextets_lt value hvalue)).2.1 heq
    · exact absurd (List.eq_of_mem_replicate hpad) (by decide)
  rw [strip_of_wraps hwraps hcolon]
  have htwo := fillingPads_le (length_sextets_mod bytes)
  refine ⟨_, ⟨sextets_lt, htext⟩, ?_, ?_⟩ <;> cases padded <;> simp [htwo]

theorem Denotes.decode (h : Denotes payload bytes) :
    decodeBase64ToBytes payload = some bytes := by
  obtain ⟨pads, hspells, hfill, htwo⟩ := h.spells
  rw [decodeBase64ToBytes_of_spells hspells htwo, if_pos ⟨length_sextets_mod bytes, hfill⟩,
    octets_sextets]

/-- The size of an encoding is estimated exactly. -/
theorem Denotes.maxDecodedLength (h : Denotes payload bytes) :
    maxDecodedLength payload = bytes.length := by
  obtain ⟨pads, hspells, -, htwo⟩ := h.spells
  rw [maxDecodedLength_of_spells hspells htwo, length_sextets]
  omega

/-- What is decoded is an encoding, but for the two flaws. -/
theorem denotes_or_flawed (h : decodeBase64ToBytes payload = some bytes) :
    Denotes payload bytes ∨ Flawed payload := by
  have hmatches : matchesBase64Alphabet (stripBase64Wrapper payload) = true := by
    by_contra hnot
    simp [decodeBase64ToBytes, hnot] at h
  obtain ⟨values, pads, hspells, htwo⟩ := (matchesBase64Alphabet_iff _).mp hmatches
  rw [decodeBase64ToBytes_of_spells hspells htwo] at h
  split at h
  · next hshape =>
      obtain rfl := Option.some.inj h
      by_cases hflaw : unusedBits values ≠ 0 ∨ pads ≠ 0 ∧ pads ≠ fillingPads values.length
      · exact .inr ⟨values, pads, hspells, hshape.1, hshape.2, hflaw⟩
      · obtain ⟨hunused, hpads⟩ := not_or.mp hflaw
        have hvalues : sextets (octets values) = values :=
          sextets_octets hspells.small hshape.1 (not_not.mp hunused)
        refine .inl ⟨_, decide (pads ≠ 0), wraps_strip payload, ?_⟩
        rw [base64Text, hvalues, hspells.spelled]
        congr 2
        by_cases hzero : pads = 0
        · simp [hzero]
        · simpa [hzero] using hpads
  · simp at h

end Denoted

/-! ## What is sent -/

section Sent

variable [CaseMapping] {raw : RawMediaUpload} {input : UploadMediaInput}

theorem accepted_inv (h : uploadMediaInputSchema raw = .accepted input) :
    input = { base64 := raw.base64, filename := raw.filename.trim,
              contentType := raw.contentType.map Text.trim } ∧
      payloadIssue input.base64 = none ∧ decodedIssue input.base64 = none ∧
        allowlistIssue input = some [] := by
  unfold uploadMediaInputSchema at h
  simp only at h
  split at h
  · simp at h
  · next issues hissues =>
      split at h
      · next hnil =>
          obtain rfl := SchemaCheck.accepted.inj h
          obtain ⟨-, hrefined⟩ := List.append_eq_nil_iff.mp hnil
          rw [hrefined] at hissues
          refine ⟨rfl, ?_⟩
          unfold refineUpload at hissues
          split at hissues
          · simp at hissues
          · next hpayload =>
              simp only [Option.bind_eq_bind, Option.bind_eq_some_iff] at hissues
              obtain ⟨disallowed, hallowed, disagreeing, -, hall⟩ := hissues
              have hnone := Option.some.inj hall
              simp only [List.append_eq_nil_iff, Option.toList_eq_nil_iff] at hnone
              exact ⟨hpayload, hnone.1.1, by rw [hallowed, hnone.1.2]⟩
      · simp at h

theorem allowed_of_allowlistIssue (h : allowlistIssue input = some []) :
    ∃ type, effectiveContentType input = some (.own type) ∧
      CaseMapping.toLowerCase type ∈ allowedMediaContentTypes := by
  unfold allowlistIssue at h
  split at h
  · simp at h
  · next type htype =>
      split at h
      · next hallowed => exact ⟨type, htype, hallowed⟩
      · simp at h
  · simp at h

omit [CaseMapping] in
/-- A payload without an issue decodes to a byte at least, and to no more than the cap. -/
theorem decoded_of_no_issue {base64 : Text} (hpayload : payloadIssue base64 = none)
    (hdecoded : decodedIssue base64 = none) :
    ∃ bytes, decodeBase64ToBytes base64 = some bytes ∧ bytes ≠ [] ∧
      bytes.length ≤ maxMediaUploadBytes := by
  unfold payloadIssue at hpayload
  split at hpayload
  · simp at hpayload
  · split at hpayload
    · simp at hpayload
    · split at hpayload
      · simp at hpayload
      · simp at hpayload
      · next bytes hnonempty hbytes =>
          refine ⟨bytes, hbytes, by simpa using hnonempty, ?_⟩
          rw [decodedIssue, hbytes] at hdecoded
          by_contra hlong
          simp [Nat.lt_of_not_le hlong] at hdecoded

/-- What an upload does, for a raw input: it sends the bytes of an encoding, and sends nothing
where there is none or where they are too many. -/
structure SendsExactly (raw : RawMediaUpload) : Prop where
  /-- An accepted encoding is sent as the bytes it denotes, under an allowlisted type. -/
  sends : ∀ bytes input, Denotes raw.base64 bytes → uploadMediaInputSchema raw = .accepted input →
    ∃ type, uploadMediaFile input = .ok
        { bytes, filename := raw.filename.trim, type := some (.own type) } ∧
      CaseMapping.toLowerCase type ∈ allowedMediaContentTypes
  /-- What decodes to nothing or to more than the cap is not sent. -/
  rejectsSize : ∀ bytes, decodeBase64ToBytes raw.base64 = some bytes →
    bytes = [] ∨ maxMediaUploadBytes < bytes.length → sentFile raw = none
  /-- What is no encoding is not sent, the two flaws apart. -/
  rejectsForeign : (∀ bytes, ¬ Denotes raw.base64 bytes) → ¬ Flawed raw.base64 →
    sentFile raw = none
  /-- An encoding of 1 byte up to the cap, within the raw cap, has no issue of its own. -/
  passes : ∀ bytes, Denotes raw.base64 bytes → bytes ≠ [] → bytes.length ≤ maxMediaUploadBytes →
    raw.base64.length ≤ rawCap →
      maxDecodedLength raw.base64 ≤ maxMediaUploadBytes ∧
        payloadIssue raw.base64 = none ∧ decodedIssue raw.base64 = none
  /-- The raw cap leaves room for the padded encoding of the cap and 999998 other units. -/
  fits : ∀ bytes : List UInt8, bytes.length ≤ maxMediaUploadBytes →
    raw.base64.length ≤ (base64Text symbol true bytes).length + 999998 →
      raw.base64.length ≤ rawCap
  /-- The check ends, unless the extension names what plain objects inherit. -/
  terminates : (∀ extension ∈ filenameExtension raw.filename.trim,
      CaseMapping.toLowerCase extension ∉ inheritedNames) → uploadMediaInputSchema raw ≠ .thrown

/-- A type that is inferred is one of the table, unless the extension names what plain objects
inherit. -/
theorem infer_own {filename : Text} {entry : TableEntry Text}
    (hextension : ∀ extension ∈ filenameExtension filename,
      CaseMapping.toLowerCase extension ∉ inheritedNames)
    (h : inferContentTypeFromFilename filename = some entry) : ∃ type, entry = .own type := by
  obtain ⟨extension, hmem, hread⟩ := Option.bind_eq_some_iff.mp h
  obtain ⟨type, rfl, -⟩ := readTable_eq_some hread (hextension extension hmem)
  exact ⟨type, rfl⟩

theorem refineUpload_isSome (hextension : ∀ extension ∈ filenameExtension input.filename,
    CaseMapping.toLowerCase extension ∉ inheritedNames) : (refineUpload input).isSome := by
  have hallowlist : (allowlistIssue input).isSome := by
    unfold allowlistIssue
    split
    · next name hentry =>
        unfold effectiveContentType at hentry
        split at hentry
        · simp at hentry
        · obtain ⟨type, htype⟩ := infer_own hextension hentry
          simp at htype
    · split <;> rfl
    · rfl
  have hagreement : (agreementIssue input).isSome := by
    unfold agreementIssue
    split
    · rfl
    · split
      · next name hentry =>
          obtain ⟨type, htype⟩ := infer_own hextension hentry
          simp at htype
      · split <;> rfl
      · split <;> rfl
  obtain ⟨disallowed, hdisallowed⟩ := Option.isSome_iff_exists.mp hallowlist
  obtain ⟨disagreeing, hdisagreeing⟩ := Option.isSome_iff_exists.mp hagreement
  unfold refineUpload
  split
  · rfl
  · simp [hdisallowed, hdisagreeing]

/-- A file is sent for an accepted input only, and holds what the payload decodes to. -/
theorem sentFile_eq_some {file : MediaFile} (h : sentFile raw = some file) :
    decodeBase64ToBytes raw.base64 = some file.bytes ∧ file.bytes ≠ [] ∧
      file.bytes.length ≤ maxMediaUploadBytes := by
  unfold sentFile at h
  split at h
  · next input haccepted =>
      obtain ⟨rfl, hpayload, hdecoded, -⟩ := accepted_inv haccepted
      obtain ⟨bytes, hbytes, hne, hlength⟩ := decoded_of_no_issue hpayload hdecoded
      simp only [uploadMediaFile, hbytes, Except.toOption, Option.some.injEq] at h
      subst h
      exact ⟨hbytes, hne, hlength⟩
  · simp at h

omit [CaseMapping] in
theorem no_issue_of_denotes {base64 : Text} {bytes : List UInt8} (h : Denotes base64 bytes)
    (hne : bytes ≠ []) (hlength : bytes.length ≤ maxMediaUploadBytes)
    (hraw : base64.length ≤ rawCap) :
    payloadIssue base64 = none ∧ decodedIssue base64 = none := by
  constructor
  · rw [payloadIssue, if_neg (by omega), if_neg (by rw [h.maxDecodedLength]; omega), h.decode]
    cases bytes with
    | nil => exact absurd rfl hne
    | cons byte bytes => rfl
  · simp only [decodedIssue, h.decode]
    rw [if_neg (by omega)]

/-- Uploads send exactly the bytes of an encoding, and nothing for a payload that is none. -/
theorem upload_sendsExactly (raw : RawMediaUpload) : SendsExactly raw where
  sends := by
    intro bytes input hdenotes haccepted
    obtain ⟨rfl, -, -, hallowlist⟩ := accepted_inv haccepted
    obtain ⟨type, htype, hallowed⟩ := allowed_of_allowlistIssue hallowlist
    refine ⟨type, ?_, hallowed⟩
    simp only [uploadMediaFile, hdenotes.decode, htype]
  rejectsSize := by
    intro bytes hdecode hsize
    rw [Option.eq_none_iff_forall_ne_some]
    intro file hfile
    obtain ⟨hfileBytes, hne, hlength⟩ := sentFile_eq_some hfile
    obtain rfl := Option.some.inj (hdecode.symm.trans hfileBytes)
    rcases hsize with hempty | hlong
    · exact hne hempty
    · omega
  rejectsForeign := by
    intro hforeign hflawed
    rw [Option.eq_none_iff_forall_ne_some]
    intro file hfile
    rcases denotes_or_flawed (sentFile_eq_some hfile).1 with hdenotes | hflaw
    · exact hforeign _ hdenotes
    · exact hflawed hflaw
  passes := by
    intro bytes hdenotes hne hlength hraw
    exact ⟨hdenotes.maxDecodedLength.trans_le hlength,
      no_issue_of_denotes hdenotes hne hlength hraw⟩
  fits := by
    intro bytes hlength hraw
    rw [length_base64Text_padded] at hraw
    exact le_rawCap hlength hraw
  terminates := by
    intro hextension hthrown
    unfold uploadMediaInputSchema at hthrown
    simp only at hthrown
    split at hthrown
    · next hnone =>
        have hsome : (refineUpload ⟨raw.base64, raw.filename.trim,
            raw.contentType.map Text.trim⟩).isSome := refineUpload_isSome hextension
        simp [hnone] at hsome
    · split at hthrown <;> simp at hthrown

end Sent

section Mixed

attribute [local instance] asciiCaseMapping

/-- A payload with symbols of both alphabets. -/
def mixedUpload : RawMediaUpload where
  base64 := "+_+_"
  filename := "pixel.png"

theorem not_denotesStrictly_mixed (bytes : List UInt8) :
    ¬ DenotesStrictly mixedUpload.base64 bytes := by
  rintro ⟨padded, alphabet, halphabet, hwraps⟩
  have hsymbols : ∀ unit ∈ base64Text alphabet padded bytes,
      unit = 61 ∨ ∃ value < 64, alphabet value = unit := by
    intro unit hunit
    rcases List.mem_append.mp hunit with hsymbol | hpad
    · obtain ⟨value, hvalue, heq⟩ := List.mem_map.mp hsymbol
      exact .inr ⟨value, sextets_lt value hvalue, heq⟩
    · exact .inl (List.eq_of_mem_replicate hpad)
  have hapart : ∀ value < 64, symbol value ≠ 58 ∧ symbol value ≠ 95 ∧ urlSafeSymbol value ≠ 58 ∧
      urlSafeSymbol value ≠ 43 := by decide
  simp only [List.mem_cons, List.not_mem_nil, or_false] at halphabet
  have hcolon : (58 : UInt16) ∉ base64Text alphabet padded bytes := by
    intro hmem
    rcases hsymbols 58 hmem with hpad | ⟨value, hvalue, heq⟩
    · exact absurd hpad (by decide)
    · rcases halphabet with rfl | rfl
      · exact (hapart value hvalue).1 heq
      · exact (hapart value hvalue).2.2.1 heq
  have htext : base64Text alphabet padded bytes = mixedUpload.base64 :=
    (strip_of_wraps hwraps hcolon).symm.trans (by decide)
  rw [htext] at hsymbols
  rcases halphabet with rfl | rfl
  · rcases hsymbols 95 (by decide) with hpad | ⟨value, hvalue, heq⟩
    · exact absurd hpad (by decide)
    · exact (hapart value hvalue).2.1 heq
  · rcases hsymbols 43 (by decide) with hpad | ⟨value, hvalue, heq⟩
    · exact absurd hpad (by decide)
    · exact (hapart value hvalue).2.2.2 heq

/-- A payload that is an encoding in neither alphabet can be sent. -/
theorem not_rejected_mixedUpload :
    ¬ ∀ raw : RawMediaUpload, (∀ bytes, ¬ DenotesStrictly raw.base64 bytes) →
      sentFile raw = none := by
  intro hrejected
  have hsent : sentFile mixedUpload = some ⟨[0xFB, 0xFF, 0xBF], "pixel.png",
      some (.own "image/png")⟩ := by decide +kernel
  rw [hrejected mixedUpload not_denotesStrictly_mixed] at hsent
  simp at hsent

/-- Two bytes in the URL-safe alphabet, unpadded, in a data URL with a blank. -/
def wrappedUpload : RawMediaUpload where
  base64 := "data:image/png;base64,-_ 8"
  filename := " pixel.PNG "

theorem denotes_wrappedUpload : Denotes wrappedUpload.base64 [0xFB, 0xFF] := by
  have hline : ("image/png" : Text).all (!isLineTerminator ·) = true := by decide +kernel
  have hhead : IsDataHead "data:image/png;base64," := by
    refine .inr ⟨"image/png", by decide +kernel, fun unit hunit => ?_, by decide +kernel⟩
    simpa only [Bool.not_eq_true'] using List.all_eq_true.mp hline unit hunit
  exact ⟨"-_8", false, ⟨_, "-_ 8", by decide +kernel, hhead, by decide +kernel⟩,
    by decide +kernel⟩

/-- It is accepted, and sent as these bytes. -/
theorem upload_sendsExactly_wrapped : ∃ input type,
    uploadMediaInputSchema wrappedUpload = .accepted input ∧
      uploadMediaFile input = .ok
        { bytes := [0xFB, 0xFF], filename := "pixel.PNG", type := some (.own type) } ∧
      CaseMapping.toLowerCase type ∈ allowedMediaContentTypes := by
  have hsent : (sentFile wrappedUpload).isSome = true := by decide +kernel
  unfold sentFile at hsent
  cases hchecked : uploadMediaInputSchema wrappedUpload with
  | accepted input =>
      obtain ⟨type, hfile, hallowed⟩ :=
        (upload_sendsExactly wrappedUpload).sends _ input denotes_wrappedUpload hchecked
      exact ⟨input, type, rfl, hfile, hallowed⟩
  | issues issues =>
      rw [hchecked] at hsent
      cases hsent
  | thrown =>
      rw [hchecked] at hsent
      cases hsent

end Mixed

end ListmonkOps.Operations
