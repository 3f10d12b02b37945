/-
Records that are found again after they were created.

A create that is answered without data is followed by a lookup: the pages of the
listing are scanned for a record of the name. Names repeat, so a create reports
the record it made where no older record of the name is listed before it. The
clone takes the ids of the name before it creates and looks for the one that is
new.
-/

import Mathlib.Data.List.Nodup
import ListmonkOps.Runtime.JsonFileStore
import ListmonkOps.Runtime.Number

namespace ListmonkOps.Operations

open ListmonkOps.Runtime

/-! ## Responses -/

/-- A campaign, a list or a template, as far as the lookups read it. -/
structure Resource where
  id : Option ℕ
  name : Text
  deriving DecidableEq

structure ResourcePage where
  results : List Resource
  total : ℕ
  perPage : ℕ

/-- What the client gives for a request. -/
inductive Reply (α : Type) where
  | /-- An error, with the message that is made of it. -/
    error (message : Text)
  | /-- Neither an error nor data. -/
    noData
  | data (value : α)

/-- `unwrapResourceResponse`, and `unwrapData` of the lists. -/
def Reply.unwrap {α : Type} (reply : Reply α) (context : Text) : Except Text α :=
  match reply with
  | .error message => .error (context ++ (": " : Text) ++ message)
  | .noData => .error (context ++ (": received empty data" : Text))
  | .data value => .ok value

/-- `unwrapResourceResponse` of what a request gives, or the error it throws. -/
def unwrapReceived {α : Type} (context : Text) (reply : Except Text (Reply α)) :
    Except Text α := do
  let reply ← reply
  reply.unwrap context

theorem eq_data_of_unwrapReceived {α : Type} {context : Text} {reply : Except Text (Reply α)} {value : α}
    (h : unwrapReceived context reply = .ok value) : reply = .ok (.data value) := by
  rcases reply with error | message | _ | data
  · cases h
  · cases h
  · cases h
  · cases h
    rfl

def isPositiveSafeInteger (value : ℤ) : Bool := 0 < value && value ≤ Runtime.maxSafeInteger

inductive Returned where
  | record (resource : Resource)
  | /-- The value `{}` or `null`, which the generated client makes of an empty body. -/
    blank
  deriving DecidableEq

/-! ## Scans -/

section Scan

variable {σ : Type}

/-- Show records to a visitor until it stops. -/
def visitRecords (visitor : Resource → σ → σ × Bool) : List Resource → σ → σ × Bool
  | [], found => (found, false)
  | record :: records, found =>
      match visitor record found with
      | (found, true) => (found, true)
      | (found, false) => visitRecords visitor records found

/-- The pages from one on, with the number of them. -/
def visitPages (list : ℕ → Reply ResourcePage) (context : Text)
    (visitor : Resource → σ → σ × Bool) : ℕ → ℕ → σ → Except Text σ
  | 0, _, found => .ok found
  | left + 1, page, found =>
      match (list page).unwrap context with
      | .error error => .error error
      | .ok pageData =>
          match visitRecords visitor pageData.results found with
          | (found, true) => .ok found
          | (found, false) => visitPages list context visitor left (page + 1) found

/-- `Math.max(1, Math.ceil(total / pageSize))`. -/
def pageCount (total pageSize : ℕ) : ℕ := max 1 ((total + pageSize - 1) / pageSize)

/-- The first page, and the others that it counts. -/
def scanPages (list : ℕ → Reply ResourcePage) (context : Text) (pageSize : ResourcePage → ℕ)
    (visitor : Resource → σ → σ × Bool) (found : σ) : Except Text σ :=
  match (list 1).unwrap context with
  | .error error => .error error
  | .ok firstPage =>
      match visitRecords visitor firstPage.results found with
      | (found, true) => .ok found
      | (found, false) =>
          visitPages list context visitor (pageCount firstPage.total (pageSize firstPage) - 1) 2
            found

def scanCampaignPages (list : ℕ → Reply ResourcePage) (errorContext : Text)
    (visitor : Resource → σ → σ × Bool) (found : σ) : Except Text σ :=
  scanPages list errorContext (fun _ => 100) visitor found

end Scan

/-- Keep the first record of a name, and stop there. -/
def firstNamed (name : Text) (record : Resource) (found : Option Resource) :
    Option Resource × Bool :=
  if record.name = name then (some record, true) else (found, false)

def findCreatedCampaign (list : ℕ → Reply ResourcePage) (name : Text) :
    Except Text (Option Resource) :=
  scanCampaignPages list "Failed to resolve created campaign" (firstNamed name) none

def findCreatedList (list : ℕ → Reply ResourcePage) (name : Text) :
    Except Text (Option Resource) :=
  scanPages list "Failed to resolve created list" (fun _ => 100) (firstNamed name) none

/-- `findCreatedTemplate`. Page 1 is requested without a size, and its own size counts the
pages. -/
def findCreatedTemplate (list : ℕ → Reply ResourcePage) (name : Text) :
    Except Text (Option Resource) :=
  scanPages list "Failed to resolve created template" (fun firstPage => max firstPage.perPage 1)
    (firstNamed name) none

def collectCampaignIdsByName (list : ℕ → Reply ResourcePage) (name : Text) :
    Except Text (List ℕ) :=
  scanCampaignPages list "Failed to snapshot existing campaigns before clone"
    (fun record ids => (if record.name = name then ids ++ record.id.toList else ids, false)) []

def findCreatedCampaignNotInSet (list : ℕ → Reply ResourcePage) (name : Text)
    (excludeIds : List ℕ) : Except Text (Option Resource) :=
  match scanCampaignPages list "Failed to resolve created campaign"
      (fun record candidates =>
        (if record.name = name ∧ record.id.any (· ∉ excludeIds) then candidates ++ [record]
          else candidates, false)) [] with
  | .error error => .error error
  | .ok [candidate] => .ok (some candidate)
  | .ok _ => .ok none

/-! ## Creates -/

/-- The create of a resource, with the reply to the request and the lookup. -/
def createResource (failed unresolved : Text) (reply : Reply Returned)
    (lookup : Except Text (Option Resource)) : Except Text Returned :=
  match reply with
  | .error message => .error (failed ++ message)
  | .data value => .ok value
  | .noData =>
      match lookup with
      | .error error => .error error
      | .ok none => .error unresolved
      | .ok (some created) => .ok (.record created)

def createCampaign (reply : Reply Returned) (list : ℕ → Reply ResourcePage) (name : Text) :
    Except Text Returned :=
  createResource "Failed to create campaign: "
    "Campaign was created but the created record could not be resolved" reply
    (findCreatedCampaign list name)

/-- `createSubscriberList`; the listing is searched for the name. -/
def createSubscriberList (reply : Reply Returned) (list : Text → ℕ → Reply ResourcePage)
    (name : Text) : Except Text Returned :=
  createResource "Failed to create list: "
    "List was created but the created record could not be resolved" reply
    (findCreatedList (list name) name)

def createTemplate (reply : Reply Returned) (list : ℕ → Reply ResourcePage) (name : Text) :
    Except Text Returned :=
  createResource "Failed to create template: "
    "Template was created but the created record could not be resolved" reply
    (findCreatedTemplate list name)

/-- The campaign that is cloned: the ids of its lists and media, where they are finite numbers,
and the other fields of its body. -/
structure SourceCampaign where
  lists : Option (List (Option ℚ))
  media : Option (List (Option ℚ))
  fields : List (Text × Text)

/-- The body of the clone's create. -/
structure CloneBody where
  name : Text
  lists : List ℚ
  media : List ℚ
  fields : List (Text × Text)

/-- The ids of entries; `kind` is named in the error. -/
def numericIds (id : ℕ) (kind : Text) (entries : Option (List (Option ℚ))) :
    Except Text (List ℚ) :=
  ((entries.getD []).zipIdx).mapM fun (entry, index) =>
    match entry with
    | some value => .ok value
    | none => .error (("Campaign " : Text) ++ Text.ofNat id ++ (" cannot be cloned: " : Text) ++
        kind ++ (" entry at index " : Text) ++ Text.ofNat index ++
        (" is missing a numeric id" : Text))

/-- What `cloneCampaign` does up to its create: the ids of the name that there are, and the body.
`parse` is `parseOperationInput` with the schema of a create. -/
def cloneRequest (parse : CloneBody → Except Text CloneBody) (source : Reply SourceCampaign)
    (list : ℕ → Reply ResourcePage) (id : ℕ) (name : Text) : Except Text (List ℕ × CloneBody) := do
  let source ← source.unwrap
    (("Failed to load campaign " : Text) ++ Text.ofNat id ++ (" for clone" : Text))
  let preExistingIds ← collectCampaignIdsByName list name
  let sourceLists ← numericIds id "list" source.lists
  let sourceMediaIds ← numericIds id "media" source.media
  let body ← parse ⟨name, sourceLists, sourceMediaIds, source.fields⟩
  return (preExistingIds, body)

/-- `cloneCampaign`, with the listings before and after the create. -/
def cloneCampaign (parse : CloneBody → Except Text CloneBody) (source : Reply SourceCampaign)
    (before after : ℕ → Reply ResourcePage) (reply : Reply Returned) (id : ℕ) (name : Text) :
    Except Text Returned :=
  match cloneRequest parse source before id name with
  | .error error => .error error
  | .ok (preExistingIds, _) =>
      createResource "Failed to clone campaign: "
        (("Campaign was cloned but the created record could not be resolved unambiguously. " : Text)
          ++ ("Run `campaigns list --query` to locate it." : Text))
        reply (findCreatedCampaignNotInSet after name preExistingIds)

/-! ## Listings -/

/-- The records in the order in which they are listed, and the pages whose request fails. -/
structure Listing where
  records : List Resource
  failure : ℕ → Option Text

namespace Listing

def page (listing : Listing) (perPage page : ℕ) : Reply ResourcePage :=
  match listing.failure page with
  | some message => .error message
  | none => .data ⟨(listing.records.drop ((page - 1) * perPage)).take perPage,
      listing.records.length, perPage⟩

/-- The pages of the templates, of which page 1 has a size of the server's own. -/
def templatePage (listing : Listing) (firstSize page : ℕ) : Reply ResourcePage :=
  listing.page (if page = 1 then firstSize else 100) page

def searched (listing : Listing) (search : Resource → Bool) : Listing :=
  { listing with records := listing.records.filter search }

end Listing

/-! ## What a scan is shown -/

/-- The records of the pages before the first that fails, from one on. -/
def servedPages (list : ℕ → Reply ResourcePage) : ℕ → ℕ → List Resource
  | 0, _ => []
  | left + 1, page =>
      match list page with
      | .data pageData => pageData.results ++ servedPages list left (page + 1)
      | _ => []

/-- The records that a scan is shown where it does not stop. -/
def scanned (list : ℕ → Reply ResourcePage) (pageSize : ResourcePage → ℕ) : List Resource :=
  match list 1 with
  | .data firstPage => firstPage.results ++
      servedPages list (pageCount firstPage.total (pageSize firstPage) - 1) 2
  | _ => []

theorem visitRecords_firstNamed (name : Text) (records : List Resource) :
    visitRecords (firstNamed name) records none =
      (records.find? (·.name = name), (records.find? (·.name = name)).isSome) := by
  induction records with
  | nil => rfl
  | cons record records ih =>
      by_cases hname : record.name = name
      · simp [visitRecords, firstNamed, hname]
      · simp [visitRecords, firstNamed, hname, ih]

theorem visitPages_firstNamed {list : ℕ → Reply ResourcePage} {context name : Text}
    {left page : ℕ} {record : Resource} :
    visitPages list context (firstNamed name) left page none = .ok (some record) ↔
      (servedPages list left page).find? (·.name = name) = some record := by
  induction left generalizing page with
  | zero => simp [visitPages, servedPages]
  | succ left ih =>
      rw [visitPages, servedPages]
      cases hpage : list page with
      | error message => simp [Reply.unwrap]
      | noData => simp [Reply.unwrap]
      | data pageData =>
          simp only [Reply.unwrap, visitRecords_firstNamed, List.find?_append]
          cases hfind : pageData.results.find? (·.name = name) with
          | none => simpa using ih
          | some first => simp

/-- A scan for a name finds the first record of the name that it is shown. -/
theorem scanPages_firstNamed {list : ℕ → Reply ResourcePage} {context name : Text}
    {pageSize : ResourcePage → ℕ} {record : Resource} :
    scanPages list context pageSize (firstNamed name) none = .ok (some record) ↔
      (scanned list pageSize).find? (·.name = name) = some record := by
  rw [scanPages, scanned]
  cases hpage : list 1 with
  | error message => simp [Reply.unwrap]
  | noData => simp [Reply.unwrap]
  | data firstPage =>
      simp only [Reply.unwrap, visitRecords_firstNamed, List.find?_append]
      cases hfind : firstPage.results.find? (·.name = name) with
      | none => simpa using visitPages_firstNamed
      | some first => simp

section Collect

variable {σ : Type} {step : σ → Resource → σ}

/-- A visitor that never stops folds over the records. -/
theorem visitRecords_fold (records : List Resource) (found : σ) :
    visitRecords (fun record found => (step found record, false)) records found =
      (records.foldl step found, false) := by
  induction records generalizing found with
  | nil => rfl
  | cons record records ih => exact ih _

theorem visitPages_fold {list : ℕ → Reply ResourcePage} {context : Text} {left page : ℕ}
    {found result : σ}
    (h : visitPages list context (fun record found => (step found record, false)) left page found =
      .ok result) :
    result = (servedPages list left page).foldl step found ∧
      ∀ n, page ≤ n → n < page + left → ∃ pageData, list n = .data pageData := by
  induction left generalizing page found with
  | zero =>
      cases h
      exact ⟨rfl, fun n hn hlt => absurd hlt (by omega)⟩
  | succ left ih =>
      rw [visitPages] at h
      rw [servedPages]
      cases hpage : list page with
      | error message => simp [hpage, Reply.unwrap] at h
      | noData => simp [hpage, Reply.unwrap] at h
      | data pageData =>
          simp only [hpage, Reply.unwrap, visitRecords_fold] at h
          obtain ⟨hresult, hserved⟩ := ih h
          refine ⟨by rw [hresult, List.foldl_append], fun n hn hlt => ?_⟩
          rcases hn.eq_or_lt with rfl | hn
          · exact ⟨pageData, hpage⟩
          · exact hserved n hn (by omega)

theorem scanPages_fold {list : ℕ → Reply ResourcePage} {context : Text}
    {pageSize : ResourcePage → ℕ} {found result : σ}
    (h : scanPages list context pageSize (fun record found => (step found record, false)) found =
      .ok result) :
    result = (scanned list pageSize).foldl step found ∧ ∃ firstPage, list 1 = .data firstPage ∧
      ∀ n, 2 ≤ n → n < 2 + (pageCount firstPage.total (pageSize firstPage) - 1) →
        ∃ pageData, list n = .data pageData := by
  rw [scanPages] at h
  rw [scanned]
  cases hpage : list 1 with
  | error message => simp [hpage, Reply.unwrap] at h
  | noData => simp [hpage, Reply.unwrap] at h
  | data firstPage =>
      simp only [hpage, Reply.unwrap, visitRecords_fold] at h
      obtain ⟨hresult, hserved⟩ := visitPages_fold h
      exact ⟨by rw [hresult, List.foldl_append], firstPage, rfl, hserved⟩

end Collect

/-! ## Pages of a listing -/

namespace Listing

variable {listing : Listing} {size : ℕ}

theorem page_eq_data_iff {page : ℕ} :
    (∃ pageData, listing.page size page = .data pageData) ↔ listing.failure page = none := by
  rw [Listing.page]
  cases listing.failure page <;> simp

theorem servedPages_page (left page : ℕ)
    (h : ∀ n, page + 1 ≤ n → n < page + 1 + left → listing.failure n = none) :
    servedPages (listing.page size) left (page + 1) =
      (listing.records.drop (page * size)).take (left * size) := by
  induction left generalizing page with
  | zero => rw [servedPages, Nat.zero_mul, List.take_zero]
  | succ left ih =>
      have hpage : listing.page size (page + 1) =
          .data ⟨(listing.records.drop (page * size)).take size, listing.records.length, size⟩ := by
        rw [Listing.page, h _ (by omega) (by omega), Nat.add_sub_cancel]
      rw [servedPages, hpage]
      simp only
      rw [ih (page + 1) fun n hn hlt => h n (by omega) (by omega), Nat.succ_mul, Nat.succ_mul,
        Nat.add_comm (left * size), List.take_add, List.drop_drop]

theorem length_le_pageCount_mul (total : ℕ) {size : ℕ} (hsize : 0 < size) :
    total ≤ pageCount total size * size := by
  have hle : (total + size - 1) / size ≤ pageCount total size := Nat.le_max_right _ _
  have hdiv := Nat.div_add_mod (total + size - 1) size
  have hmod := Nat.mod_lt (total + size - 1) hsize
  have hmul := Nat.mul_le_mul_right size hle
  rw [Nat.mul_comm] at hdiv
  omega

theorem scanned_page (hsize : 0 < size) (h : ∀ n, 1 ≤ n →
    n ≤ pageCount listing.records.length size → listing.failure n = none) :
    scanned (listing.page size) (fun _ => size) = listing.records := by
  have hone : 1 ≤ pageCount listing.records.length size := Nat.le_max_left _ _
  have hfirst : listing.page size 1 =
      .data ⟨listing.records.take size, listing.records.length, size⟩ := by
    rw [Listing.page, h 1 le_rfl hone]
    simp
  rw [scanned, hfirst]
  simp only
  rw [servedPages_page _ 1 fun n hn hlt => h n (by omega) (by omega), Nat.one_mul,
    ← List.take_add]
  refine List.take_of_length_le ?_
  have hall := length_le_pageCount_mul listing.records.length hsize
  have hsplit : pageCount listing.records.length size * size =
      size + (pageCount listing.records.length size - 1) * size := by
    obtain ⟨count, hcount⟩ := Nat.exists_eq_add_of_le' hone
    rw [hcount, Nat.add_sub_cancel, Nat.succ_mul, Nat.add_comm]
  omega

end Listing

/-! ## Creates that are accepted -/

/-- A create that the server accepted: what there was besides, how it is answered, and how the
records are listed afterwards. -/
structure Creation where
  name : Text
  id : ℕ
  existing : List Resource
  fresh : ∀ record ∈ existing, record.id ≠ some id
  listing : Listing
  listed : listing.records.Perm (⟨some id, name⟩ :: existing)
  reply : Reply Returned
  answered : ∀ record, reply = .data (.record record) → record.id = some id

namespace Creation

variable {creation : Creation} {listed : List Resource} {lookup : Except Text (Option Resource)}

/-- A result is the record that was created, or an error: never the record of somebody else. -/
def Reports (creation : Creation) (result : Except Text Returned) : Prop :=
  ∀ value, result = .ok value → ∃ record, value = .record record ∧ record.id = some creation.id

/-- No other record of the name is listed before the one that was created. -/
def HeadsName (creation : Creation) (listed : List Resource) : Prop :=
  ∀ before old after, listed = before ++ old :: after → old.name = creation.name →
    old.id ≠ some creation.id →
      ∃ record ∈ before, record.name = creation.name ∧ record.id = some creation.id

/-- The reply has the record, or the lookup is shown it before the others of the name. -/
def Resolves (creation : Creation) (listed : List Resource) : Prop :=
  creation.reply ≠ .data .blank ∧ (creation.reply = .noData → creation.HeadsName listed)

theorem headsName_iff : creation.HeadsName listed ↔
    ∀ record, listed.find? (·.name = creation.name) = some record →
      record.id = some creation.id := by
  constructor
  · intro h record hfind
    rw [List.find?_eq_some_iff_append] at hfind
    obtain ⟨hname, before, after, rfl, hbefore⟩ := hfind
    by_contra hid
    obtain ⟨other, hother, hsame, -⟩ := h before record after rfl (by simpa using hname) hid
    simpa [hsame] using hbefore other hother
  · rintro h before old after rfl hname hid
    cases hfind : before.find? (·.name = creation.name) with
    | none =>
        have hold : (before ++ old :: after).find? (·.name = creation.name) = some old := by
          rw [List.find?_append, hfind, List.find?_cons_of_pos (by simpa using hname)]
          rfl
        exact absurd (h old hold) hid
    | some record =>
        have hrecord : (before ++ old :: after).find? (·.name = creation.name) = some record := by
          rw [List.find?_append, hfind]
          rfl
        exact ⟨record, List.mem_of_find?_eq_some hfind, by simpa using List.find?_some hfind,
          h record hrecord⟩

/-- A create reports the record where its lookup finds the right one or it has no need of it. -/
theorem reports_createResource {failed unresolved : Text} :
    creation.Reports (createResource failed unresolved creation.reply lookup) ↔
      creation.reply ≠ .data .blank ∧ (creation.reply = .noData →
        ∀ record, lookup = .ok (some record) → record.id = some creation.id) := by
  cases hreply : creation.reply with
  | error message => simp [createResource, Reports]
  | data value =>
      cases value with
      | record resource => simpa [createResource, Reports] using creation.answered resource hreply
      | blank => simp [createResource, Reports]
  | noData =>
      cases lookup with
      | error error => simp [createResource, Reports]
      | ok found => cases found <;> simp [createResource, Reports]

/-- A create whose lookup takes the first record of the name. -/
theorem reports_iff_resolves {failed unresolved : Text}
    (hlookup : ∀ record, lookup = .ok (some record) ↔
      listed.find? (·.name = creation.name) = some record) :
    creation.Reports (createResource failed unresolved creation.reply lookup) ↔
      creation.Resolves listed := by
  rw [reports_createResource, Resolves, headsName_iff]
  simp only [hlookup]

end Creation

/-- A create by `cloneCampaign`, with the listing that it scanned before. Others may have created
records since, and none is gone. -/
structure CloneCreation extends Creation where
  snapshot : Listing
  known : ∀ record ∈ snapshot.records, record ∈ existing

/-! ## The clone -/

theorem foldl_candidates {name : Text} {excludeIds : List ℕ} (records candidates : List Resource) :
    records.foldl (fun candidates record =>
        if record.name = name ∧ record.id.any (· ∉ excludeIds) then candidates ++ [record]
          else candidates) candidates =
      candidates ++ records.filter fun record =>
        record.name = name ∧ record.id.any (· ∉ excludeIds) := by
  induction records generalizing candidates with
  | nil => rw [List.filter_nil, List.append_nil]; rfl
  | cons record records ih =>
      rw [List.foldl_cons, ih, List.filter_cons]
      by_cases hcandidate : record.name = name ∧ record.id.any (· ∉ excludeIds)
      · rw [if_pos hcandidate, if_pos (decide_eq_true hcandidate), List.append_assoc]
        rfl
      · rw [if_neg hcandidate, if_neg (by simpa using hcandidate)]

theorem mem_foldl_ids {name : Text} {id : ℕ} (records : List Resource) (ids : List ℕ) :
    id ∈ records.foldl (fun ids record =>
        if record.name = name then ids ++ record.id.toList else ids) ids ↔
      id ∈ ids ∨ ∃ record ∈ records, record.name = name ∧ record.id = some id := by
  induction records generalizing ids with
  | nil => simp
  | cons record records ih =>
      rw [List.foldl_cons, ih, List.exists_mem_cons_iff, ← or_assoc]
      refine or_congr_left ?_
      split_ifs with hname
      · simp [hname]
      · simp [hname]

theorem scanCampaignPages_fold {σ : Type} {step : σ → Resource → σ} {listing : Listing}
    {context : Text} {found result : σ}
    (h : scanCampaignPages (listing.page 100) context
      (fun record found => (step found record, false)) found = .ok result) :
    result = listing.records.foldl step found := by
  obtain ⟨hresult, firstPage, hfirst, hserved⟩ := scanPages_fold h
  have hone := Listing.page_eq_data_iff.mp ⟨firstPage, hfirst⟩
  have htotal : firstPage.total = listing.records.length := by
    rw [Listing.page, hone] at hfirst
    cases hfirst
    rfl
  rw [hresult, Listing.scanned_page (by decide) fun n hn hle => ?_]
  rcases hn.eq_or_lt with rfl | hn
  · exact hone
  · rw [← htotal] at hle
    exact Listing.page_eq_data_iff.mp (hserved n hn (by omega))

theorem collectCampaignIdsByName_ok {listing : Listing} {name : Text} {ids : List ℕ}
    (h : collectCampaignIdsByName (listing.page 100) name = .ok ids) {id : ℕ} (hid : id ∈ ids) :
    ∃ record ∈ listing.records, record.id = some id := by
  rw [scanCampaignPages_fold h, mem_foldl_ids] at hid
  obtain hnil | ⟨record, hrecord, -, hid⟩ := hid
  · cases hnil
  · exact ⟨record, hrecord, hid⟩

theorem findCreatedCampaignNotInSet_ok {listing : Listing} {name : Text} {excludeIds : List ℕ}
    {found record : Resource} {id : ℕ}
    (h : findCreatedCampaignNotInSet (listing.page 100) name excludeIds = .ok (some found))
    (hrecord : record ∈ listing.records) (hname : record.name = name) (hid : record.id = some id)
    (hnew : id ∉ excludeIds) : found = record := by
  rw [findCreatedCampaignNotInSet] at h
  split at h
  · cases h
  · rename_i candidate hscan
    cases h
    have hcandidates := scanCampaignPages_fold hscan
    rw [foldl_candidates, List.nil_append] at hcandidates
    have hmem : record ∈ [found] := by
      rw [hcandidates, List.mem_filter]
      exact ⟨hrecord, by simp [hname, hid, hnew]⟩
    exact (List.mem_singleton.mp hmem).symm
  · cases h

theorem cloneRequest_ok {parse : CloneBody → Except Text CloneBody}
    {source : Reply SourceCampaign} {list : ℕ → Reply ResourcePage} {id : ℕ} {name : Text}
    {request : List ℕ × CloneBody} (h : cloneRequest parse source list id name = .ok request) :
    collectCampaignIdsByName list name = .ok request.1 := by
  rw [cloneRequest, except_bind_eq_ok] at h
  obtain ⟨campaign, -, h⟩ := h
  rw [except_bind_eq_ok] at h
  obtain ⟨preExistingIds, hids, h⟩ := h
  simp only [except_bind_eq_ok] at h
  obtain ⟨lists, -, media, -, body, -, h⟩ := h
  cases h
  exact hids

/-- The clone is right where it does not create or its reply is not blank: its lookup is never
wrong. -/
theorem CloneCreation.reports_cloneCampaign (creation : CloneCreation)
    (parse : CloneBody → Except Text CloneBody) (source : Reply SourceCampaign) (id : ℕ) :
    creation.Reports (cloneCampaign parse source (creation.snapshot.page 100)
        (creation.listing.page 100) creation.reply id creation.name) ↔
      (∃ error, cloneRequest parse source (creation.snapshot.page 100) id creation.name =
        .error error) ∨ creation.reply ≠ .data .blank := by
  rw [cloneCampaign]
  cases hrequest : cloneRequest parse source (creation.snapshot.page 100) id creation.name with
  | error error => simp [Creation.Reports]
  | ok request =>
      have hlookup : ∀ record, findCreatedCampaignNotInSet (creation.listing.page 100)
          creation.name request.1 = .ok (some record) → record.id = some creation.id := by
        intro record hfound
        have hcreated : ⟨some creation.id, creation.name⟩ ∈ creation.listing.records :=
          creation.listed.mem_iff.mpr List.mem_cons_self
        rw [findCreatedCampaignNotInSet_ok hfound hcreated rfl rfl fun hmem => ?_]
        obtain ⟨old, hold, hid⟩ := collectCampaignIdsByName_ok (cloneRequest_ok hrequest) hmem
        exact creation.fresh old (creation.known old hold) hid
      obtain ⟨preExistingIds, body⟩ := request
      simp only [Creation.reports_createResource, reduceCtorEq, exists_false, false_or,
        and_iff_left_iff_imp]
      exact fun _ _ => hlookup

/-! ## What is reported -/

/-- Each create reports the record it made exactly where the reply has it, or is without data and
no older record of the name is listed first; a clone never takes an older record, and no create
survives a blank reply. -/
theorem creates_report_iff (creation : Creation) (search : Text → Resource → Bool)
    (firstSize : ℕ) (clone : CloneCreation) (parse : CloneBody → Except Text CloneBody)
    (source : Reply SourceCampaign) (sourceId : ℕ) :
    (creation.Reports (createCampaign creation.reply (creation.listing.page 100) creation.name) ↔
      creation.Resolves (scanned (creation.listing.page 100) fun _ => 100)) ∧
    (creation.Reports (createSubscriberList creation.reply
        (fun query => (creation.listing.searched (search query)).page 100) creation.name) ↔
      creation.Resolves
        (scanned ((creation.listing.searched (search creation.name)).page 100) fun _ => 100)) ∧
    (creation.Reports (createTemplate creation.reply (creation.listing.templatePage firstSize)
        creation.name) ↔
      creation.Resolves (scanned (creation.listing.templatePage firstSize)
        fun firstPage => max firstPage.perPage 1)) ∧
    (clone.Reports (cloneCampaign parse source (clone.snapshot.page 100)
        (clone.listing.page 100) clone.reply sourceId clone.name) ↔
      (∃ error, cloneRequest parse source (clone.snapshot.page 100) sourceId clone.name =
        .error error) ∨ clone.reply ≠ .data .blank) :=
  ⟨Creation.reports_iff_resolves fun _ => scanPages_firstNamed,
    Creation.reports_iff_resolves fun _ => scanPages_firstNamed,
    Creation.reports_iff_resolves fun _ => scanPages_firstNamed,
    clone.reports_cloneCampaign parse source sourceId⟩

/-- A campaign of the name of an older one, which is listed first. -/
def weeklyCreation : Creation where
  name := "Weekly"
  id := 2
  existing := [⟨some 1, "Weekly"⟩]
  fresh := by simp
  listing := ⟨[⟨some 1, "Weekly"⟩, ⟨some 2, "Weekly"⟩], fun _ => none⟩
  listed := .swap _ _ _
  reply := .noData
  answered := nofun

/-- The older campaign is reported as the one that was created. -/
theorem not_reports_weeklyCreation :
    ¬ weeklyCreation.Reports (createCampaign weeklyCreation.reply
      (weeklyCreation.listing.page 100) weeklyCreation.name) := by
  intro h
  obtain ⟨record, hrecord, hid⟩ := h (.record ⟨some 1, "Weekly"⟩) (by decide +kernel)
  cases hrecord
  cases hid

/-- The same create by a clone, which has seen the older campaign before. -/
def weeklyClone : CloneCreation where
  toCreation := weeklyCreation
  snapshot := ⟨[⟨some 1, "Weekly"⟩], fun _ => none⟩
  known := by simp [weeklyCreation]

/-- The campaign it clones, which is sent to one list. -/
def weeklySource : SourceCampaign := ⟨some [some 3], none, [("subject", "News")]⟩

/-- The clone reports the campaign that it created. -/
theorem creates_report_iff_weeklyClone :
    cloneCampaign .ok (.data weeklySource) (weeklyClone.snapshot.page 100)
        (weeklyClone.listing.page 100) weeklyClone.reply 1 weeklyClone.name =
      .ok (.record ⟨some 2, "Weekly"⟩) ∧
    weeklyClone.Reports (cloneCampaign .ok (.data weeklySource) (weeklyClone.snapshot.page 100)
      (weeklyClone.listing.page 100) weeklyClone.reply 1 weeklyClone.name) :=
  ⟨by decide +kernel, (creates_report_iff weeklyCreation (fun _ _ => true) 100 weeklyClone .ok
    (.data weeklySource) 1).2.2.2.mpr (.inr nofun)⟩

end ListmonkOps.Operations
