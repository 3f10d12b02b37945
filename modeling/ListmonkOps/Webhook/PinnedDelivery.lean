/-
Deliveries over the network.

The host of an endpoint is resolved once, and one address that is not routed
globally among the answers refuses the delivery. What was checked is what is
connected to: each connection is made to an address of that one answer, never to
the name again, whatever a later lookup would say. The addresses are tried in
order until one of them responds or the attempt is aborted.
-/

import ListmonkOps.Math.Executions
import ListmonkOps.Network.Literals
import ListmonkOps.Webhook.Dispatch

namespace ListmonkOps.Webhook

open ListmonkOps.Math ListmonkOps.Runtime ListmonkOps.Network
open ListmonkOps.Provider (IpFamily IpSyntax LawfulCaseMapping)

/-! ## The platform -/

structure ParsedUrl where
  protocol : Text
  hostname : Text

class UrlPlatform where
  /-- `new URL(url)`, or the message of what it throws. -/
  parse : Text → Except Text ParsedUrl

structure ResolvedWebhookAddress where
  address : Text
  family : IpFamily
  deriving DecidableEq

/-- What a delivery asks of the network. -/
inductive NetworkCall where
  /-- `dnsLookup(hostname, { all: true, verbatim: true })`. -/
  | lookup (hostname : Text)
  /-- `postPinnedHttpsWebhook` to this address. -/
  | connect (address : ResolvedWebhookAddress)
  deriving DecidableEq

/-- A connection that failed, and whether the attempt was aborted by then. -/
structure FailedConnection where
  error : Text
  aborted : Bool

/-- An answer for each kind of call, which reads the one that is meant for it. A lookup
that takes too long is one that fails. -/
structure NetworkAnswer where
  found : Except Text (List (Text × ℕ))
  status : Except FailedConnection ℕ

/-! ## Resolution -/

section Delivery

variable [CaseMapping] [IpSyntax] [UrlPlatform]

/-- `isSafeFetchUrl`, or the reason it gives. -/
def isSafeFetchUrl (url : Text) : Except Text Unit :=
  match UrlPlatform.parse url with
  | .error _ => .error "Invalid URL"
  | .ok parsed =>
      if parsed.protocol ≠ ("http:" : Text) ∧ parsed.protocol ≠ ("https:" : Text) then
        .error (("Protocol " : Text) ++ parsed.protocol ++ " not allowed")
      else if isPrivateHost parsed.hostname then
        .error (("Host " : Text) ++ parsed.hostname ++ " is private/internal")
      else .ok ()

/-- `normalized`: the addresses of version 4 first, otherwise in the order given. -/
def normalizedAddresses (found : List (Text × ℕ)) : List ResolvedWebhookAddress :=
  (found.map fun entry => ⟨entry.1, if entry.2 = 6 then .v6 else .v4⟩).insertionSort
    fun left right => left.family.number ≤ right.family.number

/-- What a resolution makes of the addresses: an error, the reason why they are
refused, or all of them. -/
def checkedAddresses (hostname : Text) (found : List (Text × ℕ)) :
    Except Text (Except Text (List ResolvedWebhookAddress)) :=
  if found = [] then .error (("Endpoint host has no DNS addresses: " : Text) ++ hostname)
  else
    match (normalizedAddresses found).find? fun resolved => isPrivateHost resolved.address with
    | some blocked =>
        .ok (.error (("Host " : Text) ++ hostname ++ " resolves to private/internal address " ++
          blocked.address))
    | none => .ok (.ok (normalizedAddresses found))

def resolvePublicWebhookAddresses (url : Text) :
    Program NetworkCall NetworkAnswer (Except Text (Except Text (List ResolvedWebhookAddress))) :=
  match UrlPlatform.parse url with
  | .error error => pure (.error error)
  | .ok parsed =>
      match isSafeFetchUrl url with
      | .error reason => pure (.ok (.error reason))
      | .ok _ =>
          let hostname := withoutBrackets parsed.hostname
          if IpSyntax.isIP hostname = 0 then
            .call (.lookup hostname) fun answer =>
              pure (answer.found.bind (checkedAddresses hostname))
          else pure (checkedAddresses hostname [(hostname, IpSyntax.isIP hostname)])

/-! ## Connections -/

def postPinnedHttpsWebhookWithFallback (url : Text) :
    List ResolvedWebhookAddress → Program NetworkCall NetworkAnswer (Except Text ℕ)
  | [] =>
      pure ((UrlPlatform.parse url).bind fun parsed =>
        .error (("Unable to connect to any validated address for " : Text) ++ parsed.hostname))
  | address :: addresses =>
      .call (.connect address) fun answer =>
        match answer.status with
        | .ok status => pure (.ok status)
        | .error failure =>
            if failure.aborted then pure (.error failure.error)
            else postPinnedHttpsWebhookWithFallback url addresses

/-- What becomes of a request to an endpoint. -/
def reachEndpoint (url : Text) : Program NetworkCall NetworkAnswer NetworkOutcome :=
  (resolvePublicWebhookAddresses url).bind fun resolution =>
    match resolution with
    | .error error => pure (.unresolved error)
    | .ok (.error reason) => pure (.blocked reason)
    | .ok (.ok addresses) =>
        (postPinnedHttpsWebhookWithFallback url addresses).bind fun sent =>
          match sent with
          | .ok status => pure (.response (200 ≤ status && status < 300) status)
          | .error error => pure (.failed error)

def hostOf (url : Text) : Option Text :=
  (UrlPlatform.parse url).toOption.map fun parsed => withoutBrackets parsed.hostname

/-- The endpoint that is sent to: it is there, enabled, and has a secret. -/
def endpointToReach (claimed : ClaimedOutboundWebhookDelivery)
    (resolveSecret : Text → Option Text) : Option OutboundWebhookEndpoint :=
  claimed.endpoint.filter fun endpoint =>
    endpoint.enabled && !(resolveSecret endpoint.secretRef).all (·.trim = [])

/-- `deliverClaimedWebhook`, with the requests it makes. -/
def deliverOverNetwork (claimed : ClaimedOutboundWebhookDelivery)
    (resolveSecret : Text → Option Text) : Program NetworkCall NetworkAnswer Attempt :=
  match endpointToReach claimed resolveSecret with
  | none => pure (deliverClaimedWebhook claimed resolveSecret (.failed []))
  | some endpoint =>
      (reachEndpoint endpoint.url).bind fun network =>
        pure (deliverClaimedWebhook claimed resolveSecret network)

/-! ## What a delivery does -/

/-- Trying the addresses of a list: they are taken in order, what comes after an answer
has only failures before it, and a status is that of the last one. -/
structure Tried (addresses : List ResolvedWebhookAddress) (log : List (NetworkCall × NetworkAnswer))
    (sent : Except Text ℕ) : Prop where
  connects : log.map Prod.fst <+: addresses.map .connect
  fallsBack : ∀ {before call answer after}, log = before ++ (call, answer) :: after → after ≠ [] →
    ∃ error, answer.status = .error ⟨error, false⟩
  answered : ∀ status, sent = .ok status ↔
    ∃ before call answer, log = before ++ [(call, answer)] ∧ answer.status = .ok status

omit [CaseMapping] [IpSyntax] [UrlPlatform] in
theorem tried_once {address : ResolvedWebhookAddress} {addresses : List ResolvedWebhookAddress}
    {answer : NetworkAnswer} {sent : Except Text ℕ}
    (h : ∀ status, sent = .ok status ↔ answer.status = .ok status) :
    Tried (address :: addresses) [(.connect address, answer)] sent := by
  refine ⟨⟨addresses.map .connect, rfl⟩, ?_, fun status => (h status).trans ?_⟩
  · intro before call answer' after hlog hafter
    rcases before with _ | ⟨first, before⟩
    · exact absurd (List.cons.inj hlog).2.symm hafter
    · simp at hlog
  · constructor
    · exact fun hstatus => ⟨[], .connect address, answer, rfl, hstatus⟩
    · rintro ⟨before, call, answer', hlog, hstatus⟩
      rcases before with _ | ⟨first, before⟩
      · obtain ⟨-, rfl⟩ := Prod.mk.inj (List.singleton_inj.mp hlog)
        exact hstatus
      · simp at hlog

omit [CaseMapping] [IpSyntax] in
theorem tried_postPinned {url : Text} {addresses : List ResolvedWebhookAddress}
    {log : List (NetworkCall × NetworkAnswer)} {sent : Except Text ℕ}
    (h : (postPinnedHttpsWebhookWithFallback url addresses).Ran log sent) :
    Tried addresses log sent := by
  induction addresses generalizing log with
  | nil =>
      obtain ⟨rfl, rfl⟩ := Program.ran_pure.mp h
      refine ⟨List.nil_prefix, fun hlog => by simp at hlog, fun status => ?_⟩
      cases hparsed : UrlPlatform.parse url with
      | error error => simp [Except.bind]
      | ok parsed => simp [Except.bind]
  | cons address addresses ih =>
      rw [postPinnedHttpsWebhookWithFallback, Program.ran_call] at h
      obtain ⟨answer, rest, rfl, hrest⟩ := h
      cases hanswer : answer.status with
      | ok status =>
          rw [hanswer] at hrest
          obtain ⟨rfl, rfl⟩ := Program.ran_pure.mp hrest
          exact tried_once fun status' => by simp [hanswer]
      | error failure =>
          rw [hanswer] at hrest
          simp only at hrest
          split_ifs at hrest with haborted
          · obtain ⟨rfl, rfl⟩ := Program.ran_pure.mp hrest
            exact tried_once fun status' => by simp [hanswer]
          · have hfailed : answer.status = .error ⟨failure.error, false⟩ := by
              rw [hanswer, ← Bool.eq_false_of_not_eq_true haborted]
            obtain ⟨hconnects, hfallsBack, hanswered⟩ := ih hrest
            refine ⟨?_, ?_, fun status => (hanswered status).trans ?_⟩
            · obtain ⟨more, hmore⟩ := hconnects
              exact ⟨more, by simp [hmore]⟩
            · intro before call answer' after hlog hafter
              rcases before with _ | ⟨first, before⟩
              · obtain ⟨-, rfl⟩ := Prod.mk.inj (List.cons.inj hlog).1
                exact ⟨_, hfailed⟩
              · exact hfallsBack (List.cons.inj hlog).2 hafter
            · constructor
              · rintro ⟨before, call, answer', rfl, hstatus⟩
                exact ⟨(.connect address, answer) :: before, call, answer', rfl, hstatus⟩
              · rintro ⟨before, call, answer', hlog, hstatus⟩
                rcases before with _ | ⟨first, before⟩
                · obtain ⟨-, rfl⟩ := Prod.mk.inj (List.cons.inj hlog).1
                  rw [hfailed] at hstatus
                  cases hstatus
                · exact ⟨before, call, answer', (List.cons.inj hlog).2, hstatus⟩

omit [IpSyntax] [UrlPlatform] in
theorem checkedAddresses_eq_ok {hostname : Text} {found : List (Text × ℕ)}
    {addresses : List ResolvedWebhookAddress}
    (h : checkedAddresses hostname found = .ok (.ok addresses)) :
    addresses = normalizedAddresses found ∧
      ∀ resolved ∈ addresses, isPrivateHost resolved.address = false := by
  unfold checkedAddresses at h
  split_ifs at h with hempty
  split at h
  · cases h
  · rename_i hnone
    obtain rfl := Except.ok.inj (Except.ok.inj h)
    refine ⟨rfl, fun resolved hmem => ?_⟩
    have hall := List.find?_eq_none.mp hnone resolved hmem
    simpa using hall

/-- Where the addresses of an endpoint come from: a single lookup, or the host itself. -/
theorem ran_resolvePublicWebhookAddresses {url : Text} {log : List (NetworkCall × NetworkAnswer)}
    {resolution : Except Text (Except Text (List ResolvedWebhookAddress))}
    (h : (resolvePublicWebhookAddresses url).Ran log resolution) :
    (log = [] ∨ ∃ host answer, hostOf url = some host ∧ log = [(.lookup host, answer)]) ∧
      ∀ addresses, resolution = .ok (.ok addresses) →
        (∀ resolved ∈ addresses, isPrivateHost resolved.address = false) ∧
        ∃ host found, hostOf url = some host ∧ addresses = normalizedAddresses found ∧
          ((∃ answer, log = [(.lookup host, answer)] ∧ answer.found = .ok found) ∨
            log = [] ∧ found = [(host, IpSyntax.isIP host)]) := by
  unfold resolvePublicWebhookAddresses at h
  split at h
  · obtain ⟨rfl, rfl⟩ := Program.ran_pure.mp h
    exact ⟨.inl rfl, fun addresses h => by cases h⟩
  · rename_i parsed hparse
    have hhost : hostOf url = some (withoutBrackets parsed.hostname) := by
      rw [hostOf, hparse]
      rfl
    split at h
    · obtain ⟨rfl, rfl⟩ := Program.ran_pure.mp h
      exact ⟨.inl rfl, fun addresses h => by cases h⟩
    · simp only at h
      split_ifs at h with hname
      · obtain ⟨answer, rest, rfl, hrest⟩ := Program.ran_call.mp h
        obtain ⟨rfl, rfl⟩ := Program.ran_pure.mp hrest
        refine ⟨.inr ⟨_, answer, hhost, rfl⟩, fun addresses hresolved => ?_⟩
        cases hfound : answer.found with
        | error error =>
            rw [hfound] at hresolved
            cases hresolved
        | ok found =>
            rw [hfound] at hresolved
            obtain ⟨hnormalized, hpublic⟩ := checkedAddresses_eq_ok hresolved
            exact ⟨hpublic, _, found, hhost, hnormalized, .inl ⟨answer, rfl, hfound⟩⟩
      · obtain ⟨rfl, rfl⟩ := Program.ran_pure.mp h
        refine ⟨.inl rfl, fun addresses hresolved => ?_⟩
        obtain ⟨hnormalized, hpublic⟩ := checkedAddresses_eq_ok hresolved
        exact ⟨hpublic, _, _, hhost, hnormalized, .inr ⟨rfl, rfl⟩⟩

omit [CaseMapping] [IpSyntax] [UrlPlatform] in
theorem success_of_reached {claimed : ClaimedOutboundWebhookDelivery}
    {resolveSecret : Text → Option Text} {endpoint : OutboundWebhookEndpoint}
    {network : NetworkOutcome} (h : endpointToReach claimed resolveSecret = some endpoint) :
    (deliverClaimedWebhook claimed resolveSecret network).success = true ↔
      ∃ status, network = .response true status := by
  obtain ⟨hendpoint, hready⟩ := Option.filter_eq_some_iff.mp h
  rw [Bool.and_eq_true, Bool.not_eq_true'] at hready
  unfold deliverClaimedWebhook
  rw [hendpoint]
  simp only [hready.1, hready.2, Bool.not_true, Bool.false_eq_true, if_false]
  cases network with
  | response ok status => cases ok <;> simp
  | unresolved error => simp [failedAttempt]
  | blocked reason => simp [failedAttempt]
  | failed error => simp [failedAttempt]

omit [CaseMapping] [IpSyntax] [UrlPlatform] in
theorem not_success_of_unreached {claimed : ClaimedOutboundWebhookDelivery}
    {resolveSecret : Text → Option Text} {network : NetworkOutcome}
    (h : endpointToReach claimed resolveSecret = none) :
    (deliverClaimedWebhook claimed resolveSecret network).success = false := by
  unfold deliverClaimedWebhook
  cases hendpoint : claimed.endpoint with
  | none => rfl
  | some endpoint =>
      rw [endpointToReach, hendpoint, Option.filter_eq_none_iff] at h
      have hready := h endpoint rfl
      simp only
      split_ifs with hdisabled hblank
      · rfl
      · rfl
      · rw [Bool.not_eq_true, Bool.not_eq_false'] at hdisabled
        simp [hdisabled, hblank] at hready

/-- What is said of a delivery to a host by its requests: a lookup at most, and then
connections. -/
structure Pinned (host? : Option Text) (lookups connections : List (NetworkCall × NetworkAnswer))
    (addresses : List ResolvedWebhookAddress) (attempt : Attempt) : Prop where
  once : lookups = [] ∨ ∃ host answer, host? = some host ∧ lookups = [(.lookup host, answer)]
  /-- The addresses are those that the one lookup found, or the host itself. -/
  resolved : connections ≠ [] → ∃ host found, host? = some host ∧
    addresses = normalizedAddresses found ∧
    ((∃ answer, lookups = [(.lookup host, answer)] ∧ answer.found = .ok found) ∨
      lookups = [] ∧ found = [(host, IpSyntax.isIP host)])
  /-- None of them stands for an address that is not routed globally. -/
  routed : ∀ resolved ∈ addresses, ∀ address,
    Names (CaseMapping.toLowerCase (withoutBrackets resolved.address)) address → ¬IsSpecial address
  /-- Each is connected to once at most, in their order. -/
  inOrder : connections.map Prod.fst <+: addresses.map .connect
  /-- A further one is tried only after a failure that was no abort. -/
  fallsBack : ∀ before call answer after, connections = before ++ (call, answer) :: after →
    after ≠ [] → ∃ error, answer.status = .error ⟨error, false⟩
  /-- The delivery succeeded when the last connection was answered so. -/
  succeeded : attempt.success = true ↔ ∃ before call answer status,
    connections = before ++ [(call, answer)] ∧ answer.status = .ok status ∧ 200 ≤ status ∧
      status < 300

omit [UrlPlatform] in
theorem pinned_of_unconnected {host? : Option Text}
    {lookups : List (NetworkCall × NetworkAnswer)} {attempt : Attempt}
    (once : lookups = [] ∨ ∃ host answer, host? = some host ∧ lookups = [(.lookup host, answer)])
    (hfailed : attempt.success = false) : Pinned host? lookups [] [] attempt where
  once := once
  resolved h := absurd rfl h
  routed _ hmem := by cases hmem
  inOrder := List.nil_prefix
  fallsBack before call answer after h := by simp at h
  succeeded := by simp [hfailed]

/-! ## Main result -/

/-- Whatever the resolver and the hosts answer, a delivery asks for the addresses of the
host of its endpoint once, connects only to addresses of that answer, none of which
stands for an address that is not routed globally, tries them in order until one
responds, and succeeds only by a response of the last of them. It is then one of the
attempts that a dispatch reckons with. -/
theorem deliverOverNetwork_pinned [LawfulCaseMapping] (claimed : ClaimedOutboundWebhookDelivery)
    (resolveSecret : Text → Option Text) (log : List (NetworkCall × NetworkAnswer))
    (attempt : Attempt) (h : (deliverOverNetwork claimed resolveSecret).Ran log attempt) :
    (∃ lookups connections addresses, log = lookups ++ connections ∧
      Pinned (claimed.endpoint.bind fun endpoint => hostOf endpoint.url) lookups connections
        addresses attempt) ∧
    ∃ network, attempt = deliverClaimedWebhook claimed resolveSecret network := by
  unfold deliverOverNetwork at h
  cases hreach : endpointToReach claimed resolveSecret with
  | none =>
      rw [hreach] at h
      obtain ⟨rfl, rfl⟩ := Program.ran_pure.mp h
      exact ⟨⟨[], [], [], rfl, pinned_of_unconnected (.inl rfl) (not_success_of_unreached hreach)⟩,
        _, rfl⟩
  | some endpoint =>
      rw [hreach] at h
      rw [(Option.filter_eq_some_iff.mp hreach).1, Option.bind_some]
      obtain ⟨requests, network, last, rfl, hrequests, hlast⟩ := Program.ran_bind.mp h
      obtain ⟨rfl, rfl⟩ := Program.ran_pure.mp hlast
      rw [List.append_nil]
      refine ⟨?_, network, rfl⟩
      obtain ⟨lookups, resolution, connections, rfl, hlookups, hconnections⟩ :=
        Program.ran_bind.mp hrequests
      obtain ⟨honce, hresolved⟩ := ran_resolvePublicWebhookAddresses hlookups
      have hunanswered : ∀ {outcome : NetworkOutcome}, (∀ status, outcome ≠ .response true status) →
          (deliverClaimedWebhook claimed resolveSecret outcome).success = false := by
        intro outcome hno
        rw [Bool.eq_false_iff, Ne, success_of_reached hreach]
        rintro ⟨status, hstatus⟩
        exact hno status hstatus
      rcases resolution with error | reason | addresses
      · obtain ⟨rfl, rfl⟩ := Program.ran_pure.mp hconnections
        exact ⟨lookups, [], [], rfl, pinned_of_unconnected honce (hunanswered (by simp))⟩
      · obtain ⟨rfl, rfl⟩ := Program.ran_pure.mp hconnections
        exact ⟨lookups, [], [], rfl, pinned_of_unconnected honce (hunanswered (by simp))⟩
      · obtain ⟨hpublic, hfound⟩ := hresolved addresses rfl
        obtain ⟨tries, sent, rest, rfl, htries, hrest⟩ := Program.ran_bind.mp hconnections
        obtain ⟨hconnects, hfallsBack, hanswered⟩ := tried_postPinned htries
        have hend : rest = [] ∧ ∀ status, network = .response true status ↔
            sent = .ok status ∧ 200 ≤ status ∧ status < 300 := by
          cases sent with
          | ok status =>
              obtain ⟨rfl, rfl⟩ := Program.ran_pure.mp hrest
              refine ⟨rfl, fun status' => ?_⟩
              simp only [NetworkOutcome.response.injEq, Bool.and_eq_true, decide_eq_true_eq,
                Except.ok.injEq]
              constructor
              · rintro ⟨hrange, rfl⟩
                exact ⟨rfl, hrange⟩
              · rintro ⟨rfl, hrange⟩
                exact ⟨hrange, rfl⟩
          | error error =>
              obtain ⟨rfl, rfl⟩ := Program.ran_pure.mp hrest
              exact ⟨rfl, fun status' => by simp⟩
        obtain ⟨rfl, houtcome⟩ := hend
        rw [List.append_nil]
        refine ⟨lookups, tries, addresses, rfl, honce, fun _ => hfound, ?_, hconnects,
          fun before call answer after => hfallsBack, ?_⟩
        · intro resolved hmem address hnames hspecial
          have hprivate : isPrivateHost resolved.address = true :=
            isPrivateHost_eq_true.mpr (.inr ⟨address, hnames, hspecial⟩)
          rw [hpublic resolved hmem] at hprivate
          cases hprivate
        · rw [success_of_reached hreach]
          constructor
          · rintro ⟨status, hstatus⟩
            obtain ⟨hsent, hrange⟩ := (houtcome status).mp hstatus
            obtain ⟨before, call, answer, hlog, hanswer⟩ := (hanswered status).mp hsent
            exact ⟨before, call, answer, status, hlog, hanswer, hrange⟩
          · rintro ⟨before, call, answer, status, hlog, hanswer, hrange⟩
            exact ⟨status, (houtcome status).mpr
              ⟨(hanswered status).mpr ⟨before, call, answer, hlog, hanswer⟩, hrange⟩⟩

end Delivery

/-! ## A host with two addresses -/

/-- A platform that reads the URL of the sample endpoint. -/
@[reducible]
def samplePlatform : UrlPlatform := ⟨fun _ => .ok ⟨"https:", "example.com"⟩⟩

/-- The addresses of the host, in the order of the resolver. -/
def sampleAddresses : List (Text × ℕ) := [("2606:2800:21f:cb07::1", 6), ("93.184.215.14", 4)]

/-- The first connection is refused, and the second one is answered. -/
def sampleRequests : List (NetworkCall × NetworkAnswer) :=
  [(.lookup "example.com", ⟨.ok sampleAddresses, .error ⟨[], false⟩⟩),
    (.connect ⟨"93.184.215.14", .v4⟩, ⟨.error [], .error ⟨"connection refused", false⟩⟩),
    (.connect ⟨"2606:2800:21f:cb07::1", .v6⟩, ⟨.error [], .ok 204⟩)]

theorem ran_sampleRequests :
    let := asciiCaseMapping
    let := Provider.dottedIpSyntax
    let := samplePlatform
    (deliverOverNetwork ⟨sampleClaim, some sampleEndpoint⟩ fun _ => some "secret").Ran
      sampleRequests
      (deliverClaimedWebhook ⟨sampleClaim, some sampleEndpoint⟩ (fun _ => some "secret")
        (.response true 204)) := by
  intro _ _ _
  have hreach : endpointToReach ⟨sampleClaim, some sampleEndpoint⟩
      (fun _ => some ("secret" : Text)) = some sampleEndpoint := by decide +kernel
  have hparse : UrlPlatform.parse sampleEndpoint.url = .ok ⟨"https:", "example.com"⟩ := rfl
  have hhost : isPrivateHost ("example.com" : Text) = false := by decide +kernel
  have hname : IpSyntax.isIP (withoutBrackets ("example.com" : Text)) = 0 := by decide +kernel
  have hsafe : isSafeFetchUrl sampleEndpoint.url = .ok () := by
    have hscheme : ¬(("https:" : Text) ≠ ("http:" : Text) ∧
        ("https:" : Text) ≠ ("https:" : Text)) := fun h => h.2 rfl
    unfold isSafeFetchUrl
    rw [hparse]
    simp only
    rw [if_neg hscheme, if_neg (by simp [hhost])]
  have hplain : withoutBrackets ("example.com" : Text) = "example.com" := by decide +kernel
  have hsorted : normalizedAddresses sampleAddresses =
      [⟨"93.184.215.14", .v4⟩, ⟨"2606:2800:21f:cb07::1", .v6⟩] := by decide +kernel
  have hpublic : (normalizedAddresses sampleAddresses).find?
      (fun resolved => isPrivateHost resolved.address) = none := by decide +kernel
  have hchecked : checkedAddresses "example.com" sampleAddresses =
      .ok (.ok [⟨"93.184.215.14", .v4⟩, ⟨"2606:2800:21f:cb07::1", .v6⟩]) := by
    rw [checkedAddresses, if_neg (by simp [sampleAddresses]), hpublic, hsorted]
  have hlookup : (resolvePublicWebhookAddresses sampleEndpoint.url).Ran
      [(.lookup "example.com", ⟨.ok sampleAddresses, .error ⟨[], false⟩⟩)]
      (.ok (.ok [⟨"93.184.215.14", .v4⟩, ⟨"2606:2800:21f:cb07::1", .v6⟩])) := by
    unfold resolvePublicWebhookAddresses
    rw [hparse, hsafe]
    simp only
    rw [if_pos hname, hplain, ← hchecked]
    exact .call _ _ (.done _)
  have htries : (postPinnedHttpsWebhookWithFallback sampleEndpoint.url
      [⟨"93.184.215.14", .v4⟩, ⟨"2606:2800:21f:cb07::1", .v6⟩]).Ran (sampleRequests.drop 1)
      (.ok 204) :=
    .call _ _ (.call _ _ (.done _))
  rw [deliverOverNetwork, hreach]
  refine Program.ran_bind.mpr ⟨sampleRequests, .response true 204, [], (List.append_nil _).symm, ?_,
    .done _⟩
  exact Program.ran_bind.mpr ⟨_, _, sampleRequests.drop 1, rfl, hlookup,
    Program.ran_bind.mpr ⟨_, _, [], (List.append_nil _).symm, htries, .done _⟩⟩

/-- Its requests are those of a pinned delivery. -/
theorem deliverOverNetwork_pinned_secondAddress :
    let := asciiCaseMapping
    let := Provider.dottedIpSyntax
    let := samplePlatform
    ∃ lookups connections addresses, sampleRequests = lookups ++ connections ∧
      Pinned (some "example.com") lookups connections addresses
        (deliverClaimedWebhook ⟨sampleClaim, some sampleEndpoint⟩ (fun _ => some "secret")
          (.response true 204)) := by
  intro _ _ _
  have := Provider.lawful_asciiCaseMapping
  exact (deliverOverNetwork_pinned _ _ _ _ ran_sampleRequests).1

end ListmonkOps.Webhook
