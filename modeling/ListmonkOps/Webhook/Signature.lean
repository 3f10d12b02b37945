/-
Signed webhook payloads.

The signed text is a timestamp, a full stop and the body. A timestamp of
`toISOString` contains a full stop itself, before its milliseconds, so the same
text is also that of the timestamp cut off there with a longer body; and what is
left of the timestamp is still a date-time.
-/

import ListmonkOps.Webhook.Event

namespace ListmonkOps.Webhook

open ListmonkOps.Runtime

/-- The platform that signs and reads timestamps. -/
class SigningPlatform where
  /-- `Date.parse`, nothing for `NaN`. -/
  dateParse : Text → Option ℤ
  /-- `createHmac("sha256", secret).update(text, "utf8").digest("hex")`. -/
  hmacSha256 : Text → Text → Text

/-! ## Timestamps -/

/-- The days from the epoch to a date of the Gregorian calendar, years counted from
March on. -/
def daysFromCivil (year : ℤ) (month day : ℕ) : ℤ :=
  let shifted := if month ≤ 2 then year - 1 else year
  let dayOfYear : ℤ := (153 * ((month + 9) % 12) + 2) / 5 + day - 1
  365 * shifted + shifted / 4 - shifted / 100 + shifted / 400 + dayOfYear - 719468

def daysInMonth (year : ℤ) (month : ℕ) : ℤ :=
  if month = 12 then 31 else daysFromCivil year (month + 1) 1 - daysFromCivil year month 1

structure CalendarTime where
  year : ℤ
  month : ℕ
  day : ℕ
  hour : ℕ
  minute : ℕ
  second : ℕ
  millisecond : ℕ

/-- The time value of a date and time in UTC. -/
def CalendarTime.time (at_ : CalendarTime) : ℤ :=
  daysFromCivil at_.year at_.month at_.day * 86400000 + at_.hour * 3600000 + at_.minute * 60000 +
    at_.second * 1000 + at_.millisecond

/-- A date and time of day that exists, within the range of time values. -/
def CalendarTime.Valid (at_ : CalendarTime) : Prop :=
  (1 ≤ at_.month ∧ at_.month ≤ 12) ∧ (1 ≤ at_.day ∧ at_.day ≤ daysInMonth at_.year at_.month) ∧
    at_.hour < 24 ∧ at_.minute < 60 ∧ at_.second < 60 ∧ at_.millisecond < 1000 ∧
    at_.time.natAbs ≤ 8640000000000000

instance (at_ : CalendarTime) : Decidable at_.Valid :=
  inferInstanceAs (Decidable (_ ∧ _))

/-- The last `width` decimal digits of a number. -/
def digits (width n : ℕ) : Text :=
  (List.range width).reverse.map fun i => UInt16.ofNat (48 + n / 10 ^ i % 10)

/-- The year of a timestamp: four digits, or a sign and six. -/
def yearText (year : ℤ) : Text :=
  if 0 ≤ year ∧ year ≤ 9999 then digits 4 year.natAbs
  else (if year < 0 then 45 else 43) :: digits 6 year.natAbs

/-- A timestamp up to its seconds, without an offset. -/
def CalendarTime.secondsText (at_ : CalendarTime) : Text :=
  yearText at_.year ++ ("-" : Text) ++ digits 2 at_.month ++ ("-" : Text) ++ digits 2 at_.day ++
    ("T" : Text) ++ digits 2 at_.hour ++ (":" : Text) ++ digits 2 at_.minute ++ (":" : Text) ++
    digits 2 at_.second

/-- The rest of a timestamp: its milliseconds and the offset of UTC. -/
def CalendarTime.millisecondsText (at_ : CalendarTime) : Text :=
  digits 3 at_.millisecond ++ ("Z" : Text)

def CalendarTime.toISOString (at_ : CalendarTime) : Text :=
  at_.secondsText ++ 46 :: at_.millisecondsText

def sampleTime : CalendarTime where
  year := 2026
  month := 2
  day := 28
  hour := 23
  minute := 5
  second := 9
  millisecond := 70

example : sampleTime.toISOString = ("2026-02-28T23:05:09.070Z" : Text) ∧
    sampleTime.time = 1772319909070 := by decide

@[simp]
theorem length_digits (width n : ℕ) : (digits width n).length = width := by
  simp [digits]

theorem length_toISOString (at_ : CalendarTime) :
    at_.toISOString.length = (yearText at_.year).length + 20 := by
  have hdash : (("-" : Text)).length = 1 := by decide
  have hcolon : ((":" : Text)).length = 1 := by decide
  have htime : (("T" : Text)).length = 1 := by decide
  have hzone : (("Z" : Text)).length = 1 := by decide
  simp only [CalendarTime.toISOString, CalendarTime.secondsText, CalendarTime.millisecondsText,
    List.length_append, List.length_cons, length_digits, hdash, hcolon, htime, hzone]

/-- A year of four digits begins with a digit, a longer one with its sign. -/
theorem yearText_cases (year : ℤ) :
    (∃ unit rest, yearText year = unit :: rest ∧ 48 ≤ unit ∧ rest.length = 3) ∨
      ∃ unit rest, yearText year = unit :: rest ∧ unit < 48 ∧ rest.length = 6 := by
  unfold yearText
  split
  · refine .inl ⟨_, _, rfl, ?_, by simp⟩
    have hdigit : year.natAbs / 10 ^ 3 % 10 < 10 := Nat.mod_lt _ (by decide)
    rw [UInt16.le_iff_toNat_le, UInt16.toNat_ofNat']
    change 48 ≤ (48 + year.natAbs / 10 ^ 3 % 10) % 2 ^ 16
    omega
  · refine .inr ⟨_, _, rfl, ?_, by simp⟩
    split <;> decide

/-- A timestamp that another text begins with is found again: its first character says
how long it is. -/
theorem toISOString_append_inj {first second : CalendarTime} {rest rest' : Text}
    (h : first.toISOString ++ rest = second.toISOString ++ rest') :
    first.toISOString = second.toISOString ∧ rest = rest' := by
  have hyear : (yearText first.year).length = (yearText second.year).length := by
    simp only [CalendarTime.toISOString, CalendarTime.secondsText, List.append_assoc] at h
    rcases yearText_cases first.year with hfirst | hfirst <;>
      rcases yearText_cases second.year with hsecond | hsecond <;>
      obtain ⟨unit, tail, hfirst, hunit, hlength⟩ := hfirst <;>
      obtain ⟨unit', tail', hsecond, hunit', hlength'⟩ := hsecond <;>
      rw [hfirst, hsecond] at h ⊢
    · simp [hlength, hlength']
    · obtain rfl := (List.cons.inj h).1
      exact absurd hunit (by simpa using hunit')
    · obtain rfl := (List.cons.inj h).1
      exact absurd hunit' (by simpa using hunit)
    · simp [hlength, hlength']
  exact List.append_inj h (by rw [length_toISOString, length_toISOString, hyear])

/-! ## Signatures -/

def signedText (timestamp body : Text) : Text := timestamp ++ 46 :: body

theorem signedText_toISOString (at_ : CalendarTime) (body : Text) :
    signedText at_.toISOString body =
      signedText at_.secondsText (at_.millisecondsText ++ 46 :: body) := by
  simp [signedText, CalendarTime.toISOString]

theorem secondsText_ne_toISOString (at_ : CalendarTime) : at_.secondsText ≠ at_.toISOString := by
  intro h
  have hlength := congrArg List.length h
  simp [CalendarTime.toISOString] at hlength

section Signatures

variable [SigningPlatform]

/-- `signOutboundWebhookPayload`; a blank secret is an error. -/
def signOutboundWebhookPayload (secret timestamp body : Text) : Option Text :=
  if secret.length = 0 then none
  else some (("v1=" : Text) ++ SigningPlatform.hmacSha256 secret (signedText timestamp body))

/-- The input of `verifyOutboundWebhookSignature`. -/
structure VerifyInput where
  secret : Text
  timestamp : Text
  body : Text
  signature : Text
  now : ℤ
  toleranceMs : ℚ := 300000

/-- `verifyOutboundWebhookSignature`. The expected signature is ASCII, so its bytes are
those of no other text. -/
def verifyOutboundWebhookSignature (input : VerifyInput) : Option Bool :=
  match SigningPlatform.dateParse input.timestamp with
  | none => some false
  | some timestampMs =>
      if input.toleranceMs < |input.now - timestampMs| then some false
      else (signOutboundWebhookPayload input.secret input.timestamp input.body).map
        fun expected => input.signature = expected

/-- A signature of a timestamp and a body is accepted for no other pair. -/
def SignatureBinds (secret timestamp body : Text) : Prop :=
  ∀ signature, signOutboundWebhookPayload secret timestamp body = some signature →
    ∀ timestamp' body' now toleranceMs,
      verifyOutboundWebhookSignature
        { secret, timestamp := timestamp', body := body', signature, now, toleranceMs } = some true →
      timestamp' = timestamp ∧ body' = body

/-- What is accepted, at some time and with some tolerance: the timestamp is a date-time and
the signature that of the pair. -/
theorem verify_iff {secret timestamp body signature : Text} :
    (∃ now toleranceMs, verifyOutboundWebhookSignature
        { secret, timestamp, body, signature, now, toleranceMs } = some true) ↔
      (SigningPlatform.dateParse timestamp).isSome ∧
        signOutboundWebhookPayload secret timestamp body = some signature := by
  cases hparse : SigningPlatform.dateParse timestamp with
  | none => simp [verifyOutboundWebhookSignature, hparse]
  | some timestampMs =>
      constructor
      · rintro ⟨now, toleranceMs, h⟩
        simp only [verifyOutboundWebhookSignature, hparse] at h
        split at h
        · simp at h
        · cases hsign : signOutboundWebhookPayload secret timestamp body with
          | none => simp [hsign] at h
          | some expected =>
              rw [hsign] at h
              simp only [Option.map_some, Option.some.injEq, decide_eq_true_eq] at h
              exact ⟨rfl, by rw [h]⟩
      · rintro ⟨-, hsign⟩
        refine ⟨timestampMs, 0, ?_⟩
        simp [verifyOutboundWebhookSignature, hparse, hsign]

/-- A signature binds its timestamp and its body only where there is none: a platform
that reads date-times without milliseconds and offset accepts every signature for a
second pair. -/
theorem signatureBinds_iff
    (hparse : ∀ at_ : CalendarTime, at_.Valid → (SigningPlatform.dateParse at_.secondsText).isSome)
    (secret body : Text) {at_ : CalendarTime} (hvalid : at_.Valid) :
    SignatureBinds secret at_.toISOString body ↔ secret = [] := by
  constructor
  · intro hbinds
    by_contra hsecret
    have hlength : secret.length ≠ 0 := fun h => hsecret (List.length_eq_zero_iff.mp h)
    have hsigned := @verify_iff _ secret
    obtain ⟨now, toleranceMs, haccepted⟩ := hsigned.mpr ⟨hparse at_ hvalid, if_neg hlength⟩
    refine secondsText_ne_toISOString at_ (hbinds _ ?_ _ _ now toleranceMs haccepted).1
    rw [signOutboundWebhookPayload, if_neg hlength, signedText_toISOString]
  · rintro rfl signature hsign
    simp [signOutboundWebhookPayload] at hsign

/-- Among timestamps of `toISOString`, a platform without collisions binds the pair. -/
theorem toISOString_body_of_verify
    (hcollisions : ∀ secret, Function.Injective (SigningPlatform.hmacSha256 secret))
    {secret body body' signature : Text} {at_ at' : CalendarTime} {now : ℤ} {toleranceMs : ℚ}
    (hsign : signOutboundWebhookPayload secret at_.toISOString body = some signature)
    (h : verifyOutboundWebhookSignature
      { secret, timestamp := at'.toISOString, body := body', signature, now, toleranceMs } =
        some true) :
    at'.toISOString = at_.toISOString ∧ body' = body := by
  obtain ⟨-, hsame⟩ := verify_iff.mp ⟨now, toleranceMs, h⟩
  unfold signOutboundWebhookPayload at hsign hsame
  split at hsign
  · simp at hsign
  · next hsecret =>
      rw [if_neg hsecret, ← hsign, Option.some.injEq] at hsame
      have hsigned := hcollisions secret (List.append_cancel_left hsame)
      obtain ⟨htime, hbody⟩ := toISOString_append_inj hsigned
      exact ⟨htime, (List.cons.inj hbody).2⟩

end Signatures

/-! ## A second pair for one signature -/

/-- The number that some digits of a text are. -/
def readDigits (text : Text) (start width : ℕ) : ℤ :=
  ((text.drop start).take width).foldl (fun n unit => 10 * n + (unit.toNat - 48)) 0

/-- A platform in UTC that reads the fields of a date-time at their places, and signs with
the text itself. -/
@[reducible]
def plainSigningPlatform : SigningPlatform where
  dateParse text := some (CalendarTime.time
    { year := readDigits text 0 4
      month := (readDigits text 5 2).toNat
      day := (readDigits text 8 2).toNat
      hour := (readDigits text 11 2).toNat
      minute := (readDigits text 14 2).toNat
      second := (readDigits text 17 2).toNat
      millisecond := (readDigits text 20 3).toNat })
  hmacSha256 _ text := text

theorem signatureBinds_iff_sample :
    letI := plainSigningPlatform
    sampleTime.Valid ∧ (SignatureBinds "secret" sampleTime.toISOString "{}" ↔ ("secret" : Text) = []) :=
  letI := plainSigningPlatform
  ⟨by decide, signatureBinds_iff (fun _ _ => rfl) "secret" "{}" (by decide)⟩

/-- The milliseconds of a timestamp can be moved into the body. -/
theorem signature_notBinding :
    letI := plainSigningPlatform
    (∀ secret, Function.Injective (SigningPlatform.hmacSha256 secret)) ∧
      (∀ text, (SigningPlatform.dateParse text).isSome) ∧
      ∃ signature,
        signOutboundWebhookPayload "secret" "2026-02-28T23:05:09.070Z" "{}" = some signature ∧
        verifyOutboundWebhookSignature
          { secret := "secret", timestamp := "2026-02-28T23:05:09", body := "070Z.{}", signature
            now := 1772319909070 } = some true :=
  ⟨fun _ _ _ h => h, fun _ => rfl, _, rfl, by decide +kernel⟩

end ListmonkOps.Webhook
