/-
Digests of texts.

A hash reads a text as UTF-8, which has no code for half of a surrogate pair and
takes the replacement character for one. What is hashed is therefore the text in
which the halves have been replaced, and texts that differ in such halves only
have one digest.
-/

import ListmonkOps.Runtime.Stringify
import Mathlib.Data.List.Nodup

namespace ListmonkOps.Runtime

/-! ## Well-formed texts -/

/-- The unit that stands in the UTF-8 reading of a text for one without its other half. -/
def replaceSurrogate (unit : UInt16) : UInt16 :=
  if isLeadSurrogate unit || isTrailSurrogate unit then 0xFFFD else unit

/-- `String.prototype.toWellFormed`: what UTF-8 keeps of a text. -/
def Text.toWellFormed : Text → Text
  | [] => []
  | [unit] => [replaceSurrogate unit]
  | unit :: next :: rest =>
      if isLeadSurrogate unit && isTrailSurrogate next then unit :: next :: toWellFormed rest
      else replaceSurrogate unit :: toWellFormed (next :: rest)

/-- A unit that is no surrogate separates what is before it from what is after it. -/
theorem Text.toWellFormed_append_cons {unit : UInt16} (hlead : isLeadSurrogate unit = false)
    (htrail : isTrailSurrogate unit = false) (a b : Text) :
    Text.toWellFormed (a ++ unit :: b) = a.toWellFormed ++ unit :: b.toWellFormed := by
  have hsingle : replaceSurrogate unit = unit := by simp [replaceSurrogate, hlead, htrail]
  have hcons : Text.toWellFormed (unit :: b) = unit :: b.toWellFormed := by
    cases b with
    | nil => simp [toWellFormed, hsingle]
    | cons next rest => simp [toWellFormed, hlead, hsingle]
  induction a using Text.toWellFormed.induct with
  | case1 => simpa [toWellFormed] using hcons
  | case2 first => simp [toWellFormed, htrail, hcons]
  | case3 first next rest hpair ih =>
      simp only [List.cons_append, toWellFormed, if_pos hpair, ih]
  | case4 first next rest hpair ih =>
      rw [List.cons_append] at ih
      simp only [List.cons_append, toWellFormed, if_neg hpair, ih]

theorem Text.toWellFormed_eq_self {t : Text} (h : t.isWellFormed) : t.toWellFormed = t := by
  induction t using Text.toWellFormed.induct with
  | case1 => rfl
  | case2 unit =>
      simp only [isWellFormed, Bool.and_eq_true, Bool.not_eq_true'] at h
      simp [toWellFormed, replaceSurrogate, h.1, h.2]
  | case3 unit next rest hpair ih =>
      rw [isWellFormed, if_pos hpair] at h
      rw [toWellFormed, if_pos hpair, ih h]
  | case4 unit next rest hpair ih =>
      rw [isWellFormed, if_neg hpair] at h
      simp only [Bool.and_eq_true, Bool.not_eq_true'] at h
      rw [toWellFormed, if_neg hpair, ih h.2]
      simp [replaceSurrogate, h.1.1, h.1.2]

/-- The number of bytes of a text in UTF-8. -/
def Text.utf8Length : Text → ℕ
  | [] => 0
  | [unit] => if unit < 0x80 then 1 else if unit < 0x800 then 2 else 3
  | unit :: next :: rest =>
      if isLeadSurrogate unit && isTrailSurrogate next then 4 + utf8Length rest
      else (if unit < 0x80 then 1 else if unit < 0x800 then 2 else 3) + utf8Length (next :: rest)

/-! ## SHA-256 -/

/-- The hash of the platform, on texts that UTF-8 can write. -/
class Sha256Platform where
  /-- The bytes of `createHash("sha256").update(text, "utf8").digest()`. -/
  digest : Text → List UInt8

/-- `createHash("sha256").update(text, "utf8").digest()`. -/
def sha256 [Sha256Platform] (text : Text) : List UInt8 := Sha256Platform.digest text.toWellFormed

/-- No two texts have one digest, and a digest is not empty. -/
class CollisionFreeSha256 [Sha256Platform] : Prop where
  injective : Function.Injective Sha256Platform.digest
  ne_nil (text : Text) : Sha256Platform.digest text ≠ []

theorem sha256_injective [Sha256Platform] [CollisionFreeSha256] {a b : Text}
    (ha : a.isWellFormed) (hb : b.isWellFormed) (h : sha256 a = sha256 b) : a = b := by
  rw [sha256, sha256, Text.toWellFormed_eq_self ha, Text.toWellFormed_eq_self hb] at h
  exact CollisionFreeSha256.injective h

/-- The two hexadecimal digits of a byte. -/
def hexByte (byte : UInt8) : Text := [hexDigit (byte.toNat / 16), hexDigit (byte.toNat % 16)]

/-- `buffer.toString("hex")`. -/
def hexText (bytes : List UInt8) : Text := bytes.flatMap hexByte

theorem hexByte_injective : Function.Injective hexByte := by
  intro a b h
  have hdigit : ∀ m < 16, ∀ n < 16, hexDigit m = hexDigit n → m = n := by decide
  simp only [hexByte, List.cons.injEq, and_true] at h
  have ha := a.toNat_lt
  have hb := b.toNat_lt
  have hhigh := hdigit _ (by omega) _ (by omega) h.1
  have hlow := hdigit _ (by omega) _ (by omega) h.2
  exact UInt8.toNat_inj.mp (by omega)

theorem flatMap_injective {α β : Type*} {code : α → List β} {n : ℕ} (hpos : 0 < n)
    (hlength : ∀ a, (code a).length = n) (hcode : Function.Injective code) :
    Function.Injective (List.flatMap code) := by
  intro as bs h
  induction as generalizing bs with
  | nil =>
      cases bs with
      | nil => rfl
      | cons b bs =>
          have hlen := congrArg List.length h
          simp [hlength] at hlen
          omega
  | cons a as ih =>
      cases bs with
      | nil =>
          have hlen := congrArg List.length h
          simp [hlength] at hlen
          omega
      | cons b bs =>
          rw [List.flatMap_cons, List.flatMap_cons] at h
          obtain ⟨hletter, hrest⟩ := List.append_inj h (by rw [hlength, hlength])
          rw [hcode hletter, ih hrest]

theorem hexText_injective : Function.Injective hexText :=
  flatMap_injective two_pos (fun _ => rfl) hexByte_injective

/-! ## A platform that knows some digests -/

/-- The bytes of a number, the highest first. -/
def bigEndian (width n : ℕ) : List UInt8 :=
  (List.range width).map fun i => UInt8.ofNat (n / 256 ^ (width - 1 - i))

def unitBytes (unit : UInt16) : List UInt8 :=
  [UInt8.ofNat (unit.toNat / 256), UInt8.ofNat (unit.toNat % 256)]

/-- A platform that knows the digests of some texts; what stands in for the others is longer
than a digest. -/
@[reducible]
def knownDigests (known : List (Text × ℕ)) : Sha256Platform :=
  ⟨fun text => ((known.lookup text).map (bigEndian 32)).getD
    (List.replicate 33 0 ++ text.flatMap unitBytes)⟩

theorem unitBytes_injective : Function.Injective unitBytes := by
  intro a b h
  simp only [unitBytes, List.cons.injEq, and_true] at h
  have ha := a.toNat_lt
  have hb := b.toNat_lt
  have hhigh := congrArg UInt8.toNat h.1
  have hlow := congrArg UInt8.toNat h.2
  simp only [UInt8.toNat_ofNat'] at hhigh hlow
  exact UInt16.toNat_inj.mp (by omega)

theorem knownDigests_collisionFree {known : List (Text × ℕ)}
    (hdistinct : (known.map fun entry => bigEndian 32 entry.2).Nodup) :
    @CollisionFreeSha256 (knownDigests known) := by
  have hmem : ∀ {t n}, known.lookup t = some n → (t, n) ∈ known := by
    intro t n h
    obtain ⟨before, after, rfl, -⟩ := List.lookup_eq_some_iff.mp h
    simp
  have hapart : ∀ {n : ℕ} {t : Text},
      bigEndian 32 n ≠ List.replicate 33 0 ++ t.flatMap unitBytes := by
    intro n t h
    have hlength := congrArg List.length h
    simp only [bigEndian, List.length_map, List.length_range, List.length_append,
      List.length_replicate] at hlength
    omega
  refine @CollisionFreeSha256.mk (knownDigests known) ?_ ?_
  · intro a b h
    change ((known.lookup a).map (bigEndian 32)).getD _ =
      ((known.lookup b).map (bigEndian 32)).getD _ at h
    cases ha : known.lookup a with
    | some m =>
        cases hb : known.lookup b with
        | some n =>
            rw [ha, hb] at h
            exact congrArg Prod.fst
              (List.inj_on_of_nodup_map hdistinct (hmem ha) (hmem hb) (by simpa using h))
        | none =>
            rw [ha, hb] at h
            exact absurd (by simpa using h) hapart
    | none =>
        cases hb : known.lookup b with
        | some n =>
            rw [ha, hb] at h
            exact absurd (by simpa using h.symm) hapart
        | none =>
            rw [ha, hb] at h
            have hbytes : a.flatMap unitBytes = b.flatMap unitBytes := by simpa using h
            exact flatMap_injective two_pos (fun _ => rfl) unitBytes_injective hbytes
  · intro t h
    change ((known.lookup t).map (bigEndian 32)).getD _ = [] at h
    have hlength := congrArg List.length h
    cases ht : known.lookup t with
    | some n =>
        rw [ht] at hlength
        simp [bigEndian] at hlength
    | none =>
        rw [ht] at hlength
        simp at hlength

end ListmonkOps.Runtime
