import Hysteria.App.ShareUri
import Hysteria.Lib.Bytes
import Hysteria.Lib.Exec

/-! The pin of the server certificate. `config.rs` and the mobile client read it in the same way,
with other messages. -/
namespace Hysteria.App
open Lib

def hexNibble (badDigit : String) (value : UInt8) : Except String UInt8 :=
  if 48 ≤ value ∧ value ≤ 57 then .ok (value - 48)
  else if 97 ≤ value ∧ value ≤ 102 then .ok (value - 97 + 10)
  else if 65 ≤ value ∧ value ≤ 70 then .ok (value - 65 + 10)
  else .error badDigit

/-- The loop over `chunks_exact(2)`. -/
def hexPairs (badDigit : String) : List UInt8 → Except String (List UInt8)
  | high :: low :: rest => do
    let high ← hexNibble badDigit high
    let low ← hexNibble badDigit low
    let output ← hexPairs badDigit rest
    return (high <<< 4 ||| low) :: output
  | _ => .ok []

def parsePinnedSha256 (badLength badDigit : String) (input : Text) : Except String (Option (List UInt8)) :=
  let normalized := utf8 (normalizeCertHash input)
  if normalized = [] then .ok none
  else if normalized.length ≠ 64 then .error badLength
  else (hexPairs badDigit normalized).map some

def parseOptionalPinnedSha256 (input : Text) : Except String (Option (List UInt8)) :=
  parsePinnedSha256 "pinned SHA-256 hash must be exactly 64 hex characters" "invalid hex digit in pinned SHA-256 hash"
    input

end Hysteria.App

namespace Hysteria.Mobile
open Lib

def parseOptionalPinnedSha256 (input : Text) : Except String (Option (List UInt8)) :=
  App.parsePinnedSha256 "pinSHA256 must be exactly 64 hex characters" "invalid hex digit" input

end Hysteria.Mobile

namespace Hysteria.App
open Lib

def byteDigit (value : UInt8) : Option Nat := toDigit 16 (Char.ofNat value.toNat)

def nibbles (value : UInt8) : List Nat := [value.toNat / 16, value.toNat % 16]

theorem byteDigit_eq (value : UInt8) : byteDigit value =
    if 48 ≤ value ∧ value ≤ 57 then some (value - 48).toNat
    else if 97 ≤ value ∧ value ≤ 102 then some (value - 97 + 10).toNat
    else if 65 ≤ value ∧ value ≤ 70 then some (value - 65 + 10).toNat
    else none :=
  @forall_byte (fun value => byteDigit value =
    if 48 ≤ value ∧ value ≤ 57 then some (value - 48).toNat
    else if 97 ≤ value ∧ value ≤ 102 then some (value - 97 + 10).toNat
    else if 65 ≤ value ∧ value ≤ 70 then some (value - 65 + 10).toNat
    else none) (by decide +kernel) value

theorem byteDigit_lt {value : UInt8} {d : Nat} (h : byteDigit value = some d) : d < 16 := by
  have hall := @forall_byte (fun value => ∀ d ∈ byteDigit value, d < 16) (by decide +kernel) value
  exact hall d h

theorem byteDigit_of_ge {value : UInt8} (h : 128 ≤ value.toNat) : byteDigit value = none :=
  @forall_byte (fun value => 128 ≤ value.toNat → byteDigit value = none) (by decide +kernel) value h

theorem hexNibble_eq_ok_iff {badDigit : String} {value nibble : UInt8} :
    hexNibble badDigit value = .ok nibble ↔ byteDigit value = some nibble.toNat := by
  rw [byteDigit_eq, hexNibble]
  split_ifs
  · rw [Except.ok.injEq, Option.some.injEq, UInt8.toNat_inj]
  · rw [Except.ok.injEq, Option.some.injEq, UInt8.toNat_inj]
  · rw [Except.ok.injEq, Option.some.injEq, UInt8.toNat_inj]
  · simp

theorem nibbles_or {high low : UInt8} (hhigh : high.toNat < 16) (hlow : low.toNat < 16) :
    nibbles (high <<< 4 ||| low) = [high.toNat, low.toNat] := by
  have hshift : (high <<< 4).toNat = high.toNat <<< 4 := by
    rw [UInt8.toNat_shiftLeft, Nat.mod_eq_of_lt]
    · rfl
    · change high.toNat <<< 4 < 2 ^ 8
      rw [Nat.shiftLeft_eq]
      omega
  have hsum : (high <<< 4 ||| low).toNat = high.toNat * 16 + low.toNat := by
    rw [UInt8.toNat_or, hshift, ← Nat.shiftLeft_add_eq_or_of_lt (show low.toNat < 2 ^ 4 from hlow), Nat.shiftLeft_eq]
  rw [nibbles, hsum]
  congr 1
  · omega
  · congr 1
    omega

theorem nibbles_injective {value value' : UInt8} (h : nibbles value = nibbles value') : value = value' := by
  simp only [nibbles, List.cons.injEq, and_true] at h
  exact UInt8.toNat_inj.mp (by omega)

theorem exists_nibbles (value : UInt8) :
    ∃ high low : UInt8, nibbles value = [high.toNat, low.toNat] ∧ high <<< 4 ||| low = value := by
  have hbyte : value.toNat < 256 := value.toNat_lt
  have hdiv : (UInt8.ofNat (value.toNat / 16)).toNat = value.toNat / 16 := by
    rw [UInt8.toNat_ofNat']
    omega
  have hmod : (UInt8.ofNat (value.toNat % 16)).toNat = value.toNat % 16 := by
    rw [UInt8.toNat_ofNat']
    omega
  have hdigits : nibbles value = [(UInt8.ofNat (value.toNat / 16)).toNat, (UInt8.ofNat (value.toNat % 16)).toNat] := by
    rw [hdiv, hmod, nibbles]
  refine ⟨.ofNat (value.toNat / 16), .ofNat (value.toNat % 16), hdigits, nibbles_injective ?_⟩
  rw [hdigits]
  exact nibbles_or (by omega) (by omega)

theorem hexPairs_eq_ok_iff (badDigit : String) (bytes output : List UInt8) (heven : bytes.length % 2 = 0) :
    hexPairs badDigit bytes = .ok output ↔ bytes.map byteDigit = (output.flatMap nibbles).map some := by
  induction bytes using hexPairs.induct generalizing output with
  | case1 high low rest ih =>
    have ih := fun output => ih output (by rw [List.length_cons, List.length_cons] at heven; omega)
    unfold hexPairs
    simp only [bind_eq_ok, hexNibble_eq_ok_iff, ih, pure, Except.pure, Except.ok.injEq]
    constructor
    · rintro ⟨highNibble, hhigh, lowNibble, hlow, more, hmore, rfl⟩
      simp [nibbles_or (byteDigit_lt hhigh) (byteDigit_lt hlow), hhigh, hlow, hmore]
    · intro h
      cases output with
      | nil => cases h
      | cons value more =>
        obtain ⟨highNibble, lowNibble, hdigits, hvalue⟩ := exists_nibbles value
        simp only [List.map_cons, List.flatMap_cons, hdigits, List.cons_append, List.nil_append, List.cons.injEq] at h
        obtain ⟨hhigh, hlow, hmore⟩ := h
        exact ⟨highNibble, hhigh, lowNibble, hlow, more, hmore, by rw [hvalue]⟩
  | case2 bytes hshort =>
    match bytes, heven with
    | [], _ =>
      cases output with
      | nil => simp [hexPairs]
      | cons value more => simp [hexPairs, nibbles]
    | high :: low :: rest, _ => exact absurd rfl (hshort high low rest)

theorem digits_not_ascii {c : Char} (hc : ¬ c.toNat < 128) :
    toDigit 16 c = none ∧ ∃ value more, String.utf8EncodeChar c = value :: more ∧ byteDigit value = none := by
  constructor
  · by_contra h
    have hrange := toDigit_range (Option.isSome_iff_ne_none.mpr h)
    omega
  · have hne : utf8 [c] ≠ [] := utf8_ne_nil (by simp)
    cases hbytes : String.utf8EncodeChar c with
    | nil => simp [utf8, hbytes] at hne
    | cons value more =>
      refine ⟨value, more, rfl, byteDigit_of_ge ?_⟩
      by_contra hlow
      have hsame := toNat_of_mem_utf8EncodeChar (show value ∈ String.utf8EncodeChar c by simp [hbytes]) (by omega)
      omega

theorem map_byteDigit_utf8 (text : Text) (digits : List Nat) :
    (utf8 text).map byteDigit = digits.map some ↔ text.map (toDigit 16) = digits.map some := by
  induction text generalizing digits with
  | nil => rfl
  | cons c text ih =>
    have hutf8 : utf8 (c :: text) = String.utf8EncodeChar c ++ utf8 text := rfl
    by_cases hc : c.toNat < 128
    · have hdigit : byteDigit (UInt8.ofNat c.toNat) = toDigit 16 c := by
        rw [byteDigit, ofNat_toNat_ofNat_toNat hc]
      rw [hutf8, utf8EncodeChar_of_lt hc]
      cases digits with
      | nil => simp
      | cons d digits => simp [hdigit, ih]
    · obtain ⟨hnone, value, more, hbytes, hvalue⟩ := digits_not_ascii hc
      rw [hutf8, hbytes]
      cases digits with
      | nil => simp
      | cons d digits => simp [hvalue, hnone]

inductive PinText : Text → List Nat → Prop
  | nil : PinText [] []
  | separator {c : Char} {text : Text} {digits : List Nat} :
    c = ':' ∨ c = '-' → PinText text digits → PinText (c :: text) digits
  | digit {c : Char} {d : Nat} {text : Text} {digits : List Nat} :
    toDigit 16 c = some d → PinText text digits → PinText (c :: text) (d :: digits)

def IsPin (hash : List UInt8) (text : Text) : Prop := hash.length = 32 ∧ PinText text (hash.flatMap nibbles)

def isSeparator (c : Char) : Bool := c = ':' || c = '-'

theorem pinText_iff {text : Text} {digits : List Nat} :
    PinText text digits ↔ (text.filter (!isSeparator ·)).map (toDigit 16) = digits.map some := by
  constructor
  · intro h
    induction h with
    | nil => rfl
    | @separator c text digits hc _ ih =>
      have hdropped : isSeparator c = true := by simpa [isSeparator] using hc
      rw [List.filter_cons_of_neg (by simp [hdropped])]
      exact ih
    | @digit c d text digits hc _ ih =>
      have hkept : isSeparator c = false := by
        have hcolon : toDigit 16 ':' = none := by decide
        have hdash : toDigit 16 '-' = none := by decide
        simp only [isSeparator, Bool.or_eq_false_iff, decide_eq_false_iff_not]
        constructor
        · rintro rfl
          rw [hcolon] at hc
          cases hc
        · rintro rfl
          rw [hdash] at hc
          cases hc
      rw [List.filter_cons_of_pos (by simp [hkept])]
      simp [hc, ih]
  · intro h
    induction text generalizing digits with
    | nil =>
      rw [List.map_eq_nil_iff.mp h.symm]
      exact .nil
    | cons c text ih =>
      by_cases hc : isSeparator c
      · rw [List.filter_cons_of_neg (by simp [hc])] at h
        exact .separator (by simpa [isSeparator] using hc) (ih h)
      · rw [List.filter_cons_of_pos (by simp [hc]), List.map_cons] at h
        cases digits with
        | nil => cases h
        | cons d digits =>
          obtain ⟨hd, hrest⟩ := List.cons.inj h
          exact .digit hd (ih hrest)

theorem toDigit_toLower (c : Char) : toDigit 16 c.toLower = toDigit 16 c := by
  rcases toLower_cases c with hsame | ⟨hupper, hlower⟩
  · rw [hsame]
  · unfold toDigit
    dsimp only
    rw [hlower, if_neg (by omega : ¬ (48 ≤ c.toNat + 32 ∧ c.toNat + 32 ≤ 57)),
      if_pos (by omega : 97 ≤ c.toNat + 32 ∧ c.toNat + 32 ≤ 122), if_neg (by omega : ¬ (48 ≤ c.toNat ∧ c.toNat ≤ 57)),
      if_neg (by omega : ¬ (97 ≤ c.toNat ∧ c.toNat ≤ 122)), if_pos hupper,
      show c.toNat + 32 - 97 = c.toNat - 65 by omega]

theorem isSeparator_iff {c : Char} : isSeparator c ↔ c.toNat = 58 ∨ c.toNat = 45 := by
  simp only [isSeparator, Bool.or_eq_true, decide_eq_true_eq, ← Char.toNat_inj]
  rfl

theorem isSeparator_toLower (c : Char) : isSeparator c.toLower = isSeparator c := by
  rcases toLower_cases c with hsame | ⟨hupper, hlower⟩
  · rw [hsame]
  · rw [Bool.eq_iff_iff, isSeparator_iff, isSeparator_iff]
    omega

theorem normalizeCertHash_eq (input : Text) :
    normalizeCertHash input = ((trim input).filter (!isSeparator ·)).map Char.toLower := by
  unfold normalizeCertHash toAsciiLowercase
  rw [List.filter_map]
  congr 1
  apply List.filter_congr
  intro c _
  have hkeeps (d : Char) : decide (d ≠ ':' ∧ d ≠ '-') = !isSeparator d := by
    simp [isSeparator]
  rw [Function.comp_apply, hkeeps, isSeparator_toLower]

theorem length_flatMap_nibbles (hash : List UInt8) : (hash.flatMap nibbles).length = 2 * hash.length := by
  induction hash with
  | nil => rfl
  | cons value hash ih =>
    rw [List.flatMap_cons, List.length_append, ih, List.length_cons]
    simp only [nibbles, List.length_cons, List.length_nil]
    omega

section
variable (badLength badDigit : String) (input : Text)

theorem normalized_eq_nil_iff : utf8 (normalizeCertHash input) = [] ↔ ∀ c ∈ trim input, isSeparator c := by
  have hutf8 : utf8 (normalizeCertHash input) = [] ↔ normalizeCertHash input = [] := by
    constructor
    · intro h
      by_contra hne
      exact utf8_ne_nil hne h
    · intro h
      rw [h]
      rfl
  rw [hutf8, normalizeCertHash_eq, List.map_eq_nil_iff, List.filter_eq_nil_iff]
  simp

theorem parsePinnedSha256_none_iff :
    parsePinnedSha256 badLength badDigit input = .ok none ↔ ∀ c ∈ trim input, isSeparator c := by
  rw [← normalized_eq_nil_iff]
  unfold parsePinnedSha256
  dsimp only
  split_ifs with hnil hlength
  · exact iff_of_true rfl hnil
  · refine iff_of_false ?_ hnil
    rintro ⟨⟩
  · refine iff_of_false ?_ hnil
    cases hexPairs badDigit (utf8 (normalizeCertHash input)) with
    | error _ => rintro ⟨⟩
    | ok hash => rintro ⟨⟩

theorem map_byteDigit_normalized {digits : List Nat} :
    (utf8 (normalizeCertHash input)).map byteDigit = digits.map some ↔ PinText (trim input) digits := by
  have hlower : toDigit 16 ∘ Char.toLower = toDigit 16 := funext toDigit_toLower
  rw [map_byteDigit_utf8, normalizeCertHash_eq, List.map_map, hlower, pinText_iff]

theorem parsePinnedSha256_of_length (h : (utf8 (normalizeCertHash input)).length = 64) :
    parsePinnedSha256 badLength badDigit input = (hexPairs badDigit (utf8 (normalizeCertHash input))).map some := by
  have hne : utf8 (normalizeCertHash input) ≠ [] := by
    rw [← List.length_pos_iff, h]
    decide
  unfold parsePinnedSha256
  rw [if_neg hne, if_neg (not_not.mpr h)]

theorem length_of_parsePinnedSha256 {hash : List UInt8}
    (h : parsePinnedSha256 badLength badDigit input = .ok (some hash)) : (utf8 (normalizeCertHash input)).length = 64 := by
  by_contra hbad
  unfold parsePinnedSha256 at h
  dsimp only at h
  rw [if_pos hbad] at h
  split at h <;> cases h

theorem parsePinnedSha256_some_iff (hash : List UInt8) :
    parsePinnedSha256 badLength badDigit input = .ok (some hash) ↔ IsPin hash (trim input) := by
  have hlength {hash : List UInt8} (h : (utf8 (normalizeCertHash input)).map byteDigit = (hash.flatMap nibbles).map some) :
      (utf8 (normalizeCertHash input)).length = 2 * hash.length := by
    have hsame := congrArg List.length h
    rwa [List.length_map, List.length_map, length_flatMap_nibbles] at hsame
  rw [IsPin, ← map_byteDigit_normalized]
  constructor
  · intro h
    have hbytes := length_of_parsePinnedSha256 _ _ _ h
    rw [parsePinnedSha256_of_length _ _ _ hbytes] at h
    cases hresult : hexPairs badDigit (utf8 (normalizeCertHash input)) with
    | error _ =>
      rw [hresult] at h
      cases h
    | ok output =>
      rw [hresult] at h
      cases h
      have hdigits := (hexPairs_eq_ok_iff _ _ _ (by rw [hbytes])).mp hresult
      have htwice := hlength hdigits
      exact ⟨by omega, hdigits⟩
  · rintro ⟨h32, hdigits⟩
    have hbytes : (utf8 (normalizeCertHash input)).length = 64 := by rw [hlength hdigits, h32]
    rw [parsePinnedSha256_of_length _ _ _ hbytes, (hexPairs_eq_ok_iff _ _ _ (by rw [hbytes])).mpr hdigits]
    rfl

/-- Nothing is pinned exactly for a blank setting, and a hash exactly where the setting spells it; everything
else is then an error. -/
def PinRead (input : Text) (result : Except String (Option (List UInt8))) : Prop :=
  (result = .ok none ↔ trim input = []) ∧ ∀ hash, result = .ok (some hash) ↔ IsPin hash (trim input)

theorem pinRead_iff : PinRead input (parsePinnedSha256 badLength badDigit input) ↔
    ¬ (trim input ≠ [] ∧ ∀ c ∈ trim input, c = ':' ∨ c = '-') := by
  unfold PinRead
  rw [parsePinnedSha256_none_iff]
  simp only [parsePinnedSha256_some_iff, implies_true, and_true, isSeparator, Bool.or_eq_true, decide_eq_true_eq]
  constructor
  · rintro h ⟨hne, hall⟩
    exact hne (h.mp hall)
  · intro h
    constructor
    · intro hall
      by_contra hne
      exact h ⟨hne, hall⟩
    · intro hnil
      simp [hnil]

end

end Hysteria.App

namespace Hysteria.Core

/-- `identity` is what the peer presented, if anything, and its certificates if it has the type expected. -/
def verifyPinnedCertificate (sha256 : List UInt8 → List UInt8) (identity : Option (Option (List (List UInt8)))) :
    Option (List UInt8) → Except String Unit
  | none => .ok ()
  | some expectedHash =>
    match identity with
    | none => .error "peer did not present a certificate"
    | some none => .error "unexpected peer identity type"
    | some (some []) => .error "peer did not present an end-entity certificate"
    | some (some (certificate :: _)) =>
      if sha256 certificate = expectedHash then .ok () else .error "no certificate matches the pinned SHA-256 hash"

end Hysteria.Core

namespace Hysteria.App
open Lib Hysteria.Core

/-- Both readers of the setting are right exactly if it is not made of separators only. -/
theorem pins_read_iff (input : Text) :
    (PinRead input (parseOptionalPinnedSha256 input) ↔
        ¬ (trim input ≠ [] ∧ ∀ c ∈ trim input, c = ':' ∨ c = '-')) ∧
      (PinRead input (Mobile.parseOptionalPinnedSha256 input) ↔
        ¬ (trim input ≠ [] ∧ ∀ c ∈ trim input, c = ':' ∨ c = '-')) :=
  ⟨pinRead_iff _ _ input, pinRead_iff _ _ input⟩

/-- Two dashes pin nothing, and then every peer passes. -/
theorem separators_pin_nothing :
    trim "--".toList = "--".toList ∧ parseOptionalPinnedSha256 "--".toList = .ok none ∧
      Mobile.parseOptionalPinnedSha256 "--".toList = .ok none ∧
      ∀ sha256 identity, verifyPinnedCertificate sha256 identity none = .ok () := by
  refine ⟨by decide, by decide, by decide, ?_⟩
  intro sha256 identity
  rfl

theorem verify_of_isPin {input : Text} {hash : List UInt8} (h : IsPin hash (trim input))
    (sha256 : List UInt8 → List UInt8) (identity : Option (Option (List (List UInt8)))) :
    ∃ pin, parseOptionalPinnedSha256 input = .ok pin ∧
      (verifyPinnedCertificate sha256 identity pin = .ok () ↔
        ∃ certificate rest, identity = some (some (certificate :: rest)) ∧ sha256 certificate = hash) := by
  refine ⟨some hash, (parsePinnedSha256_some_iff _ _ input hash).mpr h, ?_⟩
  unfold verifyPinnedCertificate
  match identity with
  | none => simp
  | some none => simp
  | some (some []) => simp
  | some (some (certificate :: rest)) => simp

end Hysteria.App
