import Hysteria.App.CertPin
import Hysteria.Mobile.ImportUri

/-! The two copies of `decode_userinfo_component`, in `config.rs` and in the mobile client, as the
loops over an index that they are, against `escape_userinfo_component`. -/
namespace Hysteria.App
open Lib

/-- `percent_nibble` in one copy, `hex_nibble` in the other -/
def percentNibble (badDigit : String) (value : UInt8) : Exec Chain UInt8 :=
  (hexNibble badDigit value).mapError fun message => .error [message]

/-- The loop, from an index on. The index does not overflow: it is at most two above the length of a slice. -/
def decodeEscapes (truncated badDigit : String) (bytes : List UInt8) (i : Nat) (decoded : List UInt8) :
    Exec Chain (List UInt8) :=
  if _h : i < bytes.length then do
    let byte ← index bytes i
    if byte = 37 then
      if i + 2 ≥ bytes.length then .error (.error [truncated])
      else
        let high ← index bytes (i + 1) >>= percentNibble badDigit
        let low ← index bytes (i + 2) >>= percentNibble badDigit
        decodeEscapes truncated badDigit bytes (i + 3) (decoded ++ [high <<< 4 ||| low])
    else decodeEscapes truncated badDigit bytes (i + 1) (decoded ++ [byte])
  else .ok decoded
termination_by bytes.length - i

def decodeUserinfoByIndex (truncated badDigit notUtf8 : String) (input : Text) : Exec Chain Text :=
  if (37 : UInt8) ∈ utf8 input then do
    let decoded ← decodeEscapes truncated badDigit (utf8 input) 0 []
    match fromUtf8 decoded with
    | some text => .ok text
    | none => .error (.error [notUtf8])
  else .ok input

namespace ByIndex

def decodeUserinfoComponent : Text → Exec Chain Text :=
  decodeUserinfoByIndex "invalid percent-encoding in client URI auth" "invalid percent-encoding in client URI auth"
    "client URI auth is not valid UTF-8"

end ByIndex

end Hysteria.App

namespace Hysteria.Mobile.ByIndex
open Lib App

def decodeUserinfoComponent : Text → Exec Chain Text :=
  decodeUserinfoByIndex "invalid percent-encoding in URI auth" "invalid hex digit" "URI auth is not valid UTF-8"

end Hysteria.Mobile.ByIndex

namespace Hysteria.App
open Lib

section
variable {truncated badDigit notUtf8 : String}

theorem percentNibble_eq (value : UInt8) :
    percentNibble badDigit value = (nibble value).elim (.error (.error [badDigit])) .ok := by
  rw [percentNibble, hexNibble, nibble]
  simp only [Bool.and_eq_true, decide_eq_true_eq]
  split_ifs <;> rfl

theorem index_of_drop {bytes raw : List UInt8} {i k : Nat} {byte : UInt8} (hdrop : bytes.drop i = raw)
    (hbyte : raw[k]? = some byte) : (index bytes (i + k) : Exec Chain UInt8) = .ok byte := by
  apply index_ok
  rw [← List.getElem?_drop, hdrop, hbyte]

theorem length_of_drop {bytes rest : List UInt8} {i : Nat} {byte : UInt8} (hdrop : bytes.drop i = byte :: rest) :
    bytes.length = i + 1 + rest.length := by
  have hlength := congrArg List.length hdrop
  rw [List.length_drop, List.length_cons] at hlength
  omega

theorem decodeEscapes_plain {bytes rest : List UInt8} {i : Nat} {byte : UInt8} (hdrop : bytes.drop i = byte :: rest)
    (hbyte : byte ≠ 37) (decoded : List UInt8) :
    decodeEscapes truncated badDigit bytes i decoded =
      decodeEscapes truncated badDigit bytes (i + 1) (decoded ++ [byte]) := by
  have hlength := length_of_drop hdrop
  have hat : (index bytes i : Exec Chain UInt8) = .ok byte := index_of_drop (k := 0) hdrop rfl
  conv_lhs => unfold decodeEscapes
  rw [dif_pos (by omega), hat, ok_bind, if_neg hbyte]

theorem decodeEscapes_truncated {bytes rest : List UInt8} {i : Nat} (hdrop : bytes.drop i = 37 :: rest)
    (hshort : rest.length < 2) (decoded : List UInt8) :
    decodeEscapes truncated badDigit bytes i decoded = .error (.error [truncated]) := by
  have hlength := length_of_drop hdrop
  have hat : (index bytes i : Exec Chain UInt8) = .ok 37 := index_of_drop (k := 0) hdrop rfl
  unfold decodeEscapes
  rw [dif_pos (by omega), hat, ok_bind, if_pos rfl, if_pos (by omega)]

theorem decodeEscapes_percent {bytes rest : List UInt8} {i : Nat} {high low : UInt8}
    (hdrop : bytes.drop i = 37 :: high :: low :: rest) (decoded : List UInt8) :
    decodeEscapes truncated badDigit bytes i decoded =
      (percentNibble badDigit high >>= fun high => percentNibble badDigit low >>= fun low =>
        decodeEscapes truncated badDigit bytes (i + 3) (decoded ++ [high <<< 4 ||| low])) := by
  have hlength := length_of_drop hdrop
  rw [List.length_cons, List.length_cons] at hlength
  have hat : (index bytes i : Exec Chain UInt8) = .ok 37 := index_of_drop (k := 0) hdrop rfl
  conv_lhs => unfold decodeEscapes
  rw [dif_pos (by omega), hat, ok_bind, if_pos rfl, if_neg (by omega), index_of_drop (k := 1) hdrop rfl, ok_bind,
    index_of_drop (k := 2) hdrop rfl]
  rfl

theorem decodeEscapes_eq {bytes raw : List UInt8} {i : Nat} (hdrop : bytes.drop i = raw) (decoded : List UInt8) :
    decodeEscapes truncated badDigit bytes i decoded =
      ((percentDecode [truncated] [badDigit] raw).map (decoded ++ ·)).mapError .error := by
  fun_induction percentDecode [truncated] [badDigit] raw generalizing i decoded with
  | case1 =>
    unfold decodeEscapes
    rw [dif_neg (by have := List.drop_eq_nil_iff.mp hdrop; omega)]
    simp [Except.map, Except.mapError]
  | case2 high low rest h l hlow hhigh ih =>
    have hrest : bytes.drop (i + 3) = rest := by rw [← List.drop_drop, hdrop]; rfl
    rw [decodeEscapes_percent hdrop, percentNibble_eq, percentNibble_eq, hhigh, hlow]
    refine (ih hrest _).trans ?_
    cases percentDecode [truncated] [badDigit] rest <;> simp [Except.map, Except.mapError]
  | case3 high low rest hdigits =>
    rw [decodeEscapes_percent hdrop, percentNibble_eq, percentNibble_eq]
    cases hhigh : nibble high with
    | none => rfl
    | some h =>
      cases hlow : nibble low with
      | none => rfl
      | some l => exact (hdigits h l hhigh hlow).elim
  | case4 rest hrest =>
    have hshort : rest.length < 2 := by
      rcases rest with _ | ⟨b, _ | ⟨c, more⟩⟩
      · decide
      · exact Nat.lt_succ_self 1
      · exact (hrest b c more rfl).elim
    exact decodeEscapes_truncated hdrop hshort decoded
  | case5 b rest hb ih =>
    have hrest : bytes.drop (i + 1) = rest := by rw [← List.drop_drop, hdrop]; rfl
    rw [decodeEscapes_plain hdrop hb, ih hrest]
    cases percentDecode [truncated] [badDigit] rest <;> simp [Except.map, Except.mapError]

/-- The loop neither panics nor goes on for ever: it is the decoder by recursion. -/
theorem decodeUserinfoByIndex_eq (input : Text) :
    decodeUserinfoByIndex truncated badDigit notUtf8 input =
      (decodeUserinfo truncated badDigit notUtf8 input).mapError .error := by
  rw [decodeUserinfoByIndex, decodeUserinfo]
  split
  case isTrue =>
    rw [decodeEscapes_eq List.drop_zero]
    cases percentDecode [truncated] [badDigit] (utf8 input) with
    | error chain => rfl
    | ok bytes =>
      simp only [Except.map, Except.mapError, List.nil_append, bind, Except.bind]
      cases fromUtf8 bytes <;> rfl
  case isFalse => rfl

structure DecodesUserinfo (decode : Text → Exec Chain Text) (raw : Text) : Prop where
  no_panic : ∀ why, decode raw ≠ .error (.panic why)
  ok_iff : ∀ text, decode raw = .ok text ↔ Unescapes (utf8 raw) (utf8 text)
  error_iff : (∃ chain, decode raw = .error (.error chain)) ↔
    BadEscape (utf8 raw) ∨ ∃ bytes, Unescapes (utf8 raw) bytes ∧ ∀ text, utf8 text ≠ bytes

theorem forall_not_unescapes_iff {raw : List UInt8} :
    (∀ text : Text, ¬ Unescapes raw (utf8 text)) ↔
      BadEscape raw ∨ ∃ bytes, Unescapes raw bytes ∧ ∀ text, utf8 text ≠ bytes := by
  constructor
  · intro h
    rcases unescapes_or_badEscape raw with ⟨bytes, hbytes⟩ | hbad
    · refine .inr ⟨bytes, hbytes, ?_⟩
      rintro text rfl
      exact h text hbytes
    · exact .inl hbad
  · rintro (hbad | ⟨bytes, hbytes, htexts⟩) text htext
    · exact hbad.not_unescapes htext
    · exact htexts text (htext.unique hbytes)

theorem decodesUserinfo_byIndex (raw : Text) :
    DecodesUserinfo (decodeUserinfoByIndex truncated badDigit notUtf8) raw := by
  have hok (text : Text) : decodeUserinfoByIndex truncated badDigit notUtf8 raw = .ok text ↔
      Unescapes (utf8 raw) (utf8 text) := by
    rw [decodeUserinfoByIndex_eq, ← decodeUserinfo_eq_ok_iff]
    cases decodeUserinfo truncated badDigit notUtf8 raw <;> simp [Except.mapError]
  have herror : (∃ chain, decodeUserinfoByIndex truncated badDigit notUtf8 raw = .error (.error chain)) ↔
      ∀ text, decodeUserinfoByIndex truncated badDigit notUtf8 raw ≠ .ok text := by
    rw [decodeUserinfoByIndex_eq]
    cases decodeUserinfo truncated badDigit notUtf8 raw <;> simp [Except.mapError]
  refine ⟨?_, hok, ?_⟩
  · intro why
    rw [decodeUserinfoByIndex_eq]
    cases decodeUserinfo truncated badDigit notUtf8 raw <;> simp [Except.mapError]
  · rw [herror, ← forall_not_unescapes_iff]
    simp only [ne_eq, hok]

theorem DecodesUserinfo.toOption_eq {decode decode' : Text → Exec Chain Text} {raw : Text}
    (h : DecodesUserinfo decode raw) (h' : DecodesUserinfo decode' raw) :
    (decode raw).toOption = (decode' raw).toOption := by
  have hsome (result : Exec Chain Text) (text : Text) : result.toOption = some text ↔ result = .ok text := by
    cases result <;> simp [Except.toOption]
  apply Option.ext
  intro text
  rw [hsome, hsome, h.ok_iff, h'.ok_iff]

end

/-- An escaped component has nothing in it but kept characters and escapes, and both programs read it back;
of any text at all they make the same, which is an error only for an escape that is not complete and for
bytes that are not UTF-8. -/
theorem userinfo_copies_agree (text raw : Text) :
    EscapedText keepsUserinfo (escapeUserinfoComponent text) ∧
    ByIndex.decodeUserinfoComponent (escapeUserinfoComponent text) = .ok text ∧
    Mobile.ByIndex.decodeUserinfoComponent (escapeUserinfoComponent text) = .ok text ∧
    DecodesUserinfo ByIndex.decodeUserinfoComponent raw ∧
    DecodesUserinfo Mobile.ByIndex.decodeUserinfoComponent raw ∧
    (ByIndex.decodeUserinfoComponent raw).toOption = (Mobile.ByIndex.decodeUserinfoComponent raw).toOption := by
  have hunescapes := unescapes_escapeUserinfoComponent text
  exact ⟨escapedText_percentEncodeText toNat_lt_of_keepsUserinfo text,
    ((decodesUserinfo_byIndex _).ok_iff text).mpr hunescapes, ((decodesUserinfo_byIndex _).ok_iff text).mpr hunescapes,
    decodesUserinfo_byIndex raw, decodesUserinfo_byIndex raw,
    (decodesUserinfo_byIndex raw).toOption_eq (decodesUserinfo_byIndex raw)⟩

end Hysteria.App
