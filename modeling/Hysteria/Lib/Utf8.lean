import Mathlib.Data.List.Basic
import Mathlib.Tactic.Common

/-! Strings and their UTF-8 bytes. Decoding is lossy in the way of Rust's
`String::from_utf8_lossy`: every maximal prefix of a character that does not
continue to one becomes a single replacement character. -/
namespace Hysteria.Lib

def utf8Bytes (s : String) : List UInt8 := s.toByteArray.data.toList

@[simp] theorem length_utf8Bytes (s : String) : (utf8Bytes s).length = s.utf8ByteSize := rfl

theorem utf8Bytes_eq (s : String) : utf8Bytes s = s.toList.flatMap String.utf8EncodeChar := by
  have h : s.toByteArray = (s.toList.flatMap String.utf8EncodeChar).toByteArray := by
    rw [← List.utf8Encode, ← String.toByteArray_ofList, String.ofList_toList]
  rw [utf8Bytes, h, List.toList_data_toByteArray]

theorem fromUTF8?_eq_some_iff {bytes : List UInt8} {s : String} :
    String.fromUTF8? bytes.toByteArray = some s ↔ utf8Bytes s = bytes := by
  rw [String.fromUTF8?, Option.dite_none_right_eq_some]
  constructor
  · rintro ⟨hvalid, ⟨⟩⟩
    exact List.toList_data_toByteArray
  · rintro rfl
    have hbytes : (utf8Bytes s).toByteArray = s.toByteArray := by
      apply ByteArray.ext
      rw [← Array.toList_inj, List.toList_data_toByteArray, utf8Bytes]
    have hvalid : (utf8Bytes s).toByteArray.IsValidUTF8 := by
      rw [hbytes]
      exact s.isValidUTF8
    refine ⟨hvalid, ?_⟩
    rw [Option.some.injEq, ← String.toByteArray_inj]
    exact hbytes

def isContinuation (b : UInt8) : Bool := 0x80 ≤ b && b ≤ 0xbf

def secondOfThree (first second : UInt8) : Bool :=
  if first = 0xe0 then 0xa0 ≤ second && second ≤ 0xbf
  else if first = 0xed then 0x80 ≤ second && second ≤ 0x9f
  else isContinuation second

def secondOfFour (first second : UInt8) : Bool :=
  if first = 0xf0 then 0x90 ≤ second && second ≤ 0xbf
  else if first = 0xf4 then 0x80 ≤ second && second ≤ 0x8f
  else isContinuation second

/-- The length of the longest prefix of a character at the start of bytes that
do not start with a whole one, or 1 when not even the first byte can start one. -/
def invalidLength : List UInt8 → Nat
  | first :: second :: rest =>
    if 0xe0 ≤ first && first ≤ 0xef then
      if secondOfThree first second then 2 else 1
    else if 0xf0 ≤ first && first ≤ 0xf4 then
      if secondOfFour first second then
        if rest.head?.any isContinuation then 3 else 2
      else 1
    else 1
  | _ => 1

theorem invalidLength_pos (bytes : List UInt8) : 0 < invalidLength bytes := by
  unfold invalidLength
  split
  · split_ifs <;> decide
  · decide

def decodeLossy (bytes : List UInt8) : List Char :=
  match bytes with
  | [] => []
  | first :: rest =>
    match (first :: rest).toByteArray.utf8DecodeChar? 0 with
    | some c => c :: decodeLossy ((first :: rest).drop c.utf8Size)
    | none => '�' :: decodeLossy ((first :: rest).drop (invalidLength (first :: rest)))
termination_by bytes.length
decreasing_by
  · have := c.utf8Size_pos
    simp only [List.length_drop, List.length_cons]
    omega
  · have := invalidLength_pos (first :: rest)
    simp only [List.length_drop, List.length_cons]
    omega

def fromUtf8Lossy (bytes : List UInt8) : String := String.ofList (decodeLossy bytes)

theorem decodeLossy_encode (cs : List Char) :
    decodeLossy (cs.flatMap String.utf8EncodeChar) = cs := by
  induction cs with
  | nil => simp [decodeLossy]
  | cons c cs ih =>
    have hdecode : ((c :: cs).flatMap String.utf8EncodeChar).toByteArray.utf8DecodeChar? 0 = some c :=
      List.utf8DecodeChar?_utf8Encode_cons
    have hdrop : ((c :: cs).flatMap String.utf8EncodeChar).drop c.utf8Size =
        cs.flatMap String.utf8EncodeChar := by
      rw [List.flatMap_cons, ← String.length_utf8EncodeChar c, List.drop_left]
    obtain ⟨first, rest, hbytes⟩ : ∃ first rest,
        (c :: cs).flatMap String.utf8EncodeChar = first :: rest := by
      refine List.exists_cons_of_length_pos ?_
      have := c.utf8Size_pos
      simp only [List.flatMap_cons, List.length_append, String.length_utf8EncodeChar]
      omega
    rw [hbytes] at hdecode hdrop ⊢
    rw [decodeLossy, hdecode]
    simp only [hdrop, ih]

@[simp] theorem fromUtf8Lossy_utf8Bytes (s : String) : fromUtf8Lossy (utf8Bytes s) = s := by
  rw [fromUtf8Lossy, utf8Bytes_eq, decodeLossy_encode, String.ofList_toList]

end Hysteria.Lib
