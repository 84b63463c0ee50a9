import Hysteria.Core.Errors
import Hysteria.Lib.Bytes
import Hysteria.Lib.ByteStream
import Mathlib.Tactic.Linarith

/-! QUIC variable-length integers, as `varint.rs` writes and reads them: the
two high bits of the first byte give the length, the rest is big endian. -/
namespace Hysteria.Core

namespace Varint
open Lib

def maxVarint : UInt64 := 0x3fffffffffffffff

/-- The source asserts `value ≤ maxVarint`; larger values fall in the last branch here. -/
def len (value : UInt64) : Nat :=
  if value ≤ 63 then 1
  else if value ≤ 16383 then 2
  else if value ≤ 1073741823 then 4
  else 8

/-- The bytes `write` stores, one case for each length. -/
def encode (value : UInt64) : List UInt8 :=
  if value ≤ 63 then [value.toUInt8]
  else if value ≤ 16383 then
    [(value >>> 8).toUInt8 ||| 0x40, value.toUInt8]
  else if value ≤ 1073741823 then
    [(value >>> 24).toUInt8 ||| 0x80, (value >>> 16).toUInt8, (value >>> 8).toUInt8, value.toUInt8]
  else
    [(value >>> 56).toUInt8 ||| 0xc0, (value >>> 48).toUInt8, (value >>> 40).toUInt8,
      (value >>> 32).toUInt8, (value >>> 24).toUInt8, (value >>> 16).toUInt8,
      (value >>> 8).toUInt8, value.toUInt8]

def write (buf : List UInt8) (value : UInt64) : Exec ProtocolError (Nat × List UInt8) := do
  if value > maxVarint then throw (.error .varintOverflow)
  let needed := len value
  if buf.length < needed then throw (.error .unexpectedEof)
  let buf ← writeSlice buf 0 (encode value)
  return (needed, buf)

/-- `index += varint::write(&mut buf[index..], value)?`. -/
def writeAt (buf : List UInt8) (index : Nat) (value : UInt64) :
    Exec ProtocolError (Nat × List UInt8) := do
  let (written, tail) ← write (← slice buf index buf.length) value
  return (index + written, buf.take index ++ tail)

def needed (first : UInt8) : Nat := 1 <<< (first >>> 6).toNat

def pushByte (value : UInt64) (byte : UInt8) : UInt64 := (value <<< 8) ||| byte.toUInt64

def readSlice (buf : List UInt8) : Exec ProtocolError (UInt64 × Nat) := do
  match buf.head? with
  | none => throw (.error .unexpectedEof)
  | some first =>
    let needed := needed first
    if buf.length < needed then throw (.error .unexpectedEof)
    let rest ← slice buf 1 needed
    return (rest.foldl pushByte (first &&& 0x3f).toUInt64, needed)

def read : Reads ProtocolError UInt64 := do
  let first := (← readExact .unexpectedEof 1).headD 0
  let needed := needed first
  let rest ← readUnlessEmpty .unexpectedEof (needed - 1)
  return rest.foldl pushByte (first &&& 0x3f).toUInt64

@[simp] theorem length_encode (value : UInt64) : (encode value).length = len value := by
  unfold encode len
  split_ifs <;> rfl

theorem write_ok {buf : List UInt8} {value : UInt64} (hvalue : value ≤ maxVarint)
    (hbuf : len value ≤ buf.length) :
    write buf value = .ok (len value, splice buf 0 (encode value)) := by
  have hvalue' : ¬ value > maxVarint := by simpa using hvalue
  have hbuf' : ¬ buf.length < len value := by omega
  have hwrite : (writeSlice buf 0 (encode value) : Exec ProtocolError _) =
      .ok (splice buf 0 (encode value)) := writeSlice_ok (by simpa using hbuf)
  simp only [write, hvalue', hbuf', hwrite, if_false]
  rfl

theorem writeAt_overlay {written buf : List UInt8} {index : Nat} {value : UInt64}
    (hindex : written.length = index) (hvalue : value ≤ maxVarint)
    (hroom : index + len value ≤ buf.length) :
    writeAt (overlay written buf) index value =
      .ok (index + len value, overlay (written ++ encode value) buf) := by
  have hlength : (overlay written buf).length = buf.length := length_overlay (by omega)
  have htail : (slice (overlay written buf) index (overlay written buf).length :
      Exec ProtocolError _) = .ok (buf.drop index) := by
    rw [slice_ok (by omega) (Nat.le_refl _), List.take_length, drop_overlay buf hindex.le]
  have hwrite : write (buf.drop index) value =
      .ok (len value, overlay (encode value) (buf.drop index)) := by
    rw [write_ok hvalue (by rw [List.length_drop]; omega)]
    simp [splice, overlay]
  unfold writeAt
  rw [htail, ok_bind, hwrite, ok_bind, take_overlay buf hindex, ← overlay_append, hindex]
  rfl

theorem needed_eq (first : UInt8) : needed first = 2 ^ (first.toNat / 64) := by
  simp [needed, Nat.shiftLeft_eq, Nat.shiftRight_eq_div_pow]

theorem toNat_valueBits (first : UInt8) : (first &&& 0x3f).toUInt64.toNat = first.toNat % 64 := by
  have hmask : (0x3f : UInt8).toNat = 2 ^ 6 - 1 := rfl
  rw [UInt8.toNat_toUInt64, UInt8.toNat_and, hmask, Nat.and_two_pow_sub_one_eq_mod]

theorem toNat_tagged (b tag : UInt8) (k : Nat) (hb : b.toNat < 64) (htag : tag.toNat = 2 ^ 6 * k) :
    (b ||| tag).toNat = 64 * k + b.toNat := by
  rw [UInt8.toNat_or, htag, Nat.or_comm, ← Nat.two_pow_add_eq_or_of_lt hb]

theorem toNat_pushByte {value : UInt64} (byte : UInt8) (h : value.toNat < 2 ^ 56) :
    (pushByte value byte).toNat = beStep value.toNat byte := by
  have hbyte : byte.toNat < 2 ^ 8 := byte.toNat_lt
  have hshift : (value <<< 8).toNat = value.toNat <<< 8 := by
    rw [UInt64.toNat_shiftLeft]
    simp only [UInt64.reduceToNat, Nat.reduceMod, Nat.shiftLeft_eq]
    omega
  rw [pushByte, UInt64.toNat_or, hshift, UInt8.toNat_toUInt64,
    ← Nat.shiftLeft_add_eq_or_of_lt hbyte, Nat.shiftLeft_eq, beStep]

theorem toNat_foldl_pushByte (bytes : List UInt8) (value : UInt64)
    (h : (value.toNat + 1) * 256 ^ bytes.length ≤ 2 ^ 64) :
    (bytes.foldl pushByte value).toNat = value.toNat * 256 ^ bytes.length + beNat bytes := by
  rw [← foldl_beStep]
  induction bytes generalizing value with
  | nil => rfl
  | cons b bytes ih =>
    have hb : b.toNat < 256 := b.toNat_lt
    have hpos : 0 < 256 ^ bytes.length := Nat.pow_pos (by decide)
    rw [List.length_cons, Nat.pow_succ] at h
    have hsmall : value.toNat < 2 ^ 56 := by nlinarith
    have hpush := toNat_pushByte b hsmall
    have hnext : (beStep value.toNat b + 1) * 256 ^ bytes.length ≤ 2 ^ 64 := by
      simp only [beStep]
      nlinarith
    rw [List.foldl_cons, List.foldl_cons, ih _ (by rwa [hpush]), hpush]

theorem readSlice_cons (first : UInt8) (rest tail : List UInt8)
    (h : rest.length + 1 = needed first) :
    readSlice (first :: (rest ++ tail)) =
      .ok (rest.foldl pushByte (first &&& 0x3f).toUInt64, needed first) := by
  have hlen : ¬ (first :: (rest ++ tail)).length < needed first := by
    simp only [List.length_cons, List.length_append]
    omega
  have hslice : (slice (first :: (rest ++ tail)) 1 (needed first) : Exec ProtocolError _) =
      .ok rest := by
    rw [slice_ok (by omega) (by omega), ← h]
    simp
  simp only [readSlice, List.head?_cons, hlen, hslice, if_false]
  rfl

theorem toUInt8_shiftRight (value k : UInt64) (hk : k.toNat < 64) :
    (value >>> k).toUInt8 = UInt8.ofNat (value.toNat / 2 ^ k.toNat) := by
  apply UInt8.toNat_inj.mp
  rw [UInt64.toNat_toUInt8, UInt64.toNat_shiftRight, Nat.mod_eq_of_lt hk,
    Nat.shiftRight_eq_div_pow, UInt8.toNat_ofNat']

theorem tagged_first {n k : Nat} {t : UInt8} (hn : n < 64) (htag : t.toNat = 2 ^ 6 * k) :
    (UInt8.ofNat n ||| t).toNat % 64 = n ∧ needed (UInt8.ofNat n ||| t) = 2 ^ k := by
  have hbyte : (UInt8.ofNat n).toNat = n := by
    rw [UInt8.toNat_ofNat']
    omega
  have hfirst := toNat_tagged (UInt8.ofNat n) t k (by omega) htag
  rw [needed_eq, hfirst, hbyte]
  refine ⟨by omega, ?_⟩
  congr 1
  omega

theorem encode_eq_cons {value : UInt64} (hvalue : value ≤ maxVarint) :
    ∃ first, encode value = first :: beBytes (len value - 1) value.toNat ∧
      first.toNat % 64 = value.toNat / 256 ^ (len value - 1) ∧ needed first = len value := by
  have hmax : value.toNat ≤ 0x3fffffffffffffff := hvalue
  have hlow : UInt8.ofNat value.toNat = value.toUInt8 := UInt8.ofNat_uInt64ToNat value
  unfold encode len
  split_ifs with h1 h2 h4
  · have h : value.toNat ≤ 63 := h1
    have hfirst := tagged_first (n := value.toNat) (k := 0) (t := 0) (by omega) rfl
    rw [UInt8.or_zero, hlow] at hfirst
    exact ⟨_, rfl, by simpa using hfirst.1, hfirst.2⟩
  · have h : value.toNat ≤ 16383 := h2
    have hfirst := tagged_first (n := value.toNat / 2 ^ 8) (k := 1) (t := 0x40) (by omega) rfl
    refine ⟨_, ?_, hfirst⟩
    simp [beBytes, toUInt8_shiftRight]
  · have h : value.toNat ≤ 1073741823 := h4
    have hfirst := tagged_first (n := value.toNat / 2 ^ 24) (k := 2) (t := 0x80) (by omega) rfl
    refine ⟨_, ?_, hfirst⟩
    simp [beBytes, toUInt8_shiftRight]
  · have hfirst := tagged_first (n := value.toNat / 2 ^ 56) (k := 3) (t := 0xc0) (by omega) rfl
    refine ⟨_, ?_, hfirst⟩
    simp [beBytes, toUInt8_shiftRight]

/-- The bytes are one whole variable-length integer: the two high bits of the first
announce their number, the remaining bits are the value. -/
def IsVarint (bytes : List UInt8) (n : Nat) : Prop :=
  ∃ first rest, bytes = first :: rest ∧ bytes.length = 2 ^ (first.toNat / 64) ∧
    n = first.toNat % 64 * 256 ^ rest.length + beNat rest

theorem length_le_eight {first : UInt8} {rest : List UInt8}
    (h : rest.length + 1 = 2 ^ (first.toNat / 64)) : rest.length ≤ 7 := by
  have hfirst : first.toNat < 256 := first.toNat_lt
  have hpow : 2 ^ (first.toNat / 64) ≤ 2 ^ 3 := Nat.pow_le_pow_right (by decide) (by omega)
  omega

theorem IsVarint.lt {bytes : List UInt8} {n : Nat} (h : IsVarint bytes n) : n < 2 ^ 62 := by
  obtain ⟨first, rest, rfl, hlength, rfl⟩ := h
  have hrest := length_le_eight hlength
  have hlow := beNat_lt rest
  have hpow : 256 ^ rest.length ≤ 256 ^ 7 := Nat.pow_le_pow_right (by decide) hrest
  have hbits : first.toNat % 64 < 64 := Nat.mod_lt _ (by decide)
  nlinarith

theorem IsVarint.toNat_ofNat {bytes : List UInt8} {n : Nat} (h : IsVarint bytes n) :
    (UInt64.ofNat n).toNat = n := by
  have hlt := h.lt
  rw [UInt64.toNat_ofNat']
  omega

theorem foldl_isVarint {first : UInt8} {rest : List UInt8}
    (h : rest.length + 1 = 2 ^ (first.toNat / 64)) :
    rest.foldl pushByte (first &&& 0x3f).toUInt64 =
      UInt64.ofNat (first.toNat % 64 * 256 ^ rest.length + beNat rest) := by
  have hn : first.toNat % 64 * 256 ^ rest.length + beNat rest < 2 ^ 62 :=
    IsVarint.lt ⟨first, rest, rfl, h, rfl⟩
  have hrest := length_le_eight h
  have hroom : (first.toNat % 64 + 1) * 256 ^ rest.length ≤ 2 ^ 64 := by
    have hbits : first.toNat % 64 < 64 := Nat.mod_lt _ (by decide)
    have hpow : 256 ^ rest.length ≤ 256 ^ 7 := Nat.pow_le_pow_right (by decide) hrest
    calc (first.toNat % 64 + 1) * 256 ^ rest.length
        ≤ 64 * 256 ^ 7 := Nat.mul_le_mul hbits hpow
      _ ≤ 2 ^ 64 := by decide
  apply UInt64.toNat_inj.mp
  rw [toNat_foldl_pushByte _ _ (by rwa [toNat_valueBits]), toNat_valueBits, UInt64.toNat_ofNat']
  omega

theorem readSlice_isVarint {bytes : List UInt8} {n : Nat} (h : IsVarint bytes n)
    (tail : List UInt8) : readSlice (bytes ++ tail) = .ok (UInt64.ofNat n, bytes.length) := by
  obtain ⟨first, rest, rfl, hlength, rfl⟩ := h
  have hneeded : rest.length + 1 = needed first := by rw [needed_eq, ← hlength, List.length_cons]
  rw [List.cons_append, readSlice_cons _ _ _ hneeded, foldl_isVarint hlength, ← hneeded,
    List.length_cons]

theorem read_isVarint {bytes : List UInt8} {n : Nat} (h : IsVarint bytes n) (tail : List UInt8) :
    read (bytes ++ tail) = .ok (UInt64.ofNat n, tail) := by
  obtain ⟨first, rest, rfl, hlength, rfl⟩ := h
  have hneeded : rest.length + 1 = needed first := by rw [needed_eq, ← hlength, List.length_cons]
  unfold read
  rw [List.cons_append, reads_bind_ok (readExact_one _ first _)]
  dsimp only [List.headD_cons]
  rw [readUnlessEmpty_eq, reads_bind_ok (readExact_append (by omega) tail), foldl_isVarint hlength]
  rfl

theorem isVarint_encode {value : UInt64} (hvalue : value ≤ maxVarint) :
    IsVarint (encode value) value.toNat := by
  obtain ⟨first, hencode, hfirst, hneeded⟩ := encode_eq_cons hvalue
  refine ⟨first, _, hencode, ?_, ?_⟩
  · rw [length_encode, ← hneeded, needed_eq]
  · rw [hfirst, length_beBytes, beNat_beBytes, Nat.div_add_mod']

theorem readSlice_encode {value : UInt64} (hvalue : value ≤ maxVarint) (tail : List UInt8) :
    readSlice (encode value ++ tail) = .ok (value, len value) := by
  rw [readSlice_isVarint (isVarint_encode hvalue), UInt64.ofNat_toNat, length_encode]

theorem readSlice_cases (buf : List UInt8) :
    (∃ bytes tail n, buf = bytes ++ tail ∧ IsVarint bytes n) ∨
      readSlice buf = .error (.error .unexpectedEof) := by
  cases buf with
  | nil => exact .inr rfl
  | cons first rest =>
    by_cases hlength : (first :: rest).length < needed first
    · right
      simp only [readSlice, List.head?_cons, hlength, if_true]
      rfl
    · left
      have hneeded := needed_eq first
      have hpos : 0 < 2 ^ (first.toNat / 64) := Nat.pow_pos (by decide)
      rw [List.length_cons] at hlength
      refine ⟨first :: rest.take (needed first - 1), rest.drop (needed first - 1), _, by simp, first,
        _, rfl, ?_, rfl⟩
      rw [List.length_cons, List.length_take]
      omega

theorem IsVarint.eq_encode {bytes : List UInt8} {n : Nat} (h : IsVarint bytes n)
    (hminimal : bytes.length = len (UInt64.ofNat n)) : bytes = encode (UInt64.ofNat n) := by
  have hn := h.lt
  have hvalue := h.toNat_ofNat
  have hmax : UInt64.ofNat n ≤ maxVarint := by
    rw [UInt64.le_iff_toNat_le, hvalue]
    have : maxVarint.toNat = 2 ^ 62 - 1 := rfl
    omega
  obtain ⟨first', hencode, hbits, hneeded⟩ := encode_eq_cons hmax
  obtain ⟨first, rest, rfl, hlength, rfl⟩ := h
  have hwidth : len (UInt64.ofNat (first.toNat % 64 * 256 ^ rest.length + beNat rest)) - 1 =
      rest.length := by
    rw [← hminimal, List.length_cons]
    omega
  rw [hvalue, hwidth] at hencode hbits
  rw [hencode, beBytes_beNat]
  have hdiv : (first.toNat % 64 * 256 ^ rest.length + beNat rest) / 256 ^ rest.length =
      first.toNat % 64 := by
    rw [Nat.add_comm, Nat.add_mul_div_right _ _ (Nat.pow_pos (by decide)),
      Nat.div_eq_of_lt (beNat_lt rest), Nat.zero_add]
  have htag : first.toNat / 64 = first'.toNat / 64 := by
    rw [needed_eq, ← hminimal, hlength] at hneeded
    exact (Nat.pow_right_injective (Nat.le_refl 2) hneeded).symm
  have hfirst : first = first' := by
    apply UInt8.toNat_inj.mp
    omega
  rw [hfirst]

end Varint
end Hysteria.Core
