import Hysteria.Core.RuntimeIo

/-! The encoder of variable-length integers and its three decoders: one reads a slice, two read
a stream. All of them are settled by which bytes are a whole integer. -/
namespace Hysteria.Core
open Lib

namespace Varint
variable {buf input rest : List UInt8} {value : UInt64} {n : Nat}

/-- The least of the four widths whose bits, two of them taken for the width, hold the value. -/
structure LeastWidth (value : UInt64) (width : Nat) : Prop where
  mem : width ∈ [1, 2, 4, 8]
  holds : value.toNat < 2 ^ (8 * width - 2)
  least : ∀ other ∈ [1, 2, 4, 8], value.toNat < 2 ^ (8 * other - 2) → width ≤ other

theorem leastWidth_len (hvalue : value ≤ maxVarint) : LeastWidth value (len value) := by
  have hmax : value.toNat ≤ 2 ^ 62 - 1 := hvalue
  have hwidth (width : Nat) (hmem : width ∈ [1, 2, 4, 8]) (hholds : value.toNat < 2 ^ (8 * width - 2))
      (hsmaller : width = 1 ∨ 2 ^ (8 * (width / 2) - 2) ≤ value.toNat) : LeastWidth value width := by
    refine ⟨hmem, hholds, fun other hother hlt => ?_⟩
    by_contra hless
    simp only [List.mem_cons, List.not_mem_nil, or_false] at hmem hother
    rcases hmem with rfl | rfl | rfl | rfl <;> rcases hother with rfl | rfl | rfl | rfl <;> omega
  unfold len
  split_ifs with h1 h2 h4
  · have h : value.toNat ≤ 63 := h1
    exact hwidth 1 (by decide) (by omega) (.inl rfl)
  · have h : ¬ value.toNat ≤ 63 := h1
    have h' : value.toNat ≤ 16383 := h2
    exact hwidth 2 (by decide) (by omega) (.inr (by omega))
  · have h : ¬ value.toNat ≤ 16383 := h2
    have h' : value.toNat ≤ 1073741823 := h4
    exact hwidth 4 (by decide) (by omega) (.inr (by omega))
  · have h : ¬ value.toNat ≤ 1073741823 := h4
    exact hwidth 8 (by decide) (by omega) (.inr (by omega))

theorem write_eq_ok_iff {after : List UInt8} (hvalue : value ≤ maxVarint) :
    write buf value = .ok (n, after) ↔
      len value ≤ buf.length ∧ n = len value ∧ after = encode value ++ buf.drop (len value) := by
  by_cases hroom : len value ≤ buf.length
  · rw [write_ok hvalue hroom]
    simp [hroom, splice, eq_comm]
  · have hvalue' : ¬ value > maxVarint := UInt64.not_lt.mpr hvalue
    have hshort : buf.length < len value := Nat.lt_of_not_le hroom
    have herror : write buf value = .error (.error .unexpectedEof) := by
      rw [write, if_neg hvalue']
      exact if_pos hshort
    rw [herror]
    refine iff_of_false ?_ fun h => hroom h.1
    rintro ⟨⟩

theorem readSlice_eq_ok_iff :
    readSlice input = .ok (value, n) ↔
      ∃ bytes tail k, input = bytes ++ tail ∧ IsVarint bytes k ∧ value = UInt64.ofNat k ∧ n = bytes.length := by
  constructor
  · intro h
    rcases readSlice_cases input with ⟨bytes, tail, k, rfl, hbytes⟩ | herror
    · rw [readSlice_isVarint hbytes] at h
      cases h
      exact ⟨bytes, tail, k, rfl, hbytes, rfl, rfl⟩
    · rw [herror] at h
      cases h
  · rintro ⟨bytes, tail, k, rfl, hbytes, rfl, rfl⟩
    exact readSlice_isVarint hbytes tail

theorem read_of_short (h : ∀ first more, input = first :: more → more.length < needed first - 1) :
    read input = .error (.error .unexpectedEof) := by
  cases input with
  | nil => rfl
  | cons first more =>
    have hshort : readExact ProtocolError.unexpectedEof (needed first - 1) more = .error (.error .unexpectedEof) :=
      if_neg (Nat.not_le.mpr (h first more rfl))
    unfold read
    rw [reads_bind_ok (readExact_one _ first more)]
    dsimp only [List.headD_cons]
    rw [readUnlessEmpty_eq, reads_bind_error hshort]

theorem read_eq_ok_iff :
    read input = .ok (value, rest) ↔
      ∃ bytes k, input = bytes ++ rest ∧ IsVarint bytes k ∧ value = UInt64.ofNat k := by
  constructor
  · intro h
    rcases readSlice_cases input with ⟨bytes, tail, k, rfl, hbytes⟩ | herror
    · rw [read_isVarint hbytes] at h
      cases h
      exact ⟨bytes, k, rfl, hbytes, rfl⟩
    · have hshort : read input = .error (.error .unexpectedEof) := by
        apply read_of_short
        rintro first more rfl
        by_contra hlong
        have hneeded := needed_eq first
        have hpos : 0 < 2 ^ (first.toNat / 64) := Nat.pow_pos (by decide)
        have hcut : more.take (needed first - 1) ++ more.drop (needed first - 1) = more := List.take_append_drop _ _
        have hlength : (more.take (needed first - 1)).length + 1 = needed first := by
          rw [List.length_take]
          omega
        rw [← hcut, readSlice_cons _ _ _ hlength] at herror
        cases herror
      rw [hshort] at h
      cases h
  · rintro ⟨bytes, k, rfl, hbytes, rfl⟩
    exact read_isVarint hbytes rest

theorem read_iff_readSlice :
    read input = .ok (value, rest) ↔ ∃ n, readSlice input = .ok (value, n) ∧ rest = input.drop n := by
  rw [read_eq_ok_iff]
  constructor
  · rintro ⟨bytes, k, rfl, hbytes, rfl⟩
    exact ⟨bytes.length, readSlice_isVarint hbytes rest, List.drop_left.symm⟩
  · rintro ⟨n, hread, rfl⟩
    obtain ⟨bytes, tail, k, rfl, hbytes, rfl, rfl⟩ := readSlice_eq_ok_iff.mp hread
    exact ⟨bytes, k, by rw [List.drop_left], hbytes, rfl⟩

theorem readSlice_bounds (h : readSlice input = .ok (value, n)) : value ≤ maxVarint ∧ n ≤ input.length := by
  obtain ⟨bytes, tail, k, rfl, hbytes, rfl, rfl⟩ := readSlice_eq_ok_iff.mp h
  have hlt := hbytes.lt
  refine ⟨?_, by simp⟩
  rw [UInt64.le_iff_toNat_le, hbytes.toNat_ofNat]
  exact Nat.le_of_lt_succ hlt

end Varint

/-- A value of at most 62 bits is written exactly where there is room for its width, before what was
there, and read back by each decoder with anything behind it. On every input the decoders agree. -/
theorem varint_codec (value : UInt64) (hvalue : value ≤ Varint.maxVarint) (buf input : List UInt8) :
    Varint.LeastWidth value (Varint.len value) ∧
    ((∃ result, Varint.write buf value = .ok result) ↔ Varint.len value ≤ buf.length) ∧
    (∀ n after, Varint.write buf value = .ok (n, after) →
      ∃ bytes, n = Varint.len value ∧ bytes.length = n ∧ after = bytes ++ buf.drop n ∧
        ∀ tail, Varint.readSlice (bytes ++ tail) = .ok (value, n) ∧
          Varint.read (bytes ++ tail) = .ok (value, tail) ∧
          RuntimeIo.readVarint (bytes ++ tail) = .ok (value, tail)) ∧
    (∀ v n, Varint.readSlice input = .ok (v, n) → v ≤ Varint.maxVarint ∧ n ≤ input.length) ∧
    ∀ v rest,
      (Varint.read input = .ok (v, rest) ↔ ∃ n, Varint.readSlice input = .ok (v, n) ∧ rest = input.drop n) ∧
      (RuntimeIo.readVarint input = .ok (v, rest) ↔
        ∃ n, Varint.readSlice input = .ok (v, n) ∧ rest = input.drop n) := by
  have hread (tail : List UInt8) : Varint.read (Varint.encode value ++ tail) = .ok (value, tail) := by
    rw [Varint.read_isVarint (Varint.isVarint_encode hvalue), UInt64.ofNat_toNat]
  refine ⟨Varint.leastWidth_len hvalue, ⟨?_, ?_⟩, ?_, fun v n => Varint.readSlice_bounds, ?_⟩
  · rintro ⟨⟨n, after⟩, hwrite⟩
    exact ((Varint.write_eq_ok_iff hvalue).mp hwrite).1
  · intro hroom
    exact ⟨_, Varint.write_ok hvalue hroom⟩
  · intro n after hwrite
    obtain ⟨-, rfl, rfl⟩ := (Varint.write_eq_ok_iff hvalue).mp hwrite
    refine ⟨Varint.encode value, rfl, Varint.length_encode value, rfl, fun tail => ⟨?_, hread tail, ?_⟩⟩
    · exact Varint.readSlice_encode hvalue tail
    · exact RuntimeIo.readVarint_renames.ok_iff.mpr (hread tail)
  · intro v rest
    refine ⟨Varint.read_iff_readSlice, ?_⟩
    rw [RuntimeIo.readVarint_renames.ok_iff]
    exact Varint.read_iff_readSlice

theorem varint_codec_largest :
    Varint.maxVarint ≤ Varint.maxVarint ∧
      Varint.write (List.replicate 9 7) Varint.maxVarint = .ok (8, List.replicate 8 255 ++ [7]) ∧
      Varint.readSlice (List.replicate 8 255 ++ [7]) = .ok (Varint.maxVarint, 8) := by
  have hmax : Varint.maxVarint ≤ Varint.maxVarint := UInt64.le_refl _
  have hwrite : Varint.write (List.replicate 9 7) Varint.maxVarint = .ok (8, List.replicate 8 255 ++ [7]) := by
    decide +kernel
  obtain ⟨-, -, hwritten, -⟩ := varint_codec Varint.maxVarint hmax (List.replicate 9 7) []
  obtain ⟨bytes, hn, hlength, hafter, hread⟩ := hwritten _ _ hwrite
  have hbytes : bytes = List.replicate 8 255 := (List.append_inj hafter (by rw [hlength]; rfl)).1.symm
  rw [hbytes] at hread
  exact ⟨hmax, hwrite, (hread [7]).1⟩

end Hysteria.Core
