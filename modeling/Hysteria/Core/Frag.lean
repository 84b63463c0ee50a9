import Hysteria.Core.UdpMessage
import Hysteria.Lib.Chunks

/-! Fragmenting a message, `frag_udp_message` in `frag.rs`. The loop cuts the
payload at multiples of the payload size of a datagram and numbers the pieces
with one-byte counters. -/
namespace Hysteria.Core
open Lib

/-- One message of a fragmented one: the same header fields, numbered, with its
part of the payload. -/
def UDPMessage.fragment (message : UDPMessage) (fragCount : UInt8) (data : List UInt8)
    (fragId : Nat) : UDPMessage :=
  { message with fragId := UInt8.ofNat fragId, fragCount, data }

def fragLoop (profile : Profile) (message : UDPMessage) (maxPayloadSize : Nat)
    (hpos : 0 < maxPayloadSize) (fragCount : UInt8) (offset : Nat) (fragId : UInt8)
    (fragments : List UDPMessage) : Exec ε (List UDPMessage) :=
  if offset < message.data.length then do
    let payloadSize := min (message.data.length - offset) maxPayloadSize
    let data ← slice message.data offset (offset + payloadSize)
    let fragment := { message with fragId, fragCount, data }
    let nextId ← addU8 profile fragId 1
    fragLoop profile message maxPayloadSize hpos fragCount (offset + payloadSize) nextId
      (fragments ++ [fragment])
  else .ok fragments
termination_by message.data.length - offset
decreasing_by omega

def fragUdpMessage (profile : Profile) (message : UDPMessage) (maxSize : Nat) :
    Exec ε (List UDPMessage) := do
  if message.size ≤ maxSize then return [message]
  let maxPayloadSize ← subUsize profile maxSize message.headerSize
  if hzero : maxPayloadSize = 0 then throw (.panic .divisionByZero)
  else
    -- `as u8` keeps the low byte of the number of fragments.
    let fragCount := UInt8.ofNat (chunkCount message.data.length maxPayloadSize)
    fragLoop profile message maxPayloadSize (Nat.pos_of_ne_zero hzero) fragCount 0 0 []

def numbered (message : UDPMessage) (fragCount : UInt8) (pieces : List (List UInt8)) (i : Nat) :
    List UDPMessage :=
  (pieces.zipIdx i).map fun piece => message.fragment fragCount piece.1 piece.2

theorem ofNat_succ (i : Nat) : UInt8.ofNat i + 1 = UInt8.ofNat (i + 1) := by
  apply UInt8.toNat_inj.mp
  simp [UInt8.toNat_add, UInt8.toNat_ofNat']

theorem addU8_ofNat_one (profile : Profile) {i : Nat} (hi : profile.overflowChecks → i ≤ 255) :
    (addU8 profile (UInt8.ofNat i) 1 : Exec ε UInt8) =
      if profile.overflowChecks ∧ i = 255 then .error (.panic .arithmeticOverflow)
      else .ok (UInt8.ofNat (i + 1)) := by
  have hone : (1 : UInt8).toNat = 1 := rfl
  unfold addU8 overflow
  rw [ofNat_succ, hone, UInt8.toNat_ofNat']
  cases hchecks : profile.overflowChecks with
  | true =>
    have := hi hchecks
    by_cases h : i = 255
    · simp [h]
    · rw [if_pos (by omega), if_neg (by simp [h])]
  | false => simp

theorem fragLoop_step (profile : Profile) (message : UDPMessage) (maxPayloadSize : Nat)
    (hpos : 0 < maxPayloadSize) (fragCount : UInt8) {offset i : Nat} (fragments : List UDPMessage)
    (hi : profile.overflowChecks → i ≤ 255) (hoffset : offset < message.data.length) :
    (fragLoop profile message maxPayloadSize hpos fragCount offset (UInt8.ofNat i) fragments :
      Exec ε (List UDPMessage)) =
      if profile.overflowChecks ∧ i = 255 then .error (.panic .arithmeticOverflow)
      else fragLoop profile message maxPayloadSize hpos fragCount
        (offset + min (message.data.length - offset) maxPayloadSize) (UInt8.ofNat (i + 1))
        (fragments ++ [message.fragment fragCount
          ((message.data.drop offset).take maxPayloadSize) i]) := by
  rw [fragLoop, if_pos hoffset]
  dsimp only
  rw [slice_ok (by omega) (by omega), ok_bind, addU8_ofNat_one profile hi, slice_min]
  split
  · rfl
  · rfl

theorem fragLoop_eq (profile : Profile) (message : UDPMessage) (maxPayloadSize : Nat)
    (hpos : 0 < maxPayloadSize) (fragCount : UInt8) (offset i : Nat) (fragments : List UDPMessage)
    (hi : profile.overflowChecks → i ≤ 255) :
    (fragLoop profile message maxPayloadSize hpos fragCount offset (UInt8.ofNat i) fragments :
      Exec ε (List UDPMessage)) =
      if profile.overflowChecks ∧ 256 ≤ i + chunkCount (message.data.length - offset) maxPayloadSize
      then .error (.panic .arithmeticOverflow)
      else .ok (fragments ++ numbered message fragCount
        (chunks maxPayloadSize (message.data.drop offset)) i) := by
  induction hn : message.data.length - offset using Nat.strongRecOn generalizing offset i fragments with
  | _ n ih =>
    subst hn
    by_cases hoffset : offset < message.data.length
    · have hrest : 0 < (message.data.drop offset).length := by
        simp only [List.length_drop]
        omega
      have hcount := chunkCount_succ hpos (show 0 < message.data.length - offset by omega)
      have hleft : message.data.length - (offset + min (message.data.length - offset)
          maxPayloadSize) = message.data.length - offset - maxPayloadSize := by omega
      rw [fragLoop_step profile message maxPayloadSize hpos fragCount fragments hi hoffset]
      by_cases hover : profile.overflowChecks ∧ i = 255
      · rw [if_pos hover, if_pos ⟨hover.1, by omega⟩]
      · have hi' : profile.overflowChecks → i + 1 ≤ 255 := by
          intro h
          have := hi h
          have : i ≠ 255 := fun h' => hover ⟨h, h'⟩
          omega
        rw [if_neg hover, ih _ (by omega) _ _ _ hi' rfl, hleft, drop_min,
          chunks_eq_cons hpos hrest, hcount, Nat.add_right_comm, Nat.add_assoc i]
        simp only [numbered, List.zipIdx_cons, List.map_cons, List.append_assoc,
          List.singleton_append]
    · have hempty : message.data.drop offset = [] := List.drop_eq_nil_of_le (by omega)
      have hzero : message.data.length - offset = 0 := by omega
      have hsmall : ¬ (profile.overflowChecks ∧ 256 ≤ i + chunkCount 0 maxPayloadSize) := by
        rintro ⟨h, hle⟩
        have := hi h
        rw [chunkCount_zero] at hle
        omega
      rw [fragLoop, if_neg hoffset, hzero, if_neg hsmall, hempty, chunks_nil]
      simp [numbered]

@[simp] theorem length_numbered (message : UDPMessage) (fragCount : UInt8)
    (pieces : List (List UInt8)) (i : Nat) :
    (numbered message fragCount pieces i).length = pieces.length := by
  simp [numbered]

theorem getElem?_numbered (message : UDPMessage) (fragCount : UInt8)
    (pieces : List (List UInt8)) (i : Nat) :
    (numbered message fragCount pieces 0)[i]? =
      pieces[i]?.map fun data => message.fragment fragCount data i := by
  simp [numbered, Function.comp_def]

theorem eq_of_getElem?_numbered {message fragment : UDPMessage} {fragCount : UInt8}
    {pieces : List (List UInt8)} {i : Nat}
    (h : (numbered message fragCount pieces 0)[i]? = some fragment) :
    fragment = message.fragment fragCount fragment.data i := by
  rw [getElem?_numbered] at h
  obtain ⟨data, _, rfl⟩ := Option.map_eq_some_iff.mp h
  rfl

theorem map_data_numbered (message : UDPMessage) (fragCount : UInt8)
    (pieces : List (List UInt8)) :
    (numbered message fragCount pieces 0).map UDPMessage.data = pieces := by
  apply List.ext_getElem?
  intro i
  rw [List.getElem?_map, getElem?_numbered, Option.map_map]
  simp [UDPMessage.fragment, Function.comp_def]

theorem mem_numbered_chunks {message fragment : UDPMessage} {fragCount : UInt8} {k : Nat}
    (h : fragment ∈ numbered message fragCount (chunks k message.data) 0) :
    fragment.addr = message.addr ∧ fragment.data.length ≤ k := by
  obtain ⟨i, hi⟩ := List.mem_iff_getElem?.mp h
  rw [getElem?_numbered] at hi
  obtain ⟨data, hdata, rfl⟩ := Option.map_eq_some_iff.mp hi
  exact ⟨rfl, (length_le_of_mem_chunks (List.mem_of_getElem? hdata)).1⟩

theorem fragLoop_zero (profile : Profile) (message : UDPMessage) (k : Nat) (hpos : 0 < k)
    (fragCount : UInt8) :
    (fragLoop profile message k hpos fragCount 0 0 [] : Exec ε (List UDPMessage)) =
      if profile.overflowChecks ∧ 256 ≤ chunkCount message.data.length k
      then .error (.panic .arithmeticOverflow)
      else .ok (numbered message fragCount (chunks k message.data) 0) := by
  have hloop := fragLoop_eq (ε := ε) profile message k hpos fragCount 0 0 [] (by simp)
  simpa using hloop

/-- A message that does not fit is cut into numbered chunks or, where the
counters are checked and too small, not sent at all. -/
theorem fragUdpMessage_eq (profile : Profile) (message : UDPMessage) {maxSize : Nat}
    (hheader : message.headerSize < maxSize) (hsize : maxSize < message.size) :
    (fragUdpMessage profile message maxSize : Exec ε (List UDPMessage)) =
      if profile.overflowChecks ∧
        256 ≤ chunkCount message.data.length (maxSize - message.headerSize)
      then .error (.panic .arithmeticOverflow)
      else .ok (numbered message
        (UInt8.ofNat (chunkCount message.data.length (maxSize - message.headerSize)))
        (chunks (maxSize - message.headerSize) message.data) 0) := by
  have hpos : 0 < maxSize - message.headerSize := by omega
  unfold fragUdpMessage
  rw [if_neg (by omega)]
  refine (congrArg (· >>= _) (subUsize_ok profile hheader.le)).trans ?_
  rw [ok_bind, dif_neg hpos.ne']
  exact fragLoop_zero profile message _ hpos _

/-- What the fragmenter can return, for any size limit: the message itself or
its payload in numbered pieces. -/
theorem fragUdpMessage_cases {profile : Profile} {message : UDPMessage} {maxSize : Nat}
    {fragments : List UDPMessage}
    (h : (fragUdpMessage profile message maxSize : Exec ε (List UDPMessage)) = .ok fragments) :
    fragments = [message] ∨ ∃ pieces : List (List UInt8), pieces.flatten = message.data ∧
      fragments = numbered message (UInt8.ofNat fragments.length) pieces 0 := by
  unfold fragUdpMessage at h
  split at h
  · exact .inl (Except.ok.inj h).symm
  · obtain ⟨k, _, h⟩ := bind_eq_ok.mp h
    split at h
    · cases h
    · next hzero =>
      rw [fragLoop_zero] at h
      split at h
      · cases h
      · refine .inr ⟨chunks k message.data, flatten_chunks (Nat.pos_of_ne_zero hzero) _, ?_⟩
        rw [← Except.ok.inj h, length_numbered, length_chunks]

def Counted (fragments : List UDPMessage) : Prop :=
  fragments.length ≤ 255 ∧ ∀ (i : Nat) (fragment : UDPMessage), fragments[i]? = some fragment →
    fragment.fragId.toNat = i ∧ fragment.fragCount.toNat = fragments.length

theorem counted_numbered_iff (message : UDPMessage) (pieces : List (List UInt8)) :
    Counted (numbered message (UInt8.ofNat pieces.length) pieces 0) ↔ pieces.length ≤ 255 := by
  constructor
  · intro h
    simpa using h.1
  · intro hlen
    refine ⟨by simpa using hlen, ?_⟩
    intro i fragment hi
    have hlt : i < pieces.length := by
      simpa using (List.getElem?_eq_some_iff.mp hi).1
    rw [eq_of_getElem?_numbered hi, length_numbered]
    simp only [UDPMessage.fragment, UInt8.toNat_ofNat']
    omega

/-- The counters are right exactly where the message fits and is numbered 0 itself, or at
most 255 fragments are needed. -/
theorem fragUdpMessage_counted_iff (profile : Profile) (message : UDPMessage) (maxSize : Nat)
    (hone : message.fragCount = 1) (hheader : message.headerSize < maxSize) :
    (∃ fragments, (fragUdpMessage profile message maxSize : Exec Empty _) = .ok fragments ∧
      Counted fragments) ↔
      if message.size ≤ maxSize then message.fragId = 0
      else chunkCount message.data.length (maxSize - message.headerSize) ≤ 255 := by
  split
  · next hfits =>
    have hwhole : (fragUdpMessage profile message maxSize : Exec Empty _) = .ok [message] := by
      rw [fragUdpMessage, if_pos hfits]
      rfl
    simp only [hwhole, Except.ok.injEq, exists_eq_left']
    constructor
    · intro h
      exact UInt8.toNat_inj.mp (h.2 0 message rfl).1
    · intro hzero
      refine ⟨by simp, ?_⟩
      intro i fragment hi
      obtain ⟨rfl, rfl⟩ : i = 0 ∧ message = fragment := by simpa [List.getElem?_singleton] using hi
      simp [hzero, hone]
  · next hsize =>
    have hcounted := counted_numbered_iff message (chunks (maxSize - message.headerSize) message.data)
    rw [length_chunks] at hcounted
    rw [fragUdpMessage_eq profile message hheader (by omega), ← hcounted]
    split
    · next hover =>
      -- A build with checks panics; one without gets this far and counts wrong.
      refine iff_of_false (by simp) fun h => ?_
      have hfew : chunkCount message.data.length (maxSize - message.headerSize) ≤ 255 := hcounted.mp h
      omega
    · simp

theorem fragUdpMessage_counted_three :
    ∃ fragments, (fragUdpMessage ⟨true⟩ ⟨1, 7, 0, 1, "a", [1, 2, 3]⟩ 11 : Exec Empty _) = .ok fragments ∧
      Counted fragments :=
  (fragUdpMessage_counted_iff ⟨true⟩ ⟨1, 7, 0, 1, "a", [1, 2, 3]⟩ 11 rfl (by decide)).mpr (by decide)

def largestMessage : UDPMessage := ⟨1, 7, 0, 1, "a", List.replicate 65507 0⟩

/-- A peer that takes datagrams of 266 bytes makes 256 fragments necessary: a build with
overflow checks panics, one without says in each fragment that there are none. -/
theorem fragCount_wraps :
    (fragUdpMessage ⟨true⟩ largestMessage 266 : Exec Empty _) = .error (.panic .arithmeticOverflow) ∧
      ∃ fragments, (fragUdpMessage ⟨false⟩ largestMessage 266 : Exec Empty _) = .ok fragments ∧
        fragments.length = 256 ∧ ∀ fragment ∈ fragments, fragment.fragCount = 0 := by
  have hheader : largestMessage.headerSize = 10 := by decide
  have hlength : largestMessage.data.length = 65507 := List.length_replicate
  have hcount : chunkCount largestMessage.data.length (266 - largestMessage.headerSize) = 256 := by
    rw [hlength, hheader]
    rfl
  have hsize : 266 < largestMessage.size := by
    rw [UDPMessage.size_eq]
    omega
  rw [fragUdpMessage_eq ⟨true⟩ largestMessage (by omega) hsize, fragUdpMessage_eq ⟨false⟩ largestMessage (by omega) hsize,
    hcount]
  refine ⟨rfl, _, rfl, ?_, ?_⟩
  · rw [length_numbered, length_chunks, hcount]
  · intro fragment hmem
    obtain ⟨i, hi⟩ := List.mem_iff_getElem?.mp hmem
    rw [eq_of_getElem?_numbered hi]
    rfl

/-- A message together with a run of `frag_udp_message` that split it into a
number of fragments its one-byte counters can tell apart. -/
structure Split (profile : Profile) where
  message : UDPMessage
  maxSize : Nat
  fragments : List UDPMessage
  run : fragUdpMessage profile message maxSize = (.ok fragments : Exec Empty (List UDPMessage))
  two_le : 2 ≤ fragments.length
  le_255 : fragments.length ≤ 255

namespace Split

def ofSize (profile : Profile) (message : UDPMessage) (maxSize : Nat)
    (hheader : message.headerSize < maxSize) (hsize : maxSize < message.size)
    (hcount : chunkCount message.data.length (maxSize - message.headerSize) ≤ 255) :
    Split profile where
  message
  maxSize
  fragments := numbered message
    (UInt8.ofNat (chunkCount message.data.length (maxSize - message.headerSize)))
    (chunks (maxSize - message.headerSize) message.data) 0
  run := by
    rw [fragUdpMessage_eq profile message hheader hsize, if_neg (by omega)]
  two_le := by
    have hpos : 0 < maxSize - message.headerSize := by omega
    have hdata := message.size_eq
    rw [length_numbered, length_chunks, chunkCount_succ hpos (by omega),
      chunkCount_succ hpos (by omega)]
    omega
  le_255 := by
    rw [length_numbered, length_chunks]
    exact hcount

variable {profile : Profile} (split : Split profile)

def fragCount : UInt8 := UInt8.ofNat split.fragments.length

theorem toNat_fragCount : split.fragCount.toNat = split.fragments.length := by
  have := split.le_255
  rw [fragCount, UInt8.toNat_ofNat']
  omega

theorem exists_pieces : ∃ pieces : List (List UInt8), pieces.flatten = split.message.data ∧
    split.fragments = numbered split.message split.fragCount pieces 0 := by
  rcases fragUdpMessage_cases split.run with h | hpieces
  · have := split.two_le
    rw [h] at this
    simp at this
  · exact hpieces

theorem getElem?_eq {i : Nat} {fragment : UDPMessage} (h : split.fragments[i]? = some fragment) :
    fragment = split.message.fragment split.fragCount fragment.data i := by
  obtain ⟨pieces, _, hnumbered⟩ := split.exists_pieces
  rw [hnumbered] at h
  exact eq_of_getElem?_numbered h

theorem flatten_data :
    (split.fragments.map UDPMessage.data).flatten = split.message.data := by
  obtain ⟨pieces, hflatten, hnumbered⟩ := split.exists_pieces
  rw [hnumbered, map_data_numbered, hflatten]

end Split

end Hysteria.Core
