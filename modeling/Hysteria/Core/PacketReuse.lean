import Hysteria.Core.DefraggerRun
import Hysteria.Core.Frag
import Mathlib.Data.List.Perm.Subperm

/-! Packet ids drawn at random by `send_udp_message`. They are the only identity
a fragmented message has on the wire, so two messages can meet under one id; this
module says what a receiver returns then. -/
namespace Hysteria.Core
open Lib

/-- The packet id `rand::random::<u16>().max(1)` of a fragmented message. -/
def drawPacketId (random : UInt16) : UInt16 := max random 1

/-- A message of one session that `send_udp_message` fragmented, in a number of
fragments its one-byte counters can tell apart. -/
structure Fragmented (profile : Profile) (sessionId : UInt32) where
  message : UDPMessage
  random : UInt16
  maxSize : Nat
  fragments : List UDPMessage
  session_eq : message.sessionId = sessionId
  fragId_eq : message.fragId = 0
  fragCount_eq : message.fragCount = 1
  run : fragUdpMessage profile { message with packetId := drawPacketId random } maxSize =
    (.ok fragments : Exec Empty (List UDPMessage))
  le_255 : fragments.length ≤ 255

namespace Fragmented

variable {profile : Profile} {sessionId : UInt32} (send : Fragmented profile sessionId)

def sent : UDPMessage := { send.message with packetId := drawPacketId send.random }

theorem sent_eq : { send.sent with fragId := 0, fragCount := 1 } = send.sent := by
  simp only [sent, ← send.fragId_eq, ← send.fragCount_eq]

theorem exists_pieces : ∃ pieces : List (List UInt8), pieces.flatten = send.message.data ∧
    send.fragments = numbered send.sent (UInt8.ofNat send.fragments.length) pieces 0 := by
  rcases fragUdpMessage_cases send.run with h | hpieces
  · refine ⟨[send.message.data], by simp, ?_⟩
    rw [h]
    exact congrArg (fun message => [message]) send.sent_eq.symm
  · exact hpieces

theorem flatten_data : (send.fragments.map UDPMessage.data).flatten = send.message.data := by
  obtain ⟨pieces, hflatten, hnumbered⟩ := send.exists_pieces
  rw [hnumbered, map_data_numbered, hflatten]

theorem header {i : Nat} {fragment : UDPMessage} (h : send.fragments[i]? = some fragment) :
    fragment = send.sent.fragment (UInt8.ofNat send.fragments.length) fragment.data i := by
  obtain ⟨pieces, _, hnumbered⟩ := send.exists_pieces
  rw [hnumbered] at h
  exact eq_of_getElem?_numbered h

theorem toNat_fragCount {fragment : UDPMessage} (h : fragment ∈ send.fragments) :
    fragment.fragCount.toNat = send.fragments.length := by
  obtain ⟨i, hi⟩ := List.mem_iff_getElem?.mp h
  have hmax := send.le_255
  rw [send.header hi]
  simp only [UDPMessage.fragment, UInt8.toNat_ofNat']
  omega

theorem getElem?_fragId {fragment : UDPMessage} (h : fragment ∈ send.fragments) :
    send.fragments[fragment.fragId.toNat]? = some fragment := by
  obtain ⟨i, hi⟩ := List.mem_iff_getElem?.mp h
  have hlt : i < send.fragments.length := (List.getElem?_eq_some_iff.mp hi).1
  have hmax := send.le_255
  have hid : fragment.fragId.toNat = i := by
    rw [send.header hi]
    simp only [UDPMessage.fragment, UInt8.toNat_ofNat']
    omega
  rw [hid]
  exact hi

theorem eq_fragments {parts : List UDPMessage} (hlength : parts.length = send.fragments.length)
    (hid : ∀ (i : Nat) (part : UDPMessage), parts[i]? = some part → part.fragId.toNat = i)
    (hmem : ∀ part ∈ parts, part ∈ send.fragments) : parts = send.fragments := by
  apply List.ext_getElem?
  intro i
  cases hi : parts[i]? with
  | none =>
    rw [List.getElem?_eq_none]
    rw [← hlength]
    exact List.getElem?_eq_none_iff.mp hi
  | some part =>
    have hpart := send.getElem?_fragId (hmem part (List.mem_of_getElem? hi))
    rw [hid i part hi] at hpart
    exact hpart.symm

theorem restore {fragment : UDPMessage} (h : fragment ∈ send.fragments) :
    { fragment with data := send.message.data, fragId := 0, fragCount := 1 } = send.sent := by
  obtain ⟨i, hi⟩ := List.mem_iff_getElem?.mp h
  rw [send.header hi]
  exact send.sent_eq

theorem packetId_eq {fragment : UDPMessage} (h : fragment ∈ send.fragments) :
    fragment.packetId = send.sent.packetId := by
  obtain ⟨i, hi⟩ := List.mem_iff_getElem?.mp h
  rw [send.header hi]
  rfl

/-- Two messages whose fragments a receiver cannot tell apart. -/
def Confusable (send other : Fragmented profile sessionId) : Prop :=
  send.sent.packetId = other.sent.packetId ∧ send.message.addr = other.message.addr ∧
    send.fragments.length = other.fragments.length

theorem confusable_of_samePacket {send other : Fragmented profile sessionId}
    {fragment part : UDPMessage} (hfragment : fragment ∈ send.fragments)
    (hpart : part ∈ other.fragments) (hsame : part.SamePacket fragment) :
    send.Confusable other := by
  obtain ⟨i, hi⟩ := List.mem_iff_getElem?.mp hfragment
  obtain ⟨j, hj⟩ := List.mem_iff_getElem?.mp hpart
  obtain ⟨hpacket, _, haddr, hcount⟩ := hsame
  refine ⟨?_, ?_, ?_⟩
  · rw [send.header hi, other.header hj] at hpacket
    exact hpacket.symm
  · rw [send.header hi, other.header hj] at haddr
    exact haddr.symm
  · rw [← send.toNat_fragCount hfragment, ← other.toNat_fragCount hpart, hcount]

theorem sent_of_single {fragment : UDPMessage} (h : fragment ∈ send.fragments)
    (hone : fragment.fragCount ≤ 1) : fragment = send.sent := by
  have hlength : send.fragments.length = 1 := by
    have hpos := List.length_pos_of_mem h
    have hle : fragment.fragCount.toNat ≤ 1 := hone
    rw [send.toNat_fragCount h] at hle
    omega
  obtain ⟨only, honly⟩ := List.length_eq_one_iff.mp hlength
  have hdata := send.flatten_data
  rw [honly] at h hdata
  obtain rfl := List.mem_singleton.mp h
  have hget : send.fragments[0]? = some fragment := by
    rw [honly]
    rfl
  rw [send.header hget, hlength]
  simp only [List.map_cons, List.map_nil, List.flatten_cons, List.flatten_nil,
    List.append_nil] at hdata
  rw [hdata]
  exact send.sent_eq

end Fragmented

section
variable {profile : Profile} {sessionId : UInt32}

/-- Two confusable messages of the sequence under the packet id, a fragment of each among `window`. -/
def Collision (sends : List (Fragmented profile sessionId)) (packetId : UInt16) (window : List UDPMessage) : Prop :=
  ∃ (i j : Nat) (send other : Fragmented profile sessionId), i ≠ j ∧ sends[i]? = some send ∧
    sends[j]? = some other ∧ send.sent.packetId = packetId ∧ send.Confusable other ∧
    (∃ fragment ∈ send.fragments, fragment ∈ window) ∧ ∃ fragment ∈ other.fragments, fragment ∈ window

/-- Parts of one packet are the fragments of one message, or two messages collided. -/
theorem parts_whole_or_collision {sends : List (Fragmented profile sessionId)}
    {window parts : List UDPMessage} {message : UDPMessage} (hcount : 1 < message.fragCount)
    (hlength : parts.length = message.fragCount.toNat)
    (hid : ∀ (i : Nat) (part : UDPMessage), parts[i]? = some part → part.fragId.toNat = i)
    (hsame : ∀ part ∈ parts, part.SamePacket message) (hwindow : ∀ part ∈ parts, part ∈ window)
    (hsent : ∀ part ∈ parts, ∃ send ∈ sends, part ∈ send.fragments) :
    (∃ send ∈ sends, { message with
        data := (parts.map UDPMessage.data).flatten, fragId := 0, fragCount := 1 } = send.sent) ∨
      Collision sends message.packetId window := by
  obtain ⟨first, hfirst⟩ : ∃ first, first ∈ parts := by
    apply List.exists_mem_of_length_pos
    have hlt : 1 < message.fragCount.toNat := hcount
    omega
  obtain ⟨send, hsend, hfragment⟩ := hsent first hfirst
  obtain ⟨hpacket, hsession, haddr, hcount_eq⟩ := hsame first hfirst
  by_cases hall : ∀ part ∈ parts, part ∈ send.fragments
  · left
    have hparts : parts = send.fragments := by
      apply send.eq_fragments _ hid hall
      rw [hlength, ← hcount_eq, send.toNat_fragCount hfragment]
    refine ⟨send, hsend, ?_⟩
    rw [hparts, send.flatten_data, ← hpacket, ← hsession, ← haddr]
    exact send.restore hfragment
  · right
    push Not at hall
    obtain ⟨part, hpart, hnot⟩ := hall
    obtain ⟨other, hother, hmem⟩ := hsent part hpart
    obtain ⟨i, hi⟩ := List.mem_iff_getElem?.mp hsend
    obtain ⟨j, hj⟩ := List.mem_iff_getElem?.mp hother
    refine ⟨i, j, send, other, ?_, hi, hj, ?_, ?_, ⟨first, hfragment, hwindow first hfirst⟩,
      part, hmem, hwindow part hpart⟩
    · rintro rfl
      obtain rfl := Option.some.inj (hi.symm.trans hj)
      exact hnot hmem
    · rw [← hpacket, send.packetId_eq hfragment]
    · obtain ⟨hpacket', hsession', haddr', hcount'⟩ := hsame part hpart
      exact Fragmented.confusable_of_samePacket hfragment hmem ⟨hpacket'.trans hpacket.symm,
        hsession'.trans hsession.symm, haddr'.trans haddr.symm, hcount'.trans hcount_eq.symm⟩

/-- Whatever is delivered of what one sender fragmented, a receiver returns whole
messages only, except where two messages collided: same packet id, address and
number of fragments, and fragments of both delivered since that packet id was
last reassembled. -/
theorem returned_whole_or_collision (receiver : Profile)
    (sends : List (Fragmented profile sessionId)) (delivered : List UDPMessage)
    (hdelivered : delivered ⊆ sends.flatMap Fragmented.fragments) :
    ∃ log d, log.map Prod.fst = delivered ∧
      (Defragger.empty.feedAll receiver delivered : Exec Empty _) = .ok (log.map Prod.snd, d) ∧
      ∀ (before after : Defragger.Log) (message result : UDPMessage),
        log = before ++ (message, some result) :: after →
        (∃ send ∈ sends, result = send.sent) ∨
          Collision sends message.packetId (Defragger.recent message.packetId before ++ [message]) := by
  obtain ⟨log, d, hlog, hfeeds, hall⟩ :=
    Defragger.feedAll_feeds (ε := Empty) Defragger.empty_inv receiver delivered
  refine ⟨log, d, hlog, hall, ?_⟩
  rintro before after message result rfl
  have hsent : ∀ fragment ∈ Defragger.recent message.packetId before ++ [message],
      ∃ send ∈ sends, fragment ∈ send.fragments := by
    intro fragment hfragment
    apply List.mem_flatMap.mp
    apply hdelivered
    rw [← hlog, List.map_append, List.map_cons, List.mem_append]
    rcases List.mem_append.mp hfragment with hrecent | hmessage
    · exact .inl (Defragger.recent_subset _ _ hrecent)
    · exact .inr (List.mem_cons.mpr (.inl (List.mem_singleton.mp hmessage)))
  rcases hfeeds.origin with ⟨hone, rfl⟩ | ⟨hcount, parts, hlength, hpart, rfl⟩
  · obtain ⟨send, hsend, hfragment⟩ := hsent result (by simp)
    exact .inl ⟨send, hsend, send.sent_of_single hfragment hone⟩
  · have hwindow : ∀ part ∈ parts,
        part ∈ Defragger.recent message.packetId before ++ [message] := by
      intro part hmem
      obtain ⟨i, hi⟩ := List.mem_iff_getElem?.mp hmem
      rcases (hpart i part hi).2.2 with rfl | hrecent
      · simp
      · exact List.mem_append_left _ hrecent
    have hsame : ∀ part ∈ parts, part.SamePacket message := by
      intro part hmem
      obtain ⟨i, hi⟩ := List.mem_iff_getElem?.mp hmem
      exact (hpart i part hi).2.1
    exact parts_whole_or_collision hcount hlength (fun i part hi => (hpart i part hi).1) hsame
      hwindow fun part hmem => hsent part (hwindow part hmem)

end

def fourBytes (a b c d : UInt8) : Fragmented ⟨false⟩ 7 where
  message := ⟨7, 0, 0, 1, "a:1", [a, b, c, d]⟩
  random := 5
  maxSize := 14
  fragments := [⟨7, 5, 0, 2, "a:1", [a, b]⟩, ⟨7, 5, 1, 2, "a:1", [c, d]⟩]
  session_eq := rfl
  fragId_eq := rfl
  fragCount_eq := rfl
  run := by
    rw [fragUdpMessage_eq _ _ (show 12 < 14 by decide) (show 14 < 16 by decide), if_neg (by simp)]
    have hheader (packetId : UInt16) :
        UDPMessage.headerSize ⟨7, packetId, 0, 1, "a:1", [a, b, c, d]⟩ = 12 := rfl
    have hid : drawPacketId 5 = 5 := by decide
    simp [hheader, hid, numbered, chunks, chunkCount, UDPMessage.fragment, List.range_succ]
  le_255 := by simp

theorem returned_whole_or_collision_reversed :
    ∃ log d, log.map Prod.fst = (fourBytes 1 2 3 4).fragments.reverse ∧
      (Defragger.empty.feedAll ⟨true⟩ (fourBytes 1 2 3 4).fragments.reverse : Exec Empty _) =
        .ok (log.map Prod.snd, d) ∧
      ∀ (before after : Defragger.Log) (message result : UDPMessage),
        log = before ++ (message, some result) :: after →
        (∃ send ∈ [fourBytes 1 2 3 4, fourBytes 5 6 7 8], result = send.sent) ∨
          Collision [fourBytes 1 2 3 4, fourBytes 5 6 7 8] message.packetId
            (Defragger.recent message.packetId before ++ [message]) :=
  returned_whole_or_collision ⟨true⟩ [fourBytes 1 2 3 4, fourBytes 5 6 7 8] _ (by decide)

/-- The second fragment of one message and the first of another are lost, and
what remains is returned as a message nobody sent. -/
theorem fragments_mixed :
    ∃ (sends : List (Fragmented ⟨false⟩ 7)) (delivered : List UDPMessage),
      delivered.Subperm (sends.flatMap Fragmented.fragments) ∧
      ∃ outs d result, (Defragger.empty.feedAll ⟨false⟩ delivered : Exec Empty _) = .ok (outs, d) ∧
        some result ∈ outs ∧ ∀ send ∈ sends, result.data ≠ send.message.data := by
  refine ⟨[fourBytes 1 2 3 4, fourBytes 5 6 7 8],
    [⟨7, 5, 0, 2, "a:1", [1, 2]⟩, ⟨7, 5, 1, 2, "a:1", [7, 8]⟩], ?_, ?_⟩
  · apply List.Sublist.subperm
    decide
  · exact ⟨_, _, ⟨7, 5, 0, 1, "a:1", [1, 2, 7, 8]⟩, rfl, by decide, by decide⟩

end Hysteria.Core
