import Hysteria.Core.UdpMessageCodec
import Hysteria.Core.UdpTunnel

/-! What a receiver can return of what it was given. A packet in one message stands for itself,
a packet in fragments is accounted for by the first of them: no call of `feed` returns more
packets than the first fragments it takes out of the `Defragger`, with the one it is given. -/
namespace Hysteria.Core
open Lib

namespace Defragger

def head (d : Defragger) (id : UInt16) : Option UDPMessage :=
  (d.packets.get id).bind fun state => state.fragments[0]?.join

def heads (d : Defragger) : List UDPMessage := d.order.filterMap d.head

theorem head_eq_some_iff {d : Defragger} {id : UInt16} {fragment : UDPMessage} :
    d.head id = some fragment ↔ ∃ state, d.packets.get id = some state ∧ state.fragments[0]? = some (some fragment) := by
  simp [head, Option.bind_eq_some_iff, Option.join_eq_some_iff]

theorem head_removePacket {d : Defragger} {id other : UInt16} (h : other ≠ id) :
    (d.removePacket id).head other = d.head other := by
  simp only [head, removePacket, PartialMap.get_remove_of_ne _ h]

theorem heads_removePacket {d : Defragger} (hinv : d.Inv) (id : UInt16) :
    (d.removePacket id).heads = (d.order.erase id).filterMap d.head := by
  refine List.filterMap_congr fun other hother => head_removePacket ?_
  rintro rfl
  exact hinv.indexed.nodup.not_mem_erase hother

theorem perm_heads {d : Defragger} (hinv : d.Inv) (id : UInt16) :
    d.heads.Perm ((d.head id).toList ++ (d.removePacket id).heads) := by
  rw [heads_removePacket hinv]
  by_cases hmem : id ∈ d.order
  · have hperm := (List.perm_cons_erase hmem).filterMap d.head
    rw [List.filterMap_cons] at hperm
    cases hhead : d.head id with
    | none => simpa [heads, hhead] using hperm
    | some fragment => simpa [heads, hhead] using hperm
  · have hnone : d.head id = none := by
      rw [hinv.indexed.keys, Option.not_isSome_iff_eq_none] at hmem
      rw [head, hmem]
      rfl
    rw [hnone, List.erase_of_not_mem hmem]
    rfl

theorem sublist_heads_evict {packets : PartialMap UInt16 PacketState} {order : List UInt16} (h : order.Nodup) :
    (evict packets order).heads.Sublist (heads ⟨packets, order⟩) := by
  induction order generalizing packets with
  | nil => exact .refl _
  | cons oldest order ih =>
    rw [evict]
    split
    · obtain ⟨hnot, hrest⟩ := List.nodup_cons.mp h
      have hsame : heads ⟨packets.remove oldest, order⟩ = order.filterMap (head ⟨packets, oldest :: order⟩) := by
        refine List.filterMap_congr fun id hid => ?_
        have hne : id ≠ oldest := by
          rintro rfl
          exact hnot hid
        simp only [head, PartialMap.get_remove_of_ne _ hne]
      refine (ih hrest).trans ?_
      rw [hsame]
      exact (List.sublist_cons_self oldest order).filterMap _
    · exact .refl _

theorem perm_heads_insert {d : Defragger} {id : UInt16} {state : PacketState}
    (hafter : Inv ⟨d.packets.insert id state, d.order⟩) :
    (heads ⟨d.packets.insert id state, d.order⟩).Perm (state.fragments[0]?.join.toList ++ (d.removePacket id).heads) := by
  have hperm := perm_heads hafter id
  have hremoved : removePacket ⟨d.packets.insert id state, d.order⟩ id = d.removePacket id := by
    simp only [removePacket, PartialMap.remove_insert]
  have hhead : head ⟨d.packets.insert id state, d.order⟩ id = state.fragments[0]?.join := by
    simp [head]
  rwa [hremoved, hhead] at hperm

theorem sublist_first (message : UDPMessage) :
    ((PacketState.first message).fragments[0]?.join.toList).Sublist [message] := by
  rw [PacketState.first, List.getElem?_set]
  split_ifs
  · exact .refl _
  · exact List.nil_sublist _
  · rw [List.getElem?_replicate]
    split_ifs <;> exact List.nil_sublist _

theorem sublist_fill (state : PacketState) (message : UDPMessage) :
    ((state.fill message).fragments[0]?.join.toList).Sublist (state.fragments[0]?.join.toList ++ [message]) := by
  rw [PacketState.fill, List.getElem?_set]
  split_ifs
  · exact List.sublist_append_right _ _
  · exact List.nil_sublist _
  · exact List.sublist_append_left _ _

theorem exists_heads_started {d : Defragger} (hinv : d.Inv) (message : UDPMessage) :
    ∃ kept, (d.started message).heads = kept ++ (PacketState.first message).fragments[0]?.join.toList ∧
      kept.Sublist (d.removePacket message.packetId).heads := by
  have hremoved := hinv.indexed.remove message.packetId
  refine ⟨(evict (d.packets.remove message.packetId) (d.order.erase message.packetId)).heads, ?_,
    sublist_heads_evict hremoved.nodup⟩
  rw [heads, heads, started, List.filterMap_append]
  congr 1
  · refine List.filterMap_congr fun id hid => ?_
    have hne : id ≠ message.packetId := by
      rintro rfl
      exact hinv.indexed.nodup.not_mem_erase ((evict_spec hremoved).2.2 _ hid)
    simp only [head, PartialMap.get_insert_of_ne _ hne]
  · simp only [List.filterMap_cons, List.filterMap_nil, head, PartialMap.get_insert_self, Option.bind_some]
    cases (PacketState.first message).fragments[0]?.join <;> rfl

def Stores (P : UDPMessage → Prop) (d : Defragger) : Prop :=
  ∀ (id : UInt16) (state : PacketState) (i : Nat) (fragment : UDPMessage), d.packets.get id = some state →
    state.fragments[i]? = some (some fragment) → P fragment

theorem stores_empty (P : UDPMessage → Prop) : empty.Stores P := nofun

theorem FeedStep.stores {P : UDPMessage → Prop} {self after : Defragger} {message : UDPMessage} {out : Option UDPMessage}
    (hstep : FeedStep self message out after) (h : self.Stores P) (hmessage : P message) : after.Stores P := by
  intro id state i fragment hstate hslot
  rcases (hstep.slot hstate hslot).2 with rfl | ⟨old, hold, hfilled⟩
  · exact hmessage
  · exact h id old i fragment hold hfilled

theorem FeedStep.sessionId_eq {self after : Defragger} {message result : UDPMessage}
    (hstep : FeedStep self message (some result) after) : result.sessionId = message.sessionId := by
  cases hstep <;> rfl

end Defragger

def UDPMessage.packet (message : UDPMessage) : Packet := ⟨message.sessionId, message.addr, message.data⟩

def UDPMessage.key (message : UDPMessage) : UInt32 × UInt16 × String × Nat :=
  (message.sessionId, message.packetId, message.addr, message.fragCount.toNat)

namespace Cut

def key (cut : Cut) : UInt32 × UInt16 × String × Nat :=
  (cut.packet.sessionId, drawPacketId cut.random, cut.packet.addr, cut.fragments.length)

def Made (profile : Profile) (cut : Cut) : Prop :=
  fragUdpMessage profile { cut.packet.message with packetId := drawPacketId cut.random } cut.maxSize =
    (.ok cut.fragments : Exec Empty _)

def fragmented {profile : Profile} {cut : Cut} (hmade : cut.Made profile) (hle : cut.fragments.length ≤ 255) :
    Fragmented profile cut.packet.sessionId where
  message := cut.packet.message
  random := cut.random
  maxSize := cut.maxSize
  fragments := cut.fragments
  session_eq := rfl
  fragId_eq := rfl
  fragCount_eq := rfl
  run := hmade
  le_255 := hle

end Cut

/-- No two fragmented packets have the same session, packet id, address and number of
fragments, and that number fits its byte. -/
structure Distinct (cuts : List Cut) : Prop where
  keys : (cuts.map Cut.key).Nodup
  le_255 : ∀ cut ∈ cuts, cut.fragments.length ≤ 255

theorem distinct_of_keys {cuts : List Cut} {keys : List (UInt32 × UInt16 × String × Nat)} (h : cuts.map Cut.key = keys)
    (hnodup : keys.Nodup) (hle : ∀ key ∈ keys, key.2.2.2 ≤ 255) : Distinct cuts where
  keys := h ▸ hnodup
  le_255 cut hcut := hle cut.key (h ▸ List.mem_map_of_mem hcut)

/-- The packet a message accounts for: its own if it is not a fragment, and the packet it was
cut from if it is the first one. -/
def carries (cuts : List Cut) (message : UDPMessage) : Option Packet :=
  if message.fragCount ≤ 1 then some message.packet
  else if message.fragId = 0 then (cuts.find? fun cut => cut.key = message.key).map Cut.packet
  else none

def carried (cuts : List Cut) (messages : List UDPMessage) : List Packet := messages.filterMap (carries cuts)

def Known (cuts : List Cut) (message : UDPMessage) : Prop :=
  1 < message.fragCount → ∃ cut ∈ cuts, message ∈ cut.fragments

theorem carried_append (cuts : List Cut) (messages more : List UDPMessage) :
    carried cuts (messages ++ more) = carried cuts messages ++ carried cuts more := List.filterMap_append

theorem count_carried_append (cuts : List Cut) (messages more : List UDPMessage) (packet : Packet) :
    (carried cuts (messages ++ more)).count packet =
      (carried cuts messages).count packet + (carried cuts more).count packet := by
  rw [carried_append, List.count_append]

theorem count_carried_perm (cuts : List Cut) {messages others : List UDPMessage} (h : messages.Perm others)
    (packet : Packet) : (carried cuts messages).count packet = (carried cuts others).count packet :=
  (h.filterMap (carries cuts)).count_eq packet

theorem count_carried_sublist (cuts : List Cut) {messages others : List UDPMessage} (h : messages.Sublist others)
    (packet : Packet) : (carried cuts messages).count packet ≤ (carried cuts others).count packet :=
  (h.filterMap (carries cuts)).count_le packet

theorem carries_single (cuts : List Cut) {message : UDPMessage} (h : message.fragCount ≤ 1) :
    carries cuts message = some message.packet := if_pos h

theorem carries_later (cuts : List Cut) {message : UDPMessage} (hcount : 1 < message.fragCount)
    (hid : message.fragId ≠ 0) : carries cuts message = none := by
  rw [carries, if_neg (UInt8.not_le.mpr hcount), if_neg hid]

theorem Distinct.find_key {cuts : List Cut} (h : Distinct cuts) {cut : Cut} (hcut : cut ∈ cuts) {message : UDPMessage}
    (hkey : message.key = cut.key) : cuts.find? (fun cut => cut.key = message.key) = some cut := by
  cases hfind : cuts.find? fun cut => cut.key = message.key with
  | none =>
    have hnone := List.find?_eq_none.mp hfind cut hcut
    simp [hkey] at hnone
  | some found =>
    have hfound : found.key = message.key := by simpa using List.find?_some hfind
    rw [List.inj_on_of_nodup_map h.keys (List.mem_of_find?_eq_some hfind) hcut (hfound.trans hkey)]

section
variable {profile : Profile} {cuts : List Cut} (hmade : ∀ cut ∈ cuts, cut.Made profile) (hdistinct : Distinct cuts)
include hmade hdistinct

theorem key_of_mem {cut : Cut} (hcut : cut ∈ cuts) {fragment : UDPMessage} (h : fragment ∈ cut.fragments) :
    fragment.key = cut.key := by
  let send := Cut.fragmented (hmade cut hcut) (hdistinct.le_255 cut hcut)
  obtain ⟨i, hi⟩ := List.mem_iff_getElem?.mp h
  have hheader := send.header hi
  have hcount := send.toNat_fragCount h
  rw [UDPMessage.key, hcount, hheader]
  rfl

theorem carries_first {cut : Cut} (hcut : cut ∈ cuts) {fragment : UDPMessage} (h : fragment ∈ cut.fragments)
    (hcount : 1 < fragment.fragCount) (hid : fragment.fragId = 0) : carries cuts fragment = some cut.packet := by
  rw [carries, if_neg (UInt8.not_le.mpr hcount), if_pos hid,
    hdistinct.find_key hcut (key_of_mem hmade hdistinct hcut h)]
  rfl

theorem carried_fragments {cut : Cut} (hcut : cut ∈ cuts) : (carried cuts cut.fragments).Sublist [cut.packet] := by
  let send := Cut.fragmented (hmade cut hcut) (hdistinct.le_255 cut hcut)
  have hid : ∀ (i : Nat) (fragment : UDPMessage), cut.fragments[i]? = some fragment → fragment.fragId.toNat = i := by
    intro i fragment hi
    have hlt := (List.getElem?_eq_some_iff.mp hi).1
    have hmax := hdistinct.le_255 cut hcut
    rw [send.header hi]
    simp only [UDPMessage.fragment, UInt8.toNat_ofNat']
    omega
  match hfragments : cut.fragments with
  | [] => exact List.nil_sublist _
  | first :: rest =>
    have hfirst : first ∈ cut.fragments := by rw [hfragments]; exact List.mem_cons_self
    have hzero : first.fragId = 0 := UInt8.toNat_inj.mp (hid 0 first (by rw [hfragments]; rfl))
    have hlength := send.toNat_fragCount hfirst
    change first.fragCount.toNat = cut.fragments.length at hlength
    rw [hfragments, List.length_cons] at hlength
    have hhead : carries cuts first = some cut.packet := by
      by_cases hone : first.fragCount ≤ 1
      · rw [carries_single cuts hone, send.sent_of_single hfirst hone]
        rfl
      · exact carries_first hmade hdistinct hcut hfirst (UInt8.not_le.mp hone) hzero
    have hrest : carried cuts rest = [] := by
      refine List.filterMap_eq_nil_iff.mpr fun fragment hfragment => ?_
      obtain ⟨i, hi⟩ := List.mem_iff_getElem?.mp hfragment
      have hlater : cut.fragments[i + 1]? = some fragment := by rw [hfragments]; exact hi
      have hmem : fragment ∈ cut.fragments := List.mem_of_getElem? hlater
      have hcount : fragment.fragCount.toNat = cut.fragments.length := send.toNat_fragCount hmem
      rw [hfragments, List.length_cons] at hcount
      have hpos := List.length_pos_of_mem hfragment
      refine carries_later cuts (show 1 < fragment.fragCount.toNat by omega) fun hsame => ?_
      have hnumber := hid (i + 1) fragment hlater
      rw [hsame] at hnumber
      cases hnumber
    rw [carried, List.filterMap_cons, hhead]
    change (cut.packet :: carried cuts rest).Sublist [cut.packet]
    rw [hrest]

theorem reassembled_packet {message : UDPMessage} {parts : List UDPMessage} (hcount : 1 < message.fragCount)
    (hlength : parts.length = message.fragCount.toNat)
    (hid : ∀ (i : Nat) (part : UDPMessage), parts[i]? = some part → part.fragId.toNat = i)
    (hsame : ∀ part ∈ parts, part.SamePacket message) (hknown : ∀ part ∈ parts, Known cuts part) :
    ∃ first, parts[0]? = some first ∧
      carries cuts first = some ⟨message.sessionId, message.addr, (parts.map UDPMessage.data).flatten⟩ := by
  have hmany : 1 < message.fragCount.toNat := hcount
  obtain ⟨first, hfirst⟩ : ∃ first, parts[0]? = some first :=
    ⟨_, List.getElem?_eq_getElem (show 0 < parts.length by omega)⟩
  have hkey : ∀ part ∈ parts, part.key = message.key := by
    intro part hpart
    obtain ⟨hpacket, hsession, haddr, hcounts⟩ := hsame part hpart
    simp only [UDPMessage.key, hpacket, hsession, haddr, hcounts]
  have hcut : ∀ part ∈ parts, ∃ cut ∈ cuts, part ∈ cut.fragments := by
    intro part hpart
    refine hknown part hpart ?_
    rw [(hsame part hpart).2.2.2]
    exact hcount
  have hmem := List.mem_of_getElem? hfirst
  obtain ⟨cut, hcuts, hfragment⟩ := hcut first hmem
  have hall : ∀ part ∈ parts, part ∈ cut.fragments := by
    intro part hpart
    obtain ⟨other, hother, hin⟩ := hcut part hpart
    have hkeys : other.key = cut.key := by
      rw [← key_of_mem hmade hdistinct hother hin, ← key_of_mem hmade hdistinct hcuts hfragment, hkey part hpart,
        hkey first hmem]
    rwa [← List.inj_on_of_nodup_map hdistinct.keys hother hcuts hkeys]
  let send := Cut.fragmented (hmade cut hcuts) (hdistinct.le_255 cut hcuts)
  have hparts : parts = cut.fragments := by
    refine send.eq_fragments ?_ hid hall
    rw [hlength, ← (hsame first hmem).2.2.2, send.toNat_fragCount hfragment]
  have hpacket : cut.packet = ⟨message.sessionId, message.addr, (parts.map UDPMessage.data).flatten⟩ := by
    have hsession := congrArg Prod.fst (key_of_mem hmade hdistinct hcuts hfragment)
    have haddr := congrArg (fun key => key.2.2.1) (key_of_mem hmade hdistinct hcuts hfragment)
    have hdata : (cut.fragments.map UDPMessage.data).flatten = cut.packet.data := send.flatten_data
    rw [hparts, hdata, ← (hsame first hmem).2.1, ← (hsame first hmem).2.2.1]
    exact congrArg₂ (fun sessionId addr => Packet.mk sessionId addr cut.packet.data) hsession.symm haddr.symm
  refine ⟨first, hfirst, ?_⟩
  rw [← hpacket]
  refine carries_first hmade hdistinct hcuts hfragment ?_ (UInt8.toNat_inj.mp (hid 0 first hfirst))
  rw [(hsame first hmem).2.2.2]
  exact hcount

/-- A call of `feed` returns no packet that was not accounted for, and none twice. -/
theorem feed_ledger {d after : Defragger} {message : UDPMessage} {out : Option UDPMessage} (hinv : d.Inv)
    (hstores : d.Stores (Known cuts)) (hknown : Known cuts message) (hstep : d.FeedStep message out after)
    (packet : Packet) :
    (out.toList.map UDPMessage.packet).count packet + (carried cuts after.heads).count packet ≤
      (carried cuts d.heads).count packet + (carried cuts [message]).count packet := by
  -- The packet of the message apart, the first fragments stay or are evicted.
  have hsplit := count_carried_perm cuts (Defragger.perm_heads hinv message.packetId) packet
  rw [count_carried_append] at hsplit
  have hafter := hstep.inv hinv
  cases hstep with
  | passThrough hone =>
    simp [carried, carries_single cuts hone]
    omega
  | reject => simp
  | duplicate => simp
  | start hfrag =>
    obtain ⟨kept, hheads, hkept⟩ := Defragger.exists_heads_started hinv message
    have hfirst := count_carried_sublist cuts (Defragger.sublist_first message) packet
    have hrest := count_carried_sublist cuts hkept packet
    rw [hheads, count_carried_append]
    simp only [Option.toList_none, List.map_nil, List.count_nil]
    omega
  | @fill state hfrag hstate hmatch hslot hmore =>
    have hheads := count_carried_perm cuts (Defragger.perm_heads_insert hafter) packet
    have hfilled := count_carried_sublist cuts (Defragger.sublist_fill state message) packet
    have hhead : d.head message.packetId = state.fragments[0]?.join := by
      rw [Defragger.head, hstate]
      rfl
    rw [count_carried_append] at hheads hfilled
    rw [hhead] at hsplit
    simp only [Option.toList_none, List.map_nil, List.count_nil]
    omega
  | @complete state hfrag hstate hmatch hslot hlast =>
    obtain ⟨state', parts, hstate', hparts, hresult⟩ :=
      Defragger.FeedStep.parts hinv (.complete hfrag hstate hmatch hslot hlast) hfrag.1
    obtain rfl := Option.some.inj (hstate.symm.trans hstate')
    have hpart : ∀ part ∈ parts, part.SamePacket message ∧ Known cuts part := by
      intro part hmem
      obtain ⟨i, hi⟩ := List.mem_iff_getElem?.mp hmem
      obtain ⟨-, hsame, hfrom⟩ := hparts.part i part hi
      refine ⟨hsame, ?_⟩
      rcases hfrom with rfl | hstored
      · exact hknown
      · exact hstores _ _ _ _ hstate hstored
    obtain ⟨first, hfirst, hcarries⟩ := reassembled_packet hmade hdistinct hfrag.1 hparts.length_eq
      (fun i part hi => (hparts.part i part hi).1) (fun part hmem => (hpart part hmem).1) fun part hmem => (hpart part hmem).2
    have hone (fragment : UDPMessage) : carried cuts [fragment] = (carries cuts fragment).toList := by
      rw [carried, List.filterMap_cons]
      cases carries cuts fragment <;> rfl
    have hout : (Option.some (Defragger.reassembled (state.fill message) message)).toList.map UDPMessage.packet =
        carried cuts [first] := by
      rw [hresult, hone, hcarries]
      rfl
    rw [hout]
    rcases (hparts.part 0 first hfirst).2.2 with rfl | hstored
    · omega
    · rw [Defragger.head_eq_some_iff.mpr ⟨state, hstate, hstored⟩, Option.toList_some] at hsplit
      omega

end
def parsed (datagrams : List (List UInt8)) : List UDPMessage :=
  datagrams.filterMap fun bytes => (parseUdpMessage bytes).toOption

theorem parsed_append (datagrams more : List (List UInt8)) : parsed (datagrams ++ more) = parsed datagrams ++ parsed more :=
  List.filterMap_append

theorem parsed_sublist {datagrams others : List (List UInt8)} (h : datagrams.Sublist others) :
    (parsed datagrams).Sublist (parsed others) := h.filterMap _

theorem parsed_singleton {bytes : List UInt8} {message : UDPMessage} (h : parseUdpMessage bytes = .ok message) :
    parsed [bytes] = [message] := by
  rw [parsed, List.filterMap_cons, h]
  rfl

theorem perm_parsed {datagrams : List (List UInt8)} {i : Nat} {bytes : List UInt8} (h : datagrams[i]? = some bytes) :
    (parsed datagrams).Perm (parsed [bytes] ++ parsed (datagrams.eraseIdx i)) := by
  obtain ⟨hlt, rfl⟩ := List.getElem?_eq_some_iff.mp h
  rw [← parsed_append]
  exact (List.getElem_cons_eraseIdx_perm hlt).symm.filterMap _

theorem parsed_datagram {message : UDPMessage} (hfits : UdpTunnel.addrFits message.addr) {bytes : List UInt8}
    (h : message.datagram = .ok bytes) {read : UDPMessage} (hparse : parseUdpMessage bytes = .ok read) : read = message := by
  have hfits : message.addr.utf8ByteSize < 2 ^ 62 := of_decide_eq_true hfits
  have hmax : message.addrLen ≤ Varint.maxVarint := by
    have hbound : Varint.maxVarint.toNat = 2 ^ 62 - 1 := rfl
    rw [UInt64.le_iff_toNat_le, UDPMessage.addrLen, UInt64.toNat_ofNat']
    omega
  rw [UDPMessage.datagram_of_addrLen_le hmax] at h
  obtain rfl := Except.ok.inj h
  exact UDPMessage.eq_of_parse_wireBytes hfits hparse

theorem parsed_datagrams {messages : List UDPMessage} (hfits : ∀ message ∈ messages, UdpTunnel.addrFits message.addr) :
    (parsed (messages.filterMap fun message => message.datagram.toOption)).Sublist messages := by
  induction messages with
  | nil => exact .refl _
  | cons message messages ih =>
    rw [List.forall_mem_cons] at hfits
    have hrest := ih hfits.2
    rw [List.filterMap_cons]
    match hdatagram : message.datagram with
    | .error _ => exact hrest.cons _
    | .ok bytes =>
      change (parsed (bytes :: _)).Sublist _
      rw [parsed, List.filterMap_cons]
      match hparse : parseUdpMessage bytes with
      | .error _ => exact hrest.cons _
      | .ok read =>
        rw [parsed_datagram hfits.1 hdatagram hparse]
        exact hrest.cons_cons _

section
variable {profile : Profile} {cuts : List Cut}

theorem DatagramLink.cut?_made {link : DatagramLink} {packet : Packet} {cut : Cut}
    (h : link.cut? profile packet = some cut) : cut.packet = packet ∧ cut.Made profile := by
  rw [cut?] at h
  dsimp only at h
  split at h
  · split at h
    · cases h
    · split at h
      · next hrun =>
        cases h
        exact ⟨rfl, hrun⟩
      · cases h
  · cases h

theorem DatagramLink.taken_cases (link : DatagramLink) (packet : Packet) :
    link.taken profile packet = [packet.message] ∨ link.taken profile packet = [] ∨
      ∃ cut, link.cut? profile packet = some cut ∧ (link.taken profile packet).Sublist cut.fragments := by
  rw [taken]
  split
  · exact .inl rfl
  · split
    · next cut hcut =>
      refine .inr (.inr ⟨cut, hcut, ?_⟩)
      split
      · exact List.take_sublist _ _
      · exact .refl _
    · exact .inr (.inl rfl)

variable (hmade : ∀ cut ∈ cuts, cut.Made profile) (hdistinct : Distinct cuts)
include hmade hdistinct

theorem carried_datagrams {link : DatagramLink} {packet : Packet} (hfits : UdpTunnel.addrFits packet.addr)
    (hcut : ∀ cut, link.cut? profile packet = some cut → cut ∈ cuts) :
    (carried cuts (parsed (link.datagrams profile packet))).Sublist [packet] ∧
      ∀ message ∈ parsed (link.datagrams profile packet), Known cuts message := by
  have hwhole : carried cuts [packet.message] = [packet] := rfl
  rcases link.taken_cases packet with htaken | htaken | ⟨cut, hsome, hsublist⟩
  · have hparsed : (parsed (link.datagrams profile packet)).Sublist [packet.message] := by
      rw [DatagramLink.datagrams, htaken]
      exact parsed_datagrams (by simpa [Packet.message] using hfits)
    refine ⟨?_, fun message hmessage => ?_⟩
    · rw [← hwhole]
      exact hparsed.filterMap _
    · obtain rfl := List.mem_singleton.mp (hparsed.subset hmessage)
      exact fun hcount => absurd hcount (UInt8.lt_irrefl 1)
  · rw [DatagramLink.datagrams, htaken]
    exact ⟨List.nil_sublist _, nofun⟩
  · have hmem := hcut cut hsome
    obtain ⟨rfl, -⟩ := DatagramLink.cut?_made hsome
    have haddr : ∀ message ∈ link.taken profile cut.packet, UdpTunnel.addrFits message.addr := by
      intro message hmessage
      have hkey := key_of_mem hmade hdistinct hmem (hsublist.subset hmessage)
      rw [show message.addr = cut.packet.addr from congrArg (fun key => key.2.2.1) hkey]
      exact hfits
    have hparsed := (parsed_datagrams haddr).trans hsublist
    exact ⟨(hparsed.filterMap _).trans (carried_fragments hmade hdistinct hmem),
      fun message hmessage _ => ⟨cut, hmem, hparsed.subset hmessage⟩⟩

end
end Hysteria.Core
