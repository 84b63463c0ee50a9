import Hysteria.Core.ClientUdpHandles
import Hysteria.Core.UdpLedger
import Mathlib.Data.List.Perm.Basic

/-! From the targets back to the client. What `receive` has returned, the messages in the channels
of the sessions and in the hands of the reader loop, the first fragments and the datagrams on
their way are never more than what the receive tasks have got from targets. -/
namespace Hysteria.Core
open Lib

def ReceiveOutcome.packets (sessionId : UInt32) : ReceiveOutcome → List Packet
  | .received data addr => [⟨sessionId, addr, data⟩]
  | _ => []

namespace UdpSession

def waiting (session : UdpSession) : List UDPMessage := session.queue ++ session.defragger.heads

/-- A session has messages of its own id, and fragments of packets that were cut. -/
structure Sound (cuts : List Cut) (session : UdpSession) : Prop where
  inv : session.defragger.Inv
  stores : session.defragger.Stores (Known cuts)
  queue : ∀ message ∈ session.queue, Known cuts message ∧ message.sessionId = session.sessionId

section
variable {profile : Profile} {cuts : List Cut} (hmade : ∀ cut ∈ cuts, cut.Made profile) (hdistinct : Distinct cuts)
include hmade hdistinct

theorem receiveLoop_ledger {receiver : Profile} {senderAlive : Bool} {sessionId : UInt32} {d after : Defragger}
    {queue rest : List UDPMessage} {outcome : ReceiveOutcome} (hinv : d.Inv) (hstores : d.Stores (Known cuts))
    (hqueue : ∀ message ∈ queue, Known cuts message ∧ message.sessionId = sessionId)
    (h : (receiveLoop receiver senderAlive d queue : Exec Empty _) = .ok (outcome, after, rest)) :
    after.Inv ∧ after.Stores (Known cuts) ∧ (∀ message ∈ rest, message ∈ queue) ∧
      ∀ packet, (outcome.packets sessionId).count packet + (carried cuts (rest ++ after.heads)).count packet ≤
        (carried cuts (queue ++ d.heads)).count packet := by
  induction queue generalizing d with
  | nil =>
    cases h
    refine ⟨hinv, hstores, nofun, fun packet => ?_⟩
    cases senderAlive <;> simp [ReceiveOutcome.packets]
  | cons message queue ih =>
    obtain ⟨⟨hknown, hid⟩, hlater⟩ := List.forall_mem_cons.mp hqueue
    obtain ⟨out, d', hfeed, hstep⟩ := Defragger.feed_step (ε := Empty) hinv receiver message
    have hledger := feed_ledger hmade hdistinct hinv hstores hknown hstep
    rw [receiveLoop, hfeed, ok_bind] at h
    have hsplit (packet : Packet) : (carried cuts (message :: queue ++ d.heads)).count packet =
        (carried cuts [message]).count packet + (carried cuts queue).count packet +
          (carried cuts d.heads).count packet := by
      rw [count_carried_append, ← List.singleton_append, count_carried_append]
    cases out with
    | some result =>
      cases h
      refine ⟨hstep.inv hinv, hstep.stores hstores hknown, fun _ => List.mem_cons_of_mem _, fun packet => ?_⟩
      have hpacket : ReceiveOutcome.packets sessionId (.received result.data result.addr) =
          (some result).toList.map UDPMessage.packet := by
        rw [ReceiveOutcome.packets, Option.toList_some, List.map_singleton, UDPMessage.packet, hstep.sessionId_eq, hid]
      have hcount := hledger packet
      rw [hpacket, hsplit, count_carried_append]
      omega
    | none =>
      obtain ⟨hafter, hkept, hrest, hle⟩ := ih (hstep.inv hinv) (hstep.stores hstores hknown) hlater h
      refine ⟨hafter, hkept, fun other hother => List.mem_cons_of_mem _ (hrest other hother), fun packet => ?_⟩
      have hcount := hledger packet
      have hmore := hle packet
      rw [count_carried_append cuts queue] at hmore
      simp only [Option.toList_none, List.map_nil, List.count_nil] at hcount
      rw [hsplit]
      omega

/-- A call of `receive` returns no packet that was not accounted for, and none twice. -/
theorem receive_ledger {receiver : Profile} {senderAlive : Bool} {session after : UdpSession} {outcome : ReceiveOutcome}
    (hsound : session.Sound cuts) (h : (session.receive receiver senderAlive : Exec Empty _) = .ok (outcome, after)) :
    after.Sound cuts ∧ after.sessionId = session.sessionId ∧
      ∀ packet, (outcome.packets session.sessionId).count packet + (carried cuts after.waiting).count packet ≤
        (carried cuts session.waiting).count packet := by
  obtain ⟨⟨outcome', d, rest⟩, hloop, heq⟩ := bind_eq_ok.mp h
  cases heq
  obtain ⟨hinv, hstores, hrest, hle⟩ := receiveLoop_ledger hmade hdistinct hsound.inv hsound.stores hsound.queue hloop
  exact ⟨⟨hinv, hstores, fun message hmessage => hsound.queue message (hrest message hmessage)⟩, rfl, hle⟩

end
end UdpSession

theorem perm_waiting {sessions : List UdpSession} {i : Nat} {session : UdpSession} (h : sessions[i]? = some session) :
    (sessions.flatMap UdpSession.waiting).Perm (session.waiting ++ (sessions.eraseIdx i).flatMap UdpSession.waiting) := by
  obtain ⟨hlt, rfl⟩ := List.getElem?_eq_some_iff.mp h
  exact (List.getElem_cons_eraseIdx_perm hlt).symm.flatMap_right _

theorem perm_waiting_set {sessions : List UdpSession} {i : Nat} {session : UdpSession} (h : sessions[i]? = some session)
    (new : UdpSession) :
    ((sessions.set i new).flatMap UdpSession.waiting).Perm
      (new.waiting ++ (sessions.eraseIdx i).flatMap UdpSession.waiting) :=
  (List.set_perm_cons_eraseIdx (List.getElem?_eq_some_iff.mp h).1 new).flatMap_right _

namespace ClientUdpManager

def forwarding (m : ClientUdpManager) : List UDPMessage :=
  match m.reader with
  | .forwarding _ message => [message]
  | _ => []

def waiting (m : ClientUdpManager) : List UDPMessage := m.returned.flatMap UdpSession.waiting ++ m.forwarding

structure Sound (cuts : List Cut) (m : ClientUdpManager) : Prop where
  filed : m.Filed
  session : ∀ session ∈ m.returned, session.Sound cuts
  reader : ∀ i message, m.reader = .forwarding i message → Known cuts message ∧
    ∃ session, m.returned[i]? = some session ∧ session.sessionId = message.sessionId

section
variable {m after : ClientUdpManager} {cuts : List Cut}

theorem forwarding_eq {i : Nat} {message : UDPMessage} (h : m.reader = .forwarding i message) : m.forwarding = [message] := by
  rw [forwarding, h]

theorem Sound.keep (h : m.Sound cuts) (hfiled : after.Filed) (hreturned : after.returned = m.returned)
    (hreader : after.reader = m.reader ∨ after.forwarding = []) : after.Sound cuts where
  filed := hfiled
  session := by
    rw [hreturned]
    exact h.session
  reader i message hi := by
    rcases hreader with hsame | hnone
    · rw [hreturned]
      exact h.reader i message (hsame ▸ hi)
    · rw [forwarding_eq hi] at hnone
      cases hnone

theorem Sound.set (h : m.Sound cuts) (hfiled : after.Filed) {i : Nat} {session new : UdpSession}
    (hi : m.returned[i]? = some session) (hreturned : after.returned = m.returned.set i new) (hnew : new.Sound cuts)
    (hid : new.sessionId = session.sessionId) (hreader : after.reader = m.reader ∨ after.forwarding = []) :
    after.Sound cuts where
  filed := hfiled
  session other hother := by
    rw [hreturned] at hother
    rcases List.mem_or_eq_of_mem_set hother with hold | rfl
    · exact h.session other hold
    · exact hnew
  reader j message hj := by
    rcases hreader with hsame | hnone
    · obtain ⟨hknown, other, hother, hkey⟩ := h.reader j message (hsame ▸ hj)
      refine ⟨hknown, ?_⟩
      rw [hreturned]
      by_cases hij : i = j
      · subst hij
        obtain rfl := Option.some.inj (hi.symm.trans hother)
        exact ⟨new, List.getElem?_set_self (List.getElem?_eq_some_iff.mp hi).1, hid.trans hkey⟩
      · exact ⟨other, by rw [List.getElem?_set_ne hij, hother], hkey⟩
    · rw [forwarding_eq hj] at hnone
      cases hnone

theorem count_waiting_set {i : Nat} {session new : UdpSession} (hi : m.returned[i]? = some session)
    (hreturned : after.returned = m.returned.set i new) {packet : Packet} {more : Nat}
    (hle : more + (carried cuts new.waiting).count packet + (carried cuts after.forwarding).count packet ≤
      (carried cuts session.waiting).count packet + (carried cuts m.forwarding).count packet) :
    more + (carried cuts after.waiting).count packet ≤ (carried cuts m.waiting).count packet := by
  have hbefore := count_carried_perm cuts (perm_waiting hi) packet
  have hafter := count_carried_perm cuts (perm_waiting_set hi new) packet
  rw [count_carried_append] at hbefore hafter
  rw [waiting, waiting, count_carried_append, count_carried_append, hreturned]
  omega

variable {profile : Profile} (hmade : ∀ cut ∈ cuts, cut.Made profile) (hdistinct : Distinct cuts)
include hmade hdistinct

theorem step_ledger {receiver : Profile} {event : Event} (h : m.Sound cuts) (hstep : m.step receiver event = some after)
    (hevent : ∀ bytes, event ≠ .datagram bytes) :
    after.Sound cuts ∧ ∀ packet, (m.packetReceived receiver event).toList.count packet +
      (carried cuts after.waiting).count packet ≤ (carried cuts m.waiting).count packet := by
  have hfiled := step_filed h.filed hstep
  -- What a step leaves as it was, but for the reader loop, which may have dropped its message.
  have hkeep (hnone : m.packetReceived receiver event = none) (hreturned : after.returned = m.returned)
      (hreader : after.reader = m.reader ∨ after.forwarding = []) :
      after.Sound cuts ∧ ∀ packet, (m.packetReceived receiver event).toList.count packet +
        (carried cuts after.waiting).count packet ≤ (carried cuts m.waiting).count packet := by
    refine ⟨h.keep hfiled hreturned hreader, fun packet => ?_⟩
    rw [hnone, Option.toList_none, List.count_nil, Nat.zero_add, waiting, waiting, hreturned]
    refine count_carried_sublist cuts (List.Sublist.append (.refl _) ?_) packet
    rcases hreader with hsame | hdropped
    · rw [forwarding, hsame]
      exact .refl _
    · rw [hdropped]
      exact List.nil_sublist _
  cases step_cases hstep with
  | refused | checked | fetchAdd | removed => exact hkeep rfl rfl (.inl rfl)
  | discarded | stored | cleared => exact hkeep rfl rfl (.inr rfl)
  | skipped | picked => exact absurd rfl (hevent _)
  | @insert call capacity sessionId hcall =>
    refine ⟨⟨hfiled, ?_, ?_⟩, fun packet => ?_⟩
    · intro session hsession
      rcases List.mem_append.mp hsession with hold | hnew
      · exact h.session session hold
      · obtain rfl := List.mem_singleton.mp hnew
        exact ⟨Defragger.empty_inv, Defragger.stores_empty _, nofun⟩
    · intro i message hi
      obtain ⟨hknown, session, hsession, hkey⟩ := h.reader i message hi
      exact ⟨hknown, session, List.getElem?_append_left (List.getElem?_eq_some_iff.mp hsession).1 ▸ hsession, hkey⟩
    · simp [packetReceived, waiting, forwarding, UdpSession.waiting, Defragger.heads, Defragger.empty]
  | @queued i message session hreader hsession hdropped hroom =>
    obtain ⟨hknown, session', hsession', hkey⟩ := h.reader i message hreader
    obtain rfl := Option.some.inj (hsession.symm.trans hsession')
    have hsound := h.session session (List.mem_of_getElem? hsession)
    refine ⟨h.set hfiled hsession rfl ⟨hsound.inv, hsound.stores, ?_⟩ rfl (.inr rfl), fun packet => ?_⟩
    · intro other hother
      rcases List.mem_append.mp hother with hold | hnew
      · exact hsound.queue other hold
      · obtain rfl := List.mem_singleton.mp hnew
        exact ⟨hknown, hkey.symm⟩
    · refine count_waiting_set hsession rfl ?_
      rw [forwarding_eq hreader]
      simp only [UdpSession.waiting, count_carried_append, packetReceived, forwarding, Option.toList_none]
      simp only [carried, List.filterMap_nil, List.count_nil]
      omega
  | @received i session after' outcome hsession hreceive =>
    obtain ⟨hsound, hid, hle⟩ :=
      UdpSession.receive_ledger hmade hdistinct (h.session session (List.mem_of_getElem? hsession)) hreceive
    refine ⟨h.set hfiled hsession rfl hsound hid (.inl rfl), fun packet => count_waiting_set hsession rfl ?_⟩
    have hpackets : (m.packetReceived receiver (.receive i)).toList = outcome.packets session.sessionId := by
      rw [packetReceived, hsession]
      dsimp only
      rw [hreceive]
      cases outcome <;> rfl
    have hcount := hle packet
    rw [hpackets]
    change _ + (carried cuts m.forwarding).count packet ≤ _
    omega
  | @swapped i session hsession =>
    have hsound := h.session session (List.mem_of_getElem? hsession)
    exact ⟨h.set hfiled hsession rfl ⟨hsound.inv, hsound.stores, hsound.queue⟩ rfl (.inl rfl), fun packet =>
      count_waiting_set hsession rfl (Nat.le_of_eq (Nat.zero_add _ ▸ rfl))⟩
  | @dropped i session hsession hclosed =>
    have hsound := h.session session (List.mem_of_getElem? hsession)
    exact ⟨h.set hfiled hsession rfl ⟨hsound.inv, hsound.stores, hsound.queue⟩ rfl (.inl rfl), fun packet =>
      count_waiting_set hsession rfl (Nat.le_of_eq (Nat.zero_add _ ▸ rfl))⟩

omit hmade hdistinct in
theorem datagram_ledger {receiver : Profile} {bytes : List UInt8} (h : m.Sound cuts)
    (hknown : ∀ message, parseUdpMessage bytes = .ok message → Known cuts message)
    (hstep : m.step receiver (.datagram bytes) = some after) :
    after.Sound cuts ∧ ∀ packet, (carried cuts after.waiting).count packet ≤ (carried cuts m.waiting).count packet +
      (carried cuts (parsed [bytes])).count packet := by
  cases step_cases hstep with
  | skipped => exact ⟨h, fun packet => Nat.le_add_right _ _⟩
  | @picked _ message i hreader hparse hget =>
    refine ⟨⟨h.filed, h.session, ?_⟩, fun packet => ?_⟩
    · rintro _ _ ⟨⟩
      exact ⟨hknown message hparse, h.filed message.sessionId i hget⟩
    · have hnone : m.forwarding = [] := by rw [forwarding, hreader]
      rw [parsed_singleton hparse, waiting, waiting, hnone, count_carried_append, List.append_nil]
      exact Nat.le_refl _

end
end ClientUdpManager

namespace UdpTunnel

structure Downstream (cuts : List Cut) (t : UdpTunnel) : Prop where
  sound : t.client.Sound cuts
  known : ∀ message ∈ parsed t.downstream, Known cuts message
  ledger : ∀ packet, t.received.count packet + (carried cuts t.client.waiting).count packet +
    (carried cuts (parsed t.downstream)).count packet ≤ t.replies.count packet

theorem new_downstream (cuts : List Cut) : Downstream cuts new where
  sound := ⟨ClientUdpManager.new_filed, nofun, nofun⟩
  known := nofun
  ledger _ := Nat.zero_le _

section
variable {profile : Profile} {timeout : Nat} {t after : UdpTunnel} {cuts : List Cut}

theorem Step.downstreamCuts_subset (h : Step profile timeout t after) : t.downstreamCuts ⊆ after.downstreamCuts := by
  cases h with
  | answered _ _ _ => exact List.subset_append_left _ _
  | _ => exact List.Subset.refl _

theorem Step.downstreamCuts_made (h : Step profile timeout t after)
    (hmade : ∀ cut ∈ t.downstreamCuts, cut.Made profile) : ∀ cut ∈ after.downstreamCuts, cut.Made profile := by
  cases h with
  | @answered link packet server _ _ _ =>
    intro cut hcut
    rcases List.mem_append.mp hcut with hold | hnew
    · exact hmade cut hold
    · exact (DatagramLink.cut?_made (Option.mem_toList.mp hnew)).2
  | _ => exact hmade

theorem Downstream.step (hmade : ∀ cut ∈ cuts, cut.Made profile) (hdistinct : Distinct cuts) (h : Downstream cuts t)
    (hcuts : after.downstreamCuts ⊆ cuts) (hstep : Step profile timeout t after) : Downstream cuts after := by
  cases hstep with
  | server _ _ | refused | submitted _ | fed _ _ _ _ | lostUpstream _ => exact ⟨h.sound, h.known, h.ledger⟩
  | lostDownstream i =>
    have hsublist := parsed_sublist (List.eraseIdx_sublist t.downstream i)
    refine ⟨h.sound, fun message hmessage => h.known message (hsublist.subset hmessage), fun packet => ?_⟩
    have hledger := h.ledger packet
    have hle := count_carried_sublist cuts hsublist packet
    dsimp only
    omega
  | client hevent hclient =>
    obtain ⟨hsound, hle⟩ := ClientUdpManager.step_ledger hmade hdistinct h.sound hclient hevent
    refine ⟨hsound, h.known, fun packet => ?_⟩
    have hledger := h.ledger packet
    have hcount := hle packet
    rw [List.count_append]
    dsimp only
    omega
  | @answered link packet server hfits _ _ =>
    have hmem (cut : Cut) (hcut : link.cut? profile packet = some cut) : cut ∈ cuts :=
      hcuts (List.mem_append_right _ (Option.mem_toList.mpr hcut))
    obtain ⟨hcarried, hknown⟩ := carried_datagrams hmade hdistinct hfits hmem
    refine ⟨h.sound, fun message hmessage => ?_, fun other => ?_⟩
    · rw [answer, parsed_append, List.mem_append] at hmessage
      exact hmessage.elim (h.known message) (hknown message)
    · have hledger := h.ledger other
      have hcount := hcarried.count_le other
      change t.received.count other + (carried cuts t.client.waiting).count other +
        (carried cuts (parsed (t.downstream ++ link.datagrams profile packet))).count other ≤
          (t.replies ++ [packet]).count other
      rw [parsed_append, count_carried_append, List.count_append]
      omega
  | @picked i bytes client hbytes hclient =>
    have hperm := perm_parsed hbytes
    have hknown (message : UDPMessage) (hparse : parseUdpMessage bytes = .ok message) : Known cuts message := by
      rw [parsed_singleton hparse] at hperm
      exact h.known message (hperm.mem_iff.mpr List.mem_cons_self)
    obtain ⟨hsound, hle⟩ := ClientUdpManager.datagram_ledger h.sound hknown hclient
    refine ⟨hsound, fun message hmessage => h.known message ?_, fun packet => ?_⟩
    · exact (parsed_sublist (List.eraseIdx_sublist _ _)).subset hmessage
    · have hledger := h.ledger packet
      have hadded := hle packet
      rw [count_carried_perm cuts hperm packet, count_carried_append] at hledger
      change t.received.count packet + (carried cuts client.waiting).count packet +
        (carried cuts (parsed (t.downstream.eraseIdx i))).count packet ≤ t.replies.count packet
      omega

end

/-- Whatever is lost or overtaken on the way back, and whatever becomes of the sessions: what
the client's sessions return is what targets have sent to the sockets of these sessions, each
packet whole, under its own session and sender, and no more often than it was sent. -/
theorem received_subperm (profile : Profile) (timeout : Nat) (events : List Event) {t : UdpTunnel}
    (hrun : run (step profile timeout) new events = some t) (hdistinct : Distinct t.downstreamCuts) :
    t.received.Subperm t.replies := by
  have hmade : ∀ cut ∈ t.downstreamCuts, cut.Made profile :=
    run_induction (I := fun t => ∀ cut ∈ t.downstreamCuts, cut.Made profile)
      (fun _ _ _ hold hstep => (step_cases hstep).downstreamCuts_made hold) nofun hrun
  have hdownstream := run_induction_history (I := fun (cuts : List Cut) (s : UdpTunnel) =>
      (∀ cut ∈ cuts, cut.Made profile) → Distinct cuts → Downstream cuts s)
    (fun _ _ _ hstep => (step_cases hstep).downstreamCuts_subset)
    (fun cuts _ _ _ hold hstep hcuts hmade hdistinct =>
      (hold hmade hdistinct).step hmade hdistinct hcuts (step_cases hstep))
    (fun cuts _ _ => new_downstream cuts) hrun hmade hdistinct
  refine List.subperm_ext_iff.mpr fun packet _ => ?_
  have hledger := hdownstream.ledger packet
  omega

def overtakenReply : List Event :=
  [.client (.load 0 4), .client (.fetchAdd 0), .client (.insert 0), .send 0 [9] "b:2" ⟨false, some 14, 5, []⟩,
    .arriveUpstream 0 0 true, .server (.sendPacket true true), .server (.pollTask 0),
    .reply 0 "b:2" [1, 2, 3, 4] ⟨false, some 14, 5, [.error .tooLarge]⟩, .arriveDownstream 1, .client .forward,
    .arriveDownstream 0, .client .forward, .client (.receive 0)]

theorem received_subperm_overtaken :
    ∃ t, run (step ⟨true⟩ 60) new overtakenReply = some t ∧ Distinct t.downstreamCuts ∧
      t.received = [⟨1, "b:2", [1, 2, 3, 4]⟩] ∧ t.received.Subperm t.replies := by
  have hrun : (run (step ⟨true⟩ 60) new overtakenReply).map (fun t => (t.received, t.downstreamCuts.map Cut.key)) =
      some ([⟨1, "b:2", [1, 2, 3, 4]⟩], [(1, 5, "b:2", 2)]) := by decide +kernel
  obtain ⟨t, ht, hpair⟩ := Option.map_eq_some_iff.mp hrun
  obtain ⟨hreceived, hkeys⟩ := Prod.mk.inj hpair
  have hdistinct := distinct_of_keys hkeys (by decide) (by decide)
  exact ⟨t, ht, hdistinct, hreceived, received_subperm ⟨true⟩ 60 overtakenReply ht hdistinct⟩

end UdpTunnel
end Hysteria.Core
