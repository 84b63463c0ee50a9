import Hysteria.Core.ServerUdpClose
import Hysteria.Core.UdpLedger

/-! From the client to the targets. What the server has handed to a socket or is about to, the
first fragments in its sessions and the datagrams on their way are never more than what was
submitted. -/
namespace Hysteria.Core
open Lib

namespace ServerUdp

def pending (s : ServerUdp) : List Packet :=
  match s.serverLoop with
  | .feeding sessionId message => [⟨sessionId, message.addr, message.data⟩]
  | _ => []

def fragments (s : ServerUdp) (sessionId : UInt32) : Defragger :=
  ((s.sessions.get sessionId).map ServerUdpSession.defragger).getD .empty

def Sound (cuts : List Cut) (s : ServerUdp) : Prop :=
  ∀ sessionId, (s.fragments sessionId).Inv ∧ (s.fragments sessionId).Stores (Known cuts)

/-- How often a packet can still be sent with what the server has. -/
def held (cuts : List Cut) (s : ServerUdp) (packet : Packet) : Nat :=
  s.pending.count packet + (carried cuts (s.fragments packet.sessionId).heads).count packet

/-- A step that feeds no session: each one keeps its fragments or is gone. -/
def KeepsFragments (s after : ServerUdp) : Prop :=
  ∀ sessionId, after.fragments sessionId = s.fragments sessionId ∨ after.fragments sessionId = .empty

section
variable {s after : ServerUdp} {cuts : List Cut}

theorem fragments_of_get {sessionId : UInt32} {session : ServerUdpSession} (h : s.sessions.get sessionId = some session) :
    s.fragments sessionId = session.defragger := by
  rw [fragments, h]
  rfl

theorem KeepsFragments.sound (hkeeps : KeepsFragments s after) (h : s.Sound cuts) : after.Sound cuts := by
  intro sessionId
  rcases hkeeps sessionId with hsame | hempty
  · rw [hsame]
    exact h sessionId
  · rw [hempty]
    exact ⟨Defragger.empty_inv, Defragger.stores_empty _⟩

theorem KeepsFragments.count_le (hkeeps : KeepsFragments s after) (cuts : List Cut) (packet : Packet) :
    (carried cuts (after.fragments packet.sessionId).heads).count packet ≤
      (carried cuts (s.fragments packet.sessionId).heads).count packet := by
  rcases hkeeps packet.sessionId with hsame | hempty
  · rw [hsame]
  · rw [hempty]
    exact Nat.zero_le _

theorem keepsFragments_of_eq (h : after.sessions = s.sessions) : KeepsFragments s after := by
  intro sessionId
  rw [fragments, h]
  exact .inl rfl

theorem keepsFragments_remove {id : UInt32} (h : after.sessions = s.sessions.remove id) : KeepsFragments s after := by
  intro sessionId
  simp only [fragments, h, PartialMap.get_remove]
  split
  · exact .inr rfl
  · exact .inl rfl

theorem keepsFragments_insert {id : UInt32} {old session : ServerUdpSession}
    (h : after.sessions = s.sessions.insert id session) (hold : s.sessions.get id = some old)
    (hsame : session.defragger = old.defragger) : KeepsFragments s after := by
  intro sessionId
  simp only [fragments, h, PartialMap.get_insert]
  split
  · next hid =>
    subst hid
    rw [hold]
    exact .inl hsame
  · exact .inl rfl

theorem defragger_of_resolve {session resolved : ServerUdpSession} {addr : String} {targetResolves : Bool}
    (h : session.resolve addr targetResolves = some resolved) : resolved.defragger = session.defragger := by
  unfold ServerUdpSession.resolve at h
  split_ifs at h <;> cases h <;> rfl

theorem packetSent_sublist (s : ServerUdp) (event : Event) : (s.packetSent event).toList.Sublist s.pending := by
  unfold packetSent
  split
  · split
    · next sessionId message hloop =>
      rw [pending, hloop]
      split
      · next session hget =>
        cases session.resolve message.addr _
        · exact List.nil_sublist _
        · exact .refl _
      · exact List.nil_sublist _
    · exact List.nil_sublist _
  · exact List.nil_sublist _

theorem step_keeps {profile : Profile} {timeout : Nat} {event : Event} (hstep : s.step profile timeout event = some after)
    (hevent : ∀ message now socketOpens, event ≠ .datagram message now socketOpens) :
    KeepsFragments s after ∧ ((s.packetSent event).toList ++ after.pending).Sublist s.pending := by
  cases step_cases hstep with
  | expired hget => exact ⟨keepsFragments_remove rfl, .refl _⟩
  | noticed hrx hget => exact ⟨keepsFragments_remove rfl, .refl _⟩
  | ignored hrx => exact ⟨keepsFragments_of_eq rfl, .refl _⟩
  | fed _ => exact absurd rfl (hevent _ _ _)
  | sent hloop hget hresolve =>
    refine ⟨keepsFragments_insert rfl hget (defragger_of_resolve hresolve), ?_⟩
    rw [show pending { s with sessions := _, serverLoop := .selecting } = [] from rfl, List.append_nil]
    exact s.packetSent_sublist _
  | @unsent sessionId message session resolved targetResolves hloop hget hresolve =>
    have hsame := defragger_of_resolve hresolve
    exact ⟨keepsFragments_insert rfl hget hsame, List.nil_sublist _⟩
  | unresolved hloop hget =>
    refine ⟨keepsFragments_insert rfl hget rfl, ?_⟩
    rw [show pending (s.closeSession _ _) = [] from rfl, List.append_nil]
    exact s.packetSent_sublist _
  | lost => exact ⟨keepsFragments_of_eq rfl, List.nil_sublist _⟩
  | left hget => exact ⟨keepsFragments_remove rfl, .refl _⟩
  | polled htask => exact ⟨keepsFragments_of_eq rfl, .refl _⟩
  | yielded htask => exact ⟨keepsFragments_of_eq rfl, .refl _⟩
  | ended htask => exact ⟨keepsFragments_of_eq rfl, .refl _⟩

theorem feedMessage_spec {profile : Profile} {message : UDPMessage} {now : Nat} {socketOpens : Bool}
    (hinv : (s.fragments message.sessionId).Inv) (hloop : s.serverLoop = .selecting)
    (h : s.feedMessage profile message now socketOpens = some after) :
    ∃ out, (s.fragments message.sessionId).FeedStep message out (after.fragments message.sessionId) ∧
      (∀ id, id ≠ message.sessionId → after.fragments id = s.fragments id) ∧
      after.pending.Sublist (out.toList.map UDPMessage.packet) := by
  unfold feedMessage at h
  dsimp only at h
  generalize hbase : (s.sessions.get message.sessionId).getD (.new message.sessionId now) = base at h
  have hfragments : s.fragments message.sessionId = base.defragger := by
    rw [fragments, ← hbase]
    cases s.sessions.get message.sessionId <;> rfl
  rw [hfragments] at hinv ⊢
  obtain ⟨out, d, hfeed, hstep⟩ := Defragger.feed_step (ε := Empty) hinv profile message
  rw [hfeed] at h
  -- Whatever becomes of the socket, the session is stored with the new fragments.
  have hstored (server : ServerUdp) {session : ServerUdpSession}
      (hown : server.sessions.get message.sessionId = some session) (hd : session.defragger = d)
      (hothers : ∀ id, id ≠ message.sessionId → server.sessions.get id = s.sessions.get id)
      (hpending : server.pending.Sublist (out.toList.map UDPMessage.packet)) :
      ∃ out, base.defragger.FeedStep message out (server.fragments message.sessionId) ∧
        (∀ id, id ≠ message.sessionId → server.fragments id = s.fragments id) ∧
        server.pending.Sublist (out.toList.map UDPMessage.packet) := by
    refine ⟨out, ?_, fun id hid => ?_, hpending⟩
    · rw [fragments_of_get hown, hd]
      exact hstep
    · rw [fragments, hothers id hid]
      rfl
  cases out with
  | none =>
    cases h
    refine hstored _ (PartialMap.get_insert_self _ _ _) rfl (fun id hid => PartialMap.get_insert_of_ne _ hid _) ?_
    rw [pending, hloop]
    exact .refl _
  | some result =>
    have hfeeding (server : ServerUdp) (hserver : server.serverLoop = .feeding message.sessionId result) :
        server.pending.Sublist ((some result).toList.map UDPMessage.packet) := by
      rw [pending, hserver, Option.toList_some, List.map_singleton, UDPMessage.packet, hstep.sessionId_eq]
    dsimp only at h
    split at h
    · cases h
      exact hstored _ (PartialMap.get_insert_self _ _ _) rfl (fun id hid => PartialMap.get_insert_of_ne _ hid _)
        (hfeeding _ rfl)
    · split at h <;> cases h
      · refine hstored _ (PartialMap.get_insert_self _ _ _) rfl (fun id hid => ?_) (hfeeding _ rfl)
        rw [openSocket, PartialMap.get_insert_of_ne _ hid, PartialMap.get_insert_of_ne _ hid]
      · refine hstored _ (PartialMap.get_insert_self _ _ _) rfl (fun id hid => ?_) (List.nil_sublist _)
        rw [closeSession, PartialMap.get_insert_of_ne _ hid, PartialMap.get_insert_of_ne _ hid]

section
variable {profile : Profile} (hmade : ∀ cut ∈ cuts, cut.Made profile) (hdistinct : Distinct cuts)
include hmade hdistinct

theorem feedMessage_ledger {receiver : Profile} {message : UDPMessage} {now : Nat} {socketOpens : Bool} (h : s.Sound cuts)
    (hknown : Known cuts message) (hloop : s.serverLoop = .selecting)
    (hfeed : s.feedMessage receiver message now socketOpens = some after) :
    after.Sound cuts ∧
      ∀ packet, after.held cuts packet ≤ s.held cuts packet + (carried cuts [message]).count packet := by
  obtain ⟨hinv, hstores⟩ := h message.sessionId
  obtain ⟨out, hstep, hothers, hpending⟩ := feedMessage_spec hinv hloop hfeed
  constructor
  · intro sessionId
    by_cases hid : sessionId = message.sessionId
    · subst hid
      exact ⟨hstep.inv hinv, hstep.stores hstores hknown⟩
    · rw [hothers sessionId hid]
      exact h sessionId
  · intro packet
    have hle := hpending.count_le packet
    rw [held, held]
    by_cases hid : packet.sessionId = message.sessionId
    · have hledger := feed_ledger hmade hdistinct hinv hstores hknown hstep packet
      rw [hid]
      omega
    · -- The message returned is one of another session.
      have hnone : (out.toList.map UDPMessage.packet).count packet = 0 := by
        refine List.count_eq_zero.mpr fun hmem => hid ?_
        obtain ⟨result, hresult, rfl⟩ := List.mem_map.mp hmem
        obtain rfl := Option.mem_toList.mp hresult
        exact hstep.sessionId_eq
      rw [hothers _ hid]
      omega

end
end
end ServerUdp

namespace UdpTunnel

structure Upstream (cuts : List Cut) (t : UdpTunnel) : Prop where
  sound : t.server.Sound cuts
  known : ∀ message ∈ parsed t.upstream, Known cuts message
  ledger : ∀ packet, t.sentToTargets.count packet + t.server.held cuts packet +
    (carried cuts (parsed t.upstream)).count packet ≤ t.submitted.count packet

theorem new_upstream (cuts : List Cut) : Upstream cuts new where
  sound _ := ⟨Defragger.empty_inv, Defragger.stores_empty _⟩
  known := nofun
  ledger _ := Nat.zero_le _

section
variable {profile : Profile} {timeout : Nat} {t after : UdpTunnel} {cuts : List Cut}

theorem Step.upstreamCuts_subset (h : Step profile timeout t after) : t.upstreamCuts ⊆ after.upstreamCuts := by
  cases h with
  | submitted _ => exact List.subset_append_left _ _
  | _ => exact List.Subset.refl _

theorem Step.upstreamCuts_made (h : Step profile timeout t after) (hmade : ∀ cut ∈ t.upstreamCuts, cut.Made profile) :
    ∀ cut ∈ after.upstreamCuts, cut.Made profile := by
  cases h with
  | @submitted link packet _ =>
    intro cut hcut
    rcases List.mem_append.mp hcut with hold | hnew
    · exact hmade cut hold
    · exact (DatagramLink.cut?_made (Option.mem_toList.mp hnew)).2
  | _ => exact hmade

theorem Upstream.shrink (h : Upstream cuts t) (hserver : after.server.sessions = t.server.sessions)
    (hloop : after.server.serverLoop = t.server.serverLoop) (hsublist : after.upstream.Sublist t.upstream)
    (hsent : after.sentToTargets = t.sentToTargets) (hsubmitted : after.submitted = t.submitted) :
    Upstream cuts after where
  sound sessionId := by
    rw [ServerUdp.fragments, hserver]
    exact h.sound sessionId
  known message hmessage := h.known message ((parsed_sublist hsublist).subset hmessage)
  ledger packet := by
    have hle := count_carried_sublist cuts (parsed_sublist hsublist) packet
    have hledger := h.ledger packet
    have hheld : after.server.held cuts packet = t.server.held cuts packet := by
      simp only [ServerUdp.held, ServerUdp.pending, ServerUdp.fragments, hserver, hloop]
    rw [hsent, hsubmitted, hheld]
    omega

theorem Upstream.step (hmade : ∀ cut ∈ cuts, cut.Made profile) (hdistinct : Distinct cuts) (h : Upstream cuts t)
    (hcuts : after.upstreamCuts ⊆ cuts) (hstep : Step profile timeout t after) : Upstream cuts after := by
  cases hstep with
  | client _ _ => exact h.shrink rfl rfl (.refl _) rfl rfl
  | refused => exact h
  | answered _ hsessions hloop => exact h.shrink hsessions hloop (.refl _) rfl rfl
  | picked _ _ => exact h.shrink rfl rfl (.refl _) rfl rfl
  | lostUpstream i => exact h.shrink rfl rfl (List.eraseIdx_sublist _ _) rfl rfl
  | lostDownstream i => exact h.shrink rfl rfl (.refl _) rfl rfl
  | server hevent hserver =>
    obtain ⟨hkeeps, hsent⟩ := ServerUdp.step_keeps hserver hevent
    refine ⟨hkeeps.sound h.sound, h.known, fun packet => ?_⟩
    have hledger := h.ledger packet
    have hheads := hkeeps.count_le cuts packet
    have hcount := hsent.count_le packet
    rw [ServerUdp.held] at hledger ⊢
    rw [List.count_append] at hcount ⊢
    dsimp only
    omega
  | @submitted link packet hfits =>
    have hmem (cut : Cut) (hcut : link.cut? profile packet = some cut) : cut ∈ cuts :=
      hcuts (List.mem_append_right _ (Option.mem_toList.mpr hcut))
    obtain ⟨hcarried, hknown⟩ := carried_datagrams hmade hdistinct hfits hmem
    refine ⟨h.sound, fun message hmessage => ?_, fun other => ?_⟩
    · rw [submit, parsed_append, List.mem_append] at hmessage
      exact hmessage.elim (h.known message) (hknown message)
    · have hledger := h.ledger other
      have hcount := hcarried.count_le other
      change t.sentToTargets.count other + t.server.held cuts other +
        (carried cuts (parsed (t.upstream ++ link.datagrams profile packet))).count other ≤
          (t.submitted ++ [packet]).count other
      rw [parsed_append, count_carried_append, List.count_append]
      omega
  | @fed i now socketOpens bytes message server hbytes hparse hloop hfeed =>
    have hperm := perm_parsed hbytes
    rw [parsed_singleton hparse] at hperm
    have hknown : Known cuts message := h.known message (hperm.mem_iff.mpr (List.mem_cons_self))
    obtain ⟨hsound, hheld⟩ := ServerUdp.feedMessage_ledger hmade hdistinct h.sound hknown hloop hfeed
    refine ⟨hsound, fun message hmessage => h.known message ?_, fun packet => ?_⟩
    · exact (parsed_sublist (List.eraseIdx_sublist _ _)).subset hmessage
    · have hledger := h.ledger packet
      have hadded := hheld packet
      rw [count_carried_perm cuts hperm packet, count_carried_append] at hledger
      change t.sentToTargets.count packet + server.held cuts packet +
        (carried cuts (parsed (t.upstream.eraseIdx i))).count packet ≤ t.submitted.count packet
      omega

end

/-- Whatever is lost or overtaken on the way, and whatever becomes of the sessions: what the
server sends to targets is what the client submitted, each packet whole, under its own session
and address, and no more often than it was submitted. -/
theorem sentToTargets_subperm (profile : Profile) (timeout : Nat) (events : List Event) {t : UdpTunnel}
    (hrun : run (step profile timeout) new events = some t) (hdistinct : Distinct t.upstreamCuts) :
    t.sentToTargets.Subperm t.submitted := by
  have hmade : ∀ cut ∈ t.upstreamCuts, cut.Made profile :=
    run_induction (I := fun t => ∀ cut ∈ t.upstreamCuts, cut.Made profile)
      (fun _ _ _ hold hstep => (step_cases hstep).upstreamCuts_made hold) nofun hrun
  have hupstream := run_induction_history (I := fun (cuts : List Cut) (s : UdpTunnel) =>
      (∀ cut ∈ cuts, cut.Made profile) → Distinct cuts → Upstream cuts s)
    (fun _ _ _ hstep => (step_cases hstep).upstreamCuts_subset)
    (fun cuts _ _ _ hold hstep hcuts hmade hdistinct =>
      (hold hmade hdistinct).step hmade hdistinct hcuts (step_cases hstep))
    (fun cuts _ _ => new_upstream cuts) hrun hmade hdistinct
  refine List.subperm_ext_iff.mpr fun packet _ => ?_
  have hledger := hupstream.ledger packet
  omega

def overtaken : List Event :=
  [.client (.load 0 4), .client (.fetchAdd 0), .client (.insert 0),
    .send 0 [1, 2, 3, 4] "a:1" ⟨false, some 14, 5, [.error .tooLarge]⟩, .send 0 [9] "b:2" ⟨false, some 14, 5, []⟩,
    .arriveUpstream 1 0 true, .arriveUpstream 0 0 true, .server (.sendPacket true true),
    .arriveUpstream 0 0 true, .server (.sendPacket true true)]

theorem sentToTargets_subperm_overtaken :
    ∃ t, run (step ⟨true⟩ 60) new overtaken = some t ∧ Distinct t.upstreamCuts ∧
      t.sentToTargets = [⟨1, "a:1", [1, 2, 3, 4]⟩, ⟨1, "b:2", [9]⟩] ∧ t.sentToTargets.Subperm t.submitted := by
  have hrun : (run (step ⟨true⟩ 60) new overtaken).map (fun t => (t.sentToTargets, t.upstreamCuts.map Cut.key)) =
      some ([⟨1, "a:1", [1, 2, 3, 4]⟩, ⟨1, "b:2", [9]⟩], [(1, 5, "a:1", 2)]) := by decide +kernel
  obtain ⟨t, ht, hpair⟩ := Option.map_eq_some_iff.mp hrun
  obtain ⟨hsent, hkeys⟩ := Prod.mk.inj hpair
  have hdistinct := distinct_of_keys hkeys (by decide) (by decide)
  exact ⟨t, ht, hdistinct, hsent, sentToTargets_subperm ⟨true⟩ 60 overtaken ht hdistinct⟩

end UdpTunnel
end Hysteria.Core
