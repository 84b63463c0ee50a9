import Hysteria.Core.ClientTunnel
import Hysteria.Core.PacketReuse
import Hysteria.Core.ServerUdp

/-! The UDP side of one connection as a whole: the sessions of the client, the loop of the
server with its receive tasks, and the datagrams on their way between the two. QUIC hands a
datagram over once and in any order, or loses it. What is submitted at one end and comes out
at the other is kept in histories that no step reads. -/
namespace Hysteria.Core
open Lib

def maxUdpSize : Nat := 4096

/-- A payload with its session and its address: where the client wants it sent, or where the
server has it from. -/
structure Packet where
  sessionId : UInt32
  addr : String
  data : List UInt8
deriving DecidableEq, Repr

def Packet.message (packet : Packet) : UDPMessage := ⟨packet.sessionId, 0, 0, 1, packet.addr, packet.data⟩

/-- A packet that was too large for a datagram, with the draw for its packet id and its
fragments. -/
structure Cut where
  packet : Packet
  random : UInt16
  maxSize : Nat
  fragments : List UDPMessage

namespace DatagramLink

/-- The fragments that `send_udp_message` goes on with when the packet itself is too large. -/
def cut? (profile : Profile) (link : DatagramLink) (packet : Packet) : Option Cut :=
  let maxSize := link.maxDatagramSize.getD maxDatagramFrameSize
  match link.results.headD (.ok ()) with
  | .error .tooLarge =>
    if maxSize ≤ packet.message.headerSize then none
    else
      match (fragUdpMessage profile { packet.message with packetId := drawPacketId link.packetId } maxSize :
          Exec Empty _) with
      | .ok fragments => some ⟨packet, link.packetId, maxSize, fragments⟩
      | .error _ => none
  | _ => none

/-- The messages that the connection takes: the packet in one, or its fragments up to the
first that is refused. -/
def taken (profile : Profile) (link : DatagramLink) (packet : Packet) : List UDPMessage :=
  match link.results.headD (.ok ()) with
  | .ok () => [packet.message]
  | .error _ =>
    match link.cut? profile packet with
    | some cut =>
      match link.results.tail.findIdx? fun result => !result.isOk with
      | some k => cut.fragments.take k
      | none => cut.fragments
    | none => []

def datagrams (profile : Profile) (link : DatagramLink) (packet : Packet) : List (List UInt8) :=
  (link.taken profile packet).filterMap fun message => message.datagram.toOption

end DatagramLink

def ServerUdp.packetSent (server : ServerUdp) : ServerUdp.Event → Option Packet
  | .sendPacket targetResolves true =>
    match server.serverLoop with
    | .feeding sessionId message =>
      match server.sessions.get sessionId with
      | some session =>
        (session.resolve message.addr targetResolves).map fun _ => ⟨sessionId, message.addr, message.data⟩
      | none => none
    | _ => none
  | _ => none

def ClientUdpManager.packetReceived (profile : Profile) (client : ClientUdpManager) :
    ClientUdpManager.Event → Option Packet
  | .receive i =>
    match client.returned[i]? with
    | some session =>
      match (session.receive profile (client.senderAlive i session) : Exec Empty _) with
      | .ok (.received data addr, _) => some ⟨session.sessionId, addr, data⟩
      | _ => none
    | none => none
  | _ => none

structure UdpTunnel where
  client : ClientUdpManager
  server : ServerUdp
  upstream : List (List UInt8)
  downstream : List (List UInt8)
  submitted : List Packet
  sentToTargets : List Packet
  replies : List Packet
  received : List Packet
  upstreamCuts : List Cut
  downstreamCuts : List Cut

namespace UdpTunnel

def new : UdpTunnel where
  client := .new
  server := .new
  upstream := []
  downstream := []
  submitted := []
  sentToTargets := []
  replies := []
  received := []
  upstreamCuts := []
  downstreamCuts := []

/-- `client` and `server` are the steps of either end that read no datagram; `send` is a call
of `UdpSession::send` on a returned session, `reply` a turn of the receive loop of a task. -/
inductive Event where
  | client (event : ClientUdpManager.Event)
  | server (event : ServerUdp.Event)
  | send (session : Nat) (data : List UInt8) (addr : String) (link : DatagramLink)
  | reply (task : Nat) (source : String) (data : List UInt8) (link : DatagramLink)
  | arriveUpstream (i now : Nat) (socketOpens : Bool)
  | arriveDownstream (i : Nat)
  | loseUpstream (i : Nat)
  | loseDownstream (i : Nat)

def submit (profile : Profile) (t : UdpTunnel) (link : DatagramLink) (packet : Packet) : UdpTunnel :=
  { t with
    upstream := t.upstream ++ link.datagrams profile packet
    submitted := t.submitted ++ [packet]
    upstreamCuts := t.upstreamCuts ++ (link.cut? profile packet).toList }

def answer (profile : Profile) (t : UdpTunnel) (link : DatagramLink) (packet : Packet) : UdpTunnel :=
  { t with
    downstream := t.downstream ++ link.datagrams profile packet
    replies := t.replies ++ [packet]
    downstreamCuts := t.downstreamCuts ++ (link.cut? profile packet).toList }

def addrFits (addr : String) : Bool := addr.utf8ByteSize < 2 ^ 62

def step (profile : Profile) (timeout : Nat) (t : UdpTunnel) : Event → Option UdpTunnel
  | .client (.datagram _) => none
  | .client event => (t.client.step profile event).map fun client => { t with
      client
      received := t.received ++ (t.client.packetReceived profile event).toList }
  | .server (.datagram ..) => none
  | .server event => (t.server.step profile timeout event).map fun server => { t with
      server
      sentToTargets := t.sentToTargets ++ (t.server.packetSent event).toList }
  | .send i data addr link =>
    match t.client.returned[i]? with
    | some session =>
      if addrFits addr then
        -- A closed session reports an error and sends nothing.
        some (if session.closed then t else t.submit profile link ⟨session.sessionId, addr, data⟩)
      else none
    | none => none
  | .reply n source data link =>
    match t.server.tasks[n]? with
    | some ⟨sessionId, .polling, aborted⟩ =>
      if addrFits source ∧ data.length ≤ maxUdpSize then
        let packet : Packet := ⟨sessionId, source, data⟩
        let t := t.answer profile link packet
        match sendUdpMessage profile link packet.message with
        | .ok () => some t
        -- The loop ends with the error, and the task reports its end.
        | .error (.error _) => (t.server.step profile timeout (.endTask n)).map fun server => { t with server }
        | .error (.panic _) =>
          some { t with server.tasks := t.server.tasks.set n ⟨sessionId, .finished, aborted⟩ }
      else none
    | _ => none
  | .arriveUpstream i now socketOpens =>
    match t.upstream[i]? with
    | some bytes =>
      match t.server.serverLoop, parseUdpMessage bytes with
      | .selecting, .ok message =>
        (t.server.step profile timeout (.datagram message now socketOpens)).map fun server =>
          { t with server, upstream := t.upstream.eraseIdx i }
      | .selecting, .error _ => some { t with upstream := t.upstream.eraseIdx i }
      | _, _ => none
    | none => none
  | .arriveDownstream i =>
    match t.downstream[i]? with
    | some bytes => (t.client.step profile (.datagram bytes)).map fun client =>
        { t with client, downstream := t.downstream.eraseIdx i }
    | none => none
  | .loseUpstream i => some { t with upstream := t.upstream.eraseIdx i }
  | .loseDownstream i => some { t with downstream := t.downstream.eraseIdx i }

inductive Step (profile : Profile) (timeout : Nat) (t : UdpTunnel) : UdpTunnel → Prop where
  | client {event : ClientUdpManager.Event} {client : ClientUdpManager} : (∀ bytes, event ≠ .datagram bytes) →
      t.client.step profile event = some client →
      Step profile timeout t { t with
        client, received := t.received ++ (t.client.packetReceived profile event).toList }
  | server {event : ServerUdp.Event} {server : ServerUdp} :
      (∀ message now socketOpens, event ≠ .datagram message now socketOpens) →
      t.server.step profile timeout event = some server →
      Step profile timeout t { t with
        server, sentToTargets := t.sentToTargets ++ (t.server.packetSent event).toList }
  | refused : Step profile timeout t t
  | submitted {link : DatagramLink} {packet : Packet} : addrFits packet.addr →
      Step profile timeout t (t.submit profile link packet)
  | answered {link : DatagramLink} {packet : Packet} {server : ServerUdp} : addrFits packet.addr →
      server.sessions = t.server.sessions → server.serverLoop = t.server.serverLoop →
      Step profile timeout t { t.answer profile link packet with server }
  | fed {i now : Nat} {socketOpens : Bool} {bytes : List UInt8} {message : UDPMessage} {server : ServerUdp} :
      t.upstream[i]? = some bytes → parseUdpMessage bytes = .ok message → t.server.serverLoop = .selecting →
      t.server.feedMessage profile message now socketOpens = some server →
      Step profile timeout t { t with server, upstream := t.upstream.eraseIdx i }
  | picked {i : Nat} {bytes : List UInt8} {client : ClientUdpManager} : t.downstream[i]? = some bytes →
      t.client.step profile (.datagram bytes) = some client →
      Step profile timeout t { t with client, downstream := t.downstream.eraseIdx i }
  | lostUpstream (i : Nat) : Step profile timeout t { t with upstream := t.upstream.eraseIdx i }
  | lostDownstream (i : Nat) : Step profile timeout t { t with downstream := t.downstream.eraseIdx i }

theorem step_cases {profile : Profile} {timeout : Nat} {t after : UdpTunnel} {event : Event}
    (h : step profile timeout t event = some after) : Step profile timeout t after := by
  cases event with
  | client event =>
    by_cases hevent : ∃ bytes, event = .datagram bytes
    · obtain ⟨bytes, rfl⟩ := hevent
      cases h
    · have hother : ∀ bytes, event ≠ .datagram bytes := fun bytes heq => hevent ⟨bytes, heq⟩
      rw [step] at h
      · obtain ⟨client, hclient, rfl⟩ := Option.map_eq_some_iff.mp h
        exact .client hother hclient
      · exact fun bytes heq => hother bytes heq
  | server event =>
    by_cases hevent : ∃ message now socketOpens, event = .datagram message now socketOpens
    · obtain ⟨message, now, socketOpens, rfl⟩ := hevent
      cases h
    · have hother : ∀ message now socketOpens, event ≠ .datagram message now socketOpens :=
        fun message now socketOpens heq => hevent ⟨message, now, socketOpens, heq⟩
      rw [step] at h
      · obtain ⟨server, hserver, rfl⟩ := Option.map_eq_some_iff.mp h
        exact .server hother hserver
      · exact fun message now socketOpens heq => hother message now socketOpens heq
  | send i data addr link =>
    simp only [step] at h
    split at h
    · next session hsession =>
      split at h
      · next hfits =>
        cases h
        split
        · exact .refused
        · exact .submitted hfits
      · cases h
    · cases h
  | reply n source data link =>
    simp only [step] at h
    split at h
    · next sessionId aborted htask =>
      split at h
      · next hfits =>
        split at h
        · cases h
          exact .answered hfits.1 rfl rfl
        · obtain ⟨server, hserver, rfl⟩ := Option.map_eq_some_iff.mp h
          cases ServerUdp.step_cases hserver with
          | ended _ => exact .answered hfits.1 rfl rfl
        · cases h
          exact .answered hfits.1 rfl rfl
      · cases h
    · cases h
  | arriveUpstream i now socketOpens =>
    simp only [step] at h
    split at h
    · next bytes hbytes =>
      split at h
      · next hloop hparse =>
        obtain ⟨server, hserver, rfl⟩ := Option.map_eq_some_iff.mp h
        rw [ServerUdp.step, hloop] at hserver
        exact .fed hbytes hparse hloop hserver
      · cases h
        exact .lostUpstream i
      · cases h
    · cases h
  | arriveDownstream i =>
    simp only [step] at h
    split at h
    · next bytes hbytes =>
      obtain ⟨client, hclient, rfl⟩ := Option.map_eq_some_iff.mp h
      exact .picked hbytes hclient
    · cases h
  | loseUpstream i =>
    cases h
    exact .lostUpstream i
  | loseDownstream i =>
    cases h
    exact .lostDownstream i

end UdpTunnel
end Hysteria.Core
