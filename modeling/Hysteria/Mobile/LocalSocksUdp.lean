import Hysteria.App.Socks5Udp

/-! The UDP side of a SOCKS5 association in the mobile client. `local_socks.rs` has its
own copy of the loop, which answers DNS queries itself and may have no tunnel at all. -/
namespace Hysteria.Mobile.LocalSocks
open Lib App.Socks5

inductive DnsProxyTransport where
  | plain
  | dot
deriving DecidableEq, Repr

/-- `answer` gives the result of the last query: resolving it and sending the response
back to the client. -/
structure DnsProxy where
  matchDestination : String → Option DnsProxyTransport
  answer : List Delivery → Except String Unit

def parseUdpDatagram (buf : List UInt8) : Except String (Option (String × List UInt8)) :=
  match buf with
  | first :: second :: frag :: atyp :: rest =>
    if first ≠ 0 ∨ second ≠ 0 ∨ frag ≠ 0 then .ok none
    else do
      let (address, payloadOffset) ← parseAddressFromBytes rest atyp
      return some (address, rest.drop payloadOffset)
  | _ => .ok none

def deliver (hyUdp : Option (List Delivery → Except String Unit)) (dnsProxy : Option DnsProxy)
    (log : List Delivery) (payload : List UInt8) (destination : String) :
    Except String (List Delivery) :=
  let tunnelled : Except String (List Delivery) :=
    match hyUdp with
    | some send => do
      let log := log ++ [.tunnel payload destination]
      (send log).mapError fun _ => "SOCKS5 UDP upload failed"
      return log
    | none => .ok log
  match dnsProxy with
  | some dns =>
    if dns.matchDestination destination = some .plain then do
      let log := log ++ [.dns payload destination]
      dns.answer log
      return log
    else tunnelled
  | none => tunnelled

variable {Addr : Type} [DecidableEq Addr]

def udpLocalToRemote (hyUdp : Option (List Delivery → Except String Unit))
    (dnsProxy : Option DnsProxy) :
    Association Addr → Datagram Addr → Flow (Association Addr) String :=
  relay parseUdpDatagram (deliver hyUdp dnsProxy)

def Delivers (hyUdp : Option (List Delivery → Except String Unit)) (dnsProxy : Option DnsProxy) :
    Prop :=
  (∀ send ∈ hyUdp, ∀ log, send log = .ok ()) ∧ ∀ dns ∈ dnsProxy, ∀ log, dns.answer log = .ok ()

theorem parseUdpDatagram_parses : Parses parseUdpDatagram := by
  apply Parses.of_header
  · intro buf h
    unfold parseUdpDatagram
    split
    · next first second frag atyp rest =>
      split_ifs with hheader
      · rfl
      · obtain ⟨rfl, rfl, rfl⟩ : first = 0 ∧ second = 0 ∧ frag = 0 := by simpa using hheader
        cases h
    · rfl
  · intro atyp rest
    rfl

theorem deliver_ok {hyUdp : Option (List Delivery → Except String Unit)}
    {dnsProxy : Option DnsProxy} (h : Delivers hyUdp dnsProxy) (log : List Delivery)
    (payload : List UInt8) (destination : String) :
    ∃ log', deliver hyUdp dnsProxy log payload destination = .ok log' := by
  obtain ⟨hsend, hanswer⟩ := h
  have htunnelled : ∃ log', deliver hyUdp none log payload destination = .ok log' := by
    cases hyUdp with
    | none => exact ⟨log, rfl⟩
    | some send =>
      simp only [deliver, hsend send rfl]
      exact ⟨_, rfl⟩
  cases dnsProxy with
  | none => exact htunnelled
  | some dns =>
    simp only [deliver, hanswer dns rfl]
    split
    · exact ⟨_, rfl⟩
    · exact htunnelled

/-- Noise has no effect on an association, in the application and in the mobile client,
exactly when no datagram starts a header and then breaks off in the address. -/
theorem noise_ignored_iff (client : Addr) (datagrams : List (Datagram Addr)) :
    ((∀ send, NoiseIgnored (App.Socks5.udpLocalToRemote send) (∀ log, send log = .ok ()) client
        datagrams) ↔
      ∀ datagram ∈ datagrams, headless datagram.received ∨ wellFormed datagram.received) ∧
    ((∀ hyUdp dnsProxy, NoiseIgnored (udpLocalToRemote hyUdp dnsProxy) (Delivers hyUdp dnsProxy)
        client datagrams) ↔
      ∀ datagram ∈ datagrams, headless datagram.received ∨ wellFormed datagram.received) := by
  constructor
  · constructor
    · intro h
      exact harmless_of_noiseIgnored App.Socks5.parseUdpDatagram_parses (fun _ => rfl)
        (h fun _ => .ok ())
    · intro hharmless send
      apply noiseIgnored_of_harmless App.Socks5.parseUdpDatagram_parses _ hharmless
      intro hsend log payload destination
      exact ⟨_, by rw [App.Socks5.deliver, hsend]; rfl⟩
  · constructor
    · intro h
      exact harmless_of_noiseIgnored parseUdpDatagram_parses ⟨nofun, nofun⟩ (h none none)
    · intro hharmless hyUdp dnsProxy
      exact noiseIgnored_of_harmless parseUdpDatagram_parses deliver_ok hharmless

/-- A stranger's four bytes end the association before the client's datagram is read. -/
theorem stranger_ends_association :
    let stranger : Datagram Nat := ⟨[0, 0, 0, 9], 1⟩
    let own : Datagram Nat := ⟨[0, 0, 0, 1, 192, 0, 2, 1, 0, 53, 7], 0⟩
    loop (App.Socks5.udpLocalToRemote fun _ => .ok ()) ⟨some 0, []⟩ [stranger, own] =
        (⟨some 0, []⟩, some "unsupported SOCKS5 address type 9") ∧
      loop (App.Socks5.udpLocalToRemote fun _ => .ok ()) ⟨some 0, []⟩ [own] =
        (⟨some 0, [.tunnel [7] "192.0.2.1:53"]⟩, none) ∧
      loop (udpLocalToRemote (some fun _ => .ok ()) none) ⟨some 0, []⟩ [stranger, own] =
        (⟨some 0, []⟩, some "unsupported SOCKS5 address type 9") ∧
      loop (udpLocalToRemote (some fun _ => .ok ()) none) ⟨some 0, []⟩ [own] =
        (⟨some 0, [.tunnel [7] "192.0.2.1:53"]⟩, none) :=
  ⟨rfl, rfl, rfl, rfl⟩

end Hysteria.Mobile.LocalSocks
