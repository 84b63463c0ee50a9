import Hysteria.Lib.Bytes
import Hysteria.Lib.Loop

/-! The UDP side of a SOCKS5 association, as `socks5.rs` serves it: datagrams of the
client carry a header with the destination and are sent on into the tunnel. The client is
whoever sends the first readable datagram. -/
namespace Hysteria.App.Socks5
open Lib

def socks5AtypIpv4 : UInt8 := 0x01
def socks5AtypDomain : UInt8 := 0x03
def socks5AtypIpv6 : UInt8 := 0x04

/-- `Ipv4Addr::to_string`. -/
def ipv4ToString (a b c d : UInt8) : String := s!"{a}.{b}.{c}.{d}"

def segments : List UInt8 → List Nat
  | hi :: lo :: rest => beNat [hi, lo] :: segments rest
  | _ => []

/-- The longest run of zero segments, the first of several: where it starts and its
length. The scan carries the longest run so far and the one it is in. -/
def longestZeros (segments : List Nat) : Nat × Nat :=
  (segments.zipIdx.foldl (fun (longest, current) (segment, i) =>
    if segment = 0 then
      let current := if current.2 = 0 then (i, 1) else (current.1, current.2 + 1)
      (if current.2 > longest.2 then current else longest, current)
    else (longest, (0, 0))) ((0, 0), (0, 0))).1

def joinSegments (segments : List Nat) : String :=
  String.intercalate ":" (segments.map fun segment => String.ofList (Nat.toDigits 16 segment))

/-- `Ipv6Addr::to_string`: an embedded IPv4 address in its own notation, otherwise the
longest run of at least two zero segments left out. -/
def ipv6ToString (octets : List UInt8) : String :=
  match octets with
  | [0, 0, 0, 0, 0, 0, 0, 0, 0, 0, 0xff, 0xff, a, b, c, d] => "::ffff:" ++ ipv4ToString a b c d
  | _ =>
    let segments := segments octets
    let (start, len) := longestZeros segments
    if len > 1 then
      joinSegments (segments.take start) ++ "::" ++ joinSegments (segments.drop (start + len))
    else joinSegments segments

/-- The address at the start of the bytes and its length. -/
def parseAddressFromBytes (buf : List UInt8) (atyp : UInt8) : Except String (String × Nat) :=
  if atyp = socks5AtypIpv4 then
    match buf with
    | a :: b :: c :: d :: hi :: lo :: _ =>
      let host := ipv4ToString a b c d
      let port := beNat [hi, lo]
      .ok (s!"{host}:{port}", 6)
    | _ => .error "truncated SOCKS5 IPv4 address"
  else if atyp = socks5AtypIpv6 then
    if buf.length < 18 then .error "truncated SOCKS5 IPv6 address"
    else
      let host := ipv6ToString (buf.take 16)
      let port := beNat ((buf.drop 16).take 2)
      .ok (s!"[{host}]:{port}", 18)
  else if atyp = socks5AtypDomain then
    match buf with
    | [] => .error "truncated SOCKS5 domain address"
    | first :: rest =>
      let hostLen := first.toNat
      if (first :: rest).length < 1 + hostLen + 2 then .error "truncated SOCKS5 domain address"
      else match String.fromUTF8? (rest.take hostLen).toByteArray with
        | none => .error "invalid SOCKS5 domain address"
        | some host =>
          let port := beNat ((rest.drop hostLen).take 2)
          .ok (s!"{host}:{port}", 1 + hostLen + 2)
  else .error s!"unsupported SOCKS5 address type {atyp}"

/-- The destination and the payload of a datagram, or `none` if it is not one. -/
def parseUdpDatagram (buf : List UInt8) : Except String (Option (String × List UInt8)) :=
  match buf with
  | first :: second :: frag :: atyp :: rest =>
    if first ≠ 0 ∨ second ≠ 0 then .ok none
    else if frag ≠ 0 then .ok none
    else do
      let (address, payloadOffset) ← parseAddressFromBytes rest atyp
      return some (address, rest.drop payloadOffset)
  | _ => .ok none

structure Datagram (Addr : Type) where
  bytes : List UInt8
  peer : Addr

/-- What `recv_from` leaves in the buffer of 4096 bytes. -/
def Datagram.received {Addr : Type} (datagram : Datagram Addr) : List UInt8 :=
  datagram.bytes.take 4096

inductive Delivery where
  | tunnel (payload : List UInt8) (destination : String)
  | dns (payload : List UInt8) (destination : String)
deriving DecidableEq, Repr

structure Association (Addr : Type) where
  clientAddr : Option Addr
  log : List Delivery

variable {Addr : Type} [DecidableEq Addr]

/-- One round of the loops that serve an association. They differ in what they do with a
payload in the end; that may depend on all that was delivered before. -/
def relay (parse : List UInt8 → Except String (Option (String × List UInt8)))
    (deliver : List Delivery → List UInt8 → String → Except String (List Delivery))
    (s : Association Addr) (datagram : Datagram Addr) : Flow (Association Addr) String :=
  match parse datagram.received with
  | .error err => .stop s err
  | .ok none => .next s
  | .ok (some (destination, payload)) =>
    if s.clientAddr.any (· ≠ datagram.peer) then .next s
    else
      let s := { s with clientAddr := some datagram.peer }
      match deliver s.log payload destination with
      | .ok log => .next { s with log }
      | .error err => .stop s err

def deliver (send : List Delivery → Except String Unit) (log : List Delivery)
    (payload : List UInt8) (destination : String) : Except String (List Delivery) := do
  let log := log ++ [.tunnel payload destination]
  send log
  return log

def udpLocalToRemote (send : List Delivery → Except String Unit) :
    Association Addr → Datagram Addr → Flow (Association Addr) String :=
  relay parseUdpDatagram (deliver send)

def completeAddress (buf : List UInt8) (atyp : UInt8) : Bool :=
  if atyp = socks5AtypIpv4 then 6 ≤ buf.length
  else if atyp = socks5AtypIpv6 then 18 ≤ buf.length
  else if atyp = socks5AtypDomain then
    match buf with
    | [] => false
    | first :: rest => first.toNat + 2 ≤ rest.length &&
        (String.fromUTF8? (rest.take first.toNat).toByteArray).isSome
  else false

def wellFormed : List UInt8 → Bool
  | 0 :: 0 :: 0 :: atyp :: rest => completeAddress rest atyp
  | _ => false

/-- Not even the start of a header that the association reads on from. -/
def headless : List UInt8 → Bool
  | 0 :: 0 :: 0 :: _ :: _ => false
  | _ => true

def noise (client : Addr) (datagram : Datagram Addr) : Bool :=
  datagram.peer ≠ client || !wellFormed datagram.received

theorem parseAddressFromBytes_complete {buf : List UInt8} {atyp : UInt8}
    (h : completeAddress buf atyp = true) :
    ∃ address, parseAddressFromBytes buf atyp = .ok address := by
  unfold completeAddress at h
  unfold parseAddressFromBytes
  split_ifs at h ⊢ with hipv4 hipv6 hshort hdomain
  · match buf, h with
    | a :: b :: c :: d :: hi :: lo :: _, _ => exact ⟨_, rfl⟩
  · simp at h
    omega
  · exact ⟨_, rfl⟩
  · cases buf with
    | nil => cases h
    | cons first rest =>
      simp only [Bool.and_eq_true, decide_eq_true_eq] at h
      obtain ⟨host, hhost⟩ := Option.isSome_iff_exists.mp h.2
      have hlong : ¬ (first :: rest).length < 1 + first.toNat + 2 := by
        rw [List.length_cons]
        omega
      dsimp only
      rw [if_neg hlong, hhost]
      exact ⟨_, rfl⟩

theorem parseAddressFromBytes_incomplete {buf : List UInt8} {atyp : UInt8}
    (h : completeAddress buf atyp = false) :
    ∃ err, parseAddressFromBytes buf atyp = .error err := by
  unfold completeAddress at h
  unfold parseAddressFromBytes
  split_ifs at h ⊢ with hipv4 hipv6 hshort hdomain
  · split
    · simp at h
    · exact ⟨_, rfl⟩
  · exact ⟨_, rfl⟩
  · simp at h
    omega
  · cases buf with
    | nil => exact ⟨_, rfl⟩
    | cons first rest =>
      dsimp only
      split
      · exact ⟨_, rfl⟩
      · next hlong =>
        rw [List.length_cons] at hlong
        have hroom : first.toNat + 2 ≤ rest.length := by omega
        simp only [hroom, decide_true, Bool.true_and, Option.isSome_eq_false_iff,
          Option.isNone_iff_eq_none] at h
        rw [h]
        exact ⟨_, rfl⟩
  · exact ⟨_, rfl⟩

structure Parses (parse : List UInt8 → Except String (Option (String × List UInt8))) : Prop where
  skips : ∀ buf, headless buf = true → parse buf = .ok none
  reads : ∀ buf, wellFormed buf = true → ∃ result, parse buf = .ok (some result)
  fails : ∀ buf, headless buf = false → wellFormed buf = false → ∃ err, parse buf = .error err

theorem headless_eq_false {buf : List UInt8} (h : headless buf = false) :
    ∃ atyp rest, buf = 0 :: 0 :: 0 :: atyp :: rest := by
  unfold headless at h
  split at h
  · exact ⟨_, _, rfl⟩
  · cases h

theorem wellFormed_header {buf : List UInt8} (h : wellFormed buf = true) : headless buf = false := by
  unfold wellFormed at h
  split at h
  · rfl
  · cases h

theorem Parses.of_header {parse : List UInt8 → Except String (Option (String × List UInt8))}
    (hskips : ∀ buf, headless buf = true → parse buf = .ok none)
    (hheader : ∀ atyp rest, parse (0 :: 0 :: 0 :: atyp :: rest) = do
      let (address, payloadOffset) ← parseAddressFromBytes rest atyp
      return some (address, rest.drop payloadOffset)) : Parses parse where
  skips := hskips
  reads := by
    intro buf h
    obtain ⟨atyp, rest, rfl⟩ := headless_eq_false (wellFormed_header h)
    obtain ⟨address, haddress⟩ := parseAddressFromBytes_complete (show completeAddress rest atyp from h)
    rw [hheader, haddress]
    exact ⟨_, rfl⟩
  fails := by
    intro buf hheaded h
    obtain ⟨atyp, rest, rfl⟩ := headless_eq_false hheaded
    obtain ⟨err, herr⟩ := parseAddressFromBytes_incomplete
      (show completeAddress rest atyp = false from h)
    rw [hheader, herr]
    exact ⟨err, rfl⟩

theorem parseUdpDatagram_parses : Parses parseUdpDatagram := by
  apply Parses.of_header
  · intro buf h
    unfold parseUdpDatagram
    split
    · next first second frag atyp rest =>
      split_ifs with hversion hfrag
      · rfl
      · rfl
      · obtain ⟨rfl, rfl⟩ : first = 0 ∧ second = 0 := by simpa using hversion
        obtain rfl : frag = 0 := by simpa using hfrag
        cases h
    · rfl
  · intro atyp rest
    rfl

/-- From every state with the client registered, the association ends up in the same
state with and without the noise, and ends by the same error or not at all; as long as
every delivery succeeds it does not end. -/
def NoiseIgnored (body : Association Addr → Datagram Addr → Flow (Association Addr) String)
    (delivers : Prop) (client : Addr) (datagrams : List (Datagram Addr)) : Prop :=
  ∀ log, loop body ⟨some client, log⟩ datagrams =
      loop body ⟨some client, log⟩ (datagrams.filter fun datagram => !noise client datagram) ∧
    (delivers → (loop body ⟨some client, log⟩ datagrams).2 = none)

section Relay

variable {parse : List UInt8 → Except String (Option (String × List UInt8))}
  {deliver : List Delivery → List UInt8 → String → Except String (List Delivery)}

theorem relay_client {client : Addr} {s s' : Association Addr} {datagram : Datagram Addr}
    (hs : s.clientAddr = some client) (h : relay parse deliver s datagram = .next s') :
    s'.clientAddr = some client := by
  unfold relay at h
  split at h
  · cases h
  · cases h
    exact hs
  · split at h
    · cases h
      exact hs
    · next hpeer =>
      have hclient : client = datagram.peer := by simpa [hs] using hpeer
      dsimp only at h
      split at h <;> cases h
      rw [hclient]

theorem relay_foreign (hparse : Parses parse) {client : Addr} {s : Association Addr}
    {datagram : Datagram Addr} (hs : s.clientAddr = some client) (hpeer : datagram.peer ≠ client)
    (hformed : wellFormed datagram.received = true) : relay parse deliver s datagram = .next s := by
  obtain ⟨⟨destination, payload⟩, hread⟩ := hparse.reads _ hformed
  have hother : s.clientAddr.any (· ≠ datagram.peer) = true := by simp [hs, Ne.symm hpeer]
  unfold relay
  rw [hread]
  dsimp only
  rw [if_pos hother]

theorem relay_headless (hparse : Parses parse) {s : Association Addr} {datagram : Datagram Addr}
    (hheadless : headless datagram.received = true) : relay parse deliver s datagram = .next s := by
  unfold relay
  rw [hparse.skips _ hheadless]

theorem relay_malformed (hparse : Parses parse) (s : Association Addr) {datagram : Datagram Addr}
    (hheaded : headless datagram.received = false) (hformed : wellFormed datagram.received = false) :
    ∃ err, relay parse deliver s datagram = .stop s err := by
  obtain ⟨err, herr⟩ := hparse.fails _ hheaded hformed
  refine ⟨err, ?_⟩
  unfold relay
  rw [herr]

theorem relay_delivered (hparse : Parses parse) {s : Association Addr} {datagram : Datagram Addr}
    (hdelivers : ∀ log payload destination, ∃ log', deliver log payload destination = .ok log')
    (hformed : wellFormed datagram.received = true) :
    ∃ s', relay parse deliver s datagram = .next s' := by
  obtain ⟨⟨destination, payload⟩, hread⟩ := hparse.reads _ hformed
  obtain ⟨log', hlog⟩ := hdelivers s.log payload destination
  unfold relay
  rw [hread]
  dsimp only
  split
  · exact ⟨_, rfl⟩
  · rw [hlog]
    exact ⟨_, rfl⟩

theorem noiseIgnored_of_harmless (hparse : Parses parse) {delivers : Prop} {client : Addr}
    {datagrams : List (Datagram Addr)}
    (hdelivers : delivers → ∀ log payload destination, ∃ log', deliver log payload destination = .ok log')
    (hharmless : ∀ datagram ∈ datagrams,
      headless datagram.received ∨ wellFormed datagram.received) :
    NoiseIgnored (relay parse deliver) delivers client datagrams := by
  intro log
  have hskip : ∀ (s : Association Addr) datagram, s.clientAddr = some client →
      datagram ∈ datagrams → noise client datagram = true →
      relay parse deliver s datagram = .next s := by
    intro s datagram hs hmem hnoise
    rcases hharmless datagram hmem with hheadless | hformed
    · exact relay_headless hparse hheadless
    · have hpeer : datagram.peer ≠ client := by simpa [noise, hformed] using hnoise
      exact relay_foreign hparse hs hpeer hformed
  constructor
  · symm
    apply loop_filter (I := fun s => s.clientAddr = some client)
    · intro s datagram s' hs h
      exact relay_client hs h
    · rfl
    · intro s datagram hs hmem hkept
      exact hskip s datagram hs hmem (by simpa using hkept)
  · intro hsucceeds
    apply loop_open (I := fun s => s.clientAddr = some client)
    · intro s datagram s' hs h
      exact relay_client hs h
    · rfl
    · intro s datagram hs hmem
      cases hnoise : noise client datagram with
      | true => exact ⟨s, hskip s datagram hs hmem hnoise⟩
      | false =>
        have hformed : wellFormed datagram.received = true := by
          simp only [noise, Bool.or_eq_false_iff, Bool.not_eq_false'] at hnoise
          exact hnoise.2
        exact relay_delivered hparse (hdelivers hsucceeds) hformed

theorem harmless_of_noiseIgnored (hparse : Parses parse) {delivers : Prop} {client : Addr}
    {datagrams : List (Datagram Addr)} (hdelivers : delivers)
    (h : NoiseIgnored (relay parse deliver) delivers client datagrams) :
    ∀ datagram ∈ datagrams, headless datagram.received ∨ wellFormed datagram.received := by
  intro datagram hmem
  by_contra hbroken
  rw [not_or, Bool.not_eq_true, Bool.not_eq_true] at hbroken
  apply loop_closed (I := fun s => s.clientAddr = some client) _ _ hmem _ ((h []).2 hdelivers)
  · intro s datagram s' hs h
    exact relay_client hs h
  · rfl
  · intro s _
    obtain ⟨err, hstop⟩ := relay_malformed hparse s hbroken.1 hbroken.2
    exact ⟨s, err, hstop⟩

end Relay

end Hysteria.App.Socks5
