import Hysteria.App.Socks5Destination
import Hysteria.Mobile.LocalSocks

/-! The parsers of addresses in the application and in the mobile client: that of a CONNECT
request reads a stream, that of a UDP datagram a slice. `socks5.rs` and `local_socks.rs` have
both of them, and the encoder, in the same words. -/
namespace Hysteria.App.Socks5

def readAddress : UInt8 → Mobile.LocalSocks.Served String := Mobile.LocalSocks.readAddress

end Hysteria.App.Socks5

namespace Hysteria.Mobile.LocalSocks
open Lib App.Socks5

def parseAddressFromBytes : List UInt8 → UInt8 → Except String (String × Nat) := App.Socks5.parseAddressFromBytes

def buildUdpDatagram : String → List UInt8 → Except String (List UInt8) := App.Socks5.buildUdpDatagram

/-- A datagram that is built for a destination is parsed as that destination and its payload. -/
theorem parse_build (d : Destination) (h : d.IsPlain) (payload : List UInt8) :
    (App.Socks5.buildUdpDatagram d.text payload >>= App.Socks5.parseUdpDatagram) = .ok (some (d.text, payload)) ∧
      (buildUdpDatagram d.text payload >>= parseUdpDatagram) = .ok (some (d.text, payload)) := by
  have hbuild : App.Socks5.buildUdpDatagram d.text payload = .ok (0 :: 0 :: 0 :: d.atyp :: (d.body ++ payload)) := by
    rw [App.Socks5.buildUdpDatagram, d.encodeAddress_text h]
    rfl
  have hread := d.parseAddressFromBytes_body payload
  have hpayload : (d.body ++ payload).drop d.body.length = payload := List.drop_left
  -- Behind an accepted header both parsers do the same.
  have hparse (parse : List UInt8 → Except String (Option (String × List UInt8)))
      (hheader : ∀ atyp rest, parse (0 :: 0 :: 0 :: atyp :: rest) = (App.Socks5.parseAddressFromBytes rest atyp >>=
        fun found => .ok (some (found.1, rest.drop found.2)))) :
      parse (0 :: 0 :: 0 :: d.atyp :: (d.body ++ payload)) = .ok (some (d.text, payload)) := by
    rw [hheader, hread]
    exact congrArg (fun payload => Except.ok (some (d.text, payload))) hpayload
  rw [buildUdpDatagram, hbuild]
  exact ⟨hparse App.Socks5.parseUdpDatagram fun _ _ => rfl, hparse parseUdpDatagram fun _ _ => rfl⟩

theorem parse_build_colons :
    let name : Destination := .domain ⟨"fe80::1:x", by decide⟩ 53
    let mapped : Destination := .ipv6 ⟨[0, 0, 0, 0, 0, 0, 0, 0, 0, 0, 0xff, 0xff, 192, 0, 2, 1], rfl⟩ 443
    name.text = "fe80::1:x:53" ∧ mapped.text = "[::ffff:192.0.2.1]:443" ∧
      (buildUdpDatagram name.text [7] >>= parseUdpDatagram) = .ok (some (name.text, [7])) ∧
      (buildUdpDatagram mapped.text [7] >>= parseUdpDatagram) = .ok (some (mapped.text, [7])) :=
  ⟨by decide +kernel, by decide +kernel, (parse_build _ (by decide +kernel) _).2,
    (parse_build _ (by decide +kernel) _).2⟩

section Stream
variable {α β : Type} {stream stream' : LocalStream} {bytes rest : List UInt8} {broken : Option String}
  {writes : List (Option String)} {n : Nat}

theorem served_bind {x : Served α} {a : α} (h : x stream = .ok (a, stream')) (f : α → Served β) :
    (x >>= f) stream = f a stream' := by
  change (x stream >>= fun (a, stream) => f a stream) = _
  rw [h]
  rfl

theorem served_bind_eq_ok {x : Served α} {f : α → Served β} {b : β} :
    (x >>= f) stream = .ok (b, stream') ↔
      ∃ a between, x stream = .ok (a, between) ∧ f a between = .ok (b, stream') := by
  change (x stream >>= fun (a, stream) => f a stream) = _ ↔ _
  rw [bind_eq_ok, Prod.exists]

theorem readExact_append (h : bytes.length = n) :
    readExact n ⟨bytes ++ rest, broken, writes⟩ = .ok (bytes, ⟨rest, broken, writes⟩) := by
  rw [readExact, if_pos (by rw [List.length_append]; omega), List.take_left' h, List.drop_left' h]

theorem readExact_eq_ok (h : readExact n stream = .ok (bytes, stream')) :
    bytes.length = n ∧ stream.unread = bytes ++ stream'.unread := by
  rw [readExact] at h
  split at h
  · next hle =>
    cases h
    exact ⟨by rw [List.length_take]; omega, (List.take_append_drop _ _).symm⟩
  · cases h

end Stream

def connectText (d : Destination) : String := s!"{d.host}:{d.port.toNat}"

theorem readHost_hostBytes (d : Destination) (rest : List UInt8) (broken : Option String)
    (writes : List (Option String)) :
    readHost d.atyp ⟨d.hostBytes ++ rest, broken, writes⟩ = .ok (d.host, ⟨rest, broken, writes⟩) := by
  cases d with
  | ipv4 ip port => exact served_bind (readExact_append (show ip.octets.length = 4 from rfl)) _
  | ipv6 ip port => exact served_bind (readExact_append ip.length_octets) _
  | domain name port =>
    have hutf8 : String.fromUTF8? (utf8Bytes name.text).toByteArray = some name.text := fromUTF8?_eq_some_iff.mpr rfl
    refine (served_bind (readExact_append (show [UInt8.ofNat (utf8Bytes name.text).length].length = 1 from rfl)) _).trans ?_
    refine (served_bind (readExact_append name.toNat_length.symm) _).trans ?_
    rw [hutf8]
    rfl

theorem readAddress_body (d : Destination) (rest : List UInt8) (broken : Option String) (writes : List (Option String)) :
    readAddress d.atyp ⟨d.body ++ rest, broken, writes⟩ = .ok (connectText d, ⟨rest, broken, writes⟩) := by
  have hport : readExact 2 ⟨beBytes 2 d.port.toNat ++ rest, broken, writes⟩ =
      .ok (beBytes 2 d.port.toNat, ⟨rest, broken, writes⟩) := readExact_append (length_beBytes _ _)
  rw [readAddress, Destination.body, List.append_assoc, served_bind (readHost_hostBytes d _ _ _), served_bind hport,
    d.beNat_port]
  rfl

theorem length_of_readFixed {n : Nat} {f : List UInt8 → String} {stream between behind : LocalStream} {host : String}
    {port : List UInt8} (hhost : (do return f (← readExact n) : Served String) stream = .ok (host, between))
    (hport : readExact 2 between = .ok (port, behind)) : n + 2 ≤ stream.unread.length := by
  obtain ⟨raw, after, hraw, hpure⟩ := served_bind_eq_ok.mp hhost
  cases hpure
  obtain ⟨hlength, hread⟩ := readExact_eq_ok hraw
  obtain ⟨hportLength, hunread⟩ := readExact_eq_ok hport
  rw [hread, hunread, List.length_append, List.length_append]
  omega

theorem complete_of_readAddress {atyp : UInt8} {stream stream' : LocalStream} {address : String}
    (h : readAddress atyp stream = .ok (address, stream')) : completeAddress stream.unread atyp = true := by
  obtain ⟨host, between, hhost, hmore⟩ := served_bind_eq_ok.mp h
  obtain ⟨port, behind, hport, -⟩ := served_bind_eq_ok.mp hmore
  rw [readHost] at hhost
  rw [completeAddress.eq_def]
  split_ifs at hhost ⊢ with hipv4 hipv6 hdomain
  · exact decide_eq_true (length_of_readFixed hhost hport)
  · exact decide_eq_true (length_of_readFixed hhost hport)
  · obtain ⟨len, named, hlen, hmore⟩ := served_bind_eq_ok.mp hhost
    obtain ⟨raw, after, hraw, hname⟩ := served_bind_eq_ok.mp hmore
    obtain ⟨hone, hunread⟩ := readExact_eq_ok hlen
    obtain ⟨hlength, hbehind⟩ := readExact_eq_ok hraw
    obtain ⟨first, rfl⟩ := List.length_eq_one_iff.mp hone
    cases hutf8 : String.fromUTF8? raw.toByteArray with
    | none =>
      rw [hutf8] at hname
      cases hname
    | some name =>
      rw [hutf8] at hname
      cases hname
      obtain ⟨hportLength, hrest⟩ := readExact_eq_ok hport
      rw [hunread, hbehind, hrest, List.singleton_append]
      have htake : (raw ++ (port ++ behind.unread)).take first.toNat = raw := List.take_left' hlength
      simp only [htake, hutf8, Option.isSome_some, Bool.and_true, decide_eq_true_iff, List.length_append]
      have : raw.length = first.toNat := hlength
      omega
  · cases hhost

theorem readAddress_eq_ok {atyp : UInt8} {stream stream' : LocalStream} {address : String}
    (h : readAddress atyp stream = .ok (address, stream')) :
    ∃ d : Destination, d.atyp = atyp ∧ stream.unread = d.body ++ stream'.unread := by
  obtain ⟨d, rest, rfl, hunread⟩ := Destination.exists_of_complete (complete_of_readAddress h)
  obtain ⟨unread, broken, writes⟩ := stream
  subst hunread
  cases (readAddress_body d rest broken writes).symm.trans h
  exact ⟨d, rfl, rfl⟩

section Agreement
variable (read : UInt8 → Served String) (parse : List UInt8 → UInt8 → Except String (String × Nat)) (atyp : UInt8)
  (stream : LocalStream)

def fromStream : Option (String × Nat) :=
  (read atyp stream).toOption.map fun (address, left) => (address, stream.unread.length - left.unread.length)

/-- Both parsers accept the bytes, and take equally many of them, or neither does. -/
def SameExtent : Prop :=
  (fromStream read atyp stream).map Prod.snd = (parse stream.unread atyp).toOption.map Prod.snd

/-- Both give the same address as well, and where it has an IP address it is parsed as the encoded
socket address. -/
structure Agree : Prop where
  same : fromStream read atyp stream = (parse stream.unread atyp).toOption
  parsed : ∀ (d : Destination) (rest : List UInt8), d.atyp = atyp → stream.unread = d.body ++ rest →
    d.socketAddr.isSome → ∀ address n, parse stream.unread atyp = .ok (address, n) →
      parseSocketAddr address.toList = d.socketAddr

end Agreement

theorem connectText_eq_text_iff (d : Destination) : connectText d = d.text ↔ d.atyp ≠ socks5AtypIpv6 := by
  cases d with
  | ipv4 ip port => exact iff_of_true rfl (show socks5AtypIpv4 ≠ socks5AtypIpv6 by decide)
  | ipv6 ip port =>
    refine iff_of_false (fun heq => ?_) (fun hne => hne rfl)
    have hlength := congrArg (fun text => text.toList.length) heq
    simp only [connectText, Destination.text, toList_hostPort, toList_bracketed, List.length_append,
      List.length_cons] at hlength
    omega
  | domain name port => exact iff_of_true rfl (show socks5AtypDomain ≠ socks5AtypIpv6 by decide)

theorem parsed_text (d : Destination) (h : d.socketAddr.isSome) : parseSocketAddr d.text.toList = d.socketAddr := by
  apply Destination.parseSocketAddr_text
  cases d with
  | ipv4 ip port => trivial
  | ipv6 ip port => trivial
  | domain name port => cases h

theorem fromStream_body (d : Destination) (rest : List UInt8) (broken : Option String)
    (writes : List (Option String)) :
    fromStream readAddress d.atyp ⟨d.body ++ rest, broken, writes⟩ = some (connectText d, d.body.length) := by
  rw [fromStream, readAddress_body]
  simp [Except.toOption]

theorem fromStream_incomplete {atyp : UInt8} {stream : LocalStream} (h : completeAddress stream.unread atyp = false) :
    fromStream readAddress atyp stream = none := by
  rw [fromStream]
  cases hread : readAddress atyp stream with
  | error fault => rfl
  | ok result =>
    have hcomplete := complete_of_readAddress hread
    rw [h] at hcomplete
    cases hcomplete

/-- The parsers always take the same bytes. They give the same address, from which the socket
address can be parsed again, exactly if the bytes are not an IPv6 address. -/
theorem parsers_agree_iff (atyp : UInt8) (stream : LocalStream) :
    SameExtent App.Socks5.readAddress App.Socks5.parseAddressFromBytes atyp stream ∧
    SameExtent readAddress parseAddressFromBytes atyp stream ∧
    (Agree App.Socks5.readAddress App.Socks5.parseAddressFromBytes atyp stream ↔
      ¬ (atyp = socks5AtypIpv6 ∧ 18 ≤ stream.unread.length)) ∧
    (Agree readAddress parseAddressFromBytes atyp stream ↔
      ¬ (atyp = socks5AtypIpv6 ∧ 18 ≤ stream.unread.length)) := by
  have hboth : SameExtent readAddress App.Socks5.parseAddressFromBytes atyp stream ∧
      (Agree readAddress App.Socks5.parseAddressFromBytes atyp stream ↔
        ¬ (atyp = socks5AtypIpv6 ∧ 18 ≤ stream.unread.length)) := by
    have hipv6 : atyp = socks5AtypIpv6 → (completeAddress stream.unread atyp = true ↔ 18 ≤ stream.unread.length) := by
      rintro rfl
      exact decide_eq_true_iff
    cases hcomplete : completeAddress stream.unread atyp with
    | true =>
      obtain ⟨unread, broken, writes⟩ := stream
      obtain ⟨d, rest, rfl, rfl⟩ := Destination.exists_of_complete hcomplete
      have hstream := fromStream_body d rest broken writes
      have hslice := d.parseAddressFromBytes_body rest
      refine ⟨by rw [SameExtent, hstream, hslice]; rfl, fun hagree hlong => ?_, fun hother => ⟨?_, ?_⟩⟩
      · have hsame := hagree.same
        rw [hstream, hslice] at hsame
        exact (connectText_eq_text_iff d).mp (congrArg Prod.fst (Option.some.inj hsame)) hlong.1
      · rw [hstream, hslice, (connectText_eq_text_iff d).mpr fun h => hother ⟨h, (hipv6 h).mp hcomplete⟩]
        rfl
      · intro d' rest' hatyp hunread haddr address n hparse
        have hslice' := d'.parseAddressFromBytes_body rest'
        rw [hatyp, ← hunread, hparse] at hslice'
        cases hslice'
        exact parsed_text d' haddr
    | false =>
      obtain ⟨err, hslice⟩ := parseAddressFromBytes_incomplete hcomplete
      have hstream := fromStream_incomplete hcomplete
      refine ⟨by rw [SameExtent, hstream, hslice]; rfl, iff_of_true ⟨by rw [hstream, hslice]; rfl, ?_⟩ ?_⟩
      · intro d rest hatyp hunread haddr address n hparse
        rw [hslice] at hparse
        cases hparse
      · rintro ⟨h, hlong⟩
        rw [(hipv6 h).mpr hlong] at hcomplete
        cases hcomplete
  exact ⟨hboth.1, hboth.1, hboth.2, hboth.2⟩

/-- The address of port 443 of the local host: what a CONNECT request makes of it cannot be
parsed as a socket address. -/
theorem ipv6_address_differs :
    let stream : LocalStream := ⟨[0, 0, 0, 0, 0, 0, 0, 0, 0, 0, 0, 0, 0, 0, 0, 1, 1, 187], none, []⟩
    (fromStream App.Socks5.readAddress socks5AtypIpv6 stream = some ("::1:443", 18) ∧
      App.Socks5.parseAddressFromBytes stream.unread socks5AtypIpv6 = .ok ("[::1]:443", 18)) ∧
    (fromStream readAddress socks5AtypIpv6 stream = some ("::1:443", 18) ∧
      parseAddressFromBytes stream.unread socks5AtypIpv6 = .ok ("[::1]:443", 18)) ∧
    parseSocketAddr "::1:443".toList = none ∧
      parseSocketAddr "[::1]:443".toList = some (.v6 ⟨stream.unread.take 16, rfl⟩ 443 0) := by
  decide +kernel

end Hysteria.Mobile.LocalSocks
