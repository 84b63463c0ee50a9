import Hysteria.App.Socks5Address

/-! What an address of the protocol means: a destination, which has one encoding and is
displayed in one way. Reading and writing addresses is described by destinations. -/
namespace Hysteria.App.Socks5
open Lib

structure DomainName where
  text : String
  fits : (utf8Bytes text).length ≤ 255

theorem DomainName.toNat_length (name : DomainName) :
    (UInt8.ofNat (utf8Bytes name.text).length).toNat = (utf8Bytes name.text).length := by
  have := name.fits
  rw [UInt8.toNat_ofNat', Nat.mod_eq_of_lt (by omega)]

inductive Destination where
  | ipv4 (ip : Ipv4Addr) (port : UInt16)
  | ipv6 (ip : Ipv6Addr) (port : UInt16)
  | domain (name : DomainName) (port : UInt16)

namespace Destination

def port : Destination → UInt16
  | ipv4 _ port | ipv6 _ port | domain _ port => port

def host : Destination → String
  | ipv4 ip _ => ipv4ToString ip.a ip.b ip.c ip.d
  | ipv6 ip _ => ipv6ToString ip.octets
  | domain name _ => name.text

/-- The destination as a socket address or a name with a port is displayed. -/
def text (d : Destination) : String :=
  match d with
  | ipv6 _ _ => s!"[{d.host}]:{d.port.toNat}"
  | ipv4 _ _ | domain _ _ => s!"{d.host}:{d.port.toNat}"

def atyp : Destination → UInt8
  | ipv4 _ _ => socks5AtypIpv4
  | ipv6 _ _ => socks5AtypIpv6
  | domain _ _ => socks5AtypDomain

def hostBytes : Destination → List UInt8
  | ipv4 ip _ => ip.octets
  | ipv6 ip _ => ip.octets
  | domain name _ => .ofNat (utf8Bytes name.text).length :: utf8Bytes name.text

def body (d : Destination) : List UInt8 := d.hostBytes ++ beBytes 2 d.port.toNat

def socketAddr : Destination → Option IpSocketAddr
  | ipv4 ip port => some (.v4 ip port.toNat)
  | ipv6 ip port => some (.v6 ip port.toNat 0)
  | domain _ _ => none

theorem port_lt (d : Destination) : d.port.toNat < 65536 := d.port.toNat_lt

theorem beNat_port (d : Destination) : beNat (beBytes 2 d.port.toNat) = d.port.toNat :=
  beNat_beBytes_of_lt d.port_lt

theorem parseAddressFromBytes_domain {first : UInt8} {behind : List UInt8} (h : first.toNat + 2 ≤ behind.length) :
    parseAddressFromBytes (first :: behind) socks5AtypDomain =
      match String.fromUTF8? (behind.take first.toNat).toByteArray with
      | none => .error "invalid SOCKS5 domain address"
      | some host => .ok (s!"{host}:{beNat ((behind.drop first.toNat).take 2)}", 1 + first.toNat + 2) := by
  have hlong : ¬ (first :: behind).length < 1 + first.toNat + 2 := by
    rw [List.length_cons]
    omega
  rw [parseAddressFromBytes.eq_def, if_neg (by decide), if_neg (by decide), if_pos rfl]
  exact if_neg hlong

theorem parseAddressFromBytes_body (d : Destination) (rest : List UInt8) :
    parseAddressFromBytes (d.body ++ rest) d.atyp = .ok (d.text, d.body.length) := by
  have hport := d.beNat_port
  cases d with
  | ipv4 ip port =>
    have hread : parseAddressFromBytes ((ipv4 ip port).body ++ rest) socks5AtypIpv4 =
      .ok (s!"{(ipv4 ip port).host}:{beNat (beBytes 2 (ipv4 ip port).port.toNat)}", 6) := rfl
    rw [atyp, hread, hport]
    rfl
  | ipv6 ip port =>
    have hlength := ip.length_octets
    have hlong : ¬ ((ipv6 ip port).body ++ rest).length < 18 := by
      simp only [body, hostBytes, List.length_append, length_beBytes]
      omega
    have htake : ((ipv6 ip port).body ++ rest).take 16 = ip.octets := by
      rw [body, hostBytes, List.append_assoc, List.take_left' hlength]
    have hdrop : (((ipv6 ip port).body ++ rest).drop 16).take 2 = beBytes 2 (ipv6 ip port).port.toNat := by
      rw [body, hostBytes, List.append_assoc, List.drop_left' hlength, List.take_left' (length_beBytes _ _)]
    have hbody : (ipv6 ip port).body.length = 18 := by simp [body, hostBytes, hlength]
    simp only [parseAddressFromBytes, atyp, hlong, htake, hdrop, hport, hbody]
    rfl
  | domain name port =>
    have hbody : (domain name port).body ++ rest = UInt8.ofNat (utf8Bytes name.text).length ::
        (utf8Bytes name.text ++ (beBytes 2 port.toNat ++ rest)) := by simp [body, hostBytes, Destination.port]
    have hlength : (domain name port).body.length = 1 + (utf8Bytes name.text).length + 2 := by
      simp only [body, hostBytes, List.length_append, List.length_cons, length_beBytes]
      omega
    have hutf8 : String.fromUTF8? (utf8Bytes name.text).toByteArray = some name.text := fromUTF8?_eq_some_iff.mpr rfl
    have hbytes : beNat (beBytes 2 port.toNat) = port.toNat := hport
    rw [hlength, hbody, atyp, parseAddressFromBytes_domain, name.toNat_length, List.take_left, List.drop_left,
      List.take_left' (length_beBytes 2 _), hutf8, hbytes]
    · rfl
    · rw [name.toNat_length, List.length_append, List.length_append, length_beBytes]
      omega

theorem exists_port_behind {bytes : List UInt8} {n : Nat} (h : n + 2 ≤ bytes.length) :
    ∃ (port : UInt16) (rest : List UInt8), bytes = bytes.take n ++ (beBytes 2 port.toNat ++ rest) := by
  match hdrop : bytes.drop n with
  | hi :: lo :: rest =>
    have hlt : beNat [hi, lo] < 256 ^ 2 := beNat_lt [hi, lo]
    have hport : (UInt16.ofNat (beNat [hi, lo])).toNat = beNat [hi, lo] := by
      rw [UInt16.toNat_ofNat', Nat.mod_eq_of_lt (by omega)]
    refine ⟨.ofNat (beNat [hi, lo]), rest, ?_⟩
    rw [hport, beBytes_beNat_pair, List.cons_append, List.cons_append, List.nil_append, ← hdrop,
      List.take_append_drop]
  | [_] | [] =>
    have := congrArg List.length hdrop
    rw [List.length_drop] at this
    simp only [List.length_cons, List.length_nil] at this
    omega

theorem exists_of_complete {buf : List UInt8} {atyp : UInt8} (h : completeAddress buf atyp = true) :
    ∃ (d : Destination) (rest : List UInt8), d.atyp = atyp ∧ buf = d.body ++ rest := by
  unfold completeAddress at h
  split_ifs at h with hipv4 hipv6 hdomain
  · obtain ⟨port, rest, hbuf⟩ := exists_port_behind (show 4 + 2 ≤ buf.length by simpa using h)
    match buf, hbuf with
    | a :: b :: c :: d :: behind, hbuf =>
      refine ⟨ipv4 ⟨a, b, c, d⟩ port, rest, hipv4.symm, ?_⟩
      rw [body, List.append_assoc]
      exact hbuf
  · obtain ⟨port, rest, hbuf⟩ := exists_port_behind (show 16 + 2 ≤ buf.length by simpa using h)
    refine ⟨ipv6 ⟨buf.take 16, by simp at h ⊢; omega⟩ port, rest, hipv6.symm, ?_⟩
    rw [body, List.append_assoc]
    exact hbuf
  · cases buf with
    | nil => cases h
    | cons first behind =>
      rw [Bool.and_eq_true, decide_eq_true_iff] at h
      obtain ⟨text, htext⟩ := Option.isSome_iff_exists.mp h.2
      rw [fromUTF8?_eq_some_iff] at htext
      obtain ⟨port, rest, hbehind⟩ := exists_port_behind h.1
      have hlength : (utf8Bytes text).length = first.toNat := by
        rw [htext, List.length_take]
        omega
      have hfirst : first.toNat < 256 := first.toNat_lt
      refine ⟨domain ⟨text, by omega⟩ port, rest, hdomain.symm, ?_⟩
      rw [body, List.append_assoc]
      change first :: behind = UInt8.ofNat (utf8Bytes text).length :: (utf8Bytes text ++ (beBytes 2 port.toNat ++ rest))
      rw [hlength, UInt8.ofNat_toNat, htext, ← hbehind]

def IsPlain : Destination → Prop
  | domain name _ => parseIpv4 name.text.toList = none ∧ parseIpv6 name.text.toList = none ∧
      name.text.toList.head? ≠ some '[' ∧ name.text.toList.getLast? ≠ some ']'
  | ipv4 _ _ | ipv6 _ _ => True

instance : (d : Destination) → Decidable d.IsPlain
  | ipv4 _ _ => .isTrue trivial
  | ipv6 _ _ => .isTrue trivial
  | domain _ _ => inferInstanceAs (Decidable (_ ∧ _ ∧ _ ∧ _))

theorem parseSocketAddr_text {d : Destination} (h : d.IsPlain) : parseSocketAddr d.text.toList = d.socketAddr := by
  have hport := value_port d.port_lt
  cases d with
  | ipv4 ip port =>
    rw [text, toList_hostPort, host, toList_ipv4ToString]
    exact parseSocketAddr_v4 (parseIpv4_text ip) hport
  | ipv6 ip port =>
    rw [text, toList_bracketed]
    exact parseSocketAddr_v6 (parseIpv6_ipv6ToString ip) hport
  | domain name port =>
    rw [text, toList_hostPort]
    exact parseSocketAddr_name h.1 h.2.2.1

theorem splitHostPort_text {d : Destination} (h : d.IsPlain) : splitHostPort d.text = .ok (d.host, d.port.toNat) := by
  unfold splitHostPort
  rw [parseSocketAddr_text h]
  cases d with
  | ipv4 ip port => rfl
  | ipv6 ip port => rfl
  | domain name port =>
    obtain ⟨-, -, hopen, hclose⟩ := h
    have hcolon : ':' ∉ Nat.toDigits 10 port.toNat := by
      intro hmem
      exact absurd ((numeral_digits (numeral_toDigits _)).2 _ hmem) (by decide)
    have hstart : name.text.toList.dropWhile (· = '[') = name.text.toList := by
      rw [List.dropWhile_eq_self_iff]
      intro hpos hbracket
      rw [decide_eq_true_iff] at hbracket
      exact hopen (by rw [List.head?_eq_getElem?, List.getElem?_eq_getElem hpos, hbracket])
    have hend : name.text.toList.rdropWhile (· = ']') = name.text.toList := by
      rw [List.rdropWhile_eq_self_iff]
      intro hne hbracket
      rw [decide_eq_true_iff] at hbracket
      exact hclose (by rw [List.getLast?_eq_some_getLast hne, hbracket])
    have hparse : fromStrRadix 16 10 (Nat.toDigits 10 port.toNat) = some port.toNat :=
      fromStrRadix_of_numeral (by decide) (numeral_toDigits _) port.toNat_lt
    rw [text, toList_hostPort, socketAddr]
    simp only [host, rsplitOnce_append _ hcolon, hstart, hend, Destination.port, hparse, String.ofList_toList]

theorem encodeAddress_text {d : Destination} (h : d.IsPlain) : encodeAddress d.text = .ok (d.atyp :: d.body) := by
  rw [encodeAddress, splitHostPort_text h]
  simp only [bind, Except.bind]
  cases d with
  | ipv4 ip port =>
    simp only [host, toList_ipv4ToString, parseIpv4_text]
    rfl
  | ipv6 ip port =>
    have hdisplayed := parseIpv6_ipv6ToString ip
    simp only [host, parseIpv4_ipv6ToString, hdisplayed]
    rfl
  | domain name port =>
    obtain ⟨hipv4, hipv6, -⟩ := h
    simp only [host, hipv4, hipv6]
    exact if_neg (Nat.not_lt.mpr name.fits)

end Destination
end Hysteria.App.Socks5
