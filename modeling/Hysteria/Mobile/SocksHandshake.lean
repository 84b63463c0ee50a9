import Hysteria.Mobile.SocksAddress

/-! Which bytes of a local client make a request: those of a handshake that selects the
method of the listener, shows its credentials if it has some, and asks for a destination.
`socks5.rs` and `local_socks.rs` read it in the same words. -/
namespace Hysteria.App.Socks5
open Mobile.LocalSocks (Served SocksRequest)

def negotiate : Option (String × String) → Served Unit := Mobile.LocalSocks.negotiate

def readRequest : Served SocksRequest := Mobile.LocalSocks.readRequest

/-- The start of `handle_client` -/
def readSocksRequest (auth : Option (String × String)) : Served SocksRequest := do
  negotiate auth
  readRequest

end Hysteria.App.Socks5

namespace Hysteria.Mobile.LocalSocks
open Lib App.Socks5

def selectedMethod (auth : Option (String × String)) : UInt8 := if auth.isSome then 2 else 0

def counted (bytes : List UInt8) : List UInt8 := .ofNat bytes.length :: bytes

abbrev Fits (bytes : List UInt8) : Prop := bytes.length ≤ 255

/-- The methods that a client offers, with the one of the listener among them, and credentials
that can be sent where the listener has some. -/
structure Greeting (auth : Option (String × String)) where
  methods : List UInt8
  fits : Fits methods
  offered : selectedMethod auth ∈ methods
  sendable : ∀ credentials ∈ auth, Fits (utf8Bytes credentials.1) ∧ Fits (utf8Bytes credentials.2)

def credentialBytes : Option (String × String) → List UInt8
  | none => []
  | some (username, password) => 1 :: (counted (utf8Bytes username) ++ counted (utf8Bytes password))

def Greeting.bytes {auth : Option (String × String)} (greeting : Greeting auth) : List UInt8 :=
  5 :: counted greeting.methods ++ credentialBytes auth

structure Handshake (auth : Option (String × String)) extends Greeting auth where
  command : UInt8
  reserved : UInt8
  destination : Destination

namespace Handshake
variable {auth : Option (String × String)}

def requestBytes (handshake : Handshake auth) : List UInt8 :=
  [5, handshake.command, handshake.reserved, handshake.destination.atyp] ++ handshake.destination.body

def bytes (handshake : Handshake auth) : List UInt8 := handshake.toGreeting.bytes ++ handshake.requestBytes

def request (handshake : Handshake auth) : SocksRequest :=
  { command := handshake.command, address := connectText handshake.destination }

end Handshake

section Fields
variable {stream stream' : LocalStream} {bytes rest : List UInt8} {broken : Option String}
  {writes : List (Option String)} {auth : Option (String × String)}

theorem toNat_count (h : Fits bytes) : (UInt8.ofNat bytes.length).toNat = bytes.length := by
  rw [UInt8.toNat_ofNat', Nat.mod_eq_of_lt (Nat.lt_succ_of_le h)]

theorem counted_of_length {count : UInt8} (h : bytes.length = count.toNat) : count :: bytes = counted bytes := by
  rw [counted, h, UInt8.ofNat_toNat]

theorem fits_of_length {count : UInt8} (h : bytes.length = count.toNat) : Fits bytes := by
  have hlt : count.toNat < 256 := count.toNat_lt
  exact Nat.le_of_lt_succ (h ▸ hlt)

theorem writeAll_eq_ok (h : writeAll bytes stream = .ok ((), stream')) : stream'.unread = stream.unread := by
  rw [writeAll, writeOr] at h
  split at h
  · cases h
  · cases h
    rfl

def authenticate : Option (String × String) → Served Unit
  | none => pure ()
  | some (expectedUsername, expectedPassword) => do
    let authHeader ← readExact 2
    if authHeader.getD 0 0 ≠ 1 then
      writeAll [1, 1]
      bail "unsupported username/password auth version"
    else
    let username ← readExact (authHeader.getD 1 0).toNat
    let passwordLen ← readExact 1
    let password ← readExact (passwordLen.getD 0 0).toNat
    if username = utf8Bytes expectedUsername ∧ password = utf8Bytes expectedPassword then
      writeAll [1, 0]
    else
      writeAll [1, 1]
      bail "invalid SOCKS5 credentials"

theorem negotiate_eq (auth : Option (String × String)) : negotiate auth = (do
    let header ← readExact 2
    if header.getD 0 0 ≠ 5 then
      bail s!"unsupported SOCKS version {header.getD 0 0}"
    else
    let methods ← readExact (header.getD 1 0).toNat
    if methods.contains (selectedMethod auth) then
      writeAll [5, selectedMethod auth]
      authenticate auth
    else
      writeAll [5, 0xff]
      bail "no acceptable SOCKS5 authentication method") := by
  cases auth <;> rfl

theorem readExact_count (b : UInt8) :
    readExact 2 ⟨b :: counted bytes ++ rest, broken, writes⟩ =
      .ok ([b, .ofNat bytes.length], ⟨bytes ++ rest, broken, writes⟩) :=
  readExact_append (show [b, UInt8.ofNat bytes.length].length = 2 from rfl)

theorem authenticate_bytes
    (hfits : ∀ credentials ∈ auth, Fits (utf8Bytes credentials.1) ∧ Fits (utf8Bytes credentials.2)) :
    authenticate auth ⟨credentialBytes auth ++ rest, broken, []⟩ = .ok ((), ⟨rest, broken, []⟩) := by
  cases auth with
  | none => rfl
  | some credentials =>
    obtain ⟨username, password⟩ := credentials
    obtain ⟨husername, hpassword⟩ := hfits (username, password) rfl
    have hbytes : credentialBytes (some (username, password)) ++ rest =
        1 :: counted (utf8Bytes username) ++ ([.ofNat (utf8Bytes password).length] ++ (utf8Bytes password ++ rest)) := by
      simp [credentialBytes, counted]
    rw [hbytes, authenticate, served_bind (readExact_count 1), if_neg (fun h => h rfl)]
    refine (served_bind (readExact_append (toNat_count husername).symm) _).trans ?_
    refine (served_bind (readExact_append (n := 1) rfl) _).trans ?_
    refine (served_bind (readExact_append (toNat_count hpassword).symm) _).trans ?_
    rw [if_pos ⟨rfl, rfl⟩]
    rfl

theorem authenticate_eq_ok (h : authenticate auth stream = .ok ((), stream')) :
    stream.unread = credentialBytes auth ++ stream'.unread ∧
      ∀ credentials ∈ auth, Fits (utf8Bytes credentials.1) ∧ Fits (utf8Bytes credentials.2) := by
  cases auth with
  | none =>
    cases h
    exact ⟨rfl, nofun⟩
  | some credentials =>
    obtain ⟨username, password⟩ := credentials
    obtain ⟨header, s₁, hheader, hmore⟩ := served_bind_eq_ok.mp h
    obtain ⟨hlength, hunread⟩ := readExact_eq_ok hheader
    match header, hlength with
    | [version, count], _ =>
      split at hmore
      · obtain ⟨⟨⟩, answered, hwrite, hbail⟩ := served_bind_eq_ok.mp hmore
        cases hbail
      next hversion =>
      obtain ⟨sentName, s₂, hname, hbehindName⟩ := served_bind_eq_ok.mp hmore
      obtain ⟨passwordLen, s₃, hlen, hbehindLen⟩ := served_bind_eq_ok.mp hbehindName
      obtain ⟨sentPassword, s₄, hpassword, hcheck⟩ := served_bind_eq_ok.mp hbehindLen
      obtain ⟨hnameLength, hname⟩ := readExact_eq_ok hname
      obtain ⟨hlenLength, hlen⟩ := readExact_eq_ok hlen
      obtain ⟨passwordCount, rfl⟩ := List.length_eq_one_iff.mp hlenLength
      obtain ⟨hpasswordLength, hpassword⟩ := readExact_eq_ok hpassword
      split at hcheck
      · next hequal =>
        obtain ⟨rfl, rfl⟩ := hequal
        have hone : version = 1 := by simpa using hversion
        refine ⟨?_, ?_⟩
        · rw [hunread, hname, hlen, hpassword, ← writeAll_eq_ok hcheck, credentialBytes,
            ← counted_of_length hnameLength, ← counted_of_length hpasswordLength, hone]
          simp
        · rintro _ ⟨⟩
          exact ⟨fits_of_length hnameLength, fits_of_length hpasswordLength⟩
      · obtain ⟨⟨⟩, answered, hwrite, hbail⟩ := served_bind_eq_ok.mp hcheck
        cases hbail

theorem negotiate_bytes (greeting : Greeting auth) (rest : List UInt8) (broken : Option String) :
    negotiate auth ⟨greeting.bytes ++ rest, broken, []⟩ = .ok ((), ⟨rest, broken, []⟩) := by
  have hoffered : greeting.methods.contains (selectedMethod auth) = true := List.contains_iff_mem.mpr greeting.offered
  rw [negotiate_eq, Greeting.bytes, List.append_assoc, served_bind (readExact_count 5), if_neg (fun h => h rfl)]
  refine (served_bind (readExact_append (toNat_count greeting.fits).symm) _).trans ?_
  rw [if_pos hoffered]
  exact authenticate_bytes greeting.sendable

theorem negotiate_eq_ok (h : negotiate auth stream = .ok ((), stream')) :
    ∃ greeting : Greeting auth, stream.unread = greeting.bytes ++ stream'.unread := by
  rw [negotiate_eq] at h
  obtain ⟨header, named, hheader, hmore⟩ := served_bind_eq_ok.mp h
  obtain ⟨hlength, hunread⟩ := readExact_eq_ok hheader
  match header, hlength with
  | [version, count], _ =>
    split at hmore
    · cases hmore
    next hversion =>
    obtain ⟨methods, offered, hmethods, hmore⟩ := served_bind_eq_ok.mp hmore
    obtain ⟨hcount, hoffers⟩ := readExact_eq_ok hmethods
    split at hmore
    · next hselected =>
      obtain ⟨⟨⟩, answered, hwrite, hauth⟩ := served_bind_eq_ok.mp hmore
      obtain ⟨hcredentials, hfits⟩ := authenticate_eq_ok hauth
      refine ⟨⟨methods, fits_of_length hcount, List.contains_iff_mem.mp hselected, hfits⟩, ?_⟩
      have hfive : version = 5 := by simpa using hversion
      rw [hunread, hoffers, ← writeAll_eq_ok hwrite, hcredentials, Greeting.bytes, ← counted_of_length hcount, hfive]
      simp
    · obtain ⟨⟨⟩, answered, hwrite, hbail⟩ := served_bind_eq_ok.mp hmore
      cases hbail

theorem readRequest_bytes (handshake : Handshake auth) (rest : List UInt8) (broken : Option String) :
    readRequest ⟨handshake.requestBytes ++ rest, broken, []⟩ = .ok (handshake.request, ⟨rest, broken, []⟩) := by
  have hlength : [5, handshake.command, handshake.reserved, handshake.destination.atyp].length = 4 := rfl
  rw [Handshake.requestBytes, List.append_assoc, readRequest, served_bind (readExact_append hlength),
    if_neg (fun h => h rfl)]
  exact served_bind (readAddress_body handshake.destination rest broken []) _

theorem readRequest_eq_ok {request : SocksRequest} (h : readRequest stream = .ok (request, stream')) :
    ∃ (command reserved : UInt8) (d : Destination),
      stream.unread = [5, command, reserved, d.atyp] ++ d.body ++ stream'.unread := by
  obtain ⟨header, between, hheader, hmore⟩ := served_bind_eq_ok.mp h
  obtain ⟨hlength, hunread⟩ := readExact_eq_ok hheader
  match header, hlength with
  | [version, command, reserved, atyp], _ =>
    split at hmore
    · cases hmore
    next hversion =>
    obtain ⟨address, behind, haddress, hpure⟩ := served_bind_eq_ok.mp hmore
    cases hpure
    obtain ⟨d, hatyp, hbody⟩ := readAddress_eq_ok haddress
    have hfive : version = 5 := by simpa using hversion
    refine ⟨command, reserved, d, ?_⟩
    rw [hunread, hbody, hfive, hatyp, List.append_assoc]
    rfl

end Fields

variable {auth : Option (String × String)} {bytes : List UInt8} {broken : Option String}

theorem readSocksRequest_eq_ok_iff {request : SocksRequest} {left : LocalStream} :
    readSocksRequest auth ⟨bytes, broken, []⟩ = .ok (request, left) ↔
      ∃ (handshake : Handshake auth) (rest : List UInt8),
        bytes = handshake.bytes ++ rest ∧ request = handshake.request ∧ left = ⟨rest, broken, []⟩ := by
  have hread (handshake : Handshake auth) (rest : List UInt8) :
      readSocksRequest auth ⟨handshake.bytes ++ rest, broken, []⟩ = .ok (handshake.request, ⟨rest, broken, []⟩) := by
    rw [readSocksRequest, Handshake.bytes, List.append_assoc, served_bind (negotiate_bytes handshake.toGreeting _ _)]
    exact readRequest_bytes handshake rest broken
  constructor
  · intro h
    obtain ⟨⟨⟩, between, hnegotiate, hrequest⟩ := served_bind_eq_ok.mp h
    obtain ⟨greeting, hgreeting⟩ := negotiate_eq_ok hnegotiate
    obtain ⟨command, reserved, d, hbody⟩ := readRequest_eq_ok hrequest
    let handshake : Handshake auth := { greeting with command, reserved, destination := d }
    have hbytes : bytes = handshake.bytes ++ left.unread := by
      rw [Handshake.bytes, List.append_assoc]
      exact hgreeting.trans (congrArg (greeting.bytes ++ ·) hbody)
    have hdone := hread handshake left.unread
    rw [← hbytes, h] at hdone
    obtain ⟨hsame, hleft⟩ := Prod.mk.inj (Except.ok.inj hdone)
    exact ⟨handshake, left.unread, hbytes, hsame, hleft⟩
  · rintro ⟨handshake, rest, rfl, rfl, rfl⟩
    exact hread handshake rest

/-- Where no answer fails to be written, a request is read exactly from the bytes of a handshake,
which are taken, and is the one that is encoded there. In any case none is read before the
credentials have been. -/
theorem handshake_iff (auth : Option (String × String)) (bytes : List UInt8) (broken : Option String) :
    (∀ request left, App.Socks5.readSocksRequest auth ⟨bytes, broken, []⟩ = .ok (request, left) ↔
      ∃ (handshake : Handshake auth) (rest : List UInt8),
        bytes = handshake.bytes ++ rest ∧ request = handshake.request ∧ left = ⟨rest, broken, []⟩) ∧
    (∀ request left, readSocksRequest auth ⟨bytes, broken, []⟩ = .ok (request, left) ↔
      ∃ (handshake : Handshake auth) (rest : List UInt8),
        bytes = handshake.bytes ++ rest ∧ request = handshake.request ∧ left = ⟨rest, broken, []⟩) ∧
    ∀ username password writes left, auth = some (username, password) →
      (App.Socks5.negotiate auth ⟨bytes, broken, writes⟩ = .ok ((), left) ∨
        negotiate auth ⟨bytes, broken, writes⟩ = .ok ((), left)) →
      ∃ methods, bytes = 5 :: counted methods ++
        (1 :: (counted (utf8Bytes username) ++ counted (utf8Bytes password))) ++ left.unread := by
  refine ⟨fun request left => readSocksRequest_eq_ok_iff, fun request left => readSocksRequest_eq_ok_iff, ?_⟩
  intro username password writes left hauth hnegotiate
  subst hauth
  obtain ⟨greeting, hgreeting⟩ := negotiate_eq_ok (hnegotiate.elim id id)
  exact ⟨greeting.methods, hgreeting⟩

def sampleHandshake : Handshake (some ("u", "p")) where
  methods := [0, 2]
  fits := by decide
  offered := by decide
  sendable := by
    rintro _ ⟨⟩
    decide
  command := 1
  reserved := 0
  destination := .domain ⟨"a", by decide⟩ 80

theorem handshake_iff_login :
    let bytes : List UInt8 := [5, 2, 0, 2] ++ [1, 1, 117, 1, 112] ++ [5, 1, 0, 3, 1, 97, 0, 80] ++ [22]
    App.Socks5.readSocksRequest (some ("u", "p")) ⟨bytes, none, []⟩ = .ok (⟨1, "a:80"⟩, ⟨[22], none, []⟩) ∧
      readSocksRequest (some ("u", "p")) ⟨bytes, none, []⟩ = .ok (⟨1, "a:80"⟩, ⟨[22], none, []⟩) := by
  have hbytes : [5, 2, 0, 2] ++ [1, 1, 117, 1, 112] ++ [5, 1, 0, 3, 1, 97, 0, 80] ++ [22] =
      sampleHandshake.bytes ++ [22] := by decide +kernel
  have hrequest : ⟨1, "a:80"⟩ = sampleHandshake.request := by decide +kernel
  obtain ⟨happ, hmobile, -⟩ := handshake_iff (some ("u", "p")) (sampleHandshake.bytes ++ [22]) none
  rw [← hbytes] at happ hmobile
  exact ⟨(happ _ _).mpr ⟨sampleHandshake, [22], hbytes, hrequest, rfl⟩,
    (hmobile _ _).mpr ⟨sampleHandshake, [22], hbytes, hrequest, rfl⟩⟩

end Hysteria.Mobile.LocalSocks
