import Hysteria.App.LocalProxySafety
import Hysteria.Mobile.SocksHandshake

/-! A SOCKS5 `CONNECT` from end to end: `handle_client` in front of a stream of the tunnel. The handshake
is read in parts, and the answer to one part is written before the next is read. -/
namespace Hysteria.App.Socks5
open Lib Hysteria.Core Mobile.LocalSocks

inductive Expecting where
  | methods
  | credentials (username password : String)
  | request
deriving DecidableEq, Repr

/-- `negotiate` up to the choice of a method: whether the one of the listener is offered. -/
def readMethods (auth : Option (String × String)) : Served Bool := do
  let header ← readExact 2
  let version := header.getD 0 0
  if version ≠ 5 then
    bail s!"unsupported SOCKS version {version}"
  else
    let methods ← readExact (header.getD 1 0).toNat
    return methods.contains (selectedMethod auth)

/-- The rest of `negotiate`, with the error it answers a wrong login with. -/
def readCredentials (expectedUsername expectedPassword : String) : Served (Except String Unit) := do
  let authHeader ← readExact 2
  if authHeader.getD 0 0 ≠ 1 then
    return .error "unsupported username/password auth version"
  else
    let username ← readExact (authHeader.getD 1 0).toNat
    let passwordLen ← readExact 1
    let password ← readExact (passwordLen.getD 0 0).toNat
    if username = utf8Bytes expectedUsername ∧ password = utf8Bytes expectedPassword then
      return .ok ()
    else
      return .error "invalid SOCKS5 credentials"

/-- A read waits for the rest of a part until the program has shut down. -/
def readPart (reader : Served α) (arrived : List UInt8) (ended : Bool) : Option (Except Failure (α × Nat)) :=
  match reader ⟨arrived, none, []⟩ with
  | .ok (a, left) => some (.ok (a, arrived.length - left.unread.length))
  | .error (.error err) => if err = [.message "early eof"] ∧ ¬ ended then none else some (.error err)
  | .error (.panic _) => none

/-- The bytes of `write_reply` without a bind address. -/
def replyBytes (reply : UInt8) : List UInt8 := [5, reply, 0, 1, 0, 0, 0, 0, 0, 0]

def afterMethods (auth : Option (String × String)) : Except Failure (Bool × Nat) → Reaction Expecting × Nat
  | .error _ => (.answer [] none, 0)
  | .ok (false, n) => (.answer [5, 0xff] none, n)
  | .ok (true, n) =>
    match auth with
    | none => (.answer [5, selectedMethod auth] (some .request), n)
    | some (username, password) => (.answer [5, selectedMethod auth] (some (.credentials username password)), n)

def afterCredentials : Except Failure (Except String Unit × Nat) → Reaction Expecting × Nat
  | .error _ => (.answer [] none, 0)
  | .ok (.error _, n) => (.answer [1, 1] none, n)
  | .ok (.ok (), n) => (.answer [1, 0] (some .request), n)

/-- An association for UDP is served in another way. -/
def afterRequest (disableUdp : Bool) : Except Failure (SocksRequest × Nat) → Reaction Expecting × Nat
  | .error _ => (.answer [] none, 0)
  | .ok (request, n) =>
    if request.command = socks5CmdConnect then (.connect request.address (replyBytes 0) (replyBytes 4) [], n)
    else if request.command = socks5CmdUdpAssociate ∧ !disableUdp then (.leave, n)
    else (.answer (replyBytes 7) none, n)

def front (auth : Option (String × String)) (disableUdp : Bool) : Front Expecting where
  start := .methods
  read expecting arrived ended _ :=
    match expecting with
    | .methods => (readPart (readMethods auth) arrived ended).map (afterMethods auth)
    | .credentials username password => (readPart (readCredentials username password) arrived ended).map afterCredentials
    | .request => (readPart readRequest arrived ended).map (afterRequest disableUdp)

section
variable {auth : Option (String × String)} {disableUdp : Bool}

theorem readPart_ok {reader : Served α} {arrived : List UInt8} {ended : Bool} {a : α} {n : Nat}
    (h : readPart reader arrived ended = some (.ok (a, n))) :
    ∃ left, reader ⟨arrived, none, []⟩ = .ok (a, left) ∧ n = arrived.length - left.unread.length := by
  unfold readPart at h
  split at h
  · next left hread =>
    cases h
    exact ⟨left, hread, rfl⟩
  · split at h <;> cases h
  · cases h

theorem take_part {arrived part rest : List UInt8} (h : arrived = part ++ rest) :
    arrived.take (arrived.length - rest.length) = part := by
  rw [h, List.length_append, Nat.add_sub_cancel, List.take_left]

theorem readMethods_true {stream left : LocalStream} (h : readMethods auth stream = .ok (true, left)) :
    ∃ methods, Fits methods ∧ selectedMethod auth ∈ methods ∧ stream.unread = 5 :: counted methods ++ left.unread := by
  obtain ⟨header, between, hheader, hmore⟩ := served_bind_eq_ok.mp h
  obtain ⟨hlength, hunread⟩ := readExact_eq_ok hheader
  match header, hlength with
  | [version, count], _ =>
    split at hmore
    · cases hmore
    next hversion =>
    obtain ⟨methods, behind, hmethods, hreturn⟩ := served_bind_eq_ok.mp hmore
    obtain ⟨hcount, hoffers⟩ := readExact_eq_ok hmethods
    obtain ⟨hselected, rfl⟩ := Prod.mk.inj (Except.ok.inj hreturn)
    have hfive : version = 5 := by simpa using hversion
    refine ⟨methods, fits_of_length hcount, List.contains_iff_mem.mp hselected, ?_⟩
    rw [hunread, hoffers, ← counted_of_length hcount, hfive]
    simp

theorem readCredentials_ok {username password : String} {stream left : LocalStream}
    (h : readCredentials username password stream = .ok (.ok (), left)) :
    stream.unread = credentialBytes (some (username, password)) ++ left.unread ∧
      Fits (utf8Bytes username) ∧ Fits (utf8Bytes password) := by
  obtain ⟨header, s₁, hheader, hmore⟩ := served_bind_eq_ok.mp h
  obtain ⟨hlength, hunread⟩ := readExact_eq_ok hheader
  match header, hlength with
  | [version, count], _ =>
    split at hmore
    · cases hmore
    next hversion =>
    obtain ⟨sentName, s₂, hname, hbehindName⟩ := served_bind_eq_ok.mp hmore
    obtain ⟨passwordLen, s₃, hlen, hbehindLen⟩ := served_bind_eq_ok.mp hbehindName
    obtain ⟨sentPassword, s₄, hpassword, hcheck⟩ := served_bind_eq_ok.mp hbehindLen
    obtain ⟨hnameLength, hname⟩ := readExact_eq_ok hname
    obtain ⟨hlenLength, hlen⟩ := readExact_eq_ok hlen
    obtain ⟨passwordCount, rfl⟩ := List.length_eq_one_iff.mp hlenLength
    obtain ⟨hpasswordLength, hpassword⟩ := readExact_eq_ok hpassword
    split at hcheck
    · next hequal =>
      obtain ⟨rfl, rfl⟩ := hequal
      cases hcheck
      have hone : version = 1 := by simpa using hversion
      refine ⟨?_, fits_of_length hnameLength, fits_of_length hpasswordLength⟩
      rw [hunread, hname, hlen, hpassword, credentialBytes, ← counted_of_length hnameLength,
        ← counted_of_length hpasswordLength, hone]
      simp
    · cases hcheck

def answers : Option (String × String) → List UInt8
  | none => [5, 0]
  | some _ => [5, 2, 1, 0]

def Read (auth : Option (String × String)) (taken said : List UInt8) : Expecting → Prop
  | .methods => taken = [] ∧ said = []
  | .credentials username password => auth = some (username, password) ∧ said = [5, 2] ∧
    ∃ methods, Fits methods ∧ selectedMethod auth ∈ methods ∧ taken = 5 :: counted methods
  | .request => said = answers auth ∧ ∃ greeting : Greeting auth, taken = greeting.bytes

theorem read_of_reaches {expecting : Expecting} {taken said : List UInt8}
    (h : (front auth disableUdp).Reaches expecting taken said) : Read auth taken said expecting := by
  induction h with
  | start => exact ⟨rfl, rfl⟩
  | @next state state' taken said arrived bytes ended room n _ hread ih =>
    cases state with
    | methods =>
      obtain ⟨rfl, rfl⟩ := ih
      obtain ⟨result, hpart, hafter⟩ := Option.map_eq_some_iff.mp hread
      match result, hafter with
      | .ok (true, n'), hafter =>
        obtain ⟨left, hmethods, rfl⟩ := readPart_ok hpart
        obtain ⟨methods, hfits, hoffered, harrived⟩ := readMethods_true hmethods
        have htaken := take_part harrived
        cases auth with
        | none =>
          cases hafter
          refine ⟨rfl, ⟨methods, hfits, hoffered, nofun⟩, ?_⟩
          rw [List.nil_append, htaken]
          exact (List.append_nil _).symm
        | some credentials =>
          cases hafter
          exact ⟨rfl, rfl, methods, hfits, hoffered, (List.nil_append _).trans htaken⟩
    | credentials username password =>
      obtain ⟨rfl, rfl, methods, hfits, hoffered, rfl⟩ := ih
      obtain ⟨result, hpart, hafter⟩ := Option.map_eq_some_iff.mp hread
      match result, hafter with
      | .ok (.ok (), n'), hafter =>
        obtain ⟨left, hcredentials, rfl⟩ := readPart_ok hpart
        obtain ⟨harrived, husername, hpassword⟩ := readCredentials_ok hcredentials
        cases hafter
        refine ⟨rfl, ⟨methods, hfits, hoffered, ?_⟩, ?_⟩
        · rintro _ ⟨⟩
          exact ⟨husername, hpassword⟩
        · rw [take_part harrived]
          rfl
    | request =>
      obtain ⟨result, hpart, hafter⟩ := Option.map_eq_some_iff.mp hread
      cases result with
      | error err => cases hafter
      | ok taken =>
        simp only [afterRequest] at hafter
        split_ifs at hafter <;> cases hafter

theorem handshake_of_connects {link : Link} (h : (front auth disableUdp).Connects link) :
    ∃ handshake : Handshake auth, handshake.command = socks5CmdConnect ∧ link.addr = handshake.request.address ∧
      link.taken = handshake.bytes ∧ link.said = answers auth ∧ link.accepted = replyBytes 0 ∧
      link.refused = replyBytes 4 ∧ link.ahead = [] := by
  obtain ⟨state, before, arrived, ended, room, n, hreaches, hread, htaken⟩ := h
  have hbefore := read_of_reaches hreaches
  cases state with
  | methods =>
    obtain ⟨result, -, hafter⟩ := Option.map_eq_some_iff.mp hread
    match result, hafter with
    | .ok (true, _), hafter =>
      cases auth <;> cases hafter
  | credentials username password =>
    obtain ⟨result, -, hafter⟩ := Option.map_eq_some_iff.mp hread
    match result, hafter with
    | .ok (.ok (), _), hafter => cases hafter
  | request =>
    obtain ⟨hsaid, greeting, hgreeting⟩ := hbefore
    obtain ⟨result, hpart, hafter⟩ := Option.map_eq_some_iff.mp hread
    match result, hafter with
    | .ok (request, n'), hafter =>
      obtain ⟨left, hrequest, rfl⟩ := readPart_ok hpart
      have hconnect : request.command = socks5CmdConnect := by
        by_contra hother
        simp only [afterRequest, if_neg hother] at hafter
        split at hafter <;> cases hafter
      simp only [afterRequest, if_pos hconnect] at hafter
      obtain ⟨command, reserved, d, harrived⟩ := readRequest_eq_ok hrequest
      let handshake : Handshake auth := { greeting with command, reserved, destination := d }
      have hbytes : readRequest ⟨handshake.requestBytes ++ left.unread, none, []⟩ = _ :=
        readRequest_bytes handshake left.unread none
      have hsame : arrived = handshake.requestBytes ++ left.unread := harrived
      rw [← hsame, hrequest] at hbytes
      obtain ⟨rfl, -⟩ := Prod.mk.inj (Except.ok.inj hbytes)
      simp only [Prod.mk.injEq, Reaction.connect.injEq] at hafter
      obtain ⟨⟨haddr, haccepted, hrefused, hahead⟩, hn⟩ := hafter
      refine ⟨handshake, hconnect, haddr.symm, ?_, hsaid, haccepted.symm, hrefused.symm, hahead.symm⟩
      rw [htaken, ← hn, take_part hsame, hgreeting]
      rfl

/-- In every state of every run: a stream is opened only for a program that has sent a handshake, with the
credentials of the listener if it has some, that asks to connect; only the destination in it is dialled, at most
once. The remote has been sent the beginning of what the program has sent behind the handshake, and the program the
beginning of the answers and of what the remote has sent, or of the server's reply if it has asked for a health
check. -/
theorem connect_transparent {events : List LocalProxy.Event} {p : LocalProxy Expecting}
    (h : LocalProxy.runs (front auth disableUdp) events = some p) {o : Opened} (hopened : p.opened = some o) :
    ∃ (handshake : Handshake auth) (behind : List UInt8),
      handshake.command = socks5CmdConnect ∧ o.exchange.addr = handshake.request.address ∧
      p.fromLocal.sent = handshake.bytes ++ behind ∧
      (o.tunnel.stream.dialed = [] ∨ o.tunnel.stream.dialed = [handshake.request.address]) ∧
      o.tunnel.stream.upward.sink.sent <+: behind ∧
      (p.toLocal.sent <+: answers auth ++ replyBytes 4 ∨
        ∃ received, p.toLocal.sent <+: answers auth ++ replyBytes 0 ++ received ∧
          (received <+: o.tunnel.stream.downward.source.sent ∨
            isHealthcheckRequest handshake.request.address ∧ received <+: healthReply o.tunnel.caller.written)) := by
  obtain ⟨link, hconnects, haddr, hdialed, ⟨behind, hsent, hupward⟩, hdownward⟩ := LocalProxy.carried_of_runs h hopened
  obtain ⟨handshake, hcommand, hdestination, htaken, hsaid, haccepted, hrefused, hahead⟩ := handshake_of_connects hconnects
  rw [hahead, List.nil_append] at hupward
  rw [hsaid, haccepted, hrefused, hdestination] at hdownward
  exact ⟨handshake, behind, hcommand, haddr.trans hdestination, htaken ▸ hsent, hdestination ▸ hdialed, hupward,
    hdownward⟩

end

def sampleRun : List LocalProxy.Event :=
  [.localWrites [5, 2, 0, 2], .reads 0, .writes 2, .localWrites [1, 1, 117, 1, 112], .reads 0, .writes 2,
    .localWrites [5, 1, 0, 3, 1, 97, 0, 80, 22], .reads 0, .opens LocalProxy.sampleExchange, .calls (.writes 73),
    .served .reads, .served (.dials (.ok ())), .served (.writes 141), .calls .reads, .returned, .writes 10,
    .uploadReads 1, .uploadWrites 1, .served (.upward (.read 1)), .served (.upward (.write 1)),
    .served (.remoteWrites [111, 107]), .served (.downward (.read 1)), .served (.downward (.write 1)),
    .downloadReads 1, .downloadWrites 1]

theorem connect_transparent_login : ∃ p o, LocalProxy.runs (front (some ("u", "p")) false) sampleRun = some p ∧
    p.opened = some o ∧ o.tunnel.stream.upward.sink.sent = [22] ∧
    p.toLocal.sent = answers (some ("u", "p")) ++ replyBytes 0 ++ [111] ∧
    ∃ (handshake : Handshake (some ("u", "p"))) (behind : List UInt8), p.fromLocal.sent = handshake.bytes ++ behind ∧
      [22] <+: behind := by
  have hrun : ((LocalProxy.runs (front (some ("u", "p")) false) sampleRun).bind fun p => p.opened.map fun o =>
      (o.tunnel.stream.upward.sink.sent, p.toLocal.sent)) =
        some ([22], answers (some ("u", "p")) ++ replyBytes 0 ++ [111]) := by decide +kernel
  obtain ⟨p, hp, hmapped⟩ := Option.bind_eq_some_iff.mp hrun
  obtain ⟨o, hopened, hpair⟩ := Option.map_eq_some_iff.mp hmapped
  obtain ⟨hsent, hsaid⟩ := Prod.mk.inj hpair
  obtain ⟨handshake, behind, -, -, hhandshake, -, hupward, -⟩ := connect_transparent hp hopened
  exact ⟨p, o, hp, hopened, hsent, hsaid, handshake, behind, hhandshake, hsent ▸ hupward⟩

end Hysteria.App.Socks5
