import Hysteria.App.HttpFraming
import Hysteria.App.HttpProxy
import Hysteria.App.LocalProxySafety

/-! A `CONNECT` request of the HTTP proxy from end to end. The head is read in pieces as they arrive, so
that bytes behind it may have been read already: they are sent to the target before the copying
starts. -/
namespace Hysteria.App.HttpProxy
open Lib Hysteria.Core

/-- What becomes of a head that was read, with the bytes behind it. Other requests than `CONNECT` are
served in another way. -/
def reaction (config : Config) (head rest : List UInt8) : Reaction (List UInt8) :=
  match parseRequest head with
  | .error _ => .answer [] none
  | .ok request =>
    if config.refuses request then
      .answer (utf8 (proxyAuthRequired request.version ((config.auth.map HttpAuth.realm).getD []))) none
    else if eqIgnoreAsciiCase request.method "CONNECT" then
      match authorityToAddr config.addrs request.target with
      | .error _ => .answer [] none
      | .ok addr =>
        .connect (String.ofList addr) (utf8 (statusText request.version 200 "Connection Established"))
          (utf8 (statusText request.version 502 "Bad Gateway")) rest
    else .leave

/-- A turn of the loop of `read_http_head`, with the buffer as its state. -/
def front (config : Config) : Front (List UInt8) where
  start := []
  read buffer arrived ended room :=
    let n := min (min room httpHead.cap) arrived.length
    if arrived = [] ∧ ended then some (.answer [] none, 0)
    else if n = 0 then none
    else
      let buffer := buffer ++ arrived.take n
      if buffer.length > maxHttpHeaderSize then some (.answer [] none, n)
      else
        match findSeq httpHead.needle buffer with
        | none => some (.answer [] (some buffer), n)
        | some headerEnd =>
          some (reaction config (buffer.take headerEnd) (buffer.drop (headerEnd + httpHead.needle.length)), n)

section
variable {config : Config}

theorem read_cases {buffer arrived : List UInt8} {ended : Bool} {room n : Nat} {reacts : Reaction (List UInt8)}
    (h : (front config).read buffer arrived ended room = some (reacts, n)) :
    reacts = .answer [] none ∨ reacts = .answer [] (some (buffer ++ arrived.take n)) ∨
      ∃ headerEnd, findSeq httpHead.needle (buffer ++ arrived.take n) = some headerEnd ∧
        reacts = reaction config ((buffer ++ arrived.take n).take headerEnd)
          ((buffer ++ arrived.take n).drop (headerEnd + httpHead.needle.length)) := by
  simp only [front] at h
  split_ifs at h with hend hroom hlarge
  · cases h
    exact .inl rfl
  · cases h
    exact .inl rfl
  · split at h
    · cases h
      exact .inr (.inl rfl)
    · next headerEnd hfound =>
      cases h
      exact .inr (.inr ⟨headerEnd, hfound, rfl⟩)

theorem reaction_answer {head rest bytes state : List UInt8} : reaction config head rest ≠ .answer bytes (some state) := by
  unfold reaction
  intro h
  split at h
  · cases h
  · split at h
    · cases h
    · split at h
      · split at h <;> cases h
      · cases h

theorem buffer_of_reaches {buffer taken said : List UInt8} (h : (front config).Reaches buffer taken said) :
    buffer = taken ∧ said = [] := by
  induction h with
  | start => exact ⟨rfl, rfl⟩
  | next _ hread ih =>
    obtain ⟨rfl, rfl⟩ := ih
    rcases read_cases hread with hreturn | hmore | ⟨headerEnd, -, hreaction⟩
    · cases hreturn
    · cases hmore
      exact ⟨rfl, rfl⟩
    · exact absurd hreaction.symm reaction_answer

theorem request_of_connects {link : Link} (h : (front config).Connects link) :
    ∃ head request addr, parseRequest head = .ok request ∧ config.refuses request = false ∧
      eqIgnoreAsciiCase request.method "CONNECT" ∧ authorityToAddr config.addrs request.target = .ok addr ∧
      link.addr = String.ofList addr ∧ link.taken = head ++ httpHead.needle ++ link.ahead ∧ link.said = [] ∧
      link.accepted = utf8 (statusText request.version 200 "Connection Established") ∧
      link.refused = utf8 (statusText request.version 502 "Bad Gateway") := by
  obtain ⟨buffer, before, arrived, ended, room, n, hreaches, hread, htaken⟩ := h
  obtain ⟨rfl, hsaid⟩ := buffer_of_reaches hreaches
  rcases read_cases hread with hreturn | hmore | ⟨headerEnd, hfound, hreaction⟩
  · cases hreturn
  · cases hmore
  · rw [← htaken] at hfound hreaction
    unfold reaction at hreaction
    split at hreaction
    · cases hreaction
    · next request hparse =>
      split at hreaction
      · cases hreaction
      · next hallowed =>
        split at hreaction
        · next hconnect =>
          split at hreaction
          · cases hreaction
          · next addr haddr =>
            injection hreaction with hlink haccepted hrefused hahead
            refine ⟨_, request, addr, hparse, by simpa using hallowed, hconnect, haddr, hlink, ?_, hsaid, haccepted,
              hrefused⟩
            rw [hahead]
            exact (findSeq_split hfound).symm
        · cases hreaction

/-- In every state of every run: a stream is opened only for a request that the proxy lets in and that asks to
connect; only its target is dialled, at most once. The target has been sent the beginning of what the program has
sent behind the head, whatever part of it was read with the head, and the program the beginning of the status line and
of what the target has sent, or of the server's reply if it has asked for a health check. -/
theorem tunnel_of_request {events : List LocalProxy.Event} {p : LocalProxy (List UInt8)}
    (h : LocalProxy.runs (front config) events = some p) {o : Opened} (hopened : p.opened = some o) :
    ∃ head request addr behind, p.fromLocal.sent = head ++ httpHead.needle ++ behind ∧
      parseRequest head = .ok request ∧ config.refuses request = false ∧
      eqIgnoreAsciiCase request.method "CONNECT" ∧ authorityToAddr config.addrs request.target = .ok addr ∧
      o.exchange.addr = String.ofList addr ∧
      (o.tunnel.stream.dialed = [] ∨ o.tunnel.stream.dialed = [String.ofList addr]) ∧
      o.tunnel.stream.upward.sink.sent <+: behind ∧
      (p.toLocal.sent <+: utf8 (statusText request.version 502 "Bad Gateway") ∨
        ∃ received,
          p.toLocal.sent <+: utf8 (statusText request.version 200 "Connection Established") ++ received ∧
          (received <+: o.tunnel.stream.downward.source.sent ∨
            isHealthcheckRequest (String.ofList addr) ∧ received <+: healthReply o.tunnel.caller.written)) := by
  obtain ⟨link, hconnects, haddr, hdialed, ⟨behind, hsent, hupward⟩, hdownward⟩ := LocalProxy.carried_of_runs h hopened
  obtain ⟨head, request, addr, hparse, hallowed, hconnect, htarget, hlink, htaken, hsaid, haccepted, hrefused⟩ :=
    request_of_connects hconnects
  rw [hsaid, haccepted, hrefused, hlink, List.nil_append, List.nil_append] at hdownward
  refine ⟨head, request, addr, link.ahead ++ behind, ?_, hparse, hallowed, hconnect, htarget, haddr.trans hlink,
    hlink ▸ hdialed, hupward, hdownward⟩
  rw [hsent, htaken, List.append_assoc, List.append_assoc]

end

def loginConfig : Config where
  profile := ⟨true⟩
  addrs := namesOnly
  base64 := ⟨fun text => if text = "dTpw".toList then some (utf8 "u:p".toList) else none, fun _ => none⟩
  canonicalReason _ := none
  auth := some ⟨"u".toList, "p".toList, "Hysteria".toList⟩

def connectRequest : List UInt8 :=
  utf8 "CONNECT a:80 HTTP/1.1\r\nProxy-Authorization: Basic dTpw\r\n\r\n".toList

def sampleConnect : List LocalProxy.Event :=
  [.localWrites (connectRequest.take 30), .reads 2048, .localWrites (connectRequest.drop 30 ++ [22, 23]), .reads 29,
    .opens LocalProxy.sampleExchange, .calls (.writes 73), .served .reads, .served (.dials (.ok ())),
    .served (.writes 141), .calls .reads, .returned, .writes 77, .forwards 1, .uploadReads 1, .uploadWrites 1,
    .served (.upward (.read 2)), .served (.upward (.write 2)), .served (.remoteWrites [111, 107]),
    .served (.downward (.read 1)), .served (.downward (.write 1)), .downloadReads 1, .downloadWrites 1]

theorem tunnel_of_request_login : ∃ p o, LocalProxy.runs (front loginConfig) sampleConnect = some p ∧
    p.opened = some o ∧ o.tunnel.stream.upward.sink.sent = [22, 23] ∧
    p.toLocal.sent = utf8 (statusText "HTTP/1.1".toList 200 "Connection Established") ++ [111] ∧
    ∃ head behind, p.fromLocal.sent = head ++ httpHead.needle ++ behind ∧ [22, 23] <+: behind := by
  have hrun : ((LocalProxy.runs (front loginConfig) sampleConnect).bind fun p => p.opened.map fun o =>
      (o.tunnel.stream.upward.sink.sent, p.toLocal.sent)) =
        some ([22, 23], utf8 (statusText "HTTP/1.1".toList 200 "Connection Established") ++ [111]) := by
    decide +kernel
  obtain ⟨p, hp, hmapped⟩ := Option.bind_eq_some_iff.mp hrun
  obtain ⟨o, hopened, hpair⟩ := Option.map_eq_some_iff.mp hmapped
  obtain ⟨hsent, hsaid⟩ := Prod.mk.inj hpair
  obtain ⟨head, -, -, behind, hhead, -, -, -, -, -, -, hupward, -⟩ := tunnel_of_request hp hopened
  exact ⟨p, o, hp, hopened, hsent, hsaid, head, behind, hhead, hsent ▸ hupward⟩

end Hysteria.App.HttpProxy
