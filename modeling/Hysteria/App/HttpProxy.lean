import Hysteria.Lib.Inbound
import Hysteria.Lib.Transition
import Hysteria.App.HttpHead

/-! One connection of the HTTP proxy: requests are read from the client one after the other,
each is forwarded with its body over a connection of its own, and the answer is sent back. All
that is read too early stays in the buffer for the next reader. -/
namespace Hysteria.App.HttpProxy
open Lib

def maxHttpHeaderSize : Nat := 64 * 1024
def maxChunkLineSize : Nat := 8 * 1024

def crlfBytes : List UInt8 := [13, 10]

def httpHead : Scan String (Option (List UInt8)) where
  needle := crlfBytes ++ crlfBytes
  cap := 2048
  before _ := .ok ()
  after buffer :=
    if buffer.length > maxHttpHeaderSize then bail "HTTP header is too large" else .ok ()
  found := some
  eof buffer := if buffer = [] then .ok none else bail "unexpected EOF while reading HTTP header"

def readHttpHead (s : Inbound) : Exec String (Option (List UInt8) × Inbound) := httpHead.run s

def crlfLine : Scan String (List UInt8) where
  needle := crlfBytes
  cap := 1024
  before buffer :=
    if buffer.length > maxChunkLineSize then bail "HTTP chunk line is too large" else .ok ()
  after _ := .ok ()
  found line := line ++ crlfBytes
  eof _ := bail "unexpected EOF while reading chunked body"

def readCrlfLine (s : Inbound) : Exec String (List UInt8 × Inbound) := crlfLine.run s

theorem readCrlfLine_bytes {s s' : Inbound} {line : List UInt8} (h : readCrlfLine s = .ok (line, s')) :
    s.bytes = line ++ s'.bytes ∧ s'.bytes.length < s.bytes.length := by
  cases Scan.run_returns h with
  | eof heof => cases heof
  | found h =>
    refine ⟨h, ?_⟩
    simp only [h, crlfLine, crlfBytes, List.length_append, List.length_cons]
    omega

theorem readHttpHead_bytes {s s' : Inbound} {head : List UInt8}
    (h : readHttpHead s = .ok (some head, s')) : s'.bytes.length < s.bytes.length := by
  generalize hresult : some head = result at h
  cases Scan.run_returns h with
  | eof heof =>
    subst hresult
    simp only [httpHead] at heof
    split at heof <;> cases heof
  | found h =>
    simp only [h, httpHead, crlfBytes, List.length_append, List.length_cons]
    omega

def transferExactBytes (s : Inbound) (remaining : Nat) : List UInt8 × Inbound :=
  if remaining = 0 then ([], s)
  else
    let buffered := min s.buffer.length remaining
    let copied := s.source.copy (remaining - buffered)
    (s.buffer.take buffered ++ copied.1, ⟨s.buffer.drop buffered, copied.2⟩)

def transferUntilEof (s : Inbound) : List UInt8 × Inbound :=
  (s.buffer ++ s.source.bytes, ⟨[], .ofPieces []⟩)

/-- The next `n` bytes are sent, wherever they are. -/
theorem transferExactBytes_eq (s : Inbound) (n : Nat) :
    (transferExactBytes s n).1 = s.bytes.take n ∧ (transferExactBytes s n).2.bytes = s.bytes.drop n := by
  rw [transferExactBytes]
  split
  case isTrue h => simp [h]
  case isFalse =>
    simp only [Inbound.bytes, Source.copy_fst, Source.bytes_copy, List.take_append, List.drop_append]
    rcases Nat.le_total s.buffer.length n with h | h
    · simp [Nat.min_eq_left h, List.take_of_length_le h, List.drop_eq_nil_of_le h]
    · simp [Nat.min_eq_right h, Nat.sub_eq_zero_of_le h]

theorem transferExactBytes_bytes (s : Inbound) (n : Nat) :
    s.bytes = (transferExactBytes s n).1 ++ (transferExactBytes s n).2.bytes := by
  obtain ⟨hsent, hleft⟩ := transferExactBytes_eq s n
  rw [hsent, hleft, List.take_append_drop]

def chunkLength (line : List UInt8) : Exec String Nat := do
  let lineText ← orBail (fromUtf8 (line.take (line.length - 2))) "invalid HTTP chunk header"
  let chunkLenText := trim ((lineText.splitOn ';').headD [])
  orBail (fromStrRadix 64 16 chunkLenText) ("invalid HTTP chunk size " ++ String.ofList chunkLenText)

def transferTrailers (s : Inbound) : Exec String (List UInt8 × Inbound) :=
  match _h : readCrlfLine s with
  | .error fault => .error fault
  | .ok (trailer, s) =>
    if trailer = crlfBytes then .ok (trailer, s)
    else
      match transferTrailers s with
      | .error fault => .error fault
      | .ok (trailers, s) => .ok (trailer ++ trailers, s)
termination_by s.bytes.length
decreasing_by exact (readCrlfLine_bytes _h).2

def transferChunkedBody (profile : Profile) (s : Inbound) : Exec String (List UInt8 × Inbound) :=
  match _h : readCrlfLine s with
  | .error fault => .error fault
  | .ok (line, s) =>
    match chunkLength line with
    | .error fault => .error fault
    | .ok 0 =>
      match transferTrailers s with
      | .error fault => .error fault
      | .ok (trailers, s) => .ok (line ++ trailers, s)
    | .ok (n + 1) =>
      match (addUsize profile (n + 1) 2 : Exec String Nat) with
      | .error fault => .error fault
      | .ok count =>
        let chunk := transferExactBytes s count
        match transferChunkedBody profile chunk.2 with
        | .error fault => .error fault
        | .ok (rest, s) => .ok (line ++ chunk.1 ++ rest, s)
termination_by s.bytes.length
decreasing_by
  have hline := (readCrlfLine_bytes _h).2
  have hchunk := congrArg List.length (transferExactBytes_bytes s count)
  rw [List.length_append] at hchunk
  omega

def transferBody (profile : Profile) (s : Inbound) : BodyKind → Exec String (List UInt8 × Inbound)
  | .none => .ok ([], s)
  | .contentLength length => .ok (transferExactBytes s length)
  | .chunked => transferChunkedBody profile s
  | .untilEof => .ok (transferUntilEof s)

section
variable {profile : Profile} {s s₁ s₂ : Inbound} {line rest : List UInt8}

theorem transferTrailers_last (hline : readCrlfLine s = .ok (crlfBytes, s₁)) :
    transferTrailers s = .ok (crlfBytes, s₁) := by
  rw [transferTrailers]
  split <;> simp_all

theorem transferTrailers_more (hline : readCrlfLine s = .ok (line, s₁)) (hne : line ≠ crlfBytes)
    (hrest : transferTrailers s₁ = .ok (rest, s₂)) : transferTrailers s = .ok (line ++ rest, s₂) := by
  rw [transferTrailers]
  split <;> simp_all

theorem transferChunkedBody_last (hline : readCrlfLine s = .ok (line, s₁))
    (hlength : chunkLength line = .ok 0) (hrest : transferTrailers s₁ = .ok (rest, s₂)) :
    transferChunkedBody profile s = .ok (line ++ rest, s₂) := by
  rw [transferChunkedBody]
  split <;> simp_all

theorem transferChunkedBody_more {n count : Nat} (hline : readCrlfLine s = .ok (line, s₁))
    (hlength : chunkLength line = .ok n) (hpos : n ≠ 0)
    (hcount : (addUsize profile n 2 : Exec String Nat) = .ok count)
    (hrest : transferChunkedBody profile (transferExactBytes s₁ count).2 = .ok (rest, s₂)) :
    transferChunkedBody profile s = .ok (line ++ (transferExactBytes s₁ count).1 ++ rest, s₂) := by
  obtain ⟨m, rfl⟩ := Nat.exists_eq_succ_of_ne_zero hpos
  rw [transferChunkedBody]
  split <;> simp_all

theorem transferChunkedBody_fault {n count : Nat} {fault : Fault String} (hline : readCrlfLine s = .ok (line, s₁))
    (hlength : chunkLength line = .ok n) (hpos : n ≠ 0)
    (hcount : (addUsize profile n 2 : Exec String Nat) = .ok count)
    (hrest : transferChunkedBody profile (transferExactBytes s₁ count).2 = .error fault) :
    transferChunkedBody profile s = .error fault := by
  obtain ⟨m, rfl⟩ := Nat.exists_eq_succ_of_ne_zero hpos
  rw [transferChunkedBody]
  split <;> simp_all

theorem transferChunkedBody_overflow {n : Nat} {fault : Fault String} (hline : readCrlfLine s = .ok (line, s₁))
    (hlength : chunkLength line = .ok (n + 1))
    (hcount : (addUsize profile (n + 1) 2 : Exec String Nat) = .error fault) :
    transferChunkedBody profile s = .error fault := by
  rw [transferChunkedBody]
  split <;> simp_all

end

theorem transferTrailers_bytes {s s' : Inbound} {sent : List UInt8}
    (h : transferTrailers s = .ok (sent, s')) : s.bytes = sent ++ s'.bytes := by
  fun_induction transferTrailers s generalizing sent with
  | case1 => cases h
  | case2 s rest hline =>
    cases h
    exact (readCrlfLine_bytes hline).1
  | case3 => cases h
  | case4 s trailer rest hline _ trailers last htrailers ih =>
    cases h
    rw [(readCrlfLine_bytes hline).1, ih htrailers, List.append_assoc]

theorem transferChunkedBody_bytes {profile : Profile} {s s' : Inbound} {sent : List UInt8}
    (h : transferChunkedBody profile s = .ok (sent, s')) : s.bytes = sent ++ s'.bytes := by
  fun_induction transferChunkedBody profile s generalizing sent with
  | case1 => cases h
  | case2 => cases h
  | case3 => cases h
  | case4 s line rest hline _ trailers last htrailers =>
    cases h
    rw [(readCrlfLine_bytes hline).1, transferTrailers_bytes htrailers, List.append_assoc]
  | case5 => cases h
  | case6 => cases h
  | case7 s line rest hline n _ count _ chunk body last hbody =>
    rename_i ih
    cases h
    rw [(readCrlfLine_bytes hline).1, transferExactBytes_bytes rest count, ih hbody]
    simp only [List.append_assoc, chunk]

theorem transferBody_bytes {profile : Profile} {s s' : Inbound} {bodyKind : BodyKind} {sent : List UInt8}
    (h : transferBody profile s bodyKind = .ok (sent, s')) : s.bytes = sent ++ s'.bytes := by
  cases bodyKind with
  | none =>
    cases h
    rfl
  | contentLength length =>
    have hsent : transferExactBytes s length = (sent, s') := Except.ok.inj h
    rw [transferExactBytes_bytes s length, hsent]
  | chunked => exact transferChunkedBody_bytes h
  | untilEof =>
    cases h
    simp [Inbound.bytes]

structure Config where
  profile : Profile
  addrs : SocketAddrs
  base64 : Base64
  /-- The reason phrase of a valid status code. -/
  canonicalReason : Nat → Option Text
  auth : Option HttpAuth

def readHttpRequest (s : Inbound) : Exec String (Option HttpRequestHead × Inbound) := do
  match ← readHttpHead s with
  | (none, s) => return (none, s)
  | (some head, s) => return (some (← parseRequest head), s)

/-- `send_status`, which is only ever called without keeping the connection. -/
def statusText (version : Text) (status : Nat) (reason : String) : Text :=
  version ++ ' ' :: (toString status).toList ++ ' ' :: reason.toList ++ crlf ++
    headerLine "Content-Length".toList "0".toList ++ headerLine connectionClose.1 connectionClose.2 ++ crlf

def proxyAuthRequired (version realm : Text) : Text :=
  version ++ " 407 Proxy Authentication Required".toList ++ crlf ++
    headerLine "Proxy-Authenticate".toList ("Basic realm=\"".toList ++ realm ++ ['"']) ++
    headerLine "Content-Length".toList "0".toList ++ headerLine connectionClose.1 connectionClose.2 ++ crlf

/-- The loop that passes on the answers of the server, up to the first that is not only
informational: what is written to the client, and whether the connection can be kept. -/
def relayResponses (config : Config) (request : HttpRequestHead) (keepAliveRequested : Bool)
    (remote : Inbound) : Exec String (List UInt8 × Bool) :=
  match _hhead : readHttpHead remote with
  | .error fault => .error fault
  | .ok (none, _) => bail "remote closed before sending an HTTP response"
  | .ok (some head, remote) =>
    match (do
      let response ← parseResponse head
      let bodyKind ← responseBodyKind request.method response.status response.headers
      return (response, bodyKind) : Exec String (HttpResponseHead × BodyKind)) with
    | .error fault => .error fault
    | .ok (response, bodyKind) =>
      let informational := 100 ≤ response.status ∧ response.status < 200 ∧ response.status ≠ 101
      let canKeepAlive := keepAliveRequested ∧ bodyKind ≠ .untilEof ∧ ¬ informational
      let outbound := utf8 (buildOutboundResponse config.canonicalReason response bodyKind
        (if informational then none else some canKeepAlive))
      match _hbody : transferBody config.profile remote bodyKind with
      | .error fault => .error fault
      | .ok (body, remote) =>
        if informational then
          match relayResponses config request keepAliveRequested remote with
          | .error fault => .error fault
          | .ok (more, keepAlive) => .ok (outbound ++ body ++ more, keepAlive)
        else .ok (outbound ++ body, canKeepAlive)
termination_by remote.bytes.length
decreasing_by
  have hhead := readHttpHead_bytes _hhead
  have hbody := congrArg List.length (transferBody_bytes _hbody)
  rw [List.length_append] at hbody
  omega

/-- A request that was forwarded: its head as it was read and as it was sent, its body, and
what was sent back. -/
structure Exchange where
  request : HttpRequestHead
  head : List UInt8
  body : List UInt8
  answer : List UInt8

/-- What connecting to an address gives: an error, or the bytes that will come back. -/
abbrev Upstream := Text → Except String Source

def connect (upstream : Upstream) (addr : Text) : Exec String Inbound :=
  match upstream addr with
  | .ok source => .ok ⟨[], source⟩
  | .error message => bail message

def handleHttpRequest (config : Config) (upstream : Upstream) (request : HttpRequestHead) (s : Inbound)
    (bodyKind : BodyKind) (keepAliveRequested : Bool) : Exec String (Exchange × Bool × Inbound) := do
  let (addr, target, host) ← parseProxyTarget config.addrs request.target request.headers
  let remote ← connect upstream addr
  let head := utf8 (buildOutboundRequest request target host bodyKind)
  let (body, s) ← transferBody config.profile s bodyKind
  let (answer, keepAlive) ← relayResponses config request keepAliveRequested remote
  return ({ request, head, body, answer }, keepAlive, s)

/-- A request that was served was forwarded with its body, and answered. -/
theorem handleHttpRequest_ok {config : Config} {upstream : Upstream} {request : HttpRequestHead}
    {s s' : Inbound} {bodyKind : BodyKind} {keepAliveRequested keepAlive : Bool} {exchange : Exchange}
    (h : handleHttpRequest config upstream request s bodyKind keepAliveRequested =
      .ok (exchange, keepAlive, s')) :
    exchange.request = request ∧ transferBody config.profile s bodyKind = .ok (exchange.body, s') ∧
      ∃ remote, relayResponses config request keepAliveRequested remote = .ok (exchange.answer, keepAlive) := by
  obtain ⟨⟨addr, target, host⟩, -, h⟩ := bind_eq_ok.mp h
  obtain ⟨remote, -, h⟩ := bind_eq_ok.mp h
  obtain ⟨⟨body, s₁⟩, hbody, h⟩ := bind_eq_ok.mp h
  obtain ⟨⟨answer, keep⟩, hrelay, h⟩ := bind_eq_ok.mp h
  cases h
  exact ⟨rfl, hbody, remote, hrelay⟩

inductive Turn where
  /-- The client has no further request. -/
  | closed
  | unauthorized (answer : List UInt8)
  /-- `CONNECT`: from here on the rest of the stream is copied. -/
  | tunnel (answer forwarded : List UInt8)
  | served (exchange : Exchange) (keepAlive : Bool) (s : Inbound)

def handleConnect (config : Config) (upstream : Upstream) (request : HttpRequestHead) (s : Inbound) :
    Exec String Turn := do
  let addr ← authorityToAddr config.addrs request.target
  let _ ← connect upstream addr
  return .tunnel (utf8 (statusText request.version 200 "Connection Established")) s.bytes

def Config.refuses (config : Config) (request : HttpRequestHead) : Bool :=
  config.auth.any fun auth => !proxyAuthorized config.base64 request.headers auth

/-- One turn of the loop of `handle_connection`. -/
def turn (config : Config) (upstream : Upstream) (s : Inbound) : Exec String Turn := do
  match ← readHttpRequest s with
  | (none, _) => return .closed
  | (some request, s) =>
    if config.refuses request then
      let realm := (config.auth.map HttpAuth.realm).getD []
      return .unauthorized (utf8 (proxyAuthRequired request.version realm))
    else if eqIgnoreAsciiCase request.method "CONNECT" then handleConnect config upstream request s
    else
      let bodyKind ← requestBodyKind request.headers
      let (exchange, keepAlive, s) ←
        handleHttpRequest config upstream request s bodyKind (requestKeepAlive request)
      return .served exchange keepAlive s

structure Connection where
  inbound : Inbound
  exchanges : List Exchange

def step (config : Config) (c : Connection) (upstream : Upstream) : Option Connection :=
  match turn config upstream c.inbound with
  | .ok (.served exchange true s) => some ⟨s, c.exchanges ++ [exchange]⟩
  | _ => none

end Hysteria.App.HttpProxy
