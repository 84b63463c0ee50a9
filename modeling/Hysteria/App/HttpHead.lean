import Hysteria.Lib.Exec
import Hysteria.Lib.Search
import Hysteria.Lib.Text

/-! The heads of HTTP messages as `http_proxy.rs` reads, judges and rewrites them. Text
is kept as characters; what goes out is its UTF-8 encoding. -/
namespace Hysteria.App.HttpProxy
open Lib

def keepAliveTimeoutSecs : Nat := 60

/-- `bail!`, and an error given a context, whose text is the outermost one. -/
def bail (message : String) : Exec String α := .error (.error message)

def orBail (value : Option α) (message : String) : Exec String α :=
  match value with
  | some a => .ok a
  | none => bail message

theorem orBail_ok {value : Option α} {message : String} {a : α} (h : orBail value message = .ok a) :
    value = some a := by
  cases value with
  | none => cases h
  | some b =>
    cases h
    rfl

inductive BodyKind where
  | none
  | contentLength (length : Nat)
  | chunked
  | untilEof
deriving DecidableEq, Repr

abbrev Headers := List (Text × Text)

structure HttpRequestHead where
  method : Text
  target : Text
  version : Text
  headers : Headers
deriving DecidableEq, Repr

structure HttpResponseHead where
  version : Text
  status : Nat
  reason : Text
  headers : Headers
deriving DecidableEq, Repr

def crlf : Text := ['\r', '\n']

def parseHeader (line : Text) : Exec String (Text × Text) := do
  let (name, value) ← orBail (splitOnce ':' line) "malformed HTTP header line"
  return (trim name, trim value)

def parseHeaders (lines : List Text) : Exec String Headers :=
  (lines.filter (· ≠ [])).mapM parseHeader

/-- `read_http_request` behind `read_http_head`. -/
def parseRequest (headerBytes : List UInt8) : Exec String HttpRequestHead := do
  let headerText ← orBail (fromUtf8 headerBytes) "HTTP request header is not valid UTF-8"
  match splitSeq '\r' ['\n'] headerText with
  | [] => bail "missing HTTP request line"
  | requestLine :: lines =>
    match splitn ' ' 3 requestLine with
    | method :: target :: version :: _ =>
      let headers ← parseHeaders lines
      return { method, target, version, headers }
    | [_, _] => bail "missing HTTP version"
    | [_] => bail "missing HTTP request target"
    | [] => bail "missing HTTP method"

/-- `read_http_response` behind `read_http_head`. -/
def parseResponse (headerBytes : List UInt8) : Exec String HttpResponseHead := do
  let headerText ← orBail (fromUtf8 headerBytes) "HTTP response header is not valid UTF-8"
  match splitSeq '\r' ['\n'] headerText with
  | [] => bail "missing HTTP response status line"
  | statusLine :: lines =>
    match splitn ' ' 3 statusLine with
    | [] => bail "missing HTTP response version"
    | [_] => bail "missing HTTP response status"
    | version :: statusText :: rest =>
      let status ← orBail (fromStrRadix 16 10 statusText) "invalid HTTP response status"
      let reason := trim (rest.head?.getD [])
      let headers ← parseHeaders lines
      return { version, status, reason, headers }

def headerValue (headers : Headers) (name : String) : Option Text :=
  (headers.find? fun header => eqIgnoreAsciiCase header.1 name).map Prod.snd

def headerContainsToken (headers : Headers) (name token : String) : Bool :=
  ((headers.filter fun header => eqIgnoreAsciiCase header.1 name).flatMap
    fun header => header.2.splitOn ',').any fun value => eqIgnoreAsciiCase (trim value) token

def requestBodyKind (headers : Headers) : Exec String BodyKind :=
  if headerContainsToken headers "Transfer-Encoding" "chunked" then .ok .chunked
  else if (headerValue headers "Transfer-Encoding").isSome then
    bail "unsupported request Transfer-Encoding"
  else
    match headerValue headers "Content-Length" with
    | none => .ok .none
    | some value =>
      match fromStrRadix 64 10 value with
      | none => bail "invalid HTTP Content-Length header"
      | some 0 => .ok .none
      | some length => .ok (.contentLength length)

def responseBodyKind (requestMethod : Text) (status : Nat) (headers : Headers) :
    Exec String BodyKind :=
  if eqIgnoreAsciiCase requestMethod "HEAD" ∨ status ∈ [101, 204, 304] ∨
      (100 ≤ status ∧ status < 200) then .ok .none
  else if headerContainsToken headers "Transfer-Encoding" "chunked" then .ok .chunked
  else if (headerValue headers "Transfer-Encoding").isSome then
    bail "unsupported response Transfer-Encoding"
  else
    match headerValue headers "Content-Length" with
    | none => .ok .untilEof
    | some value =>
      match fromStrRadix 64 10 value with
      | none => bail "invalid HTTP response Content-Length header"
      | some 0 => .ok .none
      | some length => .ok (.contentLength length)

def versionAtLeastHttp11 (version : Text) : Bool :=
  match "HTTP/".toList.isPrefixOf? version with
  | none => false
  | some rest =>
    match splitOnce '.' rest with
    | none => false
    | some (major, minor) =>
      match fromStrRadix 16 10 major, fromStrRadix 16 10 minor with
      | some major, some minor => major > 1 ∨ (major = 1 ∧ minor ≥ 1)
      | _, _ => false

def requestKeepAlive (request : HttpRequestHead) : Bool :=
  versionAtLeastHttp11 request.version &&
    (headerContainsToken request.headers "Proxy-Connection" "keep-alive" ||
      headerContainsToken request.headers "Connection" "keep-alive")

structure HttpAuth where
  username : Text
  password : Text
  realm : Text

/-- The two base64 alphabets, standard and URL-safe, of the decoding library. -/
structure Base64 where
  standard : Text → Option (List UInt8)
  urlSafe : Text → Option (List UInt8)

def proxyAuthorized (base64 : Base64) (headers : Headers) (auth : HttpAuth) : Bool :=
  match headerValue headers "Proxy-Authorization" with
  | none => false
  | some header =>
    match ("Basic ".toList.isPrefixOf? header).or ("basic ".toList.isPrefixOf? header) with
    | none => false
    | some encoded =>
      match (base64.standard (trim encoded)).or (base64.urlSafe (trim encoded)) with
      | none => false
      | some decoded =>
        match (fromUtf8 decoded).bind (splitOnce ':') with
        | none => false
        | some (username, password) => username = auth.username ∧ password = auth.password

inductive SocketAddr where
  | v4 (ip : Text) (port : Nat)
  | v6 (ip : Text) (port : Nat)

def SocketAddr.ip : SocketAddr → Text
  | .v4 ip _ => ip
  | .v6 ip _ => ip

/-- `str::parse::<SocketAddr>` of the standard library. An IP address is displayed on
one line. -/
structure SocketAddrs where
  parse : Text → Option SocketAddr
  oneLine : ∀ {text : Text} {addr : SocketAddr}, parse text = some addr → '\n' ∉ addr.ip

def splitAuthorityAndPath (value : Text) : Text × Text :=
  if '/' ∈ value then (value.takeWhile (· ≠ '/'), value.dropWhile (· ≠ '/')) else (value, ['/'])

def authorityToAddr (addrs : SocketAddrs) (authority : Text) : Exec String Text :=
  if (addrs.parse authority).isSome then .ok authority
  else
    let normalized := trim authority
    if normalized = [] then bail "empty authority"
    else if normalized.head? = some '[' ∧ (findSeq [']', ':'] normalized).isSome then .ok normalized
    else if ':' ∈ normalized then .ok normalized
    else .ok (normalized ++ ":80".toList)

def normalizeHostHeader (addrs : SocketAddrs) (authority : Text) : Exec String Text :=
  let normalized := trim authority
  if normalized = [] then bail "empty authority"
  else
    match addrs.parse normalized with
    | some (.v4 ip port) => .ok (if port = 80 then ip else normalized)
    | some (.v6 ip port) => .ok (if port = 80 then '[' :: ip ++ [']'] else normalized)
    | none =>
      if ":80".toList.isSuffixOf normalized then .ok (normalized.take (normalized.length - 3))
      else .ok normalized

/-- The address to connect to, the target to ask for there, and the host to name. -/
def parseProxyTarget (addrs : SocketAddrs) (target : Text) (headers : Headers) :
    Exec String (Text × Text × Text) :=
  match "http://".toList.isPrefixOf? target with
  | some rest => do
    let split := splitAuthorityAndPath rest
    let requestAddr ← authorityToAddr addrs split.1
    let hostHeader ← normalizeHostHeader addrs split.1
    return (requestAddr, split.2, hostHeader)
  | none =>
    if "https://".toList.isPrefixOf target then
      bail "plain HTTPS proxy requests are not supported; use CONNECT"
    else if ['/'].isPrefixOf target then do
      let host ← orBail (headerValue headers "Host") "missing Host header for proxied HTTP request"
      let requestAddr ← authorityToAddr addrs host
      let hostHeader ← normalizeHostHeader addrs host
      return (requestAddr, target, hostHeader)
    else do
      let requestAddr ← authorityToAddr addrs target
      let hostHeader ← normalizeHostHeader addrs target
      return (requestAddr, ['/'], hostHeader)

def hopByHop : List String :=
  ["proxy-connection", "connection", "keep-alive", "proxy-authenticate", "proxy-authorization", "te",
    "trailers", "upgrade"]

def shouldSkipHeader (name : Text) (bodyKind : BodyKind) : Bool :=
  (bodyKind = .chunked ∧ eqIgnoreAsciiCase name "Content-Length") ∨
    name.map Char.toLower ∈ hopByHop.map String.toList

def shouldSkipRequestHeader (name : Text) (bodyKind : BodyKind) : Bool := shouldSkipHeader name bodyKind

def shouldSkipResponseHeader (name : Text) (bodyKind : BodyKind) : Bool := shouldSkipHeader name bodyKind

def headerLine (name value : Text) : Text := name ++ ':' :: ' ' :: value ++ crlf

def hostName : Text := "Host".toList

def connectionClose : Text × Text := ("Connection".toList, "close".toList)

/-- One turn of the loop over the headers of a request. -/
def pushHeader (hostHeader : Text) (bodyKind : BodyKind) (out : Text × Bool) (header : Text × Text) :
    Text × Bool :=
  if shouldSkipRequestHeader header.1 bodyKind then out
  else if eqIgnoreAsciiCase header.1 "Host" then (out.1 ++ headerLine hostName hostHeader, true)
  else (out.1 ++ headerLine header.1 header.2, out.2)

def buildOutboundRequest (request : HttpRequestHead) (requestTarget hostHeader : Text)
    (bodyKind : BodyKind) : Text :=
  let requestLine := request.method ++ ' ' :: requestTarget ++ ' ' :: request.version ++ crlf
  let (bytes, sawHost) := request.headers.foldl (pushHeader hostHeader bodyKind) (requestLine, false)
  let bytes := if sawHost then bytes else bytes ++ headerLine hostName hostHeader
  bytes ++ headerLine connectionClose.1 connectionClose.2 ++ crlf

def buildOutboundResponse (canonicalReason : Nat → Option Text) (response : HttpResponseHead)
    (bodyKind : BodyKind) (keepAlive : Option Bool) : Text :=
  let reason :=
    if response.reason = [] then (canonicalReason response.status).getD [] else response.reason
  let statusLine :=
    response.version ++ ' ' :: (toString response.status).toList ++ ' ' :: reason ++ crlf
  let kept := response.headers.filter fun header => !shouldSkipResponseHeader header.1 bodyKind
  let connection := match keepAlive with
    | some true =>
      headerLine "Connection".toList "keep-alive".toList ++
        headerLine "Proxy-Connection".toList "keep-alive".toList ++
        headerLine "Keep-Alive".toList s!"timeout={keepAliveTimeoutSecs}".toList
    | some false => headerLine connectionClose.1 connectionClose.2
    | none => []
  statusLine ++ (kept.flatMap fun header => headerLine header.1 header.2) ++ connection ++ crlf

end Hysteria.App.HttpProxy
