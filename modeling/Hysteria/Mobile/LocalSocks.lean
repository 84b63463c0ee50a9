import Hysteria.Core.ClientTunnel
import Hysteria.Mobile.LocalSocksUdp

/-! The mobile client's SOCKS5 listener, `local_socks.rs`: how a request is served and what its
failure is taken for. -/
namespace Hysteria.Mobile.LocalSocks
open Lib Hysteria.Core App.Socks5

inductive Cause where
  | message (text : String)
  | core (error : CoreError)
deriving DecidableEq, Repr

abbrev Failure := List Cause

def connectionRecoveryReasonFromCore : CoreError → Option String
  | .closed reason => some s!"connection closed: {reason}"
  | .transport reason => some s!"connection transport failed: {reason}"
  | .connect reason => some s!"connection connect failed: {reason}"
  | .dial _ | .authentication _ | .config _ | .protocol _ | .unexpectedFrameType _ => none

def connectionRecoveryReason (err : Failure) : Option String :=
  err.findSome? fun
    | .core error => connectionRecoveryReasonFromCore error
    | .message _ => none

def relayFailure (error : String) (closeReason : Option String) (context : String) : Failure :=
  match closeReason with
  | some reason => [.message context, .core (.closed reason)]
  | none => [.message context, .message error]

/-- The local client's side of a connection: what it still sends, what a read meets behind that
if not the end of the stream, and the errors of the writes to come. -/
structure LocalStream where
  unread : List UInt8
  broken : Option String
  writes : List (Option String)
deriving DecidableEq, Repr

abbrev Served := StateT LocalStream (Exec Failure)

def fail (failure : Failure) : Served α := fun _ => .error (.error failure)

def bail (text : String) : Served α := fail [.message text]

def readExact (n : Nat) : Served (List UInt8) := fun stream =>
  if n ≤ stream.unread.length then
    .ok (stream.unread.take n, { stream with unread := stream.unread.drop n })
  else .error (.error [.message (stream.broken.getD "early eof")])

def readByte : Served (Option UInt8) := fun stream =>
  match stream.unread, stream.broken with
  | b :: unread, _ => .ok (some b, { stream with unread })
  | [], none => .ok (none, stream)
  | [], some text => .error (.error [.message text])

/-- `write_all` or `flush`, with the error to report for a failure. -/
def writeOr (failure : String → Failure) (_bytes : List UInt8) : Served Unit := fun stream =>
  match stream.writes with
  | some text :: _ => .error (.error (failure text))
  | _ => .ok ((), { stream with writes := stream.writes.tail })

def writeAll (bytes : List UInt8) : Served Unit := writeOr (fun text => [.message text]) bytes

def orBail : Except String α → Served α
  | .ok a => pure a
  | .error text => bail text

def negotiate (auth : Option (String × String)) : Served Unit := do
  let header ← readExact 2
  let version := header.getD 0 0
  if version ≠ 5 then
    bail s!"unsupported SOCKS version {version}"
  else
  let methods ← readExact (header.getD 1 0).toNat
  let selected : UInt8 := if auth.isSome then 2 else 0
  if methods.contains selected then
    writeAll [5, selected]
    match auth with
    | none => pure ()
    | some (expectedUsername, expectedPassword) =>
      let authHeader ← readExact 2
      if authHeader.getD 0 0 ≠ 1 then
        writeAll [1, 1]
        bail "unsupported username/password auth version"
      else
      let username ← readExact (authHeader.getD 1 0).toNat
      let passwordLen ← readExact 1
      let password ← readExact (passwordLen.getD 0 0).toNat
      if username = utf8Bytes expectedUsername ∧ password = utf8Bytes expectedPassword then
        writeAll [1, 0]
      else
        writeAll [1, 1]
        bail "invalid SOCKS5 credentials"
  else
    writeAll [5, 0xff]
    bail "no acceptable SOCKS5 authentication method"

structure SocksRequest where
  command : UInt8
  address : String
deriving DecidableEq, Repr

def readHost (atyp : UInt8) : Served String := do
  if atyp = socks5AtypIpv4 then
    let raw ← readExact 4
    return ipv4ToString (raw.getD 0 0) (raw.getD 1 0) (raw.getD 2 0) (raw.getD 3 0)
  else if atyp = socks5AtypIpv6 then
    return ipv6ToString (← readExact 16)
  else if atyp = socks5AtypDomain then
    let len ← readExact 1
    let raw ← readExact (len.getD 0 0).toNat
    match String.fromUTF8? raw.toByteArray with
    | some host => return host
    | none => bail "invalid SOCKS5 domain address"
  else bail s!"unsupported SOCKS5 address type {atyp}"

def readAddress (atyp : UInt8) : Served String := do
  let host ← readHost atyp
  let port := beNat (← readExact 2)
  return s!"{host}:{port}"

def readRequest : Served SocksRequest := do
  let header ← readExact 4
  let version := header.getD 0 0
  if version ≠ 5 then
    bail s!"unsupported SOCKS request version {version}"
  else
    let address ← readAddress (header.getD 3 0)
    return { command := header.getD 1 0, address }

def socks5CmdConnect : UInt8 := 0x01
def socks5CmdUdpAssociate : UInt8 := 0x03

/-- With the encoded bind address; that of a reply without one is `0.0.0.0:0`. -/
def writeReply (reply : UInt8) (bindAddr : Option (List UInt8)) : Served Unit :=
  writeAll ([5, reply, 0] ++ bindAddr.getD [1, 0, 0, 0, 0, 0, 0])

/-- The DNS proxy: the transport it serves for a destination, its answers to the queries of a
connection, and whether a tunnel to a resolver can be opened. Its errors are texts. -/
structure Resolver where
  matchDestination : String → Option DnsProxyTransport
  answers : List (Except String (List UInt8))
  dotUpstream : Except String Unit

/-- A round of the upload loop: what the socket receives, what becomes of answering it where it
is a DNS query, and of sending it where it is not. -/
structure Upload (Addr : Type) where
  received : Except String (Datagram Addr)
  answered : Except String Unit
  link : DatagramLink

/-- A round of the download loop: the message that the session receives, unless it has ended,
and what becomes of passing it on. -/
structure Download where
  received : Option (List UInt8 × String)
  passedOn : Except String Unit

inductive Ended where
  | upload
  | download
  | control (result : Except String Unit)
deriving DecidableEq, Repr

structure Surroundings (Addr : Type) where
  profile : Profile
  closeReason : Option String
  padding : String
  stream : ProxyStream
  relay : Except String Unit
  resolver : Option Resolver
  disableUdp : Bool
  udpEnabled : Bool
  managerClosed : Bool
  localAddr : Except String Unit
  bind : Except String Unit
  listenAddr : Except String (List UInt8)
  sessionId : UInt32
  uploads : List (Upload Addr)
  downloads : List Download
  ended : Ended

def proceed (x : Served α) (stream : LocalStream) (next : α → LocalStream → Option (Exec Failure Unit)) :
    Option (Exec Failure Unit) :=
  match x stream with
  | .error fault => some (.error fault)
  | .ok (a, stream) => next a stream

variable {Addr : Type}

def Surroundings.relayed (s : Surroundings Addr) (context : String) : Exec Failure Unit :=
  match s.relay with
  | .ok () => .ok ()
  | .error err => .error (.error (relayFailure err s.closeReason context))

def readQuery : Served (Option (List UInt8)) := do
  match ← readByte with
  | none => return none
  | some first =>
    let second ← readExact 1
    return some (← readExact (beNat (first :: second)))

def answerQuery (closeReason : Option String) (answer : Except String (List UInt8)) : Served Unit := do
  let response ← orBail answer
  if response.length ≥ 65536 then
    bail "DNS-over-TCP response exceeds frame size"
  else
    writeAll (beBytes 2 response.length)
    writeAll response
    writeOr (fun text => relayFailure text closeReason "DNS-over-TCP flush failed") []

/-- A query without an answer is still being resolved. -/
def handleDnsOverTcp (closeReason : Option String) :
    List (Except String (List UInt8)) → LocalStream → Option (Exec Failure Unit)
  | [], stream =>
    proceed readQuery stream fun
      | none, _ => some (.ok ())
      | some _, _ => none
  | answer :: answers, stream =>
    proceed readQuery stream fun
      | none, _ => some (.ok ())
      | some _, stream =>
        proceed (answerQuery closeReason answer) stream fun () stream =>
          handleDnsOverTcp closeReason answers stream

def Surroundings.handleDnsOverTls (s : Surroundings Addr) (resolver : Resolver) : Exec Failure Unit :=
  match resolver.dotUpstream with
  | .error text => .error (.error [.message text])
  | .ok () => s.relayed "DNS-over-TLS relay failed"

def Surroundings.connectThrough (s : Surroundings Addr) (address : String) (stream : LocalStream) :
    Option (Exec Failure Unit) :=
  match Client.tcp s.padding address s.stream with
  | .ok () =>
    proceed (writeReply 0 none) stream fun () _ => some (s.relayed s!"SOCKS5 CONNECT relay failed for {address}")
  | .error (.error err) => proceed (writeReply 4 none) stream fun () _ => some (.error (.error [.core err]))
  | .error (.panic why) => some (.error (.panic why))

def Surroundings.handleConnect (s : Surroundings Addr) (address : String) (stream : LocalStream) :
    Option (Exec Failure Unit) :=
  match s.resolver.bind fun resolver => (resolver.matchDestination address).map (resolver, ·) with
  | some (resolver, .plain) =>
    proceed (writeReply 0 none) stream fun () stream => handleDnsOverTcp s.closeReason resolver.answers stream
  | some (resolver, .dot) => proceed (writeReply 0 none) stream fun () _ => some (s.handleDnsOverTls resolver)
  | none => s.connectThrough address stream

variable [DecidableEq Addr]

/-- One round of `udp_local_to_remote`. -/
def Surroundings.uploadRound (s : Surroundings Addr) (client : Option Addr) (upload : Upload Addr) :
    Flow (Option Addr) (Fault Failure) :=
  match upload.received with
  | .error text => .stop client (.error [.message text])
  | .ok datagram =>
    match parseUdpDatagram datagram.received with
    | .error text => .stop client (.error [.message text])
    | .ok none => .next client
    | .ok (some (destination, payload)) =>
      if client.any (· ≠ datagram.peer) then .next client
      else
        let client := some datagram.peer
        if s.resolver.any fun resolver => resolver.matchDestination destination = some .plain then
          match upload.answered with
          | .ok () => .next client
          | .error text => .stop client (.error [.message text])
        else if s.disableUdp then .next client
        else
          match UdpSession.send s.profile upload.link s.sessionId payload destination with
          | .ok () => .next client
          | .error (.error err) => .stop client (.error [.message "SOCKS5 UDP upload failed", .core err])
          | .error (.panic why) => .stop client (.panic why)

/-- One round of `udp_remote_to_local`. -/
def downloadRound (_ : Unit) (download : Download) : Flow Unit (Fault Failure) :=
  match download.received, download.passedOn with
  | none, _ => .stop () (.error [.message "SOCKS5 UDP download failed", .core (.closed "udp session closed")])
  | some _, .error text => .stop () (.error [.message text])
  | some _, .ok () => .next ()

/-- `joined.context(..)?` of a task that has ended. A panic is an error of the join. -/
def joined (context : String) : Fault Failure → Exec Failure Unit
  | .error failure => .error (.error failure)
  | .panic _ => .error (.error [.message context])

/-- What the `select!` gives. Without a session there is no download. -/
def Surroundings.selected (s : Surroundings Addr) : Option (Exec Failure Unit) :=
  match s.ended with
  | .control (.ok ()) => some (.ok ())
  | .control (.error text) => some (.error (.error [.message text]))
  | .upload => (loop s.uploadRound none s.uploads).2.map <| joined <|
      if s.disableUdp then "SOCKS5 DNS-only UDP task panicked" else "SOCKS5 UDP upload task panicked"
  | .download =>
    if s.disableUdp then none
    else (loop downloadRound () s.downloads).2.map <| joined "SOCKS5 UDP download task panicked"

def withContext (context : String) : Except String α → Served α
  | .ok a => pure a
  | .error text => fail [.message context, .message text]

/-- The session of an association, which is for DNS alone where UDP is disabled. -/
def Surroundings.openSession (s : Surroundings Addr) : Served Unit :=
  if s.disableUdp then pure ()
  else
    match Client.udp s.udpEnabled s.managerClosed with
    | .ok () => pure ()
    | .error err => fail [.message "failed to open proxied UDP session", .core err]

def Surroundings.openAssociation (s : Surroundings Addr) : Served Unit := do
  withContext "failed to read SOCKS5 local address" s.localAddr
  withContext "failed to bind SOCKS5 UDP socket" s.bind
  s.openSession
  let listenAddr ← withContext "failed to read SOCKS5 UDP listen address" s.listenAddr
  writeReply 0 (some listenAddr)

def Surroundings.handleUdpAssociate (s : Surroundings Addr) (stream : LocalStream) : Option (Exec Failure Unit) :=
  proceed s.openAssociation stream fun () _ => s.selected

def shouldAcceptUdpAssociate (disableUdp hasDnsProxy : Bool) : Bool := !disableUdp || hasDnsProxy

def readSocksRequest (auth : Option (String × String)) : Served SocksRequest := do
  negotiate auth
  readRequest

def Surroundings.handleClient (s : Surroundings Addr) (auth : Option (String × String)) (stream : LocalStream) :
    Option (Exec Failure Unit) :=
  proceed (readSocksRequest auth) stream fun request stream =>
    if request.command = socks5CmdConnect then s.handleConnect request.address stream
    else if request.command = socks5CmdUdpAssociate ∧
        shouldAcceptUdpAssociate s.disableUdp s.resolver.isSome then s.handleUdpAssociate stream
    else proceed (writeReply 7 none) stream fun () _ => some (.ok ())

end Hysteria.Mobile.LocalSocks
