import Hysteria.Core.ClientUdp
import Hysteria.Core.Frag
import Hysteria.Core.RuntimeIo

/-! What the client's `tcp` and its UDP sessions return for what the connection does below
them. `errors.rs` turns the errors of streams and datagrams into `CoreError`s by their text. -/
namespace Hysteria.Core
open Lib

/-- `quinn::WriteError`, as the first writes to a stream meet it. -/
inductive WriteError where
  | stopped (code : Nat)
  | connectionLost
deriving DecidableEq, Repr

inductive ReadError where
  | reset (code : Nat)
  | connectionLost
deriving DecidableEq, Repr

inductive SendDatagramError where
  | unsupportedByPeer
  | disabled
  | tooLarge
  | connectionLost
deriving DecidableEq, Repr

def WriteError.text : WriteError → String
  | .stopped code => s!"sending stopped by peer: error {code}"
  | .connectionLost => "connection lost"

def ReadError.text : ReadError → String
  | .reset code => s!"stream reset by peer: error {code}"
  | .connectionLost => "connection lost"

def SendDatagramError.text : SendDatagramError → String
  | .unsupportedByPeer => "datagrams not supported by peer"
  | .disabled => "datagram support disabled"
  | .tooLarge => "datagram too large"
  | .connectionLost => "connection lost"

/-- What becomes of a stream that is opened for one request: the error of the connection in
`open_bi`, that of writing the request, and the bytes that arrive until the peer ends the
stream or a read fails. -/
structure ProxyStream where
  opened : Except String Unit
  written : Except WriteError Unit
  response : List UInt8
  ended : Option ReadError
deriving DecidableEq, Repr

def endText : Option ReadError → String
  | none => "early eof"
  | some err => err.text

/-- The readers report the end of the bytes as an early end of the stream; where a read fails
there instead, that is its error. -/
def atEnd (ended : Option ReadError) : Exec CoreError α → Exec CoreError α
  | .error (.error err) => .error (.error (if err = RuntimeIo.earlyEof then .transport (endText ended) else err))
  | result => result

def ofProtocolError : Exec ProtocolError α → Exec CoreError α
  | .error (.error err) => .error (.error (.protocol err))
  | .error (.panic why) => .error (.panic why)
  | .ok a => .ok a

def Client.tcp (padding addr : String) (stream : ProxyStream) : Exec CoreError Unit := do
  match stream.opened with
  | .error text => throw (.error (.transport text))
  | .ok () =>
    let _buf ← ofProtocolError (writeTcpRequest padding addr)
    match stream.written with
    | .error err => throw (.error (.transport err.text))
    | .ok () =>
      let ((ok, message), _) ← atEnd stream.ended (RuntimeIo.readTcpResponse stream.response)
      if !ok then throw (.error (.dial message))

/-- The peer does not take the request, or its response ends before the frame does. -/
def ProxyStream.CutOff (stream : ProxyStream) (padding addr : String) : Prop :=
  (∃ buf, writeTcpRequest padding addr = .ok buf) ∧ (stream.written ≠ .ok () ∨
    RuntimeIo.readTcpResponse stream.response = .error (.error RuntimeIo.earlyEof))

theorem RuntimeIo.readTcpResponse_error {input : List UInt8} {err : CoreError}
    (h : RuntimeIo.readTcpResponse input = .error (.error err)) :
    err = RuntimeIo.earlyEof ∨ ∃ protocolError, err = .protocol protocolError := by
  rw [RuntimeIo.readTcpResponse_renames input] at h
  match hblocking : Core.readTcpResponse input with
  | .ok _ => rw [hblocking] at h; cases h
  | .error (.panic _) => rw [hblocking] at h; cases h
  | .error (.error protocolError) =>
    rw [hblocking] at h
    cases h
    cases protocolError with
    | unexpectedEof => exact .inl rfl
    | _ => exact .inr ⟨_, rfl⟩

section
variable {stream : ProxyStream} {padding addr : String}

theorem Client.tcp_eq (hopened : stream.opened = .ok ()) : Client.tcp padding addr stream =
    ofProtocolError (writeTcpRequest padding addr) >>= fun _ =>
      match stream.written with
      | .error err => .error (.error (.transport err.text))
      | .ok () => atEnd stream.ended (RuntimeIo.readTcpResponse stream.response) >>= fun response =>
        if !response.1.1 then .error (.error (.dial response.1.2)) else .ok () := by
  rw [Client.tcp, hopened]
  rfl

/-- On an open connection `tcp` fails in the transport where the stream is cut off, and only
with what the server says, or says wrongly, where it is not. -/
theorem Client.tcp_cases (hopened : stream.opened = .ok ()) :
    (stream.CutOff padding addr ∧ ∃ text, Client.tcp padding addr stream = .error (.error (.transport text))) ∨
      (¬ stream.CutOff padding addr ∧ ∀ err, Client.tcp padding addr stream = .error (.error err) →
        (∃ message, err = .dial message) ∨ ∃ e, err = .protocol e) := by
  rw [Client.tcp_eq hopened, ProxyStream.CutOff]
  match hwrite : writeTcpRequest padding addr with
  | .error (.panic _) => simp [ofProtocolError, bind, Except.bind]
  | .error (.error _) => simp [ofProtocolError, bind, Except.bind]
  | .ok buf =>
    match hwritten : stream.written with
    | .error err => simp [ofProtocolError, bind, Except.bind]
    | .ok () =>
      match hread : RuntimeIo.readTcpResponse stream.response with
      | .error (.panic _) => simp [ofProtocolError, bind, Except.bind, atEnd]
      | .ok ((true, _), _) => simp [ofProtocolError, bind, Except.bind, atEnd]
      | .ok ((false, _), _) => simp [ofProtocolError, bind, Except.bind, atEnd]
      | .error (.error err) =>
        rcases RuntimeIo.readTcpResponse_error hread with rfl | ⟨e, rfl⟩
        · simp [ofProtocolError, bind, Except.bind, atEnd]
        · simp [ofProtocolError, bind, Except.bind, atEnd, RuntimeIo.earlyEof]

end

def maxDatagramFrameSize : Nat := 1200

/-- What becomes of a message: whether its session is closed, the datagram size of the
connection, the random packet id of its fragments, and the results of `send_datagram`, which
takes the datagram where there is no result. -/
structure DatagramLink where
  closed : Bool
  maxDatagramSize : Option Nat
  packetId : UInt16
  results : List (Except SendDatagramError Unit)

def sendUdpMessage (profile : Profile) (link : DatagramLink) (message : UDPMessage) : Exec CoreError Unit :=
  match link.results.headD (.ok ()) with
  | .ok () => .ok ()
  | .error .tooLarge =>
    let maxSize := link.maxDatagramSize.getD maxDatagramFrameSize
    if maxSize ≤ message.headerSize then
      .error (.error (.transport "udp datagram header exceeds peer datagram size"))
    else
      match (fragUdpMessage profile { message with packetId := max link.packetId 1 } maxSize : Exec Empty _) with
      | .error (.panic why) => .error (.panic why)
      | .error (.error err) => err.elim
      | .ok fragments =>
        match (link.results.tail.take fragments.length).find? fun result => !result.isOk with
        | some (.error err) => .error (.error (.transport err.text))
        | _ => .ok ()
  | .error err => .error (.error (.transport err.text))

def UdpSession.send (profile : Profile) (link : DatagramLink) (sessionId : UInt32) (data : List UInt8) (addr : String) :
    Exec CoreError Unit :=
  if link.closed then .error (.error (.closed "udp session closed"))
  else sendUdpMessage profile link { sessionId, packetId := 0, fragId := 0, fragCount := 1, addr, data }

namespace DatagramLink

def maxSize (link : DatagramLink) : Nat := link.maxDatagramSize.getD maxDatagramFrameSize

def pieces (link : DatagramLink) (message : UDPMessage) : Nat :=
  if message.size ≤ link.maxSize then 1
  else chunkCount message.data.length (link.maxSize - message.headerSize)

/-- The connection refuses the datagram for its size, which leaves room behind the header. -/
def Fragments (link : DatagramLink) (message : UDPMessage) : Prop :=
  link.results.head? = some (.error .tooLarge) ∧ message.headerSize < link.maxSize

/-- There are more pieces than can be counted, and the counter is checked. -/
def Overflows (profile : Profile) (link : DatagramLink) (message : UDPMessage) : Prop :=
  link.Fragments message ∧ profile.overflowChecks ∧ 256 ≤ link.pieces message

/-- The connection does not take the message: it refuses the datagram for another reason than its size, it has no
room behind the header, or it refuses one of the pieces. -/
def Refuses (profile : Profile) (link : DatagramLink) (message : UDPMessage) : Prop :=
  (∃ err, link.results.head? = some (.error err) ∧ ¬ link.Fragments message) ∨
    link.Fragments message ∧ ¬ link.Overflows profile message ∧
      ∃ err, .error err ∈ link.results.tail.take (link.pieces message)

end DatagramLink

section
variable {profile : Profile} {link : DatagramLink} {message : UDPMessage}

theorem DatagramLink.Overflows.not_refuses (h : link.Overflows profile message) : ¬ link.Refuses profile message := by
  rintro (⟨_, -, hnone⟩ | ⟨-, hnone, -⟩)
  · exact hnone h.1
  · exact hnone h

theorem DatagramLink.pieces_of_fragments (h : message.headerSize < link.maxSize) :
    (fragUdpMessage profile { message with packetId := max link.packetId 1 } link.maxSize : Exec Empty _) =
        .error (.panic .arithmeticOverflow) ∧ (profile.overflowChecks ∧ 256 ≤ link.pieces message) ∨
      ∃ fragments, (fragUdpMessage profile { message with packetId := max link.packetId 1 } link.maxSize :
          Exec Empty _) = .ok fragments ∧
        fragments.length = link.pieces message ∧ ¬ (profile.overflowChecks ∧ 256 ≤ link.pieces message) := by
  rw [DatagramLink.pieces]
  by_cases hfits : message.size ≤ link.maxSize
  · rw [if_pos hfits]
    refine .inr ⟨[{ message with packetId := max link.packetId 1 }], ?_, rfl, by omega⟩
    rw [fragUdpMessage]
    exact if_pos hfits
  · rw [if_neg hfits]
    have hfrag := @fragUdpMessage_eq Empty profile { message with packetId := max link.packetId 1 } link.maxSize h
      (Nat.lt_of_not_le hfits)
    rw [hfrag]
    by_cases hover : profile.overflowChecks ∧ 256 ≤ chunkCount message.data.length (link.maxSize - message.headerSize)
    · exact .inl ⟨if_pos hover, hover⟩
    · exact .inr ⟨_, if_neg hover, by rw [length_numbered, length_chunks]; rfl, hover⟩

theorem exists_error_iff {results : List (Except ε Unit)} :
    (∃ err, .error err ∈ results) ↔ ∃ err, (results.find? fun result => !result.isOk) = some (.error err) := by
  constructor
  · rintro ⟨err, hmem⟩
    obtain ⟨result, hfound⟩ : ∃ result, (results.find? fun result => !result.isOk) = some result :=
      Option.isSome_iff_exists.mp (List.find?_isSome.mpr ⟨_, hmem, rfl⟩)
    have hbad := List.find?_some hfound
    cases result with
    | ok _ => cases hbad
    | error err => exact ⟨err, hfound⟩
  · rintro ⟨err, hfound⟩
    exact ⟨err, List.mem_of_find?_eq_some hfound⟩

theorem headD_eq_error_iff {results : List (Except ε Unit)} {err : ε} :
    results.headD (.ok ()) = .error err ↔ results.head? = some (.error err) := by
  cases results <;> simp

theorem sendUdpMessage_of_fragments (h : link.Fragments message) :
    (∃ err, .error err ∈ link.results.tail.take (link.pieces message)) ∧ ¬ link.Overflows profile message ∧
        (∃ text, sendUdpMessage profile link message = .error (.error (.transport text))) ∨
      link.Overflows profile message ∧ (∃ why, sendUdpMessage profile link message = .error (.panic why)) ∨
      (¬ ∃ err, .error err ∈ link.results.tail.take (link.pieces message)) ∧ ¬ link.Overflows profile message ∧
        sendUdpMessage profile link message = .ok () := by
  have hsize : link.maxDatagramSize.getD maxDatagramFrameSize = link.maxSize := rfl
  rw [sendUdpMessage, headD_eq_error_iff.mpr h.1]
  simp only [hsize, if_neg (Nat.not_le_of_lt h.2)]
  rcases @DatagramLink.pieces_of_fragments profile link message h.2 with
    ⟨hpanic, hover⟩ | ⟨fragments, hsome, hlength, hover⟩
  · rw [hpanic]
    exact .inr (.inl ⟨⟨h, hover⟩, _, rfl⟩)
  · have hnone : ¬ link.Overflows profile message := fun h => hover h.2
    rw [hsome]
    simp only [hlength]
    by_cases hrefused : ∃ err, .error err ∈ link.results.tail.take (link.pieces message)
    · obtain ⟨err, hfound⟩ := exists_error_iff.mp hrefused
      rw [hfound]
      exact .inl ⟨hrefused, hnone, _, rfl⟩
    · refine .inr (.inr ⟨hrefused, hnone, ?_⟩)
      split
      · next err hfound => exact absurd (exists_error_iff.mpr ⟨err, hfound⟩) hrefused
      · rfl

theorem sendUdpMessage_of_not_fragments {err : SendDatagramError} (hhead : link.results.head? = some (.error err))
    (h : ¬ link.Fragments message) : ∃ text, sendUdpMessage profile link message = .error (.error (.transport text)) := by
  rw [sendUdpMessage, headD_eq_error_iff.mpr hhead]
  cases err with
  | tooLarge =>
    have hroom : link.maxDatagramSize.getD maxDatagramFrameSize ≤ message.headerSize :=
      Nat.le_of_not_lt fun hlt => h ⟨hhead, hlt⟩
    simp only [if_pos hroom]
    exact ⟨_, rfl⟩
  | unsupportedByPeer => exact ⟨_, rfl⟩
  | disabled => exact ⟨_, rfl⟩
  | connectionLost => exact ⟨_, rfl⟩

/-- Sending a message is refused in the transport, or panics, or succeeds. -/
theorem sendUdpMessage_cases (profile : Profile) (link : DatagramLink) (message : UDPMessage) :
    link.Refuses profile message ∧ (∃ text, sendUdpMessage profile link message = .error (.error (.transport text))) ∨
      link.Overflows profile message ∧ (∃ why, sendUdpMessage profile link message = .error (.panic why)) ∨
      (¬ link.Refuses profile message ∧ ¬ link.Overflows profile message) ∧
        sendUdpMessage profile link message = .ok () := by
  cases hresult : link.results.headD (.ok ()) with
  | ok _ =>
    have hhead : ∀ err, link.results.head? ≠ some (.error err) := by
      intro err herr
      rw [headD_eq_error_iff.mpr herr] at hresult
      cases hresult
    refine .inr (.inr ⟨⟨?_, fun hover => hhead _ hover.1.1⟩, by rw [sendUdpMessage, hresult]⟩)
    rintro (⟨err, herr, -⟩ | ⟨hfragments, -⟩)
    · exact hhead err herr
    · exact hhead _ hfragments.1
  | error err =>
    have hhead := headD_eq_error_iff.mp hresult
    by_cases hfragments : link.Fragments message
    · rcases @sendUdpMessage_of_fragments profile link message hfragments with
        ⟨hrefused, hnone, hsend⟩ | hover | ⟨hrefused, hnone, hsend⟩
      · exact .inl ⟨.inr ⟨hfragments, hnone, hrefused⟩, hsend⟩
      · exact .inr (.inl hover)
      · refine .inr (.inr ⟨⟨?_, hnone⟩, hsend⟩)
        rintro (⟨-, -, hno⟩ | ⟨-, -, hyes⟩)
        · exact hno hfragments
        · exact hrefused hyes
    · exact .inl ⟨.inl ⟨err, hhead, hfragments⟩, sendUdpMessage_of_not_fragments hhead hfragments⟩

end

/-- `Client::udp`. The channel of the session has the default size. -/
def Client.udp (udpEnabled managerClosed : Bool) : Except CoreError Unit :=
  if udpEnabled then (ClientUdpManager.newUdpCheck managerClosed 1024).map fun _ => ()
  else .error (.dial "UDP not enabled")

end Hysteria.Core
