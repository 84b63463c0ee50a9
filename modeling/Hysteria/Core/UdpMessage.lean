import Hysteria.Core.Varint
import Hysteria.Lib.Utf8

/-! The datagram format of `protocol/proxy.rs`: an eight-byte header, the
length-prefixed address and the payload up to the end of the datagram. -/
namespace Hysteria.Core
open Lib

def maxMessageLength : Nat := 2048

structure UDPMessage where
  sessionId : UInt32
  packetId : UInt16
  fragId : UInt8
  fragCount : UInt8
  addr : String
  data : List UInt8
deriving DecidableEq, Repr

namespace UDPMessage

def addrLen (message : UDPMessage) : UInt64 := UInt64.ofNat message.addr.utf8ByteSize

def headerSize (message : UDPMessage) : Nat :=
  4 + 2 + 1 + 1 + Varint.len message.addrLen + message.addr.utf8ByteSize

def size (message : UDPMessage) : Nat := message.headerSize + message.data.length

theorem size_eq (message : UDPMessage) : message.size = message.headerSize + message.data.length := rfl

def okOrNone : Exec ε α → Exec Unit α
  | .ok a => .ok a
  | .error (.panic why) => .error (.panic why)
  | .error (.error _) => .error (.error ())

/-- The number of bytes written and the buffer after the call; the error is `None`. -/
def serialize (message : UDPMessage) (buf : List UInt8) : Exec Unit (Nat × List UInt8) := do
  if buf.length < message.size then throw (.error ())
  let buf ← writeSlice buf 0 (beBytes 4 message.sessionId.toNat)
  let buf ← writeSlice buf 4 (beBytes 2 message.packetId.toNat)
  let buf ← setIndex buf 6 message.fragId
  let buf ← setIndex buf 7 message.fragCount
  let (written, tail) ← okOrNone (Varint.write (buf.drop 8) message.addrLen)
  let buf := buf.take 8 ++ tail
  let index := 8 + written
  let buf ← writeSlice buf index (utf8Bytes message.addr)
  let index := index + message.addr.utf8ByteSize
  let buf ← writeSlice buf index message.data
  return (index + message.data.length, buf)

/-- The datagram `send_single_udp_message` hands to the connection. -/
def datagram (message : UDPMessage) : Exec Unit (List UInt8) := do
  let (size, buffer) ← message.serialize (List.replicate message.size 0)
  slice buffer 0 size

end UDPMessage

def parseUdpMessage (buf : List UInt8) : Exec ProtocolError UDPMessage := do
  if buf.length < 8 then throw (.error .unexpectedEof)
  let sessionId := UInt32.ofNat (beNat (← slice buf 0 4))
  let packetId := UInt16.ofNat (beNat (← slice buf 4 6))
  let fragId ← index buf 6
  let fragCount ← index buf 7
  let (addrLen, addrLenSize) ← Varint.readSlice (← slice buf 8 buf.length)
  if addrLen = 0 ∨ addrLen.toNat > maxMessageLength then throw (.error .invalidAddressLength)
  let addrStart := 8 + addrLenSize
  let addrEnd := addrStart + addrLen.toNat
  if buf.length < addrEnd then throw (.error .invalidMessageLength)
  let addr := fromUtf8Lossy (← slice buf addrStart addrEnd)
  let data ← slice buf addrEnd buf.length
  return { sessionId, packetId, fragId, fragCount, addr, data }

namespace UDPMessage

def fixedHeader (message : UDPMessage) : List UInt8 :=
  beBytes 4 message.sessionId.toNat ++ beBytes 2 message.packetId.toNat ++
    [message.fragId] ++ [message.fragCount]

/-- The wire format as one byte string, field after field. -/
def wireBytes (message : UDPMessage) : List UInt8 :=
  message.fixedHeader ++ Varint.encode message.addrLen ++ utf8Bytes message.addr ++ message.data

@[simp] theorem length_fixedHeader (message : UDPMessage) : message.fixedHeader.length = 8 := by
  simp [fixedHeader]

@[simp] theorem length_wireBytes (message : UDPMessage) :
    message.wireBytes.length = message.size := by
  simp only [wireBytes, List.length_append, length_fixedHeader, Varint.length_encode,
    length_utf8Bytes, size, headerSize]

theorem toNat_addrLen {message : UDPMessage} (h : message.addr.utf8ByteSize ≤ maxMessageLength) :
    message.addrLen.toNat = message.addr.utf8ByteSize := by
  have hmax : maxMessageLength = 2048 := rfl
  rw [addrLen, UInt64.toNat_ofNat']
  omega

theorem addrLen_le {message : UDPMessage} (h : message.addr.utf8ByteSize ≤ maxMessageLength) :
    message.addrLen ≤ Varint.maxVarint := by
  have hmax : maxMessageLength = 2048 := rfl
  rw [UInt64.le_iff_toNat_le, toNat_addrLen h]
  exact h.trans (by decide)

@[simp] theorem okOrNone_ok (a : α) : okOrNone (.ok a : Exec ε α) = .ok a := rfl

theorem serialize_of_addrLen_le {message : UDPMessage} {buf : List UInt8}
    (haddr : message.addrLen ≤ Varint.maxVarint) (hbuf : message.size ≤ buf.length) :
    message.serialize buf = .ok (message.size, overlay message.wireBytes buf) := by
  have hsize : message.size = 8 + Varint.len message.addrLen + message.addr.utf8ByteSize +
      message.data.length := rfl
  have hfixed := message.length_fixedHeader
  have hvarint : Varint.write (buf.drop 8) message.addrLen = .ok (Varint.len message.addrLen,
      overlay (Varint.encode message.addrLen) (buf.drop 8)) := by
    rw [Varint.write_ok haddr (by simp; omega)]
    simp [splice, overlay]
  have happend : message.fixedHeader ++ overlay (Varint.encode message.addrLen) (buf.drop 8) =
      overlay (message.fixedHeader ++ Varint.encode message.addrLen) buf := by
    rw [← overlay_append, hfixed]
  unfold serialize
  rw [if_neg (by omega)]
  refine bind_eq_ok.mpr ⟨_, @writeSlice_overlay _ _ [] _ buf 0 rfl (by simp; omega), ?_⟩
  refine bind_eq_ok.mpr ⟨_, writeSlice_overlay (by simp) (by simp; omega), ?_⟩
  refine bind_eq_ok.mpr ⟨_, setIndex_overlay (by simp) _ (by omega), ?_⟩
  refine bind_eq_ok.mpr ⟨overlay message.fixedHeader buf, setIndex_overlay (by simp) _ (by omega), ?_⟩
  rw [drop_overlay _ hfixed.le, take_overlay _ hfixed, hvarint, okOrNone_ok, ok_bind]
  dsimp only
  rw [happend]
  refine bind_eq_ok.mpr ⟨_, writeSlice_overlay (by simp) (by simp; omega), ?_⟩
  refine bind_eq_ok.mpr ⟨_, writeSlice_overlay (by simp; omega) (by omega), ?_⟩
  rfl

theorem serialize_eq {message : UDPMessage} {buf : List UInt8}
    (haddr : message.addr.utf8ByteSize ≤ maxMessageLength) (hbuf : message.size ≤ buf.length) :
    message.serialize buf = .ok (message.size, overlay message.wireBytes buf) :=
  serialize_of_addrLen_le (addrLen_le haddr) hbuf

theorem datagram_of_addrLen_le {message : UDPMessage} (haddr : message.addrLen ≤ Varint.maxVarint) :
    message.datagram = .ok message.wireBytes := by
  have hlen := message.length_wireBytes
  unfold datagram
  rw [serialize_of_addrLen_le haddr (by simp), ok_bind]
  have hbuf : overlay message.wireBytes (List.replicate message.size 0) =
      [] ++ message.wireBytes ++ [] := by
    simp [overlay, hlen]
  rw [hbuf]
  exact slice_append rfl (by rw [hlen]; omega)

theorem datagram_eq {message : UDPMessage}
    (haddr : message.addr.utf8ByteSize ≤ maxMessageLength) :
    message.datagram = .ok message.wireBytes := datagram_of_addrLen_le (addrLen_le haddr)

end UDPMessage

structure Layout where
  session : List UInt8
  packet : List UInt8
  fragId : UInt8
  fragCount : UInt8
  varint : List UInt8
  addr : List UInt8
  data : List UInt8
  session_length : session.length = 4
  packet_length : packet.length = 2
  isVarint : Varint.IsVarint varint addr.length
  addr_pos : 1 ≤ addr.length
  addr_le : addr.length ≤ maxMessageLength

namespace Layout

variable (l : Layout)

def header : List UInt8 := l.session ++ l.packet ++ [l.fragId] ++ [l.fragCount]

def bytes : List UInt8 := l.header ++ l.varint ++ l.addr ++ l.data

def message : UDPMessage where
  sessionId := UInt32.ofNat (beNat l.session)
  packetId := UInt16.ofNat (beNat l.packet)
  fragId := l.fragId
  fragCount := l.fragCount
  addr := fromUtf8Lossy l.addr
  data := l.data

@[simp] theorem length_header : l.header.length = 8 := by
  simp [header, l.session_length, l.packet_length]

theorem length_bytes :
    l.bytes.length = 8 + l.varint.length + l.addr.length + l.data.length := by
  simp only [bytes, List.length_append, length_header]

theorem toNat_addrLength : (UInt64.ofNat l.addr.length).toNat = l.addr.length := by
  have hmax : maxMessageLength = 2048 := rfl
  have hle := l.addr_le
  rw [UInt64.toNat_ofNat']
  omega

theorem addrLength_valid : ¬ (UInt64.ofNat l.addr.length = 0 ∨
    (UInt64.ofNat l.addr.length).toNat > maxMessageLength) := by
  have hvalue := l.toNat_addrLength
  have hpos := l.addr_pos
  have hle := l.addr_le
  rintro (h | h)
  · rw [h] at hvalue
    simp only [UInt64.reduceToNat] at hvalue
    omega
  · omega

theorem parse_bytes : parseUdpMessage l.bytes = .ok l.message := by
  have hlen := l.length_bytes
  have hheader := l.length_header
  have hsession := l.session_length
  have hpacket := l.packet_length
  -- The byte string, cut where each read finds its field.
  have hfirst : l.bytes = [] ++ l.session ++
      (l.packet ++ [l.fragId] ++ [l.fragCount] ++ l.varint ++ l.addr ++ l.data) := by
    simp [bytes, header]
  have hsecond : l.bytes = l.session ++ l.packet ++
      ([l.fragId] ++ [l.fragCount] ++ l.varint ++ l.addr ++ l.data) := by
    simp [bytes, header]
  have hfragId : l.bytes = (l.session ++ l.packet) ++ l.fragId ::
      ([l.fragCount] ++ l.varint ++ l.addr ++ l.data) := by
    simp [bytes, header]
  have hfragCount : l.bytes = (l.session ++ l.packet ++ [l.fragId]) ++ l.fragCount ::
      (l.varint ++ l.addr ++ l.data) := by
    simp [bytes, header]
  have htail : l.bytes = l.header ++ (l.varint ++ (l.addr ++ l.data)) ++ [] := by
    simp [bytes]
  have hbody : l.bytes = (l.header ++ l.varint ++ l.addr) ++ l.data ++ [] := by
    simp [bytes]
  unfold parseUdpMessage
  rw [if_neg (by omega)]
  refine bind_eq_ok.mpr ⟨_, by rw [hfirst]; exact slice_append rfl (by omega), ?_⟩
  refine bind_eq_ok.mpr ⟨_, by rw [hsecond]; exact slice_append hsession (by omega), ?_⟩
  refine bind_eq_ok.mpr ⟨_, by rw [hfragId]; exact index_append (by simp; omega) _, ?_⟩
  refine bind_eq_ok.mpr ⟨_, by rw [hfragCount]; exact index_append (by simp; omega) _, ?_⟩
  refine bind_eq_ok.mpr ⟨_, by
    rw [hlen]
    conv_lhs => rw [htail]
    exact slice_append hheader (by simp; omega), ?_⟩
  refine bind_eq_ok.mpr ⟨_, Varint.readSlice_isVarint l.isVarint _, ?_⟩
  dsimp only
  rw [if_neg l.addrLength_valid, l.toNat_addrLength, if_neg (by omega)]
  refine bind_eq_ok.mpr ⟨_, by
    conv_lhs => rw [bytes]
    exact slice_append (by simp) (by simp), ?_⟩
  refine bind_eq_ok.mpr ⟨_, by
    rw [hlen]
    conv_lhs => rw [hbody]
    exact slice_append (by simp; omega) (by omega), ?_⟩
  rfl

end Layout

namespace UDPMessage

def layout (message : UDPMessage) (hpos : 1 ≤ message.addr.utf8ByteSize)
    (haddr : message.addr.utf8ByteSize ≤ maxMessageLength) : Layout where
  session := beBytes 4 message.sessionId.toNat
  packet := beBytes 2 message.packetId.toNat
  fragId := message.fragId
  fragCount := message.fragCount
  varint := Varint.encode message.addrLen
  addr := utf8Bytes message.addr
  data := message.data
  session_length := length_beBytes _ _
  packet_length := length_beBytes _ _
  isVarint := by
    rw [length_utf8Bytes, ← toNat_addrLen haddr]
    exact Varint.isVarint_encode (addrLen_le haddr)
  addr_pos := hpos
  addr_le := haddr

/-- Parsing the wire format gives the message back, all six fields of it. -/
theorem parse_wireBytes {message : UDPMessage} (hpos : 1 ≤ message.addr.utf8ByteSize)
    (haddr : message.addr.utf8ByteSize ≤ maxMessageLength) :
    parseUdpMessage message.wireBytes = .ok message := by
  have hmessage : (message.layout hpos haddr).message = message := by
    simp only [Layout.message, layout]
    rw [beNat_beBytes_of_lt message.sessionId.toNat_lt, UInt32.ofNat_toNat,
      beNat_beBytes_of_lt message.packetId.toNat_lt, UInt16.ofNat_toNat, fromUtf8Lossy_utf8Bytes]
  have hparse := (message.layout hpos haddr).parse_bytes
  rwa [hmessage] at hparse

end UDPMessage

theorem mapM_wire (messages : List UDPMessage)
    (hpos : ∀ message ∈ messages, 1 ≤ message.addr.utf8ByteSize)
    (haddr : ∀ message ∈ messages, message.addr.utf8ByteSize ≤ maxMessageLength) :
    messages.mapM UDPMessage.datagram = .ok (messages.map UDPMessage.wireBytes) ∧
      (messages.map UDPMessage.wireBytes).mapM parseUdpMessage = .ok messages := by
  constructor
  · apply mapM_eq_ok.mpr
    rw [List.forall₂_map_right_iff, List.forall₂_same]
    intro message hmessage
    exact UDPMessage.datagram_eq (haddr message hmessage)
  · apply mapM_eq_ok.mpr
    rw [List.forall₂_map_left_iff, List.forall₂_same]
    intro message hmessage
    exact UDPMessage.parse_wireBytes (hpos message hmessage) (haddr message hmessage)

end Hysteria.Core
