import Hysteria.Core.UdpMessage

/-! The two directions of the datagram format: what is written can be read, and what
can be read is exactly what has the layout of a message. -/
namespace Hysteria.Core
open Lib

theorem exists_header {buf : List UInt8} (h : 8 ≤ buf.length) :
    ∃ session packet fragId fragCount tail, buf = session ++ packet ++ [fragId] ++ [fragCount] ++ tail ∧
      session.length = 4 ∧ packet.length = 2 := by
  obtain ⟨a, b, c, d, e, f, g, k, tail, rfl⟩ :
      ∃ a b c d e f g k tail, buf = a :: b :: c :: d :: e :: f :: g :: k :: tail := by
    match buf, h with
    | a :: b :: c :: d :: e :: f :: g :: k :: tail, _ => exact ⟨a, b, c, d, e, f, g, k, tail, rfl⟩
  exact ⟨[a, b, c, d], [e, f], g, k, tail, rfl, rfl, rfl⟩

theorem parse_header {header : List UInt8} (h : header.length = 8) (tail : List UInt8) :
    ∃ sessionId packetId fragId fragCount, parseUdpMessage (header ++ tail) = (do
      let (addrLen, addrLenSize) ← Varint.readSlice tail
      if addrLen = 0 ∨ addrLen.toNat > maxMessageLength then throw (.error .invalidAddressLength)
      let addrStart := 8 + addrLenSize
      let addrEnd := addrStart + addrLen.toNat
      if (header ++ tail).length < addrEnd then throw (.error .invalidMessageLength)
      let addr := fromUtf8Lossy (← slice (header ++ tail) addrStart addrEnd)
      let data ← slice (header ++ tail) addrEnd (header ++ tail).length
      return { sessionId, packetId, fragId, fragCount, addr, data }) := by
  match header, h with
  | [a, b, c, d, e, f, g, k], _ =>
    refine ⟨UInt32.ofNat (beNat [a, b, c, d]), UInt16.ofNat (beNat [e, f]), g, k, ?_⟩
    have hlength : ¬ ([a, b, c, d, e, f, g, k] ++ tail).length < 8 := by simp
    have htail : (slice ([a, b, c, d, e, f, g, k] ++ tail) 8
        ([a, b, c, d, e, f, g, k] ++ tail).length : Exec ProtocolError _) = .ok tail := by
      conv_lhs => rw [← List.append_nil ([a, b, c, d, e, f, g, k] ++ tail)]
      exact slice_append rfl (by simp; omega)
    unfold parseUdpMessage
    rw [if_neg hlength, htail]
    rfl

theorem parse_cases (buf : List UInt8) :
    (∃ l : Layout, l.bytes = buf) ∨ ∃ err, parseUdpMessage buf = .error (.error err) := by
  rcases Nat.lt_or_ge buf.length 8 with hshort | hlong
  · refine .inr ⟨.unexpectedEof, ?_⟩
    unfold parseUdpMessage
    rw [if_pos hshort]
    rfl
  obtain ⟨session, packet, fragId, fragCount, tail, rfl, hsession, hpacket⟩ := exists_header hlong
  have hheader : (session ++ packet ++ [fragId] ++ [fragCount]).length = 8 := by
    simp only [List.length_append, List.length_singleton]
    omega
  obtain ⟨_, _, _, _, hparse⟩ := parse_header hheader tail
  rcases Varint.readSlice_cases tail with ⟨varint, rest, n, rfl, hvarint⟩ | heof
  · rw [Varint.readSlice_isVarint hvarint, ok_bind] at hparse
    dsimp only at hparse
    rw [hvarint.toNat_ofNat] at hparse
    by_cases hlimit : UInt64.ofNat n = 0 ∨ n > maxMessageLength
    · rw [if_pos hlimit] at hparse
      exact .inr ⟨_, hparse⟩
    rw [if_neg hlimit] at hparse
    simp only [List.length_append, List.length_singleton] at hparse
    by_cases hroom : rest.length < n
    · rw [if_pos (by omega)] at hparse
      exact .inr ⟨_, hparse⟩
    · -- The address is the next `n` bytes and the payload what is left.
      have htake : (rest.take n).length = n := by
        rw [List.length_take]
        omega
      have hpos : n ≠ 0 := by
        rintro rfl
        exact hlimit (.inl rfl)
      refine .inl ⟨⟨session, packet, fragId, fragCount, varint, rest.take n, rest.drop n, hsession,
        hpacket, by rwa [htake], by omega, by omega⟩, ?_⟩
      simp [Layout.bytes, Layout.header]
  · rw [heof] at hparse
    exact .inr ⟨_, hparse⟩

theorem parse_eq_ok_iff {buf : List UInt8} {message : UDPMessage} :
    parseUdpMessage buf = .ok message ↔ ∃ l : Layout, l.bytes = buf ∧ l.message = message := by
  constructor
  · intro h
    rcases parse_cases buf with ⟨l, rfl⟩ | ⟨err, herr⟩
    · rw [l.parse_bytes] at h
      exact ⟨l, rfl, Except.ok.inj h⟩
    · rw [herr] at h
      cases h
  · rintro ⟨l, rfl, rfl⟩
    exact l.parse_bytes

theorem UDPMessage.eq_of_parse_wireBytes {message read : UDPMessage} (hfits : message.addr.utf8ByteSize < 2 ^ 62)
    (h : parseUdpMessage message.wireBytes = .ok read) : read = message := by
  have hlen : message.addrLen.toNat = message.addr.utf8ByteSize := by
    rw [addrLen, UInt64.toNat_ofNat']
    omega
  have hmax : message.addrLen ≤ Varint.maxVarint := by
    have hbound : Varint.maxVarint.toNat = 2 ^ 62 - 1 := rfl
    rw [UInt64.le_iff_toNat_le]
    omega
  obtain ⟨l, hbytes, -⟩ := parse_eq_ok_iff.mp h
  -- Both start with eight bytes and the length of the address.
  have htail : l.varint ++ (l.addr ++ l.data) = Varint.encode message.addrLen ++ (utf8Bytes message.addr ++ message.data) := by
    have hdrop := congrArg (List.drop 8) hbytes
    simpa [Layout.bytes, UDPMessage.wireBytes, List.append_assoc] using hdrop
  have hread := Varint.readSlice_isVarint l.isVarint (l.addr ++ l.data)
  rw [htail, Varint.readSlice_encode hmax] at hread
  have hlength : message.addr.utf8ByteSize = l.addr.length := by
    rw [← hlen, ← l.toNat_addrLength]
    exact congrArg UInt64.toNat (congrArg Prod.fst (Except.ok.inj hread))
  have hpos := l.addr_pos
  have hle := l.addr_le
  rw [← hlength] at hpos hle
  exact (Except.ok.inj ((UDPMessage.parse_wireBytes hpos hle).symm.trans h)).symm

theorem Layout.wireBytes_message (l : Layout)
    (hminimal : l.varint.length = Varint.len (UInt64.ofNat l.addr.length)) {addr : String}
    (haddr : l.addr = utf8Bytes addr) : l.message.wireBytes = l.bytes := by
  have hsession : beBytes 4 (UInt32.ofNat (beNat l.session)).toNat = l.session := by
    rw [UInt32.toNat_ofNat']
    exact beBytes_beNat_mod l.session_length rfl
  have hpacket : beBytes 2 (UInt16.ofNat (beNat l.packet)).toNat = l.packet := by
    rw [UInt16.toNat_ofNat']
    exact beBytes_beNat_mod l.packet_length rfl
  have hname : fromUtf8Lossy l.addr = addr := by rw [haddr, fromUtf8Lossy_utf8Bytes]
  have hlength : addr.utf8ByteSize = l.addr.length := by rw [haddr, length_utf8Bytes]
  have hvarint := l.isVarint.eq_encode hminimal
  simp only [UDPMessage.wireBytes, UDPMessage.fixedHeader, UDPMessage.addrLen, message, bytes, header]
  rw [hsession, hpacket, hname, hlength, ← hvarint, ← haddr]

/-- Writing and reading a message are inverse to each other: a written message reads
back, reading succeeds exactly on the byte strings of that layout and never leaves the
buffer, and what was read from a canonical byte string is written as the same one. -/
theorem udpMessage_codec :
    (∀ (message : UDPMessage) (buf : List UInt8), 1 ≤ message.addr.utf8ByteSize →
      message.addr.utf8ByteSize ≤ maxMessageLength → message.size ≤ buf.length →
      ∃ after, message.serialize buf = .ok (message.size, after) ∧ after.length = buf.length ∧
        after.drop message.size = buf.drop message.size ∧
        parseUdpMessage (after.take message.size) = .ok message) ∧
    (∀ buf why, parseUdpMessage buf ≠ .error (.panic why)) ∧
    (∀ buf, (∃ message, parseUdpMessage buf = .ok message) ↔ ∃ l : Layout, l.bytes = buf) ∧
    ∀ (l : Layout) (addr : String) (message : UDPMessage),
      l.varint.length = Varint.len (UInt64.ofNat l.addr.length) → l.addr = utf8Bytes addr →
      parseUdpMessage l.bytes = .ok message →
      message.size = l.bytes.length ∧ ∀ buf, message.size ≤ buf.length →
        ∃ after, message.serialize buf = .ok (message.size, after) ∧
          after.take message.size = l.bytes := by
  refine ⟨?_, ?_, ?_, ?_⟩
  · intro message buf hpos haddr hbuf
    have hlength := message.length_wireBytes
    refine ⟨_, UDPMessage.serialize_eq haddr hbuf, length_overlay (by omega),
      drop_overlay buf (by omega), ?_⟩
    rw [take_overlay buf hlength]
    exact UDPMessage.parse_wireBytes hpos haddr
  · intro buf why h
    rcases parse_cases buf with ⟨l, rfl⟩ | ⟨err, herr⟩
    · rw [l.parse_bytes] at h
      cases h
    · rw [herr] at h
      cases h
  · intro buf
    constructor
    · rintro ⟨message, h⟩
      obtain ⟨l, hl, _⟩ := parse_eq_ok_iff.mp h
      exact ⟨l, hl⟩
    · rintro ⟨l, rfl⟩
      exact ⟨l.message, l.parse_bytes⟩
  · intro l addr message hminimal haddr hparse
    obtain rfl : l.message = message := Except.ok.inj (l.parse_bytes.symm.trans hparse)
    have hwire := l.wireBytes_message hminimal haddr
    have hsize : l.message.size = l.bytes.length := by rw [← hwire, UDPMessage.length_wireBytes]
    have hle : l.message.addr.utf8ByteSize ≤ maxMessageLength := by
      have hname : l.message.addr = addr := by
        change fromUtf8Lossy l.addr = addr
        rw [haddr, fromUtf8Lossy_utf8Bytes]
      have hbound := l.addr_le
      rwa [haddr, length_utf8Bytes, ← hname] at hbound
    refine ⟨hsize, fun buf hbuf => ⟨_, UDPMessage.serialize_eq hle hbuf, ?_⟩⟩
    rw [take_overlay buf l.message.length_wireBytes, hwire]

def sampleMessage : UDPMessage := ⟨1, 2, 0, 1, "a:80", [9]⟩

def sampleLayout : Layout where
  session := [0, 0, 0, 1]
  packet := [0, 2]
  fragId := 0
  fragCount := 1
  varint := [4]
  addr := [97, 58, 56, 48]
  data := [9]
  session_length := rfl
  packet_length := rfl
  isVarint := ⟨4, [], rfl, by decide, by decide⟩
  addr_pos := by decide
  addr_le := by decide

theorem udpMessage_codec_sample :
    (∃ after, sampleMessage.serialize (List.replicate 20 7) = .ok (sampleMessage.size, after) ∧
      parseUdpMessage (after.take sampleMessage.size) = .ok sampleMessage) ∧
    ∃ after, sampleMessage.serialize (List.replicate 20 7) = .ok (sampleMessage.size, after) ∧
      after.take sampleMessage.size = sampleLayout.bytes := by
  obtain ⟨hwritten, -, -, hcanonical⟩ := udpMessage_codec
  have haddr : sampleLayout.addr = utf8Bytes "a:80" := by decide +kernel
  have hparse : parseUdpMessage sampleLayout.bytes = .ok sampleMessage := by decide +kernel
  obtain ⟨-, hagain⟩ := hcanonical sampleLayout "a:80" sampleMessage (by decide) haddr hparse
  obtain ⟨after, hserialize, -, -, hread⟩ := hwritten sampleMessage (List.replicate 20 7) (by decide) (by decide)
    (by decide)
  exact ⟨⟨after, hserialize, hread⟩, hagain (List.replicate 20 7) (by decide)⟩

end Hysteria.Core
