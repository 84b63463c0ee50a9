import Hysteria.Core.UdpMessage

/-! The frames that open a proxied stream, as `protocol/proxy.rs` writes and reads them:
a request names the address, a response gives a status and a message, and both end with
random padding the reader throws away. -/
namespace Hysteria.Core
open Lib

def frameTypeTcpRequest : UInt64 := 0x401

def maxAddressLength : Nat := 2048
def maxPaddingLength : Nat := 4096

/-- The lengths the random padding of a frame is drawn from; `max` is not one of them. -/
structure PaddingRange where
  min : Nat
  max : Nat
deriving DecidableEq, Repr

def tcpRequestPadding : PaddingRange := ⟨64, 512⟩
def tcpResponsePadding : PaddingRange := ⟨128, 1024⟩

/-- `sample` may return this padding. -/
def PaddingRange.Draws (range : PaddingRange) (padding : String) : Prop :=
  range.min ≤ padding.utf8ByteSize ∧ padding.utf8ByteSize < range.max

instance (range : PaddingRange) (padding : String) : Decidable (range.Draws padding) :=
  inferInstanceAs (Decidable (_ ∧ _))

/-- The bytes given to `write_all`, for the padding that was drawn. -/
def writeTcpRequest (padding addr : String) : Exec ProtocolError (List UInt8) := do
  let addrLen := addr.utf8ByteSize
  let paddingLen := padding.utf8ByteSize
  let size := Varint.len frameTypeTcpRequest + Varint.len (.ofNat addrLen) + addrLen +
    Varint.len (.ofNat paddingLen) + paddingLen
  let buf := List.replicate size 0
  let (index, buf) ← Varint.writeAt buf 0 frameTypeTcpRequest
  let (index, buf) ← Varint.writeAt buf index (.ofNat addrLen)
  let buf ← writeSlice buf index (utf8Bytes addr)
  let index := index + addrLen
  let (index, buf) ← Varint.writeAt buf index (.ofNat paddingLen)
  writeSlice buf index (utf8Bytes padding)

def readTcpRequest : Reads ProtocolError String := do
  let addrLen ← asUsize Varint.read
  rejectIf (addrLen = 0 ∨ addrLen > maxAddressLength) .invalidAddressLength
  let addr ← readExact .unexpectedEof addrLen
  let paddingLen ← asUsize Varint.read
  rejectIf (paddingLen > maxPaddingLength) .invalidPaddingLength
  let _discard ← readUnlessEmpty .unexpectedEof paddingLen
  return fromUtf8Lossy addr

def writeTcpResponse (padding : String) (ok : Bool) (message : String) :
    Exec ProtocolError (List UInt8) := do
  let messageLen := message.utf8ByteSize
  let paddingLen := padding.utf8ByteSize
  let size := 1 + Varint.len (.ofNat messageLen) + messageLen +
    Varint.len (.ofNat paddingLen) + paddingLen
  let buf := List.replicate size 0
  let buf ← setIndex buf 0 (if ok then 0 else 1)
  let (index, buf) ← Varint.writeAt buf 1 (.ofNat messageLen)
  let buf ← writeSlice buf index (utf8Bytes message)
  let index := index + messageLen
  let (index, buf) ← Varint.writeAt buf index (.ofNat paddingLen)
  writeSlice buf index (utf8Bytes padding)

def readTcpResponse : Reads ProtocolError (Bool × String) := do
  let status := (← readExact .unexpectedEof 1).headD 0
  let messageLen ← asUsize Varint.read
  rejectIf (messageLen > maxMessageLength) .invalidMessageLength
  let message ← readUnlessEmpty .unexpectedEof messageLen
  let paddingLen ← asUsize Varint.read
  rejectIf (paddingLen > maxPaddingLength) .invalidPaddingLength
  let _discard ← readUnlessEmpty .unexpectedEof paddingLen
  return (status == 0, fromUtf8Lossy message)

def lengthPrefixed (text : String) : List UInt8 :=
  Varint.encode (.ofNat text.utf8ByteSize) ++ utf8Bytes text

def requestFrame (padding addr : String) : List UInt8 :=
  Varint.encode frameTypeTcpRequest ++ lengthPrefixed addr ++ lengthPrefixed padding

def responseFrame (padding : String) (ok : Bool) (message : String) : List UInt8 :=
  [if ok then 0 else 1] ++ lengthPrefixed message ++ lengthPrefixed padding

theorem toNat_ofNat_length {n : Nat} (h : n ≤ 2 ^ 62 - 1) : (UInt64.ofNat n).toNat = n := by
  rw [UInt64.toNat_ofNat']
  omega

theorem ofNat_length_le {n : Nat} (h : n ≤ 2 ^ 62 - 1) : UInt64.ofNat n ≤ Varint.maxVarint := by
  rw [UInt64.le_iff_toNat_le, toNat_ofNat_length h]
  exact h.trans (by decide)

theorem isVarint_length {text : String} (h : text.utf8ByteSize ≤ 2 ^ 62 - 1) :
    Varint.IsVarint (Varint.encode (.ofNat text.utf8ByteSize)) (utf8Bytes text).length := by
  have hvarint := Varint.isVarint_encode (ofNat_length_le h)
  rwa [toNat_ofNat_length h, ← length_utf8Bytes] at hvarint

@[simp] theorem length_lengthPrefixed (text : String) : (lengthPrefixed text).length =
    Varint.len (.ofNat text.utf8ByteSize) + text.utf8ByteSize := by
  simp only [lengthPrefixed, List.length_append, Varint.length_encode, length_utf8Bytes]

theorem writePrefixed_overlay {written buf : List UInt8} {index : Nat} {text : String}
    (hindex : written.length = index) (htext : text.utf8ByteSize ≤ 2 ^ 62 - 1)
    (hroom : index + (lengthPrefixed text).length ≤ buf.length) :
    Varint.writeAt (overlay written buf) index (.ofNat text.utf8ByteSize) =
        .ok (index + Varint.len (.ofNat text.utf8ByteSize),
          overlay (written ++ Varint.encode (.ofNat text.utf8ByteSize)) buf) ∧
      (writeSlice (overlay (written ++ Varint.encode (.ofNat text.utf8ByteSize)) buf)
          (index + Varint.len (.ofNat text.utf8ByteSize)) (utf8Bytes text) :
            Exec ProtocolError (List UInt8)) =
        .ok (overlay (written ++ lengthPrefixed text) buf) := by
  rw [length_lengthPrefixed] at hroom
  constructor
  · exact Varint.writeAt_overlay hindex (ofNat_length_le htext) (by omega)
  · rw [lengthPrefixed, ← List.append_assoc]
    apply writeSlice_overlay
    · rw [List.length_append, Varint.length_encode, hindex]
    · rw [length_utf8Bytes]
      omega

theorem writeTexts_ok {head : List UInt8} {index size : Nat} {text padding : String}
    (hindex : head.length = index) (htext : text.utf8ByteSize ≤ 2 ^ 62 - 1)
    (hpadding : padding.utf8ByteSize ≤ 2 ^ 62 - 1)
    (hsize : index + Varint.len (.ofNat text.utf8ByteSize) + text.utf8ByteSize +
      Varint.len (.ofNat padding.utf8ByteSize) + padding.utf8ByteSize = size) :
    (do
      let (index, buf) ← Varint.writeAt (overlay head (List.replicate size 0)) index
        (.ofNat text.utf8ByteSize)
      let buf ← writeSlice buf index (utf8Bytes text)
      let index := index + text.utf8ByteSize
      let (index, buf) ← Varint.writeAt buf index (.ofNat padding.utf8ByteSize)
      writeSlice buf index (utf8Bytes padding) : Exec ProtocolError (List UInt8)) =
      .ok (head ++ lengthPrefixed text ++ lengthPrefixed padding) := by
  have hframe : (head ++ lengthPrefixed text ++ lengthPrefixed padding).length = size := by
    simp only [List.length_append, length_lengthPrefixed]
    omega
  obtain ⟨htextLen, htextBytes⟩ := @writePrefixed_overlay head (List.replicate size 0) _ text hindex
    htext (by rw [List.length_replicate, length_lengthPrefixed]; omega)
  have htextEnd : (head ++ lengthPrefixed text).length =
      index + Varint.len (.ofNat text.utf8ByteSize) + text.utf8ByteSize := by
    rw [List.length_append, length_lengthPrefixed, hindex, Nat.add_assoc]
  obtain ⟨hpaddingLen, hpaddingBytes⟩ := @writePrefixed_overlay (head ++ lengthPrefixed text)
    (List.replicate size 0) _ padding htextEnd hpadding
    (by rw [List.length_replicate, length_lengthPrefixed]; omega)
  refine bind_eq_ok.mpr ⟨_, htextLen, ?_⟩
  refine bind_eq_ok.mpr ⟨_, htextBytes, ?_⟩
  refine bind_eq_ok.mpr ⟨_, hpaddingLen, ?_⟩
  dsimp only
  rw [hpaddingBytes, overlay, hframe, List.drop_eq_nil_of_le (by simp), List.append_nil]

theorem writeTcpRequest_eq {padding addr : String} (haddr : addr.utf8ByteSize ≤ 2 ^ 62 - 1)
    (hpadding : padding.utf8ByteSize ≤ 2 ^ 62 - 1) :
    writeTcpRequest padding addr = .ok (requestFrame padding addr) := by
  have htype : frameTypeTcpRequest ≤ Varint.maxVarint := by decide
  unfold writeTcpRequest
  refine bind_eq_ok.mpr ⟨_, @Varint.writeAt_overlay [] _ 0 _ rfl htype (by simp; omega), ?_⟩
  dsimp only
  rw [Nat.zero_add]
  exact writeTexts_ok (Varint.length_encode frameTypeTcpRequest) haddr hpadding rfl

theorem writeTcpResponse_eq {padding message : String} (ok : Bool)
    (hmessage : message.utf8ByteSize ≤ 2 ^ 62 - 1)
    (hpadding : padding.utf8ByteSize ≤ 2 ^ 62 - 1) :
    writeTcpResponse padding ok message = .ok (responseFrame padding ok message) := by
  unfold writeTcpResponse
  refine bind_eq_ok.mpr ⟨_, @setIndex_overlay _ _ [] _ 0 rfl _ (by simp), ?_⟩
  exact writeTexts_ok rfl hmessage hpadding rfl

inductive RequestLimit : List UInt8 → ProtocolError → Prop where
  | address {varint : List UInt8} {n : Nat} (tail : List UInt8) (length : Varint.IsVarint varint n)
      (limit : n = 0 ∨ n > maxAddressLength) : RequestLimit (varint ++ tail) .invalidAddressLength
  | padding {varint addr varint' : List UInt8} {n : Nat} (tail : List UInt8)
      (length : Varint.IsVarint varint addr.length)
      (valid : ¬ (addr.length = 0 ∨ addr.length > maxAddressLength))
      (length' : Varint.IsVarint varint' n) (limit : n > maxPaddingLength) :
      RequestLimit (varint ++ (addr ++ (varint' ++ tail))) .invalidPaddingLength

inductive ResponseLimit : List UInt8 → ProtocolError → Prop where
  | message {varint : List UInt8} {n : Nat} (status : UInt8) (tail : List UInt8)
      (length : Varint.IsVarint varint n) (limit : n > maxMessageLength) :
      ResponseLimit (status :: (varint ++ tail)) .invalidMessageLength
  | padding {varint message varint' : List UInt8} {n : Nat} (status : UInt8) (tail : List UInt8)
      (length : Varint.IsVarint varint message.length) (valid : ¬ message.length > maxMessageLength)
      (length' : Varint.IsVarint varint' n) (limit : n > maxPaddingLength) :
      ResponseLimit (status :: (varint ++ (message ++ (varint' ++ tail)))) .invalidPaddingLength

theorem readLength {varint : List UInt8} {n : Nat} (h : Varint.IsVarint varint n)
    (tail : List UInt8) : asUsize Varint.read (varint ++ tail) = .ok (n, tail) := by
  rw [asUsize_ok (Varint.read_isVarint h tail), h.toNat_ofNat]

theorem readTcpRequest_ok {varint addr varint' padding : List UInt8}
    (length : Varint.IsVarint varint addr.length)
    (valid : ¬ (addr.length = 0 ∨ addr.length > maxAddressLength))
    (length' : Varint.IsVarint varint' padding.length)
    (valid' : ¬ padding.length > maxPaddingLength) (tail : List UInt8) :
    readTcpRequest (varint ++ (addr ++ (varint' ++ (padding ++ tail)))) =
      .ok (fromUtf8Lossy addr, tail) := by
  unfold readTcpRequest
  rw [reads_bind_ok (readLength length _), reads_bind_ok (rejectIf_neg valid _ _),
    reads_bind_ok (readExact_append rfl _)]
  rw [reads_bind_ok (readLength length' _), reads_bind_ok (rejectIf_neg valid' _ _),
    readUnlessEmpty_eq, reads_bind_ok (readExact_append rfl _)]
  rfl

theorem readTcpRequest_limit {input : List UInt8} {err : ProtocolError} (h : RequestLimit input err) :
    readTcpRequest input = .error (.error err) := by
  unfold readTcpRequest
  cases h with
  | address tail length limit =>
    rw [reads_bind_ok (readLength length _)]
    exact reads_bind_error (rejectIf_pos limit _ _)
  | padding tail length valid length' limit =>
    rw [reads_bind_ok (readLength length _), reads_bind_ok (rejectIf_neg valid _ _),
      reads_bind_ok (readExact_append rfl _), reads_bind_ok (readLength length' _)]
    exact reads_bind_error (rejectIf_pos limit _ _)

theorem readTcpResponse_ok (status : UInt8) {varint message varint' padding : List UInt8}
    (length : Varint.IsVarint varint message.length) (valid : ¬ message.length > maxMessageLength)
    (length' : Varint.IsVarint varint' padding.length)
    (valid' : ¬ padding.length > maxPaddingLength) (tail : List UInt8) :
    readTcpResponse (status :: (varint ++ (message ++ (varint' ++ (padding ++ tail))))) =
      .ok ((status == 0, fromUtf8Lossy message), tail) := by
  unfold readTcpResponse
  rw [reads_bind_ok (readExact_one _ status _), reads_bind_ok (readLength length _),
    reads_bind_ok (rejectIf_neg valid _ _), readUnlessEmpty_eq,
    reads_bind_ok (readExact_append rfl _)]
  rw [reads_bind_ok (readLength length' _), reads_bind_ok (rejectIf_neg valid' _ _),
    readUnlessEmpty_eq, reads_bind_ok (readExact_append rfl _)]
  rfl

theorem readTcpResponse_limit {input : List UInt8} {err : ProtocolError}
    (h : ResponseLimit input err) : readTcpResponse input = .error (.error err) := by
  unfold readTcpResponse
  cases h with
  | message status tail length limit =>
    rw [reads_bind_ok (readExact_one _ status _), reads_bind_ok (readLength length _)]
    exact reads_bind_error (rejectIf_pos limit _ _)
  | padding status tail length valid length' limit =>
    rw [reads_bind_ok (readExact_one _ status _), reads_bind_ok (readLength length _),
      reads_bind_ok (rejectIf_neg valid _ _), readUnlessEmpty_eq,
      reads_bind_ok (readExact_append rfl _), reads_bind_ok (readLength length' _)]
    exact reads_bind_error (rejectIf_pos limit _ _)

theorem readTcpRequest_written {addr padding : String} (hpos : 1 ≤ addr.utf8ByteSize)
    (haddr : addr.utf8ByteSize ≤ maxAddressLength)
    (hpadding : padding.utf8ByteSize ≤ maxPaddingLength) (tail : List UInt8) :
    readTcpRequest (lengthPrefixed addr ++ (lengthPrefixed padding ++ tail)) = .ok (addr, tail) := by
  have hread := readTcpRequest_ok (isVarint_length (haddr.trans (by decide)))
    (show ¬ ((utf8Bytes addr).length = 0 ∨ (utf8Bytes addr).length > maxAddressLength) by
      rw [length_utf8Bytes]; omega)
    (isVarint_length (hpadding.trans (by decide)))
    (show ¬ (utf8Bytes padding).length > maxPaddingLength by rw [length_utf8Bytes]; omega) tail
  rw [lengthPrefixed, lengthPrefixed, List.append_assoc, List.append_assoc, hread,
    fromUtf8Lossy_utf8Bytes]

theorem readTcpResponse_written (ok : Bool) {message padding : String}
    (hmessage : message.utf8ByteSize ≤ maxMessageLength)
    (hpadding : padding.utf8ByteSize ≤ maxPaddingLength) (tail : List UInt8) :
    readTcpResponse ((if ok then 0 else 1) :: (lengthPrefixed message ++
      (lengthPrefixed padding ++ tail))) = .ok ((ok, message), tail) := by
  have hread := readTcpResponse_ok (if ok then 0 else 1)
    (isVarint_length (hmessage.trans (by decide)))
    (show ¬ (utf8Bytes message).length > maxMessageLength by rw [length_utf8Bytes]; omega)
    (isVarint_length (hpadding.trans (by decide)))
    (show ¬ (utf8Bytes padding).length > maxPaddingLength by rw [length_utf8Bytes]; omega) tail
  rw [lengthPrefixed, lengthPrefixed, List.append_assoc, List.append_assoc, hread,
    fromUtf8Lossy_utf8Bytes]
  cases ok <;> rfl

end Hysteria.Core
