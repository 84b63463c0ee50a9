import Hysteria.Core.TcpFrames

/-! The asynchronous readers of `runtime_io.rs`. They repeat the blocking ones over
another reader and another error type, and throw padding away in pieces. -/
namespace Hysteria.Core
open Lib

namespace RuntimeIo

/-- What an asynchronous `read_exact` reports at the end of the stream. -/
def earlyEof : CoreError := .transport "early eof"

def readVarint : Reads CoreError UInt64 := do
  let first := (← readExact earlyEof 1).headD 0
  let needed := 1 <<< (first >>> 6).toNat
  let rest ← readUnlessEmpty earlyEof (needed - 1)
  return rest.foldl (fun value byte => (value <<< 8) ||| byte.toUInt64) (first &&& 0x3f).toUInt64

/-- The loop of `discard_exact`; the argument is `remaining`. -/
def discardExact (remaining : Nat) : Reads CoreError Unit :=
  if remaining > 0 then do
    let chunk := min remaining 1024
    let _buf ← readExact earlyEof chunk
    discardExact (remaining - chunk)
  else pure ()
termination_by remaining

def readTcpRequest : Reads CoreError String := do
  let addrLen ← asUsize readVarint
  rejectIf (addrLen = 0 ∨ addrLen > maxAddressLength) (.protocol .invalidAddressLength)
  let addrBuf ← readExact earlyEof addrLen
  let paddingLen ← asUsize readVarint
  rejectIf (paddingLen > maxPaddingLength) (.protocol .invalidPaddingLength)
  discardExact paddingLen
  return fromUtf8Lossy addrBuf

def readFramedTcpRequest : Reads CoreError String := do
  let frameType ← readVarint
  rejectIf (frameType ≠ frameTypeTcpRequest) (.unexpectedFrameType frameType)
  readTcpRequest

def readTcpResponse : Reads CoreError (Bool × String) := do
  let status := (← readExact earlyEof 1).headD 0
  let msgLen ← asUsize readVarint
  rejectIf (msgLen > maxMessageLength) (.protocol .invalidMessageLength)
  let message ← readUnlessEmpty earlyEof msgLen
  let paddingLen ← asUsize readVarint
  rejectIf (paddingLen > maxPaddingLength) (.protocol .invalidPaddingLength)
  discardExact paddingLen
  return (status == 0, fromUtf8Lossy message)

/-- Throwing bytes away in pieces is reading them at once. -/
theorem discardExact_bind (remaining : Nat) (f : Unit → Reads CoreError α) :
    (discardExact remaining >>= f) = readExact earlyEof remaining >>= fun _ => f () := by
  induction remaining using Nat.strongRecOn with
  | ind remaining ih =>
    rw [discardExact]
    split
    · next hpos =>
      have hrest : remaining - min remaining 1024 < remaining := by omega
      have hsplit : min remaining 1024 + (remaining - min remaining 1024) = remaining := by omega
      rw [bind_assoc]
      conv_rhs => rw [← hsplit, readExact_add]
      congr 1
      funext _
      exact ih _ hrest
    · next hzero =>
      obtain rfl : remaining = 0 := by omega
      rfl

/-- How the errors of the two readers correspond: only the end of the stream is another. -/
def ofProtocol : ProtocolError → CoreError
  | .unexpectedEof => earlyEof
  | err => .protocol err

theorem ofProtocol_eq {err : ProtocolError} (h : err ≠ .unexpectedEof) :
    ofProtocol err = .protocol err := by
  cases err with
  | unexpectedEof => contradiction
  | _ => rfl

theorem ofProtocol_injective : Function.Injective ofProtocol := by
  intro err err' h
  cases err <;> cases err' <;> simp_all [ofProtocol, earlyEof]

theorem readVarint_renames : Renames ofProtocol Varint.read readVarint := by
  apply (renames_readExact ofProtocol .unexpectedEof 1).bind
  intro first
  dsimp only
  rw [readUnlessEmpty_eq, readUnlessEmpty_eq]
  apply (renames_readExact ofProtocol .unexpectedEof _).bind
  intro rest
  exact renames_pure _ _

theorem discard_renames (n : Nat) (a : α) :
    Renames ofProtocol (readUnlessEmpty .unexpectedEof n >>= fun _ => pure a)
      (discardExact n >>= fun _ => pure a) := by
  rw [readUnlessEmpty_eq, discardExact_bind]
  apply (renames_readExact ofProtocol .unexpectedEof n).bind
  intro _
  exact renames_pure _ a

theorem readTcpRequest_renames : Renames ofProtocol Core.readTcpRequest readTcpRequest := by
  apply readVarint_renames.asUsize.bind
  intro addrLen
  apply (renames_rejectIf ofProtocol _ .invalidAddressLength).bind
  intro _
  apply (renames_readExact ofProtocol .unexpectedEof addrLen).bind
  intro addr
  apply readVarint_renames.asUsize.bind
  intro paddingLen
  apply (renames_rejectIf ofProtocol _ .invalidPaddingLength).bind
  intro _
  exact discard_renames paddingLen _

theorem readTcpResponse_renames : Renames ofProtocol Core.readTcpResponse readTcpResponse := by
  apply (renames_readExact ofProtocol .unexpectedEof 1).bind
  intro status
  apply readVarint_renames.asUsize.bind
  intro msgLen
  apply (renames_rejectIf ofProtocol _ .invalidMessageLength).bind
  intro _
  rw [readUnlessEmpty_eq, readUnlessEmpty_eq]
  apply (renames_readExact ofProtocol .unexpectedEof msgLen).bind
  intro message
  apply readVarint_renames.asUsize.bind
  intro paddingLen
  apply (renames_rejectIf ofProtocol _ .invalidPaddingLength).bind
  intro _
  exact discard_renames paddingLen _

end RuntimeIo

/-- The two copies of the readers agree: they succeed on the same byte streams, with the
same result and the same bytes left, and report the same error of the format; a length
beyond its limit is such an error. -/
theorem tcp_readers_agree :
    (∀ input address rest, RuntimeIo.readTcpRequest input = .ok (address, rest) ↔
      readTcpRequest input = .ok (address, rest)) ∧
    (∀ input response rest, RuntimeIo.readTcpResponse input = .ok (response, rest) ↔
      readTcpResponse input = .ok (response, rest)) ∧
    (∀ input err, err ≠ .unexpectedEof →
      (RuntimeIo.readTcpRequest input = .error (.error (.protocol err)) ↔
        readTcpRequest input = .error (.error err)) ∧
      (RuntimeIo.readTcpResponse input = .error (.error (.protocol err)) ↔
        readTcpResponse input = .error (.error err))) ∧
    (∀ input err, RequestLimit input err → readTcpRequest input = .error (.error err) ∧
      RuntimeIo.readTcpRequest input = .error (.error (.protocol err))) ∧
    ∀ input err, ResponseLimit input err → readTcpResponse input = .error (.error err) ∧
      RuntimeIo.readTcpResponse input = .error (.error (.protocol err)) := by
  have herror : ∀ input err, err ≠ .unexpectedEof →
      (RuntimeIo.readTcpRequest input = .error (.error (.protocol err)) ↔
        readTcpRequest input = .error (.error err)) ∧
      (RuntimeIo.readTcpResponse input = .error (.error (.protocol err)) ↔
        readTcpResponse input = .error (.error err)) := by
    intro input err hne
    rw [← RuntimeIo.ofProtocol_eq hne]
    exact ⟨RuntimeIo.readTcpRequest_renames.error_iff fun _ => RuntimeIo.ofProtocol_injective.eq_iff,
      RuntimeIo.readTcpResponse_renames.error_iff fun _ => RuntimeIo.ofProtocol_injective.eq_iff⟩
  refine ⟨?_, ?_, herror, ?_, ?_⟩
  · intro input address rest
    exact RuntimeIo.readTcpRequest_renames.ok_iff
  · intro input response rest
    exact RuntimeIo.readTcpResponse_renames.ok_iff
  · intro input err hlimit
    have hne : err ≠ .unexpectedEof := by cases hlimit <;> nofun
    have hblocking := readTcpRequest_limit hlimit
    exact ⟨hblocking, (herror input err hne).1.mpr hblocking⟩
  · intro input err hlimit
    have hne : err ≠ .unexpectedEof := by cases hlimit <;> nofun
    have hblocking := readTcpResponse_limit hlimit
    exact ⟨hblocking, (herror input err hne).2.mpr hblocking⟩

theorem RuntimeIo.readFramedTcpRequest_append (padding addr : String) (tail : List UInt8) :
    readFramedTcpRequest (requestFrame padding addr ++ tail) =
      readTcpRequest (lengthPrefixed addr ++ (lengthPrefixed padding ++ tail)) := by
  have htype : readVarint (Varint.encode frameTypeTcpRequest ++ (lengthPrefixed addr ++
      (lengthPrefixed padding ++ tail))) =
        .ok (frameTypeTcpRequest, lengthPrefixed addr ++ (lengthPrefixed padding ++ tail)) := by
    apply readVarint_renames.ok_iff.mpr
    exact Varint.read_isVarint (Varint.isVarint_encode (by decide)) _
  unfold readFramedTcpRequest requestFrame
  rw [List.append_assoc, List.append_assoc, reads_bind_ok htype,
    reads_bind_ok (rejectIf_neg (fun hne => hne rfl) _ _)]

theorem RuntimeIo.readFramedTcpRequest_written {addr padding : String}
    (hpos : 1 ≤ addr.utf8ByteSize) (haddr : addr.utf8ByteSize ≤ maxAddressLength)
    (hpadding : padding.utf8ByteSize ≤ maxPaddingLength) (tail : List UInt8) :
    readFramedTcpRequest (requestFrame padding addr ++ tail) = .ok (addr, tail) := by
  rw [readFramedTcpRequest_append]
  apply readTcpRequest_renames.ok_iff.mpr
  exact readTcpRequest_written hpos haddr hpadding tail

theorem RuntimeIo.readTcpResponse_written (ok : Bool) {message padding : String}
    (hmessage : message.utf8ByteSize ≤ maxMessageLength)
    (hpadding : padding.utf8ByteSize ≤ maxPaddingLength) (tail : List UInt8) :
    readTcpResponse (responseFrame padding ok message ++ tail) = .ok ((ok, message), tail) := by
  apply readTcpResponse_renames.ok_iff.mpr
  unfold responseFrame
  rw [List.append_assoc, List.append_assoc]
  exact Core.readTcpResponse_written ok hmessage hpadding tail

/-- A frame that was written is read back, and nothing of what follows it is touched. -/
theorem tcp_frames_roundtrip :
    (∀ (addr padding : String) (tail : List UInt8), 1 ≤ addr.utf8ByteSize →
      addr.utf8ByteSize ≤ maxAddressLength → tcpRequestPadding.Draws padding →
      ∃ frame, writeTcpRequest padding addr = .ok frame ∧
        RuntimeIo.readFramedTcpRequest (frame ++ tail) = .ok (addr, tail)) ∧
    ∀ (ok : Bool) (message padding : String) (tail : List UInt8),
      message.utf8ByteSize ≤ maxMessageLength → tcpResponsePadding.Draws padding →
      ∃ frame, writeTcpResponse padding ok message = .ok frame ∧
        RuntimeIo.readTcpResponse (frame ++ tail) = .ok ((ok, message), tail) := by
  have hlimit : maxPaddingLength = 4096 := rfl
  constructor
  · intro addr padding tail hpos haddr hdraws
    have hpadding : padding.utf8ByteSize < 512 := hdraws.2
    refine ⟨_, writeTcpRequest_eq (haddr.trans (by decide)) (by omega), ?_⟩
    exact RuntimeIo.readFramedTcpRequest_written hpos haddr (by omega) tail
  · intro ok message padding tail hmessage hdraws
    have hpadding : padding.utf8ByteSize < 1024 := hdraws.2
    refine ⟨_, writeTcpResponse_eq ok (hmessage.trans (by decide)) (by omega), ?_⟩
    exact RuntimeIo.readTcpResponse_written ok hmessage (by omega) tail

theorem tcp_frames_roundtrip_sample :
    (∃ frame, writeTcpRequest (String.ofList (List.replicate 64 'p')) "a:80" = .ok frame ∧
      RuntimeIo.readFramedTcpRequest (frame ++ [7]) = .ok ("a:80", [7])) ∧
    ∃ frame, writeTcpResponse (String.ofList (List.replicate 128 'p')) false "refused" = .ok frame ∧
      RuntimeIo.readTcpResponse (frame ++ [7]) = .ok ((false, "refused"), [7]) := by
  obtain ⟨hrequest, hresponse⟩ := tcp_frames_roundtrip
  exact ⟨hrequest "a:80" _ [7] (by decide) (by decide) (by decide +kernel),
    hresponse false "refused" _ [7] (by decide) (by decide +kernel)⟩

namespace RuntimeIo

theorem incremental_readVarint : Incremental earlyEof readVarint := by
  apply (incremental_readExact earlyEof 1).bind
  intro first
  dsimp only
  rw [readUnlessEmpty_eq]
  apply (incremental_readExact earlyEof _).bind
  intro rest
  exact incremental_pure _ _

theorem incremental_discard (n : Nat) (a : α) : Incremental earlyEof (discardExact n >>= fun _ => pure a) := by
  rw [discardExact_bind]
  apply (incremental_readExact earlyEof n).bind
  intro _
  exact incremental_pure _ _

theorem incremental_readFramedTcpRequest : Incremental earlyEof readFramedTcpRequest := by
  apply incremental_readVarint.bind
  intro frameType
  apply (incremental_rejectIf earlyEof _ _).bind
  intro _
  apply incremental_readVarint.asUsize.bind
  intro addrLen
  apply (incremental_rejectIf earlyEof _ _).bind
  intro _
  apply (incremental_readExact earlyEof addrLen).bind
  intro addrBuf
  apply incremental_readVarint.asUsize.bind
  intro paddingLen
  apply (incremental_rejectIf earlyEof _ _).bind
  intro _
  exact incremental_discard paddingLen _

theorem incremental_readTcpResponse : Incremental earlyEof readTcpResponse := by
  apply (incremental_readExact earlyEof 1).bind
  intro status
  apply incremental_readVarint.asUsize.bind
  intro msgLen
  apply (incremental_rejectIf earlyEof _ _).bind
  intro _
  rw [readUnlessEmpty_eq]
  apply (incremental_readExact earlyEof msgLen).bind
  intro message
  apply incremental_readVarint.asUsize.bind
  intro paddingLen
  apply (incremental_rejectIf earlyEof _ _).bind
  intro _
  exact incremental_discard paddingLen _

theorem ok_of_readTcpResponse {status : UInt8} {input rest : List UInt8} {ok : Bool} {message : String}
    (h : readTcpResponse (status :: input) = .ok ((ok, message), rest)) : ok = (status == 0) := by
  unfold readTcpResponse at h
  rw [reads_bind_ok (readExact_one _ status _)] at h
  simp only [reads_bind, bind_eq_ok] at h
  obtain ⟨_, -, _, -, _, -, _, -, _, -, _, -, hreturn⟩ := h
  cases hreturn
  rfl

theorem readFramedTcpRequest_refused {addr : String} (padding : String) (hfits : addr.utf8ByteSize ≤ 2 ^ 62 - 1)
    (haddr : addr.utf8ByteSize = 0 ∨ addr.utf8ByteSize > maxAddressLength) (tail : List UInt8) :
    readFramedTcpRequest (requestFrame padding addr ++ tail) = .error (.error (.protocol .invalidAddressLength)) := by
  have hlimit : RequestLimit (lengthPrefixed addr ++ (lengthPrefixed padding ++ tail)) .invalidAddressLength := by
    rw [lengthPrefixed, List.append_assoc]
    refine .address _ (isVarint_length hfits) ?_
    rwa [length_utf8Bytes]
  rw [readFramedTcpRequest_append, readTcpRequest_renames, readTcpRequest_limit hlimit]
  rfl

end RuntimeIo

end Hysteria.Core
