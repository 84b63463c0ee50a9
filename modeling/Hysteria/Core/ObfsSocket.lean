import Hysteria.Extras.Salamander
import Hysteria.Lib.Chunks

/-! `ObfsUdpSocket` of `socket.rs`. A transmit is obfuscated segment by segment;
what the inner socket received is decoded in place, entry by entry, each entry
holding one datagram or several of the same size that the kernel coalesced. -/
namespace Hysteria.Core
open Lib Extras

inductive ErrorKind where
  | invalidData
deriving DecidableEq, Repr

structure IoError where
  kind : ErrorKind
  text : String
deriving DecidableEq, Repr

structure Transmit where
  contents : List UInt8
  segmentSize : Option Nat
deriving DecidableEq, Repr

/-- A buffer of a received batch with the `len` and `stride` of its `RecvMeta`. -/
structure RecvEntry where
  buffer : List UInt8
  len : Nat
  stride : Nat
deriving DecidableEq, Repr

/-- An entry as the inner socket can hand it over: the data is in the buffer, and
the buffer is a slice. -/
def RecvEntry.Fits (entry : RecvEntry) : Prop :=
  entry.len ≤ entry.buffer.length ∧ entry.buffer.length ≤ isizeMax

def RecvEntry.originalStride (entry : RecvEntry) : Nat :=
  if entry.stride = 0 then entry.len else entry.stride

def RecvEntry.segments (entry : RecvEntry) : List (List UInt8) :=
  chunks entry.originalStride (entry.buffer.take entry.len)

structure ObfsUdpSocket where
  digest : Digest
  obfuscator : SalamanderObfuscator

namespace ObfsUdpSocket

variable (socket : ObfsUdpSocket) (profile : Profile)

/-- One turn of the loop of `try_send`. -/
def sendChunk (salts : Nat → Salt) (encoded : List UInt8) (chunk : List UInt8 × Nat) :
    Exec IoError (List UInt8) := do
  let size ← addUsize profile chunk.1.length salamanderSaltLen
  let (written, out) ← socket.obfuscator.obfuscate socket.digest profile (salts chunk.2) chunk.1
    (List.replicate size 0)
  if written = 0 then throw (.error ⟨.invalidData, "failed to obfuscate QUIC datagram"⟩)
  let out ← slice out 0 written
  return encoded ++ out

/-- The transmit `try_send` hands to the inner socket; `salts` are the random
bytes drawn for its segments. -/
def trySend (salts : Nat → Salt) (transmit : Transmit) : Exec IoError Transmit := do
  let segmentSize := transmit.segmentSize.getD (max transmit.contents.length 1)
  let segmentCount ← divCeil transmit.contents.length segmentSize
  let saltBytes ← mulUsize profile segmentCount salamanderSaltLen
  let _capacity ← addUsize profile transmit.contents.length saltBytes
  let encoded ← (chunks segmentSize transmit.contents).zipIdx.foldlM
    (socket.sendChunk profile salts) []
  match transmit.segmentSize with
  | none => return ⟨encoded, none⟩
  | some size => do
    let size ← addUsize profile size salamanderSaltLen
    return ⟨encoded, some size⟩

/-- One turn of the inner loop of `poll_recv`, with the buffer and `decoded_total`. -/
def decodeSegment (totalLen originalStride decodedStride : Nat) (state : List UInt8 × Nat)
    (segmentIndex : Nat) : Exec IoError (List UInt8 × Nat) := do
  let (buffer, decodedTotal) := state
  let inputOffset ← mulUsize profile segmentIndex originalStride
  let inputLen := min (totalLen - inputOffset) originalStride
  let inputEnd ← addUsize profile inputOffset inputLen
  let input ← slice buffer inputOffset inputEnd
  let outputOffset ← mulUsize profile segmentIndex decodedStride
  let outputLen ← subUsize profile inputLen salamanderSaltLen
  let outputEnd ← addUsize profile outputOffset outputLen
  let output ← slice buffer outputOffset outputEnd
  let (written, output) ← socket.obfuscator.deobfuscate socket.digest input output
  let buffer ← writeSlice buffer outputOffset output
  if written ≠ outputLen then
    throw (.error ⟨.invalidData, "failed to deobfuscate QUIC datagram"⟩)
  let decodedTotal ← addUsize profile decodedTotal written
  return (buffer, decodedTotal)

def decodeSegments (totalLen originalStride decodedStride : Nat) (buffer : List UInt8)
    (datagramCount : Nat) : Exec IoError (List UInt8 × Nat) :=
  (List.range datagramCount).foldlM
    (socket.decodeSegment profile totalLen originalStride decodedStride) (buffer, 0)

/-- One turn of the outer loop of `poll_recv`. -/
def decodeEntry (entry : RecvEntry) : Exec IoError RecvEntry := do
  if entry.len = 0 then return entry
  if entry.originalStride ≤ salamanderSaltLen then
    throw (.error ⟨.invalidData, "invalid obfuscated QUIC datagram"⟩)
  let datagramCount ← divCeil entry.len entry.originalStride
  let decodedStride ← subUsize profile entry.originalStride salamanderSaltLen
  let (buffer, decodedTotal) ← socket.decodeSegments profile entry.len entry.originalStride
    decodedStride entry.buffer datagramCount
  let stride := if 1 < datagramCount then decodedStride else decodedTotal
  return { buffer, len := decodedTotal, stride }

/-- `poll_recv` on the entries the inner socket has filled. -/
def pollRecv (batch : List RecvEntry) : Exec IoError (List RecvEntry) :=
  batch.mapM (socket.decodeEntry profile)

end ObfsUdpSocket
end Hysteria.Core
