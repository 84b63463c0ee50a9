import Hysteria.Core.ObfsRecv

/-! `try_send` against `poll_recv`: what one socket sends in segments, a socket
with the same key decodes to the same segments. -/
namespace Hysteria.Core
open Lib Extras

/-- The segment size `try_send` works with. -/
def Transmit.segment (transmit : Transmit) : Nat :=
  transmit.segmentSize.getD (max transmit.contents.length 1)

namespace ObfsUdpSocket

variable (socket : ObfsUdpSocket) (salts : Nat → Salt)

def encodeChunk (chunk : List UInt8 × Nat) : List UInt8 :=
  socket.obfuscator.encode socket.digest (salts chunk.2) chunk.1

def encodedSegments (transmit : Transmit) : List (List UInt8) :=
  (chunks transmit.segment transmit.contents).zipIdx.map (socket.encodeChunk salts)

@[simp] theorem length_encodeChunk (chunk : List UInt8 × Nat) :
    (socket.encodeChunk salts chunk).length = chunk.1.length + salamanderSaltLen :=
  socket.obfuscator.length_encode socket.digest _ _

@[simp] theorem decode_encodeChunk (chunk : List UInt8 × Nat) :
    socket.decode (socket.encodeChunk salts chunk) = chunk.1 :=
  socket.obfuscator.decode_encode socket.digest _ _

theorem sendChunk_eq (profile : Profile) (encoded : List UInt8) {chunk : List UInt8 × Nat}
    (h : chunk.1.length ≤ isizeMax) :
    socket.sendChunk profile salts encoded chunk =
      .ok (encoded ++ socket.encodeChunk salts chunk) := by
  have hmax : isizeMax + salamanderSaltLen < usizeSize := by decide
  have hlength := socket.length_encodeChunk salts chunk
  unfold sendChunk
  refine bind_eq_ok.mpr ⟨_, addUsize_ok profile (by omega), ?_⟩
  refine bind_eq_ok.mpr ⟨_, socket.obfuscator.obfuscate_eq socket.digest profile _ (by omega)
    (by simp), ?_⟩
  dsimp only
  rw [if_neg (by simp [salamanderSaltLen])]
  refine bind_eq_ok.mpr ⟨_, slice_ok (Nat.zero_le _) ?_, ?_⟩
  · rw [length_overlay]
    · simp
    · simp
  · rw [take_overlay _ (by simp)]
    rfl

theorem sendLoop_eq (profile : Profile) {transmit : Transmit}
    (h : transmit.contents.length ≤ isizeMax) :
    (chunks transmit.segment transmit.contents).zipIdx.foldlM (socket.sendChunk profile salts) [] =
      .ok (socket.encodedSegments salts transmit).flatten := by
  have hchunk : ∀ acc, ∀ chunk ∈ (chunks transmit.segment transmit.contents).zipIdx,
      socket.sendChunk profile salts acc chunk = .ok (acc ++ socket.encodeChunk salts chunk) := by
    intro acc chunk hchunk
    apply socket.sendChunk_eq salts profile acc
    have hle := (length_le_of_mem_chunks (List.fst_mem_of_mem_zipIdx hchunk)).2
    omega
  exact foldlM_append_ok hchunk []

theorem contents_of_trySend {profile : Profile} {transmit sent : Transmit}
    (hcontents : transmit.contents.length ≤ isizeMax)
    (h : socket.trySend profile salts transmit = .ok sent) :
    sent.contents = (socket.encodedSegments salts transmit).flatten := by
  unfold trySend at h
  obtain ⟨_, _, h⟩ := bind_eq_ok.mp h
  obtain ⟨_, _, h⟩ := bind_eq_ok.mp h
  obtain ⟨_, _, h⟩ := bind_eq_ok.mp h
  obtain ⟨encoded, hloop, h⟩ := bind_eq_ok.mp h
  have hencoded : encoded = (socket.encodedSegments salts transmit).flatten :=
    Except.ok.inj (hloop.symm.trans (socket.sendLoop_eq salts profile hcontents))
  split at h
  · cases h
    exact hencoded
  · obtain ⟨_, _, h⟩ := bind_eq_ok.mp h
    cases h
    exact hencoded

theorem trySend_eq (profile : Profile) {transmit : Transmit}
    (hcontents : transmit.contents.length ≤ isizeMax) (hsegment : 0 < transmit.segment)
    (hcapacity : transmit.contents.length +
      chunkCount transmit.contents.length transmit.segment * salamanderSaltLen < usizeSize)
    (hsize : ∀ size, transmit.segmentSize = some size → size + salamanderSaltLen < usizeSize) :
    socket.trySend profile salts transmit =
      .ok ⟨(socket.encodedSegments salts transmit).flatten,
        transmit.segmentSize.map (· + salamanderSaltLen)⟩ := by
  unfold trySend
  refine bind_eq_ok.mpr ⟨_, divCeil_ok _ hsegment, ?_⟩
  refine bind_eq_ok.mpr ⟨_, mulUsize_ok profile ?_, ?_⟩
  · exact Nat.lt_of_le_of_lt (Nat.le_add_left _ _) hcapacity
  refine bind_eq_ok.mpr ⟨_, addUsize_ok profile hcapacity, ?_⟩
  refine bind_eq_ok.mpr ⟨_, socket.sendLoop_eq salts profile hcontents, ?_⟩
  cases hsome : transmit.segmentSize with
  | none => rfl
  | some size => exact bind_eq_ok.mpr ⟨_, addUsize_ok profile (hsize size hsome), rfl⟩

theorem encoded_length_pos {transmit : Transmit} (hcontents : 0 < transmit.contents.length)
    (hsegment : 0 < transmit.segment) :
    0 < (socket.encodedSegments salts transmit).flatten.length := by
  have hsalt : 0 < salamanderSaltLen := by decide
  rw [encodedSegments, chunks_eq_cons hsegment hcontents, List.zipIdx_cons, List.map_cons,
    List.flatten_cons, List.length_append, length_encodeChunk]
  omega

section
variable {transmit : Transmit} {entry : RecvEntry} (hcontents : 0 < transmit.contents.length)
  (hsegment : 0 < transmit.segment)
  (hbytes : entry.buffer.take entry.len = (socket.encodedSegments salts transmit).flatten)
  (hlen : entry.len = (socket.encodedSegments salts transmit).flatten.length)
  (hstride : entry.stride = transmit.segment + salamanderSaltLen ∨
    transmit.contents.length ≤ transmit.segment ∧ entry.stride = entry.len)

include hcontents hsegment hbytes hlen hstride

theorem segments_eq : entry.segments = socket.encodedSegments salts transmit := by
  have hcoalesced : chunks (transmit.segment + salamanderSaltLen)
      (socket.encodedSegments salts transmit).flatten = socket.encodedSegments salts transmit :=
    chunks_flatten hsegment (socket.encodeChunk salts) (socket.length_encodeChunk salts)
      transmit.contents 0
  rw [RecvEntry.segments, hbytes, RecvEntry.originalStride]
  rcases hstride with hstride | ⟨hsingle, hstride⟩
  · rw [hstride, if_neg (by simp [salamanderSaltLen]), hcoalesced]
  · have hone : socket.encodedSegments salts transmit =
        [socket.encodeChunk salts (transmit.contents, 0)] := by
      rw [encodedSegments, chunks_of_length_le hcontents hsingle]
      rfl
    have hpos := socket.encoded_length_pos salts hcontents hsegment
    rw [hstride, ite_self, hlen, chunks_of_length_le hpos (Nat.le_refl _), hone]
    simp

theorem map_decode_segments :
    entry.segments.map socket.decode = chunks transmit.segment transmit.contents := by
  rw [socket.segments_eq salts hcontents hsegment hbytes hlen hstride, encodedSegments,
    List.map_map]
  have hdecode : socket.decode ∘ socket.encodeChunk salts = Prod.fst := by
    funext chunk
    exact socket.decode_encodeChunk salts chunk
  rw [hdecode, List.zipIdx_map_fst]

theorem longSegments : entry.LongSegments := by
  intro segment hmem
  rw [socket.segments_eq salts hcontents hsegment hbytes hlen hstride] at hmem
  obtain ⟨chunk, hchunk, rfl⟩ := List.mem_map.mp hmem
  have hpos := length_pos_of_mem_chunks hsegment (List.fst_mem_of_mem_zipIdx hchunk)
  rw [length_encodeChunk]
  omega

theorem decoded_roundtrip :
    (socket.decoded entry).buffer.take (socket.decoded entry).len = transmit.contents ∧
      chunks (socket.decoded entry).stride transmit.contents =
        chunks transmit.segment transmit.contents := by
  have hdecode := socket.map_decode_segments salts hcontents hsegment hbytes hlen hstride
  have hcount : entry.segments.length = chunkCount transmit.contents.length transmit.segment := by
    rw [← length_chunks, ← hdecode, List.length_map]
  have hflatten : (entry.segments.map socket.decode).flatten = transmit.contents := by
    rw [hdecode, flatten_chunks hsegment]
  have hzero : entry.len ≠ 0 := by
    rw [hlen]
    exact Nat.ne_of_gt (socket.encoded_length_pos salts hcontents hsegment)
  rw [decoded, if_neg hzero, hflatten]
  refine ⟨take_overlay _ rfl, ?_⟩
  dsimp only
  by_cases hmany : 1 < entry.segments.length
  · have hlong : 1 * transmit.segment < transmit.contents.length := by
      rwa [hcount, lt_chunkCount_iff hsegment] at hmany
    have hcoalesced := hstride.resolve_right (by omega)
    rw [if_pos hmany, RecvEntry.originalStride, hcoalesced, if_neg (by simp [salamanderSaltLen]),
      Nat.add_sub_cancel]
  · have hsingle : transmit.contents.length ≤ transmit.segment := by
      rw [hcount, lt_chunkCount_iff hsegment] at hmany
      omega
    rw [if_neg hmany, chunks_of_length_le hcontents (Nat.le_refl _),
      chunks_of_length_le hcontents hsingle]

end

end ObfsUdpSocket

theorem Transmit.segment_pos {transmit : Transmit}
    (h : ∀ size, transmit.segmentSize = some size → 1 ≤ size) : 0 < transmit.segment := by
  unfold Transmit.segment
  cases hsize : transmit.segmentSize with
  | none => exact Nat.lt_of_lt_of_le Nat.zero_lt_one (Nat.le_max_right _ _)
  | some size => exact h size hsize

/-- Whatever is sent comes back. The first part says when a send succeeds; the
second, that `poll_recv` on the coalesced datagrams restores the contents and
their segments, and that the segments behind those decoded so far are at every
moment as they were received. -/
theorem obfuscation_roundtrip (socket : ObfsUdpSocket) (sender receiver : Profile)
    (salts : Nat → Salt) (transmit : Transmit) (hcontents : transmit.contents ≠ [])
    (hslice : transmit.contents.length ≤ isizeMax)
    (hsize : ∀ size, transmit.segmentSize = some size → 1 ≤ size) :
    (transmit.contents.length +
        chunkCount transmit.contents.length transmit.segment * salamanderSaltLen < usizeSize →
      (∀ size, transmit.segmentSize = some size → size + salamanderSaltLen < usizeSize) →
      ∃ sent, socket.trySend sender salts transmit = .ok sent) ∧
    ∀ (sent : Transmit) (entry : RecvEntry), socket.trySend sender salts transmit = .ok sent →
      entry.Fits → entry.buffer.take entry.len = sent.contents →
      entry.len = sent.contents.length →
      (entry.stride = transmit.segment + salamanderSaltLen ∨
        transmit.contents.length ≤ transmit.segment ∧ entry.stride = entry.len) →
      (∃ out, socket.pollRecv receiver [entry] = .ok [out] ∧
        out.buffer.take out.len = transmit.contents ∧
        chunks out.stride transmit.contents = chunks transmit.segment transmit.contents) ∧
      ∀ k ≤ entry.segments.length, ∃ buffer decodedTotal,
        socket.decodeSegments receiver entry.len entry.originalStride
          (entry.originalStride - salamanderSaltLen) entry.buffer k = .ok (buffer, decodedTotal) ∧
        buffer.drop (k * entry.originalStride) = entry.buffer.drop (k * entry.originalStride) := by
  have hpos : 0 < transmit.contents.length := List.length_pos_iff.mpr hcontents
  have hsegment := Transmit.segment_pos hsize
  constructor
  · intro hcapacity hlimit
    exact ⟨_, socket.trySend_eq salts sender hslice hsegment hcapacity hlimit⟩
  · intro sent entry hsent hfits hbytes hlen hstride
    have hencoded := socket.contents_of_trySend salts hslice hsent
    rw [hencoded] at hbytes hlen
    have hdecodable :=
      (socket.longSegments salts hpos hsegment hbytes hlen hstride).decodable hfits
    constructor
    · refine ⟨socket.decoded entry, ?_,
        socket.decoded_roundtrip salts hpos hsegment hbytes hlen hstride⟩
      apply (socket.pollRecv_eq_ok_iff receiver (by simpa using hfits)).mpr
      exact ⟨by simpa using hdecodable, rfl⟩
    · exact socket.rest_untouched receiver hfits hdecodable

theorem obfuscation_roundtrip_segments :
    ∃ out, summedSocket.pollRecv ⟨true⟩
        [⟨[1, 1, 1, 1, 1, 1, 1, 1, 19, 17, 2, 2, 2, 2, 2, 2, 2, 2, 25, 31, 3, 3, 3, 3, 3, 3, 3, 3, 39, 9],
          29, 10⟩] = .ok [out] ∧
      out.buffer.take out.len = [1, 2, 3, 4, 5] ∧
      chunks out.stride ([1, 2, 3, 4, 5] : List UInt8) = [[1, 2], [3, 4], [5]] :=
  ((obfuscation_roundtrip summedSocket ⟨true⟩ ⟨true⟩ (fun k => Vector.replicate 8 (UInt8.ofNat (k + 1)))
    ⟨[1, 2, 3, 4, 5], some 2⟩ (by simp) (by simp [isizeMax]) (by simp)).2
    ⟨[1, 1, 1, 1, 1, 1, 1, 1, 19, 17, 2, 2, 2, 2, 2, 2, 2, 2, 25, 31, 3, 3, 3, 3, 3, 3, 3, 3, 39], some 10⟩
    _ rfl (by simp [RecvEntry.Fits, isizeMax]) rfl rfl (.inl rfl)).1

end Hysteria.Core
