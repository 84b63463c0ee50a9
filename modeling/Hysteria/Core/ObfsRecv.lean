import Hysteria.Core.ObfsSocket

/-! What `poll_recv` does with a received batch. An entry is decoded from front to
back over its own buffer; a step lemma says what one segment does to the buffer,
and a segment shorter than the salt is what stops the loop. -/
namespace Hysteria.Core
open Lib Extras

namespace ObfsUdpSocket

variable (socket : ObfsUdpSocket) (profile : Profile)

def decode (segment : List UInt8) : List UInt8 := socket.obfuscator.decode socket.digest segment

@[simp] theorem length_decode (segment : List UInt8) :
    (socket.decode segment).length = segment.length - salamanderSaltLen :=
  socket.obfuscator.length_decode socket.digest segment

def decodedTo (stride : Nat) (bytes : List UInt8) (i : Nat) : List UInt8 :=
  (((chunks stride bytes).take i).map socket.decode).flatten

theorem decodedTo_succ {stride : Nat} {bytes : List UInt8} {i : Nat} (hstride : 0 < stride)
    (hi : i * stride < bytes.length) :
    socket.decodedTo stride bytes (i + 1) =
      socket.decodedTo stride bytes i ++ socket.decode ((bytes.drop (i * stride)).take stride) := by
  have hget := getElem?_chunks ((lt_chunkCount_iff hstride).mpr hi)
  simp [decodedTo, List.take_add_one, hget]

theorem length_decodedTo {stride : Nat} {bytes : List UInt8} {i : Nat} (hstride : 0 < stride)
    (hi : i * stride ≤ bytes.length) :
    (socket.decodedTo stride bytes i).length = i * (stride - salamanderSaltLen) := by
  induction i with
  | zero => simp [decodedTo]
  | succ i ih =>
    rw [Nat.succ_mul] at hi
    have hfull : ((bytes.drop (i * stride)).take stride).length = stride := by
      rw [List.length_take, List.length_drop]
      omega
    rw [socket.decodedTo_succ hstride (by omega), List.length_append, ih (by omega),
      length_decode, hfull, Nat.succ_mul]

theorem length_decodedTo_le (stride : Nat) (bytes : List UInt8) (i : Nat) :
    (socket.decodedTo stride bytes i).length ≤ i * stride := by
  induction i with
  | zero => simp [decodedTo]
  | succ i ih =>
    have hnext : socket.decodedTo stride bytes (i + 1) = socket.decodedTo stride bytes i ++
        (((chunks stride bytes)[i]?.toList).map socket.decode).flatten := by
      simp [decodedTo, List.take_add_one]
    rw [hnext, List.length_append, Nat.succ_mul]
    apply Nat.add_le_add ih
    cases hget : (chunks stride bytes)[i]? with
    | none => simp
    | some segment =>
      have hle := (length_le_of_mem_chunks (List.mem_of_getElem? hget)).1
      simp only [Option.toList_some, List.map_cons, List.map_nil, List.flatten_cons,
        List.flatten_nil, List.append_nil, length_decode]
      omega

theorem slice_segment {buffer written : List UInt8} {len stride start : Nat}
    (hlen : len ≤ buffer.length) (hwritten : written.length ≤ start) (hstart : start < len) :
    (slice (overlay written buffer) start (start + min (len - start) stride) : Exec ε _) =
      .ok (((buffer.take len).drop start).take stride) := by
  have htake : buffer.take (start + min (len - start) stride) =
      (buffer.take len).take (start + min ((buffer.take len).length - start) stride) := by
    rw [List.take_take, List.length_take, Nat.min_eq_left hlen]
    congr 1
    omega
  rw [slice_overlay hwritten (by omega) (by omega), htake, slice_min]

section
variable {buffer : List UInt8} {len stride i : Nat} (hlen : len ≤ buffer.length)
  (hbuffer : buffer.length ≤ isizeMax) (hstride : salamanderSaltLen < stride)
  (hi : i * stride < len)

def loopState (socket : ObfsUdpSocket) (stride len : Nat) (buffer : List UInt8) (i : Nat) :
    List UInt8 × Nat :=
  (overlay (socket.decodedTo stride (buffer.take len) i) buffer,
    (socket.decodedTo stride (buffer.take len) i).length)

include hlen hbuffer hstride hi

theorem segment_bounds : (buffer.take len).length = len ∧
    (socket.decodedTo stride (buffer.take len) i).length = i * (stride - salamanderSaltLen) ∧
    i * (stride - salamanderSaltLen) ≤ i * stride ∧
    (overlay (socket.decodedTo stride (buffer.take len) i) buffer).length = buffer.length ∧
    len + len < usizeSize := by
  have hbytes : (buffer.take len).length = len := by
    rw [List.length_take, Nat.min_eq_left hlen]
  have hdecoded := socket.length_decodedTo (show 0 < stride by omega)
    (show i * stride ≤ (buffer.take len).length by omega)
  have hle : i * (stride - salamanderSaltLen) ≤ i * stride := Nat.mul_le_mul_left i (Nat.sub_le _ _)
  have hmax : isizeMax + isizeMax < usizeSize := by decide
  exact ⟨hbytes, hdecoded, hle, length_overlay (by omega), by omega⟩

theorem decodeSegment_ok (hlong : salamanderSaltLen ≤ len - i * stride) :
    socket.decodeSegment profile len stride (stride - salamanderSaltLen)
      (socket.loopState stride len buffer i) i = .ok (socket.loopState stride len buffer (i + 1)) := by
  obtain ⟨hbytes, hdecoded, hle, hlength, hmax⟩ :=
    socket.segment_bounds hlen hbuffer hstride hi
  have hsegment : (((buffer.take len).drop (i * stride)).take stride).length =
      min (len - i * stride) stride := by
    rw [List.length_take, List.length_drop, hbytes, Nat.min_comm]
  unfold decodeSegment loopState
  dsimp only
  refine bind_eq_ok.mpr ⟨_, mulUsize_ok profile (by omega), ?_⟩
  refine bind_eq_ok.mpr ⟨_, addUsize_ok profile (by omega), ?_⟩
  refine bind_eq_ok.mpr ⟨_, slice_segment hlen (by omega) hi, ?_⟩
  refine bind_eq_ok.mpr ⟨_, mulUsize_ok profile (by omega), ?_⟩
  refine bind_eq_ok.mpr ⟨_, subUsize_ok profile (by omega), ?_⟩
  refine bind_eq_ok.mpr ⟨_, addUsize_ok profile (by omega), ?_⟩
  refine bind_eq_ok.mpr ⟨_, slice_ok (by omega) (by omega), ?_⟩
  refine bind_eq_ok.mpr ⟨_, socket.obfuscator.deobfuscate_eq socket.digest ?_, ?_⟩
  · rw [hsegment, List.length_drop, List.length_take, hlength]
    omega
  dsimp only
  rw [hsegment]
  refine bind_eq_ok.mpr ⟨_, writeSlice_overlay hdecoded ?_, ?_⟩
  · rw [SalamanderObfuscator.length_decode, hsegment]
    omega
  rw [if_neg (by simp)]
  refine bind_eq_ok.mpr ⟨_, addUsize_ok profile (by omega), ?_⟩
  rw [socket.decodedTo_succ (by omega) (by omega), List.length_append, length_decode, hsegment]
  rfl

/-- A segment shorter than the salt panics: the length of its contents underflows,
and where the build does not check that, the slice it is decoded to does not exist. -/
theorem decodeSegment_short (hshort : len - i * stride < salamanderSaltLen) :
    ∃ why, socket.decodeSegment profile len stride (stride - salamanderSaltLen)
      (socket.loopState stride len buffer i) i = .error (.panic why) := by
  obtain ⟨_, _, hle, hlength, hmax⟩ := socket.segment_bounds hlen hbuffer hstride hi
  have husize : usizeSize = 18446744073709551616 := rfl
  have hisize : isizeMax = 9223372036854775807 := rfl
  have hsalt : salamanderSaltLen = 8 := rfl
  have hmin : min (len - i * stride) stride = len - i * stride := by omega
  unfold decodeSegment loopState
  dsimp only
  rw [mulUsize_ok profile (by omega), ok_bind, addUsize_ok profile (by omega), ok_bind,
    slice_segment hlen (by omega) hi, ok_bind, mulUsize_ok profile (by omega), ok_bind, hmin,
    subUsize, if_neg (by omega), overflow]
  cases hchecks : profile.overflowChecks with
  | true => exact ⟨.arithmeticOverflow, rfl⟩
  | false =>
    rw [if_neg (by simp), ok_bind]
    by_cases hsum : i * (stride - salamanderSaltLen) +
        (len - i * stride + usizeSize - salamanderSaltLen) < usizeSize
    · rw [addUsize_ok profile hsum, ok_bind, slice, if_neg (by omega)]
      exact ⟨.sliceOutOfRange, rfl⟩
    · have hwrap : (i * (stride - salamanderSaltLen) +
          (len - i * stride + usizeSize - salamanderSaltLen)) % usizeSize <
            i * (stride - salamanderSaltLen) := by
        rw [Nat.mod_eq_sub_mod (by omega), Nat.mod_eq_of_lt (by omega)]
        omega
      rw [addUsize, if_neg hsum, overflow, hchecks, if_neg (by simp), ok_bind, slice,
        if_neg (by omega)]
      exact ⟨.sliceOutOfRange, rfl⟩

end

end ObfsUdpSocket

/-- The entry is empty, or its datagrams are longer than the salt, except that the
last one of several may be just the salt. -/
def RecvEntry.Decodable (entry : RecvEntry) : Prop :=
  entry.len = 0 ∨ salamanderSaltLen < entry.originalStride ∧
    (entry.len % entry.originalStride = 0 ∨
      salamanderSaltLen ≤ entry.len % entry.originalStride)

instance (entry : RecvEntry) : Decidable entry.Decodable :=
  inferInstanceAs (Decidable (_ ∨ _))

theorem salt_le_segment {len stride i : Nat} (hstride : salamanderSaltLen < stride)
    (hlast : len % stride = 0 ∨ salamanderSaltLen ≤ len % stride) (hi : i * stride < len) :
    salamanderSaltLen ≤ len - i * stride := by
  by_contra hshort
  have hmod : len % stride = len - i * stride := by
    have hsplit : len = len - i * stride + i * stride := by omega
    rw [hsplit, Nat.add_mul_mod_self_right, Nat.mod_eq_of_lt (by omega)]
    omega
  omega

namespace ObfsUdpSocket

variable (socket : ObfsUdpSocket) (profile : Profile)

def decoded (entry : RecvEntry) : RecvEntry :=
  if entry.len = 0 then entry
  else
    let contents := (entry.segments.map socket.decode).flatten
    { buffer := overlay contents entry.buffer
      len := contents.length
      stride := if 1 < entry.segments.length then entry.originalStride - salamanderSaltLen
        else contents.length }

theorem decodeSegments_ok {buffer : List UInt8} {len stride n : Nat} (hlen : len ≤ buffer.length)
    (hbuffer : buffer.length ≤ isizeMax) (hstride : salamanderSaltLen < stride)
    (hlong : ∀ i < n, i * stride < len ∧ salamanderSaltLen ≤ len - i * stride) :
    socket.decodeSegments profile len stride (stride - salamanderSaltLen) buffer n =
      .ok (socket.loopState stride len buffer n) := by
  apply foldlM_range_ok (socket.loopState stride len buffer)
  intro i hi
  exact socket.decodeSegment_ok profile hlen hbuffer hstride (hlong i hi).1 (hlong i hi).2

theorem decodeEntry_ok {entry : RecvEntry} (hfits : entry.Fits) (hdecodable : entry.Decodable) :
    socket.decodeEntry profile entry = .ok (socket.decoded entry) := by
  unfold decodeEntry decoded
  by_cases hzero : entry.len = 0
  · rw [if_pos hzero, if_pos hzero]
    rfl
  obtain ⟨hstride, hlast⟩ := hdecodable.resolve_left hzero
  have hpos : 0 < entry.originalStride := by omega
  have hbytes : (entry.buffer.take entry.len).length = entry.len := by
    rw [List.length_take, Nat.min_eq_left hfits.1]
  have hcount : entry.segments.length = chunkCount entry.len entry.originalStride := by
    rw [RecvEntry.segments, length_chunks, hbytes]
  have hloop := socket.decodeSegments_ok profile (n := chunkCount entry.len entry.originalStride)
    hfits.1 hfits.2 hstride (fun i hi =>
      ⟨(lt_chunkCount_iff hpos).mp hi, salt_le_segment hstride hlast ((lt_chunkCount_iff hpos).mp hi)⟩)
  have hall : socket.decodedTo entry.originalStride (entry.buffer.take entry.len)
      (chunkCount entry.len entry.originalStride) = (entry.segments.map socket.decode).flatten := by
    rw [decodedTo, ← hcount, RecvEntry.segments, List.take_length]
  rw [loopState, hall] at hloop
  rw [if_neg hzero, if_neg hzero, if_neg (by omega)]
  refine bind_eq_ok.mpr ⟨_, divCeil_ok _ hpos, ?_⟩
  refine bind_eq_ok.mpr ⟨_, subUsize_ok profile (by omega), ?_⟩
  refine bind_eq_ok.mpr ⟨_, hloop, ?_⟩
  rw [hcount]
  rfl

/-- The decoded part of the buffer never reaches the segments still to be decoded. -/
theorem rest_untouched {entry : RecvEntry} (hfits : entry.Fits) (hdecodable : entry.Decodable) :
    ∀ k ≤ entry.segments.length, ∃ buffer decodedTotal,
      socket.decodeSegments profile entry.len entry.originalStride
        (entry.originalStride - salamanderSaltLen) entry.buffer k = .ok (buffer, decodedTotal) ∧
      buffer.drop (k * entry.originalStride) = entry.buffer.drop (k * entry.originalStride) := by
  intro k hk
  by_cases hzero : entry.len = 0
  · have hnone : k = 0 := by
      have hcount : entry.segments.length = 0 := by
        rw [RecvEntry.segments, hzero, List.take_zero, chunks_nil, List.length_nil]
      omega
    subst hnone
    exact ⟨entry.buffer, 0, rfl, rfl⟩
  obtain ⟨hstride, hlast⟩ := hdecodable.resolve_left hzero
  have hpos : 0 < entry.originalStride := by omega
  rw [RecvEntry.segments, length_chunks, List.length_take, Nat.min_eq_left hfits.1] at hk
  refine ⟨_, _, socket.decodeSegments_ok profile hfits.1 hfits.2 hstride ?_, ?_⟩
  · intro i hi
    have hi := (lt_chunkCount_iff hpos).mp (Nat.lt_of_lt_of_le hi hk)
    exact ⟨hi, salt_le_segment hstride hlast hi⟩
  · exact drop_overlay _ (socket.length_decodedTo_le _ _ _)

theorem decodeEntry_error {entry : RecvEntry} (hfits : entry.Fits) (h : ¬ entry.Decodable) :
    ∃ fault, socket.decodeEntry profile entry = .error fault := by
  have hzero : entry.len ≠ 0 := fun hzero => h (.inl hzero)
  unfold decodeEntry
  rw [if_neg hzero]
  by_cases hstride : entry.originalStride ≤ salamanderSaltLen
  · rw [if_pos hstride]
    exact ⟨_, rfl⟩
  have hlast : entry.len % entry.originalStride ≠ 0 ∧
      entry.len % entry.originalStride < salamanderSaltLen := by
    constructor
    · exact fun hmod => h (.inr ⟨by omega, .inl hmod⟩)
    · exact Nat.lt_of_not_le fun hmod => h (.inr ⟨by omega, .inr hmod⟩)
  have hpos : 0 < entry.originalStride := by omega
  have hdiv := Nat.div_add_mod' entry.len entry.originalStride
  have hmod := Nat.mod_lt entry.len hpos
  have hcount : chunkCount entry.len entry.originalStride = entry.len / entry.originalStride + 1 := by
    have hge := (lt_chunkCount_iff (n := entry.len) (i := entry.len / entry.originalStride) hpos).mpr
      (by omega)
    have hle := (lt_chunkCount_iff (n := entry.len) (i := entry.len / entry.originalStride + 1)
      hpos).not.mpr (by rw [Nat.succ_mul]; omega)
    omega
  obtain ⟨why, hpanic⟩ := socket.decodeSegment_short profile hfits.1 hfits.2 (by omega)
    (show entry.len / entry.originalStride * entry.originalStride < entry.len by omega) (by omega)
  have hfull : ∀ i < entry.len / entry.originalStride,
      socket.decodeSegment profile entry.len entry.originalStride
        (entry.originalStride - salamanderSaltLen)
        (socket.loopState entry.originalStride entry.len entry.buffer i) i =
      .ok (socket.loopState entry.originalStride entry.len entry.buffer (i + 1)) := by
    intro i hi
    have hnext := Nat.mul_le_mul_right entry.originalStride (Nat.succ_le_iff.mpr hi)
    rw [Nat.succ_mul] at hnext
    exact socket.decodeSegment_ok profile hfits.1 hfits.2 (by omega) (by omega) (by omega)
  have hloop : socket.decodeSegments profile entry.len entry.originalStride
      (entry.originalStride - salamanderSaltLen) entry.buffer
      (chunkCount entry.len entry.originalStride) = .error (.panic why) := by
    rw [hcount]
    exact foldlM_range_error (socket.loopState entry.originalStride entry.len entry.buffer) hfull hpanic
  refine ⟨.panic why, ?_⟩
  rw [if_neg hstride, divCeil_ok _ hpos]
  change (subUsize profile _ _ >>= fun _ => _) = _
  rw [subUsize_ok profile (by omega), ok_bind]
  exact congrArg (· >>= _) hloop

theorem pollRecv_eq_ok_iff {batch : List RecvEntry} (hfits : ∀ entry ∈ batch, entry.Fits)
    {out : List RecvEntry} :
    socket.pollRecv profile batch = .ok out ↔
      (∀ entry ∈ batch, entry.Decodable) ∧ out = batch.map socket.decoded := by
  unfold pollRecv
  rw [mapM_eq_ok]
  constructor
  · intro h
    induction h with
    | nil => simp
    | @cons entry out batch outs hentry _ ih =>
      obtain ⟨hrest, rfl⟩ := ih fun entry hentry => hfits entry (by simp [hentry])
      have hfits_entry := hfits entry (by simp)
      have hdecodable : entry.Decodable := by
        by_contra hnot
        obtain ⟨fault, herror⟩ := socket.decodeEntry_error profile hfits_entry hnot
        cases herror.symm.trans hentry
      have hout := (socket.decodeEntry_ok profile hfits_entry hdecodable).symm.trans hentry
      cases hout
      exact ⟨by simpa using ⟨hdecodable, hrest⟩, rfl⟩
  · rintro ⟨hdecodable, rfl⟩
    rw [List.forall₂_map_right_iff, List.forall₂_same]
    intro entry hentry
    exact socket.decodeEntry_ok profile (hfits entry hentry) (hdecodable entry hentry)

end ObfsUdpSocket

/-- Every datagram of the entry carries something behind its salt. -/
def RecvEntry.LongSegments (entry : RecvEntry) : Prop :=
  ∀ segment ∈ entry.segments, salamanderSaltLen < segment.length

theorem RecvEntry.LongSegments.decodable {entry : RecvEntry} (hfits : entry.Fits)
    (h : entry.LongSegments) : entry.Decodable := by
  by_cases hzero : entry.len = 0
  · exact .inl hzero
  have hbytes : (entry.buffer.take entry.len).length = entry.len := by
    rw [List.length_take, Nat.min_eq_left hfits.1]
  have hpos : 0 < entry.originalStride := by
    unfold RecvEntry.originalStride
    split <;> omega
  have hlong (i : Nat) (hi : i * entry.originalStride < entry.len) :
      salamanderSaltLen < min entry.originalStride (entry.len - i * entry.originalStride) := by
    have hget : entry.segments[i]? = some _ :=
      getElem?_chunks ((lt_chunkCount_iff hpos).mpr (by rw [hbytes]; exact hi))
    have hsegment := h _ (List.mem_of_getElem? hget)
    rwa [List.length_take, List.length_drop, hbytes] at hsegment
  have hfirst := hlong 0 (by omega)
  refine .inr ⟨by omega, ?_⟩
  by_cases hmod : entry.len % entry.originalStride = 0
  · exact .inl hmod
  · have hdiv := Nat.div_add_mod' entry.len entry.originalStride
    have hlast := hlong (entry.len / entry.originalStride) (by omega)
    exact .inr (by omega)

/-- `poll_recv` returns, and decodes each good entry as if it were alone, exactly
when every entry of the batch is decodable. -/
theorem pollRecv_isolates_iff (socket : ObfsUdpSocket) (profile : Profile)
    (batch : List RecvEntry) (hfits : ∀ entry ∈ batch, entry.Fits) :
    (∃ out, socket.pollRecv profile batch = .ok out ∧
      ∀ (i : Nat) (entry : RecvEntry), batch[i]? = some entry → entry.LongSegments →
        ∃ alone, socket.pollRecv profile [entry] = .ok [alone] ∧ out[i]? = some alone) ↔
      ∀ entry ∈ batch, entry.Decodable := by
  constructor
  · rintro ⟨out, hout, _⟩
    exact ((socket.pollRecv_eq_ok_iff profile hfits).mp hout).1
  · intro hdecodable
    refine ⟨batch.map socket.decoded,
      (socket.pollRecv_eq_ok_iff profile hfits).mpr ⟨hdecodable, rfl⟩, ?_⟩
    intro i entry hi _
    have hmem := List.mem_of_getElem? hi
    refine ⟨socket.decoded entry, ?_, ?_⟩
    · apply (socket.pollRecv_eq_ok_iff profile (by simpa using hfits entry hmem)).mpr
      exact ⟨by simpa using hdecodable entry hmem, rfl⟩
    · rw [List.getElem?_map, hi]
      rfl

/-- In place of BLAKE2b, sums of the bytes. -/
def summedSocket : ObfsUdpSocket where
  digest bytes := Vector.ofFn fun i => UInt8.ofNat (bytes.foldl (fun total byte => total + byte.toNat) i.val)
  obfuscator := ⟨[1, 2, 3, 4], by decide⟩

theorem pollRecv_isolates_iff_two :
    ∃ out, summedSocket.pollRecv ⟨true⟩ [⟨[1, 2, 3, 4, 5, 6, 7, 8, 9, 10, 0], 10, 10⟩, ⟨[0], 0, 0⟩] =
      .ok out ∧
      ∀ (i : Nat) (entry : RecvEntry),
        [⟨[1, 2, 3, 4, 5, 6, 7, 8, 9, 10, 0], 10, 10⟩, ⟨[0], 0, 0⟩][i]? = some entry →
        entry.LongSegments → ∃ alone, summedSocket.pollRecv ⟨true⟩ [entry] = .ok [alone] ∧
          out[i]? = some alone :=
  (pollRecv_isolates_iff summedSocket ⟨true⟩ _ (by simp [RecvEntry.Fits, isizeMax])).mpr (by decide)

/-- A datagram of five bytes makes the call fail, and three bytes behind a datagram
of ten make it panic, with overflow checks or without. -/
theorem pollRecv_stopped :
    summedSocket.pollRecv ⟨false⟩ [⟨[1, 2, 3, 4, 5], 5, 5⟩] =
        .error (.error ⟨.invalidData, "invalid obfuscated QUIC datagram"⟩) ∧
      summedSocket.pollRecv ⟨false⟩ [⟨List.replicate 13 0, 13, 10⟩] = .error (.panic .sliceOutOfRange) ∧
      summedSocket.pollRecv ⟨true⟩ [⟨List.replicate 13 0, 13, 10⟩] =
        .error (.panic .arithmeticOverflow) :=
  ⟨rfl, rfl, rfl⟩

end Hysteria.Core
