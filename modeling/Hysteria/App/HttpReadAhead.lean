import Hysteria.App.HttpProxy

/-! How far the two readers of the proxy read ahead. Each compares its limit with all that it has
read, not with the head or the line alone, so close to the limit what arrives together with the
end of it decides whether it is accepted. -/
namespace Hysteria.App.HttpProxy
open Lib Inbound

/-- The head ends behind the buffer and within the limit, but a read that starts before its end
can take the buffer over the limit. -/
def HeadAtLimit (buffer stream : List UInt8) : Prop :=
  findSeq httpHead.needle buffer = none ∧ ∃ i, findSeq httpHead.needle (buffer ++ stream) = some i ∧
    i + 4 ≤ maxHttpHeaderSize ∧ maxHttpHeaderSize < i + 3 + 2048 ∧
    maxHttpHeaderSize < (buffer ++ stream).length

theorem httpHead_after {buffer : List UInt8} (h : buffer.length ≤ maxHttpHeaderSize) :
    httpHead.after buffer = .ok () := if_neg (Nat.not_lt.mpr h)

theorem httpHead_after_long {buffer : List UInt8} (h : maxHttpHeaderSize < buffer.length) :
    httpHead.after buffer = bail "HTTP header is too large" := if_pos h

theorem readHttpHead_found {buffer : List UInt8} {i : Nat} (h : findSeq httpHead.needle buffer = some i)
    (source : Source) :
    outcome (readHttpHead ⟨buffer, source⟩) =
      .ok (some (buffer.take i), buffer.drop (i + 4) ++ source.bytes) := by
  rw [readHttpHead, Scan.run_found h]
  rfl

theorem readHttpHead_within {s : Inbound} {i : Nat} (h : findSeq httpHead.needle s.bytes = some i)
    (hroom : i + 3 + 2048 ≤ maxHttpHeaderSize ∨ s.bytes.length ≤ maxHttpHeaderSize) :
    outcome (readHttpHead s) = .ok (some (s.bytes.take i), s.bytes.drop (i + 4)) := by
  refine Scan.run_eq_first (by decide) h (fun _ _ => rfl) ?_
  intro buffer hstart hlen
  have hlen : buffer.length < i + 4 + 2048 := hlen
  have := hstart.length_le
  exact httpHead_after (by omega)

theorem readHttpHead_eof {s : Inbound} (h : findSeq httpHead.needle s.bytes = none)
    (hshort : s.bytes.length ≤ maxHttpHeaderSize ∨ s.source.bytes = []) :
    outcome (readHttpHead s) = httpHead.eof s.bytes >>= fun result => .ok (result, s.bytes) := by
  refine Scan.run_eq_eof (by decide) h (fun _ _ => rfl) ?_
  intro buffer hstart hlonger
  have hle := hstart.length_le
  refine httpHead_after ?_
  rcases hshort with hshort | hnil
  · exact hle.trans hshort
  · rw [Inbound.bytes, hnil, List.append_nil] at hle
    omega

theorem readHttpHead_tooLarge {buffer : List UInt8} {source : Source} (hmore : source.bytes ≠ [])
    (hlong : maxHttpHeaderSize < (buffer ++ source.bytes).length)
    (hfree : ∀ start, start <+: buffer ++ source.bytes → start = buffer ∨ start.length ≤ maxHttpHeaderSize →
      findSeq httpHead.needle start = none) :
    readHttpHead ⟨buffer, source⟩ = bail "HTTP header is too large" := by
  refine Scan.run_eq_error (by decide)
    (P := fun start => start = buffer ∨ start.length ≤ maxHttpHeaderSize) (.inl rfl) ?_
  intro start rest hsplit hstart
  refine ⟨hfree start ⟨rest, hsplit⟩ hstart, .inr ⟨rfl, ?_, ?_⟩⟩
  · rintro rfl
    rw [List.append_nil] at hsplit
    rcases hstart with rfl | hshort
    · exact hmore (List.append_right_eq_self.mp hsplit.symm)
    · rw [hsplit] at hshort
      exact absurd hlong (Nat.not_lt.mpr hshort)
  · intro chunk _ _
    by_cases hlen : (start ++ chunk).length ≤ maxHttpHeaderSize
    · exact .inr ⟨httpHead_after hlen, .inr hlen⟩
    · exact .inl (httpHead_after_long (Nat.lt_of_not_le hlen))

theorem readHttpHead_cutFree {buffer stream : List UInt8} (h : ¬ HeadAtLimit buffer stream) :
    CutFree readHttpHead buffer stream := by
  cases hbuffer : findSeq httpHead.needle buffer with
  | some i =>
    refine cutFree_of_outcome (.ok (some (buffer.take i), buffer.drop (i + 4) ++ stream)) ?_
    rintro source rfl
    exact readHttpHead_found hbuffer source
  | none =>
    cases htotal : findSeq httpHead.needle (buffer ++ stream) with
    | some i =>
      have hend : i + 4 ≤ (buffer ++ stream).length := (findSeq_spec htotal).2
      by_cases hfits : i + 4 ≤ maxHttpHeaderSize
      -- the head is found before the limit is reached, or there are not enough bytes to reach it
      · have hroom : i + 3 + 2048 ≤ maxHttpHeaderSize ∨ (buffer ++ stream).length ≤ maxHttpHeaderSize := by
          by_contra hclose
          obtain ⟨hclose, hlong⟩ := not_or.mp hclose
          exact h ⟨hbuffer, i, htotal, hfits, by omega, by omega⟩
        refine cutFree_of_outcome (.ok (some ((buffer ++ stream).take i), (buffer ++ stream).drop (i + 4))) ?_
        rintro source rfl
        exact readHttpHead_within htotal hroom
      · refine cutFree_of_outcome (bail "HTTP header is too large") ?_
        rintro source rfl
        rw [readHttpHead_tooLarge ?_ (by omega) ?_]
        · rfl
        · intro hnil
          rw [hnil, List.append_nil, hbuffer] at htotal
          cases htotal
        · rintro start hstart (rfl | hshort)
          · exact hbuffer
          · refine findSeq_eq_none_of_short htotal hstart ?_
            change start.length < i + 4
            omega
    | none =>
      by_cases hshort : (buffer ++ stream).length ≤ maxHttpHeaderSize ∨ stream = []
      · refine cutFree_of_outcome (httpHead.eof (buffer ++ stream) >>= fun result =>
          .ok (result, buffer ++ stream)) ?_
        rintro source rfl
        exact readHttpHead_eof htotal hshort
      · obtain ⟨hlong, hmore⟩ := not_or.mp hshort
        refine cutFree_of_outcome (bail "HTTP header is too large") ?_
        rintro source rfl
        rw [readHttpHead_tooLarge hmore (Nat.lt_of_not_le hlong)]
        · rfl
        · exact fun start hstart _ => findSeq_eq_none_of_start htotal hstart

section
variable {buffer stream : List UInt8} {i : Nat} (htotal : findSeq httpHead.needle (buffer ++ stream) = some i)
include htotal

theorem readHttpHead_piece (hfits : i + 4 ≤ maxHttpHeaderSize) {n : Nat} (hn : buffer.length + n ≤ i + 4) :
    readHttpHead ⟨buffer, .ofPieces [stream.take n, stream.drop n]⟩ =
      readHttpHead ⟨buffer ++ stream.take n, .ofPieces [stream.drop n]⟩ := by
  refine Scan.run_piece (by decide) ?_ ?_
  · intro start hstart hlen
    refine ⟨findSeq_eq_none_of_short htotal ?_ ?_, rfl⟩
    · exact (List.prefix_append_right_inj buffer).mpr (hstart.trans (List.take_prefix n stream))
    · change (buffer ++ start).length < i + 4
      rw [List.length_append]
      rw [List.length_take] at hlen
      omega
  · intro start hstart
    have := hstart.length_le
    rw [List.length_take] at this
    refine httpHead_after ?_
    rw [List.length_append]
    omega

theorem readHttpHead_whole (hfits : i + 4 ≤ maxHttpHeaderSize) {n : Nat} (hn : buffer.length + n = i + 4) :
    outcome (readHttpHead ⟨buffer, .ofPieces [stream.take n, stream.drop n]⟩) =
      .ok (some ((buffer ++ stream.take n).take i), stream.drop n) := by
  have hstart : buffer ++ stream.take n <+: buffer ++ stream :=
    (List.prefix_append_right_inj buffer).mpr (List.take_prefix n stream)
  have hend : i + 4 ≤ (buffer ++ stream).length := (findSeq_spec htotal).2
  have hlen : (buffer ++ stream.take n).length = i + 4 := by
    rw [List.length_append] at hend ⊢
    rw [List.length_take]
    omega
  have hfound := findSeq_of_long htotal hstart hlen.ge
  rw [readHttpHead_piece htotal hfits hn.le, readHttpHead_found hfound, ← hlen, List.drop_length]
  simp

theorem readHttpHead_overrun (hfits : i + 4 ≤ maxHttpHeaderSize) (hclose : maxHttpHeaderSize < i + 3 + 2048)
    (hlong : maxHttpHeaderSize < (buffer ++ stream).length) {n : Nat} (hn : buffer.length + n = i + 3) :
    readHttpHead ⟨buffer, .ofPieces [stream.take n, stream.drop n]⟩ = bail "HTTP header is too large" := by
  rw [List.length_append] at hlong
  rw [readHttpHead_piece htotal hfits (by omega)]
  have hne : stream.drop n ≠ [] := by
    rw [Ne, List.drop_eq_nil_iff]
    omega
  have hread := Source.read_ofPieces hne [] httpHead.cap
  refine Scan.run_refused ?_ rfl ?_ (httpHead_after_long ?_)
  · refine findSeq_eq_none_of_short htotal
      ((List.prefix_append_right_inj buffer).mpr (List.take_prefix n stream)) ?_
    change _ < i + 4
    rw [List.length_append, List.length_take]
    omega
  · rw [hread]
    simp [hne, httpHead]
  · rw [hread]
    change _ < (buffer ++ stream.take n ++ (stream.drop n).take 2048).length
    simp only [List.length_append, List.length_take, List.length_drop]
    omega

end

theorem HeadAtLimit.not_cutFree {buffer stream : List UInt8} (h : HeadAtLimit buffer stream) :
    ¬ CutFree readHttpHead buffer stream := by
  obtain ⟨hbuffer, i, htotal, hfits, hclose, hlong⟩ := h
  have hbehind : buffer.length < i + 4 := by
    by_contra hle
    rw [findSeq_of_long htotal (List.prefix_append _ _) (Nat.le_of_not_lt hle)] at hbuffer
    cases hbuffer
  obtain ⟨n, hn⟩ := Nat.exists_eq_add_of_le (Nat.le_of_lt_succ hbehind)
  intro hfree
  have hsame := hfree (.ofPieces [stream.take (n + 1), stream.drop (n + 1)])
    (.ofPieces [stream.take n, stream.drop n]) (by simp) (by simp)
  rw [readHttpHead_whole htotal hfits (by omega),
    readHttpHead_overrun htotal hfits hclose hlong hn.symm] at hsame
  cases hsame

/-- The line ends behind the buffer, and the read that gets to its end can start within the limit
though the line does not stay within it. -/
def LineAtLimit (buffer stream : List UInt8) : Prop :=
  findSeq crlfLine.needle buffer = none ∧ buffer.length ≤ maxChunkLineSize ∧
    ∃ i, findSeq crlfLine.needle (buffer ++ stream) = some i ∧
      maxChunkLineSize + 1 < i + 2 ∧ i + 2 ≤ maxChunkLineSize + 1024

theorem crlfLine_before {buffer : List UInt8} (h : buffer.length ≤ maxChunkLineSize) :
    crlfLine.before buffer = .ok () := if_neg (Nat.not_lt.mpr h)

theorem crlfLine_before_long {buffer : List UInt8} (h : maxChunkLineSize < buffer.length) :
    crlfLine.before buffer = bail "HTTP chunk line is too large" := if_pos h

theorem readCrlfLine_found {buffer : List UInt8} {i : Nat} (h : findSeq crlfLine.needle buffer = some i)
    (source : Source) :
    outcome (readCrlfLine ⟨buffer, source⟩) =
      .ok (buffer.take i ++ crlfBytes, buffer.drop (i + 2) ++ source.bytes) := by
  rw [readCrlfLine, Scan.run_found h]
  rfl

theorem readCrlfLine_tooLarge {buffer : List UInt8} {source : Source}
    (hlong : maxChunkLineSize < (buffer ++ source.bytes).length)
    (hfree : ∀ start, start <+: buffer ++ source.bytes →
      start = buffer ∨ start.length ≤ maxChunkLineSize + 1024 → findSeq crlfLine.needle start = none) :
    readCrlfLine ⟨buffer, source⟩ = bail "HTTP chunk line is too large" := by
  refine Scan.run_eq_error (by decide)
    (P := fun start => start = buffer ∨ start.length ≤ maxChunkLineSize + 1024) (.inl rfl) ?_
  intro start rest hsplit hstart
  refine ⟨hfree start ⟨rest, hsplit⟩ hstart, ?_⟩
  by_cases hlen : start.length ≤ maxChunkLineSize
  · refine .inr ⟨crlfLine_before hlen, ?_, fun chunk _ hchunk => .inr ⟨rfl, .inr ?_⟩⟩
    · rintro rfl
      rw [List.append_nil] at hsplit
      rw [hsplit] at hlen
      exact absurd hlong (Nat.not_lt.mpr hlen)
    · rw [List.length_append]
      exact Nat.add_le_add hlen hchunk
  · exact .inl (crlfLine_before_long (Nat.lt_of_not_le hlen))

theorem readCrlfLine_far {buffer : List UInt8} {source : Source} {i : Nat}
    (hbuffer : findSeq crlfLine.needle buffer = none)
    (htotal : findSeq crlfLine.needle (buffer ++ source.bytes) = some i) (hfar : maxChunkLineSize + 1024 < i + 2) :
    readCrlfLine ⟨buffer, source⟩ = bail "HTTP chunk line is too large" := by
  have hend : i + 2 ≤ (buffer ++ source.bytes).length := (findSeq_spec htotal).2
  have hover : maxChunkLineSize < i + 2 := Nat.lt_of_le_of_lt (Nat.le_add_right _ _) hfar
  apply readCrlfLine_tooLarge (Nat.lt_of_lt_of_le hover hend)
  rintro start hstart (rfl | hshort)
  · exact hbuffer
  · refine findSeq_eq_none_of_short htotal hstart ?_
    change start.length < i + 2
    omega

theorem cutFree_of_tooLarge {buffer stream : List UInt8}
    (h : ∀ source : Source, source.bytes = stream →
      readCrlfLine ⟨buffer, source⟩ = bail "HTTP chunk line is too large") : CutFree readCrlfLine buffer stream := by
  refine cutFree_of_outcome (bail "HTTP chunk line is too large") fun source hsource => ?_
  rw [h source hsource]
  rfl

theorem readCrlfLine_cutFree {buffer stream : List UInt8} (h : ¬ LineAtLimit buffer stream) :
    CutFree readCrlfLine buffer stream := by
  cases hbuffer : findSeq crlfLine.needle buffer with
  | some i =>
    refine cutFree_of_outcome (.ok (buffer.take i ++ crlfBytes, buffer.drop (i + 2) ++ stream)) ?_
    rintro source rfl
    exact readCrlfLine_found hbuffer source
  | none =>
    cases htotal : findSeq crlfLine.needle (buffer ++ stream) with
    | some i =>
      by_cases hfits : i + 2 ≤ maxChunkLineSize + 1
      · refine cutFree_of_outcome
          (.ok ((buffer ++ stream).take i ++ crlfBytes, (buffer ++ stream).drop (i + 2))) ?_
        rintro source rfl
        refine Scan.run_eq_first (s := ⟨buffer, source⟩) (by decide) htotal ?_ (fun _ _ _ => rfl)
        intro start hlen
        have hlen : start.length < i + 2 := hlen
        exact crlfLine_before (by omega)
      · apply cutFree_of_tooLarge
        rintro source rfl
        by_cases hfull : maxChunkLineSize < buffer.length
        · exact Scan.run_refused_before hbuffer (crlfLine_before_long hfull)
        · apply readCrlfLine_far hbuffer htotal
          by_contra hnear
          exact h ⟨hbuffer, Nat.le_of_not_lt hfull, i, htotal, Nat.lt_of_not_le hfits, Nat.le_of_not_lt hnear⟩
    | none =>
      by_cases hshort : (buffer ++ stream).length ≤ maxChunkLineSize
      · refine cutFree_of_outcome (bail "unexpected EOF while reading chunked body") ?_
        rintro source rfl
        refine Scan.run_eq_eof (s := ⟨buffer, source⟩) (by decide) htotal ?_ (fun _ _ _ => rfl)
        exact fun start hstart => crlfLine_before (hstart.length_le.trans hshort)
      · apply cutFree_of_tooLarge
        rintro source rfl
        refine readCrlfLine_tooLarge (Nat.lt_of_not_le hshort) ?_
        exact fun start hstart _ => findSeq_eq_none_of_start htotal hstart

section
variable {buffer stream : List UInt8} {i : Nat} (htotal : findSeq crlfLine.needle (buffer ++ stream) = some i)
  (hover : maxChunkLineSize + 1 < i + 2)
include htotal hover

theorem readCrlfLine_noEnd {n : Nat} (hn : buffer.length + n ≤ maxChunkLineSize + 1) :
    findSeq crlfLine.needle (buffer ++ stream.take n) = none := by
  refine findSeq_eq_none_of_short htotal
    ((List.prefix_append_right_inj buffer).mpr (List.take_prefix n stream)) ?_
  change _ < i + 2
  rw [List.length_append, List.length_take]
  omega

theorem readCrlfLine_piece {n : Nat} (hn : buffer.length + n ≤ maxChunkLineSize + 1)
    (rest : List (List UInt8)) :
    readCrlfLine ⟨buffer, .ofPieces (stream.take n :: rest)⟩ =
      readCrlfLine ⟨buffer ++ stream.take n, .ofPieces rest⟩ := by
  refine Scan.run_piece (by decide) ?_ (fun _ _ => rfl)
  intro start hstart hlen
  rw [List.length_take] at hlen
  refine ⟨findSeq_eq_none_of_short htotal ?_ ?_, crlfLine_before ?_⟩
  · exact (List.prefix_append_right_inj buffer).mpr (hstart.trans (List.take_prefix n stream))
  · change (buffer ++ start).length < i + 2
    rw [List.length_append]
    omega
  · rw [List.length_append]
    omega

theorem readCrlfLine_overrun {n : Nat} (hn : buffer.length + n = maxChunkLineSize + 1) :
    readCrlfLine ⟨buffer, .ofPieces [stream.take n, stream.drop n]⟩ =
      bail "HTTP chunk line is too large" := by
  have hend : i + 2 ≤ (buffer ++ stream).length := (findSeq_spec htotal).2
  rw [List.length_append] at hend
  rw [readCrlfLine_piece htotal hover hn.le]
  refine Scan.run_refused_before (readCrlfLine_noEnd htotal hover hn.le) (crlfLine_before_long ?_)
  rw [List.length_append, List.length_take]
  omega

theorem readCrlfLine_whole (hnear : i + 2 ≤ maxChunkLineSize + 1024) {n m : Nat}
    (hn : buffer.length + n = maxChunkLineSize) (hm : maxChunkLineSize + m = i + 2) :
    outcome (readCrlfLine ⟨buffer,
        .ofPieces [stream.take n, (stream.drop n).take m, (stream.drop n).drop m]⟩) =
      .ok ((buffer ++ stream.take (n + m)).take i ++ crlfBytes, stream.drop (n + m)) := by
  have hend : i + 2 ≤ (buffer ++ stream).length := (findSeq_spec htotal).2
  rw [List.length_append] at hend
  have hlen : ((stream.drop n).take m).length = m := by
    rw [List.length_take, List.length_drop]
    omega
  have hne : (stream.drop n).take m ≠ [] := by
    rw [← List.length_pos_iff, hlen]
    omega
  have hcap : ((stream.drop n).take m).length ≤ crlfLine.cap := by
    rw [hlen]
    change m ≤ 1024
    omega
  have hread := Source.read_ofPieces hne [(stream.drop n).drop m] crlfLine.cap
  rw [List.take_of_length_le hcap, List.drop_eq_nil_of_le hcap] at hread
  have hbefore : crlfLine.before (buffer ++ stream.take n) = .ok () := by
    refine crlfLine_before ?_
    rw [List.length_append, List.length_take]
    omega
  have hnone : findSeq crlfLine.needle (buffer ++ stream.take n) = none :=
    readCrlfLine_noEnd htotal hover (by omega)
  have hwhole : buffer ++ stream.take n ++ (stream.drop n).take m = buffer ++ stream.take (n + m) := by
    rw [List.append_assoc, List.take_add]
  have hall : (buffer ++ stream.take (n + m)).length = i + 2 := by
    rw [List.length_append, List.length_take]
    omega
  have hfound : findSeq crlfLine.needle (buffer ++ stream.take (n + m)) = some i :=
    findSeq_of_long htotal ((List.prefix_append_right_inj buffer).mpr (List.take_prefix _ stream)) hall.ge
  rw [readCrlfLine_piece htotal hover (by omega), readCrlfLine,
    Scan.run_read hnone hbefore (by rw [hread]; exact hne) rfl, hread]
  dsimp only
  rw [hwhole, ← readCrlfLine, readCrlfLine_found hfound, ← hall, List.drop_length]
  simp

end

theorem LineAtLimit.not_cutFree {buffer stream : List UInt8} (h : LineAtLimit buffer stream) :
    ¬ CutFree readCrlfLine buffer stream := by
  obtain ⟨hbuffer, hroom, i, htotal, hover, hnear⟩ := h
  obtain ⟨n, hn⟩ := Nat.exists_eq_add_of_le hroom
  obtain ⟨m, hm⟩ := Nat.exists_eq_add_of_le (Nat.le_of_succ_le (Nat.le_of_lt hover))
  intro hfree
  have hsame := hfree (.ofPieces [stream.take n, (stream.drop n).take m, (stream.drop n).drop m])
    (.ofPieces [stream.take (n + 1), stream.drop (n + 1)]) (by simp) (by simp)
  rw [readCrlfLine_whole htotal hover hnear hn.symm hm.symm,
    readCrlfLine_overrun htotal hover (by omega)] at hsame
  cases hsame

/-- What the readers return depends on where the stream is cut exactly at their limits. -/
theorem cutFree_iff (buffer stream : List UInt8) :
    (CutFree readHttpHead buffer stream ↔ ¬ HeadAtLimit buffer stream) ∧
      (CutFree readCrlfLine buffer stream ↔ ¬ LineAtLimit buffer stream) :=
  ⟨⟨fun hfree h => h.not_cutFree hfree, readHttpHead_cutFree⟩,
    ⟨fun hfree h => h.not_cutFree hfree, readCrlfLine_cutFree⟩⟩

def fullHead : List UInt8 := List.replicate 65532 97 ++ [13, 10, 13, 10, 98]

def fullLine : List UInt8 := List.replicate 8192 97 ++ [13, 10]

/-- The head is accepted when a read ends with it, and refused when its last byte arrives with the
byte behind it; the line is accepted when its end arrives at once, and refused when it does not. -/
theorem cuts_decide :
    outcome (readHttpHead ⟨[], .ofPieces [fullHead.take 65536, fullHead.drop 65536]⟩) =
        .ok (some ((fullHead.take 65536).take 65532), fullHead.drop 65536) ∧
      readHttpHead ⟨[], .ofPieces [fullHead.take 65535, fullHead.drop 65535]⟩ =
        bail "HTTP header is too large" ∧
      outcome (readCrlfLine ⟨[], .ofPieces [fullLine.take 8192, (fullLine.drop 8192).take 2,
          (fullLine.drop 8192).drop 2]⟩) =
        .ok ((fullLine.take (8192 + 2)).take 8192 ++ crlfBytes, fullLine.drop (8192 + 2)) ∧
      readCrlfLine ⟨[], .ofPieces [fullLine.take 8193, fullLine.drop 8193]⟩ =
        bail "HTTP chunk line is too large" := by
  have hplain : ∀ n, 13 ∉ List.replicate n (97 : UInt8) := by
    intro n hmem
    exact absurd (List.eq_of_mem_replicate hmem) (by decide)
  have hhead : findSeq httpHead.needle ([] ++ fullHead) = some 65532 := by
    rw [List.nil_append, fullHead, show httpHead.needle = [13, 10, 13, 10] from rfl, findSeq_skip (hplain _),
      findSeq_of_start (by decide), Option.map_some, List.length_replicate, Nat.zero_add]
  have hline : findSeq crlfLine.needle ([] ++ fullLine) = some 8192 := by
    rw [List.nil_append, fullLine, show crlfLine.needle = [13, 10] from rfl, findSeq_skip (hplain _),
      findSeq_of_start (by decide), Option.map_some, List.length_replicate, Nat.zero_add]
  have hlong : maxHttpHeaderSize < ([] ++ fullHead).length := by
    rw [List.nil_append, fullHead, List.length_append, List.length_replicate]
    decide
  exact ⟨readHttpHead_whole hhead (by decide) rfl,
    readHttpHead_overrun hhead (by decide) (by decide) hlong rfl,
    readCrlfLine_whole hline (by decide) (by decide) rfl rfl, readCrlfLine_overrun hline (by decide) rfl⟩

end Hysteria.App.HttpProxy
