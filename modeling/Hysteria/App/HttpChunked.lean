import Hysteria.Lib.Percent
import Hysteria.App.HttpProxy

/-! The chunked bodies that the proxy forwards, against `chunked-body` of RFC 9112, section 7.1. It
forwards every such body as it is. It also takes sizes with a sign or with white space around them,
and any two bytes in place of the line end behind a chunk; where it meets none of these, what it
forwards is a chunked body. -/
namespace Hysteria.App.HttpProxy
open Lib

def IsLine (line : List UInt8) : Prop := ¬ crlfBytes <:+: line

theorem isLine_of_noReturn {line : List UInt8} (h : 13 ∉ line) : IsLine line :=
  fun hend => h (hend.subset (by simp [crlfBytes]))

theorem isLine_nil : IsLine [] := isLine_of_noReturn List.not_mem_nil

theorem findSeq_line {line : List UInt8} (h : IsLine line) (tail : List UInt8) :
    findSeq crlfLine.needle (line ++ crlfBytes ++ tail) = some line.length :=
  findSeq_pair (by decide) h tail

theorem line_inj {line line' tail tail' : List UInt8} (hline : IsLine line) (hline' : IsLine line')
    (h : line ++ crlfBytes ++ tail = line' ++ crlfBytes ++ tail') : line = line' ∧ tail = tail' := by
  have hlen : line.length = line'.length := by
    have hfound := findSeq_line hline tail
    rw [h, findSeq_line hline' tail'] at hfound
    exact (Option.some.inj hfound).symm
  rw [List.append_assoc, List.append_assoc] at h
  obtain ⟨hsame, htail⟩ := List.append_inj h hlen
  exact ⟨hsame, List.append_cancel_left htail⟩

theorem readCrlfLine_eq {s : Inbound} {line tail : List UInt8} (hline : IsLine line)
    (hshort : line.length < maxChunkLineSize) (hbytes : s.bytes = line ++ crlfBytes ++ tail) :
    ∃ s', readCrlfLine s = .ok (line ++ crlfBytes, s') ∧ s'.bytes = tail := by
  have hfirst : findSeq crlfLine.needle (line ++ crlfLine.needle) = some line.length := by
    have hfound := findSeq_line hline []
    rwa [List.append_nil] at hfound
  have hbefore : ∀ buffer : List UInt8, buffer.length < line.length + crlfLine.needle.length →
      crlfLine.before buffer = .ok () := by
    intro buffer hlen
    have hlen : buffer.length < line.length + 2 := hlen
    exact if_neg (by omega)
  exact Scan.run_eq_found (by decide) hbytes hfirst hbefore (fun _ _ _ => rfl)

theorem readCrlfLine_ok {s s' : Inbound} {read : List UInt8} (h : readCrlfLine s = .ok (read, s')) :
    ∃ line, read = line ++ crlfBytes ∧ IsLine line ∧ s.bytes = line ++ crlfBytes ++ s'.bytes := by
  rcases Scan.run_ok h with ⟨line, hfirst, hread, hbytes⟩ | ⟨heof, -⟩
  · refine ⟨line, hread, ?_, hbytes⟩
    have hbytes : s.bytes = line ++ (crlfBytes ++ s'.bytes) := by rw [← List.append_assoc]; exact hbytes
    refine findSeq_eq_none_iff.mp (findSeq_eq_none_of_short hfirst ⟨_, hbytes.symm⟩ ?_)
    exact Nat.lt_add_of_pos_right (by decide)
  · cases heof

abbrev Short (line : List UInt8) : Prop := line.length < maxChunkLineSize

/-- `chunk-size [chunk-ext]`: hexadecimal digits, and behind them nothing, or a semicolon and
anything more, with white space before it. -/
def SizeLine (line : List UInt8) (size : Nat) : Prop :=
  IsLine line ∧ Short line ∧
    ∃ digits extension, line = utf8 digits ++ extension ∧ numeral 16 digits = some size ∧
      (extension = [] ∨ ∃ blank rest, extension = blank ++ 59 :: rest ∧ ∀ b ∈ blank, b = 32 ∨ b = 9)

/-- `trailer-section CRLF`: lines with `P`, and an empty one. -/
inductive Trailers (P : List UInt8 → Prop) : List UInt8 → Prop
  | last : Trailers P crlfBytes
  | more {line rest : List UInt8} (hline : IsLine line) (hne : line ≠ []) (hP : P line)
      (hrest : Trailers P rest) : Trailers P (line ++ crlfBytes ++ rest)

/-- `chunked-body`, with sizes and lines within the limits of the proxy. -/
inductive Chunked : List UInt8 → Prop
  | last {line trailers : List UInt8} (hline : SizeLine line 0) (htrailers : Trailers Short trailers) :
      Chunked (line ++ crlfBytes ++ trailers)
  | chunk {line data rest : List UInt8} (hline : SizeLine line data.length) (hne : data ≠ [])
      (hsize : data.length + 2 < usizeSize) (hrest : Chunked rest) :
      Chunked (line ++ crlfBytes ++ (data ++ crlfBytes ++ rest))

/-- What the proxy takes for a chunked body, made of lines with `P`. -/
inductive Accepted (profile : Profile) (P : List UInt8 → Prop) : List UInt8 → Prop
  | last {line trailers : List UInt8} (hline : IsLine line) (hP : P line)
      (hsize : chunkLength (line ++ crlfBytes) = .ok 0) (htrailers : Trailers P trailers) :
      Accepted profile P (line ++ crlfBytes ++ trailers)
  | chunk {line data rest : List UInt8} {n : Nat} (hline : IsLine line) (hP : P line)
      (hsize : chunkLength (line ++ crlfBytes) = .ok n) (hpos : n ≠ 0)
      (hcount : (addUsize profile n 2 : Exec String Nat) = .ok data.length) (hrest : Accepted profile P rest) :
      Accepted profile P (line ++ crlfBytes ++ (data ++ rest))

theorem Accepted.ne_nil {profile : Profile} {P : List UInt8 → Prop} {body : List UInt8}
    (h : Accepted profile P body) : body ≠ [] := by
  cases h <;> simp [crlfBytes]

theorem transferTrailers_ok {s s' : Inbound} {sent : List UInt8}
    (h : transferTrailers s = .ok (sent, s')) : Trailers (fun _ => True) sent := by
  fun_induction transferTrailers s generalizing sent with
  | case1 => cases h
  | case2 s rest hread =>
    cases h
    exact .last
  | case3 => cases h
  | case4 s trailer rest hread hne trailers last htrailers ih =>
    cases h
    obtain ⟨line, rfl, hline, -⟩ := readCrlfLine_ok hread
    refine .more hline ?_ trivial (ih htrailers)
    rintro rfl
    exact hne rfl

theorem transferChunkedBody_accepted {profile : Profile} {s s' : Inbound} {sent : List UInt8}
    (h : transferChunkedBody profile s = .ok (sent, s')) : Accepted profile (fun _ => True) sent := by
  fun_induction transferChunkedBody profile s generalizing sent with
  | case1 => cases h
  | case2 => cases h
  | case3 => cases h
  | case4 s line rest hread hsize trailers last htrailers =>
    cases h
    obtain ⟨line, rfl, hline, -⟩ := readCrlfLine_ok hread
    exact .last hline trivial hsize (transferTrailers_ok htrailers)
  | case5 => cases h
  | case6 => cases h
  | case7 s line rest hread n hsize count hcount chunk body last hbody =>
    rename_i ih
    cases h
    obtain ⟨line, rfl, hline, -⟩ := readCrlfLine_ok hread
    have haccepted := ih hbody
    obtain ⟨hsent, hleft⟩ := transferExactBytes_eq rest count
    -- a body follows the chunk, so the chunk was not cut short
    have hlen : chunk.1.length = count := by
      have hmore : rest.bytes.drop count ≠ [] := by
        rw [← hleft, transferChunkedBody_bytes hbody]
        simp [haccepted.ne_nil]
      rw [Ne, List.drop_eq_nil_iff] at hmore
      rw [hsent, List.length_take]
      omega
    rw [List.append_assoc]
    exact .chunk hline trivial hsize n.succ_ne_zero (hlen ▸ hcount) haccepted

theorem Trailers.transfer {s : Inbound} {trailers tail : List UInt8} (h : Trailers Short trailers)
    (hbytes : s.bytes = trailers ++ tail) :
    ∃ s', transferTrailers s = .ok (trailers, s') ∧ s'.bytes = tail := by
  induction h generalizing s with
  | last =>
    obtain ⟨s', hline, htail⟩ := readCrlfLine_eq isLine_nil (by decide) hbytes
    exact ⟨s', transferTrailers_last hline, htail⟩
  | more hline hne hshort _ ih =>
    rw [List.append_assoc] at hbytes
    obtain ⟨s₁, hread, hrest⟩ := readCrlfLine_eq hline hshort hbytes
    obtain ⟨s₂, hmore, htail⟩ := ih hrest
    exact ⟨s₂, transferTrailers_more hread (by simpa using hne) hmore, htail⟩

theorem Accepted.transfer {profile : Profile} {s : Inbound} {body tail : List UInt8}
    (h : Accepted profile Short body) (hbytes : s.bytes = body ++ tail) :
    ∃ s', transferChunkedBody profile s = .ok (body, s') ∧ s'.bytes = tail := by
  induction h generalizing s with
  | @last line trailers hline hshort hsize htrailers =>
    rw [List.append_assoc] at hbytes
    obtain ⟨s₁, hread, hrest⟩ := readCrlfLine_eq hline hshort hbytes
    obtain ⟨s₂, hsent, htail⟩ := htrailers.transfer hrest
    exact ⟨s₂, transferChunkedBody_last hread hsize hsent, htail⟩
  | @chunk line data rest n hline hshort hsize hpos hcount _ ih =>
    rw [List.append_assoc (line ++ crlfBytes), List.append_assoc data] at hbytes
    obtain ⟨s₁, hread, hrest⟩ := readCrlfLine_eq hline hshort hbytes
    obtain ⟨hsent, hleft⟩ := transferExactBytes_eq s₁ data.length
    rw [hrest, List.take_left] at hsent
    rw [hrest, List.drop_left] at hleft
    obtain ⟨s₂, hmore, htail⟩ := ih hleft
    refine ⟨s₂, ?_, htail⟩
    rw [transferChunkedBody_more hread hsize hpos hcount hmore, hsent, List.append_assoc]

theorem utf8_eq_blank {text : Text} {blank rest : List UInt8} (hblank : ∀ b ∈ blank, b = 32 ∨ b = 9)
    (h : utf8 text = blank ++ 59 :: rest) :
    ∃ before after, text = before ++ ';' :: after ∧ ∀ c ∈ before, isWhitespace c := by
  induction blank generalizing text with
  | nil =>
    obtain ⟨after, rfl, -⟩ := utf8_eq_cons (c := ';') rfl (by decide) h
    exact ⟨[], after, rfl, nofun⟩
  | cons b blank ih =>
    obtain ⟨hb, hblank⟩ := List.forall_mem_cons.mp hblank
    obtain ⟨c, hc, hspace⟩ : ∃ c : Char, c.toNat = b.toNat ∧ isWhitespace c := by
      rcases hb with rfl | rfl
      · exact ⟨' ', rfl, by decide⟩
      · exact ⟨'\t', rfl, by decide⟩
    obtain ⟨text, rfl, htext⟩ := utf8_eq_cons hc (by rcases hb with rfl | rfl <;> decide) h
    obtain ⟨before, after, rfl, hbefore⟩ := ih hblank htext
    exact ⟨c :: before, after, rfl, List.forall_mem_cons.mpr ⟨hspace, hbefore⟩⟩

theorem chunkLength_eq {digits : Text} {extension : List UInt8} {size : Nat}
    (hdigits : numeral 16 digits = some size)
    (hplain : extension = [] ∨ ∃ blank rest, extension = blank ++ 59 :: rest ∧ ∀ b ∈ blank, b = 32 ∨ b = 9)
    (hsize : size < 2 ^ 64) (htext : ∃ text, extension = utf8 text) :
    chunkLength (utf8 digits ++ extension ++ crlfBytes) = .ok size := by
  obtain ⟨text, rfl⟩ := htext
  obtain ⟨-, hall⟩ := numeral_digits hdigits
  have htake : (utf8 digits ++ utf8 text ++ crlfBytes).take
      ((utf8 digits ++ utf8 text ++ crlfBytes).length - 2) = utf8 (digits ++ text) := by
    rw [List.length_append, show crlfBytes.length = 2 from rfl, Nat.add_sub_cancel, List.take_left,
      utf8_append]
  have hnumber : trim (((digits ++ text).splitOn ';').headD []) = digits := by
    have hsemi : ';' ∉ digits := fun hmem => absurd (hall ';' hmem) (by decide)
    have htrimmed : Trimmed isWhitespace digits :=
      .of_forall fun c hmem => not_isWhitespace_of_toDigit (hall c hmem)
    rcases hplain with hnone | ⟨blank, rest, hext, hblank⟩
    · have hempty : text = [] := by
        by_contra hne
        exact utf8_ne_nil hne hnone
      rw [hempty, List.append_nil, List.splitOn_eq_singleton hsemi]
      exact htrimmed.eq
    · obtain ⟨before, after, rfl, hbefore⟩ := utf8_eq_blank hblank hext
      have hsemi' : ';' ∉ digits ++ before := by
        rw [List.mem_append]
        rintro (hmem | hmem)
        · exact hsemi hmem
        · exact absurd (hbefore ';' hmem) (by decide)
      rw [← List.append_assoc, List.splitOn_append_cons_self_of_not_mem hsemi']
      have htrim : trimBy isWhitespace ([] ++ digits ++ before) = digits :=
        trimBy_eq nofun htrimmed hbefore
      exact htrim
  have hvalue := fromStrRadix_of_numeral (by decide) hdigits hsize
  rw [chunkLength, htake, fromUtf8_utf8]
  simp only [orBail, ok_bind, hnumber, hvalue]

theorem SizeLine.chunkLength {line : List UInt8} {size : Nat} (h : SizeLine line size)
    (hsize : size + 2 < usizeSize) (hascii : ∀ b ∈ line, b.toNat < 128) :
    chunkLength (line ++ crlfBytes) = .ok size := by
  obtain ⟨-, -, digits, extension, rfl, hdigits, hplain⟩ := h
  have htext : ∃ text, extension = utf8 text :=
    ⟨asciiText extension, (utf8_asciiText fun b hmem => hascii b (List.mem_append_right _ hmem)).symm⟩
  exact chunkLength_eq hdigits hplain (by rw [usizeSize] at hsize; omega) htext

/-- What is left of an input behind some chunks, each a line with a size and as many bytes as it
says, and two more. -/
inductive Behind (input : List UInt8) : List UInt8 → Prop
  | start : Behind input input
  | next {line data rest : List UInt8} {n : Nat} (h : Behind input (line ++ crlfBytes ++ (data ++ rest)))
      (hline : IsLine line) (hsize : chunkLength (line ++ crlfBytes) = .ok n) (hpos : n ≠ 0)
      (hdata : data.length = n + 2) : Behind input rest

theorem Behind.append {input left : List UInt8} (h : Behind input left) (tail : List UInt8) :
    Behind (input ++ tail) (left ++ tail) := by
  induction h with
  | start => exact .start
  | @next line data rest n _ hline hsize hpos hdata ih =>
    rw [List.append_assoc (line ++ crlfBytes), List.append_assoc data] at ih
    exact ih.next hline hsize hpos hdata

def AsciiSizes (input : List UInt8) : Prop :=
  ∀ {line tail : List UInt8}, Behind input (line ++ crlfBytes ++ tail) → IsLine line →
    ∀ b ∈ line, b.toNat < 128

/-- The proxy had no occasion to be lenient: a line it has taken a size from is the line of a chunk, the
data of a chunk are followed by a line end, and the lines behind the last chunk are short. -/
structure Regular (input : List UInt8) : Prop where
  size {line tail : List UInt8} {n : Nat} : Behind input (line ++ crlfBytes ++ tail) → IsLine line →
    chunkLength (line ++ crlfBytes) = .ok n → SizeLine line n ∧ n + 2 < usizeSize
  dataEnd {line data tail : List UInt8} {n : Nat} : Behind input (line ++ crlfBytes ++ (data ++ tail)) →
    IsLine line → chunkLength (line ++ crlfBytes) = .ok n → n ≠ 0 → data.length = n + 2 →
    crlfBytes <:+ data
  trailer {line trailer tail : List UInt8} {lines : List (List UInt8)} :
    Behind input (line ++ crlfBytes ++ (lines.flatMap (· ++ crlfBytes) ++ (trailer ++ crlfBytes ++ tail))) →
    IsLine line → chunkLength (line ++ crlfBytes) = .ok 0 → (∀ line ∈ lines, IsLine line ∧ line ≠ []) →
    IsLine trailer → Short trailer

theorem Trailers.short {input line trailers tail : List UInt8} {lines : List (List UInt8)}
    (hregular : Regular input) (hline : IsLine line) (hsize : chunkLength (line ++ crlfBytes) = .ok 0)
    (hlines : ∀ line ∈ lines, IsLine line ∧ line ≠ []) (htrailers : Trailers (fun _ => True) trailers)
    (hbehind : Behind input (line ++ crlfBytes ++ (lines.flatMap (· ++ crlfBytes) ++ (trailers ++ tail)))) :
    Trailers Short trailers := by
  induction htrailers generalizing lines with
  | last => exact .last
  | @more trailer rest htrailer hne _ _ ih =>
    rw [List.append_assoc _ rest] at hbehind
    have hmore : ∀ line ∈ lines ++ [trailer], IsLine line ∧ line ≠ [] := by
      intro line hmem
      rcases List.mem_append.mp hmem with hmem | hmem
      · exact hlines line hmem
      · exact List.mem_singleton.mp hmem ▸ ⟨htrailer, hne⟩
    have hrest : Behind input (line ++ crlfBytes ++
        ((lines ++ [trailer]).flatMap (· ++ crlfBytes) ++ (rest ++ tail))) := by
      simpa using hbehind
    exact .more htrailer hne (hregular.trailer hbehind hline hsize hlines htrailer) (ih hmore hrest)

theorem Accepted.chunked {profile : Profile} {input body tail : List UInt8} (hregular : Regular input)
    (hbody : Accepted profile (fun _ => True) body) (hbehind : Behind input (body ++ tail)) : Chunked body := by
  induction hbody with
  | @last line trailers hline _ hsize htrailers =>
    rw [List.append_assoc] at hbehind
    obtain ⟨hsizeLine, -⟩ := hregular.size hbehind hline hsize
    exact .last hsizeLine (@Trailers.short input line trailers tail [] hregular hline hsize nofun htrailers hbehind)
  | @chunk line data rest n hline _ hsize hpos hcount _ ih =>
    rw [List.append_assoc (line ++ crlfBytes), List.append_assoc data] at hbehind
    obtain ⟨hsizeLine, hsmall⟩ := hregular.size hbehind hline hsize
    rw [addUsize_ok profile hsmall] at hcount
    have hdata : data.length = n + 2 := (Except.ok.inj hcount).symm
    obtain ⟨data, rfl⟩ := hregular.dataEnd hbehind hline hsize hpos hdata
    obtain rfl : data.length = n := by
      rw [List.length_append] at hdata
      exact Nat.add_right_cancel hdata
    have hne : data ≠ [] := List.ne_nil_of_length_pos (Nat.pos_of_ne_zero hpos)
    exact .chunk hsizeLine hne hsmall (ih (hbehind.next hline hsize hpos hdata))

theorem Chunked.accepted (profile : Profile) {input body tail : List UInt8} (hascii : AsciiSizes input)
    (hbody : Chunked body) (hbehind : Behind input (body ++ tail)) : Accepted profile Short body := by
  induction hbody with
  | @last line trailers hline htrailers =>
    rw [List.append_assoc] at hbehind
    exact .last hline.1 hline.2.1 (hline.chunkLength (by decide) (hascii hbehind hline.1)) htrailers
  | @chunk line data rest hline hne hsmall _ ih =>
    rw [List.append_assoc (line ++ crlfBytes), List.append_assoc (data ++ crlfBytes)] at hbehind
    have hsize := hline.chunkLength hsmall (hascii hbehind hline.1)
    have hpos : data.length ≠ 0 := (List.length_pos_iff.mpr hne).ne'
    have hdata : (data ++ crlfBytes).length = data.length + 2 := List.length_append
    have hcount : (addUsize profile data.length 2 : Exec String Nat) = .ok (data ++ crlfBytes).length := by
      rw [hdata, addUsize_ok profile hsmall]
    exact .chunk hline.1 hline.2.1 hsize hpos hcount (ih (hbehind.next hline.1 hsize hpos hdata))

theorem Chunked.start {body rest line tail : List UInt8} (h : Chunked body) (hline : IsLine line)
    (hsplit : line ++ crlfBytes ++ tail = body ++ rest) :
    (SizeLine line 0 ∧ ∃ trailers, Trailers Short trailers ∧ tail = trailers ++ rest) ∨
      ∃ data more, SizeLine line data.length ∧ data ≠ [] ∧ data.length + 2 < usizeSize ∧ Chunked more ∧
        tail = data ++ crlfBytes ++ (more ++ rest) := by
  cases h with
  | last hlast htrailers =>
    rw [List.append_assoc _ _ rest] at hsplit
    obtain ⟨rfl, htail⟩ := line_inj hline hlast.1 hsplit
    exact .inl ⟨hlast, _, htrailers, htail⟩
  | @chunk line' data more hsized hne hsize hmore =>
    rw [List.append_assoc _ _ rest, List.append_assoc _ _ rest] at hsplit
    obtain ⟨rfl, htail⟩ := line_inj hline hsized.1 hsplit
    exact .inr ⟨data, more, hsized, hne, hsize, hmore, htail⟩

/-- What a chunked body looks like behind the line from which a size is taken. -/
theorem Chunked.sized {line tail : List UInt8} {n : Nat} (h : Chunked (line ++ crlfBytes ++ tail)) (hline : IsLine line)
    (hascii : ∀ b ∈ line, b.toNat < 128) (hsize : chunkLength (line ++ crlfBytes) = .ok n) :
    SizeLine line n ∧ n + 2 < usizeSize ∧
      (n = 0 ∧ Trailers Short tail ∨
        n ≠ 0 ∧ ∃ data more, (data ++ crlfBytes).length = n + 2 ∧ Chunked more ∧ tail = data ++ crlfBytes ++ more) := by
  rcases h.start hline (List.append_nil _).symm with
    ⟨hlast, trailers, htrailers, rfl⟩ | ⟨data, more, hchunk, hne, hsmall, hmore, rfl⟩
  · rw [hlast.chunkLength (by decide) hascii] at hsize
    obtain rfl := Except.ok.inj hsize
    rw [List.append_nil]
    exact ⟨hlast, by decide, .inl ⟨rfl, htrailers⟩⟩
  · rw [hchunk.chunkLength hsmall hascii] at hsize
    obtain rfl := Except.ok.inj hsize
    rw [List.append_nil]
    exact ⟨hchunk, hsmall, .inr ⟨(List.length_pos_iff.mpr hne).ne', data, more, List.length_append, hmore, rfl⟩⟩

theorem AsciiSizes.of_append {body tail : List UInt8} (h : AsciiSizes (body ++ tail)) : AsciiSizes body := by
  intro line rest hbehind hline
  have hmore := hbehind.append tail
  rw [List.append_assoc (line ++ crlfBytes)] at hmore
  exact h hmore hline

theorem Chunked.behind {body left : List UInt8} (hbody : Chunked body) (hascii : AsciiSizes body)
    (h : Behind body left) : Chunked left := by
  induction h with
  | start => exact hbody
  | next hbehind hline hsize hpos hdata ih =>
    obtain ⟨-, -, ⟨hzero, -⟩ | ⟨-, chunk, more, hlength, hmore, hsplit⟩⟩ := ih.sized hline (hascii hbehind hline) hsize
    · exact absurd hzero hpos
    · obtain ⟨-, rfl⟩ := List.append_inj hsplit (hdata.trans hlength.symm)
      exact hmore

theorem Trailers.short_of_append {trailers trailer tail : List UInt8} {lines : List (List UInt8)}
    (h : Trailers Short trailers) (hlines : ∀ line ∈ lines, IsLine line ∧ line ≠ []) (htrailer : IsLine trailer)
    (hsplit : trailers = lines.flatMap (· ++ crlfBytes) ++ (trailer ++ crlfBytes ++ tail)) : Short trailer := by
  induction h generalizing lines with
  | last =>
    have hsplit : [] ++ crlfBytes ++ [] = lines.flatMap (· ++ crlfBytes) ++ (trailer ++ crlfBytes ++ tail) := hsplit
    cases lines with
    | nil =>
      obtain ⟨rfl, -⟩ := line_inj isLine_nil htrailer hsplit
      decide
    | cons line lines =>
      obtain ⟨hline, hne⟩ := hlines line List.mem_cons_self
      rw [List.flatMap_cons, List.append_assoc (line ++ crlfBytes)] at hsplit
      exact absurd (line_inj isLine_nil hline hsplit).1.symm hne
  | more hmore hne hshort _ ih =>
    cases lines with
    | nil =>
      obtain ⟨rfl, -⟩ := line_inj hmore htrailer hsplit
      exact hshort
    | cons line lines =>
      obtain ⟨⟨hline, -⟩, hlines⟩ := List.forall_mem_cons.mp hlines
      rw [List.flatMap_cons, List.append_assoc (line ++ crlfBytes)] at hsplit
      exact ih hlines (line_inj hmore hline hsplit).2

theorem Chunked.regular {body : List UInt8} (hbody : Chunked body) (hascii : AsciiSizes body) : Regular body where
  size h hline hsize := by
    obtain ⟨hsizeLine, hsmall, -⟩ := (hbody.behind hascii h).sized hline (hascii h hline) hsize
    exact ⟨hsizeLine, hsmall⟩
  dataEnd h hline hsize hpos hdata := by
    obtain ⟨-, -, ⟨hzero, -⟩ | ⟨-, chunk, more, hlength, -, hsplit⟩⟩ :=
      (hbody.behind hascii h).sized hline (hascii h hline) hsize
    · exact absurd hzero hpos
    · obtain ⟨rfl, -⟩ := List.append_inj hsplit (hdata.trans hlength.symm)
      exact List.suffix_append chunk crlfBytes
  trailer h hline hsize hlines htrailer := by
    obtain ⟨-, -, ⟨-, htrailers⟩ | ⟨hpos, -⟩⟩ := (hbody.behind hascii h).sized hline (hascii h hline) hsize
    · exact htrailers.short_of_append hlines htrailer rfl
    · exact absurd rfl hpos

/-- A size that is read on the way, whether or not the body is accepted. -/
inductive ReadsSize (profile : Profile) : Inbound → Nat → Prop
  | here {s s₁ : Inbound} {line : List UInt8} {n : Nat} (hread : readCrlfLine s = .ok (line, s₁))
      (hsize : chunkLength line = .ok n) : ReadsSize profile s n
  | later {s s₁ : Inbound} {line : List UInt8} {n m count : Nat} (hread : readCrlfLine s = .ok (line, s₁))
      (hsize : chunkLength line = .ok m) (hpos : m ≠ 0) (hcount : (addUsize profile m 2 : Exec String Nat) = .ok count)
      (hrest : ReadsSize profile (transferExactBytes s₁ count).2 n) : ReadsSize profile s n

theorem not_panic_of_readCrlfLine {s : Inbound} {why : Panic} : readCrlfLine s ≠ .error (.panic why) := by
  intro h
  have hfault : ∃ message, (Fault.panic why : Fault String) = .error message := by
    refine Scan.run_fault (P := fun fault => ∃ message, fault = .error message) ?_ ?_ ?_ h
    · intro buffer fault hfault
      simp only [crlfLine] at hfault
      split at hfault
      · cases hfault
        exact ⟨_, rfl⟩
      · cases hfault
    · rintro buffer fault ⟨⟩
    · rintro buffer fault ⟨⟩
      exact ⟨_, rfl⟩
  obtain ⟨message, hmessage⟩ := hfault
  cases hmessage

theorem not_panic_of_orBail {value : Option α} {message : String} {why : Panic} :
    orBail value message ≠ .error (.panic why) := by
  intro h
  cases value <;> cases h

theorem not_panic_of_chunkLength {line : List UInt8} {why : Panic} : chunkLength line ≠ .error (.panic why) := by
  intro h
  rcases bind_eq_error.mp h with h | ⟨text, -, h⟩
  · exact not_panic_of_orBail h
  · exact not_panic_of_orBail h

theorem not_panic_of_transferTrailers {s : Inbound} {why : Panic} : transferTrailers s ≠ .error (.panic why) := by
  intro h
  fun_induction transferTrailers s with
  | case1 s fault hread =>
    cases h
    exact not_panic_of_readCrlfLine hread
  | case2 => cases h
  | case3 s trailer rest hread hne fault hmore ih =>
    cases h
    exact ih hmore
  | case4 => cases h

theorem readsSize_of_panic {profile : Profile} {s : Inbound} {why : Panic}
    (h : transferChunkedBody profile s = .error (.panic why)) :
    profile.overflowChecks ∧ ∃ n, ReadsSize profile s n ∧ usizeSize ≤ n + 2 := by
  fun_induction transferChunkedBody profile s with
  | case1 s fault hread =>
    cases h
    exact absurd hread not_panic_of_readCrlfLine
  | case2 s line rest hread fault hsize =>
    cases h
    exact absurd hsize not_panic_of_chunkLength
  | case3 s line rest hread hsize fault hmore =>
    cases h
    exact absurd hmore not_panic_of_transferTrailers
  | case4 => cases h
  | case5 s line rest hread n hsize fault hcount =>
    unfold addUsize overflow at hcount
    split at hcount
    · cases hcount
    · next hlarge =>
      split at hcount
      · next hchecks => exact ⟨hchecks, n + 1, .here hread hsize, Nat.le_of_not_lt hlarge⟩
      · cases hcount
  | case6 s line rest hread n hsize count hcount chunk fault hmore ih =>
    cases h
    obtain ⟨hchecks, m, hreads, hlarge⟩ := ih hmore
    exact ⟨hchecks, m, .later hread hsize n.succ_ne_zero hcount hreads, hlarge⟩
  | case7 => cases h

theorem ReadsSize.panic {profile : Profile} {s : Inbound} {n : Nat} (h : ReadsSize profile s n)
    (hchecks : profile.overflowChecks) (hlarge : usizeSize ≤ n + 2) :
    ∃ why, transferChunkedBody profile s = .error (.panic why) := by
  induction h with
  | @here s s₁ line n hread hsize =>
    obtain ⟨n, rfl⟩ : ∃ m, n = m + 1 := ⟨n - 1, by rw [usizeSize] at hlarge; omega⟩
    have hcount : (addUsize profile (n + 1) 2 : Exec String Nat) = .error (.panic .arithmeticOverflow) := by
      rw [addUsize, if_neg (Nat.not_lt.mpr hlarge), overflow, if_pos hchecks]
    exact ⟨_, transferChunkedBody_overflow hread hsize hcount⟩
  | later hread hsize hpos hcount _ ih =>
    obtain ⟨why, hpanic⟩ := ih hlarge
    exact ⟨why, transferChunkedBody_fault hread hsize hpos hcount hpanic⟩

/-- Every chunked body is forwarded as it is, and the input behind it left. Nothing else is forwarded and no size
overflows exactly if what is forwarded is regular and, where overflow is checked, every size that is read
leaves room for the line end behind its chunk. -/
theorem transferChunkedBody_iff (profile : Profile) {s : Inbound} (hascii : AsciiSizes s.bytes) :
    (∀ body rest, Chunked body → s.bytes = body ++ rest →
        ∃ s', transferChunkedBody profile s = .ok (body, s') ∧ s'.bytes = rest) ∧
      ((∀ sent s', transferChunkedBody profile s = .ok (sent, s') →
          ∃ body rest, Chunked body ∧ s.bytes = body ++ rest) ∧
          (∀ why, transferChunkedBody profile s ≠ .error (.panic why)) ↔
        (∀ sent s', transferChunkedBody profile s = .ok (sent, s') → Regular sent) ∧
          (profile.overflowChecks → ∀ n, ReadsSize profile s n → n + 2 < usizeSize)) := by
  have hforward : ∀ body rest, Chunked body → s.bytes = body ++ rest →
      ∃ s', transferChunkedBody profile s = .ok (body, s') ∧ s'.bytes = rest := by
    intro body rest hbody hbytes
    have hstart : Behind s.bytes (body ++ rest) := hbytes ▸ .start
    exact (hbody.accepted profile hascii hstart).transfer hbytes
  refine ⟨hforward, ?_, ?_⟩
  · rintro ⟨hchunked, hpanic⟩
    constructor
    · intro sent s' hsent
      obtain ⟨body, rest, hbody, hbytes⟩ := hchunked sent s' hsent
      obtain ⟨s'', hok, -⟩ := hforward body rest hbody hbytes
      obtain ⟨rfl, -⟩ := Prod.mk.inj (Except.ok.inj (hsent.symm.trans hok))
      exact hbody.regular (@AsciiSizes.of_append sent rest (hbytes ▸ hascii))
    · intro hchecks n hreads
      by_contra hlarge
      obtain ⟨why, hwhy⟩ := hreads.panic hchecks (Nat.le_of_not_lt hlarge)
      exact hpanic why hwhy
  · rintro ⟨hregular, hsmall⟩
    constructor
    · intro sent s' hsent
      have hstart : Behind sent (sent ++ []) := by
        rw [List.append_nil]
        exact .start
      have hbody := (transferChunkedBody_accepted hsent).chunked (hregular sent s' hsent) hstart
      exact ⟨sent, s'.bytes, hbody, transferChunkedBody_bytes hsent⟩
    · intro why hpanic
      obtain ⟨hchecks, n, hreads, hlarge⟩ := readsSize_of_panic hpanic
      exact Nat.not_lt.mpr hlarge (hsmall hchecks n hreads)

def signedChunk : List UInt8 := [43, 49, 13, 10] ++ ([88, 13, 10] ++ [48, 13, 10, 13, 10])

def unendedChunk : List UInt8 := [49, 13, 10] ++ ([88, 89, 90] ++ [48, 13, 10, 13, 10])

def largestChunk : List UInt8 := List.replicate 16 102 ++ [13, 10]

theorem lastChunk_accepted (profile : Profile) : Accepted profile Short [48, 13, 10, 13, 10] :=
  @Accepted.last profile Short [48] crlfBytes (isLine_of_noReturn (by decide)) (by decide) (by decide) .last

theorem SizeLine.not_signed {line : List UInt8} {size : Nat} : ¬ SizeLine (43 :: line) size := by
  rintro ⟨-, -, digits, extension, hline, hdigits, -⟩
  obtain ⟨hne, hall⟩ := numeral_digits hdigits
  obtain ⟨b, bytes, hbytes⟩ := List.exists_cons_of_ne_nil (utf8_ne_nil hne)
  rw [hbytes, List.cons_append] at hline
  obtain ⟨digits, rfl, -⟩ := utf8_eq_cons (c := '+') rfl (by decide) ((List.cons.inj hline).1 ▸ hbytes)
  exact absurd (hall '+' List.mem_cons_self) (by decide)

def plainChunk : List UInt8 := [49] ++ crlfBytes ++ ([88, 13, 10] ++ ([48] ++ crlfBytes ++ crlfBytes))

theorem chunkLength_plainChunk :
    chunkLength ([49] ++ crlfBytes) = .ok 1 ∧ chunkLength ([48] ++ crlfBytes) = .ok 0 := by decide

theorem isLine_singleton {b : UInt8} (h : b ≠ 13) : IsLine [b] :=
  isLine_of_noReturn (by simpa using h.symm)

theorem sizeLine_plainChunk : SizeLine [49] 1 ∧ SizeLine [48] 0 :=
  ⟨⟨isLine_singleton (by decide), by decide, ['1'], [], by decide, by decide, .inl rfl⟩,
    ⟨isLine_singleton (by decide), by decide, ['0'], [], by decide, by decide, .inl rfl⟩⟩

theorem Behind.cases_plainChunk {left : List UInt8} (h : Behind plainChunk left) :
    left = plainChunk ∨ left = [48] ++ crlfBytes ++ crlfBytes := by
  induction h with
  | start => exact .inl rfl
  | @next line data rest n _ hline hsize hpos hdata ih =>
    rcases ih with ih | ih
    · obtain ⟨rfl, hrest⟩ := line_inj hline (isLine_singleton (by decide)) ih
      rw [chunkLength_plainChunk.1] at hsize
      cases hsize
      exact .inr (List.append_inj hrest hdata).2
    · obtain ⟨rfl, -⟩ := line_inj hline (isLine_singleton (by decide)) ih
      rw [chunkLength_plainChunk.2] at hsize
      exact absurd (Except.ok.inj hsize).symm hpos

theorem Behind.line_plainChunk {line tail : List UInt8} (h : Behind plainChunk (line ++ crlfBytes ++ tail))
    (hline : IsLine line) :
    line = [49] ∧ tail = [88, 13, 10] ++ ([48] ++ crlfBytes ++ crlfBytes) ∨ line = [48] ∧ tail = crlfBytes := by
  rcases h.cases_plainChunk with h | h
  · exact .inl (line_inj hline (isLine_singleton (by decide)) h)
  · exact .inr (line_inj hline (isLine_singleton (by decide)) h)

theorem asciiSizes_plainChunk : AsciiSizes plainChunk := by
  intro line tail h hline
  rcases h.line_plainChunk hline with ⟨rfl, -⟩ | ⟨rfl, -⟩ <;> exact List.forall_mem_singleton.mpr (by decide)

theorem chunked_plainChunk : Chunked plainChunk :=
  @Chunked.chunk [49] [88] _ sizeLine_plainChunk.1 (by decide) (by decide) (.last sizeLine_plainChunk.2 .last)

theorem transferChunkedBody_iff_plainChunk :
    AsciiSizes plainChunk ∧
      (∃ s', transferChunkedBody ⟨true⟩ ⟨plainChunk, .ofPieces []⟩ = .ok (plainChunk, s') ∧ s'.bytes = []) ∧
      Regular plainChunk ∧ ∀ n, ReadsSize ⟨true⟩ ⟨plainChunk, .ofPieces []⟩ n → n + 2 < usizeSize := by
  obtain ⟨hforward, hiff⟩ := transferChunkedBody_iff ⟨true⟩ (s := ⟨plainChunk, .ofPieces []⟩) asciiSizes_plainChunk
  obtain ⟨s', hsent, hrest⟩ := hforward plainChunk [] chunked_plainChunk rfl
  have hnone (why : Panic) : transferChunkedBody ⟨true⟩ ⟨plainChunk, .ofPieces []⟩ ≠ .error (.panic why) := by
    rw [hsent]
    rintro ⟨⟩
  obtain ⟨hregular, hsmall⟩ := hiff.mp ⟨fun _ _ _ => ⟨plainChunk, [], chunked_plainChunk, rfl⟩, hnone⟩
  exact ⟨asciiSizes_plainChunk, ⟨s', hsent, hrest⟩, hregular plainChunk s' hsent, hsmall rfl⟩

/-- Two bodies are forwarded that are no chunked bodies, and a size overflows. -/
theorem accepted_not_chunked :
    (∃ s', transferChunkedBody ⟨true⟩ ⟨signedChunk, .ofPieces []⟩ = .ok (signedChunk, s')) ∧
      (¬ ∃ body rest, Chunked body ∧ signedChunk = body ++ rest) ∧
      (∃ s', transferChunkedBody ⟨true⟩ ⟨unendedChunk, .ofPieces []⟩ = .ok (unendedChunk, s')) ∧
      (¬ ∃ body rest, Chunked body ∧ unendedChunk = body ++ rest) ∧
      transferChunkedBody ⟨true⟩ ⟨largestChunk, .ofPieces []⟩ = .error (.panic .arithmeticOverflow) := by
  have hsigned : Accepted ⟨true⟩ Short signedChunk :=
    @Accepted.chunk ⟨true⟩ Short [43, 49] [88, 13, 10] _ 1 (isLine_of_noReturn (by decide)) (by decide)
      (by decide) (by decide) (by decide) (lastChunk_accepted _)
  have hunended : Accepted ⟨true⟩ Short unendedChunk :=
    @Accepted.chunk ⟨true⟩ Short [49] [88, 89, 90] _ 1 (isLine_of_noReturn (by decide)) (by decide)
      (by decide) (by decide) (by decide) (lastChunk_accepted _)
  have hone : chunkLength ([49] ++ crlfBytes) = .ok 1 := by decide
  refine ⟨?_, ?_, ?_, ?_, ?_⟩
  · obtain ⟨s', hsent, -⟩ := hsigned.transfer (s := ⟨signedChunk, .ofPieces []⟩) (List.append_nil _).symm
    exact ⟨s', hsent⟩
  · rintro ⟨body, rest, hbody, hsplit⟩
    have hplus : IsLine [43, 49] := isLine_of_noReturn (by decide)
    rcases hbody.start hplus hsplit with ⟨hline, -⟩ | ⟨_, _, hline, -⟩
    · exact SizeLine.not_signed hline
    · exact SizeLine.not_signed hline
  · obtain ⟨s', hsent, -⟩ := hunended.transfer (s := ⟨unendedChunk, .ofPieces []⟩) (List.append_nil _).symm
    exact ⟨s', hsent⟩
  · rintro ⟨body, rest, hbody, hsplit⟩
    have hdigit : IsLine [49] := isLine_of_noReturn (by decide)
    have hascii : ∀ b ∈ [(49 : UInt8)], b.toNat < 128 := List.forall_mem_singleton.mpr (by decide)
    rcases hbody.start hdigit hsplit with ⟨hline, -⟩ | ⟨data, more, hline, -, hsize, -, htail⟩
    · have hzero := hline.chunkLength (by decide) hascii
      rw [hone] at hzero
      cases hzero
    · have hlen := hline.chunkLength hsize hascii
      rw [hone] at hlen
      obtain ⟨b, rfl⟩ := List.length_eq_one_iff.mp (Except.ok.inj hlen).symm
      cases htail
  · have hread : readCrlfLine ⟨largestChunk, .ofPieces []⟩ = .ok (largestChunk, ⟨[], .ofPieces []⟩) :=
      Scan.run_found (i := 16) (by decide)
    exact transferChunkedBody_overflow (n := 2 ^ 64 - 2) hread (by decide) (by decide)

end Hysteria.App.HttpProxy
