import Hysteria.App.HttpChunked
import Hysteria.App.HttpFraming

/-! Well-formed requests, after RFC 9112. However a stream of them is cut, the proxy finds the
head of the next one and the framing it announces. -/
namespace Hysteria.App.HttpProxy
open Lib Rfc9112

structure FieldLine where
  name : Text
  raw : Text
  noColon : ':' ∉ name
  nameTrimmed : Trimmed isWhitespace name
  oneLine : '\r' ∉ name ∧ '\r' ∉ raw

namespace FieldLine

def text (line : FieldLine) : Text := line.name ++ ':' :: line.raw

def header (line : FieldLine) : Text × Text := (line.name, trim line.raw)

theorem text_oneLine (line : FieldLine) : '\r' ∉ line.text ∧ line.text ≠ [] := by
  simp [text, line.oneLine.1, line.oneLine.2]

theorem parseHeader_text (line : FieldLine) : parseHeader line.text = .ok line.header := by
  have hsplit : splitOnce ':' line.text = some (line.name, line.raw) :=
    splitOnce_eq_some_iff.mpr ⟨rfl, line.noColon⟩
  have hname : trim line.name = line.name := line.nameTrimmed.eq
  rw [parseHeader, hsplit]
  simp only [orBail, ok_bind, hname, header]
  rfl

end FieldLine

structure Head where
  method : Text
  target : Text
  fields : List FieldLine
  methodPlain : ' ' ∉ method ∧ '\r' ∉ method
  targetPlain : ' ' ∉ target ∧ '\r' ∉ target

namespace Head

def version : Text := "HTTP/1.1".toList

def requestLine (head : Head) : Text := head.method ++ ' ' :: (head.target ++ ' ' :: version)

def text (head : Head) : Text :=
  head.requestLine ++ (head.fields.map FieldLine.text).flatMap (['\r', '\n'] ++ ·)

def request (head : Head) : HttpRequestHead where
  method := head.method
  target := head.target
  version := version
  headers := head.fields.map FieldLine.header

theorem requestLine_oneLine (head : Head) : '\r' ∉ head.requestLine := by
  have hversion : '\r' ∉ version := by decide
  simp [requestLine, head.methodPlain.2, head.targetPlain.2, hversion]

theorem parseHeaders_text (fields : List FieldLine) :
    parseHeaders (fields.map FieldLine.text) = .ok (fields.map FieldLine.header) := by
  have hkept : (fields.map FieldLine.text).filter (· ≠ []) = fields.map FieldLine.text := by
    rw [List.filter_eq_self]
    intro line hmem
    obtain ⟨field, -, rfl⟩ := List.mem_map.mp hmem
    exact decide_eq_true field.text_oneLine.2
  rw [parseHeaders, hkept, mapM_eq_ok, List.forall₂_map_left_iff, List.forall₂_map_right_iff,
    List.forall₂_same]
  exact fun field _ => field.parseHeader_text

theorem parseRequest_text (head : Head) : parseRequest (utf8 head.text) = .ok head.request := by
  have hlines : splitSeq '\r' ['\n'] head.text = head.requestLine :: head.fields.map FieldLine.text := by
    apply splitSeq_lines (by decide) (oneLine_of_noReturn head.requestLine_oneLine)
    intro line hmem
    obtain ⟨field, -, rfl⟩ := List.mem_map.mp hmem
    exact oneLine_of_noReturn field.text_oneLine.1
  have hparts : splitn ' ' 3 head.requestLine = [head.method, head.target, version] := by
    rw [requestLine, splitn_cons ' ' 1 head.methodPlain.1, splitn_cons ' ' 0 head.targetPlain.1, splitn]
  rw [parseRequest, fromUtf8_utf8]
  simp only [orBail, ok_bind, hlines, hparts, parseHeaders_text]
  rfl

end Head

/-- `chunk-size [chunk-ext]`. The extension is anything that starts with a semicolon, white
space in front of it, and stays on the line. -/
structure ChunkLine where
  digits : Text
  extension : List UInt8
  size : Nat
  isSize : numeral 16 digits = some size
  extensionPlain : extension = [] ∨
    ∃ blank rest, extension = blank ++ 59 :: rest ∧ ∀ b ∈ blank, b = 32 ∨ b = 9
  oneLine : 13 ∉ extension
  short : (utf8 digits ++ extension).length < maxChunkLineSize

def ChunkLine.bytes (line : ChunkLine) : List UInt8 := utf8 line.digits ++ line.extension

structure Chunk where
  line : ChunkLine
  data : List UInt8
  size : data.length = line.size
  nonempty : data ≠ []

def Chunk.bytes (chunk : Chunk) : List UInt8 :=
  chunk.line.bytes ++ crlfBytes ++ (chunk.data ++ crlfBytes)

structure Trailer where
  bytes : List UInt8
  nonempty : bytes ≠ []
  oneLine : 13 ∉ bytes
  short : bytes.length < maxChunkLineSize

/-- `chunked-body` of RFC 9112, section 7.1. -/
structure ChunkedBody where
  chunks : List Chunk
  last : ChunkLine
  lastSize : last.size = 0
  trailers : List Trailer

def trailerBytes (trailers : List Trailer) : List UInt8 :=
  trailers.flatMap (fun trailer => trailer.bytes ++ crlfBytes) ++ crlfBytes

theorem trailerBytes_cons (trailer : Trailer) (trailers : List Trailer) :
    trailerBytes (trailer :: trailers) = trailer.bytes ++ crlfBytes ++ trailerBytes trailers := by
  rw [trailerBytes, List.flatMap_cons, List.append_assoc, trailerBytes]

def ChunkedBody.bytes (body : ChunkedBody) : List UInt8 :=
  body.chunks.flatMap Chunk.bytes ++ (body.last.bytes ++ crlfBytes ++ trailerBytes body.trailers)

inductive Body where
  | absent
  | length (data : List UInt8)
  | chunked (body : ChunkedBody)

namespace Body

def bytes : Body → List UInt8
  | .absent => []
  | .length data => data
  | .chunked body => body.bytes

/-- The header fields announce the body: by nothing, by one length, or by the coding. -/
def Framed (headers : Headers) : Body → Prop
  | .absent =>
    fieldValues "Transfer-Encoding" headers = [] ∧ fieldValues "Content-Length" headers = []
  | .length data =>
    fieldValues "Transfer-Encoding" headers = [] ∧
      ∃ digits, fieldValues "Content-Length" headers = [digits] ∧ numeral 10 digits = some data.length
  | .chunked _ => lastCodingChunked headers

/-- What the proxy can read: lengths are 64-bit numbers, with the line end behind a chunk
counted in, and the lines in front of chunks are UTF-8. -/
def Readable : Body → Prop
  | .absent => True
  | .length data => data.length < 2 ^ 64
  | .chunked body => ∀ line ∈ body.last :: body.chunks.map Chunk.line,
      line.size + 2 < 2 ^ 64 ∧ ∃ text, line.extension = utf8 text

end Body

/-- A request other than `CONNECT`, with a head of less than 60 KiB. -/
structure Request where
  head : Head
  body : Body
  framed : body.Framed head.request.headers
  short : (utf8 head.text).length < 60 * 1024
  notConnect : eqIgnoreAsciiCase head.method "CONNECT" = false

def Request.bytes (request : Request) : List UInt8 :=
  utf8 request.head.text ++ (crlfBytes ++ crlfBytes) ++ request.body.bytes

theorem not_crlf_start {line rest : List UInt8} (hline : IsLine line) (hne : line ≠ [])
    (hrest : rest.head? = some 13) : ¬ crlfBytes <+: line ++ rest := by
  intro hp
  obtain ⟨b, line, rfl⟩ := List.exists_cons_of_ne_nil hne
  obtain ⟨rfl, hnext⟩ := List.cons_prefix_cons.mp hp
  cases line with
  | nil =>
    obtain ⟨after, rfl⟩ := hnext
    cases hrest
  | cons c line =>
    obtain ⟨rfl, -⟩ := List.cons_prefix_cons.mp hnext
    exact hline ⟨[], line, rfl⟩

theorem findSeq_headerEnd {first : List UInt8} {lines : List (List UInt8)} (hfirst : IsLine first)
    (hlines : ∀ line ∈ lines, IsLine line ∧ line ≠ []) :
    findSeq (crlfBytes ++ crlfBytes)
        (first ++ lines.flatMap (crlfBytes ++ ·) ++ (crlfBytes ++ crlfBytes)) =
      some (first ++ lines.flatMap (crlfBytes ++ ·)).length := by
  induction lines generalizing first with
  | nil =>
    rw [List.flatMap_nil, List.append_nil, ← List.append_assoc]
    refine findSeq_longer (findSeq_line hfirst crlfBytes) ?_
    rw [List.append_assoc, List.drop_left]
  | cons line lines ih =>
    obtain ⟨⟨hline, hne⟩, hlines⟩ := List.forall_mem_cons.mp hlines
    have hstart : ¬ crlfBytes <+: line ++ (lines.flatMap (crlfBytes ++ ·) ++ (crlfBytes ++ crlfBytes)) := by
      refine not_crlf_start hline hne ?_
      cases lines <;> rfl
    have hwhole : first ++ (line :: lines).flatMap (crlfBytes ++ ·) ++ (crlfBytes ++ crlfBytes) =
        first ++ 13 :: 10 :: (line ++ (lines.flatMap (crlfBytes ++ ·) ++ (crlfBytes ++ crlfBytes))) := by
      simp [crlfBytes]
    have hnext := ih hline hlines
    rw [List.append_assoc] at hnext
    generalize line ++ (lines.flatMap (crlfBytes ++ ·) ++ (crlfBytes ++ crlfBytes)) = rest at *
    have hskip : findSeq (crlfBytes ++ crlfBytes) (first ++ 13 :: 10 :: rest) =
        (findSeq (crlfBytes ++ crlfBytes) rest).map (· + (first.length + 2)) :=
      findSeq_pairs (by decide) hfirst hstart
    rw [hwhole, hskip, hnext, Option.map_some]
    simp only [List.flatMap_cons, List.length_append, crlfBytes, List.length_cons, List.length_nil]
    congr 1
    omega

theorem utf8_noReturn {text : Text} (h : '\r' ∉ text) : 13 ∉ utf8 text :=
  fun hmem => h (mem_utf8 rfl (by decide) hmem)

theorem utf8_lines (start : Text) (lines : List Text) :
    utf8 (start ++ lines.flatMap (['\r', '\n'] ++ ·)) =
      utf8 start ++ (lines.map utf8).flatMap (crlfBytes ++ ·) := by
  rw [utf8_append]
  congr 1
  induction lines with
  | nil => rfl
  | cons line lines ih =>
    rw [List.map_cons, List.flatMap_cons, utf8_append, utf8_append, ih]
    rfl

theorem readHttpRequest_eq {s : Inbound} {head : Head} {tail : List UInt8}
    (hshort : (utf8 head.text).length < 60 * 1024)
    (hbytes : s.bytes = utf8 head.text ++ (crlfBytes ++ crlfBytes) ++ tail) :
    ∃ s', readHttpRequest s = .ok (some head.request, s') ∧ s'.bytes = tail := by
  have hfirst : findSeq httpHead.needle (utf8 head.text ++ httpHead.needle) =
      some (utf8 head.text).length := by
    rw [Head.text, utf8_lines, List.map_map]
    apply findSeq_headerEnd (isLine_of_noReturn (utf8_noReturn head.requestLine_oneLine))
    intro line hmem
    obtain ⟨field, -, rfl⟩ := List.mem_map.mp hmem
    exact ⟨isLine_of_noReturn (utf8_noReturn field.text_oneLine.1), utf8_ne_nil field.text_oneLine.2⟩
  have hafter : ∀ buffer : List UInt8, buffer.length < (utf8 head.text).length + 4 + 2048 →
      httpHead.after buffer = .ok () := by
    intro buffer hlen
    apply if_neg
    rw [maxHttpHeaderSize]
    omega
  obtain ⟨s', hrun, htail⟩ := Scan.run_eq_found (by decide) hbytes hfirst (fun _ _ => rfl) (fun buffer _ => hafter buffer)
  refine ⟨s', ?_, htail⟩
  rw [readHttpRequest, readHttpHead, hrun]
  simp only [ok_bind, httpHead, head.parseRequest_text]
  rfl

def Body.kind : Body → BodyKind
  | .absent => .none
  | .length data => if data.length = 0 then .none else .contentLength data.length
  | .chunked _ => .chunked

theorem not_isWhitespace_of_eqIgnoreAsciiCase {text : Text} {name : String}
    (hname : (name.toList.map Char.toLower).any isWhitespace = false)
    (h : eqIgnoreAsciiCase text name) : ∀ c ∈ text, ¬ isWhitespace c := by
  intro c hmem hspace
  apply List.any_eq_false.mp hname c _ hspace
  rw [← eqIgnoreAsciiCase_iff.mp h, ← toLower_of_isWhitespace hspace]
  exact List.mem_map_of_mem hmem

theorem headerContainsToken_of_lastCoding {headers : Headers} (h : lastCodingChunked headers) :
    headerContainsToken headers "Transfer-Encoding" "chunked" := by
  obtain ⟨coding, hlast, hchunked⟩ := (Option.any_eq_true _ _).mp h
  obtain ⟨value, hvalue, hcoding⟩ := List.mem_flatMap.mp (List.mem_of_mem_getLast? hlast)
  obtain ⟨part, hpart, rfl⟩ := List.mem_map.mp (List.mem_of_mem_filter hcoding)
  have htrim : trim part = trimBy isOws part := by
    rw [trim, ← trimBy_trimBy (fun _ => isWhitespace_of_isOws)]
    exact (Trimmed.of_forall (not_isWhitespace_of_eqIgnoreAsciiCase (by decide) hchunked)).eq
  exact headerContainsToken_iff.mpr ⟨value, hvalue, part, hpart, htrim ▸ hchunked⟩

theorem requestBodyKind_framed {headers : Headers} {body : Body} (hframed : body.Framed headers)
    (hreadable : body.Readable) : requestBodyKind headers = .ok body.kind := by
  have hnoToken : fieldValues "Transfer-Encoding" headers = [] →
      ¬ headerContainsToken headers "Transfer-Encoding" "chunked" := by
    intro hnone htoken
    obtain ⟨value, hvalue, -⟩ := headerContainsToken_iff.mp htoken
    rw [hnone] at hvalue
    cases hvalue
  cases body with
  | absent =>
    obtain ⟨hcodings, hlengths⟩ := hframed
    rw [requestBodyKind, if_neg (hnoToken hcodings), headerValue_eq, headerValue_eq, hcodings, hlengths]
    rfl
  | length data =>
    obtain ⟨hcodings, digits, hlengths, hdigits⟩ := hframed
    have hvalue : fromStrRadix 64 10 digits = some data.length :=
      fromStrRadix_of_numeral (by decide) hdigits hreadable
    rw [requestBodyKind, if_neg (hnoToken hcodings), headerValue_eq, headerValue_eq, hcodings, hlengths]
    simp only [List.head?_cons, hvalue, List.head?_nil, Option.isSome_none, Bool.false_eq_true, if_false,
      Body.kind]
    cases data.length <;> rfl
  | chunked body => rw [requestBodyKind, if_pos (headerContainsToken_of_lastCoding hframed), Body.kind]

end Hysteria.App.HttpProxy
