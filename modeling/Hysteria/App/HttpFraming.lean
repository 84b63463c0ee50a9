import Hysteria.App.HttpOutbound

/-! Where a request ends, as the proxy decides it and as the server decides it from the head
the proxy sends. -/
namespace Hysteria.App.HttpProxy
open Lib Rfc9112

def BodyKind.bodyLength : BodyKind → BodyLength
  | .none => .octets 0
  | .contentLength length => .octets length
  | .chunked => .chunked
  | .untilEof => .untilClose

theorem headerValue_eq (headers : Headers) (name : String) :
    headerValue headers name = (fieldValues name headers).head? := by
  rw [headerValue, fieldValues, List.head?_map, List.head?_filter]

theorem headerContainsToken_iff {headers : Headers} {name token : String} :
    headerContainsToken headers name token ↔
      ∃ value ∈ fieldValues name headers, ∃ part ∈ value.splitOn ',', eqIgnoreAsciiCase (trim part) token := by
  simp only [headerContainsToken, fieldValues, List.any_eq_true, List.mem_flatMap, List.mem_map]
  constructor
  · rintro ⟨part, ⟨field, hfield, hpart⟩, htoken⟩
    exact ⟨field.2, ⟨field, hfield, rfl⟩, part, hpart, htoken⟩
  · rintro ⟨_, ⟨field, hfield, rfl⟩, part, hpart, htoken⟩
    exact ⟨part, ⟨field, hfield, hpart⟩, htoken⟩

inductive Chosen (headers : Headers) : BodyKind → Prop
  | chunked (hcodings : fieldValues "Transfer-Encoding" headers ≠ []) : Chosen headers .chunked
  | absent (hcodings : fieldValues "Transfer-Encoding" headers = [])
      (hlengths : fieldValues "Content-Length" headers = []) : Chosen headers .none
  | length {value : Text} {others : List Text} {n : Nat} {bodyKind : BodyKind}
      (hcodings : fieldValues "Transfer-Encoding" headers = [])
      (hlengths : fieldValues "Content-Length" headers = value :: others)
      (hvalue : fromStrRadix 64 10 value = some n) (hkind : bodyKind.bodyLength = .octets n) :
      Chosen headers bodyKind

theorem requestBodyKind_chosen {headers : Headers} {bodyKind : BodyKind}
    (h : requestBodyKind headers = .ok bodyKind) : Chosen headers bodyKind := by
  rw [requestBodyKind, headerValue_eq, headerValue_eq] at h
  split at h
  case isTrue htoken =>
    cases h
    obtain ⟨value, hvalue, -⟩ := headerContainsToken_iff.mp htoken
    exact .chunked (List.ne_nil_of_mem hvalue)
  case isFalse =>
    split at h
    case isTrue => cases h
    case isFalse hcodings =>
      have hcodings : fieldValues "Transfer-Encoding" headers = [] := by simpa using hcodings
      split at h
      case h_1 hlengths =>
        cases h
        exact .absent hcodings (List.head?_eq_none_iff.mp hlengths)
      case h_2 value hlengths =>
        obtain ⟨others, hlengths⟩ := List.head?_eq_some_iff.mp hlengths
        split at h
        case h_1 => cases h
        case h_2 hvalue =>
          cases h
          exact .length hcodings hlengths hvalue rfl
        case h_3 length _ hvalue =>
          cases h
          exact .length hcodings hlengths hvalue rfl

theorem bodyLength_outbound {headers : Headers} {bodyKind : BodyKind}
    (hkind : Chosen headers bodyKind) (hread : ∀ field ∈ headers, ReadField field) (host : Text) :
    bodyLength ((outboundFields host bodyKind headers).map fun field => (field.1, trimBy isOws field.2)) =
      bodyLength headers := by
  have hvalues : ∀ name, PassedOn name bodyKind → fieldValues name
      ((outboundFields host bodyKind headers).map fun field => (field.1, trimBy isOws field.2)) =
        fieldValues name headers := by
    intro name hname
    rw [fieldValues_map, fieldValues_outbound hname]
    have hsame : ∀ value ∈ fieldValues name headers, trimBy isOws value = id value := by
      intro value hvalue
      obtain ⟨field, hfield, rfl⟩ := List.mem_map.mp hvalue
      have htrimmed := (hread field (List.mem_of_mem_filter hfield)).valueTrimmed
      exact (htrimmed.mono fun _ => isWhitespace_of_isOws).eq
    rw [List.map_congr_left hsame, List.map_id]
  have hcodings := hvalues _ (passedOn_transferEncoding bodyKind)
  apply bodyLength_congr hcodings
  rw [hcodings]
  intro hnone
  apply hvalues _ (passedOn_contentLength _)
  rintro rfl
  cases hkind with
  | chunked h => exact h hnone
  | length _ _ _ h => cases h

theorem listElements_of_number {bits n : Nat} {value : Text} (h : fromStrRadix bits 10 value = some n) :
    listElements value = [value] := by
  obtain ⟨hne, hchars⟩ := fromStrRadix_chars h
  have hother : ∀ c, c = ',' ∨ isOws c → c ∉ value := by
    intro c hc hmem
    have hdigit := hchars c hmem
    rw [isOws, Bool.or_eq_true, decide_eq_true_iff, decide_eq_true_iff] at hc
    rcases hc with rfl | rfl | rfl <;> revert hdigit <;> decide
  have htrimmed : Trimmed isOws value := .of_forall fun c hmem hows => hother c (.inr hows) hmem
  rw [listElements, List.splitOn_eq_singleton (hother ',' (.inl rfl))]
  simp [htrimmed.eq, hne]

/-- The heads on whose framing the proxy and the server agree: the last transfer coding, if
there is one, is `chunked`, and the lengths, if they count, are digits that denote one number. -/
structure PlainFraming (headers : Headers) : Prop where
  lastCoding : fieldValues "Transfer-Encoding" headers ≠ [] →
    ∃ coding, (transferCodings headers).getLast? = some coding ∧ eqIgnoreAsciiCase coding "chunked"
  lengths : fieldValues "Transfer-Encoding" headers = [] →
    ∃ n, ∀ length ∈ contentLengths headers, numeral 10 length = some n

theorem bodyLength_chosen_iff {headers : Headers} {bodyKind : BodyKind}
    (hkind : Chosen headers bodyKind) :
    bodyLength headers = some bodyKind.bodyLength ↔ PlainFraming headers := by
  cases hkind with
  | chunked hcodings =>
    have hlast : lastCodingChunked headers ↔
        ∃ coding, (transferCodings headers).getLast? = some coding ∧ eqIgnoreAsciiCase coding "chunked" := by
      rw [lastCodingChunked, Option.any_eq_true]
    rw [bodyLength, if_pos hcodings]
    constructor
    · intro h
      refine ⟨fun _ => hlast.mp ?_, fun hnone => absurd hnone hcodings⟩
      by_contra hnot
      rw [if_neg hnot] at h
      cases h
    · intro h
      rw [if_pos (hlast.mpr (h.lastCoding hcodings))]
      rfl
  | absent hcodings hlengths =>
    have hnone : contentLengths headers = [] := by rw [contentLengths, hlengths, List.flatMap_nil]
    rw [bodyLength, if_neg (not_not.mpr hcodings), if_pos hlengths]
    refine ⟨fun _ => ⟨fun h => absurd hcodings h, fun _ => ⟨0, ?_⟩⟩, fun _ => rfl⟩
    rw [hnone]
    rintro _ ⟨⟩
  | @length value others n bodyKind hcodings hlengths hvalue hkind =>
    have hlist : contentLengths headers = value :: others.flatMap listElements := by
      rw [contentLengths, hlengths, List.flatMap_cons, listElements_of_number hvalue]
      rfl
    have hne : fieldValues "Content-Length" headers ≠ [] := by rw [hlengths]; exact List.cons_ne_nil _ _
    have hframing : bodyLength headers = some bodyKind.bodyLength ↔
        oneLength (contentLengths headers) = some n := by
      rw [bodyLength, if_neg (not_not.mpr hcodings), if_neg hne, hkind]
      simp
    rw [hframing, oneLength_eq_some_iff]
    constructor
    · exact fun h => ⟨fun hsome => absurd hcodings hsome, fun _ => ⟨n, h.2⟩⟩
    · intro h
      obtain ⟨m, hm⟩ := h.lengths hcodings
      have hmn : m = n := fromStrRadix_eq_numeral (by decide) hvalue (hm value (by simp [hlist]))
      exact ⟨by simp [hlist], hmn ▸ hm⟩

/-- For a request the proxy accepts, the server finds the body the proxy forwards, and the
head was not ambiguous, exactly if the framing is plain. -/
theorem outbound_framing_iff (addrs : SocketAddrs) {headerBytes : List UInt8} {request : HttpRequestHead}
    {addr target host : Text} {bodyKind : BodyKind} (hrequest : parseRequest headerBytes = .ok request)
    (hkind : requestBodyKind request.headers = .ok bodyKind)
    (htarget : parseProxyTarget addrs request.target request.headers = .ok (addr, target, host)) :
    ((fields (buildOutboundRequest request target host bodyKind)).bind bodyLength =
        some bodyKind.bodyLength ∧ bodyLength request.headers ≠ none) ↔
      PlainFraming request.headers := by
  have hread := readRequest hrequest
  have hchosen := requestBodyKind_chosen hkind
  obtain ⟨hline, hhost⟩ := parseProxyTarget_oneLine hread htarget
  have hstart : OneLine (request.method ++ ' ' :: target ++ ' ' :: request.version) :=
    (hread.method.join hline (by decide) (by decide)).join hread.version (by decide) (by decide)
  rw [buildOutboundRequest_eq, fields_of_sent hstart (sentFields hread.fields hhost bodyKind),
    Option.bind_some, bodyLength_outbound hchosen hread.fields, bodyLength_chosen_iff hchosen]
  constructor
  · exact fun h => h.1
  · intro h
    refine ⟨h, ?_⟩
    rw [(bodyLength_chosen_iff hchosen).mpr h]
    nofun

def namesOnly : SocketAddrs where
  parse _ := none
  oneLine := nofun

def sampleHead (fields : String) : List UInt8 :=
  utf8 ("POST http://a/ HTTP/1.1\r\n".toList ++ fields.toList)

def sampleRequest (headers : List (String × String)) : HttpRequestHead where
  method := "POST".toList
  target := "http://a/".toList
  version := "HTTP/1.1".toList
  headers := headers.map fun header => (header.1.toList, header.2.toList)

def sameLengths : HttpRequestHead := sampleRequest [("Content-Length", "05"), ("content-length", "5, 5")]

theorem outbound_framing_plain :
    (fields (buildOutboundRequest sameLengths ['/'] ['a'] (.contentLength 5))).bind bodyLength =
      some (.octets 5) ∧ PlainFraming sameLengths.headers :=
  have hrequest : parseRequest (sampleHead "Content-Length: 05\r\ncontent-length: 5, 5") =
      .ok sameLengths := by decide +kernel
  have hkind : requestBodyKind sameLengths.headers = .ok (.contentLength 5) := by decide +kernel
  have htarget : parseProxyTarget namesOnly sameLengths.target sameLengths.headers =
      .ok ("a:80".toList, ['/'], ['a']) := by decide +kernel
  have hagree : (fields (buildOutboundRequest sameLengths ['/'] ['a'] (.contentLength 5))).bind bodyLength =
      some (.octets 5) ∧ bodyLength sameLengths.headers ≠ none := by decide +kernel
  ⟨hagree.1, (outbound_framing_iff namesOnly hrequest hkind htarget).mp hagree⟩

/-- The head is accepted and passed on although the server finds no length for its body. -/
def SentUnframed (head : List UInt8) (request : HttpRequestHead) (bodyKind : BodyKind) : Prop :=
  parseRequest head = .ok request ∧ requestBodyKind request.headers = .ok bodyKind ∧
    parseProxyTarget namesOnly request.target request.headers = .ok ("a:80".toList, ['/'], ['a']) ∧
    (fields (buildOutboundRequest request ['/'] ['a'] bodyKind)).bind bodyLength = none

instance (head : List UInt8) (request : HttpRequestHead) (bodyKind : BodyKind) :
    Decidable (SentUnframed head request bodyKind) :=
  inferInstanceAs (Decidable (_ ∧ _ ∧ _ ∧ _))

/-- Of two lengths the first is taken, a sign may stand in front of the digits, and `chunked`
need not be the last coding. -/
theorem ambiguous_framing_forwarded :
    SentUnframed (sampleHead "Content-Length: 5\r\nContent-Length: 6")
        (sampleRequest [("Content-Length", "5"), ("Content-Length", "6")]) (.contentLength 5) ∧
      SentUnframed (sampleHead "Content-Length: +5")
        (sampleRequest [("Content-Length", "+5")]) (.contentLength 5) ∧
      SentUnframed (sampleHead "Transfer-Encoding: chunked, gzip")
        (sampleRequest [("Transfer-Encoding", "chunked, gzip")]) .chunked := by
  decide +kernel

end Hysteria.App.HttpProxy
