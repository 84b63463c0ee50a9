import Hysteria.App.HttpRequests

/-! The head that is sent, read back. It ends where the proxy ends it, and the parser the proxy itself
uses finds in it the request that was read, with the fields the proxy left out, replaced and added. -/
namespace Hysteria.App.HttpProxy
open Lib

theorem OneLine.isLine_utf8 {text : Text} (h : OneLine text) : IsLine (utf8 text) :=
  fun hend => h (infix_of_utf8 rfl (by decide) rfl (by decide) hend)

/-- `read_http_head` without its limit. -/
def unlimitedHead : Scan String (Option (List UInt8)) := { httpHead with after := fun _ => .ok () }

/-- `read_http_request` without the limit of its head. -/
def rereadHttpRequest (s : Inbound) : Exec String (Option HttpRequestHead × Inbound) := do
  match ← unlimitedHead.run s with
  | (none, s) => return (none, s)
  | (some head, s) => return (some (← parseRequest head), s)

theorem parseHeader_fieldText {field : Text × Text} (hcolon : ':' ∉ field.1)
    (htrimmed : Trimmed isWhitespace field.1) :
    parseHeader (fieldText field) = .ok (field.1, trim field.2) := by
  have hsplit : splitOnce ':' (fieldText field) = some (field.1, ' ' :: field.2) :=
    splitOnce_eq_some_iff.mpr ⟨rfl, hcolon⟩
  have hname : trim field.1 = field.1 := htrimmed.eq
  have hvalue : trim (' ' :: field.2) = trim field.2 := by
    rw [trim, trimBy, List.dropWhile_cons_of_pos (by decide), trim, trimBy]
  rw [parseHeader, hsplit]
  simp only [orBail, ok_bind, hname, hvalue]
  rfl

theorem parseHeaders_fieldText {sent : Headers}
    (hsent : ∀ field ∈ sent, ':' ∉ field.1 ∧ Trimmed isWhitespace field.1) :
    parseHeaders (sent.map fieldText) = .ok (sent.map fun field => (field.1, trim field.2)) := by
  have hkept : (sent.map fieldText).filter (· ≠ []) = sent.map fieldText := by
    rw [List.filter_eq_self]
    intro line hmem
    obtain ⟨field, -, rfl⟩ := List.mem_map.mp hmem
    simp [fieldText]
  rw [parseHeaders, hkept, mapM_eq_ok, List.forall₂_map_left_iff, List.forall₂_map_right_iff,
    List.forall₂_same]
  exact fun field hmem => parseHeader_fieldText (hsent field hmem).1 (hsent field hmem).2

theorem parseRequest_parts {method target version : Text} {sent : Headers} (hmethod : ' ' ∉ method)
    (htarget : ' ' ∉ target) (hline : OneLine (method ++ ' ' :: target ++ ' ' :: version))
    (hlines : ∀ field ∈ sent, OneLine (fieldText field))
    (hsent : ∀ field ∈ sent, ':' ∉ field.1 ∧ Trimmed isWhitespace field.1) :
    parseRequest (utf8 (method ++ ' ' :: target ++ ' ' :: version ++
        (sent.map fieldText).flatMap (['\r', '\n'] ++ ·))) =
      .ok ⟨method, target, version, sent.map fun field => (field.1, trim field.2)⟩ := by
  have hsplit : splitSeq '\r' ['\n'] (method ++ ' ' :: target ++ ' ' :: version ++
      (sent.map fieldText).flatMap (['\r', '\n'] ++ ·)) =
        (method ++ ' ' :: target ++ ' ' :: version) :: sent.map fieldText := by
    apply splitSeq_lines (by decide) hline
    intro line hmem
    obtain ⟨field, hfield, rfl⟩ := List.mem_map.mp hmem
    exact hlines field hfield
  have hparts : splitn ' ' 3 (method ++ ' ' :: target ++ ' ' :: version) = [method, target, version] := by
    rw [List.append_assoc, List.cons_append, splitn_cons ' ' 1 hmethod, splitn_cons ' ' 0 htarget, splitn]
  rw [parseRequest, fromUtf8_utf8]
  simp only [orBail, ok_bind, hsplit, hparts, parseHeaders_fieldText hsent]
  rfl

theorem parseRequest_noSpace {bytes : List UInt8} {request : HttpRequestHead}
    (h : parseRequest bytes = .ok request) : ' ' ∉ request.method ∧ ' ' ∉ request.target := by
  obtain ⟨text, -, h⟩ := bind_eq_ok.mp h
  split at h
  case h_1 => cases h
  case h_2 =>
    split at h
    case h_1 method target version rest hparts =>
      obtain ⟨headers, -, h⟩ := bind_eq_ok.mp h
      cases h
      exact ⟨@not_mem_of_splitn _ _ _ [] _ _ hparts (List.cons_ne_nil _ _),
        @not_mem_of_splitn _ _ _ [method] _ _ hparts (List.cons_ne_nil _ _)⟩
    all_goals cases h

theorem parseProxyTarget_target {addrs : SocketAddrs} {target : Text} {headers : Headers}
    {addr path host : Text} (h : parseProxyTarget addrs target headers = .ok (addr, path, host)) :
    path = ['/'] ∨ path <:+ target := by
  rw [parseProxyTarget] at h
  split at h
  case h_1 rest hrest =>
    have hsuffix : rest <:+ target := ⟨_, List.isPrefixOf?_eq_some_iff_append_eq.mp hrest⟩
    obtain ⟨_, -, h⟩ := bind_eq_ok.mp h
    obtain ⟨_, -, h⟩ := bind_eq_ok.mp h
    cases h
    rw [splitAuthorityAndPath]
    split
    · exact .inr ((List.dropWhile_suffix _).trans hsuffix)
    · exact .inl rfl
  case h_2 =>
    split at h
    · cases h
    · split at h
      · obtain ⟨_, -, h⟩ := bind_eq_ok.mp h
        obtain ⟨_, -, h⟩ := bind_eq_ok.mp h
        obtain ⟨_, -, h⟩ := bind_eq_ok.mp h
        cases h
        exact .inr (List.suffix_refl _)
      · obtain ⟨_, -, h⟩ := bind_eq_ok.mp h
        obtain ⟨_, -, h⟩ := bind_eq_ok.mp h
        cases h
        exact .inl rfl

theorem map_trim_outboundFields {headers : Headers} (hread : ∀ field ∈ headers, ReadField field) (host : Text)
    (bodyKind : BodyKind) :
    (outboundFields host bodyKind headers).map (fun field => (field.1, trim field.2)) =
      outboundFields (trim host) bodyKind headers := by
  have hkept : ∀ field ∈ keptHeaders bodyKind headers, trim field.2 = field.2 :=
    fun field hmem => (hread field (List.mem_of_mem_filter hmem)).valueTrimmed.eq
  rw [outboundFields, outboundFields, List.map_append, List.map_append, List.map_map]
  congr 1
  · congr 1
    · apply List.map_congr_left
      intro field hmem
      rw [Function.comp_apply]
      split
      · rfl
      · rw [hkept field hmem]
    · split <;> rfl

theorem outboundFields_named {headers : Headers} (hread : ∀ field ∈ headers, ReadField field) (host : Text)
    (bodyKind : BodyKind) :
    ∀ field ∈ outboundFields host bodyKind headers, ':' ∉ field.1 ∧ Trimmed isWhitespace field.1 := by
  apply forall_outboundFields
  · intro field hmem
    have hfield := hread field (List.mem_of_mem_filter hmem)
    exact ⟨hfield.noColon, hfield.nameTrimmed⟩
  · exact ⟨show ':' ∉ hostName by decide, .of_any_eq_false (show hostName.any isWhitespace = false by decide)⟩
  · exact ⟨by decide, .of_any_eq_false (by decide)⟩

theorem outboundFields_endToEnd (host : Text) (bodyKind : BodyKind) (headers : Headers) :
    ∀ field ∈ outboundFields host bodyKind headers,
      field.1.map Char.toLower ∈ hopByHop.map String.toList → field = connectionClose := by
  apply forall_outboundFields
  · intro field hmem hhop
    rw [keptHeaders_eq] at hmem
    have hskip : shouldSkipRequestHeader field.1 bodyKind = false := by simpa using (List.mem_filter.mp hmem).2
    exact absurd (.inr hhop) (of_decide_eq_false hskip)
  · exact fun hhop => absurd hhop (show hostName.map Char.toLower ∉ hopByHop.map String.toList by decide)
  · exact fun _ => rfl

theorem readHttpRequest_parsed {s s' : Inbound} {request : HttpRequestHead}
    (h : readHttpRequest s = .ok (some request, s')) : ∃ head, parseRequest head = .ok request := by
  obtain ⟨⟨head, s₁⟩, -, h⟩ := bind_eq_ok.mp h
  cases head with
  | none => cases h
  | some head =>
    obtain ⟨parsed, hparse, h⟩ := bind_eq_ok.mp h
    cases h
    exact ⟨head, hparse⟩

/-- Whatever a client sends: once it is accepted, the head that goes out, followed by anything and cut
anywhere, ends at its last byte and is read as the request with the fields in order but for those
left out, each `Host` replaced by the host, one added if there is none, and `Connection: close`. No
other field of the client's connection is among them. -/
theorem reread_outbound {addrs : SocketAddrs} {s s' : Inbound} {request : HttpRequestHead}
    (hread : readHttpRequest s = .ok (some request, s')) {addr target host : Text}
    (htarget : parseProxyTarget addrs request.target request.headers = .ok (addr, target, host))
    (bodyKind : BodyKind) {sent : Inbound} {tail : List UInt8}
    (hsent : sent.bytes = utf8 (buildOutboundRequest request target host bodyKind) ++ tail) :
    (∃ sent', rereadHttpRequest sent = .ok (some ⟨request.method, target, request.version,
        outboundFields (trim host) bodyKind request.headers⟩, sent') ∧ sent'.bytes = tail) ∧
      ∀ field ∈ outboundFields (trim host) bodyKind request.headers,
        field.1.map Char.toLower ∈ hopByHop.map String.toList → field = connectionClose := by
  refine ⟨?_, outboundFields_endToEnd _ _ _⟩
  obtain ⟨head, hparse⟩ := readHttpRequest_parsed hread
  have hrequest := readRequest hparse
  obtain ⟨hmethod, hspace⟩ := parseRequest_noSpace hparse
  obtain ⟨hpath, hhost⟩ := parseProxyTarget_oneLine hrequest htarget
  have hnoSpace : ' ' ∉ target := by
    rcases parseProxyTarget_target htarget with rfl | hsuffix
    · decide
    · exact fun hmem => hspace (hsuffix.subset hmem)
  have hline : OneLine (request.method ++ ' ' :: target ++ ' ' :: request.version) :=
    (hrequest.method.join hpath (by decide) (by decide)).join hrequest.version (by decide) (by decide)
  have hfields := sentFields hrequest.fields hhost bodyKind
  have hnamed := outboundFields_named hrequest.fields host bodyKind
  have hheaders := map_trim_outboundFields hrequest.fields host bodyKind
  have hbuild := buildOutboundRequest_eq request target host bodyKind
  generalize outboundFields host bodyKind request.headers = out at hfields hnamed hheaders hbuild
  generalize htext : request.method ++ ' ' :: target ++ ' ' :: request.version ++
    (out.map fieldText).flatMap (['\r', '\n'] ++ ·) = text
  have hbytes : sent.bytes = utf8 text ++ unlimitedHead.needle ++ tail := by
    rw [hsent, hbuild, List.append_assoc _ crlf, List.append_assoc, flatMap_headerLine, ← htext]
    simp only [List.flatMap_append, ← List.append_assoc, utf8_append]
    rfl
  have hend : findSeq unlimitedHead.needle (utf8 text ++ unlimitedHead.needle) = some (utf8 text).length := by
    rw [← htext, utf8_lines]
    apply findSeq_headerEnd hline.isLine_utf8
    intro bytes hmem
    obtain ⟨line, hline, rfl⟩ := List.mem_map.mp hmem
    obtain ⟨field, hfield, rfl⟩ := List.mem_map.mp hline
    exact ⟨(hfields field hfield).fieldText.1.isLine_utf8, utf8_ne_nil (hfields field hfield).fieldText.2⟩
  have hreparse : parseRequest (utf8 text) = .ok ⟨request.method, target, request.version,
      outboundFields (trim host) bodyKind request.headers⟩ := by
    rw [← htext, ← hheaders]
    exact parseRequest_parts hmethod hnoSpace hline (fun field hmem => (hfields field hmem).fieldText.1) hnamed
  obtain ⟨sent', hrun, htail⟩ := Scan.run_eq_found (by decide) hbytes hend (fun _ _ => rfl) (fun _ _ _ => rfl)
  refine ⟨sent', ?_, htail⟩
  rw [rereadHttpRequest, hrun]
  simp only [ok_bind, unlimitedHead, httpHead, hreparse]
  rfl

def strayRequest : Inbound :=
  ⟨[], .ofPieces [utf8 ("GET http://a:80/x HTTP/1.1\r\r\nProxy-Authorization: Basic eDp5\r\n".toList ++
    "Accept : \r*\r\n\r\n".toList)]⟩

def strayHead : HttpRequestHead where
  method := "GET".toList
  target := "http://a:80/x".toList
  version := "HTTP/1.1\r".toList
  headers := [("Proxy-Authorization".toList, "Basic eDp5".toList), ("Accept".toList, "*".toList)]

theorem reread_outbound_stray :
    readHttpRequest strayRequest = .ok (some strayHead, ⟨[], .ofPieces []⟩) ∧
      ∃ sent', rereadHttpRequest ⟨[], .ofPieces [utf8 (buildOutboundRequest strayHead "/x".toList "a".toList .none)]⟩ =
          .ok (some ⟨"GET".toList, "/x".toList, "HTTP/1.1\r".toList, [("Accept".toList, "*".toList),
            ("Host".toList, "a".toList), ("Connection".toList, "close".toList)]⟩, sent') ∧
        sent'.bytes = [] := by
  have hread : readHttpRequest strayRequest = .ok (some strayHead, ⟨[], .ofPieces []⟩) := by decide +kernel
  have htarget : parseProxyTarget namesOnly strayHead.target strayHead.headers =
      .ok ("a:80".toList, "/x".toList, "a".toList) := by decide +kernel
  have hsent : Inbound.bytes ⟨[], .ofPieces [utf8 (buildOutboundRequest strayHead "/x".toList "a".toList .none)]⟩ =
      utf8 (buildOutboundRequest strayHead "/x".toList "a".toList .none) ++ [] := by simp [Inbound.bytes]
  exact ⟨hread, (reread_outbound hread htarget .none hsent).1⟩

end Hysteria.App.HttpProxy
