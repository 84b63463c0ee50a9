import Hysteria.App.HttpHead
import Hysteria.App.Rfc9112

/-! The head the proxy sends for a request. Nothing that was read spreads over lines, so the
server reads the fields the proxy wrote; those that decide the framing are the client's. -/
namespace Hysteria.App.HttpProxy
open Lib Rfc9112

def OneLine (text : Text) : Prop := ¬ ['\r', '\n'] <:+: text

theorem OneLine.within {a b : Text} (hb : OneLine b) (h : a <:+: b) : OneLine a :=
  fun hcrlf => hb (hcrlf.trans h)

theorem oneLine_of_not_mem {text : Text} (h : '\n' ∉ text) : OneLine text :=
  fun hcrlf => h (hcrlf.subset (by simp))

theorem oneLine_of_noReturn {text : Text} (h : '\r' ∉ text) : OneLine text :=
  fun hcrlf => h (hcrlf.subset (by simp))

theorem OneLine.join {a b : Text} {c : Char} (ha : OneLine a) (hb : OneLine b) (hr : '\r' ≠ c)
    (hn : '\n' ≠ c) : OneLine (a ++ c :: b) := by
  induction a with
  | nil =>
    intro h
    rcases List.infix_cons_iff.mp h with h | h
    · exact hr (List.cons_prefix_cons.mp h).1
    · exact hb h
  | cons x a ih =>
    intro h
    rcases List.infix_cons_iff.mp h with h | h
    · obtain ⟨hx, h⟩ := List.cons_prefix_cons.mp h
      cases a with
      | nil => exact hn (List.cons_prefix_cons.mp h).1
      | cons y a =>
        obtain ⟨hy, -⟩ := List.cons_prefix_cons.mp h
        exact ha (List.IsPrefix.isInfix ⟨a, by rw [hx, hy]; rfl⟩)
    · exact ih (ha.within (List.suffix_cons x a).isInfix) h

structure ReadField (field : Text × Text) : Prop where
  name : OneLine field.1
  value : OneLine field.2
  noColon : ':' ∉ field.1
  nameTrimmed : Trimmed isWhitespace field.1
  valueTrimmed : Trimmed isWhitespace field.2

structure ReadRequest (request : HttpRequestHead) : Prop where
  method : OneLine request.method
  target : OneLine request.target
  version : OneLine request.version
  fields : ∀ field ∈ request.headers, ReadField field

theorem readField {line : Text} {field : Text × Text} (hline : OneLine line)
    (h : parseHeader line = .ok field) : ReadField field := by
  obtain ⟨⟨name, value⟩, hsplit, hok⟩ := bind_eq_ok.mp h
  obtain ⟨rfl, hcolon⟩ := splitOnce_eq_some_iff.mp (orBail_ok hsplit)
  cases hok
  have hname : name <:+: name ++ ':' :: value := (List.prefix_append name _).isInfix
  have hvalue : value <:+: name ++ ':' :: value :=
    ((List.suffix_cons ':' value).trans (List.suffix_append name _)).isInfix
  exact {
    name := hline.within ((trimBy_isInfix _ name).trans hname)
    value := hline.within ((trimBy_isInfix _ value).trans hvalue)
    noColon := fun hmem => hcolon ((trimBy_isInfix _ name).subset hmem)
    nameTrimmed := trimmed_trimBy _ name
    valueTrimmed := trimmed_trimBy _ value }

theorem readFields {lines : List Text} {headers : Headers} (hlines : ∀ line ∈ lines, OneLine line)
    (h : parseHeaders lines = .ok headers) : ∀ field ∈ headers, ReadField field := by
  have hkept : ∀ line ∈ lines.filter (· ≠ []), OneLine line :=
    fun line hmem => hlines line (List.mem_of_mem_filter hmem)
  have hall := mapM_eq_ok.mp h
  clear h
  generalize lines.filter (· ≠ []) = kept at hkept hall
  induction hall with
  | nil => nofun
  | cons hhead _ ih =>
    obtain ⟨hline, hkept⟩ := List.forall_mem_cons.mp hkept
    exact List.forall_mem_cons.mpr ⟨readField hline hhead, ih hkept⟩

theorem readRequest {bytes : List UInt8} {request : HttpRequestHead}
    (h : parseRequest bytes = .ok request) : ReadRequest request := by
  obtain ⟨text, -, h⟩ := bind_eq_ok.mp h
  split at h
  case h_1 => cases h
  case h_2 requestLine lines hsplit =>
    have hfree : ∀ line ∈ requestLine :: lines, OneLine line :=
      fun line hmem => splitSeq_free (hsplit ▸ hmem)
    obtain ⟨hfirst, hlines⟩ := List.forall_mem_cons.mp hfree
    split at h
    case h_1 method target version rest hparts =>
      obtain ⟨headers, hheaders, h⟩ := bind_eq_ok.mp h
      cases h
      have hpart : ∀ part ∈ method :: target :: version :: rest, OneLine part :=
        fun part hmem => hfirst.within (infix_of_mem_splitn (hparts ▸ hmem))
      exact {
        method := hpart _ (by simp)
        target := hpart _ (by simp)
        version := hpart _ (by simp)
        fields := readFields hlines hheaders }
    all_goals cases h

theorem headerValue_mem {headers : Headers} {name : String} {value : Text}
    (h : headerValue headers name = some value) : ∃ field ∈ headers, field.2 = value := by
  obtain ⟨field, hfind, rfl⟩ := Option.map_eq_some_iff.mp h
  exact ⟨field, List.mem_of_find?_eq_some hfind, rfl⟩

theorem normalizeHostHeader_oneLine {addrs : SocketAddrs} {authority host : Text}
    (hauthority : OneLine authority) (h : normalizeHostHeader addrs authority = .ok host) :
    OneLine host := by
  have htrim : OneLine (trim authority) := hauthority.within (trimBy_isInfix _ _)
  rw [normalizeHostHeader] at h
  split at h
  case isTrue => cases h
  case isFalse =>
    split at h
    case h_1 ip port hparse =>
      cases h
      split
      · exact oneLine_of_not_mem (addrs.oneLine hparse)
      · exact htrim
    case h_2 ip port hparse =>
      cases h
      have hip := addrs.oneLine hparse
      split
      · apply oneLine_of_not_mem
        simpa [SocketAddr.ip] using hip
      · exact htrim
    case h_3 =>
      split at h <;> cases h
      · exact htrim.within (List.take_prefix _ _).isInfix
      · exact htrim

theorem parseProxyTarget_oneLine {addrs : SocketAddrs} {request : HttpRequestHead}
    (hrequest : ReadRequest request) {addr target host : Text}
    (h : parseProxyTarget addrs request.target request.headers = .ok (addr, target, host)) :
    OneLine target ∧ OneLine host := by
  have hslash : OneLine ['/'] := oneLine_of_not_mem (by decide)
  rw [parseProxyTarget] at h
  split at h
  case h_1 rest hrest =>
    have hsuffix : rest <:+ request.target := ⟨_, List.isPrefixOf?_eq_some_iff_append_eq.mp hrest⟩
    have hline : OneLine rest := hrequest.target.within hsuffix.isInfix
    have hsplit : OneLine (splitAuthorityAndPath rest).1 ∧ OneLine (splitAuthorityAndPath rest).2 := by
      rw [splitAuthorityAndPath]
      split
      · exact ⟨hline.within (List.takeWhile_prefix _).isInfix,
          hline.within (List.dropWhile_suffix _).isInfix⟩
      · exact ⟨hline, hslash⟩
    obtain ⟨_, -, h⟩ := bind_eq_ok.mp h
    obtain ⟨_, hhost, h⟩ := bind_eq_ok.mp h
    cases h
    exact ⟨hsplit.2, normalizeHostHeader_oneLine hsplit.1 hhost⟩
  case h_2 =>
    split at h
    · cases h
    · split at h
      · obtain ⟨value, hvalue, h⟩ := bind_eq_ok.mp h
        obtain ⟨_, -, h⟩ := bind_eq_ok.mp h
        obtain ⟨_, hhost, h⟩ := bind_eq_ok.mp h
        cases h
        obtain ⟨field, hmem, rfl⟩ := headerValue_mem (orBail_ok hvalue)
        exact ⟨hrequest.target, normalizeHostHeader_oneLine (hrequest.fields field hmem).value hhost⟩
      · obtain ⟨_, -, h⟩ := bind_eq_ok.mp h
        obtain ⟨_, hhost, h⟩ := bind_eq_ok.mp h
        cases h
        exact ⟨hslash, normalizeHostHeader_oneLine hrequest.target hhost⟩

def isHost (field : Text × Text) : Bool := eqIgnoreAsciiCase field.1 "Host"

/-- The fields of one connection, and the length of a body that comes in chunks. -/
def droppedNames (bodyKind : BodyKind) : List String :=
  (if bodyKind = .chunked then ["Content-Length"] else []) ++
    ["Proxy-Connection", "Connection", "Keep-Alive", "Proxy-Authenticate", "Proxy-Authorization", "TE", "Trailers",
      "Upgrade"]

def keptHeaders (bodyKind : BodyKind) (headers : Headers) : Headers :=
  headers.filter fun field => !(droppedNames bodyKind).any (eqIgnoreAsciiCase field.1)

theorem any_droppedNames (name : Text) (bodyKind : BodyKind) :
    (droppedNames bodyKind).any (eqIgnoreAsciiCase name) = shouldSkipRequestHeader name bodyKind := by
  have hlower : hopByHop.map String.toList =
      ["Proxy-Connection", "Connection", "Keep-Alive", "Proxy-Authenticate", "Proxy-Authorization", "TE", "Trailers",
        "Upgrade"].map fun (text : String) => text.toList.map Char.toLower := by decide
  rw [Bool.eq_iff_iff, shouldSkipRequestHeader, shouldSkipHeader, decide_eq_true_iff, hlower, droppedNames,
    List.any_append, Bool.or_eq_true]
  refine or_congr ?_ ?_
  · split
    case isTrue hchunked => simp [hchunked]
    case isFalse hother => simp [hother]
  · rw [List.any_eq_true, List.mem_map]
    exact exists_congr fun _ => and_congr_right fun _ => eqIgnoreAsciiCase_iff.trans eq_comm

theorem keptHeaders_eq (bodyKind : BodyKind) (headers : Headers) :
    keptHeaders bodyKind headers = headers.filter fun field => !shouldSkipRequestHeader field.1 bodyKind := by
  simp only [keptHeaders, any_droppedNames]

def outboundFields (host : Text) (bodyKind : BodyKind) (headers : Headers) : Headers :=
  let kept := keptHeaders bodyKind headers
  kept.map (fun field => if isHost field then (hostName, host) else field) ++
    (if kept.any isHost then [] else [(hostName, host)]) ++
    [connectionClose]

theorem foldl_pushHeader (host : Text) (bodyKind : BodyKind) (headers : Headers) (out : Text × Bool) :
    headers.foldl (pushHeader host bodyKind) out =
      (out.1 ++ ((keptHeaders bodyKind headers).map
          fun field => if isHost field then (hostName, host) else field).flatMap
            fun field => headerLine field.1 field.2,
        out.2 || (keptHeaders bodyKind headers).any isHost) := by
  induction headers generalizing out with
  | nil => simp [keptHeaders]
  | cons field headers ih =>
    rw [List.foldl_cons, ih, pushHeader, keptHeaders_eq, keptHeaders_eq]
    cases hskip : shouldSkipRequestHeader field.1 bodyKind with
    | true => simp [hskip]
    | false =>
      cases hhost : eqIgnoreAsciiCase field.1 "Host" with
      | true => simp [hskip, isHost, hhost]
      | false => simp [hskip, isHost, hhost]

theorem buildOutboundRequest_eq (request : HttpRequestHead) (target host : Text) (bodyKind : BodyKind) :
    buildOutboundRequest request target host bodyKind =
      request.method ++ ' ' :: target ++ ' ' :: request.version ++ crlf ++
        (outboundFields host bodyKind request.headers).flatMap
          (fun field => headerLine field.1 field.2) ++ crlf := by
  rw [buildOutboundRequest, foldl_pushHeader, outboundFields]
  cases (keptHeaders bodyKind request.headers).any isHost <;> simp

/-- What the server needs to find a field again. -/
structure SentField (field : Text × Text) : Prop where
  name : OneLine field.1
  value : OneLine field.2
  noColon : ':' ∉ field.1
  nameTrimmed : Trimmed isOws field.1

theorem ReadField.sent {field : Text × Text} (h : ReadField field) : SentField field where
  name := h.name
  value := h.value
  noColon := h.noColon
  nameTrimmed := h.nameTrimmed.mono fun _ => isWhitespace_of_isOws

def fieldText (field : Text × Text) : Text := field.1 ++ ':' :: ' ' :: field.2

theorem SentField.fieldText {field : Text × Text} (h : SentField field) :
    OneLine (fieldText field) ∧ fieldText field ≠ [] := by
  have hspace : OneLine ([] ++ ' ' :: field.2) :=
    OneLine.join (oneLine_of_not_mem List.not_mem_nil) h.value (by decide) (by decide)
  exact ⟨h.name.join hspace (by decide) (by decide), by simp [HttpProxy.fieldText]⟩

theorem fieldLine_fieldText {field : Text × Text} (h : SentField field) :
    fieldLine (fieldText field) = some (field.1, trimBy isOws field.2) := by
  have hsplit : splitOnce ':' (fieldText field) = some (field.1, ' ' :: field.2) :=
    splitOnce_eq_some_iff.mpr ⟨rfl, h.noColon⟩
  have hspace : trimBy isOws (' ' :: field.2) = trimBy isOws field.2 := by
    rw [trimBy, List.dropWhile_cons_of_pos (by decide), trimBy]
  rw [fieldLine, hsplit]
  simp [h.nameTrimmed.eq, hspace]

theorem flatMap_headerLine (sent : Headers) :
    crlf ++ sent.flatMap (fun field => headerLine field.1 field.2) ++ crlf =
      (sent.map fieldText ++ [[], []]).flatMap (['\r', '\n'] ++ ·) := by
  induction sent with
  | nil => rfl
  | cons field sent ih =>
    rw [List.map_cons, List.cons_append, List.flatMap_cons, List.flatMap_cons, ← ih]
    simp [headerLine, fieldText, crlf]

theorem mapM_fieldLine {sent : Headers} (hsent : ∀ field ∈ sent, SentField field) :
    (sent.map fieldText).mapM fieldLine =
      some (sent.map fun field => (field.1, trimBy isOws field.2)) := by
  induction sent with
  | nil => rfl
  | cons field sent ih =>
    obtain ⟨hfield, hsent⟩ := List.forall_mem_cons.mp hsent
    rw [List.map_cons, List.mapM_cons, fieldLine_fieldText hfield, ih hsent]
    rfl

theorem fields_of_sent {start : Text} {sent : Headers} (hstart : OneLine start)
    (hsent : ∀ field ∈ sent, SentField field) :
    fields (start ++ crlf ++ sent.flatMap (fun field => headerLine field.1 field.2) ++ crlf) =
      some (sent.map fun field => (field.1, trimBy isOws field.2)) := by
  have hlines : ∀ line ∈ sent.map fieldText ++ [[], []], OneLine line := by
    simp only [List.mem_append, List.mem_map]
    rintro line (⟨field, hmem, rfl⟩ | hempty)
    · exact (hsent field hmem).fieldText.1
    · apply oneLine_of_not_mem
      simp_all
  have hne : ∀ line ∈ sent.map fieldText, decide (line ≠ []) = true := by
    simp only [List.mem_map]
    rintro line ⟨field, hmem, rfl⟩
    exact decide_eq_true (hsent field hmem).fieldText.2
  have htext : start ++ crlf ++ sent.flatMap (fun field => headerLine field.1 field.2) ++ crlf =
      start ++ (sent.map fieldText ++ [[], []]).flatMap (['\r', '\n'] ++ ·) := by
    rw [← flatMap_headerLine]
    simp only [List.append_assoc]
  rw [fields, htext, splitSeq_lines (by decide) hstart hlines, List.tail_cons,
    List.takeWhile_append_of_pos hne]
  simpa using mapM_fieldLine hsent

theorem forall_outboundFields {P : Text × Text → Prop} {host : Text} {bodyKind : BodyKind} {headers : Headers}
    (hkept : ∀ field ∈ keptHeaders bodyKind headers, P field) (hhost : P (hostName, host))
    (hclose : P connectionClose) :
    ∀ field ∈ outboundFields host bodyKind headers, P field := by
  intro field hmem
  rcases List.mem_append.mp hmem with hmem | hmem
  · rcases List.mem_append.mp hmem with hmem | hmem
    · obtain ⟨original, horiginal, rfl⟩ := List.mem_map.mp hmem
      split
      · exact hhost
      · exact hkept original horiginal
    · split at hmem
      · cases hmem
      · exact List.mem_singleton.mp hmem ▸ hhost
  · exact List.mem_singleton.mp hmem ▸ hclose

theorem sentFields {headers : Headers} (hread : ∀ field ∈ headers, ReadField field) {host : Text}
    (hhost : OneLine host) (bodyKind : BodyKind) :
    ∀ field ∈ outboundFields host bodyKind headers, SentField field := by
  apply forall_outboundFields fun field hmem => (hread field (List.mem_of_mem_filter hmem)).sent
  · exact {
      name := oneLine_of_not_mem (show '\n' ∉ hostName by decide)
      value := hhost
      noColon := show ':' ∉ hostName by decide
      nameTrimmed := .of_any_eq_false (show hostName.any isOws = false by decide) }
  · exact {
      name := oneLine_of_not_mem (by decide)
      value := oneLine_of_not_mem (by decide)
      noColon := by decide
      nameTrimmed := .of_any_eq_false (by decide) }

/-- A field of this name is passed on, and the proxy adds none. -/
structure PassedOn (name : String) (bodyKind : BodyKind) : Prop where
  kept : ∀ text, eqIgnoreAsciiCase text name → shouldSkipRequestHeader text bodyKind = false
  notHost : ∀ text, eqIgnoreAsciiCase text name → eqIgnoreAsciiCase text "Host" = false
  notAdded : eqIgnoreAsciiCase hostName name = false ∧
    eqIgnoreAsciiCase connectionClose.1 name = false

theorem fieldValues_outbound {name : String} {bodyKind : BodyKind} (h : PassedOn name bodyKind)
    (host : Text) (headers : Headers) :
    fieldValues name (outboundFields host bodyKind headers) = fieldValues name headers := by
  have hkept : fieldValues name ((keptHeaders bodyKind headers).map
      fun field => if isHost field then (hostName, host) else field) = fieldValues name headers := by
    induction headers with
    | nil => rfl
    | cons field headers ih =>
      rw [fieldValues_cons, ← ih, keptHeaders_eq, keptHeaders_eq, List.filter_cons]
      by_cases hname : eqIgnoreAsciiCase field.1 name
      · simp [h.kept _ hname, isHost, h.notHost _ hname, fieldValues_cons, hname]
      · by_cases hskip : shouldSkipRequestHeader field.1 bodyKind
        · simp [hskip, hname]
        · by_cases hhost : isHost field
          · simpa [hskip, hname, hhost, fieldValues_cons] using h.notAdded.1
          · simp [hskip, hname, hhost, fieldValues_cons]
  have hadded : fieldValues name ((if (keptHeaders bodyKind headers).any isHost then []
      else [(hostName, host)]) ++ [connectionClose]) = [] := by
    rw [fieldValues_append, fieldValues_cons, h.notAdded.2]
    split
    · rfl
    · rw [fieldValues_cons, h.notAdded.1]
      rfl
  rw [outboundFields, List.append_assoc, fieldValues_append, hkept, hadded, List.append_nil]

theorem not_hopByHop {text : Text} {name : String} (h : eqIgnoreAsciiCase text name)
    (hname : name.toList.map Char.toLower ∉ hopByHop.map String.toList) :
    text.map Char.toLower ∉ hopByHop.map String.toList := by
  rwa [eqIgnoreAsciiCase_iff.mp h]

theorem passedOn_transferEncoding (bodyKind : BodyKind) : PassedOn "Transfer-Encoding" bodyKind where
  kept text h := by
    have hlength : eqIgnoreAsciiCase text "Content-Length" = false :=
      eqIgnoreAsciiCase_of_other h (by decide)
    have hhop := not_hopByHop h (by decide)
    rw [shouldSkipRequestHeader, shouldSkipHeader, decide_eq_false_iff_not, hlength]
    exact fun hskip => hskip.elim (fun hskip => Bool.noConfusion hskip.2) hhop
  notHost text h := eqIgnoreAsciiCase_of_other h (by decide)
  notAdded := by decide

theorem passedOn_contentLength {bodyKind : BodyKind} (hkind : bodyKind ≠ .chunked) :
    PassedOn "Content-Length" bodyKind where
  kept text h := by
    have hhop := not_hopByHop h (by decide)
    rw [shouldSkipRequestHeader, shouldSkipHeader, decide_eq_false_iff_not]
    exact fun hskip => hskip.elim (fun hskip => hkind hskip.1) hhop
  notHost text h := eqIgnoreAsciiCase_of_other h (by decide)
  notAdded := by decide

end Hysteria.App.HttpProxy
