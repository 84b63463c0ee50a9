import Hysteria.App.HttpChunked
import Hysteria.App.HttpRequests

/-! What the proxy forwards of a stream of well-formed requests: with each request its own
body, and the next request starts right behind it. -/
namespace Hysteria.App.HttpProxy
open Lib Rfc9112

theorem trailers_trailerBytes (trailers : List Trailer) : Trailers Short (trailerBytes trailers) := by
  induction trailers with
  | nil => exact .last
  | cons trailer trailers ih =>
    rw [trailerBytes_cons]
    exact .more (isLine_of_noReturn trailer.oneLine) trailer.nonempty trailer.short ih

theorem ChunkLine.isLine (line : ChunkLine) : IsLine line.bytes := by
  have hdigits : 13 ∉ utf8 line.digits := by
    apply utf8_noReturn
    exact fun hmem => absurd ((numeral_digits line.isSize).2 '\r' hmem) (by decide)
  apply isLine_of_noReturn
  rw [ChunkLine.bytes, List.mem_append]
  exact not_or.mpr ⟨hdigits, line.oneLine⟩

theorem ChunkLine.chunkLength {line : ChunkLine}
    (h : line.size + 2 < 2 ^ 64 ∧ ∃ text, line.extension = utf8 text) :
    chunkLength (line.bytes ++ crlfBytes) = .ok line.size :=
  chunkLength_eq line.isSize line.extensionPlain (by omega) h.2

theorem chunks_accepted (profile : Profile) {last : ChunkLine} (hlast : last.size = 0)
    (trailers : List Trailer) {chunks : List Chunk}
    (hreadable : ∀ line ∈ last :: chunks.map Chunk.line,
      line.size + 2 < 2 ^ 64 ∧ ∃ text, line.extension = utf8 text) :
    Accepted profile Short (chunks.flatMap Chunk.bytes ++
      (last.bytes ++ crlfBytes ++ trailerBytes trailers)) := by
  obtain ⟨hreadLast, hreadChunks⟩ := List.forall_mem_cons.mp hreadable
  clear hreadable
  induction chunks with
  | nil =>
    rw [List.flatMap_nil, List.nil_append]
    exact .last last.isLine last.short (hlast ▸ ChunkLine.chunkLength hreadLast)
      (trailers_trailerBytes trailers)
  | cons chunk chunks ih =>
    obtain ⟨hread, hreadChunks⟩ := List.forall_mem_cons.mp hreadChunks
    have hdata : (chunk.data ++ crlfBytes).length = chunk.line.size + 2 := by
      rw [List.length_append, chunk.size]
      rfl
    have hpos : chunk.line.size ≠ 0 := by
      rw [← chunk.size]
      exact (List.length_pos_iff.mpr chunk.nonempty).ne'
    rw [List.flatMap_cons, Chunk.bytes, List.append_assoc, List.append_assoc]
    refine .chunk chunk.line.isLine chunk.line.short (ChunkLine.chunkLength hread) hpos ?_ (ih hreadChunks)
    rw [hdata, addUsize_ok profile hread.1]

theorem transferBody_eq (profile : Profile) {body : Body} (hreadable : body.Readable) {s : Inbound}
    {tail : List UInt8} (hbytes : s.bytes = body.bytes ++ tail) :
    ∃ s', transferBody profile s body.kind = .ok (body.bytes, s') ∧ s'.bytes = tail := by
  cases body with
  | absent => exact ⟨s, rfl, hbytes⟩
  | length data =>
    by_cases hnone : data.length = 0
    · obtain rfl := List.eq_nil_of_length_eq_zero hnone
      exact ⟨s, rfl, hbytes⟩
    · obtain ⟨hsent, hleft⟩ := transferExactBytes_eq s data.length
      rw [show s.bytes = data ++ tail from hbytes, List.take_left] at hsent
      rw [show s.bytes = data ++ tail from hbytes, List.drop_left] at hleft
      refine ⟨_, ?_, hleft⟩
      rw [Body.kind, if_neg hnone]
      exact congrArg Except.ok (Prod.ext hsent rfl)
  | chunked body => exact (chunks_accepted profile body.lastSize body.trailers hreadable).transfer hbytes

theorem turn_served {config : Config} {upstream : Upstream} {s s' : Inbound} {exchange : Exchange}
    {keepAlive : Bool} (h : turn config upstream s = .ok (.served exchange keepAlive s')) :
    ∃ s₁ bodyKind, readHttpRequest s = .ok (some exchange.request, s₁) ∧
      requestBodyKind exchange.request.headers = .ok bodyKind ∧
      transferBody config.profile s₁ bodyKind = .ok (exchange.body, s') := by
  obtain ⟨⟨request, s₁⟩, hread, h⟩ := bind_eq_ok.mp h
  cases request with
  | none => cases h
  | some request =>
    dsimp only at h
    split at h
    · cases h
    · split at h
      · obtain ⟨addr, -, h⟩ := bind_eq_ok.mp h
        obtain ⟨remote, -, h⟩ := bind_eq_ok.mp h
        cases h
      · obtain ⟨bodyKind, hkind, h⟩ := bind_eq_ok.mp h
        obtain ⟨⟨served, keep, s₂⟩, hserved, h⟩ := bind_eq_ok.mp h
        cases h
        obtain ⟨rfl, hbody, -⟩ := handleHttpRequest_ok hserved
        exact ⟨s₁, bodyKind, hread, hkind, hbody⟩

theorem step_served {config : Config} {c c' : Connection} {upstream : Upstream}
    (h : step config c upstream = some c') :
    ∃ exchange, turn config upstream c.inbound = .ok (.served exchange true c'.inbound) ∧
      c'.exchanges = c.exchanges ++ [exchange] := by
  rw [step] at h
  split at h
  case h_1 exchange s hturn =>
    cases h
    exact ⟨exchange, hturn, rfl⟩
  case h_2 => cases h

/-- The next turn of the loop: the first of the requests still to come is read and its body
forwarded, and what is left are the others; the turn ends with it unless the credentials or
the way to the server and back fail. With no request to come, the end of the stream is seen. -/
def ReadsNext (config : Config) (s : Inbound) : List Request → Prop
  | [] => ∀ upstream, turn config upstream s = .ok .closed
  | request :: requests => ∃ s₁ s₂ bodyKind,
      readHttpRequest s = .ok (some request.head.request, s₁) ∧
        requestBodyKind request.head.request.headers = .ok bodyKind ∧
        transferBody config.profile s₁ bodyKind = .ok (request.body.bytes, s₂) ∧
        s₂.bytes = requests.flatMap Request.bytes ∧
        ∀ upstream addr target host remote answer keepAlive,
          config.refuses request.head.request = false →
          parseProxyTarget config.addrs request.head.target request.head.request.headers =
            .ok (addr, target, host) →
          connect upstream addr = .ok remote →
          relayResponses config request.head.request (requestKeepAlive request.head.request) remote =
            .ok (answer, keepAlive) →
          ∃ head, turn config upstream s =
            .ok (.served ⟨request.head.request, head, request.body.bytes, answer⟩ keepAlive s₂)

theorem readHttpRequest_eof {s : Inbound} (h : s.bytes = []) : readHttpRequest s = .ok (none, s) := by
  obtain ⟨hbuffer, hsource⟩ := List.append_eq_nil_iff.mp h
  have hread : (s.source.read httpHead.cap).1 = [] :=
    (List.append_eq_nil_iff.mp ((s.source.read_append _).trans hsource)).1
  have hnone : findSeq httpHead.needle s.buffer = none := by
    rw [hbuffer]
    rfl
  rw [readHttpRequest, readHttpHead, Scan.run_eof hnone rfl hread, hbuffer]
  rfl

theorem readsNext (config : Config) {requests : List Request}
    (hreadable : ∀ request ∈ requests, request.body.Readable) {s : Inbound}
    (hbytes : s.bytes = requests.flatMap Request.bytes) : ReadsNext config s requests := by
  cases requests with
  | nil =>
    intro upstream
    rw [turn, readHttpRequest_eof hbytes]
    rfl
  | cons request requests =>
    have hsplit : s.bytes = utf8 request.head.text ++ (crlfBytes ++ crlfBytes) ++
        (request.body.bytes ++ requests.flatMap Request.bytes) := by
      rw [hbytes, List.flatMap_cons, Request.bytes]
      simp only [List.append_assoc]
    have hbody := hreadable request List.mem_cons_self
    obtain ⟨s₁, hread, hrest⟩ := readHttpRequest_eq request.short hsplit
    obtain ⟨s₂, htransfer, hleft⟩ := transferBody_eq config.profile hbody hrest
    have hkind := requestBodyKind_framed request.framed hbody
    refine ⟨s₁, s₂, _, hread, hkind, htransfer, hleft, ?_⟩
    intro upstream addr target host remote answer keepAlive hauth htarget hconnect hrelay
    refine ⟨utf8 (buildOutboundRequest request.head.request target host request.body.kind), ?_⟩
    have hmethod : eqIgnoreAsciiCase request.head.request.method "CONNECT" = false := request.notConnect
    have hserved : handleHttpRequest config upstream request.head.request s₁ request.body.kind
        (requestKeepAlive request.head.request) = .ok (⟨request.head.request,
          utf8 (buildOutboundRequest request.head.request target host request.body.kind),
          request.body.bytes, answer⟩, keepAlive, s₂) := by
      rw [handleHttpRequest, show parseProxyTarget config.addrs request.head.request.target _ = _ from htarget]
      simp only [ok_bind, hconnect, htransfer, hrelay]
      rfl
    rw [turn, hread]
    simp only [ok_bind, hauth, hmethod, hkind, hserved, Bool.false_eq_true, if_false]
    rfl

/-- The requests fall into those served, in order and each with its own body, and those that
the buffer and the unread stream hold. -/
structure Progress (requests : List Request) (c : Connection) (served rest : List Request) : Prop where
  all : requests = served ++ rest
  exchanges : c.exchanges.map (fun exchange => (exchange.request, exchange.body)) =
    served.map fun request => (request.head.request, request.body.bytes)
  left : c.inbound.bytes = rest.flatMap Request.bytes

theorem step_progress {config : Config} {requests : List Request}
    (hreadable : ∀ request ∈ requests, request.body.Readable) {c c' : Connection} {upstream : Upstream}
    {served rest : List Request} (hprogress : Progress requests c served rest)
    (hstep : step config c upstream = some c') :
    ∃ request rest', Progress requests c' (served ++ [request]) rest' := by
  obtain ⟨exchange, hturn, hexchanges⟩ := step_served hstep
  obtain ⟨s₁, bodyKind, hread, hkind, hbody⟩ := turn_served hturn
  have hnext : ReadsNext config c.inbound rest := by
    refine readsNext config ?_ hprogress.left
    exact fun request hmem => hreadable request (hprogress.all ▸ List.mem_append_right served hmem)
  cases rest with
  | nil =>
    rw [hnext upstream] at hturn
    cases hturn
  | cons request rest =>
    obtain ⟨s₁', s₂, bodyKind', hread', hkind', hbody', hleft, -⟩ := hnext
    obtain ⟨hrequest, rfl⟩ := Prod.mk.inj (Except.ok.inj (hread'.symm.trans hread))
    have hrequest := Option.some.inj hrequest
    rw [← hrequest, hkind'] at hkind
    cases hkind
    rw [hbody'] at hbody
    obtain ⟨hbytes, rfl⟩ := Prod.mk.inj (Except.ok.inj hbody)
    refine ⟨request, rest, ?_, ?_, hleft⟩
    · rw [hprogress.all, List.append_assoc, List.singleton_append]
    · rw [hexchanges, List.map_append, hprogress.exchanges, List.map_append, List.map_singleton,
        List.map_singleton, hrequest, hbytes]

/-- On a stream of well-formed requests, however it is cut, and whatever the servers answer:
as long as the connection is kept, the heads are read as the requests in order, with each its
own body is forwarded, and what is left between two requests is exactly the rest of them. -/
theorem requests_served_in_order (config : Config) {requests : List Request}
    (hreadable : ∀ request ∈ requests, request.body.Readable) {source : Source}
    (hsource : source.bytes = requests.flatMap Request.bytes) {upstreams : List Upstream} {c : Connection}
    (hrun : run (step config) ⟨⟨[], source⟩, []⟩ upstreams = some c) :
    ∃ served rest, Progress requests c served rest ∧ ReadsNext config c.inbound rest := by
  have hprogress : ∃ served rest, Progress requests c served rest := by
    refine run_induction (I := fun c => ∃ served rest, Progress requests c served rest) ?_ ?_ hrun
    · rintro c upstream c' ⟨served, rest, hprogress⟩ hstep
      obtain ⟨request, rest', hprogress'⟩ := step_progress hreadable hprogress hstep
      exact ⟨served ++ [request], rest', hprogress'⟩
    · exact ⟨[], requests, rfl, rfl, hsource⟩
  obtain ⟨served, rest, hprogress⟩ := hprogress
  refine ⟨served, rest, hprogress, readsNext config ?_ hprogress.left⟩
  exact fun request hmem => hreadable request (hprogress.all ▸ List.mem_append_right served hmem)

def lengthField : FieldLine where
  name := "Content-Length".toList
  raw := " 3".toList
  noColon := by decide
  nameTrimmed := .of_any_eq_false (by decide)
  oneLine := by decide

def keepAliveField : FieldLine where
  name := "Connection".toList
  raw := " keep-alive".toList
  noColon := by decide
  nameTrimmed := .of_any_eq_false (by decide)
  oneLine := by decide

def chunkedField : FieldLine where
  name := "Transfer-Encoding".toList
  raw := " chunked".toList
  noColon := by decide
  nameTrimmed := .of_any_eq_false (by decide)
  oneLine := by decide

def post (fields : List FieldLine) : Head where
  method := "POST".toList
  target := "http://a/".toList
  fields := fields
  methodPlain := by decide
  targetPlain := by decide

def lastLine : ChunkLine where
  digits := ['0']
  extension := []
  size := 0
  isSize := by decide
  extensionPlain := .inl rfl
  oneLine := by decide
  short := by decide

def plainRequest : Request where
  head := post [lengthField, keepAliveField]
  body := .length [97, 98, 99]
  framed := ⟨by decide +kernel, ['3'], by decide +kernel, by decide⟩
  short := by decide +kernel
  notConnect := by decide

def chunkedRequest : Request where
  head := post [chunkedField]
  body := .chunked ⟨[], lastLine, rfl, []⟩
  framed := show lastCodingChunked _ = true by decide +kernel
  short := by decide +kernel
  notConnect := by decide

def sampleConfig : Config where
  profile := ⟨true⟩
  addrs := namesOnly
  base64 := ⟨fun _ => none, fun _ => none⟩
  canonicalReason _ := none
  auth := none

def emptyAnswer : Upstream :=
  fun _ => .ok (.ofPieces [utf8 "HTTP/1.1 204 No Content\r\n\r\n".toList])

def samplePieces : Source :=
  let bytes := plainRequest.bytes ++ chunkedRequest.bytes
  .ofPieces [bytes.take 20, (bytes.drop 20).take 80, bytes.drop 100]

theorem isSome_sampleRun :
    (run (step sampleConfig) ⟨⟨[], samplePieces⟩, []⟩ [emptyAnswer]).isSome := by
  decide +kernel

theorem requests_served_sample :
    ∃ c, run (step sampleConfig) ⟨⟨[], samplePieces⟩, []⟩ [emptyAnswer] = some c ∧
      ∃ served rest, Progress [plainRequest, chunkedRequest] c served rest ∧
        ReadsNext sampleConfig c.inbound rest := by
  have hreadable : ∀ request ∈ [plainRequest, chunkedRequest], request.body.Readable := by
    simp only [List.forall_mem_cons]
    refine ⟨show 3 < 2 ^ 64 by decide, ?_, nofun⟩
    rintro line (_ | ⟨_, ⟨⟩⟩)
    exact ⟨by decide, [], rfl⟩
  have hsource : samplePieces.bytes = [plainRequest, chunkedRequest].flatMap Request.bytes := by
    decide +kernel
  exact ⟨_, (Option.some_get isSome_sampleRun).symm,
    requests_served_in_order sampleConfig hreadable hsource (Option.some_get isSome_sampleRun).symm⟩

def obsTextLine : ChunkLine where
  digits := ['1']
  extension := [59, 97, 61, 34, 255, 34]
  size := 1
  isSize := by decide
  extensionPlain := .inr ⟨[], [97, 61, 34, 255, 34], rfl, nofun⟩
  oneLine := by decide
  short := by decide

def obsTextRequest : Request where
  head := post [chunkedField]
  body := .chunked ⟨[⟨obsTextLine, [120], rfl, by decide⟩], lastLine, rfl, []⟩
  framed := show lastCodingChunked _ = true by decide +kernel
  short := by decide +kernel
  notConnect := by decide

/-- A well-formed request whose body is not forwarded. -/
theorem obsText_not_forwarded : ∃ s,
    readHttpRequest ⟨[], .ofPieces [obsTextRequest.bytes]⟩ =
        .ok (some obsTextRequest.head.request, s) ∧
      requestBodyKind obsTextRequest.head.request.headers = .ok .chunked ∧
      ∀ profile, transferBody profile s .chunked = .error (.error "invalid HTTP chunk header") := by
  refine ⟨⟨obsTextRequest.body.bytes, .ofPieces []⟩, by decide +kernel, by decide +kernel, ?_⟩
  rintro ⟨checks⟩
  revert checks
  decide +kernel

end Hysteria.App.HttpProxy
