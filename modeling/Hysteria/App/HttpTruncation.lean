import Hysteria.App.HttpServed

/-! Bodies that end too early. A copy of a fixed number of bytes stops without an error at the end of
the input, so a body announced by its length can be passed on short of it. A chunk whose size leaves no room
for its line end is copied short where overflow is not checked; every other body is passed on as a whole
or not at all. -/
namespace Hysteria.App.HttpProxy
open Lib

/-- A body of chunks, each with as many bytes as its line announces and a line end, whatever the two bytes
of that are. -/
inductive Announced : List UInt8 → Prop
  | last {line trailers : List UInt8} (hline : IsLine line) (hsize : chunkLength (line ++ crlfBytes) = .ok 0)
      (htrailers : Trailers (fun _ => True) trailers) : Announced (line ++ crlfBytes ++ trailers)
  | chunk {line data rest : List UInt8} {n : Nat} (hline : IsLine line)
      (hsize : chunkLength (line ++ crlfBytes) = .ok n) (hpos : n ≠ 0) (hdata : data.length = n + 2)
      (hrest : Announced rest) : Announced (line ++ crlfBytes ++ (data ++ rest))

/-- A body that was passed on: what announced its end, what there was to read, and what was sent. -/
structure Transfer where
  kind : BodyKind
  input : List UInt8
  sent : List UInt8

namespace Transfer

def Whole (t : Transfer) : Prop :=
  t.sent <+: t.input ∧
    match t.kind with
    | .none => t.sent = []
    | .contentLength length => t.sent.length = length
    | .chunked => Announced t.sent
    | .untilEof => t.sent = t.input

/-- The input ends before the length that was announced. -/
def Truncated (t : Transfer) : Prop := ∃ length, t.kind = .contentLength length ∧ t.input.length < length

/-- A chunk announces so many bytes that their number and 2 overflow, in a build that does not check it. -/
def Wraps (profile : Profile) (t : Transfer) : Prop :=
  t.kind = .chunked ∧ profile.overflowChecks = false ∧
    ∃ line tail n, Behind t.input (line ++ crlfBytes ++ tail) ∧ IsLine line ∧
      chunkLength (line ++ crlfBytes) = .ok n ∧ usizeSize ≤ n + 2

def Made (profile : Profile) (t : Transfer) : Prop :=
  ∃ s s', s.bytes = t.input ∧ transferBody profile s t.kind = .ok (t.sent, s')

end Transfer

theorem length_transferExactBytes (s : Inbound) (n : Nat) :
    (transferExactBytes s n).1.length = n ↔ n ≤ s.bytes.length := by
  rw [(transferExactBytes_eq s n).1, List.length_take]
  omega

theorem Behind.length_le {input left : List UInt8} (h : Behind input left) : left.length ≤ input.length := by
  induction h with
  | start => exact Nat.le_refl _
  | next _ _ _ _ _ ih =>
    simp only [List.length_append] at ih
    omega

theorem Announced.sized {body rest line tail : List UInt8} {n : Nat} (h : Announced body) (hline : IsLine line)
    (hsize : chunkLength (line ++ crlfBytes) = .ok n) (hsplit : line ++ crlfBytes ++ tail = body ++ rest) :
    n = 0 ∨ ∃ data more, data.length = n + 2 ∧ Announced more ∧ tail = data ++ (more ++ rest) := by
  cases h with
  | last hlast hzero _ =>
    rw [List.append_assoc _ _ rest] at hsplit
    obtain ⟨rfl, -⟩ := line_inj hline hlast hsplit
    rw [hzero] at hsize
    exact .inl (Except.ok.inj hsize).symm
  | chunk hchunk hsame _ hdata hmore =>
    rw [List.append_assoc _ _ rest, List.append_assoc _ _ rest] at hsplit
    obtain ⟨rfl, htail⟩ := line_inj hline hchunk hsplit
    rw [hsame] at hsize
    obtain rfl := Except.ok.inj hsize
    exact .inr ⟨_, _, hdata, hmore, htail⟩

theorem Announced.behind {body tail left : List UInt8} (hbody : Announced body) (h : Behind (body ++ tail) left) :
    ∃ rest, Announced rest ∧ left = rest ++ tail := by
  induction h with
  | start => exact ⟨body, hbody, rfl⟩
  | next _ hline hsize hpos hdata ih =>
    obtain ⟨rest, hrest, hleft⟩ := ih
    rcases hrest.sized hline hsize hleft with hzero | ⟨chunk, more, hlength, hmore, hsplit⟩
    · exact absurd hzero hpos
    · exact ⟨more, hmore, (List.append_inj hsplit (hdata.trans hlength.symm)).2⟩

theorem Accepted.announced {profile : Profile} {input body tail : List UInt8}
    (hsmall : profile.overflowChecks = false → ∀ line tail n, Behind input (line ++ crlfBytes ++ tail) → IsLine line →
      chunkLength (line ++ crlfBytes) = .ok n → n + 2 < usizeSize)
    (hbody : Accepted profile (fun _ => True) body) (hbehind : Behind input (body ++ tail)) : Announced body := by
  induction hbody with
  | last hline _ hsize htrailers => exact .last hline hsize htrailers
  | @chunk line data rest n hline _ hsize hpos hcount _ ih =>
    rw [List.append_assoc (line ++ crlfBytes), List.append_assoc data] at hbehind
    have hroom : n + 2 < usizeSize := by
      by_contra hlarge
      rw [addUsize, if_neg hlarge, overflow] at hcount
      cases hchecks : profile.overflowChecks with
      | true =>
        rw [if_pos hchecks] at hcount
        cases hcount
      | false => exact hlarge (hsmall hchecks line (data ++ (rest ++ tail)) n hbehind hline hsize)
    rw [addUsize_ok profile hroom] at hcount
    have hdata : data.length = n + 2 := (Except.ok.inj hcount).symm
    exact .chunk hline hsize hpos hdata (ih (hbehind.next hline hsize hpos hdata))

section
variable {profile : Profile} {t : Transfer}

theorem Transfer.Made.isPrefix (h : t.Made profile) : t.sent <+: t.input := by
  obtain ⟨s, s', hinput, hsent⟩ := h
  exact ⟨s'.bytes, by rw [← hinput, transferBody_bytes hsent]⟩

theorem Transfer.Made.whole (h : t.Made profile) (hlong : ¬ t.Truncated) (hroom : ¬ t.Wraps profile) : t.Whole := by
  have hstart := h.isPrefix
  obtain ⟨s, s', hinput, hsent⟩ := h
  obtain ⟨kind, input, sent⟩ := t
  subst hinput
  cases kind with
  | none =>
    cases hsent
    exact ⟨hstart, rfl⟩
  | contentLength length =>
    have hlen := length_transferExactBytes s length
    rw [show transferExactBytes s length = (sent, s') from Except.ok.inj hsent] at hlen
    exact ⟨hstart, hlen.mpr (Nat.le_of_not_lt fun hlt => hlong ⟨length, rfl, hlt⟩)⟩
  | chunked =>
    have hbehind : Behind s.bytes (sent ++ s'.bytes) := by
      rw [← transferBody_bytes hsent]
      exact .start
    refine ⟨hstart, (transferChunkedBody_accepted hsent).announced (fun hchecks line tail n hline hisLine hsize => ?_)
      hbehind⟩
    by_contra hlarge
    exact hroom ⟨rfl, hchecks, line, tail, n, hline, hisLine, hsize, Nat.le_of_not_lt hlarge⟩
  | untilEof =>
    cases hsent
    exact ⟨hstart, rfl⟩

theorem Transfer.Whole.not_short (h : t.Whole) (hinput : t.input.length < usizeSize) :
    ¬ t.Truncated ∧ ¬ t.Wraps profile := by
  obtain ⟨kind, input, sent⟩ := t
  obtain ⟨⟨rest, hrest⟩, hwhole⟩ := h
  change sent ++ rest = input at hrest
  subst hrest
  constructor
  · rintro ⟨length, rfl, hlt⟩
    have hlength : sent.length = length := hwhole
    rw [List.length_append] at hlt
    omega
  · rintro ⟨rfl, -, line, tail, n, hbehind, hline, hsize, hlarge⟩
    have hbody : Announced sent := hwhole
    obtain ⟨body, hannounced, hleft⟩ := hbody.behind hbehind
    have hlength := hbehind.length_le
    rcases hannounced.sized hline hsize hleft with rfl | ⟨data, more, hdata, -, rfl⟩
    · revert hlarge
      decide
    · simp only [List.length_append] at hlength hinput
      omega

end

structure Relayed where
  response : HttpResponseHead
  body : Transfer

namespace Relayed

def informational (r : Relayed) : Bool :=
  100 ≤ r.response.status ∧ r.response.status < 200 ∧ r.response.status ≠ 101

def bytes (config : Config) (keepAliveRequested : Bool) (r : Relayed) : List UInt8 :=
  utf8 (buildOutboundResponse config.canonicalReason r.response r.body.kind
    (if r.informational then none else some (keepAliveRequested && r.body.kind ≠ .untilEof))) ++ r.body.sent

structure Made (config : Config) (request : HttpRequestHead) (r : Relayed) : Prop where
  head : ∃ head, parseResponse head = .ok r.response
  kind : responseBodyKind request.method r.response.status r.response.headers = .ok r.body.kind
  body : r.body.Made config.profile

end Relayed

theorem Relayed.made {config : Config} {request : HttpRequestHead} {head : List UInt8}
    {response : HttpResponseHead} {kind : BodyKind} {s s' : Inbound} {sent : List UInt8}
    (hhead : (do
      let response ← parseResponse head
      let bodyKind ← responseBodyKind request.method response.status response.headers
      return (response, bodyKind) : Exec String (HttpResponseHead × BodyKind)) = .ok (response, kind))
    (hbody : transferBody config.profile s kind = .ok (sent, s')) :
    Relayed.Made config request ⟨response, kind, s.bytes, sent⟩ := by
  obtain ⟨read, hparse, hhead⟩ := bind_eq_ok.mp hhead
  obtain ⟨kind', hkind, hhead⟩ := bind_eq_ok.mp hhead
  cases hhead
  exact ⟨⟨head, hparse⟩, hkind, s, s', rfl, hbody⟩

theorem relayResponses_ok {config : Config} {request : HttpRequestHead} {keepAliveRequested keepAlive : Bool}
    {remote : Inbound} {answer : List UInt8}
    (h : relayResponses config request keepAliveRequested remote = .ok (answer, keepAlive)) :
    ∃ earlier last, (∀ r ∈ earlier ++ [last], r.Made config request) ∧
      answer = (earlier ++ [last]).flatMap (Relayed.bytes config keepAliveRequested) ∧
      keepAlive = (keepAliveRequested && last.body.kind ≠ .untilEof) := by
  fun_induction relayResponses config request keepAliveRequested remote generalizing answer with
  | case1 => cases h
  | case2 => cases h
  | case3 => cases h
  | case4 => cases h
  | case5 => cases h
  | case6 =>
    rename_i remote head s hread response kind hhead informational _ outbound body s' hbody hinf more keep hmore ih
    cases h
    obtain ⟨earlier, last, hmade, rfl, hkeep⟩ := ih hmore
    refine ⟨⟨response, kind, s.bytes, body⟩ :: earlier, last, ?_, ?_, hkeep⟩
    · exact List.forall_mem_cons.mpr ⟨Relayed.made hhead hbody, hmade⟩
    · have hinf : Relayed.informational ⟨response, kind, s.bytes, body⟩ := decide_eq_true hinf
      rw [List.cons_append, List.flatMap_cons, Relayed.bytes, if_pos hinf]
      simp only [outbound, dif_pos (show informational from of_decide_eq_true hinf)]
  | case7 =>
    rename_i remote head s hread response kind hhead informational canKeepAlive outbound body s' hbody hinf
    have hkeep : decide canKeepAlive = (keepAliveRequested && kind ≠ .untilEof) := by
      simp [canKeepAlive, hinf]
    cases h
    refine ⟨[], ⟨response, kind, s.bytes, body⟩, ?_, ?_, ?_⟩
    · exact List.forall_mem_cons.mpr ⟨Relayed.made hhead hbody, nofun⟩
    · have hinf' : ¬ Relayed.informational ⟨response, kind, s.bytes, body⟩ := fun h => hinf (of_decide_eq_true h)
      rw [List.nil_append, List.flatMap_singleton, Relayed.bytes, if_neg hinf', ← hkeep]
      simp only [outbound, dif_neg hinf]
    · exact hkeep

/-- A copy of `n` bytes writes and removes the first `n` bytes, or all there are: no error tells the two
apart. Of the bodies that are forwarded with a request and its answers, those are sent up to their end whose
input does not end before the length that was announced and which announce no chunk that wraps around, and no
others; the connection is kept all the same. -/
theorem forwarded_whole_iff (s : Inbound) (n : Nat) (config : Config) (upstream : Upstream)
    (request : HttpRequestHead) (bodyKind : BodyKind) (keepAliveRequested : Bool) :
    ((transferExactBytes s n).1 = s.bytes.take n ∧ (transferExactBytes s n).2.bytes = s.bytes.drop n ∧
        ((transferExactBytes s n).1.length = n ↔ n ≤ s.bytes.length)) ∧
      ∀ {s' keepAlive exchange},
        handleHttpRequest config upstream request s bodyKind keepAliveRequested = .ok (exchange, keepAlive, s') →
        ∃ earlier last, (∀ r ∈ earlier ++ [last], r.Made config request) ∧
          exchange.answer = (earlier ++ [last]).flatMap (Relayed.bytes config keepAliveRequested) ∧
          keepAlive = (keepAliveRequested && last.body.kind ≠ .untilEof) ∧
          ∀ t ∈ ⟨bodyKind, s.bytes, exchange.body⟩ :: (earlier ++ [last]).map Relayed.body,
            (¬ t.Truncated ∧ ¬ t.Wraps config.profile → t.Whole) ∧
              (t.input.length < usizeSize → t.Whole → ¬ t.Truncated ∧ ¬ t.Wraps config.profile) := by
  refine ⟨⟨(transferExactBytes_eq s n).1, (transferExactBytes_eq s n).2, length_transferExactBytes s n⟩, ?_⟩
  intro s' keepAlive exchange h
  obtain ⟨-, hbody, remote, hrelay⟩ := handleHttpRequest_ok h
  obtain ⟨earlier, last, hmade, hanswer, hkeep⟩ := relayResponses_ok hrelay
  have hbodies : ∀ t ∈ ⟨bodyKind, s.bytes, exchange.body⟩ :: (earlier ++ [last]).map Relayed.body,
      t.Made config.profile := by
    refine List.forall_mem_cons.mpr ⟨⟨s, s', rfl, hbody⟩, fun t hmem => ?_⟩
    obtain ⟨r, hr, rfl⟩ := List.mem_map.mp hmem
    exact (hmade r hr).body
  refine ⟨earlier, last, hmade, hanswer, hkeep, fun t hmem => ⟨fun hlong => ?_, fun hinput hwhole => ?_⟩⟩
  · exact (hbodies t hmem).whole hlong.1 hlong.2
  · exact hwhole.not_short hinput

def shortAnswer : Upstream := fun _ =>
  .ok (.ofPieces [utf8 "HTTP/1.1 200 OK\r\nContent-Length: 5\r\n\r\nab".toList])

theorem forwarded_whole_emptyAnswer :
    ∃ exchange s', handleHttpRequest sampleConfig emptyAnswer (sampleRequest []) ⟨[], .ofPieces []⟩ .none true =
        .ok (exchange, true, s') ∧
      ∃ earlier last, exchange.answer = (earlier ++ [last]).flatMap (Relayed.bytes sampleConfig true) ∧
        (¬ last.body.Truncated ∧ ¬ last.body.Wraps ⟨true⟩ → last.body.Whole) := by
  have hkept : (handleHttpRequest sampleConfig emptyAnswer (sampleRequest []) ⟨[], .ofPieces []⟩ .none
      true).toOption.map (fun served => served.2.1) = some true := by decide +kernel
  obtain ⟨⟨exchange, keep, s'⟩, hserved, rfl⟩ := ok_of_toOption hkept
  obtain ⟨earlier, last, -, hanswer, -, hwhole⟩ := (forwarded_whole_iff ⟨[], .ofPieces []⟩ 0 sampleConfig emptyAnswer
    (sampleRequest []) .none true).2 hserved
  exact ⟨exchange, s', hserved, earlier, last, hanswer, (hwhole last.body (by simp)).1⟩

def wrappedChunk : List UInt8 := List.replicate 16 102 ++ crlfBytes ++ ([88] ++ [48, 13, 10, 13, 10])

/-- Two bytes of five are copied without an error, and a client gets them under a head that announces five,
over a connection that is kept. Without overflow checks a chunk of one byte is taken for one of
`2 ^ 64 - 1`. -/
theorem truncated_forwarded :
    transferExactBytes ⟨[97], .ofPieces [[98]]⟩ 5 = ([97, 98], ⟨[], .ofPieces []⟩) ∧
      ∃ exchange s', handleHttpRequest sampleConfig shortAnswer (sampleRequest []) ⟨[], .ofPieces []⟩ .none true =
          .ok (exchange, true, s') ∧
        exchange.answer = utf8 ("HTTP/1.1 200 OK\r\nContent-Length: 5\r\nConnection: keep-alive\r\n" ++
          "Proxy-Connection: keep-alive\r\nKeep-Alive: timeout=60\r\n\r\nab").toList ∧
        ∃ s', transferChunkedBody ⟨false⟩ ⟨wrappedChunk, .ofPieces []⟩ = .ok (wrappedChunk, s') := by
  have hwrapped : Accepted ⟨false⟩ Short wrappedChunk :=
    @Accepted.chunk ⟨false⟩ Short (List.replicate 16 102) [88] _ (2 ^ 64 - 1) (isLine_of_noReturn (by decide))
      (by decide) (by decide) (by decide) (by decide) (lastChunk_accepted _)
  obtain ⟨s₁, hchunk, -⟩ := hwrapped.transfer (s := ⟨wrappedChunk, .ofPieces []⟩) (List.append_nil _).symm
  have hkept : (handleHttpRequest sampleConfig shortAnswer (sampleRequest []) ⟨[], .ofPieces []⟩ .none
      true).toOption.map (fun served => (served.1.answer, served.2.1)) =
        some (utf8 ("HTTP/1.1 200 OK\r\nContent-Length: 5\r\nConnection: keep-alive\r\n" ++
          "Proxy-Connection: keep-alive\r\nKeep-Alive: timeout=60\r\n\r\nab").toList, true) := by
    decide +kernel
  obtain ⟨⟨exchange, keep, s'⟩, hserved, hanswer⟩ := ok_of_toOption hkept
  obtain ⟨hanswer, rfl⟩ := Prod.mk.inj hanswer
  exact ⟨by decide, exchange, s', hserved, hanswer, s₁, hchunk⟩

end Hysteria.App.HttpProxy
