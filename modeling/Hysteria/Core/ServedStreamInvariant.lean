import Hysteria.Core.TcpTunnel

/-! Where the server's task for a stream stands, as long as the client sends what `Client::tcp`
sends. For each stage it says what has been read, dialled, answered and relayed. -/
namespace Hysteria.Core
open Lib

theorem readArrived_ok {reader : Reads CoreError α} {pipe pipe' : Pipe UInt8} {a : α}
    (h : readArrived reader pipe = some (.ok (a, pipe'))) :
    ∃ rest, reader pipe.pending = .ok (a, rest) ∧ pipe' = pipe.take (pipe.pending.length - rest.length) := by
  unfold readArrived at h
  split at h
  · next hread =>
    cases h
    exact ⟨_, hread, rfl⟩
  · split at h <;> cases h
  · cases h

theorem readArrived_written {reader : Reads CoreError α} (hreader : Incremental RuntimeIo.earlyEof reader)
    {pipe pipe' : Pipe UInt8} {a b : α} {frame unsent tail : List UInt8}
    (h : readArrived reader pipe = some (.ok (a, pipe'))) (hfresh : pipe.taken = [])
    (hsent : pipe.sent ++ unsent = frame ++ tail) (hframe : reader (frame ++ tail) = .ok (b, tail)) :
    a = b ∧ pipe' = pipe.take frame.length ∧ ∃ more, pipe.sent = frame ++ more := by
  obtain ⟨rest, hread, rfl⟩ := readArrived_ok h
  have hpending : pipe.pending = pipe.sent := by
    rw [← pipe.taken_append_pending, hfresh, List.nil_append]
  have hlonger := hreader.ok_append hread unsent
  rw [hpending, hsent, hframe] at hlonger
  obtain ⟨rfl, hrest⟩ : b = a ∧ tail = rest ++ unsent := by
    injection hlonger with hpair
    exact Prod.mk.inj hpair
  have hmore : pipe.sent = frame ++ rest := by
    apply @List.append_cancel_right _ _ unsent
    rw [hsent, hrest, List.append_assoc]
  refine ⟨rfl, ?_, rest, hmore⟩
  rw [hpending, hmore, List.length_append, Nat.add_sub_cancel]

namespace TcpExchange
variable (x : TcpExchange)

def frame : List UInt8 := requestFrame x.requestPadding x.addr

def accept : List UInt8 := ServedStream.frame x.config true "Connected"

def Plain : Prop := isHealthcheckRequest x.addr = false ∧ isSpeedtestRequest x.addr = false

theorem read_accept (tail : List UInt8) :
    RuntimeIo.readTcpResponse (x.accept ++ tail) = .ok ((true, "Connected"), tail) := by
  have hlimit : maxPaddingLength = 4096 := rfl
  have hpadding : x.config.padding.utf8ByteSize < 1024 := x.config.draws.2
  exact RuntimeIo.readTcpResponse_written true (by decide) (by omega) tail

theorem addr_of_requested {s : ServedStream} {reqAddr : String} {pipe : Pipe UInt8} {unsent tail : List UInt8}
    (h : s.Requested reqAddr pipe) (hfresh : s.upward.source.taken = [])
    (hsent : s.upward.source.sent ++ unsent = x.frame ++ tail) : reqAddr = x.addr ∧ pipe.taken = x.frame := by
  have hlimit : maxPaddingLength = 4096 := rfl
  have hpadding : x.requestPadding.utf8ByteSize < 512 := x.draws.2
  by_cases hlength : x.addr.utf8ByteSize = 0 ∨ x.addr.utf8ByteSize > maxAddressLength
  · obtain ⟨rest, hread, -⟩ := readArrived_ok h.arrived
    have hlonger := RuntimeIo.incremental_readFramedTcpRequest.ok_append hread unsent
    have hpending : s.upward.source.pending = s.upward.source.sent := by
      rw [← s.upward.source.taken_append_pending, hfresh, List.nil_append]
    have hrefused : RuntimeIo.readFramedTcpRequest (x.frame ++ tail) = _ :=
      RuntimeIo.readFramedTcpRequest_refused _ x.fits hlength tail
    rw [hpending, hsent, hrefused] at hlonger
    cases hlonger
  · obtain ⟨haddr, hpipe, more, hmore⟩ := readArrived_written RuntimeIo.incremental_readFramedTcpRequest h.arrived hfresh
      hsent (RuntimeIo.readFramedTcpRequest_written (by omega) (by omega) (by omega) tail)
    refine ⟨haddr, ?_⟩
    have hpending : s.upward.source.pending = s.upward.source.sent := by
      rw [← s.upward.source.taken_append_pending, hfresh, List.nil_append]
    change pipe = s.upward.source.take x.frame.length at hpipe
    change s.upward.source.sent = x.frame ++ more at hmore
    rw [hpipe, Pipe.taken_take, hfresh, hpending, hmore, List.nil_append, List.take_left]

end TcpExchange

def healthReply (payload : List UInt8) : List UInt8 :=
  if payload ≠ healthCheckRequest then badHealthCheck else healthCheckResponse

namespace ServedStream

structure SameRemote (s after : ServedStream) : Prop where
  dialed : after.dialed = s.dialed
  remote : after.remote = s.remote

structure Keeps (s after : ServedStream) : Prop where
  stage : after.stage = s.stage
  same : s.SameRemote after
  upward : s.upward.Keeps after.upward
  downward : s.downward.Keeps after.downward

structure Quiet (s : ServedStream) (taken : List UInt8) : Prop where
  upwardCopy : s.upward.copy = .reading
  taken : s.upward.source.taken = taken
  sent : s.upward.sink.sent = []
  downwardCopy : s.downward.copy = .reading
  unread : s.downward.source.taken = []

/-- The task has read the client's stream to its end behind `skip`. -/
structure Finished (s : ServedStream) (skip payload : List UInt8) : Prop where
  finished : s.upward.source.finished
  pending : s.upward.source.pending = []
  taken : s.upward.source.taken = skip ++ payload

section
variable (x : TcpExchange) (s : ServedStream)

def Unconnected : Prop := s.remote = none ∧ (s.dialed = [] ∨ s.dialed = [x.addr] ∧ x.Plain)

/-- Why the server accepts a request. -/
def Granted : Answer → Prop
  | .relay => s.dialed = [x.addr] ∧ s.remote = some (.target x.addr) ∧ x.Plain
  | .speedTest => s.dialed = [] ∧ (∀ addr, s.remote ≠ some (.target addr)) ∧ isHealthcheckRequest x.addr = false ∧
    isSpeedtestRequest x.addr ∧ x.config.speedTestEnabled
  | .healthCheck => s.dialed = [] ∧ s.remote = none ∧ isHealthcheckRequest x.addr
  | .refuse _ => False

def Says (unsent : List UInt8) : Answer → Prop
  | .refuse _ => s.Unconnected x ∧ ∃ text, s.downward.sink.sent ++ unsent = frame x.config false text
  | next => s.Granted x next ∧ s.downward.sink.sent ++ unsent = x.accept

structure Replies (payload unsent : List UInt8) : Prop where
  granted : s.Granted x .healthCheck
  sent : s.upward.sink.sent = []
  finished : s.Finished x.frame payload
  said : s.downward.sink.sent ++ unsent = x.accept ++ healthReply payload

structure Relays : Prop where
  granted : s.Granted x .relay ∨ s.Granted x .speedTest
  upward : s.upward.Carries x.frame []
  downward : s.downward.Carries [] x.accept

inductive Done : Prop where
  | silent (sent : s.upward.sink.sent = []) (said : s.downward.sink.sent = []) (unconnected : s.Unconnected x)
  | said {unsent : List UInt8} {next : Answer} (sent : s.upward.sink.sent = []) (saying : s.Says x unsent next)
  | replied {payload unsent : List UInt8} (replies : s.Replies x payload unsent)
  | relayed (relays : s.Relays x)

/-- What lies behind a task that returns without an error. -/
def Complete : Prop := s.Replies x healthCheckRequest [] ∨ s.Relays x

def AtStage : Serving → Prop
  | .reading => s.Quiet [] ∧ s.downward.sink.sent = [] ∧ s.dialed = [] ∧ s.remote = none
  | .dialing addr => addr = x.addr ∧ s.Quiet x.frame ∧ s.downward.sink.sent = [] ∧ s.remote = none ∧
    s.dialed = [x.addr] ∧ x.Plain
  | .responding unsent next => s.Quiet x.frame ∧ s.Says x unsent next
  | .checking => s.Quiet x.frame ∧ s.Granted x .healthCheck ∧ s.downward.sink.sent = x.accept
  | .replying unsent result =>
    ∃ payload, s.Replies x payload unsent ∧ (result = .ok () → payload = healthCheckRequest)
  | .relaying => s.Relays x
  | .ended result => s.Done x ∧ (result = .ok () → s.Complete x)

def At : Prop := s.AtStage x s.stage

end

section
variable {x : TcpExchange} {s after : ServedStream}

theorem same_close (s : ServedStream) (result : Except CoreError Unit) : s.SameRemote (s.close result) := ⟨rfl, rfl⟩

theorem same_emit (s : ServedStream) (bytes : List UInt8) (stage : Serving) :
    s.SameRemote { s.emit bytes with stage } := ⟨rfl, rfl⟩

theorem At.stage {stage : Serving} (h : s.At x) (hstage : s.stage = stage) : s.AtStage x stage := hstage ▸ h

theorem At.done (h : s.At x) : s.Done x := by
  unfold At at h
  match hstage : s.stage, h with
  | .reading, h => exact .silent h.1.sent h.2.1 ⟨h.2.2.2, .inl h.2.2.1⟩
  | .dialing _, h => exact .silent h.2.1.sent h.2.2.1 ⟨h.2.2.2.1, .inr h.2.2.2.2⟩
  | .responding _ _, h => exact .said h.1.sent h.2
  | .checking, h => exact @Done.said _ _ [] .healthCheck h.1.sent ⟨h.2.1, (List.append_nil _).trans h.2.2⟩
  | .replying _ _, h =>
    obtain ⟨payload, hreplies, -⟩ := h
    exact .replied hreplies
  | .relaying, h => exact .relayed h
  | .ended _, h => exact h.1

theorem Granted.dialed {next : Answer} (h : s.Granted x next) : s.dialed = [] ∨ s.dialed = [x.addr] ∧ x.Plain := by
  cases next with
  | relay => exact .inr ⟨h.1, h.2.2⟩
  | speedTest => exact .inl h.1
  | healthCheck => exact .inl h.1
  | refuse err => exact h.elim

theorem Granted.target {next : Answer} {addr : String} (h : s.Granted x next) (hremote : s.remote = some (.target addr)) :
    addr = x.addr ∧ s.dialed = [x.addr] := by
  cases next with
  | relay =>
    obtain ⟨hdialed, htarget, -⟩ := h
    rw [htarget] at hremote
    cases hremote
    exact ⟨rfl, hdialed⟩
  | speedTest => exact absurd hremote (h.2.1 addr)
  | healthCheck => exact absurd hremote (by simp [h.2.1])
  | refuse err => exact h.elim

theorem Done.cases_granted (h : s.Done x) : s.Unconnected x ∨ ∃ next, s.Granted x next := by
  cases h with
  | silent _ _ unconnected => exact .inl unconnected
  | @said unsent next _ saying =>
    cases next with
    | refuse err => exact .inl saying.1
    | _ => exact .inr ⟨_, saying.1⟩
  | replied replies => exact .inr ⟨_, replies.granted⟩
  | relayed relays =>
    rcases relays.granted with hgranted | hgranted
    · exact .inr ⟨_, hgranted⟩
    · exact .inr ⟨_, hgranted⟩

theorem Done.dialed (h : s.Done x) : s.dialed = [] ∨ s.dialed = [x.addr] ∧ x.Plain := by
  rcases h.cases_granted with hunconnected | ⟨next, hgranted⟩
  · exact hunconnected.2
  · exact hgranted.dialed

theorem Done.target {addr : String} (h : s.Done x) (hremote : s.remote = some (.target addr)) :
    addr = x.addr ∧ s.dialed = [x.addr] := by
  rcases h.cases_granted with hunconnected | ⟨next, hgranted⟩
  · rw [hunconnected.1] at hremote
    cases hremote
  · exact hgranted.target hremote

section
variable (hsame : s.SameRemote after)
include hsame

theorem Unconnected.of_same (h : s.Unconnected x) : after.Unconnected x := by
  rwa [Unconnected, hsame.dialed, hsame.remote]

theorem Granted.of_same {next : Answer} (h : s.Granted x next) : after.Granted x next := by
  cases next with
  | relay => exact ⟨hsame.dialed.trans h.1, hsame.remote.trans h.2.1, h.2.2⟩
  | speedTest => exact ⟨hsame.dialed.trans h.1, hsame.remote ▸ h.2.1, h.2.2⟩
  | healthCheck => exact ⟨hsame.dialed.trans h.1, hsame.remote.trans h.2.1, h.2.2⟩
  | refuse err => exact h

theorem Says.of_same {unsent unsent' : List UInt8} {next : Answer} (h : s.Says x unsent next)
    (hsaid : after.downward.sink.sent ++ unsent' = s.downward.sink.sent ++ unsent) : after.Says x unsent' next := by
  cases next with
  | refuse err =>
    obtain ⟨hunconnected, text, htext⟩ := h
    exact ⟨hunconnected.of_same hsame, text, hsaid.trans htext⟩
  | _ => exact ⟨h.1.of_same hsame, hsaid.trans h.2⟩

variable (hupward : s.upward.Keeps after.upward)
include hupward

theorem Replies.of_keeps {payload unsent unsent' : List UInt8} (h : s.Replies x payload unsent)
    (hsaid : after.downward.sink.sent ++ unsent' = s.downward.sink.sent ++ unsent) :
    after.Replies x payload unsent' := by
  obtain ⟨hfinished, hpending⟩ := hupward.finished h.finished.finished
  exact ⟨h.granted.of_same hsame, hupward.sent.trans h.sent,
    ⟨hfinished, hpending.trans h.finished.pending, hupward.taken.trans h.finished.taken⟩, hsaid.trans h.said⟩

variable (hdownward : s.downward.Keeps after.downward)
include hdownward

theorem Relays.of_keeps (h : s.Relays x) : after.Relays x where
  granted := h.granted.imp (·.of_same hsame) (·.of_same hsame)
  upward := h.upward.keeps hupward
  downward := h.downward.keeps hdownward

theorem Done.of_keeps (h : s.Done x) : after.Done x := by
  cases h with
  | silent sent said unconnected =>
    exact .silent (hupward.sent.trans sent) (hdownward.sent.trans said) (unconnected.of_same hsame)
  | said sent saying => exact .said (hupward.sent.trans sent) (saying.of_same hsame (by rw [hdownward.sent]))
  | replied replies => exact .replied (replies.of_keeps hsame hupward (by rw [hdownward.sent]))
  | relayed relays => exact .relayed (relays.of_keeps hsame hupward hdownward)

theorem Complete.of_keeps (h : s.Complete x) : after.Complete x :=
  h.imp (·.of_keeps hsame hupward (by rw [hdownward.sent])) (·.of_keeps hsame hupward hdownward)

end

theorem Quiet.keeps {taken : List UInt8} (h : s.Quiet taken) (hkeeps : s.Keeps after) : after.Quiet taken where
  upwardCopy := hkeeps.upward.copy.trans h.upwardCopy
  taken := hkeeps.upward.taken.trans h.taken
  sent := hkeeps.upward.sent.trans h.sent
  downwardCopy := hkeeps.downward.copy.trans h.downwardCopy
  unread := hkeeps.downward.taken.trans h.unread

theorem At.keeps (h : s.At x) (hkeeps : s.Keeps after) : after.At x := by
  obtain ⟨hstage, hsame, hupward, hdownward⟩ := id hkeeps
  have hsaid := hdownward.sent
  unfold At at h ⊢
  rw [hstage]
  match hold : s.stage, h with
  | .reading, h => exact ⟨h.1.keeps hkeeps, hsaid.trans h.2.1, hsame.dialed.trans h.2.2.1, hsame.remote.trans h.2.2.2⟩
  | .dialing _, h =>
    exact ⟨h.1, h.2.1.keeps hkeeps, hsaid.trans h.2.2.1, hsame.remote.trans h.2.2.2.1,
      hsame.dialed.trans h.2.2.2.2.1, h.2.2.2.2.2⟩
  | .responding _ _, h => exact ⟨h.1.keeps hkeeps, h.2.of_same hsame (by rw [hsaid])⟩
  | .checking, h => exact ⟨h.1.keeps hkeeps, h.2.1.of_same hsame, hsaid.trans h.2.2⟩
  | .replying _ _, h =>
    obtain ⟨payload, hreplies, hok⟩ := h
    exact ⟨payload, hreplies.of_keeps hsame hupward (by rw [hsaid]), hok⟩
  | .relaying, h => exact Relays.of_keeps hsame hupward hdownward h
  | .ended _, h =>
    exact ⟨h.1.of_keeps hsame hupward hdownward, fun hok => (h.2 hok).of_keeps hsame hupward hdownward⟩

theorem At.close (h : s.At x) {result : Except CoreError Unit} (hok : result = .ok () → s.Complete x) :
    (s.close result).At x := by
  refine ⟨h.done.of_keeps (s.same_close _) s.upward.keeps_close s.downward.keeps_close, fun hresult => ?_⟩
  exact (hok hresult).of_keeps (s.same_close _) s.upward.keeps_close s.downward.keeps_close

theorem Quiet.took {taken taken' : List UInt8} (h : s.Quiet taken) {pipe : Pipe UInt8} (hpipe : pipe.taken = taken')
    (stage : Serving) (dialed : List String) : Quiet { s.took pipe with stage, dialed } taken' :=
  ⟨h.upwardCopy, hpipe, h.sent, h.downwardCopy, h.unread⟩

theorem Quiet.emit {taken : List UInt8} (h : s.Quiet taken) (bytes : List UInt8) (stage : Serving)
    (remote : Option Remote) : Quiet { s.emit bytes with stage, remote } taken :=
  ⟨h.upwardCopy, h.taken, h.sent, h.downwardCopy, h.unread⟩

theorem Quiet.relays (h : s.Quiet x.frame) (hgranted : s.Granted x .relay ∨ s.Granted x .speedTest)
    (hsaid : s.downward.sink.sent = x.accept) : s.Relays x := by
  refine ⟨hgranted, ⟨⟨[], ?_, h.sent⟩, fun hdone => ?_⟩, ⟨⟨[], ?_, hsaid.trans (List.append_nil _).symm⟩, fun hdone => ?_⟩⟩
  · rw [h.taken, h.upwardCopy, List.append_nil, Copy.rest_reading, List.append_nil]
  · rw [h.upwardCopy] at hdone
    cases hdone
  · rw [h.unread, h.downwardCopy]
    rfl
  · rw [h.downwardCopy] at hdone
    cases hdone

theorem At.responded {unsent : List UInt8} {next : Answer} (h : s.At x) (hstage : s.stage = .responding unsent next) :
    ((s.emit unsent).responded next).At x := by
  obtain ⟨hquiet, hsaying⟩ := h.stage hstage
  cases next with
  | refuse err =>
    obtain ⟨hunconnected, text, htext⟩ := hsaying
    refine ⟨@Done.said _ _ [] (.refuse err) hquiet.sent ⟨hunconnected.of_same ⟨rfl, rfl⟩, text, ?_⟩, nofun⟩
    exact (List.append_nil _).trans htext
  | healthCheck => exact ⟨hquiet.emit unsent _ _, hsaying.1.of_same ⟨rfl, rfl⟩, hsaying.2⟩
  | relay => exact (hquiet.emit unsent .relaying s.remote).relays (.inl (hsaying.1.of_same ⟨rfl, rfl⟩)) hsaying.2
  | speedTest =>
    obtain ⟨hdialed, -, hnotHealth, hspeed⟩ := hsaying.1
    exact (hquiet.emit unsent .relaying (some .speedTest)).relays (.inr ⟨hdialed, nofun, hnotHealth, hspeed⟩) hsaying.2

theorem readToEnd_ok {limit : Nat} {pipe pipe' : Pipe UInt8} {payload : List UInt8}
    (h : readToEnd limit pipe = some (.ok (payload, pipe'))) :
    payload = pipe.pending ∧ pipe.finished ∧ pipe' = pipe.take pipe.pending.length := by
  unfold readToEnd at h
  split at h
  · cases h
  · split at h
    · next hfinished =>
      cases h
      exact ⟨rfl, hfinished, rfl⟩
    · cases h

theorem At.checked {payload : List UInt8} {pipe : Pipe UInt8} (h : s.At x) (hstage : s.stage = .checking)
    (hread : readToEnd 64 s.upward.source = some (.ok (payload, pipe))) : ((s.took pipe).check payload).At x := by
  obtain ⟨hquiet, hgranted, hsaid⟩ := h.stage hstage
  obtain ⟨rfl, hfinished, rfl⟩ := readToEnd_ok hread
  have hreplies : ∀ stage, Replies x { s.took (s.upward.source.take s.upward.source.pending.length) with stage }
      s.upward.source.pending (healthReply s.upward.source.pending) := by
    intro stage
    refine ⟨hgranted.of_same ⟨rfl, rfl⟩, hquiet.sent, ⟨hfinished, ?_, ?_⟩, ?_⟩
    · exact (Pipe.pending_take _ _).trans List.drop_length
    · refine (Pipe.taken_take _ _).trans ?_
      rw [hquiet.taken, List.take_length]
    · exact congrArg (· ++ _) hsaid
  unfold check
  split
  · next hne =>
    have hreply : healthReply s.upward.source.pending = badHealthCheck := if_pos hne
    exact ⟨_, hreply ▸ hreplies _, nofun⟩
  · next heq =>
    have hreply : healthReply s.upward.source.pending = healthCheckResponse := if_neg heq
    exact ⟨_, hreply ▸ hreplies _, fun _ => not_not.mp heq⟩

theorem At.replied {unsent : List UInt8} {result : Except CoreError Unit} (h : s.At x)
    (hstage : s.stage = .replying unsent result) : ((s.emit unsent).close result).At x := by
  obtain ⟨payload, hreplies, hok⟩ := h.stage hstage
  have hsame : s.SameRemote ((s.emit unsent).close result) := ⟨rfl, rfl⟩
  have hall : ((s.emit unsent).close result).Replies x payload [] :=
    hreplies.of_keeps hsame s.upward.keeps_close (List.append_nil _)
  refine ⟨.replied hall, fun hresult => .inl ?_⟩
  obtain rfl := hok hresult
  exact hall

theorem At.requested {reqAddr : String} {pipe : Pipe UInt8} {unsent tail : List UInt8} (h : s.At x)
    (hrequested : s.Requested reqAddr pipe) (hsent : s.upward.source.sent ++ unsent = x.frame ++ tail) :
    reqAddr = x.addr ∧ s.dialed = [] ∧ s.remote = none ∧ s.downward.sink.sent = [] ∧
      ∀ stage dialed, Quiet { s.took pipe with stage, dialed } x.frame := by
  obtain ⟨hquiet, hsaid, hdialed, hremote⟩ := h.stage hrequested.reading
  obtain ⟨haddr, htaken⟩ := x.addr_of_requested hrequested hquiet.taken hsent
  exact ⟨haddr, hdialed, hremote, hsaid, fun stage dialed => hquiet.took htaken stage dialed⟩

theorem At.step {unsent tail : List UInt8} (h : s.At x)
    (hsent : s.upward.source.sent ++ unsent = x.frame ++ tail) (hstep : Step x.config s after) : after.At x := by
  cases hstep with
  | healthCheck hrequested hhealth =>
    obtain ⟨rfl, hdialed, hremote, hsaid, hquiet⟩ := h.requested hrequested hsent
    exact ⟨hquiet _ _, ⟨hdialed, hremote, hhealth⟩, congrArg (· ++ _) hsaid⟩
  | speedTest hrequested hnotHealth hspeed henabled =>
    obtain ⟨rfl, hdialed, hremote, hsaid, hquiet⟩ := h.requested hrequested hsent
    have hnone : ∀ addr, s.remote ≠ some (.target addr) := by simp [hremote]
    exact ⟨hquiet _ _, ⟨hdialed, hnone, hnotHealth, hspeed, henabled⟩, congrArg (· ++ _) hsaid⟩
  | speedTestDisabled hrequested =>
    obtain ⟨-, hdialed, hremote, hsaid, hquiet⟩ := h.requested hrequested hsent
    exact ⟨hquiet _ _, ⟨hremote, .inl hdialed⟩, _, congrArg (· ++ _) hsaid⟩
  | dials hrequested hnotHealth hnotSpeed =>
    obtain ⟨rfl, hdialed, hremote, hsaid, hquiet⟩ := h.requested hrequested hsent
    exact ⟨rfl, hquiet _ _, hsaid, hremote, congrArg (· ++ _) hdialed, hnotHealth, hnotSpeed⟩
  | checked hstage hread => exact h.checked hstage hread
  | dialed hstage =>
    obtain ⟨rfl, hquiet, hsaid, -, hdialed, hplain⟩ := h.stage hstage
    exact ⟨⟨hquiet.upwardCopy, hquiet.taken, hquiet.sent, hquiet.downwardCopy, hquiet.unread⟩,
      ⟨hdialed, rfl, hplain⟩, congrArg (· ++ _) hsaid⟩
  | refused hstage err =>
    obtain ⟨rfl, hquiet, hsaid, hremote, hdialed⟩ := h.stage hstage
    exact ⟨⟨hquiet.upwardCopy, hquiet.taken, hquiet.sent, hquiet.downwardCopy, hquiet.unread⟩,
      ⟨hremote, .inr hdialed⟩, _, congrArg (· ++ _) hsaid⟩
  | @wrote unsent next hstage n =>
    obtain ⟨hquiet, hsaying⟩ := h.stage hstage
    refine ⟨hquiet.emit _ _ _, hsaying.of_same (s.same_emit _ _) ?_⟩
    change s.downward.sink.sent ++ unsent.take n ++ unsent.drop n = _
    rw [List.append_assoc, List.take_append_drop]
  | responded hstage => exact h.responded hstage
  | @repliedPart unsent result hstage n =>
    obtain ⟨payload, hreplies, hok⟩ := h.stage hstage
    refine ⟨payload, hreplies.of_keeps (s.same_emit _ _) (.refl _) ?_, hok⟩
    change s.downward.sink.sent ++ unsent.take n ++ unsent.drop n = _
    rw [List.append_assoc, List.take_append_drop]
  | replied hstage => exact h.replied hstage
  | upward hstage hlane =>
    have hrelays : s.Relays x := h.stage hstage
    rw [At, hstage]
    exact ⟨hrelays.granted.imp (·.of_same ⟨rfl, rfl⟩) (·.of_same ⟨rfl, rfl⟩), hrelays.upward.step hlane, hrelays.downward⟩
  | downward hstage hlane =>
    have hrelays : s.Relays x := h.stage hstage
    rw [At, hstage]
    exact ⟨hrelays.granted.imp (·.of_same ⟨rfl, rfl⟩) (·.of_same ⟨rfl, rfl⟩), hrelays.upward, hrelays.downward.step hlane⟩
  | returned hstage =>
    have hrelays : s.Relays x := h.stage hstage
    exact h.close fun _ => .inr hrelays
  | failed => exact h.close nofun
  | remoteWrote bytes _ hunfinished =>
    exact h.keeps ⟨rfl, ⟨rfl, rfl⟩, .refl _, Lane.keeps_write hunfinished bytes⟩
  | remoteShut => exact h.keeps ⟨rfl, ⟨rfl, rfl⟩, .refl _, s.downward.keeps_finish⟩
  | remoteRead n => exact h.keeps ⟨rfl, ⟨rfl, rfl⟩, s.upward.keeps_read n, .refl _⟩

end
end ServedStream
end Hysteria.Core
