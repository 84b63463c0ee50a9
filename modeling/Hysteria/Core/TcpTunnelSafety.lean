import Hysteria.Core.ServedStreamInvariant

/-! What holds in every state of a proxied stream, however the client, the server, the application
and the remote take turns and whatever fails: only the address that was asked for is dialled, and
either side gets the bytes of the other, in order, from the first one on. -/
namespace Hysteria.Core
open Lib

structure ServedStream.SameClient (s after : ServedStream) : Prop where
  sent : after.upward.source.sent = s.upward.source.sent
  finished : after.upward.source.finished = s.upward.source.finished
  taken : after.downward.sink.taken = s.downward.sink.taken

theorem ServedStream.SameClient.took {s : ServedStream} {reqAddr : String} {pipe : Pipe UInt8}
    (h : s.Requested reqAddr pipe) (stage : Serving) (dialed : List String) :
    s.SameClient { s.took pipe with stage, dialed } := by
  obtain ⟨rest, -, rfl⟩ := readArrived_ok h.arrived
  exact ⟨rfl, rfl, rfl⟩

theorem ServedStream.Step.sameClient {config : StreamConfig} {s after : ServedStream}
    (h : ServedStream.Step config s after) : s.SameClient after := by
  cases h with
  | healthCheck hrequested => exact .took hrequested _ _
  | speedTest hrequested => exact .took hrequested _ _
  | speedTestDisabled hrequested => exact .took hrequested _ _
  | dials hrequested => exact .took hrequested _ _
  | checked _ hread =>
    obtain ⟨-, -, rfl⟩ := ServedStream.readToEnd_ok hread
    unfold ServedStream.check
    split <;> exact ⟨rfl, rfl, rfl⟩
  | dialed => exact ⟨rfl, rfl, rfl⟩
  | refused => exact ⟨rfl, rfl, rfl⟩
  | wrote _ n => exact ⟨rfl, rfl, s.downward.sink.taken_write _⟩
  | @responded unsent next =>
    have hwritten := s.downward.sink.taken_write unsent
    cases next <;> exact ⟨rfl, rfl, hwritten⟩
  | repliedPart _ n => exact ⟨rfl, rfl, s.downward.sink.taken_write _⟩
  | @replied unsent => exact ⟨rfl, rfl, s.downward.sink.taken_write unsent⟩
  | upward _ hlane => cases hlane <;> exact ⟨rfl, rfl, rfl⟩
  | downward _ hlane =>
    cases hlane with
    | read => exact ⟨rfl, rfl, rfl⟩
    | write => exact ⟨rfl, rfl, s.downward.sink.taken_write _⟩
    | shutdown => exact ⟨rfl, rfl, rfl⟩
  | returned => exact ⟨rfl, rfl, rfl⟩
  | failed => exact ⟨rfl, rfl, rfl⟩
  | remoteWrote => exact ⟨rfl, rfl, rfl⟩
  | remoteShut => exact ⟨rfl, rfl, rfl⟩
  | remoteRead => exact ⟨rfl, rfl, rfl⟩

namespace TcpTunnel
variable {x : TcpExchange} {t after : TcpTunnel}

def CallerAt (x : TcpExchange) (up down : Pipe UInt8) : TcpCaller → Prop
  | .requesting unsent => up.sent ++ unsent = x.frame ∧ up.finished = false ∧ down.taken = []
  | .connected written received => up.sent = x.frame ++ written ∧ down.taken = x.accept ++ received
  | .failed _ => up.sent <+: x.frame

structure Inv (x : TcpExchange) (t : TcpTunnel) : Prop where
  caller : CallerAt x t.stream.upward.source t.stream.downward.sink t.caller
  stream : t.stream.At x

theorem CallerAt.sent {up down : Pipe UInt8} {caller : TcpCaller} (h : CallerAt x up down caller) :
    ∃ unsent, up.sent ++ unsent = x.frame ++ caller.written := by
  cases caller with
  | requesting unsent => exact ⟨unsent, h.1.trans (List.append_nil _).symm⟩
  | connected written received => exact ⟨[], (List.append_nil _).trans h.1⟩
  | failed err =>
    obtain ⟨unsent, hunsent⟩ := h
    exact ⟨unsent, hunsent.trans (List.append_nil _).symm⟩

theorem taken_of_accepted {s : ServedStream} {message : String} {pipe : Pipe UInt8} (h : s.Done x)
    (hfresh : s.downward.sink.taken = [])
    (harrived : readArrived RuntimeIo.readTcpResponse s.downward.sink = some (.ok ((true, message), pipe))) :
    pipe = s.downward.sink.take x.accept.length ∧ pipe.taken = x.accept := by
  have hpending : s.downward.sink.pending = s.downward.sink.sent := by
    rw [← s.downward.sink.taken_append_pending, hfresh, List.nil_append]
  -- The server has begun with the frame that accepts the request.
  obtain ⟨unsent, tail, hsaid⟩ : ∃ unsent tail, s.downward.sink.sent ++ unsent = x.accept ++ tail := by
    cases h with
    | silent _ said => exact ⟨x.accept, [], by rw [said, List.nil_append, List.append_nil]⟩
    | @said unsent next _ saying =>
      cases next with
      | refuse err =>
        obtain ⟨-, text, htext⟩ := saying
        obtain ⟨rest, hread, -⟩ := readArrived_ok harrived
        have hlonger := RuntimeIo.incremental_readTcpResponse.ok_append hread unsent
        rw [hpending, htext] at hlonger
        cases RuntimeIo.ok_of_readTcpResponse hlonger
      | _ => exact ⟨unsent, [], saying.2.trans (List.append_nil _).symm⟩
    | replied replies => exact ⟨_, _, replies.said⟩
    | relayed relays =>
      obtain ⟨copied, -, hsent⟩ := relays.downward.copied
      exact ⟨[], copied, (List.append_nil _).trans hsent⟩
  obtain ⟨-, rfl, more, hmore⟩ := readArrived_written RuntimeIo.incremental_readTcpResponse harrived hfresh hsaid
    (x.read_accept tail)
  refine ⟨rfl, ?_⟩
  rw [Pipe.taken_take, hfresh, hpending, hmore, List.nil_append, List.take_left]

theorem CallerAt.server {s s' : ServedStream} {caller : TcpCaller}
    (h : CallerAt x s.upward.source s.downward.sink caller) (hsame : s.SameClient s') :
    CallerAt x s'.upward.source s'.downward.sink caller := by
  cases caller with
  | requesting unsent => exact ⟨hsame.sent ▸ h.1, hsame.finished.trans h.2.1, hsame.taken.trans h.2.2⟩
  | connected written received => exact ⟨hsame.sent.trans h.1, hsame.taken.trans h.2⟩
  | failed err =>
    change s'.upward.source.sent <+: x.frame
    rw [hsame.sent]
    exact h

theorem keeps_toServer (h : ¬ t.stream.upward.source.finished) (bytes : List UInt8) :
    t.stream.Keeps (t.toServer bytes).stream :=
  ⟨rfl, ⟨rfl, rfl⟩, Lane.keeps_write h bytes, .refl _⟩

theorem keeps_finished (t : TcpTunnel) : t.stream.Keeps t.finished.stream :=
  ⟨rfl, ⟨rfl, rfl⟩, t.stream.upward.keeps_finish, .refl _⟩

theorem keeps_tookAnswer (t : TcpTunnel) (n : Nat) :
    t.stream.Keeps (t.tookAnswer (t.stream.downward.sink.take n)).stream :=
  ⟨rfl, ⟨rfl, rfl⟩, .refl _, t.stream.downward.keeps_read n⟩

theorem Inv.callerStep (h : Inv x t) (hstep : CallerStep t after) : Inv x after ∧ t.stream.Keeps after.stream := by
  have hcaller := h.caller
  suffices hkept : t.stream.Keeps after.stream ∧
      CallerAt x after.stream.upward.source after.stream.downward.sink after.caller from
    ⟨⟨hkept.2, h.stream.keeps hkept.1⟩, hkept.1⟩
  cases hstep with
  | @wrote unsent hrequesting n =>
    rw [hrequesting] at hcaller
    obtain ⟨hsent, hunfinished, hfresh⟩ := hcaller
    refine ⟨keeps_toServer (by simp [hunfinished]) _, ?_, hunfinished, hfresh⟩
    change t.stream.upward.source.sent ++ unsent.take n ++ unsent.drop n = _
    rw [List.append_assoc, List.take_append_drop, hsent]
  | accepted hrequesting harrived =>
    rw [hrequesting] at hcaller
    obtain ⟨hsent, -, hfresh⟩ := hcaller
    obtain ⟨rfl, htaken⟩ := taken_of_accepted h.stream.done hfresh harrived
    rw [List.append_nil] at hsent
    exact ⟨t.keeps_tookAnswer _, hsent.trans (List.append_nil _).symm, htaken.trans (List.append_nil _).symm⟩
  | @failed unsent hrequesting err =>
    rw [hrequesting] at hcaller
    exact ⟨t.keeps_finished, unsent, hcaller.1⟩
  | appWrote hconnected hunfinished bytes =>
    rw [hconnected] at hcaller
    refine ⟨keeps_toServer hunfinished bytes, ?_, hcaller.2⟩
    change t.stream.upward.source.sent ++ bytes = _
    rw [hcaller.1, List.append_assoc]
  | appShut hconnected =>
    refine ⟨t.keeps_finished, ?_⟩
    change CallerAt x t.stream.upward.source.finish t.stream.downward.sink t.caller
    rw [hconnected] at hcaller ⊢
    exact hcaller
  | appRead hconnected n =>
    rw [hconnected] at hcaller
    refine ⟨t.keeps_tookAnswer n, hcaller.1, ?_⟩
    change (t.stream.downward.sink.take n).taken = _
    rw [Pipe.taken_take, hcaller.2, List.append_assoc]

theorem Inv.step {event : Event} (h : Inv x t) (hstep : t.step x event = some after) : Inv x after := by
  obtain ⟨-, hcaller⟩ | ⟨e, stream, rfl, hstream, rfl⟩ := step_cases hstep
  · exact (h.callerStep hcaller).1
  · have hserver := ServedStream.step_cases hstream
    obtain ⟨unsent, hsent⟩ := h.caller.sent
    exact ⟨h.caller.server hserver.sameClient, h.stream.step hsent hserver⟩

def runs (x : TcpExchange) (events : List Event) : Option TcpTunnel := (start x).bind (run (step x) · events)

theorem start_eq (x : TcpExchange) : start x = some ⟨.requesting x.frame, .start⟩ := by
  have hpadding : x.requestPadding.utf8ByteSize < 512 := x.draws.2
  rw [start, writeTcpRequest_eq x.fits (by omega)]
  rfl

theorem inv_of_runs {events : List Event} (h : runs x events = some t) : Inv x t := by
  rw [runs, start_eq, Option.bind_some] at h
  refine run_induction (fun s e s' hinv he => hinv.step he) ?_ h
  exact ⟨⟨List.nil_append _, rfl, rfl⟩, ⟨⟨rfl, rfl, rfl, rfl, rfl⟩, rfl, rfl, rfl⟩⟩

theorem written_of_relays {s : ServedStream} {unsent written : List UInt8} (h : s.Relays x)
    (hsent : s.upward.source.sent ++ unsent = x.frame ++ written) : s.upward.sink.sent <+: written := by
  obtain ⟨copied, htaken, hsink⟩ := h.upward.copied
  refine ⟨s.upward.copy.rest ++ s.upward.source.pending ++ unsent, ?_⟩
  apply @List.append_cancel_left _ x.frame
  rw [← hsent, ← s.upward.source.taken_append_pending, htaken, hsink]
  simp only [List.append_assoc, List.nil_append]

theorem sent_isPrefix (h : Inv x t) : t.stream.upward.sink.sent <+: t.caller.written := by
  obtain ⟨unsent, hsent⟩ := h.caller.sent
  cases h.stream.done with
  | silent sent => exact sent ▸ List.nil_prefix
  | said sent => exact sent ▸ List.nil_prefix
  | replied replies => exact replies.sent ▸ List.nil_prefix
  | relayed relays => exact written_of_relays relays hsent

theorem received_isPrefix (h : Inv x t) {written received : List UInt8} (hconnected : t.caller = .connected written received) :
    (t.stream.Granted x .relay ∨ t.stream.Granted x .speedTest) ∧ received <+: t.stream.downward.source.sent ∨
      t.stream.Granted x .healthCheck ∧ received <+: healthReply written := by
  have hcaller := h.caller
  rw [hconnected] at hcaller
  obtain ⟨hsent, htaken⟩ := hcaller
  obtain ⟨unread, hsaid⟩ := t.stream.downward.sink.taken_isPrefix
  rw [htaken, List.append_assoc] at hsaid
  have hnothing : ∀ {unsent}, t.stream.downward.sink.sent ++ unsent = x.accept → received = [] := by
    intro unsent haccept
    rw [← hsaid, List.append_assoc] at haccept
    have hnil := List.append_right_eq_self.mp haccept
    simp only [List.append_assoc, List.append_eq_nil_iff] at hnil
    exact hnil.1
  cases h.stream.done with
  | silent _ said =>
    rw [said] at hsaid
    cases hsaid
  | @said unsent next sent saying =>
    cases next with
    | refuse err =>
      obtain ⟨-, text, htext⟩ := saying
      rw [← hsaid] at htext
      cases htext
    | healthCheck => exact .inr ⟨saying.1, hnothing saying.2 ▸ List.nil_prefix⟩
    | relay => exact .inl ⟨.inl saying.1, hnothing saying.2 ▸ List.nil_prefix⟩
    | speedTest => exact .inl ⟨.inr saying.1, hnothing saying.2 ▸ List.nil_prefix⟩
  | @replied payload unsent replies =>
    refine .inr ⟨replies.granted, ?_⟩
    have hpayload : payload = written := by
      apply @List.append_cancel_left _ x.frame
      rw [← hsent, ← replies.finished.taken, ← List.append_nil t.stream.upward.source.taken, ← replies.finished.pending,
        Pipe.taken_append_pending]
    refine ⟨unread ++ unsent, ?_⟩
    apply @List.append_cancel_left _ x.accept
    rw [← hpayload, ← replies.said, ← hsaid]
    simp only [List.append_assoc]
  | relayed relays =>
    refine .inl ⟨relays.granted, ?_⟩
    obtain ⟨copied, hcopied, hprefix⟩ := relays.downward.isPrefix (List.nil_append _).symm
    refine List.IsPrefix.trans ⟨unread, ?_⟩ hprefix
    apply @List.append_cancel_left _ x.accept
    rw [← hcopied, ← hsaid]

/-- In every state of every run the remote has been sent the beginning of what the application has
written, and no address but the one of the request has been dialled, at most once. An application
that has a stream is connected to that address, or to the server's speed test or health check if it
has asked for one, and has received the beginning of what was sent there. -/
theorem tunnel_transparent (x : TcpExchange) {events : List Event} {t : TcpTunnel} (h : runs x events = some t) :
    t.stream.upward.sink.sent <+: t.caller.written ∧
    (t.stream.dialed = [] ∨ t.stream.dialed = [x.addr] ∧ x.Plain) ∧
    (∀ addr, t.stream.remote = some (.target addr) → addr = x.addr ∧ t.stream.dialed = [x.addr]) ∧
    ∀ written received, t.caller = .connected written received →
      (t.stream.remote = some (.target x.addr) ∨ isSpeedtestRequest x.addr ∧ x.config.speedTestEnabled) ∧
        received <+: t.stream.downward.source.sent ∨
      isHealthcheckRequest x.addr ∧ received <+: healthReply written := by
  have hinv := inv_of_runs h
  refine ⟨sent_isPrefix hinv, hinv.stream.done.dialed, fun addr haddr => hinv.stream.done.target haddr, ?_⟩
  intro written received hconnected
  obtain ⟨hgranted, hreceived⟩ | ⟨hgranted, hreceived⟩ := received_isPrefix hinv hconnected
  · refine .inl ⟨hgranted.imp (fun hrelay => hrelay.2.1) (fun hspeed => ?_), hreceived⟩
    exact hspeed.2.2.2
  · exact .inr ⟨hgranted.2.2, hreceived⟩

def sampleExchange : TcpExchange where
  addr := "example.com:80"
  requestPadding := String.ofList (List.replicate 64 'q')
  config := ⟨false, String.ofList (List.replicate 128 'r'), by decide +kernel⟩
  fits := by decide +kernel
  draws := by decide +kernel

def opening : List Event :=
  [.callerWrites 50, .callerWrites 33, .server .reads, .server (.dials (.ok ())), .server (.writes 141), .callerReads]

def halfway : List Event :=
  opening ++ [.appWrites [104, 105], .server (.upward (.read 2)), .server (.upward (.write 1)),
    .server (.remoteWrites [111, 107]), .server (.downward (.read 1)), .server (.downward (.write 1)), .appReads 5]

theorem runs_halfway : ∃ t, runs sampleExchange halfway = some t ∧ t.caller = .connected [104, 105] [111] := by
  have hrun : (runs sampleExchange halfway).map (·.caller) = some (.connected [104, 105] [111]) := by decide +kernel
  obtain ⟨t, ht, hcaller⟩ := Option.map_eq_some_iff.mp hrun
  exact ⟨t, ht, hcaller⟩

theorem tunnel_transparent_halfway :
    ∃ t, runs sampleExchange halfway = some t ∧ t.stream.upward.sink.sent <+: [104, 105] ∧
      ([111] <+: t.stream.downward.source.sent ∨ [111] <+: healthReply [104, 105]) := by
  obtain ⟨t, ht, hcaller⟩ := runs_halfway
  obtain ⟨hsent, -, -, hconnected⟩ := tunnel_transparent sampleExchange ht
  rw [hcaller] at hsent
  exact ⟨t, ht, hsent, (hconnected _ _ hcaller).imp (fun h => h.2) (fun h => h.2)⟩

end TcpTunnel
end Hysteria.Core
