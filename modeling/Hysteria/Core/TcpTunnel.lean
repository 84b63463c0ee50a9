import Hysteria.Core.ClientTunnel
import Hysteria.Core.ServedStream

/-! One proxied stream from end to end: `Client::tcp` and the application that gets the stream from
it on one side, `handle_tcp_stream` and the remote on the other, in any order of their steps. -/
namespace Hysteria.Core
open Lib

structure TcpExchange where
  addr : String
  requestPadding : String
  config : StreamConfig
  fits : addr.utf8ByteSize ≤ 2 ^ 62 - 1
  draws : tcpRequestPadding.Draws requestPadding

/-- `Client::tcp` until it returns. The stream is the application's then, of which `written` and
`received` are the history. -/
inductive TcpCaller where
  | requesting (unsent : List UInt8)
  | connected (written received : List UInt8)
  | failed (err : CoreError)
deriving DecidableEq

namespace TcpCaller

def written : TcpCaller → List UInt8
  | .connected written _ => written
  | _ => []

def received : TcpCaller → List UInt8
  | .connected _ received => received
  | _ => []

end TcpCaller

structure TcpTunnel where
  caller : TcpCaller
  stream : ServedStream
deriving DecidableEq

namespace TcpTunnel

inductive Event where
  | callerWrites (n : Nat)
  | callerReads
  | callerFails (text : String)
  | appWrites (bytes : List UInt8)
  | appShutsDown
  | appReads (n : Nat)
  | server (event : ServedStream.Event)

def toServer (t : TcpTunnel) (bytes : List UInt8) : TcpTunnel :=
  { t with stream := t.stream.took (t.stream.upward.source.write bytes) }

def finished (t : TcpTunnel) : TcpTunnel := { t with stream := t.stream.took t.stream.upward.source.finish }

def tookAnswer (t : TcpTunnel) (pipe : Pipe UInt8) : TcpTunnel :=
  { t with stream := { t.stream with downward := { t.stream.downward with sink := pipe } } }

def start (x : TcpExchange) : Option TcpTunnel :=
  match writeTcpRequest x.requestPadding x.addr with
  | .ok frame => some ⟨.requesting frame, .start⟩
  | .error _ => none

def step (x : TcpExchange) (t : TcpTunnel) : Event → Option TcpTunnel
  | .callerWrites n =>
    match t.caller with
    | .requesting unsent =>
      if 0 < n ∧ n ≤ unsent.length then
        some { t.toServer (unsent.take n) with caller := .requesting (unsent.drop n) }
      else none
    | _ => none
  | .callerReads =>
    match t.caller with
    | .requesting [] => do
      match ← readArrived RuntimeIo.readTcpResponse t.stream.downward.sink with
      | .ok ((true, _), pipe) => return { t.tookAnswer pipe with caller := .connected [] [] }
      | .ok ((false, message), _) => return { t.finished with caller := .failed (.dial message) }
      | .error err => return { t.finished with caller := .failed err }
    | _ => none
  | .callerFails text =>
    match t.caller with
    | .requesting _ => some { t.finished with caller := .failed (.transport text) }
    | _ => none
  | .appWrites bytes =>
    match t.caller with
    | .connected written received =>
      if ¬ t.stream.upward.source.finished then
        some { t.toServer bytes with caller := .connected (written ++ bytes) received }
      else none
    | _ => none
  | .appShutsDown =>
    match t.caller with
    | .connected _ _ => some t.finished
    | _ => none
  | .appReads n =>
    match t.caller with
    | .connected written received =>
      some { t.tookAnswer (t.stream.downward.sink.take n) with
        caller := .connected written (received ++ t.stream.downward.sink.pending.take n) }
    | _ => none
  | .server event => (t.stream.step x.config event).map fun stream => { t with stream }

inductive CallerStep (t : TcpTunnel) : TcpTunnel → Prop where
  | wrote {unsent : List UInt8} (requesting : t.caller = .requesting unsent) (n : Nat) :
      CallerStep t { t.toServer (unsent.take n) with caller := .requesting (unsent.drop n) }
  | accepted {message : String} {pipe : Pipe UInt8} (requesting : t.caller = .requesting [])
      (arrived : readArrived RuntimeIo.readTcpResponse t.stream.downward.sink = some (.ok ((true, message), pipe))) :
      CallerStep t { t.tookAnswer pipe with caller := .connected [] [] }
  | failed {unsent : List UInt8} (requesting : t.caller = .requesting unsent) (err : CoreError) :
      CallerStep t { t.finished with caller := .failed err }
  | appWrote {written received : List UInt8} (connected : t.caller = .connected written received)
      (unfinished : ¬ t.stream.upward.source.finished) (bytes : List UInt8) :
      CallerStep t { t.toServer bytes with caller := .connected (written ++ bytes) received }
  | appShut {written received : List UInt8} (connected : t.caller = .connected written received) :
      CallerStep t t.finished
  | appRead {written received : List UInt8} (connected : t.caller = .connected written received) (n : Nat) :
      CallerStep t { t.tookAnswer (t.stream.downward.sink.take n) with
        caller := .connected written (received ++ t.stream.downward.sink.pending.take n) }

variable {x : TcpExchange} {t after : TcpTunnel}

theorem callerStep_reads (h : t.step x .callerReads = some after) : CallerStep t after := by
  simp only [step] at h
  split at h
  · next hrequesting =>
    obtain ⟨arrived, harrived, hnext⟩ := Option.bind_eq_some_iff.mp h
    match arrived with
    | .ok ((true, message), pipe) =>
      cases hnext
      exact .accepted hrequesting harrived
    | .ok ((false, message), pipe) =>
      cases hnext
      exact .failed hrequesting _
    | .error err =>
      cases hnext
      exact .failed hrequesting err
  · cases h

theorem callerStep_of_step {event : Event} (hcaller : ∀ e, event ≠ .server e) (h : t.step x event = some after) :
    CallerStep t after := by
  cases event with
  | callerReads => exact callerStep_reads h
  | callerWrites n =>
    simp only [step] at h
    split at h
    · next unsent hrequesting =>
      obtain ⟨-, ⟨⟩⟩ := Option.ite_none_right_eq_some.mp h
      exact .wrote hrequesting n
    · cases h
  | callerFails text =>
    simp only [step] at h
    split at h
    · next hrequesting =>
      cases h
      exact .failed hrequesting _
    · cases h
  | appWrites bytes =>
    simp only [step] at h
    split at h
    · next hconnected =>
      obtain ⟨hunfinished, ⟨⟩⟩ := Option.ite_none_right_eq_some.mp h
      exact .appWrote hconnected hunfinished bytes
    · cases h
  | appShutsDown =>
    simp only [step] at h
    split at h
    · next hconnected =>
      cases h
      exact .appShut hconnected
    · cases h
  | appReads n =>
    simp only [step] at h
    split at h
    · next hconnected =>
      cases h
      exact .appRead hconnected n
    · cases h
  | server event => exact absurd rfl (hcaller event)

theorem step_cases {event : Event} (h : t.step x event = some after) :
    (∀ e, event ≠ .server e) ∧ CallerStep t after ∨
      ∃ e stream, event = .server e ∧ t.stream.step x.config e = some stream ∧ after = { t with stream } := by
  by_cases hserver : ∃ e, event = .server e
  · obtain ⟨e, rfl⟩ := hserver
    obtain ⟨stream, hstream, hafter⟩ := Option.map_eq_some_iff.mp h
    exact .inr ⟨e, stream, rfl, hstream, hafter.symm⟩
  · have hcaller : ∀ e, event ≠ .server e := not_exists.mp hserver
    exact .inl ⟨hcaller, callerStep_of_step hcaller h⟩

end TcpTunnel
end Hysteria.Core
