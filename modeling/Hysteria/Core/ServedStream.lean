import Hysteria.Core.RelaySteps
import Hysteria.Core.RuntimeIo
import Hysteria.Lib.Text

/-! The server's task for one stream of an authenticated client, `handle_tcp_stream`: it reads the
address, dials it, answers, and relays. Two addresses are not dialled but served by the server itself.
Both ends of the task are pipes, so that it can be run against any client and any target. -/
namespace Hysteria.Core
open Lib

def healthCheckDest : Text := "@HealthCheck:0".toList
def speedtestDest : Text := "@SpeedTest".toList
def healthCheckRequest : List UInt8 := utf8Bytes "ping"
def healthCheckResponse : List UInt8 := utf8Bytes "pong"
def badHealthCheck : List UInt8 := utf8Bytes "bad-healthcheck"

def isHealthcheckRequest (addr : String) : Bool := trim addr.toList = healthCheckDest

def isSpeedtestRequest (addr : String) : Bool :=
  trim addr.toList = speedtestDest || trim addr.toList = "@SpeedTest:0".toList ||
    (splitOnce ':' addr.toList).any fun parts => parts.1 = speedtestDest

inductive Remote where
  | target (addr : String)
  | speedTest
deriving DecidableEq, Repr

/-- What the task does when its response is written. -/
inductive Answer where
  | relay
  | speedTest
  | healthCheck
  | refuse (err : CoreError)
deriving DecidableEq, Repr

inductive Serving where
  | reading
  | dialing (addr : String)
  | responding (unsent : List UInt8) (next : Answer)
  | checking
  | replying (unsent : List UInt8) (result : Except CoreError Unit)
  | relaying
  | ended (result : Except CoreError Unit)
deriving DecidableEq

structure StreamConfig where
  speedTestEnabled : Bool
  padding : String
  draws : tcpResponsePadding.Draws padding

structure ErrorText where
  text : String
  fits : text.utf8ByteSize ≤ 2 ^ 62 - 1

/-- The stream from the client is the source of `upward`, the stream to it the sink of
`downward`; the other two ends are those of the remote. `dialed` is a history. -/
structure ServedStream where
  stage : Serving
  dialed : List String
  remote : Option Remote
  upward : Lane
  downward : Lane
deriving DecidableEq

/-- A read waits for the rest of a frame until the stream is finished. -/
def readArrived (reader : Reads CoreError α) (pipe : Pipe UInt8) : Option (Except CoreError (α × Pipe UInt8)) :=
  match reader pipe.pending with
  | .ok (a, rest) => some (.ok (a, pipe.take (pipe.pending.length - rest.length)))
  | .error (.error err) => if err = RuntimeIo.earlyEof ∧ ¬ pipe.finished then none else some (.error err)
  | .error (.panic _) => none

/-- `read_to_end`; a stream that is too long is found out before its end. -/
def readToEnd (limit : Nat) (pipe : Pipe UInt8) : Option (Except CoreError (List UInt8 × Pipe UInt8)) :=
  if limit < pipe.pending.length then some (.error (.transport "stream too long"))
  else if pipe.finished then some (.ok (pipe.pending, pipe.take pipe.pending.length))
  else none

namespace ServedStream

inductive Event where
  | reads
  | dials (result : Except ErrorText Unit)
  | writes (n : Nat)
  | upward (event : CopyEvent)
  | downward (event : CopyEvent)
  | returns
  | fails (text : String)
  | remoteWrites (bytes : List UInt8)
  | remoteShutsDown
  | remoteReads (n : Nat)

def start : ServedStream := ⟨.reading, [], none, .start, .start⟩

/-- The task returns. A stream that is dropped is finished, and so is the connection to the remote. -/
def close (s : ServedStream) (result : Except CoreError Unit) : ServedStream :=
  { s with
    stage := .ended result
    upward := { s.upward with sink := s.upward.sink.finish }
    downward := { s.downward with sink := s.downward.sink.finish } }

def respond (config : StreamConfig) (s : ServedStream) (ok : Bool) (message : String) (next : Answer) :
    Option ServedStream :=
  match writeTcpResponse config.padding ok message with
  | .ok frame => some { s with stage := .responding frame next }
  | .error _ => none

def dispatch (config : StreamConfig) (s : ServedStream) (reqAddr : String) : Option ServedStream :=
  if isHealthcheckRequest reqAddr then s.respond config true "Connected" .healthCheck
  else if isSpeedtestRequest reqAddr then
    if !config.speedTestEnabled then
      s.respond config false "speed test disabled" (.refuse (.dial "speed test disabled"))
    else s.respond config true "Connected" .speedTest
  else some { s with stage := .dialing reqAddr, dialed := s.dialed ++ [reqAddr] }

def responded (s : ServedStream) : Answer → ServedStream
  | .relay => { s with stage := .relaying }
  | .speedTest => { s with stage := .relaying, remote := some .speedTest }
  | .healthCheck => { s with stage := .checking }
  | .refuse err => s.close (.error err)

/-- With all that the client sends for a health check. -/
def check (s : ServedStream) (payload : List UInt8) : ServedStream :=
  if payload ≠ healthCheckRequest then
    { s with stage := .replying badHealthCheck (.error (.dial "invalid healthcheck payload")) }
  else { s with stage := .replying healthCheckResponse (.ok ()) }

def emit (s : ServedStream) (bytes : List UInt8) : ServedStream :=
  { s with downward := { s.downward with sink := s.downward.sink.write bytes } }

def took (s : ServedStream) (pipe : Pipe UInt8) : ServedStream :=
  { s with upward := { s.upward with source := pipe } }

/-- What a failure of the streams, or of one of the two copies, makes of the task. -/
def failed (s : ServedStream) (text : String) : Option ServedStream :=
  match s.stage with
  | .ended _ => none
  | .dialing _ => none
  | .relaying => some (s.close (.ok ()))
  | .responding _ (.refuse err) => some (s.close (.error err))
  | .replying _ (.error err) => some (s.close (.error err))
  | _ => some (s.close (.error (.transport text)))

def step (config : StreamConfig) (s : ServedStream) : Event → Option ServedStream
  | .reads =>
    match s.stage with
    | .reading => do
      match ← readArrived RuntimeIo.readFramedTcpRequest s.upward.source with
      | .ok (reqAddr, pipe) => (s.took pipe).dispatch config reqAddr
      | .error err => return s.close (.error err)
    | .checking => do
      match ← readToEnd 64 s.upward.source with
      | .ok (payload, pipe) => return (s.took pipe).check payload
      | .error err => return s.close (.error err)
    | _ => none
  | .dials result =>
    match s.stage, result with
    | .dialing addr, .ok () => { s with remote := some (.target addr) }.respond config true "Connected" .relay
    | .dialing _, .error err => s.respond config false err.text (.refuse (.dial err.text))
    | _, _ => none
  | .writes n =>
    match s.stage with
    | .responding unsent next =>
      if 0 < n ∧ n ≤ unsent.length then
        let s := s.emit (unsent.take n)
        if unsent.drop n = [] then some (s.responded next)
        else some { s with stage := .responding (unsent.drop n) next }
      else none
    | .replying unsent result =>
      if 0 < n ∧ n ≤ unsent.length then
        let s := s.emit (unsent.take n)
        if unsent.drop n = [] then some (s.close result)
        else some { s with stage := .replying (unsent.drop n) result }
      else none
    | _ => none
  | .upward event =>
    if s.stage = .relaying then (s.upward.step event).map fun lane => { s with upward := lane } else none
  | .downward event =>
    if s.stage = .relaying then (s.downward.step event).map fun lane => { s with downward := lane } else none
  | .returns =>
    if s.stage = .relaying ∧ s.upward.copy = .done ∧ s.downward.copy = .done then some (s.close (.ok ())) else none
  | .fails text => s.failed text
  | .remoteWrites bytes =>
    if s.remote.isSome ∧ ¬ s.downward.source.finished then
      some { s with downward := { s.downward with source := s.downward.source.write bytes } }
    else none
  | .remoteShutsDown =>
    if s.remote.isSome then some { s with downward := { s.downward with source := s.downward.source.finish } } else none
  | .remoteReads n => some { s with upward := { s.upward with sink := s.upward.sink.take n } }

def frame (config : StreamConfig) (ok : Bool) (message : String) : List UInt8 := responseFrame config.padding ok message

structure Requested (s : ServedStream) (reqAddr : String) (pipe : Pipe UInt8) : Prop where
  reading : s.stage = .reading
  arrived : readArrived RuntimeIo.readFramedTcpRequest s.upward.source = some (.ok (reqAddr, pipe))

inductive Step (config : StreamConfig) (s : ServedStream) : ServedStream → Prop where
  | healthCheck {reqAddr : String} {pipe : Pipe UInt8} (requested : s.Requested reqAddr pipe)
      (health : isHealthcheckRequest reqAddr) :
      Step config s { s.took pipe with stage := .responding (frame config true "Connected") .healthCheck }
  | speedTest {reqAddr : String} {pipe : Pipe UInt8} (requested : s.Requested reqAddr pipe)
      (notHealth : isHealthcheckRequest reqAddr = false) (speed : isSpeedtestRequest reqAddr)
      (enabled : config.speedTestEnabled) :
      Step config s { s.took pipe with stage := .responding (frame config true "Connected") .speedTest }
  | speedTestDisabled {reqAddr : String} {pipe : Pipe UInt8} (requested : s.Requested reqAddr pipe) :
      Step config s { s.took pipe with
        stage := .responding (frame config false "speed test disabled") (.refuse (.dial "speed test disabled")) }
  | dials {reqAddr : String} {pipe : Pipe UInt8} (requested : s.Requested reqAddr pipe)
      (notHealth : isHealthcheckRequest reqAddr = false) (notSpeed : isSpeedtestRequest reqAddr = false) :
      Step config s { s.took pipe with stage := .dialing reqAddr, dialed := s.dialed ++ [reqAddr] }
  | checked {payload : List UInt8} {pipe : Pipe UInt8} (checking : s.stage = .checking)
      (read : readToEnd 64 s.upward.source = some (.ok (payload, pipe))) :
      Step config s ((s.took pipe).check payload)
  | dialed {addr : String} (dialing : s.stage = .dialing addr) :
      Step config s { s with
        stage := .responding (frame config true "Connected") .relay
        remote := some (.target addr) }
  | refused {addr : String} (dialing : s.stage = .dialing addr) (err : ErrorText) :
      Step config s { s with stage := .responding (frame config false err.text) (.refuse (.dial err.text)) }
  | wrote {unsent : List UInt8} {next : Answer} (responding : s.stage = .responding unsent next) (n : Nat) :
      Step config s { s.emit (unsent.take n) with stage := .responding (unsent.drop n) next }
  | responded {unsent : List UInt8} {next : Answer} (responding : s.stage = .responding unsent next) :
      Step config s ((s.emit unsent).responded next)
  | repliedPart {unsent : List UInt8} {result : Except CoreError Unit} (replying : s.stage = .replying unsent result)
      (n : Nat) : Step config s { s.emit (unsent.take n) with stage := .replying (unsent.drop n) result }
  | replied {unsent : List UInt8} {result : Except CoreError Unit} (replying : s.stage = .replying unsent result) :
      Step config s ((s.emit unsent).close result)
  | upward {lane : Lane} (relaying : s.stage = .relaying) (step : s.upward.Step lane) :
      Step config s { s with upward := lane }
  | downward {lane : Lane} (relaying : s.stage = .relaying) (step : s.downward.Step lane) :
      Step config s { s with downward := lane }
  | returned (relaying : s.stage = .relaying) : Step config s (s.close (.ok ()))
  | failed {err : CoreError} (running : ∀ result, s.stage ≠ .ended result) : Step config s (s.close (.error err))
  | remoteWrote (bytes : List UInt8) (connected : s.remote.isSome) (unfinished : ¬ s.downward.source.finished) :
      Step config s { s with downward := { s.downward with source := s.downward.source.write bytes } }
  | remoteShut (connected : s.remote.isSome) :
      Step config s { s with downward := { s.downward with source := s.downward.source.finish } }
  | remoteRead (n : Nat) : Step config s { s with upward := { s.upward with sink := s.upward.sink.take n } }

theorem respond_eq (config : StreamConfig) (s : ServedStream) (ok : Bool) {message : String} (next : Answer)
    (hfits : message.utf8ByteSize ≤ 2 ^ 62 - 1) :
    s.respond config ok message next = some { s with stage := .responding (frame config ok message) next } := by
  have hpadding : config.padding.utf8ByteSize < 1024 := config.draws.2
  rw [respond, writeTcpResponse_eq ok hfits (by omega)]
  rfl

variable {config : StreamConfig} {s after : ServedStream}

theorem step_dispatch {reqAddr : String} {pipe : Pipe UInt8} (requested : s.Requested reqAddr pipe)
    (h : (s.took pipe).dispatch config reqAddr = some after) : Step config s after := by
  unfold dispatch at h
  split at h
  · next hhealth =>
    rw [respond_eq config _ true _ (by decide)] at h
    cases h
    exact .healthCheck requested hhealth
  · next hnot =>
    split at h
    · next hspeed =>
      split at h
      · rw [respond_eq config _ false _ (by decide)] at h
        cases h
        exact .speedTestDisabled requested
      · next henabled =>
        rw [respond_eq config _ true _ (by decide)] at h
        cases h
        exact .speedTest requested (by simpa using hnot) hspeed (by simpa using henabled)
    · next hspeed =>
      cases h
      exact .dials requested (by simpa using hnot) (by simpa using hspeed)

theorem step_reads (h : s.step config .reads = some after) : Step config s after := by
  simp only [step] at h
  split at h
  · next hreading =>
    obtain ⟨arrived, harrived, hnext⟩ := Option.bind_eq_some_iff.mp h
    match arrived with
    | .ok (reqAddr, pipe) => exact step_dispatch ⟨hreading, harrived⟩ hnext
    | .error err =>
      cases hnext
      exact .failed (by simp [hreading])
  · next hchecking =>
    obtain ⟨arrived, harrived, hnext⟩ := Option.bind_eq_some_iff.mp h
    match arrived with
    | .ok (payload, pipe) =>
      cases hnext
      exact .checked hchecking harrived
    | .error err =>
      cases hnext
      exact .failed (by simp [hchecking])
  · cases h

theorem step_dials {result : Except ErrorText Unit} (h : s.step config (.dials result) = some after) :
    Step config s after := by
  simp only [step] at h
  split at h
  · next hdialing =>
    rw [respond_eq config _ true _ (by decide)] at h
    cases h
    exact .dialed hdialing
  · next err hdialing =>
    rw [respond_eq config _ false _ err.fits] at h
    cases h
    exact .refused hdialing err
  · cases h

theorem step_writes {n : Nat} (h : s.step config (.writes n) = some after) : Step config s after := by
  simp only [step] at h
  split at h
  · next unsent next hresponding =>
    obtain ⟨hn, hwritten⟩ := Option.ite_none_right_eq_some.mp h
    split at hwritten
    · next hall =>
      cases hwritten
      rw [List.take_of_length_le (List.drop_eq_nil_iff.mp hall)]
      exact .responded hresponding
    · cases hwritten
      exact .wrote hresponding n
  · next unsent result hreplying =>
    obtain ⟨hn, hwritten⟩ := Option.ite_none_right_eq_some.mp h
    split at hwritten
    · next hall =>
      cases hwritten
      rw [List.take_of_length_le (List.drop_eq_nil_iff.mp hall)]
      exact .replied hreplying
    · cases hwritten
      exact .repliedPart hreplying n
  · cases h

theorem step_fails {text : String} (h : s.step config (.fails text) = some after) : Step config s after := by
  simp only [step, failed] at h
  split at h
  · cases h
  · cases h
  · next hrelaying =>
    cases h
    exact .returned hrelaying
  · next hstage =>
    cases h
    exact .failed (by simp [hstage])
  · next hstage =>
    cases h
    exact .failed (by simp [hstage])
  · next hended _ _ _ _ =>
    cases h
    exact .failed hended

theorem step_cases {event : Event} (h : s.step config event = some after) : Step config s after := by
  cases event with
  | reads => exact step_reads h
  | dials result => exact step_dials h
  | writes n => exact step_writes h
  | upward event =>
    obtain ⟨hrelaying, hmapped⟩ := Option.ite_none_right_eq_some.mp h
    obtain ⟨lane, hlane, ⟨⟩⟩ := Option.map_eq_some_iff.mp hmapped
    exact .upward hrelaying (Lane.step_cases hlane)
  | downward event =>
    obtain ⟨hrelaying, hmapped⟩ := Option.ite_none_right_eq_some.mp h
    obtain ⟨lane, hlane, ⟨⟩⟩ := Option.map_eq_some_iff.mp hmapped
    exact .downward hrelaying (Lane.step_cases hlane)
  | returns =>
    obtain ⟨⟨hrelaying, -, -⟩, ⟨⟩⟩ := Option.ite_none_right_eq_some.mp h
    exact .returned hrelaying
  | fails text => exact step_fails h
  | remoteWrites bytes =>
    obtain ⟨⟨hconnected, hunfinished⟩, ⟨⟩⟩ := Option.ite_none_right_eq_some.mp h
    exact .remoteWrote bytes hconnected hunfinished
  | remoteShutsDown =>
    obtain ⟨hconnected, ⟨⟩⟩ := Option.ite_none_right_eq_some.mp h
    exact .remoteShut hconnected
  | remoteReads n =>
    cases h
    exact .remoteRead n

end ServedStream
end Hysteria.Core
