import Hysteria.Core.ServedStreamInvariant

/-! What the server's task for a stream does for any client, also one that does not keep to the
protocol: it dials only what it has read as a whole request from the beginning of the stream, and passes on
only what comes behind it. -/
namespace Hysteria.Core
open Lib

namespace ServedStream

inductive ClientEvent where
  | writes (bytes : List UInt8)
  | finishes
  | reads (n : Nat)
deriving DecidableEq, Repr

def clientStep (s : ServedStream) : ClientEvent → Option ServedStream
  | .writes bytes => if ¬ s.upward.source.finished then some (s.took (s.upward.source.write bytes)) else none
  | .finishes => some (s.took s.upward.source.finish)
  | .reads n => some { s with downward := { s.downward with sink := s.downward.sink.take n } }

/-- Bytes from which a request for the address is read, whatever follows them. -/
def Requests (frame : List UInt8) (addr : String) : Prop :=
  ∀ more, RuntimeIo.readFramedTcpRequest (frame ++ more) = .ok (addr, more)

/-- The stages in which all that was read behind the request goes to the remote. -/
def Copies : Serving → Prop
  | .dialing _ => True
  | .responding _ _ => True
  | .checking => True
  | .relaying => True
  | _ => False

def TestsSpeed (s : ServedStream) : Prop :=
  (∃ unsent, s.stage = .responding unsent .speedTest) ∨ s.remote = some .speedTest

structure Unasked (s : ServedStream) : Prop where
  stage : s.stage = .reading ∨ ∃ result, s.stage = .ended result
  fresh : s.stage = .reading → s.upward.source.taken = []
  dialed : s.dialed = []
  remote : s.remote = none
  copy : s.upward.copy = .reading
  sent : s.upward.sink.sent = []

structure Asked (s : ServedStream) (frame : List UInt8) (addr : String) : Prop where
  started : s.stage ≠ .reading
  dialed : s.dialed = [] ∨ s.dialed = [addr] ∧ isHealthcheckRequest addr = false ∧ isSpeedtestRequest addr = false
  dialing : ∀ dialing, s.stage = .dialing dialing → s.dialed = [dialing]
  remote : ∀ target, s.remote = some (.target target) → s.dialed = [target]
  speedTest : s.TestsSpeed → isSpeedtestRequest addr
  sent : frame ++ s.upward.sink.sent <+: s.upward.source.taken
  copying : Copies s.stage → s.upward.source.taken = frame ++ s.upward.sink.sent ++ s.upward.copy.rest

inductive Served (s : ServedStream) : Prop where
  | unasked (h : s.Unasked)
  | asked {frame : List UInt8} {addr : String} (requests : Requests frame addr) (h : s.Asked frame addr)

variable {config : StreamConfig} {s after : ServedStream} {frame : List UInt8} {addr : String}

theorem unasked_start : start.Unasked := ⟨.inl rfl, fun _ => rfl, rfl, rfl, rfl, rfl⟩

theorem Requested.requests {reqAddr : String} {pipe : Pipe UInt8} (h : s.Requested reqAddr pipe)
    (hfresh : s.upward.source.taken = []) : Requests pipe.taken reqAddr := by
  obtain ⟨rest, hread, rfl⟩ := readArrived_ok h.arrived
  obtain ⟨frame, hframe, hrequests⟩ := RuntimeIo.incremental_readFramedTcpRequest.taken hread
  have htaken : (s.upward.source.take (s.upward.source.pending.length - rest.length)).taken = frame := by
    rw [Pipe.taken_take, hfresh, List.nil_append, hframe, List.length_append, Nat.add_sub_cancel, List.take_left]
  rw [htaken]
  exact hrequests

structure SameUpward (s after : ServedStream) : Prop where
  same : s.SameRemote after
  taken : after.upward.source.taken = s.upward.source.taken
  copy : after.upward.copy = s.upward.copy
  sent : after.upward.sink.sent = s.upward.sink.sent

theorem Unasked.close (h : s.Unasked) (result : Except CoreError Unit) : (s.close result).Unasked :=
  ⟨.inr ⟨result, rfl⟩, nofun, h.dialed, h.remote, h.copy, h.sent⟩

theorem Asked.enter (h : s.Asked frame addr) (hsame : s.SameUpward after) (hstarted : after.stage ≠ .reading)
    (hdialing : ∀ dialing, after.stage ≠ .dialing dialing)
    (hspeed : ∀ unsent, after.stage = .responding unsent .speedTest → s.TestsSpeed)
    (hcopies : Copies after.stage → Copies s.stage) : after.Asked frame addr where
  started := hstarted
  dialed := hsame.same.dialed ▸ h.dialed
  dialing dialing hstage := absurd hstage (hdialing dialing)
  remote target htarget := hsame.same.dialed ▸ h.remote target (hsame.same.remote ▸ htarget)
  speedTest htests := by
    rcases htests with ⟨unsent, hstage⟩ | hremote
    · exact h.speedTest (hspeed unsent hstage)
    · exact h.speedTest (.inr (hsame.same.remote.symm.trans hremote))
  sent := by
    rw [hsame.sent, hsame.taken]
    exact h.sent
  copying hafter := by
    rw [hsame.taken, hsame.sent, hsame.copy]
    exact h.copying (hcopies hafter)

theorem Asked.close (h : s.Asked frame addr) (result : Except CoreError Unit) : (s.close result).Asked frame addr :=
  h.enter ⟨⟨rfl, rfl⟩, rfl, rfl, rfl⟩ nofun nofun nofun False.elim

theorem Asked.stay (h : s.Asked frame addr) (hstage : after.stage = s.stage) (hsame : s.SameUpward after) :
    after.Asked frame addr where
  started := hstage ▸ h.started
  dialed := hsame.same.dialed ▸ h.dialed
  dialing dialing hdialing := hsame.same.dialed ▸ h.dialing dialing (hstage ▸ hdialing)
  remote target htarget := hsame.same.dialed ▸ h.remote target (hsame.same.remote ▸ htarget)
  speedTest htests := h.speedTest (by rwa [TestsSpeed, hstage, hsame.same.remote] at htests)
  sent := by
    rw [hsame.sent, hsame.taken]
    exact h.sent
  copying hafter := by
    rw [hsame.taken, hsame.sent, hsame.copy]
    exact h.copying (hstage ▸ hafter)

theorem Served.stay (h : s.Served) (hstage : after.stage = s.stage) (hsame : s.SameUpward after) : after.Served := by
  cases h with
  | unasked h =>
    exact .unasked ⟨hstage ▸ h.stage, fun hreading => hsame.taken.trans (h.fresh (hstage ▸ hreading)),
      hsame.same.dialed.trans h.dialed, hsame.same.remote.trans h.remote, hsame.copy.trans h.copy,
      hsame.sent.trans h.sent⟩
  | asked hrequests h => exact .asked hrequests (h.stay hstage hsame)

theorem Served.asked_of_stage (h : s.Served) (hreading : s.stage ≠ .reading) (hended : ∀ result, s.stage ≠ .ended result) :
    ∃ frame addr, Requests frame addr ∧ s.Asked frame addr := by
  cases h with
  | unasked h =>
    rcases h.stage with hstage | ⟨result, hstage⟩
    · exact absurd hstage hreading
    · exact absurd hstage (hended result)
  | asked hrequests h => exact ⟨_, _, hrequests, h⟩

theorem Served.close (h : s.Served) (result : Except CoreError Unit) : (s.close result).Served := by
  cases h with
  | unasked h => exact .unasked (h.close result)
  | asked hrequests h => exact .asked hrequests (h.close result)

theorem Served.unasked_of_reading (h : s.Served) (hreading : s.stage = .reading) : s.Unasked := by
  cases h with
  | unasked h => exact h
  | asked _ h => exact absurd hreading h.started

theorem Served.requested {reqAddr : String} {pipe : Pipe UInt8} {stage : Serving} {dialed : List String} (h : s.Served)
    (hrequested : s.Requested reqAddr pipe) (hstage : stage ≠ .reading)
    (hdialed : dialed = [] ∨ dialed = [reqAddr] ∧ isHealthcheckRequest reqAddr = false ∧ isSpeedtestRequest reqAddr = false)
    (hdialing : ∀ dialing, stage = .dialing dialing → dialed = [dialing])
    (hspeed : ∀ unsent, stage = .responding unsent .speedTest → isSpeedtestRequest reqAddr) :
    Served { s.took pipe with stage, dialed } := by
  have hunasked := h.unasked_of_reading hrequested.reading
  refine .asked (hrequested.requests (hunasked.fresh hrequested.reading)) ⟨hstage, hdialed, hdialing, ?_, ?_, ?_, ?_⟩
  · intro target htarget
    exact absurd (hunasked.remote.symm.trans htarget) nofun
  · rintro (⟨unsent, hresponding⟩ | hremote)
    · exact hspeed unsent hresponding
    · exact absurd (hunasked.remote.symm.trans hremote) nofun
  · change pipe.taken ++ s.upward.sink.sent <+: pipe.taken
    rw [hunasked.sent, List.append_nil]
  · intro _
    change pipe.taken = pipe.taken ++ s.upward.sink.sent ++ s.upward.copy.rest
    rw [hunasked.sent, hunasked.copy, Copy.rest_reading, List.append_nil, List.append_nil]

theorem Asked.upward {lane : Lane} (h : s.Asked frame addr) (hrelaying : s.stage = .relaying)
    (hstep : s.upward.Step lane) : Asked { s with upward := lane } frame addr := by
  have htaken : s.upward.source.taken = frame ++ s.upward.sink.sent ++ s.upward.copy.rest := by
    refine h.copying ?_
    rw [hrelaying]
    trivial
  have hcopied : lane.source.taken = frame ++ lane.sink.sent ++ lane.copy.rest := by
    cases hstep with
    | read hreading hpos hle =>
      rw [hreading, Copy.rest_reading, List.append_nil] at htaken
      rw [Pipe.taken_take, Copy.rest_withRest, htaken]
    | @write n hpos hle =>
      rw [Pipe.sent_write, Copy.rest_withRest, htaken]
      simp only [List.append_assoc, List.take_append_drop]
    | shutdown hreading hended hfinished =>
      rw [hreading] at htaken
      exact htaken
  exact ⟨h.started, h.dialed, h.dialing, h.remote, h.speedTest, hcopied ▸ List.prefix_append _ _, fun _ => hcopied⟩

theorem Asked.checked {payload : List UInt8} {pipe : Pipe UInt8} (h : s.Asked frame addr)
    (hread : readToEnd 64 s.upward.source = some (.ok (payload, pipe))) : ((s.took pipe).check payload).Asked frame addr := by
  obtain ⟨-, -, rfl⟩ := readToEnd_ok hread
  have hsent : frame ++ s.upward.sink.sent <+: (s.upward.source.take s.upward.source.pending.length).taken := by
    rw [Pipe.taken_take]
    exact h.sent.trans (List.prefix_append _ _)
  have hspeed {stage : Serving} (hother : ∀ unsent, stage ≠ .responding unsent .speedTest) :
      TestsSpeed { s.took (s.upward.source.take s.upward.source.pending.length) with stage } →
        isSpeedtestRequest addr := by
    rintro (⟨unsent, hstage⟩ | hremote)
    · exact absurd hstage (hother unsent)
    · exact h.speedTest (.inr hremote)
  unfold check
  split
  all_goals exact ⟨nofun, h.dialed, nofun, h.remote, hspeed nofun, hsent, False.elim⟩

theorem Asked.dialed_target (h : s.Asked frame addr) {dialing : String} (hstage : s.stage = .dialing dialing)
    (unsent : List UInt8) :
    Asked { s with stage := .responding unsent .relay, remote := some (.target dialing) } frame addr where
  started := nofun
  dialed := h.dialed
  dialing := nofun
  remote target htarget := by
    cases htarget
    exact h.dialing dialing hstage
  speedTest := by rintro (⟨_, ⟨⟩⟩ | ⟨⟨⟩⟩)
  sent := h.sent
  copying _ := by
    refine h.copying ?_
    rw [hstage]
    trivial

theorem Asked.responded {unsent : List UInt8} {next : Answer} (h : s.Asked frame addr)
    (hstage : s.stage = .responding unsent next) : ((s.emit unsent).responded next).Asked frame addr := by
  have hcopies (stage : Serving) : Copies stage → Copies s.stage := by
    rw [hstage]
    exact fun _ => trivial
  cases next with
  | relay => exact h.enter ⟨⟨rfl, rfl⟩, rfl, rfl, rfl⟩ nofun nofun nofun (hcopies _)
  | healthCheck => exact h.enter ⟨⟨rfl, rfl⟩, rfl, rfl, rfl⟩ nofun nofun nofun (hcopies _)
  | refuse err => exact h.enter ⟨⟨rfl, rfl⟩, rfl, rfl, rfl⟩ nofun nofun nofun False.elim
  | speedTest =>
    exact ⟨nofun, h.dialed, nofun, nofun, fun _ => h.speedTest (.inl ⟨unsent, hstage⟩), h.sent,
      fun hafter => h.copying (hcopies _ hafter)⟩

theorem Served.step (h : s.Served) (hstep : Step config s after) : after.Served := by
  cases hstep with
  | healthCheck hrequested =>
    exact h.requested hrequested nofun (.inl (h.unasked_of_reading hrequested.reading).dialed) nofun nofun
  | speedTest hrequested _ hspeed =>
    exact h.requested hrequested nofun (.inl (h.unasked_of_reading hrequested.reading).dialed) nofun fun _ _ => hspeed
  | speedTestDisabled hrequested =>
    exact h.requested hrequested nofun (.inl (h.unasked_of_reading hrequested.reading).dialed) nofun nofun
  | @dials reqAddr pipe hrequested hnotHealth hnotSpeed =>
    have hdialed : s.dialed ++ [reqAddr] = [reqAddr] := by
      rw [(h.unasked_of_reading hrequested.reading).dialed, List.nil_append]
    rw [hdialed]
    refine h.requested hrequested nofun (.inr ⟨rfl, hnotHealth, hnotSpeed⟩) ?_ nofun
    rintro _ ⟨⟩
    rfl
  | checked hchecking hread =>
    obtain ⟨_, _, hrequests, hasked⟩ := h.asked_of_stage (by simp [hchecking]) (by simp [hchecking])
    exact .asked hrequests (hasked.checked hread)
  | dialed hdialing =>
    obtain ⟨_, _, hrequests, hasked⟩ := h.asked_of_stage (by simp [hdialing]) (by simp [hdialing])
    exact .asked hrequests (hasked.dialed_target hdialing _)
  | refused hdialing err =>
    obtain ⟨_, _, hrequests, hasked⟩ := h.asked_of_stage (by simp [hdialing]) (by simp [hdialing])
    refine .asked hrequests (hasked.enter ⟨⟨rfl, rfl⟩, rfl, rfl, rfl⟩ nofun nofun nofun fun _ => ?_)
    rw [hdialing]
    trivial
  | wrote hresponding n =>
    obtain ⟨_, _, hrequests, hasked⟩ := h.asked_of_stage (by simp [hresponding]) (by simp [hresponding])
    refine .asked hrequests (hasked.enter ⟨⟨rfl, rfl⟩, rfl, rfl, rfl⟩ nofun nofun ?_ fun _ => ?_)
    · rintro _ ⟨⟩
      exact .inl ⟨_, hresponding⟩
    · rw [hresponding]
      trivial
  | responded hresponding =>
    obtain ⟨_, _, hrequests, hasked⟩ := h.asked_of_stage (by simp [hresponding]) (by simp [hresponding])
    exact .asked hrequests (hasked.responded hresponding)
  | repliedPart hreplying n =>
    obtain ⟨_, _, hrequests, hasked⟩ := h.asked_of_stage (by simp [hreplying]) (by simp [hreplying])
    exact .asked hrequests (hasked.enter ⟨⟨rfl, rfl⟩, rfl, rfl, rfl⟩ nofun nofun nofun False.elim)
  | @replied unsent result hreplying =>
    have hemitted : (s.emit unsent).Served := h.stay rfl ⟨⟨rfl, rfl⟩, rfl, rfl, rfl⟩
    exact hemitted.close result
  | upward hrelaying hlane =>
    obtain ⟨_, _, hrequests, hasked⟩ := h.asked_of_stage (by simp [hrelaying]) (by simp [hrelaying])
    exact .asked hrequests (hasked.upward hrelaying hlane)
  | downward _ _ => exact h.stay rfl ⟨⟨rfl, rfl⟩, rfl, rfl, rfl⟩
  | returned _ => exact h.close _
  | failed _ => exact h.close _
  | remoteWrote _ _ _ => exact h.stay rfl ⟨⟨rfl, rfl⟩, rfl, rfl, rfl⟩
  | remoteShut _ => exact h.stay rfl ⟨⟨rfl, rfl⟩, rfl, rfl, rfl⟩
  | remoteRead n => exact h.stay rfl ⟨⟨rfl, rfl⟩, rfl, rfl, rfl⟩

theorem Served.clientStep {event : ClientEvent} (h : s.Served) (hstep : s.clientStep event = some after) :
    after.Served := by
  cases event with
  | writes bytes =>
    obtain ⟨-, ⟨⟩⟩ := Option.ite_none_right_eq_some.mp hstep
    exact h.stay rfl ⟨⟨rfl, rfl⟩, s.upward.source.taken_write bytes, rfl, rfl⟩
  | finishes =>
    cases hstep
    exact h.stay rfl ⟨⟨rfl, rfl⟩, rfl, rfl, rfl⟩
  | reads n =>
    cases hstep
    exact h.stay rfl ⟨⟨rfl, rfl⟩, rfl, rfl, rfl⟩

/-- What was done for a stream was done for the one request it begins with: nothing else is dialled, no other
request is answered as a speed test, and what is passed on, to the target or to the speed test, is the beginning
of what comes behind it. -/
def ServesRequest (s : ServedStream) : Prop :=
  s.dialed = [] ∧ s.remote = none ∧ s.upward.sink.sent = [] ∨
    ∃ frame addr, Requests frame addr ∧ (s.dialed = [] ∨ s.dialed = [addr]) ∧
      (∀ target, s.remote = some (.target target) → s.dialed = [target]) ∧
      (s.remote = some .speedTest → isSpeedtestRequest addr ∧ s.dialed = []) ∧
      frame ++ s.upward.sink.sent <+: s.upward.source.sent

theorem Served.servesRequest (h : s.Served) : s.ServesRequest := by
  cases h with
  | unasked h => exact .inl ⟨h.dialed, h.remote, h.sent⟩
  | @asked frame addr hrequests h =>
    refine .inr ⟨frame, addr, hrequests, h.dialed.imp_right And.left, h.remote, fun hremote => ?_,
      h.sent.trans s.upward.source.taken_isPrefix⟩
    have hspeed := h.speedTest (.inr hremote)
    rcases h.dialed with hnone | ⟨-, -, hnot⟩
    · exact ⟨hspeed, hnone⟩
    · rw [hspeed] at hnot
      cases hnot

end ServedStream
end Hysteria.Core
