import Hysteria.Core.DefraggerRun
import Hysteria.Lib.Transition

/-! The server's UDP loop, `run_server_udp` in `udp.rs`. The loop owns the sessions;
each open socket has a receive task of its own, which reports its end over the close
channel by session id. Tasks run beside the loop and can be aborted: an aborted task
stops at its next suspension, so that one being polled still runs to that point. -/
namespace Hysteria.Core
open Lib

/-- Sockets and receive tasks come in pairs and carry the same number. -/
structure ServerUdpSession where
  sessionId : UInt32
  defragger : Defragger
  socket : Option Nat
  resolvedTargets : List String
  receiveTask : Option Nat
  lastActivity : Nat

inductive TaskStatus where
  | idle
  | polling
  | finished
deriving DecidableEq, Repr

structure ReceiveTask where
  sessionId : UInt32
  status : TaskStatus
  aborted : Bool
deriving DecidableEq, Repr

/-- The channel carries the session id only; which task sent it is what the loop
cannot see. -/
structure CloseNotice where
  sessionId : UInt32
  sender : Nat
deriving DecidableEq, Repr

/-- The loop waits in `select!`, or is in `feed` with a message to send, or has ended. -/
inductive ServerLoop where
  | selecting
  | feeding (sessionId : UInt32) (message : UDPMessage)
  | ended
deriving DecidableEq, Repr

structure ServerUdp where
  sessions : PartialMap UInt32 ServerUdpSession
  tasks : List ReceiveTask
  closeRx : List CloseNotice
  serverLoop : ServerLoop

namespace ServerUdpSession

def new (sessionId : UInt32) (now : Nat) : ServerUdpSession where
  sessionId := sessionId
  defragger := .empty
  socket := none
  resolvedTargets := []
  receiveTask := none
  lastActivity := now

def isIdle (session : ServerUdpSession) (now timeout : Nat) : Bool :=
  now - session.lastActivity > timeout

/-- `ResolvedUdpTargets::resolve`: a destination is looked up once. -/
def resolve (session : ServerUdpSession) (addr : String) (targetResolves : Bool) :
    Option ServerUdpSession :=
  if addr ∈ session.resolvedTargets then some session
  else if targetResolves then
    some { session with resolvedTargets := addr :: session.resolvedTargets }
  else none

def closed (session : ServerUdpSession) : ServerUdpSession :=
  { session with receiveTask := none, socket := none }

end ServerUdpSession

def abortTask (tasks : List ReceiveTask) : Option Nat → List ReceiveTask
  | some n => tasks.modify n fun task => { task with aborted := true }
  | none => tasks

namespace ServerUdp

def new : ServerUdp where
  sessions := .empty
  tasks := []
  closeRx := []
  serverLoop := .selecting

def removeSession (s : ServerUdp) (sessionId : UInt32) (session : ServerUdpSession) : ServerUdp :=
  { s with
    sessions := s.sessions.remove sessionId
    tasks := abortTask s.tasks session.receiveTask }

/-- Closing a session after an error in `feed`: it stays in the map. -/
def closeSession (s : ServerUdp) (sessionId : UInt32) (session : ServerUdpSession) : ServerUdp :=
  { s with
    sessions := s.sessions.insert sessionId session.closed
    tasks := abortTask s.tasks session.receiveTask
    serverLoop := .selecting }

/-- The end of `init_socket`: the receive task is spawned. -/
def openSocket (s : ServerUdp) (sessionId : UInt32) (session : ServerUdpSession) : ServerUdp :=
  { s with
    sessions := s.sessions.insert sessionId
      { session with socket := some s.tasks.length, receiveTask := some s.tasks.length }
    tasks := s.tasks ++ [⟨session.sessionId, .idle, false⟩] }

/-- `datagram` is a datagram that `parse_udp_message` accepts, up to the point where
a message is complete and has a socket; `sendPacket` is the rest of `feed`. `expire`
and `closeLeft` are one turn of the loops over idle and over remaining sessions. -/
inductive Event where
  | expire (sessionId : UInt32) (now : Nat)
  | closeNotice
  | datagram (message : UDPMessage) (now : Nat) (socketOpens : Bool)
  | sendPacket (targetResolves packetSent : Bool)
  | connectionLost
  | closeLeft (sessionId : UInt32)
  | pollTask (n : Nat)
  | yieldTask (n : Nat)
  | endTask (n : Nat)

/-- `feed` up to the point where its message has a socket. -/
def feedMessage (profile : Profile) (s : ServerUdp) (message : UDPMessage) (now : Nat)
    (socketOpens : Bool) : Option ServerUdp :=
  let sessionId := message.sessionId
  let session := (s.sessions.get sessionId).getD (.new sessionId now)
  match (session.defragger.feed profile message : Exec Empty _) with
  | .ok (none, defragger) => some { s with
      sessions := s.sessions.insert sessionId { session with defragger, lastActivity := now } }
  | .ok (some message, defragger) =>
    let session := { session with defragger, lastActivity := now }
    let s := { s with
      sessions := s.sessions.insert sessionId session
      serverLoop := .feeding sessionId message }
    match session.socket with
    | some _ => some s
    | none => if socketOpens then some (s.openSocket sessionId session)
        else some (s.closeSession sessionId session)
  | .error _ => none

def step (profile : Profile) (timeout : Nat) (s : ServerUdp) : Event → Option ServerUdp
  | .expire sessionId now =>
    match s.serverLoop, s.sessions.get sessionId with
    | .selecting, some session =>
      if session.isIdle now timeout then some (s.removeSession sessionId session) else none
    | _, _ => none
  | .closeNotice =>
    match s.serverLoop, s.closeRx with
    | .selecting, notice :: rest =>
      match s.sessions.get notice.sessionId with
      | some session => some { s.removeSession notice.sessionId session with closeRx := rest }
      | none => some { s with closeRx := rest }
    | _, _ => none
  | .datagram message now socketOpens =>
    match s.serverLoop with
    | .selecting => s.feedMessage profile message now socketOpens
    | _ => none
  | .sendPacket targetResolves packetSent =>
    match s.serverLoop with
    | .feeding sessionId message =>
      match s.sessions.get sessionId with
      | some session =>
        match session.resolve message.addr targetResolves with
        | some session =>
          if packetSent then some { s with
            sessions := s.sessions.insert sessionId session, serverLoop := .selecting }
          else some (s.closeSession sessionId session)
        | none => some (s.closeSession sessionId session)
      | none => none
    | _ => none
  | .connectionLost =>
    match s.serverLoop with
    | .selecting => some { s with serverLoop := .ended }
    | _ => none
  | .closeLeft sessionId =>
    match s.serverLoop, s.sessions.get sessionId with
    | .ended, some session => some (s.removeSession sessionId session)
    | _, _ => none
  | .pollTask n =>
    match s.tasks[n]? with
    | some ⟨sessionId, .idle, false⟩ =>
      some { s with tasks := s.tasks.set n ⟨sessionId, .polling, false⟩ }
    | _ => none
  | .yieldTask n =>
    match s.tasks[n]? with
    | some ⟨sessionId, .polling, aborted⟩ =>
      some { s with
        tasks := s.tasks.set n ⟨sessionId, if aborted then .finished else .idle, aborted⟩ }
    | _ => none
  | .endTask n =>
    match s.tasks[n]? with
    | some ⟨sessionId, .polling, aborted⟩ => some { s with
        tasks := s.tasks.set n ⟨sessionId, .finished, aborted⟩
        closeRx := s.closeRx ++ [⟨sessionId, n⟩] }
    | _ => none

inductive Step (profile : Profile) (timeout : Nat) (s : ServerUdp) : Event → ServerUdp → Prop where
  | expired {sessionId : UInt32} {now : Nat} {session : ServerUdpSession} :
      s.sessions.get sessionId = some session →
      Step profile timeout s (.expire sessionId now) (s.removeSession sessionId session)
  | noticed {notice : CloseNotice} {rest : List CloseNotice} {session : ServerUdpSession} :
      s.closeRx = notice :: rest → s.sessions.get notice.sessionId = some session →
      Step profile timeout s .closeNotice { s.removeSession notice.sessionId session with closeRx := rest }
  | ignored {notice : CloseNotice} {rest : List CloseNotice} : s.closeRx = notice :: rest →
      Step profile timeout s .closeNotice { s with closeRx := rest }
  | fed {message : UDPMessage} {now : Nat} {socketOpens : Bool} {after : ServerUdp} :
      s.feedMessage profile message now socketOpens = some after →
      Step profile timeout s (.datagram message now socketOpens) after
  | sent {sessionId : UInt32} {message : UDPMessage} {session resolved : ServerUdpSession} {targetResolves : Bool} :
      s.serverLoop = .feeding sessionId message → s.sessions.get sessionId = some session →
      session.resolve message.addr targetResolves = some resolved →
      Step profile timeout s (.sendPacket targetResolves true) { s with
        sessions := s.sessions.insert sessionId resolved, serverLoop := .selecting }
  | unsent {sessionId : UInt32} {message : UDPMessage} {session resolved : ServerUdpSession} {targetResolves : Bool} :
      s.serverLoop = .feeding sessionId message → s.sessions.get sessionId = some session →
      session.resolve message.addr targetResolves = some resolved →
      Step profile timeout s (.sendPacket targetResolves false) (s.closeSession sessionId resolved)
  | unresolved {sessionId : UInt32} {message : UDPMessage} {session : ServerUdpSession}
      {targetResolves packetSent : Bool} :
      s.serverLoop = .feeding sessionId message → s.sessions.get sessionId = some session →
      Step profile timeout s (.sendPacket targetResolves packetSent) (s.closeSession sessionId session)
  | lost : Step profile timeout s .connectionLost { s with serverLoop := .ended }
  | left {sessionId : UInt32} {session : ServerUdpSession} : s.sessions.get sessionId = some session →
      Step profile timeout s (.closeLeft sessionId) (s.removeSession sessionId session)
  | polled {n : Nat} {sessionId : UInt32} : s.tasks[n]? = some ⟨sessionId, .idle, false⟩ →
      Step profile timeout s (.pollTask n) { s with tasks := s.tasks.set n ⟨sessionId, .polling, false⟩ }
  | yielded {n : Nat} {sessionId : UInt32} {aborted : Bool} : s.tasks[n]? = some ⟨sessionId, .polling, aborted⟩ →
      Step profile timeout s (.yieldTask n) { s with
        tasks := s.tasks.set n ⟨sessionId, if aborted then .finished else .idle, aborted⟩ }
  | ended {n : Nat} {sessionId : UInt32} {aborted : Bool} : s.tasks[n]? = some ⟨sessionId, .polling, aborted⟩ →
      Step profile timeout s (.endTask n) { s with
        tasks := s.tasks.set n ⟨sessionId, .finished, aborted⟩
        closeRx := s.closeRx ++ [⟨sessionId, n⟩] }

theorem step_cases {profile : Profile} {timeout : Nat} {s after : ServerUdp} {event : Event}
    (h : step profile timeout s event = some after) : Step profile timeout s event after := by
  cases event with
  | expire sessionId now =>
    simp only [step] at h
    split at h
    case h_1 hget =>
      split at h <;> cases h
      exact .expired hget
    case h_2 => cases h
  | closeNotice =>
    simp only [step] at h
    split at h
    case h_1 hrx =>
      split at h <;> cases h
      case h_1 hget => exact .noticed hrx hget
      case h_2 => exact .ignored hrx
    case h_2 => cases h
  | datagram message now socketOpens =>
    simp only [step] at h
    split at h
    case h_1 => exact .fed h
    case h_2 => cases h
  | sendPacket targetResolves packetSent =>
    simp only [step] at h
    split at h
    case h_1 hloop =>
      split at h
      case h_1 hget =>
        split at h
        case h_1 hresolve =>
          cases packetSent <;> cases h
          · exact .unsent hloop hget hresolve
          · exact .sent hloop hget hresolve
        case h_2 =>
          cases h
          exact .unresolved hloop hget
      case h_2 => cases h
    case h_2 => cases h
  | connectionLost =>
    simp only [step] at h
    split at h <;> cases h
    exact .lost
  | closeLeft sessionId =>
    simp only [step] at h
    split at h <;> cases h
    case h_1 hget => exact .left hget
  | pollTask n =>
    simp only [step] at h
    split at h <;> cases h
    case h_1 htask => exact .polled htask
  | yieldTask n =>
    simp only [step] at h
    split at h <;> cases h
    case h_1 htask => exact .yielded htask
  | endTask n =>
    simp only [step] at h
    split at h <;> cases h
    case h_1 htask => exact .ended htask

end ServerUdp
end Hysteria.Core
